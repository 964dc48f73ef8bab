/-
**Local times and back.**

In a zone that puts its clocks an hour forward and back again, each second has one local time, and
the conversion back finds the second.  The readings of a clock are in order except around the moment
when the clock is put back: an hour of readings occurs twice there.  In its first half the search by
the clock meets the type of the second half, and the trial conversion shows it.

Main definitions:

* `Libc.Inverse` — the conversions of the C library undo each other;
* `TimeZone.Alternates`, `TimeZone.DstRules` — zones with standard and daylight saving time.

Main results:

* `TimeZone.local_split` — **the types the two searches find**: the same, except in the last hour of
  daylight saving time;
* `TimeZone.fromLocalTime_toLocalTime` — a local time is turned back into its second.
-/

import G5.Base.TimeZone

set_option relaxedAutoImplicit false
set_option autoImplicit false

namespace G5

/-- The conversions of the C library undo each other, and `timegm` reads the date and the time. -/
structure Libc.Inverse (libc : Libc) : Prop where
  timegm_gmtimeR : ∀ seconds, libc.timegm (libc.gmtimeR seconds) = seconds
  timegm_congr : ∀ a b : Tm, a.SameTime b → libc.timegm a = libc.timegm b

namespace TimeZone

/-- Standard and daylight saving time follow each other, an hour apart. -/
structure Alternates (a b : Localtime) : Prop where
  isDst : b.isDst = !a.isDst
  offset : if b.isDst then b.gmtOffset = a.gmtOffset + 3600 else a.gmtOffset = b.gmtOffset + 3600

/-- The data of a zone with daylight saving time, or of one without transitions. -/
structure DstRules (data : Data) : Prop where
  usable : data.Usable
  gap : ∀ (i : ℕ) (tr tr' : Transition), data.transitions[i]? = some tr →
    data.transitions[i + 1]? = some tr' → tr.gmttime + 7200 < tr'.gmttime
  localtime : ∀ (i : ℕ) (tr : Transition) (type : Localtime), data.transitions[i]? = some tr →
    typeAt data (i + 1) = .ok type → tr.localtime = tr.gmttime + type.gmtOffset
  alternates : ∀ (k : ℕ) (a b : Localtime), typeAt data k = .ok a → typeAt data (k + 1) = .ok b →
    Alternates a b

/-! ### The order of the transitions -/

/-- Transitions are sorted if each is before the next. -/
theorem sorted_of_next {comp : Comp} {transitions : List Transition}
    (hnext : ∀ (i : ℕ) (tr tr' : Transition), transitions[i]? = some tr →
      transitions[i + 1]? = some tr' → comp.key tr < comp.key tr') :
    Sorted comp transitions := by
  intro i j tr tr' hij htr htr'
  induction j, hij using Nat.le_induction generalizing tr' with
  | base => exact hnext i tr tr' htr htr'
  | succ j hij ih =>
      have hlength := (List.getElem?_eq_some_iff.1 htr').1
      have hget := List.getElem?_eq_getElem (l := transitions) (i := j) (by omega)
      exact lt_trans (ih _ hget) (hnext j _ tr' hget htr')

section

variable {data : Data}

theorem DstRules.sorted_gmttime (h : DstRules data) : Sorted ⟨true⟩ data.transitions := by
  refine sorted_of_next fun i tr tr' htr htr' => ?_
  have hgap := h.gap i tr tr' htr htr'
  change tr.gmttime < tr'.gmttime
  omega

/-- A transition, the type it ends and the one it begins. -/
theorem DstRules.transition (h : DstRules data) {i : ℕ} {tr : Transition}
    (htr : data.transitions[i]? = some tr) :
    ∃ a b, typeAt data i = .ok a ∧ typeAt data (i + 1) = .ok b ∧ b ∈ data.localtimes ∧
      Alternates a b ∧ tr.localtime = tr.gmttime + b.gmtOffset := by
  have hlength := (List.getElem?_eq_some_iff.1 htr).1
  obtain ⟨a, -, ha⟩ := h.usable.typeAt (k := i) (by omega)
  obtain ⟨b, hmem, hb⟩ := h.usable.typeAt (k := i + 1) (by omega)
  exact ⟨a, b, ha, hb, hmem, h.alternates i a b ha hb, h.localtime i tr b htr hb⟩

/-- The offsets of two types in a row are an hour apart. -/
theorem Alternates.offset_range {a b : Localtime} (h : Alternates a b) :
    a.gmtOffset - 3600 ≤ b.gmtOffset ∧ b.gmtOffset ≤ a.gmtOffset + 3600 := by
  have hoffset := h.offset
  split at hoffset
  · omega
  · omega

/-- The clock is put forward at the end of standard time. -/
theorem Alternates.forward {a b : Localtime} (h : Alternates a b) (ha : a.isDst = false) :
    b.gmtOffset = a.gmtOffset + 3600 := by
  have hoffset := h.offset
  rw [h.isDst, ha] at hoffset
  exact hoffset

/-- Where the clock is put back, daylight saving time ends. -/
theorem Alternates.back {a b : Localtime} (h : Alternates a b) (hlt : b.gmtOffset < a.gmtOffset) :
    a.isDst = true ∧ b.isDst = false ∧ a.gmtOffset = b.gmtOffset + 3600 := by
  have hisDst := h.isDst
  have hoffset := h.offset
  cases ha : a.isDst with
  | false =>
      have hforward := h.forward ha
      omega
  | true =>
      rw [ha] at hisDst
      rw [hisDst] at hoffset
      exact ⟨rfl, hisDst, hoffset⟩

/-- The clock is never put back behind the transition before. -/
theorem DstRules.sorted_localtime (h : DstRules data) : Sorted ⟨false⟩ data.transitions := by
  refine sorted_of_next fun i tr tr' htr htr' => ?_
  obtain ⟨-, b, -, hb, -, -, hlocal⟩ := h.transition htr
  obtain ⟨b', c, hb', -, -, halternates, hlocal'⟩ := h.transition htr'
  obtain rfl : b = b' := Except.ok.inj (hb.symm.trans hb')
  have hrange := halternates.offset_range
  have hgap := h.gap i tr tr' htr htr'
  change tr.localtime < tr'.localtime
  omega

/-! ### The two searches -/

/-- **The place of a second's local time** is the place of the second, or, in the last hour of
daylight saving time, the one after it, which is that of the second an hour later. -/
theorem local_split (h : DstRules data) {seconds : ℤ} {k : ℕ} {type : Localtime}
    (hsplit : Split ⟨true⟩ data.transitions seconds k) (htype : typeAt data k = .ok type) :
    Split ⟨false⟩ data.transitions (seconds + type.gmtOffset) k ∨
      type.isDst = true ∧ ∃ next ∈ data.localtimes, typeAt data (k + 1) = .ok next ∧
        next.isDst = false ∧ type.gmtOffset = next.gmtOffset + 3600 ∧
        Split ⟨false⟩ data.transitions (seconds + type.gmtOffset) (k + 1) ∧
        Split ⟨true⟩ data.transitions (seconds + 3600) (k + 1) := by
  -- the transition that begins the type is not behind its local times
  have hlast : ∀ i tr, i + 1 = k → data.transitions[i]? = some tr →
      tr.localtime ≤ seconds + type.gmtOffset := by
    intro i tr hi htr
    obtain ⟨-, b, -, hb, -, -, hlocal⟩ := h.transition htr
    rw [hi] at hb
    obtain rfl : b = type := Except.ok.inj (hb.symm.trans htype)
    have hlow : tr.gmttime ≤ seconds := hsplit.low i tr (by omega) htr
    omega
  cases htr : data.transitions[k]? with
  | none =>
      refine Or.inl (Place.split ⟨hsplit.le_length, hlast, Or.inl fun tr htr' => ?_⟩
        h.sorted_localtime)
      rw [htr] at htr'
      cases htr'
  | some tr =>
      obtain ⟨a, next, ha, hnext, hmem, halternates, hlocal⟩ := h.transition htr
      obtain rfl : a = type := Except.ok.inj (ha.symm.trans htype)
      have hhigh : seconds < tr.gmttime := hsplit.high k tr le_rfl htr
      have hlength := (List.getElem?_eq_some_iff.1 htr).1
      rcases lt_or_ge (seconds + a.gmtOffset) tr.localtime with hbefore | hafter
      · exact Or.inl (Place.split
          ⟨hsplit.le_length, hlast, Or.inl (forall_of_getElem? htr hbefore)⟩ h.sorted_localtime)
      · -- the clock is put back here
        obtain ⟨hdst, hback, hoffset⟩ := halternates.back (by omega)
        refine Or.inr ⟨hdst, next, hmem, hnext, hback, hoffset,
          Place.split ⟨hlength, fun i tr' hi htr' => ?_, Or.inl fun tr' htr' => ?_⟩
            h.sorted_localtime,
          Place.split ⟨hlength, fun i tr' hi htr' => ?_, Or.inl fun tr' htr' => ?_⟩
            h.sorted_gmttime⟩
        · obtain rfl : i = k := by omega
          obtain rfl : tr = tr' := Option.some.inj (htr.symm.trans htr')
          exact hafter
        · obtain ⟨b, c, hb, -, -, halternates', hlocal'⟩ := h.transition htr'
          obtain rfl : next = b := Except.ok.inj (hnext.symm.trans hb)
          have hgap := h.gap k tr tr' htr htr'
          have hforward := halternates'.forward hback
          change seconds + a.gmtOffset < tr'.localtime
          omega
        · obtain rfl : i = k := by omega
          obtain rfl : tr = tr' := Option.some.inj (htr.symm.trans htr')
          change tr.gmttime ≤ seconds + 3600
          omega
        · have hgap := h.gap k tr tr' htr htr'
          change seconds + 3600 < tr'.gmttime
          omega

/-- **A local time is turned back into its second**, also in the hour that occurs twice. -/
theorem fromLocalTime_toLocalTime (libc : Libc) (hlibc : libc.Inverse) (data : Data)
    (h : DstRules data) (seconds : ℤ) :
    ∃ tm, toLocalTime libc ⟨some data⟩ seconds = .ok tm ∧
      fromLocalTime libc ⟨some data⟩ tm = .ok seconds := by
  obtain ⟨k, hfind, hplace⟩ := findLocaltime_place data ⟨seconds, 0, 0⟩ ⟨true⟩
  have hsplit : Split ⟨true⟩ data.transitions seconds k := hplace.split h.sorted_gmttime
  obtain ⟨type, hmem, htype⟩ := h.usable.typeAt hsplit.le_length
  obtain ⟨tm, htm, hsame, hisdst⟩ := toLocalTime_eq h.usable libc hmem (hfind.trans htype)
  have htimegm : libc.timegm tm = seconds + type.gmtOffset := by
    rw [hlibc.timegm_congr _ _ hsame, hlibc.timegm_gmtimeR]
  refine ⟨tm, htm, ?_⟩
  rcases local_split h hsplit htype with
    hlocal | ⟨hdst, next, hnextMem, hnext, hnextDst, hoffset, hlocal, hlater⟩
  · -- the search by the clock finds the same type, and the trial gives the same local time
    have htype' : findLocaltime data ⟨0, seconds + type.gmtOffset, 0⟩ ⟨false⟩ = .ok type :=
      (findLocaltime_localtime h.sorted_localtime hlocal).trans htype
    rw [← htimegm] at htype'
    have htry : libc.timegm tm - type.gmtOffset = seconds := by omega
    rw [fromLocalTime_eq libc htype' (by rw [htry]; exact htm),
      if_neg fun hback => hback.1 hback.2.1, sub_zero, htry]
  · -- the search finds the type that begins, and the trial gives the same reading an hour later
    have htype' : findLocaltime data ⟨0, seconds + type.gmtOffset, 0⟩ ⟨false⟩ = .ok next :=
      (findLocaltime_localtime h.sorted_localtime hlocal).trans hnext
    rw [← htimegm] at htype'
    have hfind' : findLocaltime data ⟨seconds + 3600, 0, 0⟩ ⟨true⟩ = .ok next :=
      (findLocaltime_gmttime h.sorted_gmttime hlater).trans hnext
    obtain ⟨tryTm, htry, hsame', hisdst'⟩ := toLocalTime_eq h.usable libc hnextMem hfind'
    have hlater' : libc.timegm tm - next.gmtOffset = seconds + 3600 := by omega
    have hreading : seconds + 3600 + next.gmtOffset = seconds + type.gmtOffset := by omega
    rw [hreading] at hsame'
    rw [hdst, if_pos rfl] at hisdst
    rw [hnextDst, if_neg Bool.false_ne_true] at hisdst'
    have hback : tm.isdst ≠ 0 ∧ tryTm.isdst = 0 ∧ tryTm.hour = tm.hour ∧ tryTm.min = tm.min := by
      refine ⟨?_, hisdst', hsame'.hour.trans hsame.hour.symm, hsame'.min.trans hsame.min.symm⟩
      rw [hisdst]
      decide
    rw [fromLocalTime_eq libc htype' (by rw [hlater']; exact htry), if_pos hback, htimegm]
    refine congrArg Except.ok ?_
    omega

end

/-- **A zone given by its offset has the rules of one without transitions.** -/
theorem ofOffset_rules (eastOfUtc : ℤ) (name : List Byte) :
    ∃ data, ofOffset eastOfUtc name = ⟨some data⟩ ∧ DstRules data := by
  refine ⟨_, rfl, ⟨List.cons_ne_nil _ _, fun tr htr => ?_, fun type htype => ?_⟩,
    fun i tr tr' htr => ?_, fun i tr type htr => ?_, fun k a b _ hb => ?_⟩
  · cases htr
  · rw [List.mem_singleton.1 htype]
    exact ⟨le_rfl, Int.natCast_nonneg _⟩
  · cases htr
  · cases htr
  · cases hb

/-- The clocks of an example are put an hour forward and back again. -/
def exampleData : Data where
  transitions := [⟨1000000, 985600, 1⟩, ⟨2000000, 1982000, 0⟩]
  localtimes := [⟨-18000, false, 0⟩, ⟨-14400, true, 4⟩]
  abbreviation := ascii "EST" ++ [0] ++ ascii "EDT" ++ [0]

/-- The conversions as the source has them for UTC. -/
def exampleLibc : Libc where
  gmtimeR := fun seconds => utcOf seconds true
  timegm := Tm.secondOf

/-- Half an hour before the clock is put back. -/
theorem fromLocalTime_toLocalTime_demo :
    ∃ tm, toLocalTime exampleLibc ⟨some exampleData⟩ 1998200 = .ok tm ∧
      fromLocalTime exampleLibc ⟨some exampleData⟩ tm = .ok 1998200 := by
  refine fromLocalTime_toLocalTime exampleLibc ⟨fun t => secondOf_utcOf t true, ?_⟩ exampleData
    ⟨⟨by decide, by decide, by decide⟩, ?_, ?_, ?_⟩ 1998200
  · intro a b h
    change a.secondOf = b.secondOf
    unfold Tm.secondOf
    rw [h.date, h.hour, h.min, h.sec]
  · intro i tr tr' htr htr'
    cases i with
    | zero =>
        obtain rfl := Option.some.inj htr
        obtain rfl := Option.some.inj htr'
        decide
    | succ i => cases htr'
  · intro i tr type htr htype
    match i with
    | 0 =>
        obtain rfl := Option.some.inj htr
        obtain rfl := Except.ok.inj htype
        decide
    | 1 =>
        obtain rfl := Option.some.inj htr
        obtain rfl := Except.ok.inj htype
        decide
    | i + 2 => cases htr
  · intro k a b ha hb
    match k with
    | 0 =>
        obtain rfl := Except.ok.inj ha
        obtain rfl := Except.ok.inj hb
        exact ⟨rfl, by decide⟩
    | 1 =>
        obtain rfl := Except.ok.inj ha
        obtain rfl := Except.ok.inj hb
        exact ⟨rfl, by decide⟩
    | k + 2 => cases hb

end TimeZone

end G5
