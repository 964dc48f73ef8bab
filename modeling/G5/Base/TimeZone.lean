/-
**Local times** (`src/base/TimeZone.h`, `TimeZone.cc`).

A zone is a list of transitions, each with the moment it happens, in UTC and on the clocks of the
zone, and the type of local time that begins there.  The conversion to local time looks the type up
by the moment in UTC; the conversion back looks it up by the reading of the clock, and repairs the
hour in which the clock is put back by a trial.

The conversions between seconds and broken-down times are those of the C library.

Main definitions:

* `TimeZone.Transition`, `TimeZone.Localtime`, `TimeZone.Data`, `TimeZone.Comp`;
* `TimeZone.findLocaltime`, `TimeZone.toLocalTime`, `TimeZone.fromLocalTime`;
* `TimeZone.typeAt` — the types of local time, one after the other;
* `TimeZone.Split` — the place of a time among the transitions.

Main results:

* `TimeZone.findLocaltime_place` — **the search always ends at one of the types**, for any data;
* `TimeZone.findLocaltime_eq` — where the transitions are sorted, at the one of the time;
* `TimeZone.toLocalTime_usable`, `TimeZone.fromLocalTime_usable` — with usable indices both
  conversions have a result.
-/

import G5.Base.UtcTime
import G5.Lib.BinarySearch

set_option relaxedAutoImplicit false
set_option autoImplicit false

namespace G5

open BinarySearch

namespace TimeZone

/-! ### The data -/

structure Transition where
  gmttime : ℤ
  localtime : ℤ
  localtimeIdx : ℤ
  deriving DecidableEq, Repr

structure Comp where
  compareGmt : Bool

namespace Comp

/-- `operator()`. -/
def before (comp : Comp) (lhs rhs : Transition) : Bool :=
  if comp.compareGmt then lhs.gmttime < rhs.gmttime else lhs.localtime < rhs.localtime

def equal (comp : Comp) (lhs rhs : Transition) : Bool :=
  if comp.compareGmt then lhs.gmttime = rhs.gmttime else lhs.localtime = rhs.localtime

/-- What is compared. -/
def key (comp : Comp) (tr : Transition) : ℤ :=
  if comp.compareGmt then tr.gmttime else tr.localtime

theorem before_iff {comp : Comp} {lhs rhs : Transition} :
    comp.before lhs rhs = true ↔ comp.key lhs < comp.key rhs := by
  unfold before key
  split <;> exact decide_eq_true_iff

theorem equal_iff {comp : Comp} {lhs rhs : Transition} :
    comp.equal lhs rhs = true ↔ comp.key lhs = comp.key rhs := by
  unfold equal key
  split <;> exact decide_eq_true_iff

end Comp

structure Localtime where
  gmtOffset : ℤ
  isDst : Bool
  arrbIdx : ℤ
  deriving DecidableEq, Repr

structure Data where
  transitions : List Transition := []
  localtimes : List Localtime := []
  abbreviation : List Byte := []
  deriving DecidableEq, Repr

end TimeZone

structure TimeZone where
  data : Option TimeZone.Data
  deriving DecidableEq, Repr

/-- What is used of the time functions of the C library. -/
structure Libc where
  gmtimeR : ℤ → Tm
  timegm : Tm → ℤ

namespace TimeZone

/-! ### The functions -/

def findLocaltime (data : Data) (sentry : Transition) (comp : Comp) : Checked Localtime :=
  match data.transitions with
  | [] => elementAt data.localtimes 0
  | front :: _ =>
      if comp.before sentry front then
        elementAt data.localtimes 0
      else
        let transI := lowerBound (fun tr => comp.before tr sentry) data.transitions
        match data.transitions[transI]? with
        | some tr =>
            if comp.equal sentry tr then
              elementAt data.localtimes tr.localtimeIdx
            else do
              assertThat (transI ≠ 0)
              let tr ← elementAt data.transitions (transI - 1)
              elementAt data.localtimes tr.localtimeIdx
        | none => do
            let back ← elementAt data.transitions (data.transitions.length - 1)
            elementAt data.localtimes back.localtimeIdx

/-- The C string that begins at `&abbreviation[i]`. -/
def abbreviationAt (abbreviation : List Byte) (i : ℤ) : Checked (List Byte) :=
  if 0 ≤ i ∧ i ≤ abbreviation.length then .ok ((abbreviation.drop i.toNat).takeWhile (· ≠ 0))
  else .error .outOfBounds

/-- The constructor from an offset and a name. -/
def ofOffset (eastOfUtc : ℤ) (name : List Byte) : TimeZone :=
  { data := some { localtimes := [⟨eastOfUtc, false, 0⟩], abbreviation := name } }

def valid (zone : TimeZone) : Bool := zone.data.isSome

def toLocalTime (libc : Libc) (zone : TimeZone) (seconds : ℤ) : Checked Tm :=
  match zone.data with
  | none => .error .assertion
  | some data => do
      let sentry : Transition := ⟨seconds, 0, 0⟩
      let type ← findLocaltime data sentry ⟨true⟩
      let localSeconds := seconds + type.gmtOffset
      let localTime := libc.gmtimeR localSeconds
      let name ← abbreviationAt data.abbreviation type.arrbIdx
      return { localTime with
        isdst := if type.isDst then 1 else 0
        gmtoff := type.gmtOffset
        zone := some name }

def fromLocalTime (libc : Libc) (zone : TimeZone) (localTm : Tm) : Checked ℤ :=
  match zone.data with
  | none => .error .assertion
  | some data => do
      let seconds := libc.timegm localTm
      let sentry : Transition := ⟨0, seconds, 0⟩
      let type ← findLocaltime data sentry ⟨false⟩
      if localTm.isdst ≠ 0 then
        let tryTm ← toLocalTime libc zone (seconds - type.gmtOffset)
        if tryTm.isdst = 0 ∧ tryTm.hour = localTm.hour ∧ tryTm.min = localTm.min then
          return seconds - 3600 - type.gmtOffset
        else
          return seconds - type.gmtOffset
      else
        return seconds - type.gmtOffset

/-! ### The search -/

/-- The types of local time: the one before the first transition, and the one each transition
begins. -/
def typeAt (data : Data) : ℕ → Checked Localtime
  | 0 => elementAt data.localtimes 0
  | k + 1 => do
      let tr ← elementAt data.transitions k
      elementAt data.localtimes tr.localtimeIdx

theorem typeAt_succ {data : Data} {k : ℕ} {tr : Transition} (h : data.transitions[k]? = some tr) :
    typeAt data (k + 1) = elementAt data.localtimes tr.localtimeIdx := by
  rw [typeAt, elementAt_natCast h]
  rfl

/-- The result of a search among the transitions: the last one seen is not behind the time, and
the one after it is, unless the time is met exactly. -/
structure Place (comp : Comp) (transitions : List Transition) (time : ℤ) (k : ℕ) : Prop where
  le_length : k ≤ transitions.length
  last : ∀ i tr, i + 1 = k → transitions[i]? = some tr → comp.key tr ≤ time
  next : (∀ tr, transitions[k]? = some tr → time < comp.key tr) ∨
    ∃ i tr, i + 1 = k ∧ transitions[i]? = some tr ∧ comp.key tr = time

/-- What holds of the element at a place holds of every element there. -/
theorem forall_of_getElem? {α : Type} {xs : List α} {i : ℕ} {x : α} (h : xs[i]? = some x)
    {P : α → Prop} (hx : P x) : ∀ y, xs[i]? = some y → P y := by
  intro y hy
  rw [h, Option.some.injEq] at hy
  exact hy ▸ hx

/-- The place before the first transition. -/
theorem place_zero {comp : Comp} {transitions : List Transition} {time : ℤ}
    (h : ∀ tr, transitions[0]? = some tr → time < comp.key tr) : Place comp transitions time 0 :=
  ⟨Nat.zero_le _, fun i _ hi => absurd hi (Nat.succ_ne_zero i), Or.inl h⟩

/-- A time that is met exactly. -/
theorem place_exact {comp : Comp} {transitions : List Transition} {time : ℤ} {r : ℕ}
    {tr : Transition} (hr : transitions[r]? = some tr) (hequal : comp.key tr = time) :
    Place comp transitions time (r + 1) := by
  refine ⟨(List.getElem?_eq_some_iff.1 hr).1, ?_, Or.inr ⟨r, tr, rfl, hr, hequal⟩⟩
  intro i tr' hi htr'
  obtain rfl : i = r := Nat.succ.inj hi
  rw [hr, Option.some.injEq] at htr'
  rw [← htr', hequal]

/-- **The search ends at one of the types, and its assertion holds**, whatever the transitions. -/
theorem findLocaltime_place (data : Data) (sentry : Transition) (comp : Comp) :
    ∃ k, findLocaltime data sentry comp = typeAt data k ∧
      Place comp data.transitions (comp.key sentry) k := by
  have hbracket := lowerBound_bracket (fun tr => comp.before tr sentry) data.transitions
  unfold findLocaltime
  generalize lowerBound (fun tr => comp.before tr sentry) data.transitions = r at *
  obtain ⟨-, hlength, hleft, hright⟩ := hbracket
  -- the element before the result is before the time
  have hlast : ∀ i tr, i + 1 = r → data.transitions[i]? = some tr → comp.key tr ≤ comp.key sentry :=
    fun i tr hi htr => le_of_lt (Comp.before_iff.1 (hleft i tr hi htr))
  cases hts : data.transitions with
  | nil =>
      refine ⟨0, rfl, place_zero fun tr htr => ?_⟩
      rw [List.getElem?_nil] at htr
      cases htr
  | cons front rest =>
      have hfront : data.transitions[0]? = some front := by rw [hts]; rfl
      simp only
      rw [← hts]
      split_ifs with hbegin
      · exact ⟨0, rfl, place_zero (forall_of_getElem? hfront (Comp.before_iff.1 hbegin))⟩
      · cases hr : data.transitions[r]? with
        | none =>
            obtain rfl : r = data.transitions.length := by
              have hge := List.getElem?_eq_none_iff.1 hr
              omega
            obtain ⟨m, hm⟩ : ∃ m, m + 1 = data.transitions.length := ⟨rest.length, by rw [hts]; rfl⟩
            have hget := List.getElem?_eq_getElem (l := data.transitions) (i := m) (by omega)
            have hcast : ((data.transitions.length : ℤ) - 1) = (m : ℤ) := by omega
            refine ⟨data.transitions.length, ?_, le_rfl, hlast, Or.inl fun tr htr => ?_⟩
            · rw [← hm, typeAt, hm, hcast]
            · rw [hr] at htr
              cases htr
        | some tr =>
            have hnot : ¬comp.key tr < comp.key sentry := by
              rw [← Comp.before_iff, hright tr hr]
              exact Bool.false_ne_true
            simp only
            split_ifs with hequal
            · exact ⟨r + 1, (typeAt_succ hr).symm, place_exact hr (Comp.equal_iff.1 hequal).symm⟩
            · have hlt : comp.key sentry < comp.key tr :=
                lt_of_le_of_ne (not_lt.1 hnot) fun heq => hequal (Comp.equal_iff.2 heq)
              obtain ⟨m, rfl⟩ : ∃ m, r = m + 1 := by
                cases r with
                | zero =>
                    rw [hfront, Option.some.injEq] at hr
                    rw [← hr] at hlt
                    exact absurd (Comp.before_iff.2 hlt) hbegin
                | succ m => exact ⟨m, rfl⟩
              refine ⟨m + 1, ?_, hlength, hlast, Or.inl (forall_of_getElem? hr hlt)⟩
              have hcast : (((m + 1 : ℕ) : ℤ) - 1) = (m : ℤ) := by omega
              rw [assertThat_pos (Nat.succ_ne_zero m), ok_bind, typeAt, hcast]

/-- The place of a time among sorted transitions. -/
structure Split (comp : Comp) (transitions : List Transition) (time : ℤ) (k : ℕ) : Prop where
  le_length : k ≤ transitions.length
  low : ∀ i tr, i < k → transitions[i]? = some tr → comp.key tr ≤ time
  high : ∀ i tr, k ≤ i → transitions[i]? = some tr → time < comp.key tr

section

variable {comp : Comp} {transitions : List Transition} {time : ℤ} {k : ℕ}

/-- The transitions are in order. -/
def Sorted (comp : Comp) (transitions : List Transition) : Prop :=
  ∀ (i j : ℕ) (tr tr' : Transition), i < j → transitions[i]? = some tr →
    transitions[j]? = some tr' → comp.key tr < comp.key tr'

/-- Where the transitions are sorted, a search finds the place of the time. -/
theorem Place.split (h : Place comp transitions time k) (hsorted : Sorted comp transitions) :
    Split comp transitions time k := by
  have hlength := h.le_length
  refine ⟨hlength, fun i tr hi htr => ?_, fun i tr hi htr => ?_⟩
  · obtain ⟨m, hm⟩ : ∃ m, m + 1 = k := ⟨k - 1, by omega⟩
    have hget := List.getElem?_eq_getElem (l := transitions) (i := m) (by omega)
    have hlast := h.last m _ hm hget
    rcases Nat.lt_or_ge i m with hlt | hge
    · have hbefore := hsorted i m tr _ hlt htr hget
      omega
    · obtain rfl : i = m := by omega
      rw [hget, Option.some.injEq] at htr
      rw [← htr]
      exact hlast
  · rcases h.next with hnext | ⟨m, trm, hm, hget, hkey⟩
    · have hk := lt_of_le_of_lt hi (List.getElem?_eq_some_iff.1 htr).1
      have hget := List.getElem?_eq_getElem hk
      have hlt := hnext _ hget
      rcases Nat.lt_or_ge k i with hki | hki
      · have hbefore := hsorted k i _ tr hki hget htr
        omega
      · obtain rfl : k = i := by omega
        rw [hget, Option.some.injEq] at htr
        rw [← htr]
        exact hlt
    · have hbefore := hsorted m i trm tr (by omega) hget htr
      omega

/-- There is one place only. -/
theorem Split.unique {k' : ℕ} (h : Split comp transitions time k)
    (h' : Split comp transitions time k') : k = k' := by
  have hlength := h.le_length
  have hlength' := h'.le_length
  rcases lt_trichotomy k k' with hlt | heq | hgt
  · have hget := List.getElem?_eq_getElem (l := transitions) (i := k) (by omega)
    have hlow := h'.low k _ hlt hget
    have hhigh := h.high k _ le_rfl hget
    omega
  · exact heq
  · have hget := List.getElem?_eq_getElem (l := transitions) (i := k') (by omega)
    have hlow := h.low k' _ hgt hget
    have hhigh := h'.high k' _ le_rfl hget
    omega

end

/-- **Among sorted transitions the search finds the type of the time.** -/
theorem findLocaltime_eq {data : Data} {sentry : Transition} {comp : Comp} {k : ℕ}
    (hsorted : Sorted comp data.transitions)
    (h : Split comp data.transitions (comp.key sentry) k) :
    findLocaltime data sentry comp = typeAt data k := by
  obtain ⟨k', hfind, hplace⟩ := findLocaltime_place data sentry comp
  rw [hfind, (hplace.split hsorted).unique h]

theorem findLocaltime_gmttime {data : Data} {seconds : ℤ} {k : ℕ}
    (hsorted : Sorted ⟨true⟩ data.transitions) (h : Split ⟨true⟩ data.transitions seconds k) :
    findLocaltime data ⟨seconds, 0, 0⟩ ⟨true⟩ = typeAt data k := findLocaltime_eq hsorted h

theorem findLocaltime_localtime {data : Data} {seconds : ℤ} {k : ℕ}
    (hsorted : Sorted ⟨false⟩ data.transitions) (h : Split ⟨false⟩ data.transitions seconds k) :
    findLocaltime data ⟨0, seconds, 0⟩ ⟨false⟩ = typeAt data k := findLocaltime_eq hsorted h

/-! ### Usable data -/

/-- Every index of the data is that of an element; an abbreviation may be the empty one at the end
of the text. -/
structure Data.Usable (data : Data) : Prop where
  localtimes : data.localtimes ≠ []
  localtimeIdx : ∀ tr ∈ data.transitions,
    0 ≤ tr.localtimeIdx ∧ tr.localtimeIdx < data.localtimes.length
  arrbIdx : ∀ type ∈ data.localtimes,
    0 ≤ type.arrbIdx ∧ type.arrbIdx ≤ data.abbreviation.length

section

variable {data : Data}

theorem Data.Usable.typeAt (h : data.Usable) {k : ℕ} (hk : k ≤ data.transitions.length) :
    ∃ type ∈ data.localtimes, TimeZone.typeAt data k = .ok type := by
  cases k with
  | zero =>
      obtain ⟨front, rest, hfront⟩ := List.exists_cons_of_ne_nil h.localtimes
      refine ⟨front, by rw [hfront]; exact List.mem_cons_self, elementAt_natCast ?_⟩
      rw [hfront]
      rfl
  | succ k =>
      have hget := List.getElem?_eq_getElem hk
      obtain ⟨hidx₀, hidx⟩ := h.localtimeIdx _ (List.mem_of_getElem? hget)
      rw [typeAt_succ hget]
      exact elementAt_of_lt hidx₀ hidx

theorem Data.Usable.findLocaltime (h : data.Usable) (sentry : Transition) (comp : Comp) :
    ∃ type ∈ data.localtimes, TimeZone.findLocaltime data sentry comp = .ok type := by
  obtain ⟨k, hfind, hplace⟩ := findLocaltime_place data sentry comp
  rw [hfind]
  exact h.typeAt hplace.le_length

/-- The local time of a second whose type is known. -/
theorem toLocalTime_eq (h : data.Usable) (libc : Libc) {seconds : ℤ} {type : Localtime}
    (hmem : type ∈ data.localtimes)
    (hfind : TimeZone.findLocaltime data ⟨seconds, 0, 0⟩ ⟨true⟩ = .ok type) :
    ∃ tm, toLocalTime libc ⟨some data⟩ seconds = .ok tm ∧
      tm.SameTime (libc.gmtimeR (seconds + type.gmtOffset)) ∧
      tm.isdst = if type.isDst then 1 else 0 := by
  unfold toLocalTime abbreviationAt
  simp only
  rw [hfind, ok_bind, if_pos (h.arrbIdx type hmem), ok_bind]
  exact ⟨_, rfl, ⟨rfl, rfl, rfl, rfl⟩, rfl⟩

/-- **With usable data the conversion to local time always has a result.** -/
theorem toLocalTime_usable (h : data.Usable) (libc : Libc) (seconds : ℤ) :
    ∃ tm, toLocalTime libc ⟨some data⟩ seconds = .ok tm := by
  obtain ⟨type, hmem, hfind⟩ := h.findLocaltime ⟨seconds, 0, 0⟩ ⟨true⟩
  obtain ⟨tm, htm, -⟩ := toLocalTime_eq h libc hmem hfind
  exact ⟨tm, htm⟩

/-- The second of a local time, with the hour taken off where the trial shows that the clock has
been put back. -/
theorem fromLocalTime_eq (libc : Libc) {localTm tryTm : Tm} {type : Localtime}
    (hfind : TimeZone.findLocaltime data ⟨0, libc.timegm localTm, 0⟩ ⟨false⟩ = .ok type)
    (htry : toLocalTime libc ⟨some data⟩ (libc.timegm localTm - type.gmtOffset) = .ok tryTm) :
    fromLocalTime libc ⟨some data⟩ localTm =
      .ok (libc.timegm localTm -
        (if localTm.isdst ≠ 0 ∧ tryTm.isdst = 0 ∧ tryTm.hour = localTm.hour ∧
          tryTm.min = localTm.min then 3600 else 0) - type.gmtOffset) := by
  unfold fromLocalTime
  simp only
  rw [hfind, ok_bind, htry]
  by_cases hdst : localTm.isdst ≠ 0
  · rw [if_pos hdst, ok_bind]
    by_cases hback : tryTm.isdst = 0 ∧ tryTm.hour = localTm.hour ∧ tryTm.min = localTm.min
    · rw [if_pos hback, if_pos ⟨hdst, hback⟩, pure_eq_ok]
    · rw [if_neg hback, if_neg fun hboth => hback hboth.2, pure_eq_ok, sub_zero]
  · rw [if_neg hdst, if_neg fun hboth => hdst hboth.1, pure_eq_ok, sub_zero]

/-- **With usable data the conversion back always has a result.** -/
theorem fromLocalTime_usable (h : data.Usable) (libc : Libc) (localTm : Tm) :
    ∃ seconds, fromLocalTime libc ⟨some data⟩ localTm = .ok seconds := by
  obtain ⟨type, -, hfind⟩ := h.findLocaltime ⟨0, libc.timegm localTm, 0⟩ ⟨false⟩
  obtain ⟨tm, htm⟩ := toLocalTime_usable h libc (libc.timegm localTm - type.gmtOffset)
  exact ⟨_, fromLocalTime_eq libc hfind htm⟩

end

end TimeZone

end G5
