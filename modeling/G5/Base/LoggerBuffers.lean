/-
**Every buffer of the logger has one holder.**

Main definitions:

* `AsyncLogging.slots` — the buffers in all their places;
* `AsyncLogging.Owned` — no buffer is in two places, the places that must be filled are, the spare
  buffers are empty, and no assertion in the loop of the writing thread has failed;
* `AsyncLogging.stepAny` — the runs with lines of any length;
* `AsyncLogging.OneOwner` — what `Owned` says about the places of the source.

Main results:

* `AsyncLogging.Owned.recycle_eq` — what the recycling of written buffers does;
* `AsyncLogging.owned_step` — every step keeps `Owned`;
* `AsyncLogging.oneOwner_of_exec` — **no two places of any state hold the same buffer**, and the
  assertions of the loop hold.
-/

import G5.Base.AsyncLogging
import G5.Lib.Runs
import Mathlib.Data.List.Count
import Mathlib.Data.List.Nodup

set_option relaxedAutoImplicit false
set_option autoImplicit false

namespace G5

namespace AsyncLogging

/-! ### The invariant -/

/-- The buffer objects that are held, in all their places. -/
def slots (s : AsyncLogging) : List ℕ :=
  s.currentBuffer.toList ++ s.nextBuffer.toList ++ s.buffers ++ s.buffersToWrite ++
    s.newBuffer1.toList ++ s.newBuffer2.toList

/-- What the writing thread has at each place of its loop. -/
def ThreadOk (s : AsyncLogging) : Prop :=
  match s.pc with
  | .created => s.newBuffer1 = none ∧ s.newBuffer2 = none ∧ s.buffersToWrite = []
  | .test | .lock | .waiting =>
      s.newBuffer1 ≠ none ∧ s.newBuffer2 ≠ none ∧ s.buffersToWrite = []
  | .taken | .write _ =>
      s.newBuffer1 = none ∧ s.buffersToWrite ≠ [] ∧
        (s.newBuffer2 = none → 2 ≤ s.buffersToWrite.length)
  | .returned => s.buffersToWrite = []

/-- No buffer is in two places, the places that must be filled are, the spare buffers are empty, and
no assertion of the loop has failed. -/
structure Owned (s : AsyncLogging) : Prop where
  nodup : s.slots.Nodup
  allocated : ∀ b ∈ s.slots, b < s.fresh
  current : s.currentBuffer ≠ none
  next : s.nextBuffer = none → s.buffers ≠ []
  spare : ∀ b, s.nextBuffer = some b ∨ s.newBuffer1 = some b ∨ s.newBuffer2 = some b →
    s.heap b = ⟨.new, []⟩
  thread : s.ThreadOk
  loop : s.failed ≠ some .loop ∧ s.failed ≠ some .nullPointer

theorem owned_init : init.Owned where
  nodup := by decide
  allocated := by decide
  current := by simp [init]
  next := by simp [init]
  spare := by simp [init]
  thread := by simp [ThreadOk, init]
  loop := by simp [init]

/-! ### The functions keep it -/

/-- The current buffer is in no other place. -/
theorem Owned.current_not_mem {s : AsyncLogging} (h : s.Owned) {b : ℕ}
    (hb : s.currentBuffer = some b) :
    s.nextBuffer ≠ some b ∧ b ∉ s.buffers ∧ b ∉ s.buffersToWrite ∧ s.newBuffer1 ≠ some b ∧
      s.newBuffer2 ≠ some b := by
  have hnodup := h.nodup
  simp only [slots, hb, Option.toList_some] at hnodup
  simp only [List.append_assoc, List.cons_append, List.nil_append, List.nodup_cons,
    List.mem_append, Option.mem_toList, not_or] at hnodup
  exact hnodup.1

theorem Owned.fill {s : AsyncLogging} (h : s.Owned) {b : ℕ} (hb : s.currentBuffer = some b)
    (logline : List Byte) : (s.fill b logline).Owned where
  nodup := h.nodup
  allocated := h.allocated
  current := h.current
  next := h.next
  spare := by
    obtain ⟨hnext, -, -, hnew1, hnew2⟩ := h.current_not_mem hb
    intro c hc
    have hne : c ≠ b := by
      rintro rfl
      exact hc.elim hnext (fun hc => hc.elim hnew1 hnew2)
    exact (Function.update_of_ne hne _ _).trans (h.spare c hc)
  thread := h.thread
  loop := h.loop

/-- Buffers that are allocated have numbers of their own. -/
theorem Owned.allocate {s : AsyncLogging} (h : s.Owned) {k : ℕ} {places : List ℕ}
    (hplaces : places.Perm (List.range' s.fresh k ++ s.slots)) :
    places.Nodup ∧ ∀ b ∈ places, b < s.fresh + k := by
  constructor
  · rw [hplaces.nodup_iff]
    refine List.nodup_append.2 ⟨List.nodup_range', h.nodup, ?_⟩
    rintro b hb c hc rfl
    have hlow := (List.mem_range'_1.1 hb).1
    have hhigh := h.allocated b hc
    omega
  · intro b hb
    rw [hplaces.mem_iff, List.mem_append, List.mem_range'_1] at hb
    rcases hb with hb | hb
    · exact hb.2
    · have := h.allocated b hb
      omega

/-- A buffer that has just been allocated is empty, and so are those that were empty. -/
theorem empty_of_allocate {heap : ℕ → Slot} {fresh c : ℕ} (h : c ≠ fresh → heap c = ⟨.new, []⟩) :
    Function.update heap fresh ⟨.new, []⟩ c = ⟨.new, []⟩ := by
  by_cases hc : c = fresh
  · rw [hc, Function.update_self]
  · rw [Function.update_of_ne hc]
    exact h hc

/-- The next buffer becomes the current one. -/
theorem Owned.useNext {s : AsyncLogging} (h : s.Owned) {b next : ℕ}
    (hb : s.currentBuffer = some b) (hnext : s.nextBuffer = some next) :
    ({ s with
      buffers := s.buffers ++ [b]
      currentBuffer := some next
      nextBuffer := none } : AsyncLogging).Owned := by
  generalize ht : ({ s with
      buffers := s.buffers ++ [b]
      currentBuffer := some next
      nextBuffer := none } : AsyncLogging) = t
  have hslots : t.slots.Perm s.slots :=
    List.perm_iff_count.2 fun a => by
      simp only [← ht, slots, hb, hnext, Option.toList_some, Option.toList_none,
        List.count_append, List.count_cons, List.count_nil]
      omega
  have hfresh : t.fresh = s.fresh := ht ▸ rfl
  constructor
  case nodup => exact hslots.nodup_iff.2 h.nodup
  case allocated => exact fun c hc => hfresh ▸ h.allocated c (hslots.mem_iff.1 hc)
  case current => simp [← ht]
  case next => simp [← ht]
  case spare =>
    subst ht
    exact fun c hc => h.spare c (Or.inr (hc.resolve_left (by simp)))
  case thread =>
    subst ht
    exact h.thread
  case loop =>
    subst ht
    exact h.loop

/-- A buffer that has just been allocated becomes the current one. -/
theorem Owned.useFresh {s : AsyncLogging} (h : s.Owned) {b : ℕ}
    (hb : s.currentBuffer = some b) :
    ({ s with
      buffers := s.buffers ++ [b]
      currentBuffer := some s.fresh
      heap := Function.update s.heap s.fresh ⟨.new, []⟩
      fresh := s.fresh + 1 } : AsyncLogging).Owned := by
  generalize ht : ({ s with
      buffers := s.buffers ++ [b]
      currentBuffer := some s.fresh
      heap := Function.update s.heap s.fresh ⟨.new, []⟩
      fresh := s.fresh + 1 } : AsyncLogging) = t
  have hslots : t.slots.Perm (List.range' s.fresh 1 ++ s.slots) :=
    List.perm_iff_count.2 fun a => by
      simp only [← ht, slots, hb, Option.toList_some, List.range'_one, List.count_append,
        List.count_cons, List.count_nil]
      omega
  have hfresh : t.fresh = s.fresh + 1 := ht ▸ rfl
  obtain ⟨hnodup, hlt⟩ := h.allocate hslots
  constructor
  case nodup => exact hnodup
  case allocated => exact fun c hc => hfresh ▸ hlt c hc
  case current => simp [← ht]
  case next => simp [← ht]
  case spare =>
    intro c hc
    have hheap : t.heap = Function.update s.heap s.fresh ⟨.new, []⟩ := ht ▸ rfl
    rw [hheap]
    subst ht
    exact empty_of_allocate fun _ => h.spare c hc
  case thread =>
    subst ht
    exact h.thread
  case loop =>
    subst ht
    exact h.loop

theorem Owned.append {s : AsyncLogging} (h : s.Owned) (logline : List Byte) :
    (s.append logline).Owned := by
  cases hb : s.currentBuffer with
  | none => exact absurd hb h.current
  | some b =>
      simp only [AsyncLogging.append, hb]
      split
      · exact h.fill hb logline
      · cases hnext : s.nextBuffer with
        | some next => exact (h.useNext hb hnext).fill rfl logline
        | none => exact (hnext ▸ h.useFresh hb).fill rfl logline

/-- Failing outside the loop leaves the buffers where they are. -/
theorem Owned.fail {s : AsyncLogging} (h : s.Owned) {fault : LogFault} (hloop : fault ≠ .loop)
    (hnull : fault ≠ .nullPointer) : (s.fail fault).Owned where
  nodup := h.nodup
  allocated := h.allocated
  current := h.current
  next := h.next
  spare := h.spare
  thread := h.thread
  loop := by simp [AsyncLogging.fail, hloop, hnull]

/-- The flags do not concern the buffers. -/
theorem Owned.flags {s : AsyncLogging} (h : s.Owned) (running started joined : Bool) :
    ({ s with running := running, started := started, joined := joined } : AsyncLogging).Owned :=
  ⟨h.nodup, h.allocated, h.current, h.next, h.spare, h.thread, h.loop⟩

theorem Owned.start {s : AsyncLogging} (h : s.Owned) : s.start.Owned := by
  unfold AsyncLogging.start
  split
  · exact (h.flags _ _ _).fail (by simp) (by simp)
  · exact h.flags _ _ _

theorem Owned.stop {s : AsyncLogging} (h : s.Owned) : s.stop.Owned := by
  unfold AsyncLogging.stop
  split
  · exact h.flags _ _ _
  · exact (h.flags _ _ _).fail (by simp) (by simp)

theorem Owned.enter {s : AsyncLogging} (h : s.Owned) (hpc : s.pc = .created) :
    s.enter.Owned := by
  unfold AsyncLogging.enter
  split
  · generalize ht : ({ s with
      heap := Function.update (Function.update s.heap s.fresh ⟨.new, []⟩) (s.fresh + 1) ⟨.new, []⟩
      newBuffer1 := some s.fresh
      newBuffer2 := some (s.fresh + 1)
      fresh := s.fresh + 2
      pc := .test } : AsyncLogging) = t
    have hthread := h.thread
    rw [ThreadOk, hpc] at hthread
    obtain ⟨hnew1, hnew2, hwrite⟩ := hthread
    have hslots : t.slots.Perm (List.range' s.fresh 2 ++ s.slots) :=
      List.perm_iff_count.2 fun a => by
        have hrange : List.range' s.fresh 2 = [s.fresh, s.fresh + 1] := rfl
        simp only [← ht, slots, hnew1, hnew2, hrange, Option.toList_some, Option.toList_none,
          List.count_append, List.count_cons, List.count_nil]
        omega
    have hfresh : t.fresh = s.fresh + 2 := ht ▸ rfl
    obtain ⟨hnodup, hlt⟩ := h.allocate hslots
    constructor
    case nodup => exact hnodup
    case allocated => exact fun c hc => hfresh ▸ hlt c hc
    case current => exact ht ▸ h.current
    case next => exact ht ▸ h.next
    case spare =>
      intro c hc
      have hheap : t.heap = Function.update (Function.update s.heap s.fresh ⟨.new, []⟩)
          (s.fresh + 1) ⟨.new, []⟩ := ht ▸ rfl
      rw [hheap]
      subst ht
      refine empty_of_allocate fun hne2 => empty_of_allocate fun hne1 => ?_
      rcases hc with hc | hc | hc
      · exact h.spare c (Or.inl hc)
      · exact absurd (Option.some_inj.1 hc).symm hne1
      · exact absurd (Option.some_inj.1 hc).symm hne2
    case thread =>
      subst ht
      exact ⟨by simp, by simp, hwrite⟩
    case loop => exact ht ▸ h.loop
  · exact h.fail (by simp) (by simp)

theorem Owned.test {s : AsyncLogging} (h : s.Owned) (hpc : s.pc = .test) : s.test.Owned := by
  have hthread := h.thread
  rw [ThreadOk, hpc] at hthread
  obtain ⟨hnew1, hnew2, hwrite⟩ := hthread
  have hspare : ∀ o, o ≠ none → (o = s.newBuffer1 ∨ o = s.newBuffer2) → s.isSpare o = true := by
    intro o hne ho
    obtain ⟨b, rfl⟩ := Option.ne_none_iff_exists'.1 hne
    have hb := h.spare b (Or.inr (ho.imp Eq.symm Eq.symm))
    simp [isSpare, hb, FixedBuffer.new, FixedBuffer.length]
  unfold AsyncLogging.test
  split
  · rw [if_pos ⟨hspare _ hnew1 (Or.inl rfl), hspare _ hnew2 (Or.inr rfl), hwrite⟩]
    exact ⟨h.nodup, h.allocated, h.current, h.next, h.spare, ⟨hnew1, hnew2, hwrite⟩, h.loop⟩
  · exact ⟨h.nodup, h.allocated, h.current, h.next, h.spare, hwrite, h.loop⟩

/-- The thread has both spare buffers, and nothing to write, when it takes the buffers away. -/
theorem Owned.spares_of_take {s : AsyncLogging} (h : s.Owned)
    (hpc : s.pc = .lock ∨ s.pc = .waiting) :
    s.newBuffer1 ≠ none ∧ s.newBuffer2 ≠ none ∧ s.buffersToWrite = [] := by
  have hthread := h.thread
  rcases hpc with hpc | hpc
  · rw [ThreadOk, hpc] at hthread
    exact hthread
  · rw [ThreadOk, hpc] at hthread
    exact hthread

/-- The thread takes the filled buffers and the current one away. -/
theorem Owned.take {s : AsyncLogging} (h : s.Owned) (hpc : s.pc = .lock ∨ s.pc = .waiting) :
    s.take.Owned := by
  obtain ⟨hnew1, hnew2, hwrite⟩ := h.spares_of_take hpc
  obtain ⟨b, hb⟩ := Option.ne_none_iff_exists'.1 h.current
  obtain ⟨n, hn⟩ := Option.ne_none_iff_exists'.1 hnew1
  obtain ⟨m, hm⟩ := Option.ne_none_iff_exists'.1 hnew2
  cases hnext : s.nextBuffer with
  | some next =>
      simp only [AsyncLogging.take, hb, hnext]
      generalize ht : AsyncLogging.mk .. = t
      have hslots : t.slots.Perm s.slots :=
        List.perm_iff_count.2 fun a => by
          simp only [← ht, slots, hb, hnext, hwrite, Option.toList_some, Option.toList_none,
            List.count_append, List.count_cons, List.count_nil]
          omega
      subst ht
      refine ⟨hslots.nodup_iff.2 h.nodup, fun c hc => h.allocated c (hslots.mem_iff.1 hc), hnew1,
        fun hnone => by simp at hnone, ?_, ?_, h.loop⟩
      · rintro c (hc | hc | hc)
        · exact h.spare c (Or.inl (hnext.trans hc))
        · cases hc
        · exact h.spare c (Or.inr (Or.inr hc))
      · exact ⟨rfl, by simp, fun hnone => absurd hnone hnew2⟩
  | none =>
      have hbuffers := h.next hnext
      simp only [AsyncLogging.take, hb, hnext]
      generalize ht : AsyncLogging.mk .. = t
      have hslots : t.slots.Perm s.slots :=
        List.perm_iff_count.2 fun a => by
          simp only [← ht, slots, hb, hnext, hwrite, Option.toList_some, Option.toList_none,
            List.count_append, List.count_cons, List.count_nil]
          omega
      subst ht
      refine ⟨hslots.nodup_iff.2 h.nodup, fun c hc => h.allocated c (hslots.mem_iff.1 hc), hnew1,
        fun hnone => absurd hnone hnew2, ?_, ?_, h.loop⟩
      · rintro c (hc | hc | hc)
        · exact h.spare c (Or.inr (Or.inr hc))
        · cases hc
        · cases hc
      · refine ⟨rfl, by simp, ?_⟩
        intro _
        have hpos := List.length_pos_iff.2 hbuffers
        change 2 ≤ (s.buffers ++ [b]).length
        rw [List.length_append, List.length_singleton]
        omega

theorem Owned.lock {s : AsyncLogging} (h : s.Owned) (hpc : s.pc = .lock) : s.lock.Owned := by
  unfold AsyncLogging.lock
  split
  · have hthread := h.thread
    rw [ThreadOk, hpc] at hthread
    exact ⟨h.nodup, h.allocated, h.current, h.next, h.spare, hthread, h.loop⟩
  · exact h.take (Or.inl hpc)

/-- A batch is cut. -/
theorem Owned.trim {s : AsyncLogging} (h : s.Owned) (hpc : s.pc = .taken) : s.trim.Owned := by
  have hthread := h.thread
  rw [ThreadOk, hpc] at hthread
  obtain ⟨hnew1, hwrite, hnew2⟩ := hthread
  simp only [AsyncLogging.trim, if_neg hwrite]
  generalize hkept : (if 25 < s.buffersToWrite.length then s.buffersToWrite.take 2
    else s.buffersToWrite) = kept
  have hsub : kept.Sublist s.buffersToWrite := by
    rw [← hkept]
    split
    · exact List.take_sublist 2 _
    · exact List.Sublist.refl _
  have hlen : s.newBuffer2 = none → 2 ≤ kept.length := by
    intro hnone
    have := hnew2 hnone
    rw [← hkept]
    split
    · rw [List.length_take]
      omega
    · exact this
  have hne : kept ≠ [] := by
    rw [← hkept]
    split
    · intro hnil
      have := congrArg List.length hnil
      rw [List.length_take, List.length_nil] at this
      omega
    · exact hwrite
  have hslots : (s.currentBuffer.toList ++ s.nextBuffer.toList ++ s.buffers ++ kept ++
      s.newBuffer1.toList ++ s.newBuffer2.toList).Sublist s.slots :=
    (((List.Sublist.refl _).append hsub).append (List.Sublist.refl _)).append
      (List.Sublist.refl _)
  exact ⟨hslots.nodup h.nodup, fun c hc => h.allocated c (hslots.subset hc), h.current, h.next,
    h.spare, ⟨hnew1, hne, hlen⟩, h.loop⟩

theorem Owned.write {s : AsyncLogging} (h : s.Owned) {i : ℕ} (hpc : s.pc = .write i) (b : ℕ) :
    (s.write i b).Owned := by
  have hthread := h.thread
  rw [ThreadOk, hpc] at hthread
  exact ⟨h.nodup, h.allocated, h.current, h.next, h.spare, hthread, h.loop⟩

/-- A buffer that has been taken is in no other place. -/
theorem Owned.taken_not_mem {s : AsyncLogging} (h : s.Owned) {b : ℕ}
    (hb : b ∈ s.buffersToWrite) :
    s.currentBuffer ≠ some b ∧ s.nextBuffer ≠ some b ∧ b ∉ s.buffers ∧ s.newBuffer2 ≠ some b := by
  have hcount := List.nodup_iff_count_le_one.1 h.nodup b
  have hpos := List.count_pos_iff.2 hb
  simp only [slots, List.count_append] at hcount
  refine ⟨?_, ?_, ?_, ?_⟩
  · intro hc
    have := List.count_pos_iff.2 (Option.mem_toList.2 hc)
    omega
  · intro hc
    have := List.count_pos_iff.2 (Option.mem_toList.2 hc)
    omega
  · intro hc
    have := List.count_pos_iff.2 hc
    omega
  · intro hc
    have := List.count_pos_iff.2 (Option.mem_toList.2 hc)
    omega

/-- The buffers written that are kept for reuse: the first two, or as many as there are. -/
theorem written_spec (bs : List ℕ) :
    (if 2 < bs.length then bs.take 2 else bs).Sublist bs ∧
      (if 2 < bs.length then bs.take 2 else bs).length = min 2 bs.length := by
  split
  · exact ⟨List.take_sublist 2 _, List.length_take⟩
  · exact ⟨List.Sublist.refl _, by omega⟩

/-- No buffer is written twice. -/
theorem Owned.nodup_buffersToWrite {s : AsyncLogging} (h : s.Owned) : s.buffersToWrite.Nodup := by
  have hnodup := h.nodup
  rw [slots, List.append_assoc] at hnodup
  exact (List.nodup_append.1 (List.nodup_append.1 hnodup).1).2.1

/-- What the end of the loop body does: the two spare buffers are there again and empty, and only
buffers that have been taken are reset. -/
theorem Owned.recycle_eq {s : AsyncLogging} (h : s.Owned) {i : ℕ} (hpc : s.pc = .write i) :
    ∃ heap spare1 spare2,
      s.recycle = { s with
        heap := heap
        newBuffer1 := some spare1
        newBuffer2 := some spare2
        buffersToWrite := []
        pc := .test } ∧
      (∀ c, c ∉ s.buffersToWrite → heap c = s.heap c) ∧
      heap spare1 = ⟨.new, []⟩ ∧ heap spare2 = ⟨.new, []⟩ ∧
      [spare1, spare2].Subperm (s.buffersToWrite ++ s.newBuffer2.toList) := by
  have hthread := h.thread
  rw [ThreadOk, hpc] at hthread
  obtain ⟨hnew1, hwrite, hnew2⟩ := hthread
  simp only [recycle]
  obtain ⟨hsub, hlen⟩ := written_spec s.buffersToWrite
  generalize (if 2 < s.buffersToWrite.length then s.buffersToWrite.take 2
    else s.buffersToWrite) = written at hsub hlen ⊢
  have hpos := List.length_pos_iff.2 hwrite
  cases hm : s.newBuffer2 with
  | some m =>
      -- one buffer is needed
      have hne : written ≠ [] := List.length_pos_iff.1 (by omega)
      have hlast := List.getLast_mem hne
      simp only [hnew1, refill, List.getLast?_eq_some_getLast hne, Option.map_some]
      refine ⟨_, _, _, rfl, ?_, ?_, ?_, ?_⟩
      · intro c hc
        refine Function.update_of_ne ?_ _ _
        rintro rfl
        exact hc (hsub.subset hlast)
      · exact Function.update_self ..
      · have hother : m ≠ written.getLast hne := by
          rintro rfl
          exact (h.taken_not_mem (hsub.subset hlast)).2.2.2 hm
        rw [Function.update_of_ne hother]
        exact h.spare m (Or.inr (Or.inr hm))
      · exact ((List.singleton_sublist.2 (hsub.subset hlast)).append
          (List.Sublist.refl [m])).subperm
  | none =>
      -- two buffers are needed, and there are two
      have htwo := hnew2 hm
      obtain ⟨x, y, rfl⟩ := List.length_eq_two.1 (by omega : written.length = 2)
      have hxy : x ≠ y := by
        have hnodup := hsub.nodup h.nodup_buffersToWrite
        simpa using hnodup
      simp only [hnew1, refill, List.getLast?_cons_cons, List.getLast?_singleton, Option.map_some,
        List.dropLast_cons_cons, List.dropLast_singleton]
      refine ⟨_, _, _, rfl, ?_, ?_, ?_, ?_⟩
      · intro c hc
        have hcx : c ≠ x := fun heq => hc (heq ▸ hsub.subset (by simp))
        have hcy : c ≠ y := fun heq => hc (heq ▸ hsub.subset (by simp))
        rw [Function.update_of_ne hcx, Function.update_of_ne hcy]
      · rw [Function.update_of_ne (Ne.symm hxy), Function.update_self]
        rfl
      · rw [Function.update_self]
        rfl
      · rw [Option.toList_none, List.append_nil]
        exact (List.Perm.swap x y []).subperm.trans hsub.subperm

theorem Owned.recycle {s : AsyncLogging} (h : s.Owned) {i : ℕ} (hpc : s.pc = .write i) :
    s.recycle.Owned := by
  have hthread := h.thread
  rw [ThreadOk, hpc] at hthread
  obtain ⟨heap, spare1, spare2, heq, hheap, hspare1, hspare2, hsub⟩ := h.recycle_eq hpc
  rw [heq]
  generalize ht : ({ s with
    heap := heap
    newBuffer1 := some spare1
    newBuffer2 := some spare2
    buffersToWrite := []
    pc := .test } : AsyncLogging) = t
  have hslots : ∀ a, t.slots.count a ≤ s.slots.count a := by
    intro a
    have hcount := List.Subperm.count_le hsub a
    simp only [← ht, slots, hthread.1, Option.toList_some, Option.toList_none, List.count_append,
      List.count_cons, List.count_nil] at *
    omega
  have hnodup : t.slots.Nodup := List.nodup_iff_count_le_one.2 fun a =>
    Nat.le_trans (hslots a) (List.nodup_iff_count_le_one.1 h.nodup a)
  have hmem : ∀ c ∈ t.slots, c ∈ s.slots := fun c hc =>
    List.count_pos_iff.1 (Nat.lt_of_lt_of_le (List.count_pos_iff.2 hc) (hslots c))
  subst ht
  refine ⟨hnodup, fun c hc => h.allocated c (hmem c hc), h.current, h.next, ?_,
    ⟨by simp, by simp, rfl⟩, h.loop⟩
  rintro c (hc | hc | hc)
  · have hnot : c ∉ s.buffersToWrite := fun hmem => (h.taken_not_mem hmem).2.1 hc
    exact (hheap c hnot).trans (h.spare c (Or.inl hc))
  · obtain rfl := Option.some_inj.1 hc
    exact hspare1
  · obtain rfl := Option.some_inj.1 hc
    exact hspare2

/-- **Who holds which buffer** is kept by every step. -/
theorem owned_step : Runs.Invariant step Owned := by
  intro s op t h hst
  cases (step_moves hst).2 with
  | start => exact h.start
  | append logline hlen => exact h.append logline
  | stop => exact h.stop
  | enter hpc => exact h.enter hpc
  | test hpc => exact h.test hpc
  | lock hpc => exact h.lock hpc
  | wake hpc => exact h.take (Or.inr hpc)
  | trim hpc => exact h.trim hpc
  | write i b hpc hb => exact h.write hpc b
  | recycle i hpc hend => exact h.recycle hpc

/-! ### Lines of any length -/

/-- One step, with a line of any length that an `int` can hold: one that fits in no buffer is
dropped by `FixedBuffer::append`, after the buffers have been exchanged. -/
def stepAny (s : AsyncLogging) (op : LogOp) : Option AsyncLogging :=
  match op with
  | .append logline =>
      if s.failed = none ∧ logline.length < 2 ^ 31 then some (s.append logline) else none
  | op => s.step op

theorem owned_stepAny : Runs.Invariant stepAny Owned := by
  intro s op t h hst
  cases op with
  | append logline =>
      simp only [stepAny, Option.ite_none_right_eq_some, Option.some.injEq] at hst
      obtain ⟨-, rfl⟩ := hst
      exact h.append logline
  | start => exact owned_step s .start t h hst
  | stop => exact owned_step s .stop t h hst
  | enter => exact owned_step s .enter t h hst
  | test => exact owned_step s .test t h hst
  | lock => exact owned_step s .lock t h hst
  | wake => exact owned_step s .wake t h hst
  | trim => exact owned_step s .trim t h hst
  | write => exact owned_step s .write t h hst
  | recycle => exact owned_step s .recycle t h hst

/-- What a logger promises about its buffers. -/
structure OneOwner (s : AsyncLogging) : Prop where
  /-- no buffer is in two of the six places, nor twice in one of them -/
  nodup : (s.currentBuffer.toList ++ s.nextBuffer.toList ++ s.buffers ++ s.buffersToWrite ++
    s.newBuffer1.toList ++ s.newBuffer2.toList).Nodup
  /-- `append` writes into no buffer that is being written out -/
  apart : ∀ b, s.currentBuffer = some b ∨ s.nextBuffer = some b → b ∉ s.buffersToWrite
  current : s.currentBuffer ≠ none
  next : s.nextBuffer = none → s.buffers ≠ []
  empty : ∀ b, s.nextBuffer = some b ∨ s.newBuffer1 = some b ∨ s.newBuffer2 = some b →
    (s.heap b).buffer.length = 0
  /-- no assertion of the loop has failed, and no null pointer has been used -/
  asserts : s.failed ≠ some .loop ∧ s.failed ≠ some .nullPointer

theorem Owned.oneOwner {s : AsyncLogging} (h : s.Owned) : s.OneOwner where
  nodup := h.nodup
  apart := by
    intro b hb hwrite
    obtain ⟨hcurrent, hnext, -, -⟩ := h.taken_not_mem hwrite
    exact hb.elim hcurrent hnext
  current := h.current
  next := h.next
  empty := by
    intro b hb
    rw [h.spare b hb]
    rfl
  asserts := h.loop

/-- **Every buffer has one owner.**  However the calls of `append`, `start` and `stop` interleave
with the writing thread, in every state reached no buffer is in two places, the places that must be
filled are, the spare buffers are empty, and the assertions of the loop hold. -/
theorem oneOwner_of_exec {ops : List LogOp} {t : AsyncLogging}
    (h : Runs.exec stepAny init ops = some t) : t.OneOwner :=
  (Runs.exec_invariant owned_stepAny owned_init h).oneOwner

/-- The theorem on a run in which a line arrives during the wait and its buffer is written. -/
theorem oneOwner_demo :
    ∃ t, Runs.exec stepAny init
        [.start, .enter, .test, .lock, .append [104, 105], .wake, .trim, .write] = some t ∧
      t.buffersToWrite = [0] ∧ t.currentBuffer = some 2 ∧ t.output = [104, 105] ∧ t.OneOwner := by
  have h : (Runs.exec stepAny init
      [.start, .enter, .test, .lock, .append [104, 105], .wake, .trim, .write]).map
        (fun t => (t.buffersToWrite, t.currentBuffer, t.output)) =
      some ([0], some 2, [104, 105]) := by decide +kernel
  obtain ⟨t, ht, hview⟩ := Option.map_eq_some_iff.1 h
  simp only [Prod.mk.injEq] at hview
  exact ⟨t, ht, hview.1, hview.2.1, hview.2.2, oneOwner_of_exec ht⟩

end AsyncLogging

end G5
