/-
**Condition variables.**

A thread that waits on a condition variable sleeps until it is signalled, or until it wakes for no
reason; it then has to get the mutex before it goes on.  A signal wakes one sleeping thread at
least, if there is one.

Main definitions:

* `Waiter`, `Condition` — the threads that wait, and what each of them is doing;
* `Condition.wait`, `notify`, `notifyAll`, `rouse`, `resume` — the operations;
* `Condition.NoneAsleep`, `Condition.signalled` — what the wake-ups are counted with;
* `Condition.Covered` — there are signals enough for what there is to do, or nobody sleeps;
* `Condition.Served` — the same for a condition that may be closed, which wakes everybody.

Main results:

* `Condition.notify_counts` — **a signal is counted, or nobody sleeps**;
* `Condition.signalled_resume` — a thread that goes on uses up one signal at most;
* `Condition.Covered.notify`, `Condition.Covered.resume` — the same for credits;
* `Condition.Served.mono` and the lemmas after it — what each operation does to a served condition.
-/

import Mathlib.Data.Fintype.Basic
import Mathlib.Data.Finset.Card
import Mathlib.Logic.Function.Basic
import Mathlib.Tactic.Common

set_option relaxedAutoImplicit false
set_option autoImplicit false

/-- What a thread in a wait is doing. -/
inductive Waiter
  /-- it sleeps, and has not been signalled -/
  | asleep
  /-- it has been signalled, and does not have the mutex yet -/
  | signalled
  /-- it has woken without a signal, and does not have the mutex yet -/
  | roused
  deriving DecidableEq, Repr

/-- The threads in a wait. -/
abbrev Condition (τ : Type) : Type := τ → Option Waiter

namespace Condition

variable {τ : Type} [DecidableEq τ]

/-! ### The operations -/

/-- Nobody waits. -/
def empty : Condition τ := fun _ => none

def wait (c : Condition τ) (t : τ) : Condition τ := Function.update c t (some .asleep)

/-- A thread wakes without a signal. -/
def rouse (c : Condition τ) (t : τ) : Condition τ := Function.update c t (some .roused)

/-- The thread can go on once it has the mutex. -/
def Awake (c : Condition τ) (t : τ) : Prop := c t = some .signalled ∨ c t = some .roused

instance (c : Condition τ) (t : τ) : Decidable (c.Awake t) := inferInstanceAs (Decidable (_ ∨ _))

/-- A thread has the mutex and goes on. -/
def resume (c : Condition τ) (t : τ) : Condition τ := Function.update c t none

/-- The threads a signal may wake: one at least, if one sleeps. -/
def Wakes (c : Condition τ) (chosen : Finset τ) : Prop :=
  (∀ t ∈ chosen, c t = some .asleep) ∧ ((∃ t, c t = some .asleep) → chosen.Nonempty)

instance [Fintype τ] (c : Condition τ) (chosen : Finset τ) : Decidable (c.Wakes chosen) :=
  inferInstanceAs (Decidable (_ ∧ (_ → _)))

def notify (c : Condition τ) (chosen : Finset τ) : Condition τ :=
  fun t => if t ∈ chosen then some .signalled else c t

def notifyAll (c : Condition τ) : Condition τ :=
  fun t => if c t = some .asleep then some .signalled else c t

/-! ### Counting -/

def NoneAsleep (c : Condition τ) : Prop := ∀ t, c t ≠ some .asleep

/-- How many threads have been signalled and have not gone on. -/
def signalled [Fintype τ] (c : Condition τ) : ℕ :=
  (Finset.univ.filter fun t => c t = some .signalled).card

omit [DecidableEq τ] in
theorem noneAsleep_empty : (empty : Condition τ).NoneAsleep := fun _ h => by cases h

omit [DecidableEq τ] in
theorem noneAsleep_notifyAll (c : Condition τ) : c.notifyAll.NoneAsleep := by
  intro t h
  unfold notifyAll at h
  split_ifs at h with hasleep
  · cases h
  · exact hasleep h

/-- Who does not begin to wait does not sleep afterwards, if nobody slept before. -/
theorem NoneAsleep.update {c : Condition τ} (h : c.NoneAsleep) (t : τ) {w : Option Waiter}
    (hw : w ≠ some .asleep) : NoneAsleep (Function.update c t w) :=
  (Function.forall_update_iff c fun _ w => w ≠ some .asleep).2 ⟨hw, fun u _ => h u⟩

theorem NoneAsleep.resume {c : Condition τ} (h : c.NoneAsleep) (t : τ) :
    (c.resume t).NoneAsleep := h.update t fun hw => by cases hw

theorem NoneAsleep.rouse {c : Condition τ} (h : c.NoneAsleep) (t : τ) : (c.rouse t).NoneAsleep :=
  h.update t fun hw => by cases hw

theorem NoneAsleep.notify {c : Condition τ} (h : c.NoneAsleep) (chosen : Finset τ) :
    (c.notify chosen).NoneAsleep := by
  intro t ht
  unfold Condition.notify at ht
  split_ifs at ht with hmem
  · cases ht
  · exact h t ht

section

variable [Fintype τ] {c : Condition τ} {t : τ}

/-- What a thread does that has not been signalled does not matter, as long as it is not
signalled. -/
theorem signalled_update {w : Option Waiter} (ht : c t ≠ some .signalled)
    (hw : w ≠ some .signalled) : signalled (Function.update c t w) = c.signalled := by
  refine congrArg Finset.card (Finset.filter_congr fun u _ => ?_)
  by_cases hut : u = t
  · subst hut
    rw [Function.update_self]
    exact iff_of_false hw ht
  · rw [Function.update_of_ne hut]

theorem signalled_rouse (ht : c t = some .asleep) : (c.rouse t).signalled = c.signalled :=
  signalled_update (by rw [ht]; decide) (by decide)

/-- **A thread that goes on uses up one signal at most.** -/
theorem signalled_resume (c : Condition τ) (t : τ) : c.signalled ≤ (c.resume t).signalled + 1 := by
  have hsub : (Finset.univ.filter fun u => c u = some .signalled) ⊆
      insert t (Finset.univ.filter fun u => c.resume t u = some .signalled) := by
    intro u hu
    by_cases hut : u = t
    · exact Finset.mem_insert.2 (Or.inl hut)
    · refine Finset.mem_insert.2 (Or.inr ?_)
      rw [Finset.mem_filter] at hu ⊢
      rw [resume, Function.update_of_ne hut]
      exact hu
  exact le_trans (Finset.card_le_card hsub) (Finset.card_insert_le _ _)

/-- **A signal is counted, or nobody sleeps.** -/
theorem notify_counts {chosen : Finset τ} (h : c.Wakes chosen) :
    c.NoneAsleep ∨ c.signalled + 1 ≤ (c.notify chosen).signalled := by
  by_cases hasleep : ∃ t, c t = some .asleep
  · obtain ⟨t, ht⟩ := h.2 hasleep
    refine Or.inr (Finset.card_lt_card ((Finset.ssubset_iff_of_subset fun u hu => ?_).2
      ⟨t, ?_, fun hmem => ?_⟩))
    · rw [Finset.mem_filter] at hu ⊢
      refine ⟨hu.1, ?_⟩
      unfold notify
      split_ifs
      · rfl
      · exact hu.2
    · exact Finset.mem_filter.2 ⟨Finset.mem_univ t, if_pos ht⟩
    · have hsignalled := (Finset.mem_filter.1 hmem).2
      rw [h.1 t ht] at hsignalled
      cases hsignalled
  · exact Or.inl fun t ht => hasleep ⟨t, ht⟩

/-! ### No lost wake-up -/

/-- What there is to do is covered by signals and by the threads that have a credit of their own,
or nobody sleeps. -/
def Covered (c : Condition τ) (work credit : ℕ) : Prop :=
  c.NoneAsleep ∨ work ≤ c.signalled + credit

variable {work credit : ℕ}

omit [DecidableEq τ] in
theorem Covered.mono (h : c.Covered work credit) {work' credit' : ℕ}
    (hle : 0 < work' → work' + credit ≤ work + credit') : c.Covered work' credit' := by
  rcases h with hnone | hcovered
  · exact Or.inl hnone
  · exact Or.inr (by omega)

omit [DecidableEq τ] in
/-- Without work anybody may wait. -/
theorem covered_zero (c : Condition τ) (credit : ℕ) : c.Covered 0 credit := Or.inr (Nat.zero_le _)

theorem Covered.rouse (h : c.Covered work credit) (ht : c t = some .asleep) :
    (c.rouse t).Covered work credit := by
  rcases h with hnone | hcovered
  · exact Or.inl (hnone.rouse t)
  · exact Or.inr (by rw [signalled_rouse ht]; exact hcovered)

/-- The thread that goes on has a credit instead of its signal. -/
theorem Covered.resume (h : c.Covered work credit) (t : τ) :
    (c.resume t).Covered work (credit + 1) := by
  rcases h with hnone | hcovered
  · exact Or.inl (hnone.resume t)
  · have hsignalled := signalled_resume c t
    exact Or.inr (by omega)

/-- The thread that signals gives its credit away. -/
theorem Covered.notify {chosen : Finset τ} (h : c.Covered work (credit + 1))
    (hwakes : c.Wakes chosen) : (c.notify chosen).Covered work credit := by
  rcases h with hnone | hcovered
  · exact Or.inl (hnone.notify chosen)
  · rcases notify_counts hwakes with hnone | hcount
    · exact Or.inl (hnone.notify chosen)
    · exact Or.inr (by omega)

/-! ### Closing -/

/-- While the condition is open, what there is to do is covered; once it is closed nobody sleeps,
unless the call that wakes everybody is still pending. -/
structure Served (c : Condition τ) (running pending : Bool) (work credit : ℕ) : Prop where
  covered : running = true → c.Covered work credit
  closed : running = false → pending = false → c.NoneAsleep

variable {running pending : Bool}

omit [DecidableEq τ] in
theorem Served.mono (h : c.Served running pending work credit) {work' credit' : ℕ}
    (hle : 0 < work' → work' + credit ≤ work + credit') : c.Served running pending work' credit' :=
  ⟨fun hrunning => (h.covered hrunning).mono hle, h.closed⟩

/-- Without work a thread may begin to wait, as long as the condition is open. -/
theorem served_wait (c : Condition τ) (t : τ) (hrunning : running = true) (hwork : work = 0) :
    (c.wait t).Served running pending work credit := by
  subst hrunning hwork
  exact ⟨fun _ => covered_zero _ credit, nofun⟩

omit [DecidableEq τ] in
/-- Once the condition is closed there is nothing to cover. -/
theorem Served.of_closed (h : c.Served running pending work credit) (hclosed : running = false)
    (work' credit' : ℕ) : c.Served running pending work' credit' := by
  subst hclosed
  exact ⟨nofun, h.closed⟩

theorem Served.rouse (h : c.Served running pending work credit) (ht : c t = some .asleep) :
    (c.rouse t).Served running pending work credit :=
  ⟨fun hrunning => (h.covered hrunning).rouse ht,
    fun hclosed hdone => (h.closed hclosed hdone).rouse t⟩

theorem Served.resume (h : c.Served running pending work credit) (t : τ) :
    (c.resume t).Served running pending work (credit + 1) :=
  ⟨fun hrunning => (h.covered hrunning).resume t,
    fun hclosed hdone => (h.closed hclosed hdone).resume t⟩

theorem Served.notify {chosen : Finset τ} (h : c.Served running pending work (credit + 1))
    (hwakes : c.Wakes chosen) : (c.notify chosen).Served running pending work credit :=
  ⟨fun hrunning => (h.covered hrunning).notify hwakes,
    fun hclosed hdone => (h.closed hclosed hdone).notify chosen⟩

omit [DecidableEq τ] in
/-- The condition is closed, with everybody still to be woken. -/
theorem served_close (c : Condition τ) (work credit : ℕ) : c.Served false true work credit :=
  ⟨nofun, nofun⟩

omit [DecidableEq τ] in
theorem served_notifyAll (c : Condition τ) (running pending : Bool) (work credit : ℕ) :
    c.notifyAll.Served running pending work credit :=
  ⟨fun _ => Or.inl (noneAsleep_notifyAll c), fun _ _ => noneAsleep_notifyAll c⟩

end

/-! ### Who waits -/

omit [DecidableEq τ] in
/-- Some threads can always be chosen for a signal. -/
theorem exists_wakes [Fintype τ] (c : Condition τ) : ∃ chosen, c.Wakes chosen := by
  refine ⟨Finset.univ.filter fun t => c t = some .asleep, ?_, ?_⟩
  · intro t ht
    exact (Finset.mem_filter.1 ht).2
  · rintro ⟨t, ht⟩
    exact ⟨t, Finset.mem_filter.2 ⟨Finset.mem_univ t, ht⟩⟩

omit [DecidableEq τ] in
/-- Who waits and cannot go on sleeps. -/
theorem asleep_of_not_awake {c : Condition τ} {t : τ} (hwait : c t ≠ none) (hawake : ¬c.Awake t) :
    c t = some .asleep := by
  rcases hw : c t with _ | _ | _ | _
  · exact absurd hw hwait
  · rfl
  · exact absurd (Or.inl hw) hawake
  · exact absurd (Or.inr hw) hawake

omit [DecidableEq τ] in
theorem signalled_eq_zero [Fintype τ] {c : Condition τ} (h : ∀ t, c t ≠ some .signalled) :
    c.signalled = 0 := by
  rw [signalled, Finset.card_eq_zero, Finset.filter_eq_empty_iff]
  exact fun t _ => h t

omit [DecidableEq τ] in
theorem Awake.ne_none {c : Condition τ} {t : τ} (h : c.Awake t) : c t ≠ none := by
  rcases h with hsignalled | hroused
  · rw [hsignalled]
    exact Option.some_ne_none _
  · rw [hroused]
    exact Option.some_ne_none _

/-- A waiting thread changes its place, and nobody else begins to wait. -/
theorem update_eq_none {c : Condition τ} {t : τ} (w : Option Waiter) (ht : c t ≠ none) (u : τ)
    (hu : c u = none) : Function.update c t w u = none := by
  have hne : u ≠ t := fun heq => ht (heq ▸ hu)
  rw [Function.update_of_ne hne, hu]

omit [DecidableEq τ] in
/-- A thread stays where it is, or is woken. -/
theorem notifyAll_cases (c : Condition τ) (t : τ) :
    c.notifyAll t = c t ∨ c t = some .asleep ∧ c.notifyAll t = some .signalled := by
  unfold notifyAll
  split_ifs with ht
  · exact Or.inr ⟨ht, rfl⟩
  · exact Or.inl rfl

theorem notify_cases {c : Condition τ} {chosen : Finset τ} (h : c.Wakes chosen) (t : τ) :
    c.notify chosen t = c t ∨ c t = some .asleep ∧ c.notify chosen t = some .signalled := by
  unfold notify
  split_ifs with ht
  · exact Or.inr ⟨h.1 t ht, rfl⟩
  · exact Or.inl rfl

/-- A thread that wakes without a signal has been waiting. -/
theorem rouse_eq_none_iff {c : Condition τ} {t : τ} (ht : c t = some .asleep) (u : τ) :
    c.rouse t u = none ↔ c u = none := by
  by_cases hut : u = t
  · subst hut
    rw [rouse, Function.update_self, ht]
    simp
  · rw [rouse, Function.update_of_ne hut]

/-- A signal wakes sleeping threads only. -/
theorem notify_eq_none_iff {c : Condition τ} {chosen : Finset τ} (h : c.Wakes chosen) (t : τ) :
    c.notify chosen t = none ↔ c t = none := by
  unfold notify
  split_ifs with ht
  · rw [h.1 t ht]
    simp
  · exact Iff.rfl

omit [DecidableEq τ] in
theorem notifyAll_eq_none_iff (c : Condition τ) (t : τ) : c.notifyAll t = none ↔ c t = none := by
  unfold notifyAll
  split_ifs with ht
  · rw [ht]
    simp
  · exact Iff.rfl

end Condition
