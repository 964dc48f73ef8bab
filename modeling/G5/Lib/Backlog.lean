/-
**Serving at most one job at each arrival.**

Jobs stand in a queue, each with the amount it needs.  Amounts arrive, and at each arrival the
first job is served if what has arrived and has not been used suffices for it; no second job is,
and nothing is served between the arrivals.

Main definitions:

* `Backlog.left` — the jobs that are left in the queue after all arrivals.

Main results:

* `Backlog.left_eq_nil_iff` — **when nothing is left**: each job had all it needs as many arrivals
  before the end as there are jobs behind it.
-/

import Mathlib.Algebra.BigOperators.Group.List.Basic
import Mathlib.Algebra.Ring.Nat
import Mathlib.Tactic.Common

set_option relaxedAutoImplicit false
set_option autoImplicit false

namespace Backlog

/-- The jobs left after the arrivals, when `x` had arrived before and was not used. -/
def left : ℕ → List ℕ → List ℕ → List ℕ
  | _, jobs, [] => jobs
  | _, [], _ :: _ => []
  | x, job :: jobs, a :: arrivals =>
      if job ≤ x + a then left (x + a - job) jobs arrivals else left (x + a) (job :: jobs) arrivals

@[simp] theorem left_nil_right (x : ℕ) (jobs : List ℕ) : left x jobs [] = jobs := by
  cases jobs <;> rfl

@[simp] theorem left_nil_left (x : ℕ) (arrivals : List ℕ) : left x [] arrivals = [] := by
  cases arrivals <;> rfl

theorem left_of_le {x job a : ℕ} (h : job ≤ x + a) (jobs arrivals : List ℕ) :
    left x (job :: jobs) (a :: arrivals) = left (x + a - job) jobs arrivals := if_pos h

theorem left_of_lt {x job a : ℕ} (h : x + a < job) (jobs arrivals : List ℕ) :
    left x (job :: jobs) (a :: arrivals) = left (x + a) (job :: jobs) arrivals :=
  if_neg (Nat.not_le_of_lt h)

theorem length_left_le (x : ℕ) (jobs arrivals : List ℕ) :
    (left x jobs arrivals).length ≤ jobs.length := by
  induction arrivals generalizing x jobs with
  | nil => exact Nat.le_of_eq (congrArg List.length (left_nil_right x jobs))
  | cons a arrivals ih =>
      cases jobs with
      | nil => exact Nat.le_of_eq (congrArg List.length (left_nil_left x (a :: arrivals)))
      | cons job jobs =>
          by_cases h : job ≤ x + a
          · rw [left_of_le h, List.length_cons]
            exact Nat.le_succ_of_le (ih _ _)
          · rw [left_of_lt (Nat.lt_of_not_le h)]
            exact ih _ _

/-! ### When nothing is left -/

/-- When `x` had arrived before: each job had all it needs as many arrivals before the end as there
are jobs behind it. -/
def InTime (x : ℕ) (jobs arrivals : List ℕ) : Prop :=
  ∀ j < jobs.length, (jobs.take (jobs.length - j)).sum ≤
    x + (arrivals.take (arrivals.length - j)).sum

theorem inTime_served {x job a : ℕ} {jobs arrivals : List ℕ} (h : job ≤ x + a)
    (hlen : jobs.length ≤ arrivals.length) :
    InTime x (job :: jobs) (a :: arrivals) ↔ InTime (x + a - job) jobs arrivals := by
  constructor
  · intro hin j hj
    have hjob := hin j (by rw [List.length_cons]; omega)
    have hn : (job :: jobs).length - j = (jobs.length - j) + 1 := by rw [List.length_cons]; omega
    have hm : (a :: arrivals).length - j = (arrivals.length - j) + 1 := by
      rw [List.length_cons]
      omega
    rw [hn, hm, List.take_succ_cons, List.take_succ_cons, List.sum_cons, List.sum_cons] at hjob
    omega
  · intro hin j hj
    rw [List.length_cons] at hj
    have hn : (job :: jobs).length - j = (jobs.length - j) + 1 := by rw [List.length_cons]; omega
    have hm : (a :: arrivals).length - j = (arrivals.length - j) + 1 := by
      rw [List.length_cons]
      omega
    rw [hn, hm, List.take_succ_cons, List.take_succ_cons, List.sum_cons, List.sum_cons]
    by_cases hlast : j < jobs.length
    · have hjob := hin j hlast
      omega
    · -- the first job itself
      have hzero : jobs.length - j = 0 := by omega
      rw [hzero, List.take_zero, List.sum_nil]
      omega

theorem inTime_waiting {x job a : ℕ} {jobs arrivals : List ℕ}
    (hlen : (job :: jobs).length ≤ arrivals.length) :
    InTime x (job :: jobs) (a :: arrivals) ↔ InTime (x + a) (job :: jobs) arrivals := by
  have hm : ∀ j < (job :: jobs).length,
      ((a :: arrivals).take ((a :: arrivals).length - j)).sum =
        a + (arrivals.take (arrivals.length - j)).sum := by
    intro j hj
    have hsucc : (a :: arrivals).length - j = (arrivals.length - j) + 1 := by
      rw [List.length_cons]
      omega
    rw [hsucc, List.take_succ_cons, List.sum_cons]
  constructor
  · intro hin j hj
    have hjob := hin j hj
    rw [hm j hj] at hjob
    omega
  · intro hin j hj
    have hjob := hin j hj
    rw [hm j hj]
    omega

/-- **When nothing is left**, with what had arrived before. -/
theorem left_eq_nil_iff_of_before (x : ℕ) (jobs arrivals : List ℕ) :
    left x jobs arrivals = [] ↔ jobs.length ≤ arrivals.length ∧ InTime x jobs arrivals := by
  -- induction on the arrivals
  induction arrivals generalizing x jobs with
  | nil =>
      rw [left_nil_right]
      constructor
      · rintro rfl
        exact ⟨Nat.le_refl 0, fun j hj => absurd hj (Nat.not_lt_zero j)⟩
      · rintro ⟨hlen, -⟩
        exact List.length_eq_zero_iff.1 (Nat.le_zero.1 hlen)
  | cons a arrivals ih =>
      cases jobs with
      | nil =>
          rw [left_nil_left]
          exact ⟨fun _ => ⟨Nat.zero_le _, fun j hj => absurd hj (Nat.not_lt_zero j)⟩, fun _ => rfl⟩
      | cons job jobs =>
          by_cases h : job ≤ x + a
          · rw [left_of_le h, ih]
            constructor
            · rintro ⟨hlen, hin⟩
              exact ⟨Nat.succ_le_succ hlen, (inTime_served h hlen).2 hin⟩
            · rintro ⟨hlen, hin⟩
              have hlen' := Nat.le_of_succ_le_succ hlen
              exact ⟨hlen', (inTime_served h hlen').1 hin⟩
          · rw [left_of_lt (Nat.lt_of_not_le h), ih]
            constructor
            · rintro ⟨hlen, hin⟩
              exact ⟨Nat.le_succ_of_le hlen, (inTime_waiting hlen).2 hin⟩
            · rintro ⟨hlen, hin⟩
              -- with one arrival for each job, the first one would have had to suffice
              have hlen' : (job :: jobs).length ≤ arrivals.length := by
                by_contra hgt
                have heq : arrivals.length = jobs.length := by
                  rw [List.length_cons] at hgt hlen
                  rw [List.length_cons] at hlen
                  omega
                have hjob := hin jobs.length (Nat.lt_succ_self _)
                rw [List.length_cons, List.length_cons, heq, Nat.add_sub_cancel_left,
                  List.take_succ_cons, List.take_succ_cons, List.take_zero, List.take_zero,
                  List.sum_cons, List.sum_cons, List.sum_nil] at hjob
                omega
              exact ⟨hlen', (inTime_waiting hlen').1 hin⟩

/-- **When nothing is left**, if every job needs something. -/
theorem left_eq_nil_iff {jobs : List ℕ} (hpos : ∀ job ∈ jobs, 0 < job) (arrivals : List ℕ) :
    left 0 jobs arrivals = [] ↔ InTime 0 jobs arrivals := by
  rw [left_eq_nil_iff_of_before]
  constructor
  · rintro ⟨-, hin⟩
    exact hin
  · intro hin
    refine ⟨?_, hin⟩
    by_contra hgt
    -- the first job had nothing so many arrivals before the end
    cases jobs with
    | nil => exact hgt (Nat.zero_le _)
    | cons job jobs =>
        have hjob := hin jobs.length (Nat.lt_succ_self _)
        have hnone : arrivals.length - jobs.length = 0 := by
          rw [List.length_cons] at hgt
          omega
        rw [List.length_cons, Nat.add_sub_cancel_left, hnone, List.take_zero,
          List.take_succ_cons, List.take_zero, List.sum_cons, List.sum_nil] at hjob
        have := hpos job List.mem_cons_self
        omega

end Backlog
