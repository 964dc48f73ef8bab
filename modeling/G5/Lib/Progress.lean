/-
**Runs that come to an end.**

Some of the steps of a system are its own: they need no decision to begin something.  If each of
them lowers a rank, and if the system has reached its goal wherever it can take none, then it comes
to its goal in a bounded number of steps, in whatever order they are taken.

Main definitions:

* `Runs.only` — the steps with labels of one kind;
* `Runs.Settles` — the runs from a state are bounded, and where they cannot go on the goal is
  reached.

Main results:

* `Runs.settles_of_rank` — **the rule of the rank**.
-/

import G5.Lib.Runs
import Mathlib.Algebra.BigOperators.Group.Finset.Basic
import Mathlib.Algebra.BigOperators.Group.Finset.Piecewise
import Mathlib.Algebra.GroupWithZero.Nat
import Mathlib.Algebra.Order.BigOperators.Group.Finset

set_option relaxedAutoImplicit false
set_option autoImplicit false

namespace Runs

variable {σ ℓ : Type*}

/-! ### Steps of one kind -/

/-- The steps whose label is of the kind. -/
def only (step : σ → ℓ → Option σ) (kind : ℓ → Bool) (s : σ) (a : ℓ) : Option σ :=
  if kind a then step s a else none

section

variable {step : σ → ℓ → Option σ} {kind : ℓ → Bool} {I : σ → Prop}

theorem only_eq_some {s t : σ} {a : ℓ} :
    only step kind s a = some t ↔ kind a = true ∧ step s a = some t := by
  rw [only, Option.ite_none_right_eq_some]

theorem Invariant.only (hI : Invariant step I) : Invariant (only step kind) I :=
  fun s a t hs h => hI s a t hs (only_eq_some.1 h).2

/-- Where no step of the kind is left, a label of the kind is not enabled. -/
theorem stuck_only {s : σ} (h : ∀ a, Runs.only step kind s a = none) {a : ℓ}
    (ha : kind a = true) : step s a = none := by
  have hnone := h a
  rwa [Runs.only, if_pos ha] at hnone

end

/-! ### Coming to an end -/

/-- From `s` at most `n` steps can be taken, and `goal` holds wherever none can. -/
structure Settles (step : σ → ℓ → Option σ) (goal : σ → Prop) (n : ℕ) (s : σ) : Prop where
  bounded : ∀ as t, exec step s as = some t → as.length ≤ n
  reached : ∀ as t, exec step s as = some t → (∀ a, step t a = none) → goal t

section

variable {step : σ → ℓ → Option σ} {I goal : σ → Prop} {rank : σ → ℕ}

/-- A run is no longer than the rank it uses up. -/
theorem length_add_rank_le (hI : Invariant step I)
    (hrank : ∀ s a t, I s → step s a = some t → rank t < rank s) {s t : σ} {as : List ℓ}
    (hs : I s) (h : exec step s as = some t) : as.length + rank t ≤ rank s := by
  induction as generalizing s with
  | nil =>
      rw [exec_nil, Option.some_inj] at h
      rw [h, List.length_nil, Nat.zero_add]
  | cons a as ih =>
      obtain ⟨u, hu, hut⟩ := exec_cons_eq_some.1 h
      have htail := ih (hI s a u hs hu) hut
      have hlower := hrank s a u hs hu
      rw [List.length_cons]
      omega

/-- **The rule of the rank.** -/
theorem settles_of_rank (hI : Invariant step I)
    (hrank : ∀ s a t, I s → step s a = some t → rank t < rank s)
    (hgoal : ∀ s, I s → (∀ a, step s a = none) → goal s) {s : σ} (hs : I s) :
    Settles step goal (rank s) s where
  bounded as t h := by
    have hlength := length_add_rank_le hI hrank hs h
    omega
  reached as t h hstuck := hgoal t (exec_invariant hI hs h) hstuck

theorem Settles.mono {n m : ℕ} {s : σ} (h : Settles step goal n s) (hle : n ≤ m) :
    Settles step goal m s where
  bounded as t ht := le_trans (h.bounded as t ht) hle
  reached := h.reached

end

/-! ### The rank of several threads -/

variable {τ π : Type*} [DecidableEq τ] [Fintype τ]

/-- One thread goes down. -/
theorem sum_update_lt {points : τ → π} {weight : π → ℕ} {t : τ} {p : π}
    (h : weight p < weight (points t)) :
    ∑ u, weight (Function.update points t p u) < ∑ u, weight (points u) := by
  refine Finset.sum_lt_sum (fun u _ => ?_) ⟨t, Finset.mem_univ t, ?_⟩
  · by_cases hut : u = t
    · subst hut
      rw [Function.update_self]
      exact h.le
    · rw [Function.update_of_ne hut]
  · rwa [Function.update_self]

theorem sum_update_le {points : τ → π} {weight : π → ℕ} {t : τ} {p : π}
    (h : weight p ≤ weight (points t)) :
    ∑ u, weight (Function.update points t p u) ≤ ∑ u, weight (points u) := by
  refine Finset.sum_le_sum fun u _ => ?_
  by_cases hut : u = t
  · subst hut
    rwa [Function.update_self]
  · rw [Function.update_of_ne hut]

/-- One thread changes its weight. -/
theorem sum_add_eq {f g : τ → ℕ} {t : τ} (h : ∀ u, u ≠ t → g u = f u) :
    ∑ u, g u + f t = ∑ u, f u + g t := by
  have hothers : ∑ u ∈ Finset.univ.erase t, g u = ∑ u ∈ Finset.univ.erase t, f u :=
    Finset.sum_congr rfl fun u hu => h u (Finset.ne_of_mem_erase hu)
  rw [← Finset.add_sum_erase _ g (Finset.mem_univ t), ← Finset.add_sum_erase _ f
    (Finset.mem_univ t), hothers]
  omega

omit [DecidableEq τ] in
/-- Every thread may gain something. -/
theorem sum_le_add {f g : τ → ℕ} {n : ℕ} (h : ∀ u, g u ≤ f u + n) :
    ∑ u, g u ≤ ∑ u, f u + n * Fintype.card τ := by
  refine (Finset.sum_le_sum fun u _ => h u).trans (le_of_eq ?_)
  rw [Finset.sum_add_distrib, Finset.sum_const_nat fun _ _ => rfl, Finset.card_univ, Nat.mul_comm]

/-- One element of a list goes down. -/
theorem list_sum_set_lt {xs : List ℕ} {k m n : ℕ} (hk : xs[k]? = some n) (h : m < n) :
    (xs.set k m).sum < xs.sum := by
  induction xs generalizing k with
  | nil => cases hk
  | cons x xs ih =>
      cases k with
      | zero =>
          rw [List.getElem?_cons_zero, Option.some_inj] at hk
          rw [List.set_cons_zero, List.sum_cons, List.sum_cons]
          omega
      | succ k =>
          have htail := ih (by simpa using hk)
          rw [List.set_cons_succ, List.sum_cons, List.sum_cons]
          omega

end Runs
