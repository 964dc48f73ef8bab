/-
**Taking turns.**

A cursor goes through a list and starts again at its end.  What is taken, turn after turn, is the
list over and over; so any window that is as long as the list is a rotation of it.

Main definitions:

* `RoundRobin.advance` — the cursor behind a turn;
* `RoundRobin.Turns` — what has been taken, and where the cursor stands.

Main results:

* `RoundRobin.Turns.take` — **a turn**;
* `RoundRobin.Turns.window_perm` — every window takes each element once.
-/

import Mathlib.Data.List.Rotate

set_option relaxedAutoImplicit false
set_option autoImplicit false

namespace RoundRobin

variable {α : Type}

/-- The cursor behind a turn. -/
def advance (length next : ℕ) : ℕ := if length ≤ next + 1 then 0 else next + 1

/-- What has been taken of the list, turn after turn, and where the cursor stands. -/
structure Turns (l : List α) (next : ℕ) (taken : List α) : Prop where
  next_eq : next = taken.length % l.length
  taken_eq : ∀ k < taken.length, taken[k]? = l[k % l.length]?

variable {l taken : List α} {next : ℕ}

theorem turns_nil (l : List α) : Turns l 0 [] where
  next_eq := (Nat.zero_mod _).symm
  taken_eq k hk := absurd hk (Nat.not_lt_zero k)

theorem advance_eq_mod {n i : ℕ} (h : i % n + 1 ≤ n) : advance n (i % n) = (i + 1) % n := by
  rw [← Nat.mod_add_mod, advance]
  split_ifs with hend
  · rw [le_antisymm h hend, Nat.mod_self]
  · rw [Nat.mod_eq_of_lt (not_le.1 hend)]

/-- The cursor stands in the list. -/
theorem Turns.next_lt (h : Turns l next taken) (hl : l ≠ []) : next < l.length := by
  rw [h.next_eq]
  exact Nat.mod_lt _ (List.length_pos_iff.2 hl)

/-- **A turn.** -/
theorem Turns.take (h : Turns l next taken) {a : α} (ha : l[next]? = some a) :
    Turns l (advance l.length next) (taken ++ [a]) where
  next_eq := by
    obtain ⟨hlt, -⟩ := List.getElem?_eq_some_iff.1 ha
    rw [List.length_append, List.length_singleton, h.next_eq]
    exact advance_eq_mod (by rw [← h.next_eq]; exact hlt)
  taken_eq k hk := by
    rw [List.length_append, List.length_singleton] at hk
    rcases Nat.lt_succ_iff_lt_or_eq.1 hk with hold | rfl
    · rw [List.getElem?_append_left hold]
      exact h.taken_eq k hold
    · rw [List.getElem?_concat_length, ← h.next_eq, ha]

/-- A window that is as long as the list is a rotation of it. -/
theorem Turns.window_eq_rotate (h : Turns l next taken) {start : ℕ}
    (hwindow : start + l.length ≤ taken.length) :
    (taken.drop start).take l.length = l.rotate start := by
  refine List.ext_getElem? fun j => ?_
  rcases Nat.lt_or_ge j l.length with hj | hj
  · rw [List.getElem?_take_of_lt hj, List.getElem?_drop, h.taken_eq _ (by omega),
      List.getElem?_rotate hj, Nat.add_comm]
  · rw [List.getElem?_eq_none, List.getElem?_eq_none]
    · rw [List.length_rotate]
      exact hj
    · exact (List.length_take_le _ _).trans hj

/-- **Every window takes each element once.** -/
theorem Turns.window_perm (h : Turns l next taken) {start : ℕ}
    (hwindow : start + l.length ≤ taken.length) : ((taken.drop start).take l.length).Perm l := by
  rw [h.window_eq_rotate hwindow]
  exact List.rotate_perm l start

end RoundRobin
