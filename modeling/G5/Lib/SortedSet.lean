/-
**Ordered sets as strictly increasing lists.**

A set of the standard library keeps its elements in order and holds each once.  It is modelled by
the list of its elements from the first to the last.

Main definitions:

* `SortedSet.insert` — insertion;
* `SortedSet.below`, `SortedSet.above` — the elements before the lower bound of a key, and the ones
  from it on.

Main results:

* `SortedSet.pairwise_insert` — the list stays strictly increasing;
* `SortedSet.insert_perm` — a new element is added once;
* `SortedSet.below_eq_filter`, `SortedSet.le_of_mem_above` — the lower bound splits the set by the
  order.
-/

import Mathlib.Data.List.Basic
import Mathlib.Order.Lattice
import Mathlib.Tactic.Common

set_option relaxedAutoImplicit false
set_option autoImplicit false

namespace SortedSet

variable {α : Type*} [LinearOrder α]

/-! ### Insertion -/

/-- Insertion of an element, which changes nothing if it is there already. -/
def insert (a : α) : List α → List α
  | [] => [a]
  | b :: l => if a < b then a :: b :: l else if a = b then b :: l else b :: insert a l

@[simp] theorem insert_nil (a : α) : insert a [] = [a] := rfl

theorem insert_cons (a b : α) (l : List α) :
    insert a (b :: l) = if a < b then a :: b :: l else if a = b then b :: l else b :: insert a l :=
  rfl

@[simp] theorem mem_insert {a b : α} {l : List α} : b ∈ insert a l ↔ b = a ∨ b ∈ l := by
  induction l with
  | nil => simp
  | cons c l ih =>
      rw [insert_cons]
      split
      · simp
      · split
        · rename_i heq
          subst heq
          simp
        · simp [ih, or_left_comm]

theorem pairwise_insert {a : α} {l : List α} (h : l.Pairwise (· < ·)) :
    (insert a l).Pairwise (· < ·) := by
  induction l with
  | nil => simp
  | cons b l ih =>
      obtain ⟨hb, hl⟩ := List.pairwise_cons.1 h
      rw [insert_cons]
      split
      · rename_i hab
        refine List.pairwise_cons.2 ⟨?_, h⟩
        intro c hc
        rcases List.mem_cons.1 hc with rfl | hc
        · exact hab
        · exact lt_trans hab (hb c hc)
      · split
        · exact h
        · rename_i hnlt hne
          have hba : b < a := lt_of_le_of_ne (le_of_not_gt hnlt) (Ne.symm hne)
          refine List.pairwise_cons.2 ⟨?_, ih hl⟩
          intro c hc
          rcases mem_insert.1 hc with rfl | hc
          · exact hba
          · exact hb c hc

/-- A new element is added once. -/
theorem insert_perm {a : α} {l : List α} (h : a ∉ l) : (insert a l).Perm (a :: l) := by
  induction l with
  | nil => exact List.Perm.refl _
  | cons b l ih =>
      rw [insert_cons]
      split
      · exact List.Perm.refl _
      · split
        · rename_i heq
          exact absurd (heq ▸ List.mem_cons_self) h
        · exact ((ih fun hl => h (List.mem_cons_of_mem b hl)).cons b).trans (List.Perm.swap a b l)

/-- The first element after an insertion. -/
theorem head?_insert (a b : α) (l : List α) :
    (insert a (b :: l)).head? = some (if a < b then a else b) := by
  rw [insert_cons]
  split
  · rfl
  · split <;> rfl

/-! ### The lower bound -/

/-- The elements before the lower bound of `x`. -/
def below (x : α) (l : List α) : List α := l.takeWhile (· < x)

/-- The elements from the lower bound of `x` on. -/
def above (x : α) (l : List α) : List α := l.dropWhile (· < x)

theorem below_append_above (x : α) (l : List α) : below x l ++ above x l = l :=
  List.takeWhile_append_dropWhile

theorem below_eq_filter {x : α} {l : List α} (h : l.Pairwise (· < ·)) :
    below x l = l.filter (· < x) := by
  induction l with
  | nil => rfl
  | cons b l ih =>
      obtain ⟨hb, hl⟩ := List.pairwise_cons.1 h
      by_cases hbx : b < x
      · rw [below, List.takeWhile_cons_of_pos (by simpa using hbx),
          List.filter_cons_of_pos (by simpa using hbx)]
        exact congrArg (b :: ·) (ih hl)
      · -- everything after `b` is beyond `x` as well
        have hnone : l.filter (· < x) = [] := by
          rw [List.filter_eq_nil_iff]
          intro c hc hcx
          exact hbx (lt_trans (hb c hc) (by simpa using hcx))
        rw [below, List.takeWhile_cons_of_neg (by simpa using hbx),
          List.filter_cons_of_neg (by simpa using hbx), hnone]

/-- What the lower bound leaves is not below it. -/
theorem le_of_mem_above {x a : α} {l : List α} (h : l.Pairwise (· < ·)) (ha : a ∈ above x l) :
    x ≤ a := by
  induction l with
  | nil => simp [above] at ha
  | cons b l ih =>
      obtain ⟨hb, hl⟩ := List.pairwise_cons.1 h
      by_cases hbx : b < x
      · rw [above, List.dropWhile_cons_of_pos (by simpa using hbx)] at ha
        exact ih hl ha
      · rw [above, List.dropWhile_cons_of_neg (by simpa using hbx)] at ha
        rcases List.mem_cons.1 ha with rfl | ha
        · exact le_of_not_gt hbx
        · exact le_trans (le_of_not_gt hbx) (le_of_lt (hb a ha))

end SortedSet
