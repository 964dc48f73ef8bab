/-
**The lower bound of a list.**

A binary search as the standard library does it: it keeps a first position and a length, looks at
the middle, and goes on behind it or before it.  What the search has looked at brackets its result,
even if the list is not sorted.

Main definitions:

* `lowerBound` — the search;
* `Bracket` — what is known on both sides of an interval;
* `IsLowerBound` — what the standard promises of a result.

Main results:

* `lowerBound_bracket` — **the elements on both sides of the result**, for any list;
* `isLowerBound_iff` — where the elements before come first, the result is the only one that meets
  the promise.
-/

import Mathlib.Algebra.Order.Group.Nat
import Mathlib.Tactic.Common

set_option relaxedAutoImplicit false
set_option autoImplicit false

namespace BinarySearch

variable {α : Type} {before : α → Bool} {xs : List α}

/-- The search in the `len` elements from `first` on. -/
def lowerBoundFrom (before : α → Bool) (xs : List α) : ℕ → ℕ → ℕ → ℕ
  | 0, first, _ => first
  | fuel + 1, first, len =>
      if 0 < len then
        let half := len / 2
        let middle := first + half
        if xs[middle]?.any before then lowerBoundFrom before xs fuel (middle + 1) (len - half - 1)
        else lowerBoundFrom before xs fuel first half
      else first

/-- The first position whose element is not before the one looked for. -/
def lowerBound (before : α → Bool) (xs : List α) : ℕ :=
  lowerBoundFrom before xs xs.length 0 xs.length

/-- What has been seen on both sides of the interval. -/
structure Bracket (before : α → Bool) (xs : List α) (first last : ℕ) : Prop where
  le : first ≤ last
  le_length : last ≤ xs.length
  left : ∀ i x, i + 1 = first → xs[i]? = some x → before x = true
  right : ∀ x, xs[last]? = some x → before x = false

/-- **Each half leaves a bracket**, whatever was found in the middle. -/
theorem Bracket.search {fuel first len : ℕ} (hfuel : len ≤ fuel)
    (h : Bracket before xs first (first + len)) :
    Bracket before xs (lowerBoundFrom before xs fuel first len)
      (lowerBoundFrom before xs fuel first len) := by
  induction fuel generalizing first len with
  | zero =>
      obtain rfl : len = 0 := by omega
      exact h
  | succ fuel ih =>
      simp only [lowerBoundFrom]
      split_ifs with hlen hmiddle
      · refine @ih (first + len / 2 + 1) (len - len / 2 - 1) (by omega)
          ⟨by omega, ?_, fun i x hi hx => ?_, fun x hx => ?_⟩
        · have hlength := h.le_length
          omega
        · obtain rfl : i = first + len / 2 := by omega
          rw [hx] at hmiddle
          exact hmiddle
        · have hend : first + len / 2 + 1 + (len - len / 2 - 1) = first + len := by omega
          rw [hend] at hx
          exact h.right x hx
      · refine @ih first (len / 2) (by omega) ⟨by omega, ?_, h.left, fun x hx => ?_⟩
        · have hlength := h.le_length
          omega
        · rw [hx] at hmiddle
          exact Bool.eq_false_iff.2 hmiddle
      · obtain rfl : len = 0 := by omega
        exact h

/-- **The result lies between an element before and one not before**, or at an end. -/
theorem lowerBound_bracket (before : α → Bool) (xs : List α) :
    Bracket before xs (lowerBound before xs) (lowerBound before xs) := by
  refine Bracket.search le_rfl ⟨by omega, by omega, fun i x hi => by omega, fun x hx => ?_⟩
  rw [zero_add, List.getElem?_eq_none le_rfl] at hx
  cases hx

/-! ### What the standard promises -/

/-- The furthest position such that all the elements in front of it are before the one looked
for. -/
structure IsLowerBound (before : α → Bool) (xs : List α) (r : ℕ) : Prop where
  le_length : r ≤ xs.length
  left : ∀ i x, i < r → xs[i]? = some x → before x = true
  furthest : ∀ x, xs[r]? = some x → before x = false

/-- The elements before the one looked for come first. -/
def Partitioned (before : α → Bool) (xs : List α) : Prop :=
  ∀ (i j : ℕ) (x y : α), i < j → xs[i]? = some x → xs[j]? = some y → before y = true →
    before x = true

theorem IsLowerBound.le {r r' : ℕ} (h : IsLowerBound before xs r)
    (h' : IsLowerBound before xs r') : r ≤ r' := by
  by_contra hlt
  have hlength := h.le_length
  have hget := List.getElem?_eq_getElem (l := xs) (i := r') (by omega)
  have hbefore := h.left r' _ (by omega) hget
  rw [h'.furthest _ hget] at hbefore
  cases hbefore

theorem isLowerBound_lowerBound (hpart : Partitioned before xs) :
    IsLowerBound before xs (lowerBound before xs) := by
  obtain ⟨-, hlength, hleft, hright⟩ := lowerBound_bracket before xs
  refine ⟨hlength, ?_, hright⟩
  intro i x hi hx
  obtain ⟨m, hm⟩ : ∃ m, m + 1 = lowerBound before xs := ⟨lowerBound before xs - 1, by omega⟩
  have hget := List.getElem?_eq_getElem (l := xs) (i := m) (by omega)
  have hlast := hleft m _ hm hget
  rcases Nat.lt_or_ge i m with hlt | hge
  · exact hpart i m x _ hlt hx hget hlast
  · obtain rfl : i = m := by omega
    rw [hget, Option.some.injEq] at hx
    exact hx ▸ hlast

/-- **The result is the only one that meets the promise.** -/
theorem isLowerBound_iff (hpart : Partitioned before xs) {r : ℕ} :
    IsLowerBound before xs r ↔ r = lowerBound before xs := by
  have hself := isLowerBound_lowerBound hpart
  constructor
  · intro h
    exact le_antisymm (h.le hself) (hself.le h)
  · rintro rfl
    exact hself

end BinarySearch
