/-
**Bit masks: setting, clearing and testing flags.**

A set of flags is a word; `e ||| k` sets the flags of `k`, `e &&& ~~~k` clears them, and
`e &&& k` tests them.

Main definitions:

* `Mask.Single` — the mask of one flag.

Main results:

* `Mask.or_and_self`, `Mask.diff_and_self` — testing what was just set or cleared;
* `Mask.or_and_of_disjoint`, `Mask.diff_and_of_disjoint` — the other flags are unchanged;
* `Mask.or_eq_self_iff`, `Mask.diff_eq_self_iff` — when setting or clearing changes nothing.
-/

import Mathlib.Tactic.Common

set_option relaxedAutoImplicit false
set_option autoImplicit false

namespace Mask

variable {w : ℕ}

/-- A flag that was just set is set. -/
theorem or_and_self (e k : BitVec w) : (e ||| k) &&& k = k := by
  ext i hi
  simp only [BitVec.getElem_and, BitVec.getElem_or]
  cases e[i] <;> cases k[i] <;> rfl

/-- A flag that was just cleared is not set. -/
theorem diff_and_self (e k : BitVec w) : (e &&& ~~~k) &&& k = 0 := by
  ext i hi
  simp only [BitVec.getElem_and, BitVec.getElem_not]
  cases e[i] <;> cases k[i] <;> simp

/-- Setting a flag leaves the others alone. -/
theorem or_and_of_disjoint (e : BitVec w) {k l : BitVec w} (h : k &&& l = 0) :
    (e ||| k) &&& l = e &&& l := by
  ext i hi
  have hkl : (k &&& l)[i] = false := by simp [h]
  simp only [BitVec.getElem_and, BitVec.getElem_or] at hkl ⊢
  revert hkl
  cases e[i] <;> cases k[i] <;> cases l[i] <;> simp

/-- Clearing a flag leaves the others alone. -/
theorem diff_and_of_disjoint (e : BitVec w) {k l : BitVec w} (h : k &&& l = 0) :
    (e &&& ~~~k) &&& l = e &&& l := by
  ext i hi
  have hkl : (k &&& l)[i] = false := by simp [h]
  simp only [BitVec.getElem_and, BitVec.getElem_not] at hkl ⊢
  revert hkl
  cases e[i] <;> cases k[i] <;> cases l[i] <;> simp

/-- Setting flags changes nothing exactly when they are all set. -/
theorem or_eq_self_iff {e k : BitVec w} : e ||| k = e ↔ e &&& k = k := by
  constructor
  · intro h
    rw [← h]
    exact or_and_self e k
  · intro h
    rw [← h]
    ext i hi
    simp only [BitVec.getElem_and, BitVec.getElem_or]
    cases e[i] <;> cases k[i] <;> rfl

/-- Clearing flags changes nothing exactly when none is set. -/
theorem diff_eq_self_iff {e k : BitVec w} : e &&& ~~~k = e ↔ e &&& k = 0 := by
  constructor
  · intro h
    rw [← h]
    exact diff_and_self e k
  · intro h
    ext i hi
    have hek : (e &&& k)[i] = false := by simp [h]
    simp only [BitVec.getElem_and, BitVec.getElem_not] at hek ⊢
    revert hek
    cases e[i] <;> cases k[i] <;> simp

/-- The mask of one flag: it is set, or it is not. -/
def Single (k : BitVec w) : Prop := k ≠ 0 ∧ ∀ e, e &&& k = 0 ∨ e &&& k = k

theorem single_twoPow {i : ℕ} (hi : i < w) : Single (BitVec.twoPow w i) := by
  constructor
  · intro h
    have := congrArg (BitVec.getLsbD · i) h
    simp [hi] at this
  · intro e
    rw [BitVec.and_twoPow]
    split <;> simp

/-- A flag is set exactly when testing it gives its mask. -/
theorem Single.ne_zero_iff {k : BitVec w} (h : Single k) (e : BitVec w) :
    e &&& k ≠ 0 ↔ e &&& k = k := by
  rcases h.2 e with he | he
  · rw [he]
    exact iff_of_false (fun hne => hne rfl) (fun hk => h.1 hk.symm)
  · rw [he]
    exact iff_of_true h.1 rfl

end Mask
