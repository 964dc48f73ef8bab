/-
**Signed arithmetic of a fixed width.**

An operation whose exact result is not one of the two's complement integers of the width has no
result.  Division is towards zero.

Main definitions:

* `FixedWidth.Fits` — the integers of a width;
* `FixedWidth.add`, `FixedWidth.sub`, `FixedWidth.mul`, `FixedWidth.div`, `FixedWidth.mod`.

Main results:

* `FixedWidth.add_bind` and so on — an operation whose exact result fits has this result, and what
  follows goes on with it;
* `FixedWidth.ediv_of_tmod_neg` — how division towards zero is turned into division downwards.
-/

import Mathlib.Algebra.Order.Ring.Int
import Mathlib.Tactic.Common

set_option relaxedAutoImplicit false
set_option autoImplicit false

namespace FixedWidth

/-- The number is a two's complement integer of `w` bits. -/
def Fits (w : ℕ) (x : ℤ) : Prop := -2 ^ (w - 1) ≤ x ∧ x < 2 ^ (w - 1)

instance (w : ℕ) (x : ℤ) : Decidable (Fits w x) := inferInstanceAs (Decidable (_ ∧ _))

/-- The exact result, if it fits. -/
def check (w : ℕ) (x : ℤ) : Option ℤ := if Fits w x then some x else none

def add (w : ℕ) (x y : ℤ) : Option ℤ := check w (x + y)

def sub (w : ℕ) (x y : ℤ) : Option ℤ := check w (x - y)

def mul (w : ℕ) (x y : ℤ) : Option ℤ := check w (x * y)

def div (w : ℕ) (x y : ℤ) : Option ℤ := if y = 0 then none else check w (x.tdiv y)

def mod (w : ℕ) (x y : ℤ) : Option ℤ :=
  if y = 0 then none else (check w (x.tdiv y)).map fun _ => x.tmod y

section

variable {α : Type} {w : ℕ} {x y : ℤ}

/-- What follows a result goes on with it. -/
theorem some_bind {β : Type} (f : β → Option α) (b : β) : (some b >>= f) = f b := rfl

theorem check_bind (f : ℤ → Option α) (h : Fits w x) : (check w x >>= f) = f x := by
  rw [check, if_pos h]
  rfl

theorem add_bind (f : ℤ → Option α) (h : Fits w (x + y)) : (add w x y >>= f) = f (x + y) :=
  check_bind f h

theorem sub_bind (f : ℤ → Option α) (h : Fits w (x - y)) : (sub w x y >>= f) = f (x - y) :=
  check_bind f h

theorem mul_bind (f : ℤ → Option α) (h : Fits w (x * y)) : (mul w x y >>= f) = f (x * y) :=
  check_bind f h

/-- From zero on, division towards zero is division downwards. -/
theorem div_bind (f : ℤ → Option α) (h : Fits w x) (hx : 0 ≤ x) (hy : 0 < y) :
    (div w x y >>= f) = f (x / y) := by
  have hfits : Fits w (x / y) := by
    refine ⟨?_, lt_of_le_of_lt (Int.ediv_le_self y hx) h.2⟩
    exact le_trans (neg_nonpos.2 (pow_nonneg (by decide) _)) (Int.ediv_nonneg hx (le_of_lt hy))
  rw [div, if_neg (ne_of_gt hy), Int.tdiv_eq_ediv_of_nonneg hx]
  exact check_bind f hfits

/-- Division by a positive number cannot overflow. -/
theorem fits_tdiv (h : Fits w x) (hy : 0 < y) : Fits w (x.tdiv y) := by
  have habs := Int.natAbs_tdiv_le_natAbs x y
  obtain ⟨h₁, h₂⟩ := h
  rcases le_total 0 x with hx | hx
  · have hq := Int.tdiv_nonneg hx (le_of_lt hy)
    exact ⟨by omega, by omega⟩
  · have hq := Int.tdiv_nonneg (neg_nonneg.2 hx) (le_of_lt hy)
    rw [Int.neg_tdiv] at hq
    exact ⟨by omega, by omega⟩

theorem tdiv_bind (f : ℤ → Option α) (h : Fits w x) (hy : 0 < y) :
    (div w x y >>= f) = f (x.tdiv y) := by
  rw [div, if_neg (ne_of_gt hy)]
  exact check_bind f (fits_tdiv h hy)

theorem tmod_bind (f : ℤ → Option α) (h : Fits w x) (hy : 0 < y) :
    (mod w x y >>= f) = f (x.tmod y) := by
  rw [mod, if_neg (ne_of_gt hy), check, if_pos (fits_tdiv h hy)]
  rfl

/-- A negative remainder, put right: with one divisor added, division is downwards. -/
theorem ediv_of_tmod_neg (hy : 0 < y) (h : x.tmod y < 0) :
    x.tmod y + y = x % y ∧ x.tdiv y - 1 = x / y := by
  have hlow := Int.lt_tmod_of_pos x hy
  have hsplit := Int.mul_tdiv_add_tmod x y
  have hunique := (Int.ediv_emod_unique (a := x) (q := x.tdiv y - 1) (r := x.tmod y + y) hy).2
    ⟨by rw [mul_sub, mul_one]; omega, by omega, by omega⟩
  exact ⟨hunique.2.symm, hunique.1.symm⟩

theorem ediv_of_tmod_nonneg (hy : 0 < y) (h : 0 ≤ x.tmod y) :
    x.tmod y = x % y ∧ x.tdiv y = x / y := by
  have hsplit := Int.mul_tdiv_add_tmod x y
  have hunique := (Int.ediv_emod_unique (a := x) (q := x.tdiv y) (r := x.tmod y) hy).2
    ⟨by omega, h, Int.tmod_lt_of_pos x hy⟩
  exact ⟨hunique.2.symm, hunique.1.symm⟩

end

/-! ### 32 and 64 bits -/

theorem fits_64 {x : ℤ} (h₁ : -9223372036854775808 ≤ x) (h₂ : x < 9223372036854775808) :
    Fits 64 x := ⟨h₁, h₂⟩

theorem fits_32 {x : ℤ} (h₁ : -2147483648 ≤ x) (h₂ : x < 2147483648) : Fits 32 x := ⟨h₁, h₂⟩

section

variable {α : Type} {f : ℤ → Option α} {x y : ℤ}

theorem add_32 (h₁ : -2147483648 ≤ x + y) (h₂ : x + y < 2147483648) :
    (add 32 x y >>= f) = f (x + y) := add_bind f (fits_32 h₁ h₂)

theorem sub_32 (h₁ : -2147483648 ≤ x - y) (h₂ : x - y < 2147483648) :
    (sub 32 x y >>= f) = f (x - y) := sub_bind f (fits_32 h₁ h₂)

/-- An operation that nothing follows. -/
theorem sub_32_eq (h₁ : -2147483648 ≤ x - y) (h₂ : x - y < 2147483648) :
    sub 32 x y = some (x - y) := if_pos (fits_32 h₁ h₂)

theorem mul_32 (h₁ : -2147483648 ≤ x * y) (h₂ : x * y < 2147483648) :
    (mul 32 x y >>= f) = f (x * y) := mul_bind f (fits_32 h₁ h₂)

theorem div_32 (h₁ : 0 ≤ x) (h₂ : x < 2147483648) (hy : 0 < y) :
    (div 32 x y >>= f) = f (x / y) := div_bind f (fits_32 (by omega) h₂) h₁ hy

end

end FixedWidth
