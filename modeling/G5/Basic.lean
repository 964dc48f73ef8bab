/-
**What every part of the model shares.**

Bytes, and the ways in which a call of the library can go wrong: a failed `assert`, an exception of
the standard library, an access outside an object.  A function that can go wrong returns
`Checked α`; a caller that reaches the error has aborted, thrown, or has undefined behaviour.

Main definitions:

* `Byte`, `ascii`, `Fault`, `Checked`, `assertThat`;
* `toInt32`, `toInt64`, `toSizeT`, `toUnsigned` — conversion to the integer types of the source,
  modulo the width;
* `substr` — `std::string::substr`;
* `elementAt` — an element of a vector or an array, if there is one.
-/

import Mathlib.Algebra.Ring.Int.Defs
import Mathlib.Algebra.Ring.Nat
import Mathlib.Order.Defs.LinearOrder
import Mathlib.Tactic.Common

set_option relaxedAutoImplicit false
set_option autoImplicit false

namespace G5

/-- A `char` of the source. -/
abbrev Byte := UInt8

/-- Strings compare by their bytes, and bytes as unsigned numbers. -/
instance : LinearOrder Byte where
  le_refl := UInt8.le_refl
  le_trans _ _ _ := UInt8.le_trans
  le_antisymm _ _ := UInt8.le_antisymm
  le_total := UInt8.le_total
  lt_iff_le_not_ge a b := by
    rw [UInt8.not_le]
    exact ⟨fun h => ⟨UInt8.le_of_lt h, h⟩, fun h => h.2⟩
  toDecidableLE := inferInstance
  toDecidableLT := inferInstance
  toDecidableEq := inferInstance

/-- The bytes of a string literal. -/
def ascii (s : String) : List Byte := s.toList.map fun c => c.toNat.toUInt8

/-- How a call can go wrong. -/
inductive Fault
  /-- an `assert` whose condition is false -/
  | assertion
  /-- `std::out_of_range` -/
  | outOfRange
  /-- `std::bad_function_call` -/
  | badFunctionCall
  /-- a null pointer is used -/
  | nullPointer
  /-- an element outside a container is used -/
  | outOfBounds
  deriving DecidableEq, Repr

/-- A result, or what went wrong. -/
abbrev Checked (α : Type) := Except Fault α

@[simp] theorem ok_bind {α β : Type} (a : α) (f : α → Checked β) :
    ((Except.ok a : Checked α) >>= f) = f a := rfl

@[simp] theorem error_bind {α β : Type} (e : Fault) (f : α → Checked β) :
    ((Except.error e : Checked α) >>= f) = .error e := rfl

@[simp] theorem pure_eq_ok {α : Type} (a : α) : (pure a : Checked α) = .ok a := rfl

theorem bind_eq_ok {α β : Type} {x : Checked α} {f : α → Checked β} {b : β} :
    (x >>= f) = .ok b ↔ ∃ a, x = .ok a ∧ f a = .ok b := by
  cases x <;> simp

/-- The `assert` of the source. -/
def assertThat (c : Prop) [Decidable c] : Checked Unit :=
  if c then .ok () else .error .assertion

@[simp] theorem assertThat_pos {c : Prop} [Decidable c] (h : c) : assertThat c = .ok () := if_pos h

/-- Conversion to `int`. -/
def toInt32 (x : ℤ) : ℤ := x.bmod (2 ^ 32)

/-- Conversion to `int64_t`. -/
def toInt64 (x : ℤ) : ℤ := x.bmod (2 ^ 64)

/-- Conversion to `size_t`. -/
def toSizeT (x : ℤ) : ℕ := (x % 2 ^ 64).toNat

/-- Conversion to `unsigned`. -/
def toUnsigned (x : ℤ) : ℕ := (x % 2 ^ 32).toNat

theorem toInt32_eq {x : ℤ} (h₁ : -2 ^ 31 ≤ x) (h₂ : x < 2 ^ 31) : toInt32 x = x := by
  rw [toInt32, Int.bmod_def]
  omega

theorem toInt32_lt (x : ℤ) : toInt32 x < 2 ^ 31 := by
  rw [toInt32, Int.bmod_def]
  omega

theorem le_toInt32 (x : ℤ) : -2 ^ 31 ≤ toInt32 x := by
  rw [toInt32, Int.bmod_def]
  omega

/-- From -1 on, conversion to `int` never adds. -/
theorem toInt32_le {x : ℤ} (h : -1 ≤ x) : toInt32 x ≤ x := by
  rw [toInt32, Int.bmod_def]
  omega

theorem toInt64_eq {x : ℤ} (h₁ : -2 ^ 63 ≤ x) (h₂ : x < 2 ^ 63) : toInt64 x = x := by
  rw [toInt64, Int.bmod_def]
  omega

theorem toSizeT_natCast {n : ℕ} (h : n < 2 ^ 64) : toSizeT n = n := by
  unfold toSizeT
  omega

/-- `std::string::substr(pos, n)`. -/
def substr (s : List Byte) (pos n : ℕ) : Checked (List Byte) :=
  if pos ≤ s.length then .ok ((s.drop pos).take n) else .error .outOfRange

/-- `operator[]` of a vector or an array. -/
def elementAt {α : Type} (xs : List α) (i : ℤ) : Checked α :=
  if 0 ≤ i then xs[i.toNat]?.elim (.error .outOfBounds) .ok else .error .outOfBounds

theorem elementAt_eq_ok {α : Type} {xs : List α} {i : ℤ} {x : α} :
    elementAt xs i = .ok x ↔ 0 ≤ i ∧ xs[i.toNat]? = some x := by
  unfold elementAt
  split_ifs with hi
  · cases xs[i.toNat]? with
    | none => simp
    | some y => simp [hi]
  · simp [hi]

theorem elementAt_natCast {α : Type} {xs : List α} {i : ℕ} {x : α} (h : xs[i]? = some x) :
    elementAt xs i = .ok x := elementAt_eq_ok.2 ⟨Int.natCast_nonneg i, h⟩

theorem elementAt_of_lt {α : Type} {xs : List α} {i : ℤ} (h₀ : 0 ≤ i) (h : i < xs.length) :
    ∃ x ∈ xs, elementAt xs i = .ok x := by
  have hget := List.getElem?_eq_getElem (l := xs) (i := i.toNat) (by omega)
  exact ⟨_, List.mem_of_getElem? hget, elementAt_eq_ok.2 ⟨h₀, hget⟩⟩

theorem elementAt_out {α : Type} {xs : List α} {i : ℤ} (h : ¬(0 ≤ i ∧ i < xs.length)) :
    elementAt xs i = .error .outOfBounds := by
  unfold elementAt
  split_ifs with hi
  · rw [List.getElem?_eq_none (by omega)]
    rfl
  · rfl

end G5
