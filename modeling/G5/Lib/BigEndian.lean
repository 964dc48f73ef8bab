/-
**Big-endian numbers, and records of one length.**

Main definitions:

* `BigEndian.bytesOf`, `BigEndian.valueOf` — a number as bytes, the highest first, and back;
* `BigEndian.encode` — the bytes of a word.

Main results:

* `BigEndian.valueOf_bytesOf`, `BigEndian.valueOf_encode` — what is written is read back;
* `Records.map_at` — **the records of a section are found one length after the other**.
-/

import G5.Lib.LittleEndian
import Mathlib.Data.List.Range

set_option relaxedAutoImplicit false
set_option autoImplicit false

namespace BigEndian

/-- The `n` low bytes of `x`, the highest first. -/
def bytesOf (n x : ℕ) : List UInt8 := (LittleEndian.bytesOf n x).reverse

/-- The number the bytes hold, the highest first. -/
def valueOf (bs : List UInt8) : ℕ := bs.foldl (fun n b => 256 * n + b.toNat) 0

@[simp] theorem length_bytesOf (n x : ℕ) : (bytesOf n x).length = n := by
  rw [bytesOf, List.length_reverse, LittleEndian.length_bytesOf]

theorem valueOf_reverse (bs : List UInt8) : valueOf bs.reverse = LittleEndian.valueOf bs := by
  unfold valueOf
  induction bs with
  | nil => rfl
  | cons b bs ih =>
      rw [List.reverse_cons, List.foldl_append, ih, List.foldl_cons, List.foldl_nil,
        LittleEndian.valueOf, Nat.add_comm]

theorem valueOf_bytesOf (n x : ℕ) : valueOf (bytesOf n x) = x % 256 ^ n := by
  rw [bytesOf, valueOf_reverse, LittleEndian.valueOf_bytesOf]

/-- The bytes of a word of `n` bytes. -/
def encode (n : ℕ) (x : BitVec (8 * n)) : List UInt8 := bytesOf n x.toNat

@[simp] theorem length_encode (n : ℕ) (x : BitVec (8 * n)) : (encode n x).length = n :=
  length_bytesOf n _

/-- **What is written is read back.** -/
theorem valueOf_encode (n : ℕ) (x : BitVec (8 * n)) : valueOf (encode n x) = x.toNat := by
  rw [encode, valueOf_bytesOf, ← LittleEndian.two_pow_eight_mul, Nat.mod_eq_of_lt x.isLt]

end BigEndian

namespace Records

variable {α β γ : Type*} {w : ℕ}

/-- The length of a section. -/
theorem length_flatMap {enc : α → List β} (hw : ∀ x, (enc x).length = w) (xs : List α) :
    (xs.flatMap enc).length = w * xs.length := by
  induction xs with
  | nil => rfl
  | cons x xs ih =>
      rw [List.flatMap_cons, List.length_append, ih, hw, List.length_cons, Nat.mul_succ,
        Nat.add_comm]

/-- **The records of a section are found one length after the other**: what is read at the place of
a record is its value. -/
theorem map_at (read : List β → ℕ → γ) (enc : α → List β) (value : α → γ)
    (hw : ∀ x, (enc x).length = w)
    (hread : ∀ x before after, read (before ++ (enc x ++ after)) before.length = value x)
    (before : List β) (xs : List α) (after : List β) :
    ((List.range xs.length).map fun i =>
      read (before ++ (xs.flatMap enc ++ after)) (before.length + w * i)) = xs.map value := by
  -- induction on the records: the first one belongs to what stands before the others
  induction xs generalizing before with
  | nil => rfl
  | cons x xs ih =>
      have hsplit : before ++ ((x :: xs).flatMap enc ++ after) =
          (before ++ enc x) ++ (xs.flatMap enc ++ after) := by
        rw [List.flatMap_cons]
        simp only [List.append_assoc]
      have hfirst : read (before ++ ((x :: xs).flatMap enc ++ after)) (before.length + w * 0) =
          value x := by
        rw [List.flatMap_cons, List.append_assoc]
        exact hread x before _
      have hlength : ∀ i, before.length + w * (i + 1) = (before ++ enc x).length + w * i := by
        intro i
        rw [List.length_append, hw, Nat.mul_succ]
        omega
      rw [List.length_cons, List.range_succ_eq_map, List.map_cons, List.map_map, hfirst,
        List.map_cons, ← ih (before ++ enc x)]
      refine congrArg _ (List.map_congr_left fun i _ => ?_)
      rw [Function.comp_apply, hlength, hsplit]

end Records
