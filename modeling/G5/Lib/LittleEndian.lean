/-
**Little-endian byte strings of machine words.**

Copying a word to memory byte by byte, and back, on a little-endian machine: the value of a byte
string is `∑ bᵢ 256ⁱ`.

Main definitions:

* `LittleEndian.bytesOf` — the first `n` bytes of a number;
* `LittleEndian.valueOf` — the number a byte string holds;
* `LittleEndian.encode`, `LittleEndian.decode` — the same for words of `n` bytes.

Main results:

* `LittleEndian.decode_encode` — a word copied to memory is read back.
-/

import Mathlib.Tactic.Ring

set_option relaxedAutoImplicit false
set_option autoImplicit false

namespace LittleEndian

/-- The `n` low bytes of `x`, the lowest first. -/
def bytesOf : ℕ → ℕ → List UInt8
  | 0, _ => []
  | n + 1, x => UInt8.ofNat x :: bytesOf n (x / 256)

/-- The number the bytes hold, the lowest first. -/
def valueOf : List UInt8 → ℕ
  | [] => 0
  | b :: bs => b.toNat + 256 * valueOf bs

@[simp] theorem length_bytesOf (n x : ℕ) : (bytesOf n x).length = n := by
  induction n generalizing x with
  | zero => rfl
  | succ n ih => simp [bytesOf, ih]

theorem valueOf_bytesOf (n x : ℕ) : valueOf (bytesOf n x) = x % 256 ^ n := by
  induction n generalizing x with
  | zero => simp [bytesOf, valueOf, Nat.mod_one]
  | succ n ih =>
      have hhead : (UInt8.ofNat x).toNat = x % 256 := by simp
      rw [bytesOf, valueOf, ih, hhead, Nat.pow_succ, Nat.mul_comm (256 ^ n), Nat.mod_mul]

/-! ### Words -/

/-- The bytes of a word of `n` bytes. -/
def encode (n : ℕ) (x : BitVec (8 * n)) : List UInt8 := bytesOf n x.toNat

/-- The word of `n` bytes that a byte string holds. -/
def decode (n : ℕ) (bs : List UInt8) : BitVec (8 * n) := BitVec.ofNat (8 * n) (valueOf bs)

@[simp] theorem length_encode (n : ℕ) (x : BitVec (8 * n)) : (encode n x).length = n :=
  length_bytesOf n _

theorem two_pow_eight_mul (n : ℕ) : 2 ^ (8 * n) = 256 ^ n := by
  rw [Nat.pow_mul]

/-- A word copied to memory is read back. -/
theorem decode_encode (n : ℕ) (x : BitVec (8 * n)) : decode n (encode n x) = x := by
  refine BitVec.eq_of_toNat_eq ?_
  rw [decode, encode, BitVec.toNat_ofNat, valueOf_bytesOf, two_pow_eight_mul, Nat.mod_mod,
    ← two_pow_eight_mul, Nat.mod_eq_of_lt x.isLt]

end LittleEndian
