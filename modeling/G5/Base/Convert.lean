/-
**Formatting integers** (`convert`, `src/base/LogStream.cc`).

A number is written digit by digit, the last one first, into the memory of the stream, and turned
round there.  The remainder of a negative number is negative, or zero: the digits are looked up in
both directions from the middle of a table, so that the number itself is never negated.

Main definitions:

* `IntegerType`, `IntegerType.Value` — the integer types of the stream, and their values;
* `store`, `reverseRange` — writing to memory, and `std::reverse`;
* `convert` — the function, with the loop `convertLoop`.

Main results:

* `convertLoop_eq` — the loop writes the digits, the last one first;
* `convert_eq` — the numeral and a null character are written, and the length is returned;
* `convert_canonical` — **for every value of every type it is the canonical numeral**.
-/

import G5.Base.Decimal
import G5.Lib.Region

set_option relaxedAutoImplicit false
set_option autoImplicit false

namespace G5

open Region

def kMaxNumericSize : ℕ := 32

/-- Division towards zero, for either sign. -/
theorem tdiv_tmod_ten (x : ℤ) :
    0 ≤ x ∧ x.tdiv 10 = x / 10 ∧ x.tmod 10 = x % 10 ∨
      x < 0 ∧ x.tdiv 10 = -(-x / 10) ∧ x.tmod 10 = -(-x % 10) := by
  rcases lt_or_ge x 0 with hneg | hpos
  · have hdiv : (-x).tdiv 10 = -x / 10 := Int.tdiv_eq_ediv_of_nonneg (by omega)
    have hmod : (-x).tmod 10 = -x % 10 := Int.tmod_eq_emod_of_nonneg (by omega)
    rw [Int.neg_tdiv] at hdiv
    rw [Int.neg_tmod] at hmod
    exact Or.inr ⟨hneg, by omega, by omega⟩
  · exact Or.inl ⟨hpos, Int.tdiv_eq_ediv_of_nonneg hpos, Int.tmod_eq_emod_of_nonneg hpos⟩

/-! ### Integer types -/

/-- The integer types with an `operator<<`. -/
inductive IntegerType
  | short
  | unsignedShort
  | int
  | unsignedInt
  | long
  | unsignedLong
  | longLong
  | unsignedLongLong
  deriving DecidableEq, Repr

namespace IntegerType

def bits : IntegerType → ℕ
  | .short | .unsignedShort => 16
  | .int | .unsignedInt => 32
  | .long | .unsignedLong | .longLong | .unsignedLongLong => 64

def signed : IntegerType → Bool
  | .short | .int | .long | .longLong => true
  | .unsignedShort | .unsignedInt | .unsignedLong | .unsignedLongLong => false

/-- The least value of the type. -/
def min (T : IntegerType) : ℤ := if T.signed then -2 ^ (T.bits - 1) else 0

/-- The greatest value of the type. -/
def max (T : IntegerType) : ℤ := if T.signed then 2 ^ (T.bits - 1) - 1 else 2 ^ T.bits - 1

theorem min_nonpos (T : IntegerType) : T.min ≤ 0 := by
  cases T <;> decide

theorem max_nonneg (T : IntegerType) : 0 ≤ T.max := by
  cases T <;> decide

/-- A value of the type. -/
structure Value (T : IntegerType) where
  val : ℤ
  min_le : T.min ≤ val
  le_max : val ≤ T.max

/-- The type that `convert` is called with: a short number is widened before. -/
def formatted : IntegerType → IntegerType
  | .short => .int
  | .unsignedShort => .unsignedInt
  | T => T

theorem min_formatted_le (T : IntegerType) : T.formatted.min ≤ T.min := by
  cases T <;> decide

theorem max_le_formatted (T : IntegerType) : T.max ≤ T.formatted.max := by
  cases T <;> decide

/-- The value as one of the type that `convert` is called with. -/
def Value.widen {T : IntegerType} (v : T.Value) : T.formatted.Value :=
  ⟨v.val, T.min_formatted_le.trans v.min_le, v.le_max.trans T.max_le_formatted⟩

/-- The remainder `i % 10`, with the sign of the number. -/
def Value.rem {T : IntegerType} (i : T.Value) : ℤ := i.val.tmod 10

/-- The quotient `i / 10`, towards zero.  It never leaves the type. -/
def Value.quot {T : IntegerType} (i : T.Value) : T.Value where
  val := i.val.tdiv 10
  min_le := by
    have hmin := i.min_le
    have hzero := T.min_nonpos
    have hsplit := tdiv_tmod_ten i.val
    omega
  le_max := by
    have hmax := i.le_max
    have hzero := T.max_nonneg
    have hsplit := tdiv_tmod_ten i.val
    omega

end IntegerType

open IntegerType (Value)

/-! ### The function -/

/-- The table, with the null character at its end. -/
def digits : List Byte := ascii "9876543210123456789" ++ [0]

/-- A byte is written to memory. -/
def store (mem : List Byte) (p : ℕ) (c : Byte) : Checked (List Byte) :=
  if p < mem.length then .ok (mem.set p c) else .error .outOfBounds

/-- `std::reverse` of the range from `first` to `last`. -/
def reverseRange (mem : List Byte) (first last : ℕ) : Checked (List Byte) :=
  if last ≤ mem.length then .ok (overwrite mem first (slice mem first last).reverse)
  else .error .outOfBounds

section

variable {T : IntegerType}

/-- The loop: the digits of `i` are written from `p` on, `zero` being the middle of the table. -/
def convertLoop (mem : List Byte) (p : ℕ) (i : T.Value) : Checked (List Byte × ℕ) := do
  let c ← elementAt digits (9 + i.rem)
  let mem ← store mem p c
  if h : i.quot.val ≠ 0 then convertLoop mem (p + 1) i.quot else return (mem, p + 1)
termination_by i.val.natAbs
decreasing_by
  have hquot : i.quot.val = i.val.tdiv 10 := rfl
  have hsplit := tdiv_tmod_ten i.val
  omega

/-- The sign, behind the digits. -/
def storeSign (mem : List Byte) (p : ℕ) (value : T.Value) : Checked (List Byte × ℕ) :=
  if value.val < 0 then do
    let mem ← store mem p 45
    return (mem, p + 1)
  else
    return (mem, p)

/-- The memory, and the length returned; `buf` is counted from the beginning of the memory. -/
def convert (mem : List Byte) (buf : ℕ) (value : T.Value) : Checked (List Byte × ℕ) := do
  let (mem, p) ← convertLoop mem buf value
  let (mem, p) ← storeSign mem p value
  let mem ← store mem p 0
  let mem ← reverseRange mem buf p
  return (mem, p - buf)

/-! ### What it does -/

theorem store_ok {mem : List Byte} {p : ℕ} (h : p < mem.length) (c : Byte) :
    store mem p c = .ok (mem.set p c) := if_pos h

/-- The digit of a remainder, whatever its sign. -/
theorem elementAt_digits (i : T.Value) :
    elementAt digits (9 + i.rem) = .ok (UInt8.ofNat (48 + i.val.natAbs % 10)) := by
  have hrem : i.rem = i.val.tmod 10 := rfl
  have hsplit := tdiv_tmod_ten i.val
  have hlow : -9 ≤ i.rem := by omega
  have hhigh : i.rem ≤ 9 := by omega
  have habs : i.val.natAbs % 10 = i.rem.natAbs := by omega
  rw [habs]
  generalize i.rem = r at hlow hhigh
  interval_cases r <;> decide

theorem natAbs_quot (i : T.Value) : i.quot.val.natAbs = i.val.natAbs / 10 := by
  have hquot : i.quot.val = i.val.tdiv 10 := rfl
  have hsplit := tdiv_tmod_ten i.val
  omega

/-- **The loop writes the digits**, the last one first. -/
theorem convertLoop_eq (i : T.Value) {mem : List Byte} {p : ℕ}
    (hroom : p + (decimal i.val.natAbs).length ≤ mem.length) :
    convertLoop mem p i = .ok (overwrite mem p (decimal i.val.natAbs).reverse,
      p + (decimal i.val.natAbs).length) := by
  -- strong induction on the number that is left: the quotient has one digit less
  induction hn : i.val.natAbs using Nat.strong_induction_on generalizing i mem p with
  | _ n ih =>
      subst hn
      have hdec := decimal_succ i.val.natAbs
      have hquot := natAbs_quot i
      have hp : p < mem.length := by
        rw [hdec, List.length_append, List.length_singleton] at hroom
        omega
      unfold convertLoop
      rw [elementAt_digits, ok_bind, store_ok hp, ok_bind]
      by_cases hlt : i.val.natAbs < 10
      · have hzero : ¬i.quot.val ≠ 0 := by omega
        rw [if_pos hlt, List.nil_append] at hdec
        rw [dif_neg hzero, hdec, List.reverse_singleton, overwrite_cons _ _ hp, overwrite_nil]
        rfl
      · have hne : i.quot.val ≠ 0 := by omega
        rw [if_neg hlt] at hdec
        have hlength := congrArg List.length hdec
        rw [List.length_append, List.length_singleton] at hlength
        have hrest : convertLoop (mem.set p (UInt8.ofNat (48 + i.val.natAbs % 10))) (p + 1)
            i.quot = _ :=
          ih i.quot.val.natAbs (by omega) i.quot (by rw [List.length_set, hquot]; omega) rfl
        rw [dif_pos hne, hrest, hquot, hdec, List.reverse_append, List.reverse_singleton,
          List.singleton_append, overwrite_cons _ _ hp, List.length_append,
          List.length_singleton, Nat.add_assoc, Nat.add_comm 1]

/-- The digits and the sign, as they are written before they are turned round. -/
theorem reverse_decimal (v : ℤ) : (decimal v).reverse =
    (decimal v.natAbs).reverse ++ if v < 0 then [45] else [] := by
  rw [decimal_sign v, List.reverse_append]
  by_cases hneg : v < 0
  · rw [if_pos hneg, if_pos hneg]
    rfl
  · rw [if_neg hneg, if_neg hneg]
    rfl

/-- With the sign, the numeral stands there from its last character to its first. -/
theorem storeSign_eq (v : T.Value) {mem : List Byte} {p : ℕ}
    (hroom : p + (decimal v.val).length ≤ mem.length) :
    storeSign (overwrite mem p (decimal v.val.natAbs).reverse)
      (p + (decimal v.val.natAbs).length) v =
        .ok (overwrite mem p (decimal v.val).reverse, p + (decimal v.val).length) := by
  have hlen := congrArg List.length (reverse_decimal v.val)
  rw [List.length_reverse, List.length_append, List.length_reverse] at hlen
  rw [reverse_decimal v.val, storeSign]
  by_cases hneg : v.val < 0
  · rw [if_pos hneg, List.length_singleton] at hlen
    have hdigits : (decimal v.val.natAbs).reverse.length = (decimal v.val.natAbs).length :=
      List.length_reverse
    have hsize : (overwrite mem p (decimal v.val.natAbs).reverse).length = mem.length :=
      length_overwrite (by omega)
    have hset := set_overwrite mem (decimal v.val.natAbs).reverse (i := p) 45 (by omega)
    rw [hdigits] at hset
    rw [if_pos hneg, if_pos hneg, store_ok (by omega), ok_bind, hset, hlen]
    rfl
  · rw [if_neg hneg, List.length_nil, Nat.add_zero] at hlen
    rw [if_neg hneg, if_neg hneg, List.append_nil, hlen]
    rfl

/-- **The numeral and a null character are written**, and the length is returned. -/
theorem convert_eq (v : T.Value) {mem : List Byte} {buf : ℕ}
    (hroom : buf + (decimal v.val).length + 1 ≤ mem.length) :
    convert mem buf v =
      .ok (overwrite mem buf (decimal v.val ++ [0]), (decimal v.val).length) := by
  have hlen := congrArg List.length (decimal_sign v.val)
  rw [List.length_append] at hlen
  have hloop : convertLoop mem buf v = _ := convertLoop_eq v (by omega)
  have hsign : storeSign (overwrite mem buf (decimal v.val.natAbs).reverse) _ v = _ :=
    storeSign_eq v (by omega)
  have hrevlen : (decimal v.val).reverse.length = (decimal v.val).length := List.length_reverse
  have hset : (overwrite mem buf (decimal v.val).reverse).set _ 0 = _ :=
    set_overwrite mem (decimal v.val).reverse 0 (by omega)
  have hsize : (overwrite mem buf (decimal v.val).reverse).length = mem.length :=
    length_overwrite (by omega)
  have hsize' : (overwrite mem buf ((decimal v.val).reverse ++ [0])).length = mem.length :=
    length_overwrite (by rw [List.length_append, List.length_singleton]; omega)
  have hslice : slice (overwrite mem buf ((decimal v.val).reverse ++ [0])) _ _ = _ :=
    slice_overwrite_append mem (decimal v.val).reverse [0] (by omega)
  have hturn : overwrite (overwrite mem buf ((decimal v.val).reverse ++ [0])) _ _ = _ :=
    overwrite_overwrite mem (decimal v.val).reverse (decimal v.val) [0] (by omega) hrevlen.symm
  rw [hrevlen] at hset hslice
  rw [convert, hloop, ok_bind]
  simp only
  rw [hsign, ok_bind]
  simp only
  rw [store_ok (by omega), ok_bind, hset, reverseRange, if_pos (by omega), ok_bind, hslice,
    List.reverse_reverse, hturn, Nat.add_sub_cancel_left]
  rfl

/-- No value has more than twenty characters. -/
theorem length_decimal_value (v : T.Value) : (decimal v.val).length ≤ 20 := by
  have hmin := v.min_le
  have hmax := v.le_max
  rw [decimal_sign, List.length_append]
  by_cases hneg : v.val < 0
  · have habs : v.val.natAbs < 10 ^ 19 := by
      cases T <;> simp [IntegerType.min, IntegerType.signed, IntegerType.bits] at hmin <;> omega
    have hdigits := length_decimal_le (by decide) habs
    have hone : (ascii "-").length = 1 := rfl
    rw [if_pos hneg, hone]
    omega
  · have habs : v.val.natAbs < 10 ^ 20 := by
      cases T <;> simp [IntegerType.max, IntegerType.signed, IntegerType.bits] at hmax <;> omega
    have hdigits := length_decimal_le (by decide) habs
    rw [if_neg hneg, List.length_nil]
    omega

/-- **Formatting writes the canonical numeral**, for every value of every type: behind `buf` stand
the numeral and a null character, its length is returned, both fit in `kMaxNumericSize`, and
reading the numeral gives back the value. -/
theorem convert_canonical (v : T.Value) {mem : List Byte} {buf : ℕ}
    (hroom : buf + kMaxNumericSize ≤ mem.length) :
    ∃ s, convert mem buf v.widen = .ok (overwrite mem buf (s ++ [0]), s.length) ∧
      IsNumeral s v.val ∧ s.length + 1 ≤ kMaxNumericSize ∧ readInteger s = some v.val := by
  have hlen := length_decimal_value v
  have hmax : kMaxNumericSize = 32 := rfl
  have hval : v.widen.val = v.val := rfl
  have heq : convert mem buf v.widen = _ := convert_eq v.widen (by rw [hval]; omega)
  rw [hval] at heq
  exact ⟨decimal v.val, heq, decimal_isNumeral v.val, by omega, readInteger_decimal v.val⟩

/-- The least `long long`. -/
theorem convert_canonical_demo :
    ∃ s, convert (List.replicate 40 7) 5
        (Value.widen (T := .longLong) ⟨-2 ^ 63, by decide, by decide⟩) =
          .ok (overwrite (List.replicate 40 7) 5 (s ++ [0]), s.length) ∧
      IsNumeral s (-2 ^ 63) ∧ s.length + 1 ≤ kMaxNumericSize ∧
      readInteger s = some (-2 ^ 63) :=
  convert_canonical (T := .longLong) ⟨-2 ^ 63, by decide, by decide⟩ (by decide)

end

end G5
