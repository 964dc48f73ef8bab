/-
**Decimal numerals.**

Main definitions:

* `decimal` — a number as it is written;
* `readDecimal`, `readInteger` — the value of what is written;
* `IsNumeral` — the canonical numeral of a number: a sign if it is negative, and no leading zeros.

Main results:

* `readDecimal_decimal`, `readInteger_decimal` — a number is read as it was written;
* `decimal_isNumeral` — what is written is the canonical numeral.
-/

import G5.Basic
import Mathlib.Tactic.IntervalCases

set_option relaxedAutoImplicit false
set_option autoImplicit false

namespace G5

/-- A number as `%d` and `%zd` write it. -/
def decimal (n : ℤ) : List Byte :=
  (if n < 0 then ascii "-" else []) ++
    (Nat.toDigits 10 n.natAbs).map fun c => c.toNat.toUInt8

def isDigit (c : Byte) : Bool := 48 ≤ c && c ≤ 57

/-- The value of a string of decimal digits. -/
def readDecimal (s : List Byte) : Option ℕ :=
  if s ≠ [] ∧ s.all isDigit then
    some (s.foldl (fun n c => 10 * n + (c.toNat - 48)) 0)
  else none

theorem decimal_natCast (n : ℕ) :
    decimal n = (Nat.toDigits 10 n).map fun c => c.toNat.toUInt8 := by
  have hneg : ¬(n : ℤ) < 0 := by omega
  rw [decimal, if_neg hneg, List.nil_append, Int.natAbs_natCast]

/-- The byte of a digit. -/
theorem toNat_of_isDigit {c : Char} (h : c.isDigit = true) :
    c.toNat.toUInt8.toNat = c.toNat ∧ 48 ≤ c.toNat ∧ c.toNat ≤ 57 := by
  rw [Char.isDigit, Bool.and_eq_true, decide_eq_true_iff, decide_eq_true_iff] at h
  have hlow : 48 ≤ c.toNat := UInt32.le_iff_toNat_le.1 h.1
  have hhigh : c.toNat ≤ 57 := UInt32.le_iff_toNat_le.1 h.2
  refine ⟨?_, hlow, hhigh⟩
  rw [Nat.toUInt8_eq, UInt8.toNat_ofNat']
  exact Nat.mod_eq_of_lt (by omega)

theorem isDigit_of_mem_decimal {n : ℕ} {c : Byte} (h : c ∈ decimal n) : isDigit c = true := by
  rw [decimal_natCast, List.mem_map] at h
  obtain ⟨d, hd, rfl⟩ := h
  obtain ⟨heq, hlow, hhigh⟩ := toNat_of_isDigit
    (Nat.isDigit_of_mem_toDigits (by decide) (Nat.le_refl 10) hd)
  rw [isDigit, Bool.and_eq_true, decide_eq_true_iff, decide_eq_true_iff, UInt8.le_iff_toNat_le,
    UInt8.le_iff_toNat_le, heq]
  exact ⟨hlow, hhigh⟩

theorem length_decimal_le {n k : ℕ} (hk : 0 < k) (h : n < 10 ^ k) : (decimal n).length ≤ k := by
  rw [decimal_natCast, List.length_map]
  exact (Nat.length_toDigits_le_iff (by decide) hk).2 h

/-- **A number is read as it was written.** -/
theorem readDecimal_decimal (n : ℕ) : readDecimal (decimal n) = some n := by
  have hne : decimal n ≠ [] := by
    rw [decimal_natCast]
    intro h
    exact Nat.toDigits_ne_nil (List.map_eq_nil_iff.1 h)
  have hdigits : ∀ c ∈ Nat.toDigits 10 n, c.isDigit = true :=
    fun c hc => Nat.isDigit_of_mem_toDigits (by decide) (Nat.le_refl 10) hc
  -- the bytes of digits have the values of the digits
  have hfold : ∀ (cs : List Char) (k : ℕ), (∀ c ∈ cs, c.isDigit = true) →
      (cs.map fun c => c.toNat.toUInt8).foldl (fun n c => 10 * n + (c.toNat - 48)) k =
        Nat.ofDigitChars 10 cs k := by
    intro cs
    induction cs with
    | nil =>
        intro k _
        exact Nat.ofDigitChars_nil.symm
    | cons c cs ih =>
        intro k hcs
        obtain ⟨heq, -, -⟩ := toNat_of_isDigit (hcs c List.mem_cons_self)
        rw [List.map_cons, List.foldl_cons, Nat.ofDigitChars_cons, heq]
        exact ih _ fun c' hc' => hcs c' (List.mem_cons_of_mem c hc')
  rw [readDecimal, if_pos ⟨hne, List.all_eq_true.2 fun c hc => isDigit_of_mem_decimal hc⟩,
    decimal_natCast, hfold _ 0 hdigits, Nat.ofDigitChars_ten_toDigits]

/-- No separator is a digit. -/
theorem notMem_decimal {n : ℕ} {c : Byte} (h : c < 48) : c ∉ decimal n := by
  intro hc
  have hdigit := isDigit_of_mem_decimal hc
  rw [isDigit, Bool.and_eq_true, decide_eq_true_iff] at hdigit
  exact absurd hdigit.1 (not_le_of_gt h)

/-! ### Canonical numerals -/

/-- The value of a numeral with a sign. -/
def readInteger : List Byte → Option ℤ
  | [] => none
  | c :: s =>
      if c = 45 then (readDecimal s).map fun n : ℕ => -(n : ℤ)
      else (readDecimal (c :: s)).map fun n : ℕ => (n : ℤ)

/-- The digits of the number, behind a sign if it is negative, and without a leading zero unless
the zero is all there is. -/
def IsNumeral (s : List Byte) (v : ℤ) : Prop :=
  ∃ digits, s = (if v < 0 then ascii "-" else []) ++ digits ∧
    readDecimal digits = some v.natAbs ∧ (digits.head? = some 48 → digits = [48])

theorem decimal_sign (v : ℤ) :
    decimal v = (if v < 0 then ascii "-" else []) ++ decimal v.natAbs := by
  rw [decimal_natCast, decimal]

/-- The byte of a digit, by its value. -/
theorem toUInt8_digitChar {d : ℕ} (h : d < 10) :
    (Nat.digitChar d).toNat.toUInt8 = UInt8.ofNat (48 + d) := by
  interval_cases d <;> rfl

/-- The last digit comes off at the end. -/
theorem decimal_succ (n : ℕ) :
    decimal n = (if n < 10 then [] else decimal (n / 10 : ℕ)) ++ [UInt8.ofNat (48 + n % 10)] := by
  rw [decimal_natCast, decimal_natCast, Nat.toDigits_eq_if (by decide)]
  by_cases hn : n < 10
  · rw [if_pos hn, if_pos hn, List.map_singleton, toUInt8_digitChar hn, List.nil_append,
      Nat.mod_eq_of_lt hn]
  · rw [if_neg hn, if_neg hn, List.map_append, List.map_singleton,
      toUInt8_digitChar (Nat.mod_lt n (by decide))]

/-- Only zero begins with a zero. -/
theorem head?_decimal_ne {n : ℕ} (hn : 0 < n) : (decimal n).head? ≠ some 48 := by
  induction n using Nat.strong_induction_on with
  | _ n ih =>
      rw [decimal_succ]
      by_cases hlt : n < 10
      · rw [if_pos hlt, List.nil_append, Nat.mod_eq_of_lt hlt]
        interval_cases n <;> decide
      · have hquot := ih (n / 10) (by omega) (by omega)
        rw [if_neg hlt]
        cases hdigits : decimal (n / 10 : ℕ) with
        | nil =>
            have hread := readDecimal_decimal (n / 10)
            rw [hdigits] at hread
            cases hread
        | cons c s =>
            rw [hdigits] at hquot
            exact hquot

/-- **What is written is the canonical numeral.** -/
theorem decimal_isNumeral (v : ℤ) : IsNumeral (decimal v) v := by
  refine ⟨decimal v.natAbs, decimal_sign v, readDecimal_decimal _, ?_⟩
  intro hhead
  rcases Nat.eq_zero_or_pos v.natAbs with hzero | hpos
  · rw [hzero]
    rfl
  · exact absurd hhead (head?_decimal_ne hpos)

/-- **A number is read as it was written**, with its sign. -/
theorem readInteger_decimal (v : ℤ) : readInteger (decimal v) = some v := by
  have hread := readDecimal_decimal v.natAbs
  rw [decimal_sign]
  by_cases hneg : v < 0
  · have hcons : ascii "-" ++ decimal v.natAbs = 45 :: decimal v.natAbs := rfl
    rw [if_pos hneg, hcons, readInteger, if_pos rfl, hread, Option.map_some]
    congr 1
    omega
  · rw [if_neg hneg, List.nil_append]
    cases hdigits : decimal v.natAbs with
    | nil =>
        rw [hdigits] at hread
        cases hread
    | cons c s =>
        have hmem : c ∈ decimal v.natAbs := by
          rw [hdigits]
          exact List.mem_cons_self
        have hdigit := isDigit_of_mem_decimal hmem
        have hc : c ≠ 45 := by
          rintro rfl
          cases hdigit
        rw [hdigits] at hread
        rw [readInteger, if_neg hc, hread, Option.map_some]
        congr 1
        omega

end G5
