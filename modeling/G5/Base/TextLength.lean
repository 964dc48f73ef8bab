/-
**Texts of any length** (`FixedBuffer<SIZE>::append` of `src/base/LogStream.h`).

`append` takes its length as a `size_t`.  It compares the length as an `int` with the characters
that are left, and copies as many as the `size_t` says.  A length from 2³¹ on is another number as
an `int`, or a negative one, and passes the comparison where it should not.

Main definitions:

* `LogBuffer.appendIn` — `append`, in an array of any size;
* `LogBuffer.Copied` — the text is in the array, and the cursor before its end;
* `LogBuffer.AppendSafe`, `LogBuffer.InsertSafe` — the text is copied, or nothing changes;
* `LogBuffer.LengthFits` — the condition on the length.

Main results:

* `LogBuffer.appendSafe_iff` — **the exact condition**;
* `LogBuffer.textSafe_exact` — the same for every insertion of a string.
-/

import G5.Base.LogStream

set_option relaxedAutoImplicit false
set_option autoImplicit false

namespace G5

open Region

namespace LogBuffer

/-! ### Arrays of any size -/

def availIn (SIZE : ℕ) (b : LogBuffer) : ℤ := toInt32 (SIZE - b.cur)

/-- `memcpy(cur_, buf, len)`, where `buf` points to the given characters. -/
def copyIn (b : LogBuffer) (buf : List Byte) (len : ℕ) : Checked (List Byte) :=
  if len ≤ buf.length ∧ b.cur + len ≤ b.data.length then
    .ok (overwrite b.data b.cur (buf.take len))
  else
    .error .outOfBounds

def appendIn (SIZE : ℕ) (b : LogBuffer) (buf : List Byte) (len : ℕ) : Checked LogBuffer :=
  if toInt32 len < b.availIn SIZE then do
    let data ← b.copyIn buf len
    return { b with data := data }.add len
  else
    return b

/-- The buffer of a log stream is one of four thousand characters. -/
theorem append_eq_appendIn (b : LogBuffer) (buf : List Byte) :
    b.append buf = b.appendIn kSmallBuffer buf buf.length := by
  have hwrite : b.write buf = b.copyIn buf buf.length := by
    rw [write, copyIn, List.take_length]
    exact if_congr (and_iff_right (le_refl _)).symm rfl rfl
  rw [append, hwrite]
  rfl

/-! ### What is promised, and when it is kept -/

/-- The array has its size, and the cursor is in it or at its end: any fill level. -/
structure Filled (SIZE : ℕ) (b : LogBuffer) : Prop where
  size_eq : b.data.length = SIZE
  cur_le : b.cur ≤ SIZE

/-- Exactly `len` characters are copied, and the cursor stays before the end. -/
structure Copied (SIZE : ℕ) (b : LogBuffer) (buf : List Byte) (len : ℕ) (b' : LogBuffer) :
    Prop where
  data_eq : b'.data = overwrite b.data b.cur (buf.take len)
  cur_eq : b'.cur = b.cur + len
  cur_lt : b'.cur < SIZE

/-- The text is copied, or nothing changes. -/
def AppendSafe (SIZE : ℕ) (b : LogBuffer) (buf : List Byte) (len : ℕ) : Prop :=
  ∃ b', b.appendIn SIZE buf len = .ok b' ∧ (Copied SIZE b buf len b' ∨ b' = b)

def InsertSafe (b : LogBuffer) (p : Piece) : Prop :=
  ∃ b', b.insert p = .ok b' ∧ (Copied kSmallBuffer b p.text p.text.length b' ∨ b' = b)

/-- The length is an `int`, or as an `int` it is not less than what is left. -/
def LengthFits (avail len : ℤ) : Prop := len < 2 ^ 31 ∨ avail ≤ toInt32 len

instance (avail len : ℤ) : Decidable (LengthFits avail len) := inferInstanceAs (Decidable (_ ∨ _))

section

variable {SIZE len : ℕ} {b : LogBuffer} {buf : List Byte}

theorem Filled.availIn_eq (h : Filled SIZE b) (hSIZE : SIZE < 2 ^ 31) :
    b.availIn SIZE = SIZE - b.cur := by
  have hcur := h.cur_le
  exact toInt32_eq (by omega) (by omega)

/-- What there is room for is copied. -/
theorem appendSafe_of_lt (h : Filled SIZE b) (hSIZE : SIZE < 2 ^ 31) (hbuf : len ≤ buf.length)
    (hlen : len < 2 ^ 31) : AppendSafe SIZE b buf len := by
  have hsize := h.size_eq
  have hint : toInt32 len = len := toInt32_eq (by omega) (by omega)
  rw [AppendSafe, appendIn, h.availIn_eq hSIZE, hint]
  by_cases hroom : b.cur + len < SIZE
  · have hcopy : b.copyIn buf len = .ok (overwrite b.data b.cur (buf.take len)) :=
      if_pos ⟨hbuf, by omega⟩
    rw [if_pos (by omega), hcopy, ok_bind]
    exact ⟨_, rfl, Or.inl ⟨rfl, rfl, hroom⟩⟩
  · rw [if_neg (by omega)]
    exact ⟨b, rfl, Or.inr rfl⟩

/-- What is not an `int` and passes the comparison is copied beyond the array. -/
theorem appendIn_of_not_fits (h : Filled SIZE b) (hSIZE : SIZE < 2 ^ 31)
    (hfits : ¬LengthFits (SIZE - b.cur) len) : b.appendIn SIZE buf len = .error .outOfBounds := by
  rw [LengthFits, not_or, not_lt, not_le] at hfits
  obtain ⟨hlen, hpass⟩ := hfits
  have hsize := h.size_eq
  have hcopy : b.copyIn buf len = .error .outOfBounds := by
    refine if_neg fun hroom => ?_
    have hend := hroom.2
    omega
  rw [appendIn, h.availIn_eq hSIZE, if_pos hpass, hcopy]
  rfl

/-- **The exact condition**: a text is copied whole, with the cursor before the end of the array, or
nothing changes, exactly if its length is less than 2³¹, or is refused by the comparison. -/
theorem appendSafe_iff (h : Filled SIZE b) (hSIZE : SIZE < 2 ^ 31) (hbuf : len ≤ buf.length) :
    AppendSafe SIZE b buf len ↔ LengthFits (SIZE - b.cur) len := by
  constructor
  · intro hsafe
    by_contra hfits
    obtain ⟨b', hb', -⟩ := hsafe
    rw [appendIn_of_not_fits h hSIZE hfits] at hb'
    cases hb'
  · rintro (hlen | hrefused)
    · exact appendSafe_of_lt h hSIZE hbuf (by omega)
    · refine ⟨b, ?_, Or.inr rfl⟩
      rw [appendIn, h.availIn_eq hSIZE, if_neg (not_lt.2 hrefused)]
      rfl

/-! ### The insertions -/

/-- The insertion of a text is one call of `append`. -/
theorem insertSafe_iff_appendSafe {p : Piece} (hinsert : b.insert p = b.append p.text) :
    InsertSafe b p ↔ AppendSafe kSmallBuffer b p.text p.text.length := by
  rw [InsertSafe, AppendSafe, hinsert, append_eq_appendIn]

theorem insertSafe_iff {p : Piece} (h : Filled kSmallBuffer b)
    (hinsert : b.insert p = b.append p.text) :
    InsertSafe b p ↔ LengthFits (kSmallBuffer - b.cur) p.text.length :=
  (insertSafe_iff_appendSafe hinsert).trans (appendSafe_iff h (by decide) (le_refl _))

end

/-- **Texts of any length.**  For every size of the array below 2³¹, every fill level and every
length, `append` copies exactly `len` characters and leaves the cursor before the end, or changes
nothing, if and only if the length is less than 2³¹ or, as an `int`, not less than what is left; and
the insertion of a string or a C string into a log stream does so if and only if the same is true of
its length. -/
theorem textSafe_exact {SIZE : ℕ} (hSIZE : SIZE < 2 ^ 31) :
    (∀ (b : LogBuffer) (buf : List Byte) (len : ℕ), Filled SIZE b → len < 2 ^ 64 →
      len ≤ buf.length → (AppendSafe SIZE b buf len ↔ LengthFits (SIZE - b.cur) len)) ∧
    ∀ b : LogBuffer, Filled kSmallBuffer b →
      (∀ v : List Byte, InsertSafe b (.string v) ↔ LengthFits (kSmallBuffer - b.cur) v.length) ∧
      (∀ str : List Byte, InsertSafe b (.cString (some str)) ↔
        LengthFits (kSmallBuffer - b.cur) (str.takeWhile (· ≠ 0)).length) ∧
      InsertSafe b (.cString none) := by
  refine ⟨fun b buf len h _ hbuf => appendSafe_iff h hSIZE hbuf, fun b h => ⟨?_, ?_, ?_⟩⟩
  · intro v
    exact insertSafe_iff h rfl
  · intro str
    exact insertSafe_iff h rfl
  · exact (insertSafe_iff h rfl).2 (Or.inl (by decide))

/-- An array of ten characters with three in it, and the empty stream. -/
theorem textSafe_exact_demo :
    (AppendSafe 10 ⟨List.replicate 10 0, 3⟩ [97, 98] 2 ↔ LengthFits (10 - 3) 2) ∧
      ∀ v : List Byte, InsertSafe (new (List.replicate kSmallBuffer 0)) (.string v) ↔
        LengthFits (kSmallBuffer - 0) v.length := by
  have h := textSafe_exact (show 10 < 2 ^ 31 by decide)
  exact ⟨h.1 ⟨List.replicate 10 0, 3⟩ [97, 98] 2 ⟨rfl, by decide⟩ (by decide) (by decide),
    (h.2 (new (List.replicate kSmallBuffer 0)) ⟨List.length_replicate, Nat.zero_le _⟩).1⟩

/-- A string of 2³² characters has the length zero as an `int`, and one of 2³¹ characters a negative
one: both are copied into an array of four thousand. -/
theorem exists_text_overrun :
    ∃ b : LogBuffer, Filled kSmallBuffer b ∧
      (∃ v : List Byte, v.length = 2 ^ 32 ∧ b.insert (.string v) = .error .outOfBounds ∧
        ¬InsertSafe b (.string v)) ∧
      ∃ v : List Byte, v.length = 2 ^ 31 ∧ b.insert (.string v) = .error .outOfBounds ∧
        ¬InsertSafe b (.string v) := by
  have h : Filled kSmallBuffer (new (List.replicate kSmallBuffer 0)) :=
    ⟨List.length_replicate, Nat.zero_le _⟩
  have hoverrun : ∀ n : ℕ, ¬LengthFits kSmallBuffer n →
      ∃ v : List Byte, v.length = n ∧
        (new (List.replicate kSmallBuffer 0)).insert (.string v) = .error .outOfBounds ∧
        ¬InsertSafe (new (List.replicate kSmallBuffer 0)) (.string v) := by
    intro n hfits
    have hlength : (List.replicate n (0 : Byte)).length = n := List.length_replicate
    have herror : (new (List.replicate kSmallBuffer 0)).insert (.string (List.replicate n 0)) =
        .error .outOfBounds := by
      rw [insert, append_eq_appendIn]
      refine appendIn_of_not_fits h (by decide) ?_
      rw [hlength]
      exact hfits
    refine ⟨List.replicate n 0, hlength, herror, ?_⟩
    rintro ⟨b', hb', -⟩
    rw [herror] at hb'
    cases hb'
  exact ⟨_, h, hoverrun (2 ^ 32) (by decide), hoverrun (2 ^ 31) (by decide)⟩

end LogBuffer

end G5
