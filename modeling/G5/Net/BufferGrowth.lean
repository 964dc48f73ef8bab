/-
**Growing a buffer, with sizes of 64 bits** (`src/net/Buffer.h`).

The sums of `ensureWritableBytes`, `makeSpace` and `shrink` are taken modulo 2⁶⁴, as `size_t` takes
them, and `resize` throws above the greatest size of a vector, without effect.  A sum that wraps
takes the wrong branch, or cuts the vector below `writerIndex_`, or reserves too little.

Main definitions:

* `Wrapping.Outcome` — how a call ends, and the buffer then;
* `Wrapping.new`, `Wrapping.makeSpace`, `Wrapping.ensureWritableBytes`, `Wrapping.append`,
  `Wrapping.shrink` — the functions of the source, with wrapping sums;
* `Wrapping.Grows` — a call throws and changes nothing, or there is room and nothing is lost;
* `Wrapping.Suffices`, `Wrapping.ShrinkFits` — the conditions under which this is so.

Main results:

* `Wrapping.ensureWritableBytes_spec` — where the sums fit, the function is the one without
  wrapping, but for the exception;
* `Wrapping.ensureSafe_iff`, `Wrapping.shrinkSafe_iff` — **the exact conditions**.
-/

import G5.Net.Buffer

set_option relaxedAutoImplicit false
set_option autoImplicit false

namespace G5

open Region

namespace Wrapping

/-! ### The functions -/

/-- Addition of `size_t`. -/
def sizeAdd (x y : ℕ) : ℕ := (x + y) % 2 ^ 64

/-- How a call ends. -/
inductive Outcome
  | returned (b : Buffer)
  /-- with `std::length_error`, and the buffer as the exception leaves it -/
  | thrown (b : Buffer)
  | failed (e : Fault)
  deriving DecidableEq, Repr

/-- The call goes on, unless it has thrown or failed. -/
def Outcome.andThen : Outcome → (Buffer → Outcome) → Outcome
  | .returned b, f => f b
  | .thrown b, _ => .thrown b
  | .failed e, _ => .failed e

/-- What was called on another buffer: its exception leaves this one as it is. -/
def Outcome.onOther : Outcome → Buffer → (Buffer → Outcome) → Outcome
  | .returned other, _, f => f other
  | .thrown _, b, _ => .thrown b
  | .failed e, _, _ => .failed e

def Outcome.ofChecked : Checked Buffer → Outcome
  | .ok b => .returned b
  | .error e => .failed e

def readableBytes (b : Buffer) : ℕ := Buffer.sizeSub b.writerIndex b.readerIndex

def writableBytes (b : Buffer) : ℕ := Buffer.sizeSub b.buffer.length b.writerIndex

/-- The constructor; no buffer if the vector throws. -/
def new (maxSize initialSize : ℕ) : Checked (Option Buffer) :=
  let size := sizeAdd kCheapPrepend initialSize
  if maxSize < size then
    .ok none
  else do
    let b : Buffer := ⟨List.replicate size 0, kCheapPrepend, kCheapPrepend⟩
    assertThat (readableBytes b = 0)
    assertThat (writableBytes b = initialSize)
    assertThat (b.prependableBytes = kCheapPrepend)
    return some b

/-- `buffer_.resize(n)`. -/
def resizeTo (maxSize : ℕ) (b : Buffer) (n : ℕ) : Outcome :=
  if maxSize < n then .thrown b else .returned { b with buffer := resize b.buffer n 0 }

def makeSpace (maxSize : ℕ) (b : Buffer) (len : ℕ) : Outcome :=
  if sizeAdd b.prependableBytes (writableBytes b) < sizeAdd len kCheapPrepend then
    resizeTo maxSize b (sizeAdd b.writerIndex len)
  else if kCheapPrepend < b.readerIndex then
    let readable := readableBytes b
    let b : Buffer :=
      { buffer := copyForward b.buffer b.readerIndex kCheapPrepend
          (Buffer.sizeSub b.writerIndex b.readerIndex)
        readerIndex := kCheapPrepend
        writerIndex := sizeAdd kCheapPrepend readable }
    if len ≤ writableBytes b then .returned b else .failed .assertion
  else
    .failed .assertion

def ensureWritableBytes (maxSize : ℕ) (b : Buffer) (len : ℕ) : Outcome :=
  (if writableBytes b < len then makeSpace maxSize b len else .returned b).andThen fun b =>
    if len ≤ writableBytes b then .returned b else .failed .assertion

def hasWritten (b : Buffer) (len : ℕ) : Outcome :=
  if len ≤ writableBytes b then .returned { b with writerIndex := sizeAdd b.writerIndex len }
  else .failed .assertion

/-- The bytes are copied to `beginWrite()`, which must have room for them. -/
def append (maxSize : ℕ) (b : Buffer) (data : List Byte) : Outcome :=
  (ensureWritableBytes maxSize b data.length).andThen fun b =>
    if b.writerIndex + data.length ≤ b.buffer.length then
      hasWritten (b.store b.beginWrite data) data.length
    else
      .failed .outOfBounds

/-- The bytes are retrieved before they are appended to the other buffer. -/
def shrink (maxSize : ℕ) (b : Buffer) (reserve : ℕ) : Outcome :=
  match new maxSize kInitialSize with
  | .error e => .failed e
  | .ok none => .thrown b
  | .ok (some other) =>
      (ensureWritableBytes maxSize other (sizeAdd (readableBytes b) reserve)).onOther b fun other =>
        match b.retrieveAsString (readableBytes b) with
        | .error e => .failed e
        | .ok (data, b) =>
            (append maxSize other data).onOther b fun other => .returned (b.swap other).1

/-! ### What is promised, and when it is kept -/

/-- The call throws and leaves the buffer unchanged, or the readable bytes are the same and there is
room for `len` more. -/
def Grows (b : Buffer) (len : ℕ) (o : Outcome) : Prop :=
  o = .thrown b ∨
    ∃ b', o = .returned b' ∧ b'.readable = b.readable ∧ b'.writerIndex + len ≤ b'.buffer.length

def EnsureSafe (maxSize : ℕ) (b : Buffer) (len : ℕ) : Prop :=
  Grows b len (ensureWritableBytes maxSize b len)

def ShrinkSafe (maxSize : ℕ) (b : Buffer) (reserve : ℕ) : Prop :=
  Grows b reserve (shrink maxSize b reserve)

/-- The size that is asked for fits in 64 bits, or the data can be slid down. -/
def Suffices (b : Buffer) (len : ℕ) : Prop :=
  b.writerIndex + len < 2 ^ 64 ∨ len + kCheapPrepend ≤ b.prependableBytes + b.writableBytes

instance (b : Buffer) (len : ℕ) : Decidable (Suffices b len) := inferInstanceAs (Decidable (_ ∨ _))

/-- The sum has not wrapped, unless the vector throws all the same, and with the header it fits. -/
def ShrinkFits (maxSize : ℕ) (b : Buffer) (reserve : ℕ) : Prop :=
  kCheapPrepend + sizeAdd b.readableBytes reserve < 2 ^ 64 ∧
    (b.readableBytes + reserve < 2 ^ 64 ∨
      maxSize < kCheapPrepend + sizeAdd b.readableBytes reserve)

instance (maxSize : ℕ) (b : Buffer) (reserve : ℕ) : Decidable (ShrinkFits maxSize b reserve) :=
  inferInstanceAs (Decidable (_ ∧ _))

/-- The greatest size of a vector: a new buffer is smaller, and it is a `size_t`. -/
structure VectorLimit (maxSize : ℕ) : Prop where
  holds_new : kCheapPrepend + kInitialSize ≤ maxSize
  lt : maxSize < 2 ^ 64

/-- The indices are in order, the header is in front of them, and the vector is one. -/
structure WellFormed (maxSize : ℕ) (b : Buffer) : Prop where
  reader_le : b.readerIndex ≤ b.writerIndex
  writer_le : b.writerIndex ≤ b.buffer.length
  header_le : kCheapPrepend ≤ b.writerIndex
  length_le : b.buffer.length ≤ maxSize

section

variable {maxSize : ℕ} {b : Buffer} {len reserve : ℕ}

theorem Outcome.andThen_eq_returned {o : Outcome} {f : Buffer → Outcome} {b' : Buffer} :
    o.andThen f = .returned b' ↔ ∃ b₁, o = .returned b₁ ∧ f b₁ = .returned b' := by
  cases o <;> simp [andThen]

/-- A call on another buffer, the last one: it has returned, or its exception has left this one. -/
theorem Outcome.onOther_eq_returned {o : Outcome} {b b' : Buffer} :
    o.onOther b .returned = .returned b' ↔ o = .returned b' := by
  cases o <;> simp [onOther]

theorem Outcome.eq_of_onOther_eq_thrown {o : Outcome} {b b' : Buffer}
    (h : o.onOther b .returned = .thrown b') : b = b' := by
  cases o with
  | returned b₁ => cases h
  | thrown b₁ =>
      cases h
      rfl
  | failed e => cases h

theorem sizeAdd_eq {x y : ℕ} (h : x + y < 2 ^ 64) : sizeAdd x y = x + y := Nat.mod_eq_of_lt h

/-- A sum that wraps is less than either part. -/
theorem sizeAdd_of_le {x y : ℕ} (h : 2 ^ 64 ≤ x + y) (hx : x < 2 ^ 64) (hy : y < 2 ^ 64) :
    sizeAdd x y + 2 ^ 64 = x + y := by
  unfold sizeAdd
  omega

theorem WellFormed.represents (h : WellFormed maxSize b) : b.Represents b.readable where
  reader_le := h.reader_le
  writer_le := h.writer_le
  header_le := le_trans h.header_le h.writer_le
  readable_eq := rfl

theorem WellFormed.readableBytes_eq (h : WellFormed maxSize b) :
    readableBytes b = b.readableBytes := if_pos h.reader_le

theorem WellFormed.writableBytes_eq (h : WellFormed maxSize b) :
    writableBytes b = b.writableBytes := if_pos h.writer_le

theorem VectorLimit.length_lt (hmax : VectorLimit maxSize) (h : WellFormed maxSize b) :
    b.buffer.length < 2 ^ 64 := lt_of_le_of_lt h.length_le hmax.lt

/-- The free bytes, before and behind, are part of the vector. -/
theorem WellFormed.free_le (h : WellFormed maxSize b) :
    b.prependableBytes + b.writableBytes ≤ b.buffer.length := by
  have hr := h.reader_le
  have hw := h.writer_le
  rw [Buffer.prependableBytes, Buffer.writableBytes]
  omega

theorem VectorLimit.sum_free (hmax : VectorLimit maxSize) (h : WellFormed maxSize b) :
    sizeAdd b.prependableBytes (writableBytes b) = b.prependableBytes + b.writableBytes := by
  rw [h.writableBytes_eq]
  exact sizeAdd_eq (lt_of_le_of_lt h.free_le (hmax.length_lt h))

/-! ### The growing functions, where the sums fit -/

/-- The buffer after the data has been slid down. -/
def slid (b : Buffer) : Buffer where
  buffer := copyForward b.buffer b.readerIndex kCheapPrepend (b.writerIndex - b.readerIndex)
  readerIndex := kCheapPrepend
  writerIndex := kCheapPrepend + b.readableBytes

theorem slid_length (b : Buffer) : (slid b).buffer.length = b.buffer.length :=
  length_copyForward b.buffer b.readerIndex kCheapPrepend _

theorem slid_writerIndex (b : Buffer) :
    (slid b).writerIndex = kCheapPrepend + (b.writerIndex - b.readerIndex) := rfl

theorem WellFormed.slid (h : WellFormed maxSize b) (hfree : kCheapPrepend < b.readerIndex) :
    WellFormed maxSize (slid b) := by
  have hr := h.reader_le
  have hw := h.writer_le
  refine ⟨Nat.le_add_right _ _, ?_, Nat.le_add_right _ _, ?_⟩
  · rw [slid_length, slid_writerIndex]
    omega
  · rw [slid_length]
    exact h.length_le

/-- The branch that slides the data down, whether the sum with the header has wrapped or not. -/
theorem makeSpace_of_slide (hmax : VectorLimit maxSize) (h : WellFormed maxSize b)
    (hslide : sizeAdd len kCheapPrepend ≤ b.prependableBytes + b.writableBytes)
    (hreader : kCheapPrepend < b.readerIndex) :
    makeSpace maxSize b len =
      if len ≤ (slid b).writableBytes then .returned (slid b) else .failed .assertion := by
  have hr := h.reader_le
  have hw := h.writer_le
  have hlength := hmax.length_lt h
  have hwriter : sizeAdd kCheapPrepend b.readableBytes = kCheapPrepend + b.readableBytes := by
    rw [Buffer.readableBytes]
    exact sizeAdd_eq (by omega)
  have hsub : Buffer.sizeSub b.writerIndex b.readerIndex = b.writerIndex - b.readerIndex :=
    if_pos hr
  rw [makeSpace, hmax.sum_free h, if_neg (Nat.not_lt.2 hslide), if_pos hreader]
  simp only [h.readableBytes_eq, hwriter, hsub]
  rw [← slid, (h.slid hreader).writableBytes_eq]

/-- Sliding the data down, whether it is in the function with wrapping sums or in the other. -/
theorem makeSpace_slide (hmax : VectorLimit maxSize) (h : WellFormed maxSize b)
    (hslide : len + kCheapPrepend ≤ b.prependableBytes + b.writableBytes)
    (hlt : b.writableBytes < len) :
    makeSpace maxSize b len = .returned (slid b) ∧ b.makeSpace len = .ok (slid b) := by
  have hr := h.reader_le
  have hw := h.writer_le
  have hlength := hmax.length_lt h
  have hfree := h.free_le
  have hreader : kCheapPrepend < b.readerIndex := by
    rw [Buffer.prependableBytes] at hslide
    omega
  have hroom : len ≤ (slid b).writableBytes := by
    rw [Buffer.prependableBytes, Buffer.writableBytes] at hslide
    rw [Buffer.writableBytes, slid_length, slid_writerIndex]
    omega
  have hsum : sizeAdd len kCheapPrepend = len + kCheapPrepend := sizeAdd_eq (by omega)
  constructor
  · rw [makeSpace_of_slide hmax h (hsum.trans_le hslide) hreader, if_pos hroom]
  · rw [Buffer.makeSpace, if_neg (by omega), assertThat_pos hreader, ok_bind]
    simp only []
    rw [← slid, assertThat_pos hroom]
    rfl

/-- Resizing the vector, in the same way. -/
theorem makeSpace_resize (hmax : VectorLimit maxSize) (h : WellFormed maxSize b)
    (hgrow : b.prependableBytes + b.writableBytes < len + kCheapPrepend)
    (hsum : b.writerIndex + len < 2 ^ 64) :
    makeSpace maxSize b len = resizeTo maxSize b (b.writerIndex + len) ∧
      b.makeSpace len = .ok { b with buffer := resize b.buffer (b.writerIndex + len) 0 } := by
  have hheader := h.header_le
  have hlen : sizeAdd len kCheapPrepend = len + kCheapPrepend := sizeAdd_eq (by omega)
  constructor
  · rw [makeSpace, hmax.sum_free h, hlen, if_pos hgrow, sizeAdd_eq hsum]
  · rw [Buffer.makeSpace, if_pos hgrow]

theorem ensureWritableBytes_of_makeSpace {b' : Buffer} (h : WellFormed maxSize b)
    (h' : WellFormed maxSize b') (hlt : b.writableBytes < len)
    (hmake : makeSpace maxSize b len = .returned b') (hroom : len ≤ b'.writableBytes) :
    ensureWritableBytes maxSize b len = .returned b' := by
  rw [ensureWritableBytes, h.writableBytes_eq, if_pos hlt, hmake, Outcome.andThen,
    h'.writableBytes_eq, if_pos hroom]

/-- Where there is room, nothing is done. -/
theorem ensureWritableBytes_of_room (h : WellFormed maxSize b) (hroom : len ≤ b.writableBytes) :
    ensureWritableBytes maxSize b len = .returned b := by
  rw [ensureWritableBytes, h.writableBytes_eq, if_neg (Nat.not_lt.2 hroom), Outcome.andThen,
    h.writableBytes_eq, if_pos hroom]

/-- **Where the sums fit**, the function is the one without wrapping, but for the exception, which
leaves the buffer unchanged. -/
theorem ensureWritableBytes_spec (hmax : VectorLimit maxSize) (h : WellFormed maxSize b)
    (hfit : Suffices b len) :
    (maxSize < b.writerIndex + len ∧ ensureWritableBytes maxSize b len = .thrown b) ∨
      ∃ b', ensureWritableBytes maxSize b len = .returned b' ∧
        b.ensureWritableBytes len = .ok b' ∧ WellFormed maxSize b' ∧ b'.Represents b.readable ∧
        len ≤ b'.writableBytes := by
  obtain ⟨b', hb', hrep, hroom, -⟩ := Buffer.ensureWritableBytes_spec h.represents len
  by_cases hlt : b.writableBytes < len
  · have hunfold : b.makeSpace len = .ok b' := by
      rw [Buffer.ensureWritableBytes, if_pos hlt] at hb'
      obtain ⟨b₁, hb₁, hrest⟩ := bind_eq_ok.1 hb'
      obtain ⟨-, -, heq⟩ := bind_eq_ok.1 hrest
      cases heq
      exact hb₁
    by_cases hgrow : b.prependableBytes + b.writableBytes < len + kCheapPrepend
    · have hsum := hfit.resolve_right (Nat.not_le.2 hgrow)
      obtain ⟨hwrap, hplain⟩ := makeSpace_resize hmax h hgrow hsum
      obtain rfl : _ = b' := Except.ok.inj (hplain.symm.trans hunfold)
      by_cases hthrow : maxSize < b.writerIndex + len
      · refine Or.inl ⟨hthrow, ?_⟩
        rw [ensureWritableBytes, h.writableBytes_eq, if_pos hlt, hwrap, resizeTo, if_pos hthrow]
        rfl
      · have h' : WellFormed maxSize { b with buffer := resize b.buffer (b.writerIndex + len) 0 } :=
          ⟨h.reader_le, by simp, h.header_le, by simpa using Nat.le_of_not_lt hthrow⟩
        rw [resizeTo, if_neg hthrow] at hwrap
        have hensure := ensureWritableBytes_of_makeSpace h h' hlt hwrap hroom
        exact Or.inr ⟨_, hensure, hb', h', hrep, hroom⟩
    · obtain ⟨hwrap, hplain⟩ := makeSpace_slide hmax h (Nat.le_of_not_lt hgrow) hlt
      obtain rfl : _ = b' := Except.ok.inj (hplain.symm.trans hunfold)
      have h' : WellFormed maxSize (slid b) := h.slid (by
        have hfree := h.writer_le
        unfold Buffer.prependableBytes at hgrow
        omega)
      exact Or.inr ⟨_, ensureWritableBytes_of_makeSpace h h' hlt hwrap hroom, hb', h', hrep, hroom⟩
  · have hsame : b.ensureWritableBytes len = .ok b := by
      simp only [Buffer.ensureWritableBytes, if_neg hlt, pure_eq_ok, ok_bind,
        assertThat_pos (Nat.le_of_not_lt hlt)]
    obtain rfl : b = b' := Except.ok.inj (hsame.symm.trans hb')
    exact Or.inr ⟨b, ensureWritableBytes_of_room h hroom, hb', h, hrep, hroom⟩

/-! ### The growing functions, where a sum wraps -/

/-- If `len` and the header wrap, the data is to be slid down, where there is no room. -/
theorem makeSpace_of_header_wraps (hmax : VectorLimit maxSize) (h : WellFormed maxSize b)
    (hheader : 2 ^ 64 ≤ len + kCheapPrepend)
    (hslide : sizeAdd len kCheapPrepend ≤ b.prependableBytes + b.writableBytes) :
    makeSpace maxSize b len = .failed .assertion := by
  have hr := h.reader_le
  have hw := h.writer_le
  have hlength := hmax.length_lt h
  by_cases hreader : kCheapPrepend < b.readerIndex
  · have hnot : ¬len ≤ (slid b).writableBytes := by
      rw [Buffer.writableBytes, slid_length, slid_writerIndex]
      omega
    rw [makeSpace_of_slide hmax h hslide hreader, if_neg hnot]
  · rw [makeSpace, hmax.sum_free h, if_neg (Nat.not_lt.2 hslide), if_neg hreader]

/-- Otherwise the vector is cut below `writerIndex_`, and the call returns. -/
theorem ensureWritableBytes_of_cut (hmax : VectorLimit maxSize) (h : WellFormed maxSize b)
    (hlen : len < 2 ^ 64) (hsum : 2 ^ 64 ≤ b.writerIndex + len)
    (hgrow : b.prependableBytes + b.writableBytes < sizeAdd len kCheapPrepend) :
    ∃ b', ensureWritableBytes maxSize b len = .returned b' ∧ b'.buffer.length < b'.writerIndex := by
  have hw := h.writer_le
  have hlength := hmax.length_lt h
  have hcut := sizeAdd_of_le hsum (by omega) hlen
  have hlt : b.writableBytes < len := by
    rw [Buffer.writableBytes]
    omega
  have hlimit : ¬maxSize < sizeAdd b.writerIndex len := by
    have hmaxSize := h.length_le
    omega
  have hbelow : sizeAdd b.writerIndex len < b.writerIndex := by omega
  refine ⟨{ b with buffer := resize b.buffer (sizeAdd b.writerIndex len) 0 }, ?_, ?_⟩
  · -- the closing assertion subtracts, and wraps back to `len`
    have hroom : len ≤ writableBytes
        { b with buffer := resize b.buffer (sizeAdd b.writerIndex len) 0 } := by
      simp only [writableBytes, length_resize]
      rw [Buffer.sizeSub, if_neg (Nat.not_le.2 hbelow)]
      omega
    rw [ensureWritableBytes, h.writableBytes_eq, if_pos hlt, makeSpace, hmax.sum_free h,
      if_pos hgrow, resizeTo, if_neg hlimit, Outcome.andThen, if_pos hroom]
  · simpa using hbelow

/-- **What goes wrong**: an assertion fails, or the call returns with the vector cut below
`writerIndex_`. -/
theorem ensureWritableBytes_of_not_suffices (hmax : VectorLimit maxSize)
    (h : WellFormed maxSize b) (hlen : len < 2 ^ 64) (hfit : ¬Suffices b len) :
    ensureWritableBytes maxSize b len = .failed .assertion ∨
      ∃ b', ensureWritableBytes maxSize b len = .returned b' ∧
        b'.buffer.length < b'.writerIndex := by
  have hw := h.writer_le
  have hlength := hmax.length_lt h
  rw [Suffices, not_or, Nat.not_lt, Nat.not_le] at hfit
  obtain ⟨hsum, hslide⟩ := hfit
  by_cases hgrow : b.prependableBytes + b.writableBytes < sizeAdd len kCheapPrepend
  · exact Or.inr (ensureWritableBytes_of_cut hmax h hlen hsum hgrow)
  · have hheader : 2 ^ 64 ≤ len + kCheapPrepend := by
      by_contra hsmall
      rw [sizeAdd_eq (Nat.not_le.1 hsmall)] at hgrow
      exact hgrow hslide
    have hlt : b.writableBytes < len := by
      rw [Buffer.writableBytes]
      omega
    refine Or.inl ?_
    rw [ensureWritableBytes, h.writableBytes_eq, if_pos hlt,
      makeSpace_of_header_wraps hmax h hheader (Nat.le_of_not_lt hgrow)]
    rfl

/-- **The exact condition** for `ensureWritableBytes`. -/
theorem ensureSafe_iff (hmax : VectorLimit maxSize) (h : WellFormed maxSize b)
    (hlen : len < 2 ^ 64) : EnsureSafe maxSize b len ↔ Suffices b len := by
  constructor
  · intro hsafe
    by_contra hfit
    have hwrong := ensureWritableBytes_of_not_suffices hmax h hlen hfit
    rcases hsafe with hthrown | ⟨b', hreturned, -, hroom⟩
    · rw [hthrown] at hwrong
      rcases hwrong with hfailed | ⟨b', hreturned, -⟩
      · cases hfailed
      · cases hreturned
    · rw [hreturned] at hwrong
      rcases hwrong with hfailed | ⟨b₁, heq, hcut⟩
      · cases hfailed
      · cases heq
        omega
  · intro hfit
    rcases ensureWritableBytes_spec hmax h hfit with ⟨-, hthrown⟩ | ⟨b', hb', -, h', hrep, hroom⟩
    · exact Or.inl hthrown
    · refine Or.inr ⟨b', hb', hrep.readable_eq, ?_⟩
      have hw := h'.writer_le
      rw [Buffer.writableBytes] at hroom
      omega

/-! ### `shrink` -/

theorem wellFormed_empty {initialSize : ℕ} (hsize : kCheapPrepend + initialSize ≤ maxSize) :
    WellFormed maxSize (Buffer.empty initialSize) where
  reader_le := le_refl _
  writer_le := by simp [Buffer.empty]
  header_le := le_refl _
  length_le := by simpa [Buffer.empty] using hsize

/-- Where the size fits, the assertions of the constructor hold. -/
theorem new_eq (hmax : VectorLimit maxSize) {initialSize : ℕ}
    (hsize : kCheapPrepend + initialSize ≤ maxSize) :
    new maxSize initialSize = .ok (some (Buffer.empty initialSize)) := by
  have hsum : sizeAdd kCheapPrepend initialSize = kCheapPrepend + initialSize :=
    sizeAdd_eq (lt_of_le_of_lt hsize hmax.lt)
  have hwf := wellFormed_empty hsize
  have hreadable : readableBytes (Buffer.empty initialSize) = 0 := by
    rw [hwf.readableBytes_eq]
    exact Nat.sub_self _
  have hwritable : writableBytes (Buffer.empty initialSize) = initialSize := by
    rw [hwf.writableBytes_eq]
    simp [Buffer.writableBytes, Buffer.empty]
  simp only [new, hsum, if_neg (Nat.not_lt.2 hsize)]
  rw [← Buffer.empty, assertThat_pos hreadable, ok_bind, assertThat_pos hwritable, ok_bind]
  rfl

/-- Appending what there is room for. -/
theorem append_of_room (hmax : VectorLimit maxSize) (h : WellFormed maxSize b) {data : List Byte}
    (hroom : data.length ≤ b.writableBytes) :
    ∃ b', append maxSize b data = .returned b' ∧ WellFormed maxSize b' ∧
      b'.Represents (b.readable ++ data) ∧ b'.buffer.length = b.buffer.length ∧
      b'.writerIndex = b.writerIndex + data.length := by
  have hw := h.writer_le
  have hlength := hmax.length_lt h
  have hfit : b.writerIndex + data.length ≤ b.buffer.length := by
    rw [Buffer.writableBytes] at hroom
    omega
  have hensure := ensureWritableBytes_of_room h hroom
  have hstored : (b.store b.beginWrite data).buffer.length = b.buffer.length :=
    length_overwrite hfit
  have hassert : data.length ≤ writableBytes (b.store b.beginWrite data) := by
    rw [writableBytes, hstored]
    exact le_of_le_of_eq hroom h.writableBytes_eq.symm
  obtain ⟨b', hb', hrep, -⟩ := Buffer.store_hasWritten_spec h.represents hroom
  have hplain : data.length ≤ (b.store b.beginWrite data).writableBytes := by
    rw [Buffer.writableBytes, hstored]
    exact hroom
  rw [Buffer.hasWritten, assertThat_pos hplain, ok_bind] at hb'
  obtain rfl := Except.ok.inj hb'
  refine ⟨_, ?_, ⟨hrep.reader_le, hrep.writer_le, ?_, ?_⟩, hrep, hstored, rfl⟩
  · rw [append, hensure, Outcome.andThen, if_pos hfit, hasWritten, if_pos hassert]
    exact congrArg (fun w => Outcome.returned { b.store b.beginWrite data with writerIndex := w })
      (sizeAdd_eq (lt_of_le_of_lt hfit hlength))
  · exact le_trans h.header_le (Nat.le_add_right _ _)
  · exact hstored.trans_le h.length_le

theorem makeSpace_length {b' : Buffer} (hb : b.buffer.length ≤ maxSize)
    (h : makeSpace maxSize b len = .returned b') : b'.buffer.length ≤ maxSize := by
  unfold makeSpace at h
  split_ifs at h with hgrow hreader
  · unfold resizeTo at h
    split_ifs at h with hthrow
    cases h
    simpa using Nat.le_of_not_lt hthrow
  · simp only [] at h
    split_ifs at h with hslid
    cases h
    exact (length_copyForward _ _ _ _).trans_le hb

/-- A call that returns leaves a vector that is not too long. -/
theorem ensureWritableBytes_length {b' : Buffer} (hb : b.buffer.length ≤ maxSize)
    (h : ensureWritableBytes maxSize b len = .returned b') : b'.buffer.length ≤ maxSize := by
  obtain ⟨b₁, hmake, hassert⟩ := Outcome.andThen_eq_returned.1 h
  split_ifs at hassert with hroom
  cases hassert
  split_ifs at hmake with hlt
  · exact makeSpace_length hb hmake
  · cases hmake
    exact hb

theorem append_length {b' : Buffer} {data : List Byte} (hb : b.buffer.length ≤ maxSize)
    (h : append maxSize b data = .returned b') : b'.buffer.length ≤ maxSize := by
  obtain ⟨b₁, hensure, hwrite⟩ := Outcome.andThen_eq_returned.1 h
  split_ifs at hwrite with hfit
  unfold hasWritten at hwrite
  split_ifs at hwrite with hassert
  cases hwrite
  exact (length_overwrite hfit).trans_le (ensureWritableBytes_length hb hensure)

/-- `shrink`, with what is done to this buffer: it has been emptied when the bytes are appended. -/
theorem shrink_eq (hmax : VectorLimit maxSize) (h : WellFormed maxSize b) (reserve : ℕ) :
    ∃ b₀ : Buffer, b₀.readable = [] ∧ shrink maxSize b reserve =
      (ensureWritableBytes maxSize (Buffer.empty kInitialSize)
        (sizeAdd b.readableBytes reserve)).onOther b fun other =>
          (append maxSize other b.readable).onOther b₀ .returned := by
  obtain ⟨b₀, hb₀, hrep, -⟩ := Buffer.retrieveAllAsString_spec h.represents
  refine ⟨b₀, hrep.readable_eq, ?_⟩
  rw [Buffer.retrieveAllAsString] at hb₀
  rw [shrink, new_eq hmax hmax.holds_new, h.readableBytes_eq, hb₀]
  rfl

/-- What `shrink` asks a new buffer for, there is room for as soon as the size fits. -/
theorem suffices_empty {n : ℕ} (hsize : kCheapPrepend + n < 2 ^ 64) :
    Suffices (Buffer.empty kInitialSize) n := Or.inl hsize

/-- Where the sums fit, the bytes are in a new buffer, with the room that was asked for. -/
theorem shrink_spec (hmax : VectorLimit maxSize) (h : WellFormed maxSize b)
    (hfit : ShrinkFits maxSize b reserve) :
    shrink maxSize b reserve = .thrown b ∨
      ∃ b', shrink maxSize b reserve = .returned b' ∧ WellFormed maxSize b' ∧
        b'.readable = b.readable ∧ b'.writerIndex + reserve ≤ b'.buffer.length := by
  obtain ⟨hsize, hsum⟩ := hfit
  obtain ⟨b₀, -, heq⟩ := shrink_eq hmax h reserve
  rw [heq]
  rcases ensureWritableBytes_spec hmax (wellFormed_empty hmax.holds_new) (suffices_empty hsize)
    with ⟨-, hthrown⟩ | ⟨other, hother, -, hwf, hrep, hroom⟩
  · rw [hthrown]
    exact Or.inl rfl
  · have hw := hwf.writer_le
    have hheader := hwf.header_le
    have hlength := hwf.length_le
    rw [Buffer.writableBytes] at hroom
    -- the vector holds what was asked for, so it has not thrown
    have hnowrap : b.readableBytes + reserve < 2 ^ 64 := hsum.resolve_right (by omega)
    rw [sizeAdd_eq hnowrap] at hroom
    have hreadable := h.represents.readableBytes_eq
    have hdata : b.readable.length ≤ other.writableBytes := by
      rw [Buffer.writableBytes]
      omega
    obtain ⟨b', hb', hwf', hrep', hlen, hwriter⟩ := append_of_room hmax hwf hdata
    refine Or.inr ⟨b', ?_, hwf', ?_, ?_⟩
    · rw [hother, Outcome.onOther, hb']
      rfl
    · rw [hrep'.readable_eq, hrep.readable_eq, (Buffer.represents_empty kInitialSize).readable_eq,
        List.nil_append]
    · omega

/-- If the header does not fit any more, the assertion of `makeSpace` fails. -/
theorem not_shrinkSafe_of_header (hmax : VectorLimit maxSize) (h : WellFormed maxSize b)
    (hsize : 2 ^ 64 ≤ kCheapPrepend + sizeAdd b.readableBytes reserve) :
    ¬ShrinkSafe maxSize b reserve := by
  have hwf := wellFormed_empty hmax.holds_new
  have hlt : sizeAdd b.readableBytes reserve < 2 ^ 64 := Nat.mod_lt _ (by decide)
  have hheader : 2 ^ 64 ≤ sizeAdd b.readableBytes reserve + kCheapPrepend := by omega
  have hwritable : (Buffer.empty kInitialSize).writableBytes = kInitialSize := by
    simp [Buffer.writableBytes, Buffer.empty]
  have hslide : sizeAdd (sizeAdd b.readableBytes reserve) kCheapPrepend ≤
      (Buffer.empty kInitialSize).prependableBytes +
        (Buffer.empty kInitialSize).writableBytes := by
    have hcut := sizeAdd_of_le hheader hlt (by decide)
    have hprepend : kCheapPrepend = 8 := rfl
    rw [hwritable, kInitialSize]
    omega
  have hfailed : ensureWritableBytes maxSize (Buffer.empty kInitialSize)
      (sizeAdd b.readableBytes reserve) = .failed .assertion := by
    have hlarge : kInitialSize < sizeAdd b.readableBytes reserve := by
      rw [kInitialSize]
      rw [kCheapPrepend] at hheader
      omega
    rw [ensureWritableBytes, hwf.writableBytes_eq, hwritable, if_pos hlarge,
      makeSpace_of_header_wraps hmax hwf hheader hslide]
    rfl
  obtain ⟨b₀, -, heq⟩ := shrink_eq hmax h reserve
  rw [hfailed] at heq
  rintro (hthrown | ⟨b', hreturned, -, -⟩)
  · rw [heq] at hthrown
    cases hthrown
  · rw [heq] at hreturned
    cases hreturned

/-- If the sum wraps and the vector does not throw at once, this buffer is emptied; afterwards there
is no room for what was to be reserved, or the bytes are lost. -/
theorem not_shrinkSafe_of_sum (hmax : VectorLimit maxSize) (h : WellFormed maxSize b)
    (hreserve : reserve < 2 ^ 64) (hsum : 2 ^ 64 ≤ b.readableBytes + reserve)
    (hlimit : kCheapPrepend + sizeAdd b.readableBytes reserve ≤ maxSize) :
    ¬ShrinkSafe maxSize b reserve := by
  have hsize := lt_of_le_of_lt hlimit hmax.lt
  have hreadable := h.represents.readableBytes_eq
  obtain ⟨b₀, hempty, heq⟩ := shrink_eq hmax h reserve
  rcases ensureWritableBytes_spec hmax (wellFormed_empty hmax.holds_new) (suffices_empty hsize)
    with ⟨hthrow, -⟩ | ⟨other, hother, -, hwf, -, -⟩
  · exact absurd hthrow (Nat.not_lt.2 hlimit)
  · rw [hother, Outcome.onOther] at heq
    rintro (hthrown | ⟨b', hreturned, hsame, hroom⟩)
    · -- the exception of `append` comes too late
      rw [heq] at hthrown
      have hlost : b.readable = [] := by
        rw [← Outcome.eq_of_onOther_eq_thrown hthrown]
        exact hempty
      rw [hlost, List.length_nil] at hreadable
      omega
    · rw [heq] at hreturned
      have happend := Outcome.onOther_eq_returned.1 hreturned
      have hlength := append_length hwf.length_le happend
      have hmaxSize := hmax.lt
      have hbytes : b.readable.length ≤ b'.writerIndex := by
        rw [← hsame, Buffer.readable, slice]
        exact (List.length_take_le _ _).trans (Nat.sub_le _ _)
      omega

/-- **The exact condition** for `shrink`. -/
theorem shrinkSafe_iff (hmax : VectorLimit maxSize) (h : WellFormed maxSize b)
    (hreserve : reserve < 2 ^ 64) :
    ShrinkSafe maxSize b reserve ↔ ShrinkFits maxSize b reserve := by
  constructor
  · intro hsafe
    constructor
    · by_contra hsize
      exact not_shrinkSafe_of_header hmax h (Nat.le_of_not_lt hsize) hsafe
    · by_contra hneither
      rw [not_or, Nat.not_lt, Nat.not_lt] at hneither
      exact not_shrinkSafe_of_sum hmax h hreserve hneither.1 hneither.2 hsafe
  · intro hfit
    rcases shrink_spec hmax h hfit with hthrown | ⟨b', hb', -, hsame, hroom⟩
    · exact Or.inl hthrown
    · exact Or.inr ⟨b', hb', hsame, hroom⟩

/-! ### The constructor -/

/-- If the size fits, with the header, what is constructed is well formed. -/
theorem wellFormed_new {initialSize : ℕ} (hmax : VectorLimit maxSize)
    (hsize : kCheapPrepend + initialSize < 2 ^ 64)
    (hb : new maxSize initialSize = .ok (some b)) : WellFormed maxSize b := by
  by_cases hlimit : kCheapPrepend + initialSize ≤ maxSize
  · obtain rfl := Option.some_inj.1 (Except.ok.inj ((new_eq hmax hlimit).symm.trans hb))
    exact wellFormed_empty hlimit
  · rw [new, sizeAdd_eq hsize] at hb
    simp only [if_pos (Nat.lt_of_not_le hlimit)] at hb
    cases hb

/-- If it wraps, the vector ends before the indices, and the assertions hold all the same: up to the
size that was asked for `ensureWritableBytes` does nothing, and there is no room for any of it. -/
theorem not_ensureSafe_of_new {initialSize : ℕ} (hmax : VectorLimit maxSize)
    (hlt : initialSize < 2 ^ 64) (hsize : 2 ^ 64 ≤ kCheapPrepend + initialSize) :
    ∃ b, new maxSize initialSize = .ok (some b) ∧ b.buffer.length < b.writerIndex ∧
      ∀ len, len ≤ initialSize → ¬EnsureSafe maxSize b len := by
  have hheader : kCheapPrepend = 8 := rfl
  have hcut := sizeAdd_of_le hsize (by decide) hlt
  have hlimit := hmax.holds_new
  have hshort : sizeAdd kCheapPrepend initialSize < kCheapPrepend := by omega
  have hwritable : Buffer.sizeSub (sizeAdd kCheapPrepend initialSize) kCheapPrepend =
      initialSize := by
    rw [Buffer.sizeSub, if_neg (Nat.not_le.2 hshort)]
    omega
  refine ⟨⟨List.replicate (sizeAdd kCheapPrepend initialSize) 0, kCheapPrepend, kCheapPrepend⟩,
    ?_, by simpa using hshort, ?_⟩
  · simp only [new]
    rw [if_neg (by omega), assertThat_pos (by simp [readableBytes, Buffer.sizeSub]), ok_bind,
      assertThat_pos (by simpa [writableBytes] using hwritable), ok_bind]
    rfl
  · intro len hlen
    have hroom : len ≤ writableBytes
        ⟨List.replicate (sizeAdd kCheapPrepend initialSize) 0, kCheapPrepend, kCheapPrepend⟩ := by
      rw [writableBytes, List.length_replicate, hwritable]
      exact hlen
    rw [EnsureSafe, ensureWritableBytes, if_neg (Nat.not_lt.2 hroom), Outcome.andThen,
      if_pos hroom]
    rintro (hthrown | ⟨b', hreturned, -, hfits⟩)
    · cases hthrown
    · cases hreturned
      simp only [List.length_replicate] at hfits
      omega

end

end Wrapping

end G5
