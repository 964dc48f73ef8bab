/-
**The byte buffer of a connection** (`src/net/Buffer.h`).

A buffer is a vector with two indices: the bytes between `readerIndex` and `writerIndex` are the
ones to be read, the ones before are free for `prepend`, the ones behind are free for `append`.

```
+-------------------+------------------+------------------+
| prependable bytes |  readable bytes  |  writable bytes  |
+-------------------+------------------+------------------+
0      <=      readerIndex   <=   writerIndex    <=     size
```

Pointers into the vector are positions in it, and a `size_t` is a natural number: nothing here is
about sums that leave 64 bits, but for the difference in `unwrite`.  Each function of the class is
translated with its assertions.

Main definitions:

* `Buffer` and its functions, under the names of the source;
* `Buffer.readable` — the readable bytes;
* `Buffer.Represents` — the buffer is well formed and its readable bytes are the given ones.

Main results:

* one specification lemma for each function: `Buffer.retrieve_spec`, `Buffer.makeSpace_spec`,
  `Buffer.append_spec`, `Buffer.prepend_spec`, `Buffer.shrink_spec` and so on.  Each says that no
  assertion fails, what the readable bytes become, and that the eight bytes in front stay free.
-/

import G5.Basic
import G5.Lib.LittleEndian
import G5.Lib.Region
import G5.Lib.Search

set_option relaxedAutoImplicit false
set_option autoImplicit false

namespace G5

open Region

/-- The bytes kept free in front of the data. -/
def kCheapPrepend : ℕ := 8

/-- The capacity of a buffer made without an argument. -/
def kInitialSize : ℕ := 1024

/-- Carriage return and line feed: the source declares the array and leaves its bytes out. -/
def kCRLF : List Byte := [13, 10]

/-- A buffer: the vector and the two indices. -/
structure Buffer where
  buffer : List Byte
  readerIndex : ℕ
  writerIndex : ℕ
  deriving DecidableEq, Repr

namespace Buffer

/-! ### Observers -/

def readableBytes (b : Buffer) : ℕ := b.writerIndex - b.readerIndex

def writableBytes (b : Buffer) : ℕ := b.buffer.length - b.writerIndex

def prependableBytes (b : Buffer) : ℕ := b.readerIndex

/-- The position of the first readable byte. -/
def peek (b : Buffer) : ℕ := b.readerIndex

/-- The position of the first writable byte. -/
def beginWrite (b : Buffer) : ℕ := b.writerIndex

/-- The readable bytes. -/
def readable (b : Buffer) : List Byte := slice b.buffer b.readerIndex b.writerIndex

/-- The position of the first CR LF among the readable bytes, or a null pointer. -/
def findCRLF (b : Buffer) : Option ℕ :=
  let crlf := b.peek + Search.search kCRLF (slice b.buffer b.peek b.beginWrite)
  if crlf = b.beginWrite then none else some crlf

/-! ### Construction, retrieving and appending -/

/-- The fields the constructor sets. -/
def empty (initialSize : ℕ) : Buffer :=
  ⟨List.replicate (kCheapPrepend + initialSize) 0, kCheapPrepend, kCheapPrepend⟩

/-- The constructor, with its assertions. -/
def new (initialSize : ℕ) : Checked Buffer := do
  let b := empty initialSize
  assertThat (b.readableBytes = 0)
  assertThat (b.writableBytes = initialSize)
  assertThat (b.prependableBytes = kCheapPrepend)
  return b

/-- `swap`, on the pair of this buffer and the other one. -/
def swap (b rhs : Buffer) : Buffer × Buffer := (rhs, b)

def retrieveAll (b : Buffer) : Buffer :=
  { b with readerIndex := kCheapPrepend, writerIndex := kCheapPrepend }

def retrieve (b : Buffer) (len : ℕ) : Checked Buffer := do
  assertThat (len ≤ b.readableBytes)
  if len < b.readableBytes then
    return { b with readerIndex := b.readerIndex + len }
  else
    return b.retrieveAll

/-- The pointer argument is the position `last`. -/
def retrieveUntil (b : Buffer) (last : ℕ) : Checked Buffer := do
  assertThat (b.peek ≤ last)
  assertThat (last ≤ b.beginWrite)
  b.retrieve (last - b.peek)

def retrieveAsString (b : Buffer) (len : ℕ) : Checked (List Byte × Buffer) := do
  assertThat (len ≤ b.readableBytes)
  let result := slice b.buffer b.peek (b.peek + len)
  let b ← b.retrieve len
  return (result, b)

def retrieveAllAsString (b : Buffer) : Checked (List Byte × Buffer) :=
  b.retrieveAsString b.readableBytes

def makeSpace (b : Buffer) (len : ℕ) : Checked Buffer :=
  if b.prependableBytes + b.writableBytes < len + kCheapPrepend then
    .ok { b with buffer := resize b.buffer (b.writerIndex + len) 0 }
  else do
    assertThat (kCheapPrepend < b.readerIndex)
    let readable := b.readableBytes
    let b : Buffer :=
      { buffer := copyForward b.buffer b.readerIndex kCheapPrepend
          (b.writerIndex - b.readerIndex)
        readerIndex := kCheapPrepend
        writerIndex := kCheapPrepend + readable }
    assertThat (len ≤ b.writableBytes)
    return b

def ensureWritableBytes (b : Buffer) (len : ℕ) : Checked Buffer := do
  let b ← if b.writableBytes < len then b.makeSpace len else pure b
  assertThat (len ≤ b.writableBytes)
  return b

def hasWritten (b : Buffer) (len : ℕ) : Checked Buffer := do
  assertThat (len ≤ b.writableBytes)
  return { b with writerIndex := b.writerIndex + len }

/-- Subtraction of a `size_t`, which wraps below zero. -/
def sizeSub (x y : ℕ) : ℕ := if y ≤ x then x - y else x + 2 ^ 64 - y

/-- `unwrite`, which takes the bytes off `readerIndex_`. -/
def unwrite (b : Buffer) (len : ℕ) : Checked Buffer := do
  assertThat (len ≤ b.readableBytes)
  return { b with readerIndex := sizeSub b.readerIndex len }

/-- Bytes stored from the position `pos` on, through a pointer. -/
def store (b : Buffer) (pos : ℕ) (data : List Byte) : Buffer :=
  { b with buffer := overwrite b.buffer pos data }

def append (b : Buffer) (data : List Byte) : Checked Buffer := do
  let b ← b.ensureWritableBytes data.length
  (b.store b.beginWrite data).hasWritten data.length

def prepend (b : Buffer) (data : List Byte) : Checked Buffer := do
  assertThat (data.length ≤ b.prependableBytes)
  let b := { b with readerIndex := b.readerIndex - data.length }
  return b.store b.readerIndex data

/-- `swap(other)` leaves this buffer with what was built in `other`. -/
def shrink (b : Buffer) (reserve : ℕ) : Checked Buffer := do
  let other ← new kInitialSize
  let other ← other.ensureWritableBytes (b.readableBytes + reserve)
  let (data, b) ← b.retrieveAsString b.readableBytes
  let other ← other.append data
  return (b.swap other).1

/-! ### Integers

The functions for the four widths differ in the width alone; an integer of `n` bytes is copied
as it stands in memory, the low byte first. -/

/-- `peekIntN` for an integer of `n` bytes. -/
def peekInt (b : Buffer) (n : ℕ) : Checked (BitVec (8 * n)) := do
  assertThat (n ≤ b.readableBytes)
  return LittleEndian.decode n (slice b.buffer b.peek (b.peek + n))

/-- `retrieveIntN` for an integer of `n` bytes. -/
def retrieveInt (b : Buffer) (n : ℕ) : Checked Buffer := b.retrieve n

/-- `readIntN` for an integer of `n` bytes. -/
def readInt (b : Buffer) (n : ℕ) : Checked (BitVec (8 * n) × Buffer) := do
  let x ← b.peekInt n
  let b ← b.retrieveInt n
  return (x, b)

/-- `prependIntN` for an integer of `n` bytes. -/
def prependInt (b : Buffer) (n : ℕ) (x : BitVec (8 * n)) : Checked Buffer :=
  b.prepend (LittleEndian.encode n x)

def peekInt64 (b : Buffer) : Checked (BitVec 64) := b.peekInt 8
def peekInt32 (b : Buffer) : Checked (BitVec 32) := b.peekInt 4
def peekInt16 (b : Buffer) : Checked (BitVec 16) := b.peekInt 2
def peekInt8 (b : Buffer) : Checked (BitVec 8) := b.peekInt 1

def retrieveInt64 (b : Buffer) : Checked Buffer := b.retrieveInt 8
def retrieveInt32 (b : Buffer) : Checked Buffer := b.retrieveInt 4
def retrieveInt16 (b : Buffer) : Checked Buffer := b.retrieveInt 2
def retrieveInt8 (b : Buffer) : Checked Buffer := b.retrieveInt 1

def readInt64 (b : Buffer) : Checked (BitVec 64 × Buffer) := b.readInt 8
def readInt32 (b : Buffer) : Checked (BitVec 32 × Buffer) := b.readInt 4
def readInt16 (b : Buffer) : Checked (BitVec 16 × Buffer) := b.readInt 2
def readInt8 (b : Buffer) : Checked (BitVec 8 × Buffer) := b.readInt 1

def prependInt64 (b : Buffer) (x : BitVec 64) : Checked Buffer := b.prependInt 8 x
def prependInt32 (b : Buffer) (x : BitVec 32) : Checked Buffer := b.prependInt 4 x
def prependInt16 (b : Buffer) (x : BitVec 16) : Checked Buffer := b.prependInt 2 x
def prependInt8 (b : Buffer) (x : BitVec 8) : Checked Buffer := b.prependInt 1 x

/-! ### What a buffer represents -/

/-- The buffer is well formed and its readable bytes are `q`. -/
structure Represents (b : Buffer) (q : List Byte) : Prop where
  reader_le : b.readerIndex ≤ b.writerIndex
  writer_le : b.writerIndex ≤ b.buffer.length
  header_le : kCheapPrepend ≤ b.buffer.length
  readable_eq : b.readable = q

/-- The bytes in front are free for a `prepend`: what every function but `prepend` keeps. -/
def HeaderFree (b : Buffer) : Prop := kCheapPrepend ≤ b.prependableBytes

section

variable {b : Buffer} {q : List Byte}

theorem Represents.readableBytes_eq (h : b.Represents q) : b.readableBytes = q.length := by
  rw [← h.readable_eq, readable, length_slice h.writer_le, readableBytes]

/-- A well-formed buffer represents its readable bytes. -/
theorem Represents.self (h : b.Represents q) : b.Represents b.readable :=
  h.readable_eq.symm ▸ h

/-- Inside the readable bytes, a range of the vector is a range of the queue. -/
theorem Represents.slice_eq (h : b.Represents q) {i j : ℕ} (hij : i ≤ j) (hj : j ≤ q.length) :
    slice b.buffer (b.readerIndex + i) (b.readerIndex + j) = slice q i j := by
  have hlen : q.length = b.writerIndex - b.readerIndex := by
    rw [← h.readableBytes_eq, readableBytes]
  have hr := h.reader_le
  rw [← slice_slice (b := b.writerIndex) hij (by omega), ← h.readable_eq, readable]

theorem represents_empty (n : ℕ) : (empty n).Represents [] where
  reader_le := Nat.le_refl _
  writer_le := by simp [empty]
  header_le := by simp [empty]
  readable_eq := slice_self _ _

/-- A buffer in which `q` waits to be read. -/
def holding (q : List Byte) : Buffer :=
  ⟨List.replicate kCheapPrepend 0 ++ q, kCheapPrepend, kCheapPrepend + q.length⟩

theorem represents_holding (q : List Byte) : (holding q).Represents q where
  reader_le := Nat.le_add_right _ _
  writer_le := by simp [holding]
  header_le := by simp [holding]
  readable_eq := by simp [holding, readable, slice]

theorem headerFree_empty (n : ℕ) : (empty n).HeaderFree := Nat.le_refl kCheapPrepend

/-- The assertions of the constructor hold. -/
theorem new_eq (n : ℕ) : new n = .ok (empty n) := by
  have hr : (empty n).readableBytes = 0 := Nat.sub_self _
  have hw : (empty n).writableBytes = n := by simp [writableBytes, empty]
  have hp : (empty n).prependableBytes = kCheapPrepend := rfl
  simp [new, hr, hw, hp]

/-! ### Specifications of the functions -/

/-- The call succeeds, the buffer it leaves represents `q`, and the header stays free if it was. -/
def Yields (b : Buffer) (r : Checked Buffer) (q : List Byte) : Prop :=
  ∃ b', r = .ok b' ∧ b'.Represents q ∧ (b.HeaderFree → b'.HeaderFree)

theorem Represents.retrieveAll (h : b.Represents q) : b.retrieveAll.Represents [] where
  reader_le := Nat.le_refl _
  writer_le := h.header_le
  header_le := h.header_le
  readable_eq := slice_self _ _

theorem retrieve_spec (h : b.Represents q) {n : ℕ} (hn : n ≤ q.length) :
    b.Yields (b.retrieve n) (q.drop n) := by
  have hlen := h.readableBytes_eq
  rw [Yields, retrieve, assertThat_pos (by omega), ok_bind]
  by_cases hlt : n < b.readableBytes
  · rw [if_pos hlt]
    have hw : b.readerIndex + n ≤ b.writerIndex := by
      unfold readableBytes at hlt
      omega
    refine ⟨_, rfl, ⟨hw, h.writer_le, h.header_le, ?_⟩, ?_⟩
    · rw [← h.readable_eq, readable, readable, drop_slice]
    · intro hf
      rw [HeaderFree, prependableBytes] at hf ⊢
      simp only
      omega
  · -- everything is retrieved, and both indices go back to the front
    rw [if_neg hlt, List.drop_of_length_le (by omega)]
    exact ⟨_, rfl, h.retrieveAll, fun _ => Nat.le_refl kCheapPrepend⟩

theorem retrieveUntil_spec (h : b.Represents q) {n : ℕ} (hn : n ≤ q.length) :
    b.Yields (b.retrieveUntil (b.peek + n)) (q.drop n) := by
  have hlen := h.readableBytes_eq
  have hle : b.peek + n ≤ b.beginWrite := by
    have := h.reader_le
    unfold readableBytes at hlen
    rw [peek, beginWrite]
    omega
  rw [retrieveUntil, assertThat_pos (Nat.le_add_right _ _), ok_bind, assertThat_pos hle, ok_bind,
    Nat.add_sub_cancel_left]
  exact retrieve_spec h hn

theorem findCRLF_of_cut_none (h : b.Represents q) (hcut : Search.cut kCRLF q = none) :
    b.findCRLF = none := by
  have hlen := h.readableBytes_eq
  have hrw := h.reader_le
  have hq : slice b.buffer b.peek b.beginWrite = q := h.readable_eq
  rw [findCRLF, hq, Search.cut_eq_none.1 hcut]
  refine if_pos ?_
  unfold readableBytes at hlen
  rw [peek, beginWrite]
  omega

/-- The pointer returned is behind the first line of the readable bytes. -/
theorem findCRLF_of_cut (h : b.Represents q) {line rest : List Byte}
    (hcut : Search.cut kCRLF q = some (line, rest)) :
    b.findCRLF = some (b.peek + line.length) ∧
      slice b.buffer b.peek (b.peek + line.length) = line ∧
      line.length + 2 ≤ q.length ∧ q.drop (line.length + 2) = rest := by
  have hlen := h.readableBytes_eq
  have hq : slice b.buffer b.peek b.beginWrite = q := h.readable_eq
  obtain ⟨hne, hline, hrest⟩ := Search.cut_eq_some hcut
  have hfit : Search.search kCRLF q + 2 ≤ q.length := Search.length_of_cut hcut
  have hlength : line.length = Search.search kCRLF q := by
    rw [hline, List.length_take]
    omega
  have hslice := h.slice_eq (Nat.zero_le line.length) (by omega)
  refine ⟨?_, ?_, by omega, ?_⟩
  · rw [findCRLF, hq, hlength]
    refine if_neg fun he => hne ?_
    have hrw := h.reader_le
    unfold readableBytes at hlen
    rw [peek, beginWrite] at he
    omega
  · rw [Nat.add_zero] at hslice
    rw [peek, hslice, slice, List.drop_zero, Nat.sub_zero, hlength]
    exact hline.symm
  · rw [hlength, hrest]
    rfl

theorem retrieveAsString_spec (h : b.Represents q) {n : ℕ} (hn : n ≤ q.length) :
    ∃ b', b.retrieveAsString n = .ok (q.take n, b') ∧ b'.Represents (q.drop n) ∧
      (b.HeaderFree → b'.HeaderFree) := by
  obtain ⟨b', hb', hrep, hfree⟩ := retrieve_spec h hn
  have hlen := h.readableBytes_eq
  have hslice : slice b.buffer b.peek (b.peek + n) = q.take n := by
    have := h.slice_eq (Nat.zero_le n) hn
    simpa [peek, slice] using this
  refine ⟨b', ?_, hrep, hfree⟩
  rw [retrieveAsString, assertThat_pos (by omega), ok_bind, hb', ok_bind, hslice]
  rfl

theorem retrieveAllAsString_spec (h : b.Represents q) :
    ∃ b', b.retrieveAllAsString = .ok (q, b') ∧ b'.Represents [] ∧
      (b.HeaderFree → b'.HeaderFree) := by
  have hspec := retrieveAsString_spec h (Nat.le_refl q.length)
  rwa [List.take_length, List.drop_length, ← h.readableBytes_eq] at hspec

/-- **Making space**: called when the writable bytes do not suffice, either strategy keeps the
readable bytes and makes enough room.  The data is slid down only when the free bytes in front
exceed the header, whatever a `prepend` has done to `readerIndex`. -/
theorem makeSpace_spec (h : b.Represents q) {n : ℕ} (hn : b.writableBytes < n) :
    ∃ b', b.makeSpace n = .ok b' ∧ b'.Represents q ∧ n ≤ b'.writableBytes ∧
      (b.HeaderFree → b'.HeaderFree) := by
  have hrw := h.reader_le
  have hwl := h.writer_le
  unfold makeSpace
  by_cases hgrow : b.prependableBytes + b.writableBytes < n + kCheapPrepend
  · rw [if_pos hgrow]
    unfold writableBytes at hn
    refine ⟨_, rfl, ⟨hrw, ?_, ?_, ?_⟩, ?_, fun hf => hf⟩
    · simp
    · simp only [length_resize]
      have := h.header_le
      omega
    · rw [← h.readable_eq, readable, readable, slice_resize 0 (by omega) hwl]
    · simp [writableBytes]
  · rw [if_neg hgrow]
    have hfree : kCheapPrepend < b.readerIndex := by
      unfold prependableBytes at hgrow
      omega
    have hcopy : copyForward b.buffer b.readerIndex kCheapPrepend
        (b.writerIndex - b.readerIndex) = overwrite b.buffer kCheapPrepend q := by
      rw [copyForward_eq (by omega) (by omega), ← h.readable_eq, readable]
      congr 2
      omega
    have hqlen : q.length = b.writerIndex - b.readerIndex := by
      rw [← h.readableBytes_eq, readableBytes]
    have hroom : kCheapPrepend + q.length ≤ b.buffer.length := by omega
    have hnew : n ≤ (⟨overwrite b.buffer kCheapPrepend q, kCheapPrepend,
        kCheapPrepend + b.readableBytes⟩ : Buffer).writableBytes := by
      rw [writableBytes, prependableBytes] at hgrow
      simp only [writableBytes, length_overwrite hroom, readableBytes]
      omega
    rw [assertThat_pos hfree, ok_bind, hcopy]
    simp only [assertThat_pos hnew, ok_bind, pure_eq_ok]
    refine ⟨_, rfl, ⟨?_, ?_, ?_, ?_⟩, hnew, fun _ => Nat.le_refl kCheapPrepend⟩
    · exact Nat.le_add_right _ _
    · simp only [length_overwrite hroom, readableBytes]
      omega
    · simp only [length_overwrite hroom]
      exact h.header_le
    · unfold readable
      simp only [h.readableBytes_eq]
      exact slice_overwrite_self h.header_le

theorem ensureWritableBytes_spec (h : b.Represents q) (n : ℕ) :
    ∃ b', b.ensureWritableBytes n = .ok b' ∧ b'.Represents q ∧ n ≤ b'.writableBytes ∧
      (b.HeaderFree → b'.HeaderFree) := by
  unfold ensureWritableBytes
  by_cases hlt : b.writableBytes < n
  · obtain ⟨b', hb', hrep, hroom, hfree⟩ := makeSpace_spec h hlt
    refine ⟨b', ?_, hrep, hroom, hfree⟩
    simp only [if_pos hlt, hb', ok_bind, assertThat_pos hroom, pure_eq_ok]
  · have hroom : n ≤ b.writableBytes := Nat.le_of_not_lt hlt
    refine ⟨b, ?_, h, hroom, fun hf => hf⟩
    simp only [if_neg hlt, pure_eq_ok, ok_bind, assertThat_pos hroom]

/-- Storing bytes at `beginWrite()` and counting them in appends them. -/
theorem store_hasWritten_spec (h : b.Represents q) {data : List Byte}
    (hroom : data.length ≤ b.writableBytes) :
    b.Yields ((b.store b.beginWrite data).hasWritten data.length) (q ++ data) := by
  have hrw := h.reader_le
  have hwl := h.writer_le
  have hfit : b.writerIndex + data.length ≤ b.buffer.length := by
    unfold writableBytes at hroom
    omega
  have hlen : (overwrite b.buffer b.writerIndex data).length = b.buffer.length :=
    length_overwrite hfit
  have hassert : data.length ≤ (b.store b.beginWrite data).writableBytes := by
    rw [writableBytes] at hroom ⊢
    simp only [store, beginWrite, hlen]
    exact hroom
  rw [Yields, hasWritten, assertThat_pos hassert, ok_bind]
  refine ⟨_, rfl, ⟨?_, ?_, ?_, ?_⟩, fun hf => hf⟩
  · exact Nat.le_trans hrw (Nat.le_add_right _ _)
  · simp only [store, beginWrite, hlen]
    exact hfit
  · simp only [store, beginWrite, hlen]
    exact h.header_le
  · simp only [store, beginWrite, readable]
    rw [← slice_append_slice hrw (Nat.le_add_right _ _), slice_overwrite_before hwl (Nat.le_refl _),
      slice_overwrite_self hwl, ← h.readable_eq, readable]

theorem append_spec (h : b.Represents q) (data : List Byte) :
    b.Yields (b.append data) (q ++ data) := by
  obtain ⟨b₁, hb₁, hrep₁, hroom, hfree₁⟩ := ensureWritableBytes_spec h data.length
  obtain ⟨b₂, hb₂, hrep₂, hfree₂⟩ := store_hasWritten_spec hrep₁ hroom
  refine ⟨b₂, ?_, hrep₂, fun hf => hfree₂ (hfree₁ hf)⟩
  rw [append, hb₁, ok_bind, hb₂]

theorem prepend_spec (h : b.Represents q) (data : List Byte)
    (hroom : data.length ≤ b.prependableBytes) :
    ∃ b', b.prepend data = .ok b' ∧ b'.Represents (data ++ q) := by
  have hrw := h.reader_le
  have hwl := h.writer_le
  have hr : data.length ≤ b.readerIndex := hroom
  have hlen : (overwrite b.buffer (b.readerIndex - data.length) data).length =
      b.buffer.length := length_overwrite (by omega)
  rw [prepend, assertThat_pos hroom, ok_bind]
  refine ⟨_, rfl, ⟨?_, ?_, ?_, ?_⟩⟩
  · simp only [store]
    omega
  · simp only [store, hlen]
    exact hwl
  · simp only [store, hlen]
    exact h.header_le
  · have hend : b.readerIndex - data.length + data.length = b.readerIndex := by omega
    have hfront : slice (overwrite b.buffer (b.readerIndex - data.length) data)
        (b.readerIndex - data.length) (b.readerIndex - data.length + data.length) = data :=
      slice_overwrite_self (by omega)
    have hback : slice (overwrite b.buffer (b.readerIndex - data.length) data)
        b.readerIndex b.writerIndex = slice b.buffer b.readerIndex b.writerIndex :=
      slice_overwrite_after (by omega) (by omega)
    rw [hend] at hfront
    simp only [store, readable]
    rw [← slice_append_slice (j := b.readerIndex) (by omega) hrw, hfront, hback,
      ← h.readable_eq, readable]

/-- What `shrink` leaves is a fresh buffer with the same readable bytes. -/
theorem shrink_spec (h : b.Represents q) (reserve : ℕ) :
    ∃ b', b.shrink reserve = .ok b' ∧ b'.Represents q ∧ b'.HeaderFree := by
  obtain ⟨o₁, ho₁, hrep₁, -, hfree₁⟩ :=
    ensureWritableBytes_spec (represents_empty kInitialSize) (b.readableBytes + reserve)
  obtain ⟨b', hb', -, -⟩ := retrieveAllAsString_spec h
  obtain ⟨o₂, ho₂, hrep₂, hfree₂⟩ := append_spec hrep₁ q
  unfold retrieveAllAsString at hb'
  refine ⟨o₂, ?_, by simpa using hrep₂, hfree₂ (hfree₁ (headerFree_empty _))⟩
  simp only [shrink, new_eq, ok_bind, ho₁, hb', ho₂]
  rfl

/-! ### Specifications of the integer functions -/

theorem peekInt_spec (h : b.Represents q) {n : ℕ} (hn : n ≤ q.length) :
    b.peekInt n = .ok (LittleEndian.decode n (q.take n)) := by
  have hlen := h.readableBytes_eq
  have hslice : slice b.buffer b.peek (b.peek + n) = q.take n := by
    have := h.slice_eq (Nat.zero_le n) hn
    simpa [peek, slice] using this
  rw [peekInt, assertThat_pos (by omega), ok_bind, hslice]
  rfl

theorem readInt_spec (h : b.Represents q) {n : ℕ} (hn : n ≤ q.length) :
    ∃ b', b.readInt n = .ok (LittleEndian.decode n (q.take n), b') ∧
      b'.Represents (q.drop n) ∧ (b.HeaderFree → b'.HeaderFree) := by
  obtain ⟨b', hb', hrep, hfree⟩ := retrieve_spec h hn
  refine ⟨b', ?_, hrep, hfree⟩
  rw [readInt, peekInt_spec h hn, ok_bind, retrieveInt, hb']
  rfl

/-- An integer that was prepended is the next one to be read, whatever its width. -/
theorem readInt_prependInt (h : b.Represents q) {n : ℕ} (hn : n ≤ b.prependableBytes)
    (x : BitVec (8 * n)) :
    ∃ b₁ b₂, b.prependInt n x = .ok b₁ ∧ b₁.readInt n = .ok (x, b₂) ∧ b₂.Represents q := by
  obtain ⟨b₁, hb₁, hrep₁⟩ := prepend_spec h (LittleEndian.encode n x) (by simpa)
  obtain ⟨b₂, hb₂, hrep₂, -⟩ := readInt_spec hrep₁ (n := n) (by simp)
  refine ⟨b₁, b₂, hb₁, ?_, ?_⟩
  · rw [hb₂, List.take_left' (by simp), LittleEndian.decode_encode]
  · rwa [List.drop_left' (by simp)] at hrep₂

end

end Buffer

end G5
