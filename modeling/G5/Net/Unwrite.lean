/-
**Taking back what was written** (`Buffer::unwrite` of `src/net/Buffer.h`).

`hasWritten` moves `writerIndex_` towards the back, and `unwrite` is there to move it back again;
but it subtracts from `readerIndex_`, and so gives back bytes that were retrieved before, or bytes
of the header, or wraps.

Main definitions:

* `Buffer.Unwritten` — the last bytes are gone, and the indices are in order and have not wrapped;
* `Buffer.Unwrites` — a call of `unwrite` leaves the buffer so;
* `Buffer.AppendUndone` — `append` followed by `unwrite` of as many bytes restores what was there.

Main results:

* `Buffer.unwrites_iff`, `Buffer.appendUndone_iff` — this is so exactly if there is nothing to
  take back;
* `Store.unwrite_exact` — **the same for the buffers that any run reaches**.
-/

import G5.Net.BufferQueue

set_option relaxedAutoImplicit false
set_option autoImplicit false

namespace G5

open Region

namespace Buffer

/-! ### What `unwrite` is for -/

/-- The buffer `b'` is `b` without its last `len` readable bytes; indices that have wrapped would
have grown. -/
structure Unwritten (b : Buffer) (len : ℕ) (b' : Buffer) : Prop where
  readable : b'.readable = b.readable.take (b.readableBytes - len)
  ordered : b'.readerIndex ≤ b'.writerIndex ∧ b'.writerIndex ≤ b'.buffer.length
  unwrapped : b'.readerIndex ≤ b.readerIndex ∧ b'.writerIndex ≤ b.writerIndex

/-- A call of `unwrite` removes the last `len` readable bytes. -/
def Unwrites (b : Buffer) (len : ℕ) : Prop :=
  ∃ b', b.unwrite len = .ok b' ∧ b.Unwritten len b'

/-- `append(x)` followed by `unwrite(x.length())` restores the readable bytes. -/
def AppendUndone (b : Buffer) (x : List Byte) : Prop :=
  ∃ b₁ b₂, b.append x = .ok b₁ ∧ b₁.unwrite x.length = .ok b₂ ∧ b₁.Unwritten x.length b₂ ∧
    b₂.readable = b.readable

/-! ### What it does -/

section

variable {b : Buffer} {q : List Byte}

theorem unwrite_eq {len : ℕ} (hlen : len ≤ b.readableBytes) :
    b.unwrite len = .ok { b with readerIndex := sizeSub b.readerIndex len } := by
  rw [unwrite, assertThat_pos hlen, ok_bind]
  rfl

/-- With `readerIndex_` moved towards the front, no fewer bytes are readable. -/
theorem Represents.length_le_of_reader_le (h : b.Represents q) {r : ℕ} (hr : r ≤ b.readerIndex) :
    q.length ≤ ({ b with readerIndex := r } : Buffer).readable.length := by
  rw [← h.readableBytes_eq, readable, length_slice h.writer_le, readableBytes]
  exact Nat.sub_le_sub_left hr b.writerIndex

/-- The call takes bytes back exactly if it is asked for none. -/
theorem Represents.unwrites_iff (h : b.Represents q) {len : ℕ} (hlen : len ≤ b.readableBytes) :
    b.Unwrites len ↔ len = 0 := by
  have hq := h.readableBytes_eq
  constructor
  · rintro ⟨b', hb', hbytes, -, hindex, -⟩
    obtain rfl : _ = b' := Except.ok.inj ((unwrite_eq hlen).symm.trans hb')
    have hmore := h.length_le_of_reader_le hindex
    have hless := congrArg List.length hbytes
    rw [List.length_take, h.readable_eq] at hless
    -- what is readable cannot have become less
    have : q.length ≤ min (b.readableBytes - len) q.length := hless ▸ hmore
    omega
  · rintro rfl
    refine ⟨b, ?_, ?_, ⟨h.reader_le, h.writer_le⟩, le_refl _, le_refl _⟩
    · rw [unwrite_eq hlen, sizeSub, if_pos (Nat.zero_le _), Nat.sub_zero]
    · rw [Nat.sub_zero, List.take_of_length_le]
      rw [h.readable_eq, hq]

/-- `unwrite` undoes `append` exactly if nothing was appended. -/
theorem Represents.appendUndone_iff (h : b.Represents q) (x : List Byte) :
    b.AppendUndone x ↔ x = [] := by
  obtain ⟨b₁, hb₁, hrep, -⟩ := append_spec h x
  have hlen : x.length ≤ b₁.readableBytes := by
    rw [hrep.readableBytes_eq, List.length_append]
    omega
  constructor
  · rintro ⟨b', b₂, hb', hb₂, hunwritten, -⟩
    obtain rfl : b₁ = b' := Except.ok.inj (hb₁.symm.trans hb')
    exact List.length_eq_zero_iff.1 ((hrep.unwrites_iff hlen).1 ⟨b₂, hb₂, hunwritten⟩)
  · rintro rfl
    obtain ⟨b₂, hb₂, hunwritten⟩ := (hrep.unwrites_iff hlen).2 rfl
    refine ⟨b₁, b₂, hb₁, hb₂, hunwritten, ?_⟩
    rw [hunwritten.readable, List.length_nil, Nat.sub_zero, List.take_of_length_le,
      hrep.readable_eq, h.readable_eq, List.append_nil]
    rw [hrep.readable_eq, hrep.readableBytes_eq]

end

end Buffer

namespace Store

variable {ι : Type} [DecidableEq ι]

/-- **`unwrite` takes back nothing but nothing.**  For every buffer that calls within their
assertions reach, a call of `unwrite` with at most `readableBytes()` removes the last `len` readable
bytes and leaves the indices in order if and only if `len` is zero, and it undoes `append` if and
only if nothing was appended. -/
theorem unwrite_exact (sizes : ι → ℕ) {ops : List (StoreOp ι)} (hpre : Permitted (new sizes) ops)
    {s : ι → Buffer} {results : List BufferResult} (h : run (new sizes) ops = .ok (s, results))
    (i : ι) :
    (∀ len, len ≤ (s i).readableBytes → ((s i).Unwrites len ↔ len = 0)) ∧
      ∀ x, (s i).AppendUndone x ↔ x = [] := by
  have hinit : Represents (new sizes) (fun _ => []) := fun i => Buffer.represents_empty (sizes i)
  obtain ⟨t, ht, hrep, -⟩ := run_refines_of_represents hinit hpre
  obtain ⟨rfl, -⟩ := Prod.mk.inj (Except.ok.inj (ht.symm.trans h))
  exact ⟨fun _ hlen => (hrep i).unwrites_iff hlen, fun x => (hrep i).appendUndone_iff x⟩

/-- The theorem on a buffer that holds three bytes. -/
theorem unwrite_exact_demo :
    ∃ s : Unit → Buffer, (∀ len, len ≤ (s ()).readableBytes → ((s ()).Unwrites len ↔ len = 0)) ∧
      (∀ x, (s ()).AppendUndone x ↔ x = []) ∧ (s ()).readable = [1, 2, 3] := by
  have h : ((run (new fun _ : Unit => 4) [.on () (.append [1, 2, 3])]).toOption.map fun r =>
      (r.1 ()).readable) = some [1, 2, 3] := by decide
  obtain ⟨⟨s, results⟩, hrun, hview⟩ := Option.map_eq_some_iff.1 h
  have hok : run (new fun _ : Unit => 4) [.on () (.append [1, 2, 3])] = .ok (s, results) := by
    generalize run (new fun _ : Unit => 4) [.on () (.append [1, 2, 3])] = r at hrun
    cases r with
    | error e => cases hrun
    | ok r => exact congrArg Except.ok (Option.some_inj.1 hrun)
  obtain ⟨hunwrites, hundone⟩ :=
    unwrite_exact (fun _ : Unit => 4) (by decide) hok ()
  exact ⟨s, hunwrites, hundone, hview⟩

/-- One byte is appended and taken back: two bytes are readable, the first one from the header.
With nine, the index wraps. -/
theorem exists_unwrite_wrong :
    (∃ b₁ b₂, (Buffer.empty 4).append [7] = .ok b₁ ∧ b₁.unwrite 1 = .ok b₂ ∧
      b₂.readable = [0, 7] ∧ ¬(Buffer.empty 4).AppendUndone [7]) ∧
    ∃ b₁ b₂, (Buffer.empty 16).append (List.replicate 9 7) = .ok b₁ ∧ b₁.unwrite 9 = .ok b₂ ∧
      b₂.writerIndex < b₂.readerIndex := by
  refine ⟨⟨_, _, rfl, rfl, by decide, ?_⟩, _, _, rfl, rfl, by decide⟩
  rw [(Buffer.represents_empty 4).appendUndone_iff]
  simp

end Store

end G5
