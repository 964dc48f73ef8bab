/-
**Buffers that grow, in every run.**

The calls of a buffer are taken in any order, on any number of buffers, with the growing functions
of `G5/Net/BufferGrowth.lean`; a call that throws leaves a buffer that is used again.  As long as
the sums of every call fit, the buffers stay well formed.

Main definitions:

* `Wrapping.Call`, `Wrapping.exec` — the calls on a buffer;
* `Wrapping.Call.Fits` — the condition on a call;
* `Wrapping.StoreCall`, `Wrapping.step` — the runs over a family of buffers.

Main results:

* `Wrapping.wellFormed_step` — a step keeps the buffers well formed;
* `Wrapping.growth_exact` — **the exact conditions**, for the buffers that any run reaches.
-/

import G5.Lib.Runs
import G5.Net.BufferGrowth
import G5.Net.BufferQueue

set_option relaxedAutoImplicit false
set_option autoImplicit false

namespace G5

open Region

namespace Wrapping

/-! ### The functions that do not grow the buffer -/

section

variable {maxSize : ℕ} {b : Buffer} {len : ℕ}

theorem WellFormed.retrieveAll (h : WellFormed maxSize b) : WellFormed maxSize b.retrieveAll where
  reader_le := le_refl _
  writer_le := le_trans h.header_le h.writer_le
  header_le := le_refl _
  length_le := h.length_le

theorem WellFormed.retrieve {b' : Buffer} (h : WellFormed maxSize b)
    (hb' : b.retrieve len = .ok b') : WellFormed maxSize b' := by
  obtain ⟨-, -, hb'⟩ := bind_eq_ok.1 hb'
  split_ifs at hb' with hlt
  · cases hb'
    refine ⟨?_, h.writer_le, h.header_le, h.length_le⟩
    rw [Buffer.readableBytes] at hlt
    simp only
    omega
  · cases hb'
    exact h.retrieveAll

theorem WellFormed.prepend {b' : Buffer} {data : List Byte} (h : WellFormed maxSize b)
    (hroom : data.length ≤ b.prependableBytes) (hb' : b.prepend data = .ok b') :
    WellFormed maxSize b' := by
  have hr := h.reader_le
  have hw := h.writer_le
  rw [Buffer.prepend, assertThat_pos hroom, ok_bind] at hb'
  rw [Buffer.prependableBytes] at hroom
  cases hb'
  have hlength : (overwrite b.buffer (b.readerIndex - data.length) data).length =
      b.buffer.length := length_overwrite (by omega)
  refine ⟨?_, ?_, h.header_le, ?_⟩
  · exact le_trans (Nat.sub_le _ _) hr
  · exact hw.trans_eq hlength.symm
  · exact hlength.trans_le h.length_le

theorem WellFormed.hasWritten {b' : Buffer} {data : List Byte} (h : WellFormed maxSize b)
    (hroom : data.length ≤ b.writableBytes)
    (hb' : (b.store b.beginWrite data).hasWritten data.length = .ok b') :
    WellFormed maxSize b' := by
  have hw := h.writer_le
  have hfit : b.writerIndex + data.length ≤ b.buffer.length := by
    rw [Buffer.writableBytes] at hroom
    omega
  have hlength : (b.store b.beginWrite data).buffer.length = b.buffer.length :=
    length_overwrite hfit
  obtain ⟨-, -, hb'⟩ := bind_eq_ok.1 hb'
  cases hb'
  refine ⟨?_, ?_, ?_, ?_⟩
  · exact le_trans h.reader_le (Nat.le_add_right _ _)
  · exact hfit.trans_eq hlength.symm
  · exact le_trans h.header_le (Nat.le_add_right _ _)
  · exact hlength.trans_le h.length_le

/-- Taking bytes back, without going below the beginning of the vector. -/
theorem WellFormed.unwrite {b' : Buffer} (h : WellFormed maxSize b)
    (hlen : len ≤ b.prependableBytes) (hb' : b.unwrite len = .ok b') : WellFormed maxSize b' := by
  obtain ⟨-, -, hb'⟩ := bind_eq_ok.1 hb'
  cases hb'
  refine ⟨?_, h.writer_le, h.header_le, h.length_le⟩
  have hsub : Buffer.sizeSub b.readerIndex len = b.readerIndex - len := if_pos hlen
  simp only [hsub]
  exact le_trans (Nat.sub_le _ _) h.reader_le

theorem WellFormed.retrieveAsString {b' : Buffer} {data : List Byte} (h : WellFormed maxSize b)
    (hb' : b.retrieveAsString len = .ok (data, b')) : WellFormed maxSize b' := by
  obtain ⟨-, -, hb'⟩ := bind_eq_ok.1 hb'
  obtain ⟨b₁, hb₁, heq⟩ := bind_eq_ok.1 hb'
  cases heq
  exact h.retrieve hb₁

theorem WellFormed.readInt {b' : Buffer} {n : ℕ} {x : BitVec (8 * n)} (h : WellFormed maxSize b)
    (hb' : b.readInt n = .ok (x, b')) : WellFormed maxSize b' := by
  obtain ⟨y, -, hb'⟩ := bind_eq_ok.1 hb'
  obtain ⟨b₁, hb₁, heq⟩ := bind_eq_ok.1 hb'
  cases heq
  exact h.retrieve hb₁

theorem WellFormed.prependInt {b' : Buffer} {n : ℕ} {x : BitVec (8 * n)} (h : WellFormed maxSize b)
    (hn : n ≤ b.prependableBytes) (hb' : b.prependInt n x = .ok b') : WellFormed maxSize b' :=
  h.prepend (by simpa using hn) hb'

end

/-- The calls that may grow the buffer. -/
def growing : BufferOp → Bool
  | .append _ | .ensureWritableBytes _ | .shrink _ => true
  | _ => false

section

variable {maxSize : ℕ} {b b' : Buffer}

/-- A call without a result has returned the buffer. -/
theorem eq_ok_of_none {x : Checked Buffer} {r r' : BufferResult}
    (h : (x >>= fun b => pure (b, r)) = .ok (b', r')) : x = .ok b' := by
  obtain ⟨b₁, hb₁, heq⟩ := bind_eq_ok.1 h
  cases heq
  exact hb₁

/-- A call with a result has returned both. -/
theorem exists_eq_ok_of_some {α : Type} {x : Checked (α × Buffer)} {f : α → BufferResult}
    {r : BufferResult} (h : (x >>= fun y => pure (y.2, f y.1)) = .ok (b', r)) :
    ∃ y, x = .ok (y, b') := by
  obtain ⟨⟨y, b₁⟩, hb₁, heq⟩ := bind_eq_ok.1 h
  cases heq
  exact ⟨y, hb₁⟩

/-- The other calls keep the vector. -/
theorem WellFormed.exec {op : BufferOp} {r : BufferResult} (h : WellFormed maxSize b)
    (hop : growing op = false) (hpre : b.Pre op) (hb' : b.exec op = .ok (b', r)) :
    WellFormed maxSize b' := by
  have hread : ∀ (n : ℕ) (f : BitVec (8 * n) → BufferResult),
      (b.readInt n >>= fun y => pure (y.2, f y.1)) = .ok (b', r) → WellFormed maxSize b' := by
    intro n f hrun
    obtain ⟨x, hx⟩ := exists_eq_ok_of_some hrun
    exact h.readInt hx
  cases op with
  | append data => cases hop
  | ensureWritableBytes len => cases hop
  | shrink reserve => cases hop
  | hasWritten data => exact h.hasWritten hpre (eq_ok_of_none hb')
  | retrieve len => exact h.retrieve (eq_ok_of_none hb')
  | retrieveUntil n =>
      obtain ⟨-, -, hchecked⟩ := bind_eq_ok.1 (eq_ok_of_none hb')
      obtain ⟨-, -, hretrieve⟩ := bind_eq_ok.1 hchecked
      exact h.retrieve hretrieve
  | retrieveAll =>
      cases hb'
      exact h.retrieveAll
  | retrieveAsString len =>
      obtain ⟨data, hdata⟩ := exists_eq_ok_of_some (f := .string) hb'
      exact h.retrieveAsString hdata
  | readInt64 => exact hread 8 .int64 hb'
  | readInt32 => exact hread 4 .int32 hb'
  | readInt16 => exact hread 2 .int16 hb'
  | readInt8 => exact hread 1 .int8 hb'
  | prepend data => exact h.prepend hpre (eq_ok_of_none hb')
  | prependInt64 x => exact h.prependInt hpre (eq_ok_of_none hb')
  | prependInt32 x => exact h.prependInt hpre (eq_ok_of_none hb')
  | prependInt16 x => exact h.prependInt hpre (eq_ok_of_none hb')
  | prependInt8 x => exact h.prependInt hpre (eq_ok_of_none hb')

end

/-! ### The runs -/

/-- A call on a buffer: one of the operations of a queue, or `unwrite`. -/
inductive Call
  | op (op : BufferOp)
  | unwrite (len : ℕ)

/-- The call; what it asserts of its argument is checked, or was to be checked by the caller. -/
def exec (maxSize : ℕ) (b : Buffer) : Call → Outcome
  | .op (.append data) => append maxSize b data
  | .op (.ensureWritableBytes len) => ensureWritableBytes maxSize b len
  | .op (.shrink reserve) => shrink maxSize b reserve
  | .op op =>
      if b.Pre op then .ofChecked ((b.exec op).map Prod.fst) else .failed .assertion
  | .unwrite len => .ofChecked (b.unwrite len)

/-- The buffer after the call, if there is a program still. -/
def Outcome.after : Outcome → Option Buffer
  | .returned b => some b
  | .thrown b => some b
  | .failed _ => none

/-- The condition on a call: growing fits, and nothing is taken back that is not there. -/
def Call.Fits (maxSize : ℕ) (b : Buffer) : Call → Prop
  | .op (.append data) => Suffices b data.length
  | .op (.ensureWritableBytes len) => Suffices b len
  | .op (.shrink reserve) => ShrinkFits maxSize b reserve
  | .op _ => True
  | .unwrite len => len ≤ b.prependableBytes

instance (maxSize : ℕ) (b : Buffer) (call : Call) : Decidable (call.Fits maxSize b) := by
  unfold Call.Fits
  split <;> infer_instance

/-- A call on one of the buffers, or a swap or a copy of two of them. -/
inductive StoreCall (ι : Type)
  | on (i : ι) (call : Call)
  | swap (i j : ι)
  | copy (i j : ι)

def StoreCall.Fits {ι : Type} (maxSize : ℕ) (s : ι → Buffer) : StoreCall ι → Prop
  | .on i call => call.Fits maxSize (s i)
  | _ => True

instance {ι : Type} (maxSize : ℕ) (s : ι → Buffer) (call : StoreCall ι) :
    Decidable (call.Fits maxSize s) := by
  unfold StoreCall.Fits
  split <;> infer_instance

def step {ι : Type} [DecidableEq ι] (maxSize : ℕ) (s : ι → Buffer) :
    StoreCall ι → Option (ι → Buffer)
  | .on i call => (exec maxSize (s i) call).after.map (Function.update s i)
  | .swap i j => some (Function.update (Function.update s j (s i)) i (s j))
  | .copy i j => some (Function.update s i (s j))

section

variable {maxSize : ℕ} {b b' : Buffer}

theorem after_ofChecked {x : Checked Buffer} (h : (Outcome.ofChecked x).after = some b') :
    x = .ok b' := by
  cases x with
  | ok b₁ => exact congrArg Except.ok (Option.some_inj.1 h)
  | error e => cases h

/-- A call that throws without effect, or returns a well-formed buffer. -/
theorem Outcome.wellFormed_after {o : Outcome} (h : WellFormed maxSize b)
    (ho : o = .thrown b ∨ ∃ b₁, o = .returned b₁ ∧ WellFormed maxSize b₁)
    (hb' : o.after = some b') : WellFormed maxSize b' := by
  rcases ho with rfl | ⟨b₁, rfl, h₁⟩
  · cases hb'
    exact h
  · cases hb'
    exact h₁

theorem append_spec (hmax : VectorLimit maxSize) (h : WellFormed maxSize b) {data : List Byte}
    (hfit : Suffices b data.length) :
    append maxSize b data = .thrown b ∨
      ∃ b₁, append maxSize b data = .returned b₁ ∧ WellFormed maxSize b₁ := by
  rcases ensureWritableBytes_spec hmax h hfit with ⟨-, hthrown⟩ | ⟨b₁, hb₁, -, h₁, -, hroom⟩
  · rw [append, hthrown]
    exact Or.inl rfl
  · obtain ⟨b₂, hb₂, h₂, -, -, -⟩ := append_of_room hmax h₁ hroom
    rw [append, ensureWritableBytes_of_room h₁ hroom] at hb₂
    rw [append, hb₁]
    exact Or.inr ⟨b₂, hb₂, h₂⟩

/-- **One call**: where the condition holds, the buffer stays well formed. -/
theorem wellFormed_exec (hmax : VectorLimit maxSize) (h : WellFormed maxSize b) {call : Call}
    (hfits : call.Fits maxSize b) (hb' : (exec maxSize b call).after = some b') :
    WellFormed maxSize b' := by
  cases call with
  | unwrite len => exact h.unwrite hfits (after_ofChecked hb')
  | op op =>
      cases hop : growing op with
      | false =>
          have hexec : exec maxSize b (.op op) =
              if b.Pre op then .ofChecked ((b.exec op).map Prod.fst) else .failed .assertion := by
            cases op with
            | append data => cases hop
            | ensureWritableBytes len => cases hop
            | shrink reserve => cases hop
            | _ => rfl
          rw [hexec] at hb'
          split_ifs at hb' with hpre
          · have hmap := after_ofChecked hb'
            cases hrun : b.exec op with
            | error e =>
                rw [hrun] at hmap
                cases hmap
            | ok r =>
                rw [hrun] at hmap
                cases hmap
                exact h.exec hop hpre hrun
          · cases hb'
      | true =>
          cases op with
          | append data => exact Outcome.wellFormed_after h (append_spec hmax h hfits) hb'
          | ensureWritableBytes len =>
              rcases ensureWritableBytes_spec hmax h hfits with
                ⟨-, hthrown⟩ | ⟨b₁, hb₁, -, h₁, -, -⟩
              · exact Outcome.wellFormed_after h (Or.inl hthrown) hb'
              · exact Outcome.wellFormed_after h (Or.inr ⟨b₁, hb₁, h₁⟩) hb'
          | shrink reserve =>
              rcases shrink_spec hmax h hfits with hthrown | ⟨b₁, hb₁, h₁, -, -⟩
              · exact Outcome.wellFormed_after h (Or.inl hthrown) hb'
              · exact Outcome.wellFormed_after h (Or.inr ⟨b₁, hb₁, h₁⟩) hb'
          | _ => cases hop

variable {ι : Type} [DecidableEq ι]

/-- One of the buffers is another one, and well formed as well. -/
theorem wellFormed_update {s : ι → Buffer} (h : ∀ i, WellFormed maxSize (s i)) (i : ι)
    (hb : WellFormed maxSize b) : ∀ k, WellFormed maxSize (Function.update s i b k) :=
  (Function.forall_update_iff s fun _ b => WellFormed maxSize b).2 ⟨hb, fun k _ => h k⟩

/-- **One step** keeps the buffers well formed. -/
theorem wellFormed_step (hmax : VectorLimit maxSize) {s t : ι → Buffer} {call : StoreCall ι}
    (h : ∀ i, WellFormed maxSize (s i)) (ht : step maxSize s call = some t)
    (hfits : call.Fits maxSize s) : ∀ i, WellFormed maxSize (t i) := by
  cases call with
  | on i call =>
      obtain ⟨b₁, hb₁, rfl⟩ := Option.map_eq_some_iff.1 ht
      exact wellFormed_update h i (wellFormed_exec hmax (h i) hfits hb₁)
  | swap i j =>
      cases ht
      exact wellFormed_update (wellFormed_update h j (h i)) i (h j)
  | copy i j =>
      cases ht
      exact wellFormed_update h i (h j)

/-- **Growing, exactly.**  For every buffer reached from constructed ones by calls whose sums fit,
`ensureWritableBytes(len)` throws without effect, or keeps the readable bytes and makes room for
`len` bytes, if and only if what is asked for fits in 64 bits or the data can be slid down; and
`shrink(reserve)` does so if and only if its sum does not wrap, or throws all the same. -/
theorem growth_exact (hmax : VectorLimit maxSize) (sizes : ι → ℕ) {s₀ s : ι → Buffer}
    (hnew : ∀ i, new maxSize (sizes i) = .ok (some (s₀ i)))
    (hsizes : ∀ i, kCheapPrepend + sizes i < 2 ^ 64) {calls : List (StoreCall ι)}
    (h : Runs.exec (step maxSize) s₀ calls = some s)
    (hfits : Runs.EveryStep (step maxSize) (fun s call => call.Fits maxSize s) s₀ calls) (i : ι) :
    (∀ len, len < 2 ^ 64 → (EnsureSafe maxSize (s i) len ↔ Suffices (s i) len)) ∧
      ∀ reserve, reserve < 2 ^ 64 →
        (ShrinkSafe maxSize (s i) reserve ↔ ShrinkFits maxSize (s i) reserve) := by
  have hinit : ∀ i, WellFormed maxSize (s₀ i) := fun i => wellFormed_new hmax (hsizes i) (hnew i)
  have hevery : Runs.EveryState (step maxSize) (fun s => ∀ i, WellFormed maxSize (s i)) s₀ calls :=
    Runs.EveryStep.everyState (fun s call t hs hst hcall => wellFormed_step hmax hs hst hcall)
      hinit h hfits
  have hwf := hevery.last h i
  exact ⟨fun len hlen => ensureSafe_iff hmax hwf hlen,
    fun reserve hreserve => shrinkSafe_iff hmax hwf hreserve⟩

end

/-- The greatest size of a vector of characters: the greatest `ptrdiff_t`. -/
theorem vectorLimit_demo : VectorLimit (2 ^ 63 - 1) := ⟨by decide, by decide⟩

/-- A buffer of four bytes: three are appended, and one more than fits is asked for. -/
def demoCalls : List (StoreCall Unit) :=
  [.on () (.op (.append [1, 2, 3])), .on () (.op (.ensureWritableBytes 2)),
    .on () (.op (.retrieve 1))]

theorem growth_exact_demoCalls :
    ∃ s : Unit → Buffer,
      Runs.exec (step (2 ^ 63 - 1)) (fun _ => Buffer.empty 4) demoCalls = some s ∧
      (∀ len, len < 2 ^ 64 → (EnsureSafe (2 ^ 63 - 1) (s ()) len ↔ Suffices (s ()) len)) ∧
      ∀ reserve, reserve < 2 ^ 64 →
        (ShrinkSafe (2 ^ 63 - 1) (s ()) reserve ↔ ShrinkFits (2 ^ 63 - 1) (s ()) reserve) := by
  have hfits : Runs.EveryStep (step (2 ^ 63 - 1)) (fun s call => call.Fits (2 ^ 63 - 1) s)
      (fun _ => Buffer.empty 4) demoCalls := Runs.everyStep_of_checkSteps (by decide)
  have hrun :
      (Runs.exec (step (2 ^ 63 - 1)) (fun _ => Buffer.empty 4) demoCalls).isSome = true := by
    decide
  obtain ⟨s, hs⟩ := Option.isSome_iff_exists.1 hrun
  exact ⟨s, hs, growth_exact vectorLimit_demo (fun _ => 4)
    (fun _ => new_eq vectorLimit_demo (by decide)) (fun _ => by decide) hs hfits ()⟩

/-- In a new buffer, `ensureWritableBytes(2⁶⁴ - 1)` fails an assertion.  With eight bytes in it,
`ensureWritableBytes(2⁶⁴ - 9)` returns, with a vector of seven bytes and `writerIndex_` at sixteen.
With one byte in it, `shrink(2⁶⁴ - 1)` does not reserve anything. -/
theorem exists_growth_wrong :
    (new (2 ^ 63 - 1) kInitialSize = .ok (some (Buffer.empty kInitialSize)) ∧
      ensureWritableBytes (2 ^ 63 - 1) (Buffer.empty kInitialSize) (2 ^ 64 - 1) =
        .failed .assertion ∧
      ¬EnsureSafe (2 ^ 63 - 1) (Buffer.empty kInitialSize) (2 ^ 64 - 1)) ∧
    (∃ b b', append (2 ^ 63 - 1) (Buffer.empty 8) [1, 2, 3, 4, 5, 6, 7, 8] = .returned b ∧
      ensureWritableBytes (2 ^ 63 - 1) b (2 ^ 64 - 9) = .returned b' ∧
      b'.buffer.length = 7 ∧ b'.writerIndex = 16) ∧
    ∃ b, append (2 ^ 63 - 1) (Buffer.empty 8) [1] = .returned b ∧
      ¬ShrinkSafe (2 ^ 63 - 1) b (2 ^ 64 - 1) := by
  have hnew : kCheapPrepend + kInitialSize ≤ 2 ^ 63 - 1 := by decide
  have hwf := wellFormed_empty hnew
  have hwritable : (Buffer.empty kInitialSize).writableBytes = 1024 := by
    simp [Buffer.writableBytes, Buffer.empty, kInitialSize]
  have hnot : ¬Suffices (Buffer.empty kInitialSize) (2 ^ 64 - 1) := by
    rw [Suffices, hwritable]
    decide
  refine ⟨⟨new_eq vectorLimit_demo hnew, ?_, ?_⟩, ⟨_, _, rfl, rfl, rfl, rfl⟩, _, rfl, ?_⟩
  · have hfailed : makeSpace (2 ^ 63 - 1) (Buffer.empty kInitialSize) (2 ^ 64 - 1) =
        .failed .assertion :=
      makeSpace_of_header_wraps vectorLimit_demo hwf (by decide) (by rw [hwritable]; decide)
    rw [ensureWritableBytes, hwf.writableBytes_eq, hwritable, if_pos (by decide), hfailed]
    rfl
  · intro hsafe
    exact hnot ((ensureSafe_iff vectorLimit_demo hwf (by decide)).1 hsafe)
  · intro hsafe
    have h : WellFormed (2 ^ 63 - 1) ⟨[0, 0, 0, 0, 0, 0, 0, 0, 1, 0, 0, 0, 0, 0, 0, 0], 8, 9⟩ :=
      ⟨by decide, by decide, by decide, by decide⟩
    exact absurd ((shrinkSafe_iff vectorLimit_demo h (by decide)).1 hsafe) (by decide)

end Wrapping

end G5
