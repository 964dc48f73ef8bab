/-
**A buffer is a byte queue.**

`G5/Net/Buffer.lean` has the functions of the class and what each of them does.  Here they are
taken in any order, on any number of buffers: the abstract object is a byte sequence on which
`append` adds at the back, `prepend` adds at the front, the retrieving functions drop from the
front, and the functions that only move memory change nothing.

Main definitions:

* `Queue.exec` — the abstract operations;
* `Buffer.exec`, `Buffer.Pre` — the operations on a buffer, and what each of them asserts;
* `Store.run`, `Store.Permitted` — runs over a family of buffers, with `swap` between two of them.

Main results:

* `Buffer.exec_refines` — one operation refines its abstract one;
* `Store.run_refines` — **every run refines the abstract run**: no assertion fails, the indices
  stay in order, and the results and the readable bytes are those of the abstract queues.
-/

import G5.Net.Buffer
import Mathlib.Logic.Function.Basic

set_option relaxedAutoImplicit false
set_option autoImplicit false

namespace G5

/-! ### Operations -/

/-- A call on a buffer. -/
inductive BufferOp
  | append (data : List Byte)
  | ensureWritableBytes (len : ℕ)
  /-- the caller has stored `data` at `beginWrite()` -/
  | hasWritten (data : List Byte)
  | retrieve (len : ℕ)
  /-- the argument is the pointer `peek() + n` -/
  | retrieveUntil (n : ℕ)
  | retrieveAll
  | retrieveAsString (len : ℕ)
  | readInt64
  | readInt32
  | readInt16
  | readInt8
  | prepend (data : List Byte)
  | prependInt64 (x : BitVec 64)
  | prependInt32 (x : BitVec 32)
  | prependInt16 (x : BitVec 16)
  | prependInt8 (x : BitVec 8)
  | shrink (reserve : ℕ)
  deriving DecidableEq, Repr

/-- What a call returns. -/
inductive BufferResult
  | none
  | string (s : List Byte)
  | int64 (x : BitVec 64)
  | int32 (x : BitVec 32)
  | int16 (x : BitVec 16)
  | int8 (x : BitVec 8)
  deriving DecidableEq, Repr

/-- The calls that move `readerIndex` towards the front. -/
def BufferOp.isPrepend : BufferOp → Bool
  | prepend _ | prependInt64 _ | prependInt32 _ | prependInt16 _ | prependInt8 _ => true
  | _ => false

/-! ### The abstract queue -/

/-- The operations of a byte queue. -/
def Queue.exec (q : List Byte) : BufferOp → List Byte × BufferResult
  | .append data => (q ++ data, .none)
  | .ensureWritableBytes _ => (q, .none)
  | .hasWritten data => (q ++ data, .none)
  | .retrieve len => (q.drop len, .none)
  | .retrieveUntil n => (q.drop n, .none)
  | .retrieveAll => ([], .none)
  | .retrieveAsString len => (q.drop len, .string (q.take len))
  | .readInt64 => (q.drop 8, .int64 (LittleEndian.decode 8 (q.take 8)))
  | .readInt32 => (q.drop 4, .int32 (LittleEndian.decode 4 (q.take 4)))
  | .readInt16 => (q.drop 2, .int16 (LittleEndian.decode 2 (q.take 2)))
  | .readInt8 => (q.drop 1, .int8 (LittleEndian.decode 1 (q.take 1)))
  | .prepend data => (data ++ q, .none)
  | .prependInt64 x => (LittleEndian.encode 8 x ++ q, .none)
  | .prependInt32 x => (LittleEndian.encode 4 x ++ q, .none)
  | .prependInt16 x => (LittleEndian.encode 2 x ++ q, .none)
  | .prependInt8 x => (LittleEndian.encode 1 x ++ q, .none)
  | .shrink _ => (q, .none)

namespace Buffer

/-! ### The operations on a buffer -/

/-- The call an operation stands for. -/
def exec (b : Buffer) : BufferOp → Checked (Buffer × BufferResult)
  | .append data => do return (← b.append data, .none)
  | .ensureWritableBytes len => do return (← b.ensureWritableBytes len, .none)
  | .hasWritten data => do
      return (← (b.store b.beginWrite data).hasWritten data.length, .none)
  | .retrieve len => do return (← b.retrieve len, .none)
  | .retrieveUntil n => do return (← b.retrieveUntil (b.peek + n), .none)
  | .retrieveAll => return (b.retrieveAll, .none)
  | .retrieveAsString len => do
      let (s, b) ← b.retrieveAsString len
      return (b, .string s)
  | .readInt64 => do
      let (x, b) ← b.readInt64
      return (b, .int64 x)
  | .readInt32 => do
      let (x, b) ← b.readInt32
      return (b, .int32 x)
  | .readInt16 => do
      let (x, b) ← b.readInt16
      return (b, .int16 x)
  | .readInt8 => do
      let (x, b) ← b.readInt8
      return (b, .int8 x)
  | .prepend data => do return (← b.prepend data, .none)
  | .prependInt64 x => do return (← b.prependInt64 x, .none)
  | .prependInt32 x => do return (← b.prependInt32 x, .none)
  | .prependInt16 x => do return (← b.prependInt16 x, .none)
  | .prependInt8 x => do return (← b.prependInt8 x, .none)
  | .shrink reserve => do return (← b.shrink reserve, .none)

/-- What the called function asserts of its argument. -/
def Pre (b : Buffer) : BufferOp → Prop
  | .hasWritten data => data.length ≤ b.writableBytes
  | .retrieve len => len ≤ b.readableBytes
  | .retrieveUntil n => b.peek + n ≤ b.beginWrite
  | .retrieveAsString len => len ≤ b.readableBytes
  | .readInt64 => 8 ≤ b.readableBytes
  | .readInt32 => 4 ≤ b.readableBytes
  | .readInt16 => 2 ≤ b.readableBytes
  | .readInt8 => 1 ≤ b.readableBytes
  | .prepend data => data.length ≤ b.prependableBytes
  | .prependInt64 _ => 8 ≤ b.prependableBytes
  | .prependInt32 _ => 4 ≤ b.prependableBytes
  | .prependInt16 _ => 2 ≤ b.prependableBytes
  | .prependInt8 _ => 1 ≤ b.prependableBytes
  | _ => True

instance (b : Buffer) (op : BufferOp) : Decidable (b.Pre op) := by
  cases op <;> unfold Pre <;> infer_instance

/-- **One operation refines its abstract one.** -/
theorem exec_refines {b : Buffer} {q : List Byte} (h : b.Represents q) {op : BufferOp}
    (hpre : b.Pre op) :
    ∃ b', b.exec op = .ok (b', (Queue.exec q op).2) ∧ b'.Represents (Queue.exec q op).1 ∧
      (op.isPrepend = false → b.HeaderFree → b'.HeaderFree) := by
  have hlen := h.readableBytes_eq
  -- reading an integer of `n` bytes, whatever constructor carries the result
  have hread : ∀ n, n ≤ b.readableBytes → ∃ b',
      b.readInt n = .ok (LittleEndian.decode n (q.take n), b') ∧ b'.Represents (q.drop n) ∧
        (b.HeaderFree → b'.HeaderFree) :=
    fun n hn => readInt_spec h (by omega)
  -- and prepending one
  have hprepend : ∀ n (x : BitVec (8 * n)), n ≤ b.prependableBytes → ∃ b',
      b.prependInt n x = .ok b' ∧ b'.Represents (LittleEndian.encode n x ++ q) :=
    fun n x hn => prepend_spec h (LittleEndian.encode n x) (by simpa using hn)
  cases op with
  | append data =>
      obtain ⟨b', hb', hrep, hfree⟩ := append_spec h data
      exact ⟨b', by rw [exec, hb']; rfl, hrep, fun _ => hfree⟩
  | ensureWritableBytes len =>
      obtain ⟨b', hb', hrep, -, hfree⟩ := ensureWritableBytes_spec h len
      exact ⟨b', by rw [exec, hb']; rfl, hrep, fun _ => hfree⟩
  | hasWritten data =>
      obtain ⟨b', hb', hrep, hfree⟩ := store_hasWritten_spec h hpre
      exact ⟨b', by rw [exec, hb']; rfl, hrep, fun _ => hfree⟩
  | retrieve len =>
      obtain ⟨b', hb', hrep, hfree⟩ := retrieve_spec (n := len) h (hlen ▸ hpre)
      exact ⟨b', by rw [exec, hb']; rfl, hrep, fun _ => hfree⟩
  | retrieveUntil n =>
      have hn : n ≤ q.length := by
        have : b.readerIndex + n ≤ b.writerIndex := hpre
        unfold readableBytes at hlen
        omega
      obtain ⟨b', hb', hrep, hfree⟩ := retrieveUntil_spec h hn
      exact ⟨b', by rw [exec, hb']; rfl, hrep, fun _ => hfree⟩
  | retrieveAll =>
      exact ⟨_, rfl, h.retrieveAll, fun _ _ => Nat.le_refl kCheapPrepend⟩
  | retrieveAsString len =>
      obtain ⟨b', hb', hrep, hfree⟩ := retrieveAsString_spec (n := len) h (hlen ▸ hpre)
      exact ⟨b', by rw [exec, hb']; rfl, hrep, fun _ => hfree⟩
  | readInt64 =>
      obtain ⟨b', hb', hrep, hfree⟩ := hread 8 hpre
      exact ⟨b', by rw [exec, readInt64, hb']; rfl, hrep, fun _ => hfree⟩
  | readInt32 =>
      obtain ⟨b', hb', hrep, hfree⟩ := hread 4 hpre
      exact ⟨b', by rw [exec, readInt32, hb']; rfl, hrep, fun _ => hfree⟩
  | readInt16 =>
      obtain ⟨b', hb', hrep, hfree⟩ := hread 2 hpre
      exact ⟨b', by rw [exec, readInt16, hb']; rfl, hrep, fun _ => hfree⟩
  | readInt8 =>
      obtain ⟨b', hb', hrep, hfree⟩ := hread 1 hpre
      exact ⟨b', by rw [exec, readInt8, hb']; rfl, hrep, fun _ => hfree⟩
  | prepend data =>
      obtain ⟨b', hb', hrep⟩ := prepend_spec h data hpre
      exact ⟨b', by rw [exec, hb']; rfl, hrep, nofun⟩
  | prependInt64 x =>
      obtain ⟨b', hb', hrep⟩ := hprepend 8 x hpre
      exact ⟨b', by rw [exec, prependInt64, hb']; rfl, hrep, nofun⟩
  | prependInt32 x =>
      obtain ⟨b', hb', hrep⟩ := hprepend 4 x hpre
      exact ⟨b', by rw [exec, prependInt32, hb']; rfl, hrep, nofun⟩
  | prependInt16 x =>
      obtain ⟨b', hb', hrep⟩ := hprepend 2 x hpre
      exact ⟨b', by rw [exec, prependInt16, hb']; rfl, hrep, nofun⟩
  | prependInt8 x =>
      obtain ⟨b', hb', hrep⟩ := hprepend 1 x hpre
      exact ⟨b', by rw [exec, prependInt8, hb']; rfl, hrep, nofun⟩
  | shrink reserve =>
      obtain ⟨b', hb', hrep, hfree⟩ := shrink_spec h reserve
      exact ⟨b', by rw [exec, hb']; rfl, hrep, fun _ _ => hfree⟩

end Buffer

/-! ### Runs over a family of buffers -/

/-- A call on one of the buffers, or a swap of two of them. -/
inductive StoreOp (ι : Type)
  | on (i : ι) (op : BufferOp)
  | swap (i j : ι)

def StoreOp.isPrepend {ι : Type} : StoreOp ι → Bool
  | on _ op => op.isPrepend
  | swap _ _ => false

/-- The call meets the assertions on its argument. -/
def StoreOp.Pre {ι : Type} (s : ι → Buffer) : StoreOp ι → Prop
  | on i op => (s i).Pre op
  | swap _ _ => True

instance {ι : Type} (s : ι → Buffer) (op : StoreOp ι) : Decidable (op.Pre s) := by
  cases op <;> unfold StoreOp.Pre <;> infer_instance

namespace Store

variable {ι : Type} [DecidableEq ι]

/-- The buffers as their constructor leaves them. -/
def new (sizes : ι → ℕ) : ι → Buffer := fun i => Buffer.empty (sizes i)

def step (s : ι → Buffer) : StoreOp ι → Checked ((ι → Buffer) × BufferResult)
  | .on i op => do
      let (b, r) ← (s i).exec op
      return (Function.update s i b, r)
  | .swap i j =>
      let (bi, bj) := (s i).swap (s j)
      .ok (Function.update (Function.update s j bj) i bi, .none)

/-- The state a sequence of calls leads to, and what the calls return. -/
def run (s : ι → Buffer) : List (StoreOp ι) → Checked ((ι → Buffer) × List BufferResult)
  | [] => .ok (s, [])
  | op :: ops => do
      let (s, r) ← step s op
      let (s, rs) ← run s ops
      return (s, r :: rs)

/-- Every call of the sequence meets the assertions on its argument in the state it is made in. -/
def Permitted (s : ι → Buffer) : List (StoreOp ι) → Prop
  | [] => True
  | op :: ops => op.Pre s ∧ ∀ t r, step s op = .ok (t, r) → Permitted t ops

instance Permitted.decidable (s : ι → Buffer) :
    ∀ ops : List (StoreOp ι), Decidable (Permitted s ops)
  | [] => .isTrue trivial
  | op :: ops =>
      match hstep : step s op with
      | .error _ =>
          decidable_of_iff (op.Pre s)
            ⟨fun h => ⟨h, fun _ _ ht => by simp [hstep] at ht⟩, fun h => h.1⟩
      | .ok (t, r) =>
          have := Permitted.decidable t ops
          decidable_of_iff (op.Pre s ∧ Permitted t ops)
            ⟨fun h => ⟨h.1, fun _ _ ht => by
              rw [hstep] at ht
              cases ht
              exact h.2⟩, fun h => ⟨h.1, h.2 t r hstep⟩⟩

/-- The calls on abstract queues. -/
def specStep (q : ι → List Byte) : StoreOp ι → (ι → List Byte) × BufferResult
  | .on i op => (Function.update q i (Queue.exec (q i) op).1, (Queue.exec (q i) op).2)
  | .swap i j => (Function.update (Function.update q j (q i)) i (q j), .none)

/-- A sequence of calls on abstract queues. -/
def specRun (q : ι → List Byte) : List (StoreOp ι) → (ι → List Byte) × List BufferResult
  | [] => (q, [])
  | op :: ops =>
      let (q, r) := specStep q op
      let (q, rs) := specRun q ops
      (q, r :: rs)

/-- Every buffer represents its queue. -/
def Represents (s : ι → Buffer) (q : ι → List Byte) : Prop := ∀ i, (s i).Represents (q i)

/-- A sequence of calls that contains no `prepend`. -/
def NoPrepend (ops : List (StoreOp ι)) : Prop := ∀ op ∈ ops, op.isPrepend = false

theorem step_refines {s : ι → Buffer} {q : ι → List Byte} (h : Represents s q) {op : StoreOp ι}
    (hpre : op.Pre s) :
    ∃ t, step s op = .ok (t, (specStep q op).2) ∧ Represents t (specStep q op).1 ∧
      (op.isPrepend = false → (∀ i, (s i).HeaderFree) → ∀ i, (t i).HeaderFree) := by
  cases op with
  | on i op =>
      obtain ⟨b', hb', hrep, hfree⟩ := Buffer.exec_refines (h i) hpre
      refine ⟨Function.update s i b', by rw [step, hb']; rfl, ?_, ?_⟩
      · intro j
        by_cases hj : j = i
        · subst hj
          simpa [specStep] using hrep
        · simpa [specStep, Function.update_of_ne hj] using h j
      · intro hnp hf j
        by_cases hj : j = i
        · subst hj
          simpa using hfree hnp (hf j)
        · simpa [Function.update_of_ne hj] using hf j
  | swap i j =>
      refine ⟨_, rfl, ?_, ?_⟩
      · intro k
        by_cases hi : k = i
        · subst hi
          simpa [specStep, Buffer.swap] using h j
        · by_cases hj : k = j
          · subst hj
            simpa [specStep, Buffer.swap, Function.update_of_ne hi] using h i
          · simpa [specStep, Buffer.swap, Function.update_of_ne hi, Function.update_of_ne hj]
              using h k
      · intro _ hf k
        by_cases hi : k = i
        · subst hi
          simpa [Buffer.swap] using hf j
        · by_cases hj : k = j
          · subst hj
            simpa [Buffer.swap, Function.update_of_ne hi] using hf i
          · simpa [Buffer.swap, Function.update_of_ne hi, Function.update_of_ne hj] using hf k

/-- A run from buffers that represent their queues. -/
theorem run_refines_of_represents {s : ι → Buffer} {q : ι → List Byte} (h : Represents s q)
    {ops : List (StoreOp ι)} (hpre : Permitted s ops) :
    ∃ t, run s ops = .ok (t, (specRun q ops).2) ∧ Represents t (specRun q ops).1 ∧
      (NoPrepend ops → (∀ i, (s i).HeaderFree) → ∀ i, (t i).HeaderFree) := by
  induction ops generalizing s q with
  | nil => exact ⟨s, rfl, h, fun _ hf => hf⟩
  | cons op ops ih =>
      obtain ⟨hop, hops⟩ := hpre
      obtain ⟨t, ht, hrep, hfree⟩ := step_refines h hop
      obtain ⟨u, hu, hrep', hfree'⟩ := ih hrep (hops _ _ ht)
      refine ⟨u, by rw [run, ht, ok_bind]; simp only [hu, ok_bind]; rfl, hrep', ?_⟩
      intro hnp hf
      exact hfree' (fun o ho => hnp o (List.mem_cons_of_mem op ho))
        (hfree (hnp op (List.mem_cons_self ..)) hf)

/-- **Every run of the buffers refines the run of the queues.**  From freshly constructed buffers,
a sequence of calls that respects the assertions on the arguments fails no assertion, leaves every
buffer with its indices in order, and returns and holds exactly what the abstract queues return
and hold; without a `prepend`, the eight bytes in front of the data stay free. -/
theorem run_refines (sizes : ι → ℕ) (ops : List (StoreOp ι))
    (hpre : Permitted (new sizes) ops) :
    (∀ i, Buffer.new (sizes i) = .ok (new sizes i)) ∧
      ∃ s, run (new sizes) ops = .ok (s, (specRun (fun _ => []) ops).2) ∧
        (∀ i, (s i).readerIndex ≤ (s i).writerIndex ∧
          (s i).writerIndex ≤ (s i).buffer.length) ∧
        (∀ i, (s i).readable = (specRun (fun _ => []) ops).1 i) ∧
        (NoPrepend ops → ∀ i, kCheapPrepend ≤ (s i).prependableBytes) := by
  have hinit : Represents (new sizes) (fun _ => []) := fun i => Buffer.represents_empty (sizes i)
  obtain ⟨s, hs, hrep, hfree⟩ := run_refines_of_represents hinit hpre
  refine ⟨fun i => Buffer.new_eq (sizes i), s, hs, ?_, ?_, ?_⟩
  · intro i
    exact ⟨(hrep i).reader_le, (hrep i).writer_le⟩
  · intro i
    exact (hrep i).readable_eq
  · intro hnp
    exact hfree hnp fun i => Buffer.headerFree_empty (sizes i)

/-- A run that slides the data down, prepends below the header, grows the vector and swaps. -/
def demoOps : List (StoreOp Bool) :=
  [.on true (.append [1, 2, 3, 4]), .on true (.retrieve 3), .on true (.append [5, 6]),
    .on true (.prependInt16 0x0201), .on true (.append [7, 8, 9, 10]), .swap true false,
    .on false .readInt32, .on false (.retrieveAsString 2)]

theorem run_refines_demoOps :
    (∀ i, Buffer.new ((fun _ : Bool => 4) i) = .ok (new (fun _ : Bool => 4) i)) ∧
      ∃ s, run (new fun _ : Bool => 4) demoOps =
          .ok (s, (specRun (fun _ => []) demoOps).2) ∧
        (∀ i, (s i).readerIndex ≤ (s i).writerIndex ∧
          (s i).writerIndex ≤ (s i).buffer.length) ∧
        (∀ i, (s i).readable = (specRun (fun _ => []) demoOps).1 i) ∧
        (NoPrepend demoOps → ∀ i, kCheapPrepend ≤ (s i).prependableBytes) :=
  run_refines (fun _ => 4) demoOps (by decide)

end Store

end G5
