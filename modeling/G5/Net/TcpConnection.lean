/-
**Connections** (`src/net/TcpConnection.cc`).

A connection reads into its input buffer, and writes through its output buffer: `send` writes to
the socket directly while the output buffer is empty, and whatever the kernel does not take waits
in the buffer for `handleWrite`, which runs while writing is enabled on the channel.

The results of `read` and `write` are arguments of the functions.  What a function asks of its
surroundings — the system calls, the event loop, the callbacks — is returned as a list of effects,
in the order in which it happens.  A function that throws has not changed the connection before
(`handleRead` apart), and the effects of a `send` that throws are those of its direct write.

Main definitions:

* `TcpConnection`, `Effect`, `ReadResult`;
* `TcpConnection.send`, `handleWrite`, `handleRead`, `connectEstablished`;
* `TcpConnection.WellFormed` — the buffers are well formed, and writing is enabled exactly while the
  output buffer holds something;
* `TcpConnection.KeepsUnsent` — a failed direct write leaves the message waiting.

Main results:

* `TcpConnection.send_int_cases`, `TcpConnection.handleWrite_cases` — what a call can do, said once;
* `TcpConnection.send_cases` — what `send` can do with a message shorter than `2 ^ 31` bytes;
* `TcpConnection.keeps_send`, `TcpConnection.keeps_handleWrite` — the connection stays well formed;
* `TcpConnection.not_keepsUnsent` — **no message is kept when the direct write fails**.
-/

import G5.Net.Buffer
import G5.Net.Channel

set_option relaxedAutoImplicit false
set_option autoImplicit false

namespace G5

/-- A connection; of a callback, only whether it is set. -/
structure TcpConnection where
  fd : ℕ
  channel : Channel
  inputBuf : Buffer
  outputBuf : Buffer
  connectionCallback : Bool
  messageCallback : Bool
  writeCompleteCallback : Bool
  deriving DecidableEq, Repr

/-- What a connection asks of its surroundings. -/
inductive Effect
  /-- a `write` on the descriptor, of which the kernel took these bytes -/
  | write (fd : ℕ) (accepted : List Byte)
  | close (fd : ℕ)
  /-- `loop_->update(&channel_)`, with the channel as it is then -/
  | update (channel : Channel)
  /-- `loop_->queueInLoop(std::bind(writeCompleteCallback_, …))`, and whether the bound callback
  is set -/
  | queueWriteComplete (set : Bool)
  | connectionCallback
  | messageCallback
  deriving DecidableEq, Repr

/-- The result of `read`. -/
inductive ReadResult
  | failed
  | eof
  | data (bytes : List Byte)
  deriving DecidableEq, Repr

namespace TcpConnection

/-! ### The functions -/

/-- The constructor. -/
def new (fd : ℕ) : TcpConnection where
  fd := fd
  channel := Channel.new fd
  inputBuf := Buffer.empty kInitialSize
  outputBuf := Buffer.empty kInitialSize
  connectionCallback := false
  messageCallback := false
  writeCompleteCallback := false

/-- `handleRead`, with the result of its `read` of at most 1024 bytes. -/
def handleRead (c : TcpConnection) : ReadResult → Checked (TcpConnection × List Effect)
  | .eof => .ok (c, [.close c.fd])
  | .failed => .ok (c, [])
  | .data bytes => do
      let inputBuf ← c.inputBuf.append bytes
      if c.messageCallback then
        return ({ c with inputBuf := inputBuf }, [.messageCallback])
      else
        throw .badFunctionCall

/-- `handleWrite`, with the result of its `write`. -/
def handleWrite (c : TcpConnection) (ret : ℤ) : Checked (TcpConnection × List Effect) :=
  if c.channel.isWriting then
    let wrote := Effect.write c.fd (c.outputBuf.readable.take ret.toNat)
    let nwrite := toInt32 ret
    if 0 < nwrite then do
      let outputBuf ← c.outputBuf.retrieve (toSizeT nwrite)
      if outputBuf.readableBytes ≤ 0 then
        let channel := c.channel.enableWriting false
        return ({ c with outputBuf := outputBuf, channel := channel },
          [wrote, .update channel, .queueWriteComplete c.writeCompleteCallback])
      else
        return ({ c with outputBuf := outputBuf }, [wrote])
    else
      .ok (c, [wrote])
  else
    .ok (c, [])

/-- The first half of `send`: the direct write, whose result is then converted to `int`. -/
def sendDirect (c : TcpConnection) (msg : List Byte) (ret : ℤ) : ℤ × List Effect :=
  if c.outputBuf.readableBytes ≤ 0 then
    let nwrite := toInt32 ret
    let wrote := Effect.write c.fd (msg.take ret.toNat)
    if nwrite = -1 then
      (nwrite, [wrote])
    else if nwrite = toInt32 msg.length ∧ c.writeCompleteCallback then
      (nwrite, [wrote, .queueWriteComplete c.writeCompleteCallback])
    else
      (nwrite, [wrote])
  else
    (0, [])

/-- `send`, with the result of its `write` if it makes one. -/
def send (c : TcpConnection) (msg : List Byte) (ret : ℤ) :
    Checked (TcpConnection × List Effect) :=
  let (nwrite, effects) := c.sendDirect msg ret
  if nwrite < toInt32 msg.length then do
    let rest ← substr msg (toSizeT nwrite) msg.length
    let outputBuf ← c.outputBuf.append rest
    if c.channel.isWriting then
      return ({ c with outputBuf := outputBuf }, effects)
    else
      let channel := c.channel.enableWriting true
      return ({ c with outputBuf := outputBuf, channel := channel }, effects ++ [.update channel])
  else
    .ok (c, effects)

def connectEstablished (c : TcpConnection) : Checked (TcpConnection × List Effect) :=
  let channel := c.channel.enableReading true
  if c.connectionCallback then
    .ok ({ c with channel := channel }, [.update channel, .connectionCallback])
  else
    .error .badFunctionCall

/-! ### What a call can do -/

/-- The buffers are well formed, and writing is enabled exactly while the output buffer holds
something. -/
structure WellFormed (c : TcpConnection) : Prop where
  channel_fd : c.channel.fd = c.fd
  input : c.inputBuf.Represents c.inputBuf.readable
  output : c.outputBuf.Represents c.outputBuf.readable
  writing : c.channel.isWriting = true ↔ c.outputBuf.readable ≠ []

theorem wellFormed_new (fd : ℕ) : (new fd).WellFormed where
  channel_fd := rfl
  input := (Buffer.represents_empty kInitialSize).self
  output := (Buffer.represents_empty kInitialSize).self
  writing := by
    have hempty : (Buffer.empty kInitialSize).readable = [] :=
      (Buffer.represents_empty kInitialSize).readable_eq
    simp [new, Channel.new, Channel.isWriting, hempty]

/-- The output buffer holds something, and afterwards something else. -/
theorem WellFormed.withOutput {c : TcpConnection} (h : c.WellFormed) {out : Buffer} {q : List Byte}
    (hrep : out.Represents q) (hq : c.outputBuf.readable ≠ []) (hne : q ≠ []) :
    ({ c with outputBuf := out } : TcpConnection).WellFormed where
  channel_fd := h.channel_fd
  input := h.input
  output := hrep.self
  writing := iff_of_true (h.writing.2 hq) (by rwa [hrep.readable_eq])

/-- The output buffer is replaced, and writing is enabled if it holds something. -/
theorem WellFormed.withWriting {c : TcpConnection} (h : c.WellFormed) {out : Buffer} {q : List Byte}
    (hrep : out.Represents q) {on : Bool} (hon : on = true ↔ q ≠ []) :
    ({ c with outputBuf := out, channel := c.channel.enableWriting on } :
      TcpConnection).WellFormed where
  channel_fd := by simpa using h.channel_fd
  input := h.input
  output := hrep.self
  writing := by simpa [hrep.readable_eq] using hon

/-- The outcomes of `send` for a message of any length, where the result of the direct write and the
length are compared as `int`s. -/
inductive IntOutcome (c : TcpConnection) (msg : List Byte) (ret : ℤ) :
    Checked (TcpConnection × List Effect) → Prop
  /-- the result is a position beyond the message, and `substr` throws -/
  | threw : c.outputBuf.readable = [] → toInt32 ret < toInt32 msg.length →
      msg.length < toSizeT (toInt32 ret) → IntOutcome c msg ret (.error .outOfRange)
  /-- the result is not less than the length, and nothing waits -/
  | all (queued : List Effect) : c.outputBuf.readable = [] →
      toInt32 msg.length ≤ toInt32 ret →
      queued = (if toInt32 ret ≠ -1 ∧ toInt32 ret = toInt32 msg.length ∧
        c.writeCompleteCallback then [.queueWriteComplete true] else []) →
      IntOutcome c msg ret (.ok (c, .write c.fd (msg.take ret.toNat) :: queued))
  /-- what stands behind the position waits in the buffer -/
  | short (out : Buffer) : c.outputBuf.readable = [] → toInt32 ret < toInt32 msg.length →
      toSizeT (toInt32 ret) < msg.length →
      out.Represents (msg.drop (toSizeT (toInt32 ret))) →
      IntOutcome c msg ret
        (.ok ({ c with outputBuf := out, channel := c.channel.enableWriting true },
          [.write c.fd (msg.take ret.toNat), .update (c.channel.enableWriting true)]))
  /-- something is waiting already, and the message waits behind it, if its length is positive -/
  | buffered (out : Buffer) : c.outputBuf.readable ≠ [] →
      out.Represents (c.outputBuf.readable ++ if 0 < toInt32 msg.length then msg else []) →
      IntOutcome c msg ret (.ok ({ c with outputBuf := out }, []))

/-- The outcomes of `send` for a message shorter than `2 ^ 31` bytes. -/
inductive SendOutcome (c : TcpConnection) (msg : List Byte) (ret : ℤ) :
    Checked (TcpConnection × List Effect) → Prop
  /-- the direct write failed, and `substr` throws on the position -1 -/
  | threw : c.outputBuf.readable = [] → ret = -1 → SendOutcome c msg ret (.error .outOfRange)
  /-- the direct write took everything -/
  | all (queued : List Effect) : c.outputBuf.readable = [] → ret = msg.length →
      queued = (if c.writeCompleteCallback then [.queueWriteComplete true] else []) →
      SendOutcome c msg ret (.ok (c, .write c.fd msg :: queued))
  /-- the direct write took a proper prefix, and the rest waits in the buffer -/
  | short (out : Buffer) : c.outputBuf.readable = [] → 0 ≤ ret → ret < msg.length →
      out.Represents (msg.drop ret.toNat) →
      SendOutcome c msg ret
        (.ok ({ c with outputBuf := out, channel := c.channel.enableWriting true },
          [.write c.fd (msg.take ret.toNat), .update (c.channel.enableWriting true)]))
  /-- something is waiting already, and the message waits behind it -/
  | buffered (out : Buffer) : c.outputBuf.readable ≠ [] →
      out.Represents (c.outputBuf.readable ++ msg) →
      SendOutcome c msg ret (.ok ({ c with outputBuf := out }, []))

theorem readableBytes_le_zero_iff {b : Buffer} {q : List Byte} (h : b.Represents q) :
    b.readableBytes ≤ 0 ↔ q = [] := by
  rw [h.readableBytes_eq, Nat.le_zero, List.length_eq_zero_iff]

/-- The direct write closes nothing. -/
theorem no_close_sendDirect (c : TcpConnection) (msg : List Byte) (ret : ℤ) (fd : ℕ) :
    .close fd ∉ (c.sendDirect msg ret).2 := by
  rw [sendDirect]
  simp only
  split_ifs <;> simp

theorem sendDirect_of_waiting {c : TcpConnection} (h : c.WellFormed)
    (hq : c.outputBuf.readable ≠ []) (msg : List Byte) (ret : ℤ) :
    c.sendDirect msg ret = (0, []) := by
  rw [sendDirect, if_neg]
  rwa [readableBytes_le_zero_iff h.output]

/-- The direct write, whatever its result and the length of the message are as `int`s. -/
theorem sendDirect_eq {c : TcpConnection} (h : c.WellFormed) (hq : c.outputBuf.readable = [])
    (msg : List Byte) (ret : ℤ) :
    c.sendDirect msg ret = (toInt32 ret, .write c.fd (msg.take ret.toNat) ::
      if toInt32 ret ≠ -1 ∧ toInt32 ret = toInt32 msg.length ∧ c.writeCompleteCallback then
        [.queueWriteComplete true] else []) := by
  rw [sendDirect, if_pos ((readableBytes_le_zero_iff h.output).2 hq)]
  simp only
  by_cases hneg : toInt32 ret = -1
  · rw [if_pos hneg, if_neg fun hall => hall.1 hneg]
  · rw [if_neg hneg]
    by_cases hall : toInt32 ret = toInt32 msg.length ∧ c.writeCompleteCallback = true
    · rw [if_pos hall, if_pos ⟨hneg, hall⟩, hall.2]
    · rw [if_neg hall, if_neg fun hall' => hall hall'.2]

/-- `std::string::substr` from a position inside the string, with the length of the string. -/
theorem substr_of_le {msg : List Byte} {pos : ℕ} (h : pos ≤ msg.length) :
    substr msg pos msg.length = .ok (msg.drop pos) := by
  rw [substr, if_pos h, List.take_of_length_le (by simp)]

/-- The end of a message is no position that the comparison of the `int`s lets through. -/
theorem ne_length_of_lt {msg : List Byte} {n : ℤ} (hlo : -2 ^ 31 ≤ n) (hhi : n < 2 ^ 31)
    (h : n < toInt32 msg.length) : toSizeT n ≠ msg.length := by
  intro heq
  rw [← heq, toInt32, Int.bmod_def, toSizeT] at h
  omega

/-- **What `send` can do.** -/
theorem send_int_cases {c : TcpConnection} (h : c.WellFormed) (msg : List Byte) (ret : ℤ) :
    IntOutcome c msg ret (c.send msg ret) := by
  by_cases hq : c.outputBuf.readable = []
  · have hnw : c.channel.isWriting = false := by
      simpa [hq] using h.writing
    rw [send, sendDirect_eq h hq]
    simp only
    by_cases hlt : toInt32 ret < toInt32 msg.length
    · rw [if_pos hlt, if_neg fun hall => absurd hall.2.1 (ne_of_lt hlt)]
      rcases Nat.lt_or_ge msg.length (toSizeT (toInt32 ret)) with hout | hle
      · have hsub : substr msg (toSizeT (toInt32 ret)) msg.length = .error .outOfRange := by
          rw [substr, if_neg (not_le.2 hout)]
        rw [hsub, error_bind]
        exact .threw hq hlt hout
      · have hne := ne_length_of_lt (le_toInt32 ret) (toInt32_lt ret) hlt
        obtain ⟨out, hout, hrep, -⟩ :=
          Buffer.append_spec h.output (msg.drop (toSizeT (toInt32 ret)))
        rw [substr_of_le hle, ok_bind, hout, ok_bind]
        simp only [hnw, Bool.false_eq_true, if_false]
        exact .short out hq hlt (lt_of_le_of_ne hle hne) (by simpa [hq] using hrep)
    · rw [if_neg hlt]
      exact .all _ hq (not_lt.1 hlt) rfl
  · rw [send, sendDirect_of_waiting h hq]
    simp only
    by_cases hm : 0 < toInt32 msg.length
    · have hw : c.channel.isWriting = true := h.writing.2 hq
      obtain ⟨out, hout, hrep, -⟩ := Buffer.append_spec h.output msg
      have hzero : toSizeT 0 = 0 := rfl
      rw [if_pos hm, hzero, substr_of_le (Nat.zero_le _)]
      simp only [List.drop_zero, ok_bind, hout, if_pos hw]
      exact .buffered out hq (by rwa [if_pos hm])
    · rw [if_neg hm]
      exact .buffered c.outputBuf hq (by rw [if_neg hm, List.append_nil]; exact h.output)

/-- What `send` can do with a message shorter than `2 ^ 31` bytes. -/
theorem send_cases {c : TcpConnection} (h : c.WellFormed) {msg : List Byte} {ret : ℤ}
    (hlen : msg.length < 2 ^ 31)
    (hret : c.outputBuf.readable = [] → -1 ≤ ret ∧ ret ≤ msg.length) :
    SendOutcome c msg ret (c.send msg ret) := by
  have hmsg : toInt32 msg.length = msg.length := toInt32_eq (by omega) (by omega)
  have hint : c.outputBuf.readable = [] → toInt32 ret = ret := by
    intro hq
    obtain ⟨hlo, hhi⟩ := hret hq
    exact toInt32_eq (by omega) (by omega)
  have hpos : ∀ n : ℤ, 0 ≤ n → n < 2 ^ 31 → toSizeT n = n.toNat := by
    intro n h₀ hlt
    obtain ⟨k, rfl⟩ := Int.eq_ofNat_of_zero_le h₀
    exact toSizeT_natCast (by omega)
  generalize hr : c.send msg ret = r
  have hcases := hr ▸ send_int_cases h msg ret
  cases hcases with
  | threw hq hlt hout =>
      rw [hint hq, hmsg] at hlt
      rw [hint hq] at hout
      obtain ⟨hlo, -⟩ := hret hq
      refine .threw hq ?_
      by_contra hne
      rw [hpos ret (by omega) (by omega)] at hout
      omega
  | all queued hq hle hqueued =>
      rw [hint hq, hmsg] at hle hqueued
      obtain ⟨-, hhi⟩ := hret hq
      have heq : ret = msg.length := le_antisymm hhi hle
      have htake : msg.take ret.toNat = msg := by
        rw [heq, Int.toNat_natCast, List.take_length]
      rw [htake]
      refine .all queued hq heq ?_
      rw [hqueued]
      by_cases hcb : c.writeCompleteCallback = true
      · rw [if_pos ⟨by omega, heq, hcb⟩, if_pos hcb]
      · rw [if_neg fun hall => hcb hall.2.2, if_neg hcb]
  | short out hq hlt hin hrep =>
      rw [hint hq, hmsg] at hlt
      rw [hint hq] at hin hrep
      obtain ⟨hlo, -⟩ := hret hq
      have h₀ : 0 ≤ ret := by
        by_contra hneg
        obtain rfl : ret = -1 := by omega
        have hmax : toSizeT (-1) = 2 ^ 64 - 1 := rfl
        omega
      rw [hpos ret h₀ (by omega)] at hrep
      exact .short out hq h₀ hlt hrep
  | buffered out hq hrep =>
      rw [hmsg] at hrep
      refine .buffered out hq ?_
      by_cases hm : (0 : ℤ) < msg.length
      · rwa [if_pos hm] at hrep
      · obtain rfl : msg = [] := List.length_eq_zero_iff.1 (by omega)
        simpa using hrep

/-- The outcomes of `handleWrite`. -/
inductive WriteOutcome (c : TcpConnection) (ret : ℤ) :
    Checked (TcpConnection × List Effect) → Prop
  /-- writing is not enabled -/
  | idle : c.outputBuf.readable = [] → WriteOutcome c ret (.ok (c, []))
  /-- the result, converted to `int`, is not positive -/
  | nothing : c.outputBuf.readable ≠ [] → toInt32 ret ≤ 0 →
      WriteOutcome c ret (.ok (c, [.write c.fd (c.outputBuf.readable.take ret.toNat)]))
  /-- something is left in the buffer -/
  | part (out : Buffer) : c.outputBuf.readable ≠ [] → 0 < toInt32 ret →
      toInt32 ret < c.outputBuf.readable.length →
      out.Represents (c.outputBuf.readable.drop (toInt32 ret).toNat) →
      WriteOutcome c ret (.ok ({ c with outputBuf := out },
        [.write c.fd (c.outputBuf.readable.take ret.toNat)]))
  /-- the buffer has been drained -/
  | drained (out : Buffer) : c.outputBuf.readable ≠ [] →
      toInt32 ret = c.outputBuf.readable.length → out.Represents [] →
      WriteOutcome c ret
        (.ok ({ c with outputBuf := out, channel := c.channel.enableWriting false },
          [.write c.fd (c.outputBuf.readable.take ret.toNat),
            .update (c.channel.enableWriting false),
            .queueWriteComplete c.writeCompleteCallback]))

/-- **What `handleWrite` can do.** -/
theorem handleWrite_cases {c : TcpConnection} (h : c.WellFormed) {ret : ℤ}
    (hret : c.outputBuf.readable ≠ [] → -1 ≤ ret ∧ ret ≤ c.outputBuf.readable.length) :
    WriteOutcome c ret (c.handleWrite ret) := by
  by_cases hq : c.outputBuf.readable = []
  · have hnw : c.channel.isWriting = false := by
      simpa [hq] using h.writing
    have hrun : c.handleWrite ret = .ok (c, []) := by
      simp [handleWrite, hnw]
    rw [hrun]
    exact .idle hq
  · have hw : c.channel.isWriting = true := h.writing.2 hq
    obtain ⟨hlo, hhi⟩ := hret hq
    rcases (by omega : toInt32 ret ≤ 0 ∨ 0 < toInt32 ret) with hle | hpos
    · have hrun : c.handleWrite ret =
          .ok (c, [.write c.fd (c.outputBuf.readable.take ret.toNat)]) := by
        simp [handleWrite, hw, Int.not_lt.2 hle]
      rw [hrun]
      exact .nothing hq hle
    · -- a positive `int` never exceeds the result it was converted from
      have hle : toInt32 ret ≤ ret := toInt32_le hlo
      have hsize : toSizeT (toInt32 ret) = (toInt32 ret).toNat := by
        obtain ⟨k, hk⟩ := Int.eq_ofNat_of_zero_le (Int.le_of_lt hpos)
        have hlt : toInt32 ret < 2 ^ 31 := toInt32_lt ret
        rw [hk]
        exact toSizeT_natCast (by omega)
      obtain ⟨out, hout, hrep, -⟩ := Buffer.retrieve_spec h.output
        (n := (toInt32 ret).toNat) (by omega)
      have hempty := readableBytes_le_zero_iff hrep
      rw [handleWrite, if_pos hw]
      simp only [if_pos hpos, hsize, hout, ok_bind]
      rcases (by omega : toInt32 ret < c.outputBuf.readable.length ∨
        toInt32 ret = c.outputBuf.readable.length) with hlt | heq
      · rw [if_neg]
        · exact .part out hq hpos hlt hrep
        · rw [hempty, List.drop_eq_nil_iff]
          omega
      · have hnil : c.outputBuf.readable.drop (toInt32 ret).toNat = [] := by
          rw [List.drop_eq_nil_iff]
          omega
        rw [if_pos (hempty.2 hnil)]
        exact .drained out hq heq (hnil ▸ hrep)

/-- From `c` to `c'`, the connection stays well formed and keeps its descriptor and its connection
callback; and none of the effects is a `close`. -/
structure Keeps (c c' : TcpConnection) (effects : List Effect) : Prop where
  wellFormed : c'.WellFormed
  fd_eq : c'.fd = c.fd
  callback_eq : c'.connectionCallback = c.connectionCallback
  no_close : ∀ fd, .close fd ∉ effects

theorem keeps_send {c c' : TcpConnection} (h : c.WellFormed) {msg : List Byte} {ret : ℤ}
    {effects : List Effect} (hr : IntOutcome c msg ret (.ok (c', effects))) :
    c.Keeps c' effects := by
  cases hr with
  | all queued hq hret hqueued =>
      refine ⟨h, rfl, rfl, ?_⟩
      subst hqueued
      split_ifs <;> simp
  | short out hq hlt hin hrep =>
      refine ⟨h.withWriting hrep (iff_of_true rfl ?_), rfl, rfl, by simp⟩
      rw [Ne, List.drop_eq_nil_iff]
      omega
  | buffered out hq hrep =>
      exact ⟨h.withOutput hrep hq (by simp [hq]), rfl, rfl, by simp⟩

theorem keeps_handleWrite {c c' : TcpConnection} (h : c.WellFormed) {ret : ℤ}
    {effects : List Effect} (hr : WriteOutcome c ret (.ok (c', effects))) :
    c.Keeps c' effects := by
  cases hr with
  | idle hq => exact ⟨h, rfl, rfl, by simp⟩
  | nothing hq hle => exact ⟨h, rfl, rfl, by simp⟩
  | part out hq hpos hlt hrep =>
      refine ⟨h.withOutput hrep hq ?_, rfl, rfl, by simp⟩
      rw [Ne, List.drop_eq_nil_iff]
      omega
  | drained out hq heq hrep =>
      exact ⟨h.withWriting hrep (iff_of_false (by simp) (by simp)), rfl, rfl, by simp⟩

/-! ### A direct write that fails -/

/-- `send`, whose `write` returns -1, returns with the message waiting and writing enabled. -/
def KeepsUnsent (c : TcpConnection) (msg : List Byte) : Prop :=
  ∃ c' effects, c.send msg (-1) = .ok (c', effects) ∧ c'.outputBuf.readable = msg ∧
    (msg ≠ [] → c'.channel.isWriting = true)

theorem sendDirect_failed {c : TcpConnection} (h : c.WellFormed)
    (hq : c.outputBuf.readable = []) (msg : List Byte) :
    c.sendDirect msg (-1) = (-1, [.write c.fd []]) := by
  have hint : toInt32 (-1) = -1 := rfl
  rw [sendDirect_eq h hq, hint, if_neg fun hall => hall.1 rfl]
  rfl

/-- The -1 is a position beyond every string, unless the length of the message is negative as an
`int`: then nothing is appended at all. -/
theorem send_failed {c : TcpConnection} (h : c.WellFormed) (hq : c.outputBuf.readable = [])
    {msg : List Byte} (hlen : msg.length < 2 ^ 64 - 1) :
    c.send msg (-1) = if -1 < toInt32 msg.length then .error .outOfRange
      else .ok (c, [.write c.fd []]) := by
  have hmax : toSizeT (-1) = 2 ^ 64 - 1 := rfl
  have hsub : substr msg (toSizeT (-1)) msg.length = .error .outOfRange := by
    rw [substr, hmax, if_neg (by omega)]
  rw [send, sendDirect_failed h hq]
  simp only [hsub, error_bind]

/-- **A failed direct write loses the message.**  With nothing waiting, whatever the message is, a
call of `send` whose `write` returns -1 throws, or returns with the message thrown away. -/
theorem not_keepsUnsent {c : TcpConnection} (h : c.WellFormed) (hq : c.outputBuf.readable = [])
    (msg : List Byte) : ¬c.KeepsUnsent msg := by
  rintro ⟨c', effects, hsend, hkept, -⟩
  rcases Nat.lt_or_ge msg.length (2 ^ 64 - 1) with hlen | hlen
  · rw [send_failed h hq hlen] at hsend
    split at hsend
    · cases hsend
    · rename_i hneg
      cases hsend
      obtain rfl : msg = [] := by rw [← hkept, hq]
      exact hneg (by decide)
  · -- a message of that length would lose what stands before the position
    have hmax : toSizeT (-1) = 2 ^ 64 - 1 := rfl
    rw [send, sendDirect_failed h hq] at hsend
    simp only at hsend
    split at hsend
    · obtain ⟨rest, hrest, hsend⟩ := bind_eq_ok.1 hsend
      obtain ⟨outputBuf, hout, hsend⟩ := bind_eq_ok.1 hsend
      obtain ⟨out, hout', hrep, -⟩ := Buffer.append_spec h.output rest
      obtain rfl : out = outputBuf := Except.ok.inj (hout'.symm.trans hout)
      rw [substr, hmax, if_pos hlen] at hrest
      have hkept' : out.readable = msg := by
        split at hsend <;>
        · cases hsend
          exact hkept
      have hcount := congrArg List.length hkept'
      rw [hrep.readable_eq, hq, List.nil_append, ← Except.ok.inj hrest, List.length_take,
        List.length_drop] at hcount
      omega
    · cases hsend
      have hcount := congrArg List.length hkept
      rw [hq, List.length_nil] at hcount
      omega

/-- The theorem on a connection that has just been made. -/
theorem not_keepsUnsent_new : ¬(new 5).KeepsUnsent [104, 105] :=
  not_keepsUnsent (wellFormed_new 5) (Buffer.represents_empty kInitialSize).readable_eq [104, 105]

/-- It throws. -/
theorem send_failed_new :
    (new 5).outputBuf.readable = [] ∧ (new 5).send [104, 105] (-1) = .error .outOfRange ∧
      ¬∃ c effects, (new 5).send [104, 105] (-1) = .ok (c, effects) := by
  have hthrows : (new 5).send [104, 105] (-1) = .error .outOfRange := by decide +kernel
  refine ⟨(Buffer.represents_empty kInitialSize).readable_eq, hthrows, ?_⟩
  rintro ⟨c, effects, hok⟩
  rw [hthrows] at hok
  cases hok

end TcpConnection

end G5
