/-
**Notification that everything has been written** (`TcpConnection::send`, `handleWrite`,
`EventLoop::doPendingFunctors`).

Whoever hands the last waiting byte to the kernel queues a functor that invokes
`writeCompleteCallback_`.  `send` does so after asking whether the callback is set; `handleWrite`
does not ask, and what it queues for a connection without the callback throws when the loop
executes it.

Messages have any length a `std::string` can have, and results any value up to the length asked
for; both are converted to `int` on the way.

Main definitions:

* `Delivery`, `Delivery.step` — the runs, with the number of bytes sent and of bytes accepted;
* `Delivery.Notifies` — a step queues one functor if it hands over the last byte and the callback is
  set, and none otherwise;
* `Delivery.Callable` — no functor that waits is empty;
* `Delivery.GuardsAgree` — without the callback, `handleWrite` does not drain the buffer; with it,
  no conversion to `int` changes the outcome.

Main results:

* `Delivery.step_moves` — what a step can do, said once;
* `Delivery.notifies_exact` — **notification is right while the guards agree**, and, without the
  callback, only then.
-/

import G5.Lib.Runs
import G5.Net.TcpConnection

set_option relaxedAutoImplicit false
set_option autoImplicit false

namespace G5

/-- The number of bytes the kernel takes. -/
def Effect.taken : Effect → ℕ
  | .write _ accepted => accepted.length
  | _ => 0

/-- The functors that are queued, each with whether the bound callback is set. -/
def Effect.functors : Effect → List Bool
  | .queueWriteComplete set => [set]
  | _ => []

/-- A connection, how many bytes it was given and how many the kernel has taken of it, and the
functors that it has queued in the loop. -/
structure Delivery where
  conn : TcpConnection
  sent : ℕ
  accepted : ℕ
  pendingFunctors : List Bool
  deriving DecidableEq, Repr

/-- A call, with the result of the `write` that it makes, if it makes one. -/
inductive DeliveryOp
  | send (msg : List Byte) (ret : ℤ)
  | handleWrite (ret : ℤ)
  | doPendingFunctors
  deriving DecidableEq, Repr

namespace Delivery

/-! ### Runs -/

/-- A connection that has just been made. -/
def init (fd : ℕ) (writeCompleteCallback : Bool) : Delivery where
  conn := { TcpConnection.new fd with writeCompleteCallback := writeCompleteCallback }
  sent := 0
  accepted := 0
  pendingFunctors := []

/-- The connection is left as `conn` by a call that was given `len` bytes. -/
def finish (s : Delivery) (len : ℕ) (conn : TcpConnection) (effects : List Effect) : Delivery where
  conn := conn
  sent := s.sent + len
  accepted := s.accepted + (effects.map Effect.taken).sum
  pendingFunctors := s.pendingFunctors ++ effects.flatMap Effect.functors

/-- One call.  A call of `send` that throws has made its `write`; a batch with an empty function
throws out of the loop. -/
def step (s : Delivery) : DeliveryOp → Option Delivery
  | .send msg ret =>
      if msg ≠ [] ∧ msg.length < 2 ^ 63 ∧
          (s.conn.outputBuf.readableBytes ≤ 0 → 0 ≤ ret ∧ ret ≤ msg.length) then
        match s.conn.send msg ret with
        | .ok (conn, effects) => some (s.finish msg.length conn effects)
        | .error .outOfRange =>
            some (s.finish msg.length s.conn (s.conn.sendDirect msg ret).2)
        | .error _ => none
      else none
  | .handleWrite ret =>
      if s.conn.channel.isWriting → 0 ≤ ret ∧ ret ≤ s.conn.outputBuf.readableBytes then
        match s.conn.handleWrite ret with
        | .ok (conn, effects) => some (s.finish 0 conn effects)
        | .error _ => none
      else none
  | .doPendingFunctors =>
      if s.pendingFunctors.all id then some { s with pendingFunctors := [] } else none

/-! ### What the calls do -/

section

variable {c : TcpConnection}

/-- With bytes waiting, the message waits behind them if its length is positive as an `int`. -/
theorem send_of_waiting (h : c.WellFormed) (hq : c.outputBuf.readable ≠ []) {msg : List Byte}
    (ret : ℤ) (hpos : 0 < toInt32 msg.length) :
    ∃ out, c.send msg ret = .ok ({ c with outputBuf := out }, []) ∧
      out.Represents (c.outputBuf.readable ++ msg) := by
  have hsub : substr msg (toSizeT 0) msg.length = .ok msg := by
    have hzero : toSizeT 0 = 0 := rfl
    rw [substr, hzero, if_pos (Nat.zero_le _), List.drop_zero, List.take_length]
  obtain ⟨out, hout, hrep, -⟩ := Buffer.append_spec h.output msg
  refine ⟨out, ?_, hrep⟩
  rw [TcpConnection.send, TcpConnection.sendDirect_of_waiting h hq]
  simp only [if_pos hpos, hsub, ok_bind, hout, if_pos (h.writing.2 hq)]
  rfl

theorem send_ignored (h : c.WellFormed) (hq : c.outputBuf.readable ≠ []) {msg : List Byte}
    (ret : ℤ) (hneg : toInt32 msg.length ≤ 0) : c.send msg ret = .ok (c, []) := by
  rw [TcpConnection.send, TcpConnection.sendDirect_of_waiting h hq]
  exact if_neg (Int.not_lt.2 hneg)

/-- With nothing waiting, the direct write is all if its result is not less than the length. -/
theorem send_direct (h : c.WellFormed) (hq : c.outputBuf.readable = []) {msg : List Byte} {ret : ℤ}
    (hle : toInt32 msg.length ≤ toInt32 ret) :
    c.send msg ret = .ok (c, (c.sendDirect msg ret).2) := by
  have hfst : (c.sendDirect msg ret).1 = toInt32 ret := by rw [TcpConnection.sendDirect_eq h hq]
  rw [TcpConnection.send]
  simp only [hfst]
  exact if_neg (Int.not_lt.2 hle)

/-- A negative position is beyond every string. -/
theorem send_threw (h : c.WellFormed) (hq : c.outputBuf.readable = []) {msg : List Byte} {ret : ℤ}
    (hlen : msg.length < 2 ^ 63) (hlt : toInt32 ret < toInt32 msg.length)
    (hneg : toInt32 ret < 0) : c.send msg ret = .error .outOfRange := by
  have hlo := le_toInt32 ret
  have hsub : substr msg (toSizeT (toInt32 ret)) msg.length = .error .outOfRange := by
    rw [substr, if_neg]
    unfold toSizeT
    omega
  have hfst : (c.sendDirect msg ret).1 = toInt32 ret := by rw [TcpConnection.sendDirect_eq h hq]
  rw [TcpConnection.send]
  simp only [hfst, if_pos hlt, hsub, error_bind]

theorem send_short (h : c.WellFormed) (hq : c.outputBuf.readable = []) {msg : List Byte} {ret : ℤ}
    (hpos : 0 ≤ toInt32 ret) (hlt : toInt32 ret < toInt32 msg.length) :
    ∃ out, c.send msg ret =
        .ok ({ c with outputBuf := out, channel := c.channel.enableWriting true },
          [.write c.fd (msg.take ret.toNat), .update (c.channel.enableWriting true)]) ∧
      out.Represents (msg.drop (toInt32 ret).toNat) := by
  have hnw : c.channel.isWriting = false := by simpa [hq] using h.writing
  have hle : toInt32 msg.length ≤ msg.length := toInt32_le (by omega)
  have hint : toInt32 ret < 2 ^ 31 := toInt32_lt ret
  have hindex : toSizeT (toInt32 ret) = (toInt32 ret).toNat := by
    unfold toSizeT
    omega
  have hsub : substr msg (toSizeT (toInt32 ret)) msg.length =
      .ok (msg.drop (toInt32 ret).toNat) := by
    rw [substr, hindex, if_pos (by omega), List.take_of_length_le (by simp)]
  obtain ⟨out, hout, hrep, -⟩ := Buffer.append_spec h.output (msg.drop (toInt32 ret).toNat)
  refine ⟨out, ?_, by rwa [hq, List.nil_append] at hrep⟩
  rw [TcpConnection.send, TcpConnection.sendDirect_eq h hq,
    if_neg fun hall => absurd hall.2.1 (ne_of_lt hlt)]
  simp only [if_pos hlt, hsub, ok_bind, hout, hnw, Bool.false_eq_true, if_false]
  rfl

end

/-! ### What a step can do -/

/-- The steps, each with what holds before it. -/
inductive Moves (s : Delivery) : DeliveryOp → Delivery → Prop
  /-- the message waits behind what is waiting already -/
  | buffered (msg : List Byte) (ret : ℤ) (out : Buffer) : s.conn.outputBuf.readable ≠ [] →
      0 < toInt32 msg.length → out.Represents (s.conn.outputBuf.readable ++ msg) →
      Moves s (.send msg ret)
        { s with conn := { s.conn with outputBuf := out }, sent := s.sent + msg.length }
  /-- the message is thrown away, as its length is not positive -/
  | ignored (msg : List Byte) (ret : ℤ) : s.conn.outputBuf.readable ≠ [] →
      toInt32 msg.length ≤ 0 →
      Moves s (.send msg ret) { s with sent := s.sent + msg.length }
  /-- the direct write is all that is done -/
  | direct (msg : List Byte) (ret : ℤ) : msg ≠ [] → s.conn.outputBuf.readable = [] → 0 ≤ ret →
      ret ≤ msg.length → toInt32 msg.length ≤ toInt32 ret →
      Moves s (.send msg ret)
        { s with
          sent := s.sent + msg.length
          accepted := s.accepted + ret.toNat
          pendingFunctors := s.pendingFunctors ++
            if toInt32 ret ≠ -1 ∧ toInt32 ret = toInt32 msg.length ∧
              s.conn.writeCompleteCallback then [true] else [] }
  /-- the result of the direct write is negative as an `int` -/
  | threw (msg : List Byte) (ret : ℤ) : s.conn.outputBuf.readable = [] → 0 ≤ ret →
      ret ≤ msg.length → toInt32 ret < toInt32 msg.length → toInt32 ret < 0 →
      Moves s (.send msg ret)
        { s with sent := s.sent + msg.length, accepted := s.accepted + ret.toNat }
  /-- the rest of the message waits -/
  | short (msg : List Byte) (ret : ℤ) (out : Buffer) : s.conn.outputBuf.readable = [] → 0 ≤ ret →
      ret ≤ msg.length → 0 ≤ toInt32 ret → toInt32 ret < toInt32 msg.length →
      out.Represents (msg.drop (toInt32 ret).toNat) →
      Moves s (.send msg ret)
        { s with
          conn := { s.conn with
            outputBuf := out
            channel := s.conn.channel.enableWriting true }
          sent := s.sent + msg.length
          accepted := s.accepted + ret.toNat }
  /-- writing is not enabled -/
  | idle (ret : ℤ) : s.conn.outputBuf.readable = [] → Moves s (.handleWrite ret) s
  /-- the result, converted to `int`, is not positive -/
  | nothing (ret : ℤ) : s.conn.outputBuf.readable ≠ [] → 0 ≤ ret →
      ret ≤ s.conn.outputBuf.readable.length → toInt32 ret ≤ 0 →
      Moves s (.handleWrite ret) { s with accepted := s.accepted + ret.toNat }
  /-- something is left -/
  | part (ret : ℤ) (out : Buffer) : s.conn.outputBuf.readable ≠ [] → 0 ≤ ret →
      ret ≤ s.conn.outputBuf.readable.length → 0 < toInt32 ret →
      toInt32 ret < s.conn.outputBuf.readable.length →
      out.Represents (s.conn.outputBuf.readable.drop (toInt32 ret).toNat) →
      Moves s (.handleWrite ret)
        { s with conn := { s.conn with outputBuf := out }, accepted := s.accepted + ret.toNat }
  /-- the buffer has been drained: the functor is queued, whether the callback is set or not -/
  | drained (ret : ℤ) (out : Buffer) : s.conn.outputBuf.readable ≠ [] → 0 ≤ ret →
      ret ≤ s.conn.outputBuf.readable.length →
      toInt32 ret = s.conn.outputBuf.readable.length → out.Represents [] →
      Moves s (.handleWrite ret)
        { s with
          conn := { s.conn with
            outputBuf := out
            channel := s.conn.channel.enableWriting false }
          accepted := s.accepted + ret.toNat
          pendingFunctors := s.pendingFunctors ++ [s.conn.writeCompleteCallback] }
  | functors : (∀ f ∈ s.pendingFunctors, f = true) →
      Moves s .doPendingFunctors { s with pendingFunctors := [] }

theorem length_take_toNat {l : List Byte} {n : ℤ} (h : n ≤ l.length) :
    (l.take n.toNat).length = n.toNat := by
  rw [List.length_take]
  omega

theorem step_send_moves {s t : Delivery} (h : s.conn.WellFormed) {msg : List Byte} {ret : ℤ}
    (hst : s.step (.send msg ret) = some t) : Moves s (.send msg ret) t := by
  simp only [step] at hst
  split at hst
  · rename_i hg
    obtain ⟨hmsg, hlen, hret⟩ := hg
    by_cases hq : s.conn.outputBuf.readable = []
    · obtain ⟨hlo, hhi⟩ := hret ((TcpConnection.readableBytes_le_zero_iff h.output).2 hq)
      have hcount := length_take_toNat hhi
      rcases lt_or_ge (toInt32 ret) (toInt32 msg.length) with hlt | hge
      · rcases lt_or_ge (toInt32 ret) 0 with hneg | hpos
        · rw [send_threw h hq hlen hlt hneg, TcpConnection.sendDirect_eq h hq,
            if_neg fun hall => absurd hall.2.1 (ne_of_lt hlt)] at hst
          simp only [finish, Option.some_inj] at hst
          subst hst
          simpa [Effect.taken, Effect.functors, hcount] using
            Moves.threw (s := s) msg ret hq hlo hhi hlt hneg
        · obtain ⟨out, hsend, hrep⟩ := send_short h hq hpos hlt
          rw [hsend] at hst
          simp only [finish, Option.some_inj] at hst
          subst hst
          simpa [Effect.taken, Effect.functors, hcount] using
            Moves.short (s := s) msg ret out hq hlo hhi hpos hlt hrep
      · rw [send_direct h hq hge, TcpConnection.sendDirect_eq h hq] at hst
        simp only [finish, Option.some_inj] at hst
        subst hst
        have hmove := Moves.direct (s := s) msg ret hmsg hq hlo hhi hge
        by_cases hall : toInt32 ret ≠ -1 ∧ toInt32 ret = toInt32 msg.length ∧
          s.conn.writeCompleteCallback = true
        · rw [if_pos hall] at hmove
          simpa [Effect.taken, Effect.functors, hcount, if_pos hall] using hmove
        · rw [if_neg hall] at hmove
          simpa [Effect.taken, Effect.functors, hcount, if_neg hall] using hmove
    · rcases lt_or_ge 0 (toInt32 msg.length) with hpos | hneg
      · obtain ⟨out, hsend, hrep⟩ := send_of_waiting h hq ret hpos
        rw [hsend] at hst
        simp only [finish, Option.some_inj] at hst
        subst hst
        simpa using Moves.buffered (s := s) msg ret out hq hpos hrep
      · rw [send_ignored h hq ret hneg] at hst
        simp only [finish, Option.some_inj] at hst
        subst hst
        simpa using Moves.ignored (s := s) msg ret hq hneg
  · cases hst

theorem step_handleWrite_moves {s t : Delivery} (h : s.conn.WellFormed) {ret : ℤ}
    (hst : s.step (.handleWrite ret) = some t) : Moves s (.handleWrite ret) t := by
  simp only [step] at hst
  split at hst
  · rename_i hg
    have hret : s.conn.outputBuf.readable ≠ [] →
        0 ≤ ret ∧ ret ≤ s.conn.outputBuf.readable.length := by
      intro hq
      have hrange := hg (h.writing.2 hq)
      rwa [h.output.readableBytes_eq] at hrange
    have hrange : s.conn.outputBuf.readable ≠ [] →
        -1 ≤ ret ∧ ret ≤ s.conn.outputBuf.readable.length := by
      intro hq
      obtain ⟨hlo, hhi⟩ := hret hq
      exact ⟨by omega, hhi⟩
    have hcases := TcpConnection.handleWrite_cases h hrange
    generalize s.conn.handleWrite ret = r at hst hcases
    cases hcases with
    | idle hq =>
        cases hst
        simpa [finish] using Moves.idle (s := s) ret hq
    | nothing hq hle =>
        obtain ⟨hlo, hhi⟩ := hret hq
        cases hst
        simpa [finish, Effect.taken, Effect.functors, length_take_toNat hhi] using
          Moves.nothing (s := s) ret hq hlo hhi hle
    | part out hq hpos hlt hrep =>
        obtain ⟨hlo, hhi⟩ := hret hq
        cases hst
        simpa [finish, Effect.taken, Effect.functors, length_take_toNat hhi] using
          Moves.part (s := s) ret out hq hlo hhi hpos hlt hrep
    | drained out hq heq hrep =>
        obtain ⟨hlo, hhi⟩ := hret hq
        cases hst
        simpa [finish, Effect.taken, Effect.functors, length_take_toNat hhi] using
          Moves.drained (s := s) ret out hq hlo hhi heq hrep
  · cases hst

/-- **Every step is one of these.** -/
theorem step_moves {s t : Delivery} {op : DeliveryOp} (h : s.conn.WellFormed)
    (hst : s.step op = some t) : Moves s op t := by
  cases op with
  | send msg ret => exact step_send_moves h hst
  | handleWrite ret => exact step_handleWrite_moves h hst
  | doPendingFunctors =>
      simp only [step, Option.ite_none_right_eq_some, Option.some_inj] at hst
      obtain ⟨hall, rfl⟩ := hst
      exact .functors fun f hf => by simpa using List.all_eq_true.1 hall f hf

/-! ### Notification -/

/-- The step queues one functor with the callback if by it the kernel takes the last byte of all
that was sent, and none otherwise. -/
def Notifies (s : Delivery) (op : DeliveryOp) : Prop :=
  ∀ t, s.step op = some t → t.pendingFunctors =
    match op with
    | .doPendingFunctors => []
    | _ => s.pendingFunctors ++
        if s.accepted < t.accepted ∧ t.accepted = t.sent ∧
          s.conn.writeCompleteCallback = true then [true] else []

/-- `doPendingFunctors` invokes no empty function. -/
def Callable (s : Delivery) : Prop := ∀ f ∈ s.pendingFunctors, f = true

/-- The guards of `send` and `handleWrite` agree.  Without the callback, `handleWrite` does not
drain the buffer.  With the callback, no conversion to `int` changes the outcome: a direct write
takes the whole message and is not mistaken for -1, or less than the `int` its length is converted
to. -/
def GuardsAgree (s : Delivery) : DeliveryOp → Prop
  | .send msg ret => s.conn.writeCompleteCallback = true →
      if s.conn.outputBuf.readable = [] then
        (ret = msg.length ∧ toInt32 ret ≠ -1) ∨ ret < toInt32 msg.length
      else 0 < toInt32 msg.length
  | .handleWrite ret => s.conn.outputBuf.readable ≠ [] →
      if s.conn.writeCompleteCallback then ret < 2 ^ 31
      else toInt32 ret ≠ s.conn.outputBuf.readable.length
  | .doPendingFunctors => True

instance (s : Delivery) (op : DeliveryOp) : Decidable (s.GuardsAgree op) := by
  cases op <;> unfold GuardsAgree <;> infer_instance

/-- The connection is well formed and has the callback or not; and with the callback, the bytes that
wait are the ones sent and not accepted. -/
structure Steady (cb : Bool) (s : Delivery) : Prop where
  conn : s.conn.WellFormed
  callback : s.conn.writeCompleteCallback = cb
  balanced : cb = true → s.accepted + s.conn.outputBuf.readable.length = s.sent

theorem readable_init (fd : ℕ) (cb : Bool) : (init fd cb).conn.outputBuf.readable = [] :=
  (Buffer.represents_empty kInitialSize).readable_eq

theorem steady_init (fd : ℕ) (cb : Bool) : (init fd cb).Steady cb where
  conn := ⟨rfl, (TcpConnection.wellFormed_new fd).input, (TcpConnection.wellFormed_new fd).output,
    (TcpConnection.wellFormed_new fd).writing⟩
  callback := rfl
  balanced := by
    intro _
    rw [readable_init]
    rfl

/-- A connection stays well formed, whatever the lengths are. -/
theorem Moves.wellFormed {s t : Delivery} {op : DeliveryOp} (hm : Moves s op t)
    (h : s.conn.WellFormed) :
    t.conn.WellFormed ∧ t.conn.writeCompleteCallback = s.conn.writeCompleteCallback := by
  cases hm with
  | buffered msg ret out hq hpos hrep => exact ⟨h.withOutput hrep hq (by simp [hq]), rfl⟩
  | ignored msg ret hq hneg => exact ⟨h, rfl⟩
  | direct msg ret hmsg hq hlo hhi hge => exact ⟨h, rfl⟩
  | threw msg ret hq hlo hhi hlt hneg => exact ⟨h, rfl⟩
  | short msg ret out hq hlo hhi hpos hlt hrep =>
      have hle : toInt32 msg.length ≤ msg.length := toInt32_le (by omega)
      refine ⟨h.withWriting hrep (iff_of_true rfl ?_), rfl⟩
      rw [Ne, List.drop_eq_nil_iff]
      omega
  | idle ret hq => exact ⟨h, rfl⟩
  | nothing ret hq hlo hhi hle => exact ⟨h, rfl⟩
  | part ret out hq hlo hhi hpos hlt hrep =>
      refine ⟨h.withOutput hrep hq ?_, rfl⟩
      rw [Ne, List.drop_eq_nil_iff]
      omega
  | drained ret out hq hlo hhi heq hrep =>
      exact ⟨h.withWriting hrep (iff_of_false (by simp) (by simp)), rfl⟩
  | functors hall => exact ⟨h, rfl⟩

/-- The guards agree on a direct write: it takes the whole message, or its result is the same as an
`int`, and less than that of the length. -/
theorem GuardsAgree.direct {s : Delivery} {msg : List Byte} {ret : ℤ}
    (hg : s.GuardsAgree (.send msg ret)) (hcallback : s.conn.writeCompleteCallback = true)
    (hq : s.conn.outputBuf.readable = []) (hlo : 0 ≤ ret) :
    (ret = msg.length ∧ toInt32 ret ≠ -1) ∨ (ret < toInt32 msg.length ∧ toInt32 ret = ret) := by
  have hall := hg hcallback
  rw [if_pos hq] at hall
  refine hall.imp id ?_
  intro hlt
  exact ⟨hlt, toInt32_eq (by omega) (lt_trans hlt (toInt32_lt _))⟩

/-- The guards agree on a write of what waits: its result is the same as an `int`. -/
theorem GuardsAgree.waiting {s : Delivery} {ret : ℤ} (hg : s.GuardsAgree (.handleWrite ret))
    (hcallback : s.conn.writeCompleteCallback = true) (hq : s.conn.outputBuf.readable ≠ [])
    (hlo : 0 ≤ ret) : toInt32 ret = ret := by
  have hfit := hg hq
  rw [if_pos hcallback] at hfit
  exact toInt32_eq (by omega) hfit

/-- While the guards agree, the bytes that wait are the ones sent and not accepted. -/
theorem Steady.step {cb : Bool} {s t : Delivery} {op : DeliveryOp} (h : s.Steady cb)
    (hst : s.step op = some t) (hg : s.GuardsAgree op) : t.Steady cb := by
  have hm := step_moves h.conn hst
  obtain ⟨hconn, hcb⟩ := hm.wellFormed h.conn
  refine ⟨hconn, hcb.trans h.callback, ?_⟩
  intro hset
  have hbalanced := h.balanced hset
  have hcallback : s.conn.writeCompleteCallback = true := h.callback.trans hset
  cases hm with
  | buffered msg ret out hq hpos hrep =>
      simp only [hrep.readable_eq, List.length_append]
      omega
  | ignored msg ret hq hneg =>
      have hpos := hg hcallback
      rw [if_neg hq] at hpos
      omega
  | direct msg ret hmsg hq hlo hhi hge =>
      have hle : toInt32 ret ≤ ret := toInt32_le (by omega)
      have hall := GuardsAgree.direct hg hcallback hq hlo
      simp only [hq, List.length_nil] at hbalanced ⊢
      omega
  | threw msg ret hq hlo hhi hlt hneg =>
      rcases GuardsAgree.direct hg hcallback hq hlo with ⟨rfl, -⟩ | ⟨hless, hint⟩
      · omega
      · omega
  | short msg ret out hq hlo hhi hpos hlt hrep =>
      rcases GuardsAgree.direct hg hcallback hq hlo with ⟨rfl, -⟩ | ⟨hless, hint⟩
      · omega
      · simp only [hrep.readable_eq, List.length_drop, hint]
        rw [hq, List.length_nil] at hbalanced
        omega
  | idle ret hq => exact hbalanced
  | nothing ret hq hlo hhi hle =>
      have hint := GuardsAgree.waiting hg hcallback hq hlo
      simp only
      omega
  | part ret out hq hlo hhi hpos hlt hrep =>
      have hint := GuardsAgree.waiting hg hcallback hq hlo
      simp only [hrep.readable_eq, List.length_drop, hint]
      omega
  | drained ret out hq hlo hhi heq hrep =>
      have hle : toInt32 ret ≤ ret := toInt32_le (by omega)
      simp only [hrep.readable_eq, List.length_nil]
      omega
  | functors hall => exact hbalanced

/-- While the guards agree, a step queues what it should. -/
theorem Steady.notifies {cb : Bool} {s t : Delivery} {op : DeliveryOp} (h : s.Steady cb)
    (hst : s.step op = some t) (hg : s.GuardsAgree op) : s.Notifies op := by
  intro u hu
  obtain rfl : t = u := Option.some_inj.1 (hst.symm.trans hu)
  have hm := step_moves h.conn hst
  have hbalanced := h.balanced
  rw [← h.callback] at hbalanced
  cases hm with
  | buffered msg ret out hq hpos hrep => simp
  | ignored msg ret hq hneg => simp
  | direct msg ret hmsg hq hlo hhi hge =>
      have hle : toInt32 ret ≤ ret := toInt32_le (by omega)
      have hpos := List.length_pos_iff.2 hmsg
      simp only [List.append_cancel_left_eq]
      refine if_congr ?_ rfl rfl
      by_cases hcallback : s.conn.writeCompleteCallback = true
      · have hsame := hbalanced hcallback
        rw [hq, List.length_nil] at hsame
        rcases GuardsAgree.direct hg hcallback hq hlo with ⟨rfl, hint⟩ | ⟨hless, hint⟩
        · exact iff_of_true ⟨hint, rfl, hcallback⟩ ⟨by omega, by omega, hcallback⟩
        · omega
      · exact iff_of_false (fun hall => hcallback hall.2.2) (fun hall => hcallback hall.2.2)
  | threw msg ret hq hlo hhi hlt hneg =>
      rw [if_neg, List.append_nil]
      rintro ⟨-, -, hcallback⟩
      rcases GuardsAgree.direct hg hcallback hq hlo with ⟨rfl, -⟩ | ⟨hless, hint⟩
      · omega
      · omega
  | short msg ret out hq hlo hhi hpos hlt hrep =>
      rw [if_neg, List.append_nil]
      rintro ⟨-, hcomplete, hcallback⟩
      have hsame := hbalanced hcallback
      rw [hq, List.length_nil] at hsame
      have hle : toInt32 msg.length ≤ msg.length := toInt32_le (by omega)
      rcases GuardsAgree.direct hg hcallback hq hlo with ⟨rfl, -⟩ | ⟨hless, hint⟩
      · omega
      · simp only at hcomplete
        omega
  | idle ret hq => simp
  | nothing ret hq hlo hhi hle =>
      rw [if_neg, List.append_nil]
      rintro ⟨hmore, -, hcallback⟩
      have hint := GuardsAgree.waiting hg hcallback hq hlo
      simp only at hmore
      omega
  | part ret out hq hlo hhi hpos hlt hrep =>
      rw [if_neg, List.append_nil]
      rintro ⟨-, hcomplete, hcallback⟩
      have hint := GuardsAgree.waiting hg hcallback hq hlo
      have hsame := hbalanced hcallback
      simp only at hcomplete
      omega
  | drained ret out hq hlo hhi heq hrep =>
      have hdrain := hg hq
      by_cases hcallback : s.conn.writeCompleteCallback = true
      · have hle : toInt32 ret ≤ ret := toInt32_le (by omega)
        have hpos := List.length_pos_iff.2 hq
        have hsame := hbalanced hcallback
        simp only [hcallback, and_true]
        rw [if_pos ⟨by omega, by omega⟩]
      · rw [if_neg hcallback] at hdrain
        exact absurd heq hdrain
  | functors hall => rfl

/-- What is queued while the guards agree can be invoked. -/
theorem Steady.callable {cb : Bool} {s t : Delivery} {op : DeliveryOp} (h : s.Steady cb)
    (hs : s.Callable) (hst : s.step op = some t) (hg : s.GuardsAgree op) : t.Callable := by
  have hqueued := h.notifies hst hg t hst
  intro f hf
  rw [hqueued] at hf
  cases op with
  | doPendingFunctors => cases hf
  | send msg ret =>
      rcases List.mem_append.1 hf with hold | hnew
      · exact hs f hold
      · split at hnew
        · exact List.mem_singleton.1 hnew
        · cases hnew
  | handleWrite ret =>
      rcases List.mem_append.1 hf with hold | hnew
      · exact hs f hold
      · split at hnew
        · exact List.mem_singleton.1 hnew
        · cases hnew

/-- Without the callback, a step that drains the buffer queues an empty function. -/
theorem Steady.guardsAgree {s t : Delivery} {op : DeliveryOp} (h : s.conn.WellFormed)
    (hcb : s.conn.writeCompleteCallback = false) (hst : s.step op = some t)
    (hn : s.Notifies op) : s.GuardsAgree op := by
  have hqueued := hn t hst
  cases op with
  | doPendingFunctors => trivial
  | send msg ret =>
      intro hset
      rw [hcb] at hset
      cases hset
  | handleWrite ret =>
      intro hq
      rw [hcb]
      intro heq
      have hpos := List.length_pos_iff.2 hq
      cases step_moves h hst with
      | idle _ hq' => exact hq hq'
      | nothing _ _ _ _ hle => omega
      | part _ out _ _ _ _ hlt _ => omega
      | drained _ out _ _ _ _ _ => simp [hcb] at hqueued

/-- **Notification is right while the guards agree.**  In a run of calls of `send`, `handleWrite`
and `doPendingFunctors`, whatever the kernel takes of each `write`: if in every step the guards
agree, then every step queues one functor if it hands over the last byte and the callback is set,
and none otherwise, and no empty function ever waits.  For a connection without the callback, every
step does so only if in every step the guards agree. -/
theorem notifies_exact (fd : ℕ) (cb : Bool) {ops : List DeliveryOp} {t : Delivery}
    (h : Runs.exec step (init fd cb) ops = some t) :
    (Runs.EveryStep step GuardsAgree (init fd cb) ops →
      Runs.EveryStep step Notifies (init fd cb) ops ∧
        Runs.EveryState step Callable (init fd cb) ops) ∧
    (cb = false → Runs.EveryStep step Notifies (init fd cb) ops →
      Runs.EveryStep step GuardsAgree (init fd cb) ops) := by
  have hinit := steady_init fd cb
  constructor
  · intro hg
    constructor
    · exact Runs.EveryStep.of_invariant (I := Steady cb)
        (fun _ _ _ hs hst hgs => hs.step hst hgs)
        (fun _ _ _ hs hst hgs => hs.notifies hst hgs) hinit h hg
    · have hstates := Runs.EveryStep.everyState (P := fun s => Steady cb s ∧ s.Callable)
        (fun _ _ _ hs hst hgs => ⟨hs.1.step hst hgs, hs.1.callable hs.2 hst hgs⟩)
        ⟨hinit, fun f hf => nomatch hf⟩ h hg
      exact fun pre hpre u hu => (hstates pre hpre u hu).2
  · rintro rfl hn
    refine Runs.EveryStep.of_invariant
      (I := fun s => s.conn.WellFormed ∧ s.conn.writeCompleteCallback = false) ?_ ?_
      ⟨hinit.conn, hinit.callback⟩ h hn
    · rintro s op u ⟨hwf, hcb⟩ hst -
      obtain ⟨hconn, hsame⟩ := (step_moves hwf hst).wellFormed hwf
      exact ⟨hconn, hsame.trans hcb⟩
    · rintro s op u ⟨hwf, hcb⟩ hst hns
      exact Steady.guardsAgree hwf hcb hst hns

/-- The theorem on a message that is written in three pieces, and whose sender is notified. -/
theorem notifies_exact_demo :
    Runs.EveryStep step Notifies (init 5 true)
        [.send [97, 98, 99] 1, .handleWrite 1, .handleWrite 1, .doPendingFunctors] ∧
      Runs.EveryState step Callable (init 5 true)
        [.send [97, 98, 99] 1, .handleWrite 1, .handleWrite 1, .doPendingFunctors] := by
  obtain ⟨t, ht⟩ := Option.isSome_iff_exists.1
    (by decide +kernel : (Runs.exec step (init 5 true)
      [.send [97, 98, 99] 1, .handleWrite 1, .handleWrite 1, .doPendingFunctors]).isSome = true)
  exact (notifies_exact 5 true ht).1 (Runs.everyStep_of_checkSteps (by decide +kernel))

/-- A connection as `newConnection` leaves it, without the callback: the second write drains the
buffer, an empty function is queued, and the loop throws when it invokes it. -/
theorem exists_empty_functor :
    ∃ t, Runs.exec step (init 5 false) [.send [97, 98] 1, .handleWrite 1] = some t ∧
      t.pendingFunctors = [false] ∧ ¬t.Callable ∧ t.step .doPendingFunctors = none ∧
      ¬Runs.EveryStep step Notifies (init 5 false) [.send [97, 98] 1, .handleWrite 1] := by
  have hfirst : ((init 5 false).step (.send [97, 98] 1)).map
      (fun s => (s.pendingFunctors, s.conn.writeCompleteCallback)) = some ([], false) := by
    decide +kernel
  obtain ⟨s, hs, hview⟩ := Option.map_eq_some_iff.1 hfirst
  obtain ⟨hnone, hcb⟩ := Prod.mk.inj hview
  have hsecond : (Runs.exec step (init 5 false) [.send [97, 98] 1, .handleWrite 1]).map
      (fun t => (t.pendingFunctors, t.step .doPendingFunctors)) = some ([false], none) := by
    decide +kernel
  obtain ⟨t, ht, hview⟩ := Option.map_eq_some_iff.1 hsecond
  obtain ⟨hqueued, hthrows⟩ := Prod.mk.inj hview
  refine ⟨t, ht, hqueued, ?_, hthrows, ?_⟩
  · intro hcallable
    have hset := hcallable false (by simp [hqueued])
    cases hset
  · intro hn
    have hst : s.step (.handleWrite 1) = some t := by
      rw [Runs.exec_cons_of_step hs, Runs.exec_singleton] at ht
      exact ht
    have hright := hn [.send [97, 98] 1] (.handleWrite 1) (List.prefix_refl _) s
      ((Runs.exec_singleton _ _).trans hs) t hst
    simp [hnone, hcb, hqueued] at hright

end Delivery

end G5
