/-
**Runs of one connection.**

A session is a connection together with its surroundings: the descriptor and the kernel's table of
interests, the bytes the kernel has taken, the functors it has queued, and the messages it was
asked to send.  A step is one call, with the result of the `write` it makes; a `send` that throws
has written, and does nothing more.

Main definitions:

* `Session`, `Session.step` — the runs;
* `Session.StreamIntact` — nothing is lost, repeated or overtaken on the way to the kernel;
* `Session.InterestExact` — the kernel is told about writing exactly while there is something to
  write.

Main results:

* `Session.everyState_streamIntact_iff` — for messages shorter than `2 ^ 31` bytes, the stream stays
  intact exactly as long as no result of a `write` leaves the range of `int`;
* `Session.everyState_interestExact_iff` — the interest stays exact exactly as long as no call
  changes the mask of a descriptor that is already registered.
-/

import G5.Net.TcpConnection
import G5.Lib.Progress

set_option relaxedAutoImplicit false
set_option autoImplicit false

namespace G5

/-- A connection and its surroundings. -/
structure Session where
  conn : TcpConnection
  epoll : Epoll Unit
  /-- the bytes the kernel has taken -/
  accepted : List Byte
  /-- the functors queued in the loop, each with whether the bound callback is set -/
  queued : List Bool
  /-- the messages of the calls of `send` that have returned -/
  sent : List (List Byte)
  established : Bool

/-- A call, with the result of the `write` that it makes, if it makes one. -/
inductive SessionOp
  | connectEstablished
  | send (msg : List Byte) (ret : ℤ)
  | handleWrite (ret : ℤ)
  deriving DecidableEq, Repr

/-- A message is shorter than `2 ^ 31` bytes. -/
def SessionOp.isShort : SessionOp → Bool
  | .send msg _ => msg.length < 2 ^ 31
  | _ => true

theorem SessionOp.isShort_send {msg : List Byte} {ret : ℤ} :
    (SessionOp.send msg ret).isShort = true ↔ msg.length < 2 ^ 31 := decide_eq_true_iff

namespace Session

/-! ### Runs -/

/-- A connection that has just been made for the descriptor `fd`. -/
def init (fd : ℕ) (writeCompleteCallback : Bool) : Session where
  conn := { TcpConnection.new fd with
    connectionCallback := true
    messageCallback := true
    writeCompleteCallback := writeCompleteCallback }
  epoll := Epoll.init.openFd fd ()
  accepted := []
  queued := []
  sent := []
  established := false

/-- What an effect does to the surroundings. -/
def perform (s : Session) : Effect → Session
  | .write _ accepted => { s with accepted := s.accepted ++ accepted }
  | .close fd => { s with epoll := s.epoll.closeFd fd }
  | .update channel => { s with epoll := Epoller.update s.epoll () channel }
  | .queueWriteComplete set => { s with queued := s.queued ++ [set] }
  | .connectionCallback => { s with established := true }
  | .messageCallback => s

/-- The session after a call that has returned, thrown, or aborted; `before` is what a call that
throws has done. -/
def finish (s : Session) (sent : List (List Byte)) (before : List Effect) :
    Checked (TcpConnection × List Effect) → Option Session
  | .ok (conn, effects) =>
      some (effects.foldl perform { s with conn := conn, sent := s.sent ++ sent })
  | .error .outOfRange => some (before.foldl perform s)
  | .error _ => none

/-- One call.  A `write` returns -1, or a count up to the one requested. -/
def step (s : Session) : SessionOp → Option Session
  | .connectEstablished => s.finish [] [] s.conn.connectEstablished
  | .send msg ret =>
      if s.conn.outputBuf.readable = [] → -1 ≤ ret ∧ ret ≤ msg.length then
        s.finish [msg] (s.conn.sendDirect msg ret).2 (s.conn.send msg ret)
      else none
  | .handleWrite ret =>
      if s.conn.outputBuf.readable ≠ [] →
          -1 ≤ ret ∧ ret ≤ s.conn.outputBuf.readable.length then
        s.finish [] [] (s.conn.handleWrite ret)
      else none

/-! ### What every state satisfies -/

/-- The connection is well formed and its descriptor is open. -/
structure WellFormed (s : Session) : Prop where
  conn : s.conn.WellFormed
  connectionCallback : s.conn.connectionCallback = true
  owner : s.epoll.owner s.conn.fd = some ()

theorem wellFormed_init (fd : ℕ) (cb : Bool) : (init fd cb).WellFormed where
  conn := ⟨rfl, (TcpConnection.wellFormed_new fd).input, (TcpConnection.wellFormed_new fd).output,
    (TcpConnection.wellFormed_new fd).writing⟩
  connectionCallback := rfl
  owner := by simp [init, Epoll.openFd, TcpConnection.new]

theorem step_connectEstablished {s t : Session} (h : s.WellFormed)
    (hst : s.step .connectEstablished = some t) :
    t = { s with
      conn := { s.conn with channel := s.conn.channel.enableReading true }
      epoll := Epoller.update s.epoll () (s.conn.channel.enableReading true)
      established := true } := by
  rw [step, TcpConnection.connectEstablished, if_pos h.connectionCallback] at hst
  simp only [finish, List.append_nil, Option.some_inj] at hst
  exact hst.symm

/-- What a call of `send` does to the session. -/
theorem step_send {s t : Session} (h : s.WellFormed) {msg : List Byte} {ret : ℤ}
    (hst : s.step (.send msg ret) = some t) :
    (s.conn.outputBuf.readable = [] → -1 ≤ ret ∧ ret ≤ msg.length) ∧
      ∃ r, r = s.conn.send msg ret ∧ TcpConnection.IntOutcome s.conn msg ret r ∧
        s.finish [msg] (s.conn.sendDirect msg ret).2 r = some t := by
  simp only [step] at hst
  split at hst
  · rename_i hg
    exact ⟨hg, s.conn.send msg ret, rfl, TcpConnection.send_int_cases h.conn msg ret, hst⟩
  · cases hst

/-- What it does with a message shorter than `2 ^ 31` bytes. -/
theorem step_send_short {s t : Session} (h : s.WellFormed) {msg : List Byte} {ret : ℤ}
    (hlen : msg.length < 2 ^ 31) (hst : s.step (.send msg ret) = some t) :
    ∃ r, TcpConnection.SendOutcome s.conn msg ret r ∧
      s.finish [msg] (s.conn.sendDirect msg ret).2 r = some t := by
  obtain ⟨hret, r, hr, -, hfin⟩ := step_send h hst
  exact ⟨r, hr ▸ TcpConnection.send_cases h.conn hlen hret, hfin⟩

/-- What a call of `handleWrite` does to the session. -/
theorem step_handleWrite {s t : Session} (h : s.WellFormed) {ret : ℤ}
    (hst : s.step (.handleWrite ret) = some t) :
    (s.conn.outputBuf.readable ≠ [] → -1 ≤ ret ∧ ret ≤ s.conn.outputBuf.readable.length) ∧
      ∃ r, TcpConnection.WriteOutcome s.conn ret r ∧ s.finish [] [] r = some t := by
  simp only [step] at hst
  split at hst
  · rename_i hg
    exact ⟨hg, _, TcpConnection.handleWrite_cases h.conn hg, hst⟩
  · cases hst

/-- Effects leave the connection as it is, and its descriptor open if none is a `close`. -/
theorem foldl_perform (s : Session) {effects : List Effect} (hopen : ∀ fd, .close fd ∉ effects) :
    (effects.foldl perform s).conn = s.conn ∧
      (effects.foldl perform s).epoll.owner = s.epoll.owner := by
  -- induction on the effects
  induction effects generalizing s with
  | nil => exact ⟨rfl, rfl⟩
  | cons e effects ih =>
      have hrest : ∀ fd, .close fd ∉ effects := fun fd he => hopen fd (List.mem_cons_of_mem _ he)
      obtain ⟨hconn, howner⟩ := ih (s.perform e) hrest
      rw [List.foldl_cons, hconn, howner]
      cases e with
      | close fd => exact absurd List.mem_cons_self (hopen fd)
      | update channel => exact ⟨rfl, Epoll.ctlAdd_owner _ _ _ _⟩
      | write | queueWriteComplete | connectionCallback | messageCallback => exact ⟨rfl, rfl⟩

/-- A call that returns or throws. -/
theorem WellFormed.finish {s t : Session} (h : s.WellFormed) {sent : List (List Byte)}
    {before : List Effect} {r : Checked (TcpConnection × List Effect)}
    (hbefore : ∀ fd, .close fd ∉ before)
    (hr : ∀ c effects, r = .ok (c, effects) → s.conn.Keeps c effects)
    (hfin : s.finish sent before r = some t) : t.WellFormed := by
  rcases r with e | ⟨c, effects⟩
  · cases e with
    | outOfRange =>
        obtain ⟨hsame, howner⟩ := foldl_perform s hbefore
        cases hfin
        refine ⟨?_, ?_, ?_⟩
        · rw [hsame]
          exact h.conn
        · rw [hsame]
          exact h.connectionCallback
        · rw [hsame, howner]
          exact h.owner
    | assertion | badFunctionCall | nullPointer | outOfBounds => cases hfin
  · obtain ⟨hconn, hfd, hcallback, hopen⟩ := hr c effects rfl
    obtain ⟨hsame, howner⟩ :=
      foldl_perform { s with conn := c, sent := s.sent ++ sent } hopen
    cases hfin
    refine ⟨?_, ?_, ?_⟩
    · rw [hsame]
      exact hconn
    · rw [hsame]
      exact hcallback.trans h.connectionCallback
    · rw [hsame, howner]
      exact (congrArg s.epoll.owner hfd).trans h.owner

theorem wellFormed_step {s t : Session} {op : SessionOp} (h : s.WellFormed)
    (hst : s.step op = some t) : t.WellFormed := by
  have hc := h.conn
  cases op with
  | connectEstablished =>
      rw [step_connectEstablished h hst]
      refine ⟨⟨?_, hc.input, hc.output, ?_⟩, h.connectionCallback, ?_⟩
      · simpa using hc.channel_fd
      · simpa using hc.writing
      · simpa [Epoller.update] using h.owner
  | send msg ret =>
      obtain ⟨-, r, -, hr, hfin⟩ := step_send h hst
      refine h.finish (s.conn.no_close_sendDirect msg ret) ?_ hfin
      rintro c effects rfl
      exact TcpConnection.keeps_send hc hr
  | handleWrite ret =>
      obtain ⟨-, r, hr, hfin⟩ := step_handleWrite h hst
      refine h.finish (fun fd => List.not_mem_nil) ?_ hfin
      rintro c effects rfl
      exact TcpConnection.keeps_handleWrite hc hr

/-! ### The byte stream -/

/-- The bytes the kernel has taken, followed by the waiting ones, are the messages in the order in
which they were sent; and writing is enabled exactly while bytes wait. -/
def StreamIntact (s : Session) : Prop :=
  s.accepted ++ s.conn.outputBuf.readable = s.sent.flatten ∧
    (s.conn.outputBuf.readable ≠ [] ↔ s.conn.channel.isWriting = true)

/-- The result of the `write` that `handleWrite` makes fits in an `int`. -/
def ResultFits (s : Session) : SessionOp → Prop
  | .handleWrite ret => s.conn.outputBuf.readable ≠ [] → ret < 2 ^ 31
  | _ => True

instance (s : Session) (op : SessionOp) : Decidable (s.ResultFits op) := by
  unfold ResultFits
  split <;> infer_instance

theorem streamIntact_init (fd : ℕ) (cb : Bool) : (init fd cb).StreamIntact := by
  refine ⟨?_, (wellFormed_init fd cb).conn.writing.symm⟩
  have hempty : (Buffer.empty kInitialSize).readable = [] :=
    (Buffer.represents_empty kInitialSize).readable_eq
  simp [init, TcpConnection.new, hempty]

/-- A `write` whose result leaves the range of `int` has moved more bytes than `handleWrite` takes
out of the buffer. -/
theorem not_streamIntact_of_result {s t : Session} (h : s.WellFormed) (hs : s.StreamIntact)
    {ret : ℤ} (hst : s.step (.handleWrite ret) = some t)
    (hq : s.conn.outputBuf.readable ≠ []) (hret : 2 ^ 31 ≤ ret) : ¬t.StreamIntact := by
  obtain ⟨hrange, r, hr, hfin⟩ := step_handleWrite h hst
  obtain ⟨-, hhi⟩ := hrange hq
  have hint : toInt32 ret < 2 ^ 31 := toInt32_lt ret
  have hlen := congrArg List.length hs.1
  have hcount : (s.conn.outputBuf.readable.take ret.toNat).length = ret.toNat := by
    rw [List.length_take]
    omega
  rw [List.length_append] at hlen
  rintro ⟨ht, -⟩
  have hlen' := congrArg List.length ht
  cases hr with
  | idle hq' => exact hq hq'
  | nothing _ hle =>
      cases hfin
      simp only [List.foldl, perform, List.append_nil, List.length_append, hcount] at hlen'
      omega
  | part out _ hpos hlt hrep =>
      cases hfin
      simp only [List.foldl, perform, List.append_nil, List.length_append, hcount,
        hrep.readable_eq, List.length_drop] at hlen'
      omega
  | drained out _ heq hrep =>
      cases hfin
      simp only [List.foldl, perform, List.append_nil, List.length_append, hcount,
        hrep.readable_eq] at hlen'
      omega

/-- `send` leaves the stream intact, whatever the kernel takes of a message shorter than `2 ^ 31`
bytes. -/
theorem streamIntact_send {s t : Session} {msg : List Byte} {ret : ℤ} (h : s.WellFormed)
    (hs : s.StreamIntact) (hlen : msg.length < 2 ^ 31)
    (hst : s.step (.send msg ret) = some t) : t.StreamIntact := by
  have hbytes := hs.1
  refine ⟨?_, (wellFormed_step h hst).conn.writing.symm⟩
  obtain ⟨r, hr, hfin⟩ := step_send_short h hlen hst
  cases hr with
  | threw hq hret =>
      -- nothing was taken
      rw [hret, TcpConnection.sendDirect_failed h.conn hq] at hfin
      cases hfin
      simpa [perform] using hbytes
  | all queued hq hret hqueued =>
      subst hqueued
      cases hcb : s.conn.writeCompleteCallback <;>
      · simp only [finish, hcb, Option.some_inj] at hfin
        subst hfin
        simpa [perform, hq] using hbytes
  | short out hq hpos hlt hrep =>
      cases hfin
      rw [hq, List.append_nil] at hbytes
      simp [perform, hrep.readable_eq, ← hbytes]
  | buffered out hq hrep =>
      cases hfin
      simp [hrep.readable_eq, ← hbytes]

/-- `handleWrite` leaves the stream intact if nothing waits, or if its result fits. -/
theorem streamIntact_handleWrite {s t : Session} {ret : ℤ} (h : s.WellFormed)
    (hs : s.StreamIntact) (hst : s.step (.handleWrite ret) = some t)
    (hfit : s.conn.outputBuf.readable ≠ [] → ret < 2 ^ 31) : t.StreamIntact := by
  have hbytes := hs.1
  refine ⟨?_, (wellFormed_step h hst).conn.writing.symm⟩
  obtain ⟨hrange, r, hr, hfin⟩ := step_handleWrite h hst
  have hint : s.conn.outputBuf.readable ≠ [] → toInt32 ret = ret := by
    intro hq
    have hlo := (hrange hq).1
    exact toInt32_eq (by omega) (hfit hq)
  cases hr with
  | idle hq =>
      cases hfin
      simpa using hbytes
  | nothing hq hle =>
      cases hfin
      have hsame := hint hq
      have hzero : ret.toNat = 0 := by omega
      simpa [perform, hzero] using hbytes
  | part out hq hpos hlt hrep =>
      cases hfin
      rw [hint hq] at hrep
      simpa [perform, hrep.readable_eq] using hbytes
  | drained out hq heq hrep =>
      cases hfin
      have hsame := hint hq
      have htake : s.conn.outputBuf.readable.take ret.toNat =
          s.conn.outputBuf.readable := List.take_of_length_le (by omega)
      simpa [perform, hrep.readable_eq, htake] using hbytes

theorem streamIntact_step_iff {s t : Session} {op : SessionOp} (h : s.WellFormed)
    (hs : s.StreamIntact) (hshort : op.isShort = true) (hst : s.step op = some t) :
    t.StreamIntact ↔ s.ResultFits op := by
  cases op with
  | connectEstablished =>
      refine iff_of_true ⟨?_, (wellFormed_step h hst).conn.writing.symm⟩ trivial
      rw [step_connectEstablished h hst]
      exact hs.1
  | send msg ret =>
      exact iff_of_true (streamIntact_send h hs (SessionOp.isShort_send.1 hshort) hst) trivial
  | handleWrite ret =>
      constructor
      · intro ht hq
        by_contra hfit
        exact not_streamIntact_of_result h hs hst hq (Int.not_lt.1 hfit) ht
      · intro hfit
        exact streamIntact_handleWrite h hs hst hfit

/-- **The stream of a connection is intact exactly while results fit.**  In a run of calls of
`connectEstablished`, `send` and `handleWrite`, with messages shorter than `2 ^ 31` bytes and
whatever the kernel takes of each `write`, the bytes it has taken followed by the waiting ones are
the messages in order, and writing is enabled exactly while bytes wait, in every state of the run —
if and only if the result of every `write` made by `handleWrite` fits in an `int`. -/
theorem everyState_streamIntact_iff (fd : ℕ) (cb : Bool) {ops : List SessionOp} {t : Session}
    (h : Runs.exec (Runs.only step SessionOp.isShort) (init fd cb) ops = some t) :
    Runs.EveryState (Runs.only step SessionOp.isShort) StreamIntact (init fd cb) ops ↔
      Runs.EveryStep (Runs.only step SessionOp.isShort) ResultFits (init fd cb) ops :=
  Runs.everyState_iff_everyStep (I := WellFormed)
    (fun _ _ _ hwf _ hst _ => wellFormed_step hwf (Runs.only_eq_some.1 hst).2)
    (fun _ _ _ hwf hs hst =>
      streamIntact_step_iff hwf hs (Runs.only_eq_some.1 hst).1 (Runs.only_eq_some.1 hst).2)
    (wellFormed_init fd cb) (streamIntact_init fd cb) h

/-- A call of `send` whose direct write takes nothing leaves the whole message waiting. -/
theorem exists_step_send_zero {s : Session} (h : s.WellFormed) {msg : List Byte}
    (hne : msg ≠ []) (hlen : msg.length < 2 ^ 31) :
    ∃ t, s.step (.send msg 0) = some t ∧
      t.conn.outputBuf.readable = s.conn.outputBuf.readable ++ msg := by
  have hret : s.conn.outputBuf.readable = [] → (-1 : ℤ) ≤ 0 ∧ (0 : ℤ) ≤ msg.length :=
    fun _ => by omega
  have hpos := List.length_pos_iff.2 hne
  rw [step, if_pos hret]
  generalize hr : s.conn.send msg 0 = r
  have hcases := hr ▸ TcpConnection.send_cases h.conn hlen hret
  cases hcases with
  | threw hq hneg => omega
  | all queued hq hall hqueued => omega
  | short out hq hlo hlt hrep =>
      refine ⟨_, rfl, ?_⟩
      rw [hq]
      exact hrep.readable_eq
  | buffered out hq hrep => exact ⟨_, rfl, hrep.readable_eq⟩

/-- A call of `handleWrite` returns. -/
theorem exists_step_handleWrite {s : Session} (h : s.WellFormed) {ret : ℤ}
    (hret : -1 ≤ ret ∧ ret ≤ s.conn.outputBuf.readable.length) :
    ∃ t, s.step (.handleWrite ret) = some t := by
  rw [step, if_pos fun _ => hret]
  generalize hr : s.conn.handleWrite ret = r
  have hcases := hr ▸ TcpConnection.handleWrite_cases h.conn fun _ => hret
  cases hcases with
  | idle => exact ⟨_, rfl⟩
  | nothing => exact ⟨_, rfl⟩
  | part => exact ⟨_, rfl⟩
  | drained => exact ⟨_, rfl⟩

/-- A message of half the bytes that an `int` can count. -/
def halfMessage : List Byte := List.replicate (2 ^ 30) 0

/-- Two messages that together wait as `2 ^ 31` bytes, all of which the next `write` takes. -/
theorem exists_not_streamIntact :
    ∃ t, Runs.exec (Runs.only step SessionOp.isShort) (init 5 false)
      [.send halfMessage 0, .send halfMessage 0, .handleWrite (2 ^ 31)] = some t ∧
        ¬t.StreamIntact := by
  have hlen : halfMessage.length = 2 ^ 30 := List.length_replicate
  have hne : halfMessage ≠ [] := List.length_pos_iff.1 (by omega)
  have hshort : (SessionOp.send halfMessage 0).isShort = true :=
    SessionOp.isShort_send.2 (by omega)
  have hwf := wellFormed_init 5 false
  have hread := (Buffer.represents_empty kInitialSize).readable_eq
  obtain ⟨s₁, hs₁, hread₁⟩ := exists_step_send_zero hwf hne (by omega)
  have hwf₁ := wellFormed_step hwf hs₁
  have hint₁ := (streamIntact_step_iff hwf (streamIntact_init 5 false) hshort hs₁).2 trivial
  obtain ⟨s₂, hs₂, hread₂⟩ := exists_step_send_zero hwf₁ hne (by omega)
  have hwf₂ := wellFormed_step hwf₁ hs₂
  have hint₂ := (streamIntact_step_iff hwf₁ hint₁ hshort hs₂).2 trivial
  have hcount : s₂.conn.outputBuf.readable.length = 2 ^ 31 := by
    rw [hread₂, hread₁, List.length_append, List.length_append, hlen]
    simp [init, TcpConnection.new, hread]
  have hwaiting : s₂.conn.outputBuf.readable ≠ [] := List.length_pos_iff.1 (by omega)
  have hret : (-1 : ℤ) ≤ 2 ^ 31 ∧ (2 : ℤ) ^ 31 ≤ s₂.conn.outputBuf.readable.length := by omega
  obtain ⟨t, ht⟩ := exists_step_handleWrite hwf₂ hret
  refine ⟨t, ?_, not_streamIntact_of_result hwf₂ hint₂ ht hwaiting (Int.le_refl _)⟩
  rw [Runs.exec_cons_of_step (Runs.only_eq_some.2 ⟨hshort, hs₁⟩),
    Runs.exec_cons_of_step (Runs.only_eq_some.2 ⟨hshort, hs₂⟩), Runs.exec_singleton]
  exact Runs.only_eq_some.2 ⟨rfl, ht⟩

/-- A message of which the kernel takes one byte at once, and the other one later. -/
theorem everyState_streamIntact_demo :
    Runs.EveryStep (Runs.only step SessionOp.isShort) ResultFits (init 5 true)
        [.connectEstablished, .send [97, 98] 1, .handleWrite 1] ∧
      Runs.EveryState (Runs.only step SessionOp.isShort) StreamIntact (init 5 true)
        [.connectEstablished, .send [97, 98] 1, .handleWrite 1] := by
  have hfits : Runs.EveryStep (Runs.only step SessionOp.isShort) ResultFits (init 5 true)
      [.connectEstablished, .send [97, 98] 1, .handleWrite 1] :=
    Runs.everyStep_of_checkSteps (by decide +kernel)
  obtain ⟨t, ht⟩ := Option.isSome_iff_exists.1
    (by decide +kernel : (Runs.exec (Runs.only step SessionOp.isShort) (init 5 true)
      [.connectEstablished, .send [97, 98] 1, .handleWrite 1]).isSome = true)
  exact ⟨hfits, (everyState_streamIntact_iff 5 true ht).2 hfits⟩

/-! ### The registered interest -/

/-- The mask registered for the descriptor is the channel's own; and once the connection is
established, it asks for writing exactly while bytes wait. -/
def InterestExact (s : Session) : Prop :=
  s.epoll.interest s.conn.fd = s.conn.channel.events ∧
    (s.established = true →
      (s.epoll.interest s.conn.fd &&& EPOLLOUT ≠ 0 ↔ s.conn.outputBuf.readable ≠ []))

/-- The call finds the descriptor unregistered, or leaves the mask of the channel as it is.  With
nothing waiting, `send` leaves it as it is if the result of its `write` is, as an `int`, not less
than the length of the message; or if `substr` throws, where the result is a position beyond the
message. -/
def MaskKept (s : Session) (op : SessionOp) : Prop :=
  s.epoll.registered s.conn.fd = none ∨
    match op with
    | .connectEstablished => s.conn.channel.isReading = true
    | .send msg ret => s.conn.outputBuf.readable ≠ [] ∨
        toInt32 msg.length ≤ toInt32 ret ∨ msg.length < toSizeT (toInt32 ret)
    | .handleWrite ret =>
        s.conn.outputBuf.readable = [] ∨ toInt32 ret ≠ s.conn.outputBuf.readable.length

theorem interestExact_init (fd : ℕ) (cb : Bool) : (init fd cb).InterestExact :=
  ⟨rfl, fun h => nomatch h⟩

/-- Of the two halves of the property, the first implies the second. -/
theorem WellFormed.interestExact_iff {s : Session} (h : s.WellFormed) :
    s.InterestExact ↔ s.epoll.interest s.conn.fd = s.conn.channel.events := by
  refine ⟨fun hs => hs.1, fun hs => ⟨hs, fun _ => ?_⟩⟩
  rw [hs, ← h.conn.writing, Channel.isWriting, decide_eq_true_iff, kWriteEvent]

/-- After a call of `update`, the masks agree exactly if the descriptor was not registered or the
mask is the one it had. -/
theorem WellFormed.interest_update_iff {s : Session} (h : s.WellFormed)
    (hs : s.epoll.interest s.conn.fd = s.conn.channel.events) (ch : Channel)
    (hfd : ch.fd = s.conn.channel.fd) :
    (Epoller.update s.epoll () ch).interest s.conn.fd = ch.events ↔
      s.epoll.registered s.conn.fd = none ∨ ch.events = s.conn.channel.events := by
  rw [Epoller.update, hfd, h.conn.channel_fd, Epoll.interest_ctlAdd h.owner, hs]
  by_cases hr : s.epoll.registered s.conn.fd = none
  · simp [hr]
  · simp [hr, eq_comm]

theorem interestExact_step_iff {s t : Session} {op : SessionOp} (h : s.WellFormed)
    (hs : s.InterestExact) (hst : s.step op = some t) : t.InterestExact ↔ s.MaskKept op := by
  have hsync := hs.1
  have hupdate := h.interest_update_iff hsync
  rw [(wellFormed_step h hst).interestExact_iff]
  cases op with
  | connectEstablished =>
      rw [step_connectEstablished h hst, MaskKept, ← Channel.enableReading_events_eq_iff]
      exact hupdate _ (by simp)
  | send msg ret =>
      obtain ⟨-, r, -, hr, hfin⟩ := step_send h hst
      cases hr with
      | threw hq hlt hout =>
          rw [TcpConnection.sendDirect_eq h.conn hq, if_neg fun hall => hlt.ne hall.2.1] at hfin
          cases hfin
          exact iff_of_true hsync (Or.inr (Or.inr (Or.inr hout)))
      | all queued hq hle hqueued =>
          subst hqueued
          have hkept : s.MaskKept (.send msg ret) := Or.inr (Or.inr (Or.inl hle))
          split_ifs at hfin <;>
          · cases hfin
            exact iff_of_true hsync hkept
      | short out hq hlt hin hrep =>
          cases hfin
          refine (hupdate (s.conn.channel.enableWriting true) (by simp)).trans ?_
          have hnw : s.conn.channel.isWriting = false := by simpa [hq] using h.conn.writing
          rw [MaskKept, Channel.enableWriting_events_eq_iff, hnw]
          refine or_congr_right (iff_of_false (by simp) ?_)
          rintro (hne | hle | hout)
          · exact hne hq
          · exact absurd hlt (not_lt.2 hle)
          · exact absurd hin (not_lt.2 hout.le)
      | buffered out hq hrep =>
          cases hfin
          exact iff_of_true hsync (Or.inr (Or.inl hq))
  | handleWrite ret =>
      obtain ⟨-, r, hr, hfin⟩ := step_handleWrite h hst
      cases hr with
      | idle hq =>
          cases hfin
          exact iff_of_true hsync (Or.inr (Or.inl hq))
      | nothing hq hle =>
          cases hfin
          have hpos := List.length_pos_iff.2 hq
          exact iff_of_true hsync (Or.inr (Or.inr (by omega)))
      | part out hq hpos hlt hrep =>
          cases hfin
          exact iff_of_true hsync (Or.inr (Or.inr (by omega)))
      | drained out hq heq hrep =>
          cases hfin
          refine (hupdate (s.conn.channel.enableWriting false) (by simp)).trans ?_
          rw [MaskKept, Channel.enableWriting_events_eq_iff, h.conn.writing.2 hq]
          exact or_congr_right (iff_of_false (by simp) (by simp [hq, heq]))

/-- The interest is exact in every state of a run exactly when no call of the run changes the mask
of a descriptor that is registered already. -/
theorem everyState_interestExact_iff (fd : ℕ) (cb : Bool) {ops : List SessionOp} {t : Session}
    (h : Runs.exec step (init fd cb) ops = some t) :
    Runs.EveryState step InterestExact (init fd cb) ops ↔
      Runs.EveryStep step MaskKept (init fd cb) ops :=
  Runs.everyState_iff_everyStep (I := WellFormed)
    (fun _ _ _ hwf _ hst _ => wellFormed_step hwf hst)
    (fun _ _ _ hwf hs hst => interestExact_step_iff hwf hs hst)
    (wellFormed_init fd cb) (interestExact_init fd cb) h

/-- **The table of interests follows the channels exactly while no registered mask changes.**  For
any number of channels on one epoll instance, and for a connection under `connectEstablished`,
`send` and `handleWrite`: the registered masks are the channels' own in every state of a run if and
only if no call of the run changes the mask of a descriptor that is registered already. -/
theorem interest_registered_iff {ι : Type} [DecidableEq ι] (channels : ι → Channel)
    {calls : List (WatchOp ι)} {w : Watch ι}
    (hw : Runs.exec Watch.step (Watch.init channels) calls = some w)
    (fd : ℕ) (cb : Bool) {ops : List SessionOp} {t : Session}
    (ht : Runs.exec step (init fd cb) ops = some t) :
    (Runs.EveryState Watch.step Watch.InSync (Watch.init channels) calls ↔
        Runs.EveryStep Watch.step Watch.Harmless (Watch.init channels) calls) ∧
      (Runs.EveryState step InterestExact (init fd cb) ops ↔
        Runs.EveryStep step MaskKept (init fd cb) ops) :=
  ⟨Watch.everyState_inSync_iff channels hw, everyState_interestExact_iff fd cb ht⟩

/-- The theorem on runs that leave the registered masks as they are. -/
theorem interest_registered_demo :
    (Runs.EveryState Watch.step Watch.InSync (Watch.init Channel.new)
        [.openFd 5 5, .enableReading 5 true] ↔
      Runs.EveryStep Watch.step Watch.Harmless (Watch.init Channel.new)
        [.openFd 5 5, .enableReading 5 true]) ∧
    (Runs.EveryState step InterestExact (init 5 true) [.connectEstablished, .send [97, 98] 2] ↔
      Runs.EveryStep step MaskKept (init 5 true) [.connectEstablished, .send [97, 98] 2]) := by
  obtain ⟨w, hw⟩ := Option.isSome_iff_exists.1
    (by decide +kernel : (Runs.exec Watch.step (Watch.init Channel.new)
      [.openFd 5 5, .enableReading 5 true]).isSome = true)
  obtain ⟨t, ht⟩ := Option.isSome_iff_exists.1
    (by decide +kernel : (Runs.exec step (init 5 true)
      [.connectEstablished, .send [97, 98] 2]).isSome = true)
  exact interest_registered_iff Channel.new hw 5 true ht

/-- A short direct write after `connectEstablished`: a byte waits, and nobody asks for writing. -/
theorem exists_waiting_unwatched :
    ∃ t, Runs.exec step (init 5 false) [.connectEstablished, .send [97, 98] 1] = some t ∧
      t.established = true ∧ t.conn.outputBuf.readable = [98] ∧
      t.conn.channel.events = EPOLLIN ||| EPOLLOUT ∧ t.epoll.interest t.conn.fd = EPOLLIN := by
  have h : (Runs.exec step (init 5 false) [.connectEstablished, .send [97, 98] 1]).map
      (fun t => (t.established, t.conn.outputBuf.readable, t.conn.channel.events,
        t.epoll.interest t.conn.fd)) = some (true, [98], EPOLLIN ||| EPOLLOUT, EPOLLIN) := by
    decide +kernel
  obtain ⟨t, ht, hview⟩ := Option.map_eq_some_iff.1 h
  simp only [Prod.mk.injEq] at hview
  exact ⟨t, ht, hview⟩

end Session

end G5
