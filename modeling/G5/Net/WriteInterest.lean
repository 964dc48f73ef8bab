/-
**Writability is never reported** (`src/net/Epoller.cc`, `src/net/TcpConnection.cc`).

`Epoller::update` always adds, so that a channel is registered once, with the mask that it has then,
and what it asks for later is lost.  A connection is registered by `connectEstablished`, for
reading.  So the kernel never reports that it may be written to, its `handleWrite` is never called,
and what a `send` has left in the output buffer stays there, with everything that is sent later.

Main definitions:

* `TcpServer.writes` — the `write`s of a connection;
* `ServerLoop.ReadOnly` — channels are watched for reading, and for nothing else;
* `ServerLoop.Unasked` — nobody is to be told that a connection may be written to;
* `ServerLoop.Muted` — a connection has something to write, and does not write.

Main results:

* `ServerLoop.readOnly_step` — **no harmless step breaks the invariant**;
* `ServerLoop.muted_of_exec` — **a connection that could not write everything writes nothing more**,
  and nobody ever asks whether it may.
-/

import G5.Net.ChannelLifetime

set_option relaxedAutoImplicit false
set_option autoImplicit false

namespace G5

/-! ### The writes of a connection -/

/-- What the kernel has taken, if the effect is a `write`. -/
def Effect.write? : Effect → Option (List Byte)
  | .write _ accepted => some accepted
  | _ => none

/-- What the kernel has taken, if the call is a `write` of the connection. -/
def Call.write? (i : ℕ) (call : Call) : Option (List Byte) :=
  if call.conn = i then
    match call.kind with
    | .write accepted => some accepted
    | .close => none
  else none

namespace TcpServer

/-- The `write`s that a connection has made, each with what the kernel has taken. -/
def writes (s : TcpServer) (i : ℕ) : List (List Byte) := s.calls.filterMap (Call.write? i)

/-- The effects queue no write-complete functor. -/
def QueuesNothing (effects : List Effect) : Prop := ∀ set, .queueWriteComplete set ∉ effects

section

variable {s : TcpServer} {i j : ℕ} {c c' : TcpConnection} {effects : List Effect}

/-- The writes of a call are those of its connection. -/
theorem writes_foldl (s : TcpServer) (i j : ℕ) (effects : List Effect) :
    (effects.foldl (perform j) s).writes i =
      s.writes i ++ if j = i then effects.filterMap Effect.write? else [] := by
  -- induction on the effects
  induction effects generalizing s with
  | nil => simp
  | cons e effects ih =>
      rw [List.foldl_cons, ih]
      by_cases hij : j = i
      · cases e <;> simp [hij, perform, writes, Call.write?, Effect.write?, List.filterMap_cons]
      · cases e <;> simp [hij, perform, writes, Call.write?]

theorem writes_finish (s : TcpServer) (i j : ℕ) (c : TcpConnection) (effects : List Effect) :
    (s.finish j c effects).writes i =
      s.writes i ++ if j = i then effects.filterMap Effect.write? else [] :=
  writes_foldl { s with conns := s.conns.set j c } i j effects

/-- A call that asks for no functor queues none. -/
theorem pendingFunctors_foldl (s : TcpServer) (j : ℕ) (h : QueuesNothing effects) :
    (effects.foldl (perform j) s).pendingFunctors = s.pendingFunctors := by
  -- induction on the effects
  induction effects generalizing s with
  | nil => rfl
  | cons e effects ih =>
      have htail : QueuesNothing effects := fun set hset => h set (List.mem_cons_of_mem _ hset)
      rw [List.foldl_cons, ih _ htail]
      cases e with
      | queueWriteComplete set => exact absurd List.mem_cons_self (h set)
      | write | close | update | connectionCallback | messageCallback => rfl

theorem conns_foldl (s : TcpServer) (j : ℕ) (effects : List Effect) :
    (effects.foldl (perform j) s).conns = s.conns := by
  induction effects generalizing s with
  | nil => rfl
  | cons e effects ih =>
      rw [List.foldl_cons, ih]
      cases e <;> rfl

/-- Only the connection that is called is replaced. -/
theorem getElem?_finish_of_ne (s : TcpServer) (c' : TcpConnection) (effects : List Effect)
    (hij : i ≠ j) : (s.finish j c' effects).conns[i]? = s.conns[i]? := by
  rw [finish, conns_foldl, List.getElem?_set_ne (Ne.symm hij)]

theorem getElem?_finish_self (hc : s.conns[i]? = some c) (c' : TcpConnection)
    (effects : List Effect) : (s.finish i c' effects).conns[i]? = some c' := by
  have hlt : i < s.conns.length := (List.getElem?_eq_some_iff.1 hc).1
  rw [finish, conns_foldl, List.getElem?_set_self hlt]

end

end TcpServer

/-! ### What a call leaves to be written -/

namespace TcpConnection

/-- The output buffer is sound, and nobody is to be told when it has been written. -/
structure Silent (c : TcpConnection) : Prop where
  output : c.outputBuf.Represents c.outputBuf.readable
  unset : c.writeCompleteCallback = false

theorem silent_new (fd : ℕ) : (new fd).Silent where
  output := (wellFormed_new fd).output
  unset := rfl

section

variable {c c' : TcpConnection} {effects : List Effect}

theorem silent_handleRead {r : ReadResult} (h : c.Silent)
    (hok : c.handleRead r = .ok (c', effects)) :
    c'.Silent ∧ TcpServer.QueuesNothing effects ∧ c'.outputBuf = c.outputBuf ∧
      effects.filterMap Effect.write? = [] := by
  cases r with
  | eof | failed =>
      cases hok
      exact ⟨h, by simp [TcpServer.QueuesNothing], rfl, rfl⟩
  | data bytes =>
      obtain ⟨inputBuf, -, hok⟩ := bind_eq_ok.1 hok
      split at hok
      · cases hok
        exact ⟨⟨h.output, h.unset⟩, by simp [TcpServer.QueuesNothing], rfl, rfl⟩
      · cases hok

theorem connectEstablished_eq (hok : c.connectEstablished = .ok (c', effects)) :
    c' = { c with channel := c.channel.enableReading true } ∧
      effects = [.update (c.channel.enableReading true), .connectionCallback] := by
  simp only [connectEstablished] at hok
  split at hok
  · cases hok
    exact ⟨rfl, rfl⟩
  · cases hok

theorem queuesNothing_sendDirect (h : c.Silent) (msg : List Byte) (ret : ℤ) :
    TcpServer.QueuesNothing (c.sendDirect msg ret).2 := by
  simp only [sendDirect, h.unset]
  split
  · split <;> simp [TcpServer.QueuesNothing]
  · simp [TcpServer.QueuesNothing]

/-- What waits already is not overtaken: nothing is written. -/
theorem sendDirect_of_output (h : c.Silent) (hq : c.outputBuf.readable ≠ []) (msg : List Byte)
    (ret : ℤ) : c.sendDirect msg ret = (0, []) := by
  rw [sendDirect, if_neg]
  rwa [readableBytes_le_zero_iff h.output]

theorem silent_send {msg : List Byte} {ret : ℤ} (h : c.Silent)
    (hok : c.send msg ret = .ok (c', effects)) :
    c'.Silent ∧ TcpServer.QueuesNothing effects ∧
      c.outputBuf.readable <+: c'.outputBuf.readable ∧
      effects.filterMap Effect.write? = (c.sendDirect msg ret).2.filterMap Effect.write? := by
  have hdirect := queuesNothing_sendDirect h msg ret
  simp only [send] at hok
  split at hok
  · obtain ⟨rest, -, hok⟩ := bind_eq_ok.1 hok
    obtain ⟨outputBuf, hout, hok⟩ := bind_eq_ok.1 hok
    obtain ⟨outputBuf', hout', hrep, -⟩ := Buffer.append_spec h.output rest
    obtain rfl : outputBuf = outputBuf' := Except.ok.inj (hout.symm.trans hout')
    have hlonger : c.outputBuf.readable <+: outputBuf.readable := by
      rw [hrep.readable_eq]
      exact List.prefix_append _ _
    split at hok
    · cases hok
      exact ⟨⟨hrep.self, h.unset⟩, hdirect, hlonger, rfl⟩
    · cases hok
      refine ⟨⟨hrep.self, h.unset⟩, ?_, hlonger, by simp [Effect.write?]⟩
      intro set hset
      rcases List.mem_append.1 hset with hset | hset
      · exact hdirect set hset
      · simp at hset
  · cases hok
    exact ⟨h, hdirect, List.prefix_refl _, rfl⟩

end

end TcpConnection

/-! ### The loop -/

namespace EventLoop

variable {F : Type}

theorem functors_handleEvent (s : EventLoop F) (e : Event) :
    (s.handleEvent e).functors = s.functors ∧
      (s.handleEvent e).pendingFunctors = s.pendingFunctors := by
  unfold handleEvent
  cases e.channel with
  | own =>
      simp only
      split_ifs
      · exact ⟨rfl, rfl⟩
      · exact ⟨rfl, rfl⟩
  | other channel => exact ⟨rfl, rfl⟩

theorem functors_foldl (s : EventLoop F) (cbs : List F) :
    (cbs.foldl queueInLoop s).functors = s.functors ∧
      (cbs.foldl queueInLoop s).pendingFunctors = s.pendingFunctors ++ cbs := by
  -- induction on the functors
  induction cbs generalizing s with
  | nil => exact ⟨rfl, (List.append_nil _).symm⟩
  | cons cb cbs ih =>
      obtain ⟨hfunctors, hpending⟩ := ih (s.queueInLoop cb)
      refine ⟨hfunctors, hpending.trans ?_⟩
      change s.pendingFunctors ++ [cb] ++ cbs = s.pendingFunctors ++ cb :: cbs
      rw [List.append_assoc, List.singleton_append]

end EventLoop

namespace ServerLoop

/-! ### The invariant -/

/-- The functor tells nobody that something has been written. -/
def NotWriteComplete (f : Option Functor) : Prop := ∀ i set, f ≠ some (.writeComplete i set)

/-- The connections that have been established are registered for reading, as long as their number
is open; nothing is registered, reported or called for writing, and no connection has anybody to
tell when it has written. -/
structure ReadOnly (s : ServerLoop) : Prop where
  tidy : s.Tidy
  masks : ∀ n i mask, s.server.epoll.registered n = some (i, mask) → mask = kReadEvent
  watched : ∀ i n, .established i ∈ s.log → s.server.fd? i = some n →
    s.server.epoll.owner n = some i → s.server.epoll.registered n ≠ none
  unasked : ∀ (i : ℕ) (c : TcpConnection), s.server.conns[i]? = some c →
    .established i ∉ s.log → c.channel.events = 0
  silent : ∀ (i : ℕ) (c : TcpConnection), s.server.conns[i]? = some c → c.Silent
  ready : ∀ channels, s.loop.phase = .handling channels → ∀ e ∈ channels, ∀ i,
    e.channel = .other (i + 1) → e.revents &&& kWriteEvent = 0
  handlers : ∀ i, .write i ∉ s.handlers
  functors : ∀ f ∈ s.loop.functors, NotWriteComplete f
  pending : ∀ f ∈ s.loop.pendingFunctors, NotWriteComplete f

theorem readOnly_init : init.ReadOnly where
  tidy := tidy_init
  masks n i mask h := by cases h
  watched i n h := by cases h
  unasked i c h := by cases h
  silent i c h := by cases h
  ready channels h := by cases h
  handlers i h := by cases h
  functors f h := by cases h
  pending f h := by cases h

section

variable {s t : ServerLoop} {i : ℕ} {handlers : List Handler}

/-- The loop moves. -/
theorem ReadOnly.withLoop (h : s.ReadOnly) {l : EventLoop (Option Functor)}
    (htidy : Tidy { s with loop := l })
    (hready : ∀ channels, l.phase = .handling channels → ∀ e ∈ channels, ∀ i,
      e.channel = .other (i + 1) → e.revents &&& kWriteEvent = 0)
    (hfunctors : ∀ f ∈ l.functors, NotWriteComplete f)
    (hpending : ∀ f ∈ l.pendingFunctors, NotWriteComplete f) : ReadOnly { s with loop := l } :=
  { h with
    tidy := htidy
    ready := hready
    functors := hfunctors
    pending := hpending }

/-- What is registered for reading is reported for reading. -/
theorem ReadOnly.reported (h : s.ReadOnly) {e : EventLoop.Event} (hreports : s.Reports e)
    (he : e.channel = .other (i + 1)) : e.revents &&& kWriteEvent = 0 := by
  simp only [Reports, he] at hreports
  obtain ⟨mask, hmask, hbits⟩ := (Option.any_eq_true _ _).1 hreports
  obtain ⟨c, -, hmask⟩ := Option.bind_eq_some_iff.1 hmask
  obtain ⟨⟨j, mask'⟩, hregistered, hmask⟩ := Option.bind_eq_some_iff.1 hmask
  simp only [Option.ite_none_right_eq_some, Option.some.injEq] at hmask
  obtain ⟨-, rfl⟩ := hmask
  obtain rfl := h.masks _ _ _ hregistered
  have hwrite : (kReadEvent ||| kWriteEvent) &&& ~~~kReadEvent = kWriteEvent := by decide
  rw [decide_eq_true_eq, BitVec.and_assoc, hwrite] at hbits
  exact hbits

/-- A channel that is not reported for writing is not written to. -/
theorem write_notMem_handleEvent {e : EventLoop.Event}
    (h : ∀ i, e.channel = .other (i + 1) → e.revents &&& kWriteEvent = 0) (i : ℕ) :
    .write i ∉ handleEvent e := by
  obtain ⟨channel, revents⟩ := e
  rcases channel with _ | _ | j
  · simp [handleEvent, readCallback, writeCallback]
  · simp [handleEvent, readCallback, writeCallback]
  · have hnone : revents &&& kWriteEvent = 0 := h j rfl
    simp only [handleEvent, readCallback, writeCallback, hnone, ne_eq, not_true_eq_false, if_false]
    split_ifs <;> simp

theorem ReadOnly.popHandler (h : s.ReadOnly) {handler : Handler}
    (hhandlers : s.handlers = handler :: handlers) : ReadOnly { s with handlers := handlers } :=
  { h with
    tidy := h.tidy.popHandler hhandlers
    handlers := fun i hi => h.handlers i (hhandlers ▸ List.mem_cons_of_mem _ hi) }

/-- More is recorded. -/
theorem ReadOnly.record (h : s.ReadOnly) {callback : Option Callback} {log : List ServerEvent}
    (htidy : Tidy { s with callback := callback, log := log }) (hlog : s.log ⊆ log)
    (hnew : ∀ i, .established i ∈ log → .established i ∈ s.log) :
    ReadOnly { s with callback := callback, log := log } :=
  { h with
    tidy := htidy
    watched := fun i n hi => h.watched i n (hnew i hi)
    unasked := fun i c hc hi => h.unasked i c hc fun hmem => hi (hlog hmem) }

/-- The queue of the loop, where the server has queued nothing. -/
theorem loop_settle {server : TcpServer} (h : server.pendingFunctors = []) :
    (s.settle server).loop = s.loop := by
  rw [settle, h]
  rfl

variable {c c' : TcpConnection} {effects : List Effect}

/-- **A call of a connection that is registered changes nothing in the table.** -/
theorem ReadOnly.registered_finish (h : s.ReadOnly) (hi : .established i ∈ s.log)
    (hc : s.server.conns[i]? = some c) (hleaves : TcpServer.LeavesFd c c' effects)
    (hown : s.server.UpdatesOwn i c.fd effects) :
    (s.server.finish i c' effects).epoll.registered = s.server.epoll.registered := by
  have hquiet := TcpServer.quiet_finish s.server i c' hleaves.2.2
  funext n
  cases hn : (s.server.finish i c' effects).epoll.registered n with
  | some r =>
      rcases hquiet.registered n r hn with hold | ⟨-, -, hupdates, hopen, hnone⟩
      · exact hold.symm
      · -- the update would go to the connection's own number, which is registered
        have howner := hown hupdates hopen hnone
        exact absurd hnone (h.watched i c.fd hi (TcpServer.fd?_eq hc) howner)
  | none =>
      cases hold : s.server.epoll.registered n with
      | none => rfl
      | some r =>
          have hkept := hquiet.keeps n r hold
          rw [hkept] at hn
          cases hn

/-- A call of a connection that has been established. -/
theorem ReadOnly.call (h : s.ReadOnly) (hi : .established i ∈ s.log)
    (hc : s.server.conns[i]? = some c) (hleaves : TcpServer.LeavesFd c c' effects)
    (hown : s.server.UpdatesOwn i c.fd effects) (hsilent : c'.Silent)
    (hqueues : TcpServer.QueuesNothing effects) :
    (s.settle (s.server.finish i c' effects)).ReadOnly := by
  have htouches := TcpServer.touches_finish s.server i c' effects
  have htidy := h.tidy.call (h.tidy.wellFormed.settle htouches hi) hc hleaves hown
  have hregistered := h.registered_finish hi hc hleaves hown
  have hsteady := TcpServer.steady_finish hc hleaves
  have hloop : (s.settle (s.server.finish i c' effects)).loop = s.loop := by
    refine loop_settle ?_
    rw [TcpServer.finish, TcpServer.pendingFunctors_foldl _ i hqueues]
    exact h.tidy.wellFormed.outbox
  refine ⟨htidy, ?_, ?_, ?_, ?_, ?_, h.handlers, ?_, ?_⟩
  · intro n j mask hn
    exact h.masks n j mask (hregistered ▸ hn)
  · intro j n hj hn howner
    rw [show (s.settle (s.server.finish i c' effects)).server.epoll.registered n =
      s.server.epoll.registered n from congrFun hregistered n]
    exact h.watched j n hj ((congrFun hsteady.fd? j).symm.trans hn)
      ((congrFun hsteady.owner n).symm.trans howner)
  · intro j d hd hj
    have hne : j ≠ i := by
      rintro rfl
      exact hj hi
    exact h.unasked j d ((TcpServer.getElem?_finish_of_ne _ _ _ hne).symm.trans hd) hj
  · intro j d hd
    by_cases hji : j = i
    · subst hji
      obtain rfl := Option.some.inj ((TcpServer.getElem?_finish_self hc c' effects).symm.trans hd)
      exact hsilent
    · exact h.silent j d ((TcpServer.getElem?_finish_of_ne _ _ _ hji).symm.trans hd)
  · rw [hloop]
    exact h.ready
  · rw [hloop]
    exact h.functors
  · rw [hloop]
    exact h.pending

/-- The peer has closed. -/
theorem ReadOnly.eof (h : s.ReadOnly) (hhandlers : s.handlers = .read i :: handlers)
    (hc : s.server.conns[i]? = some c)
    (htidy : ({ s with handlers := handlers }.settle
      (s.server.finish i c [.close c.fd])).Tidy) :
    ({ s with handlers := handlers }.settle (s.server.finish i c [.close c.fd])).ReadOnly := by
  have hconns := TcpServer.conns_close s.server hc
  have hloop : ({ s with handlers := handlers }.settle
      (s.server.finish i c [.close c.fd])).loop = s.loop :=
    loop_settle h.tidy.wellFormed.outbox
  refine ⟨htidy, ?_, ?_, ?_, ?_, ?_, (h.popHandler hhandlers).handlers, ?_, ?_⟩
  · intro n j mask hn
    have hn : (s.server.epoll.closeFd c.fd).registered n = some (j, mask) := hn
    by_cases hne : n = c.fd
    · simp [Epoll.closeFd, hne] at hn
    · exact h.masks n j mask (by simpa [Epoll.closeFd, Function.update_of_ne hne] using hn)
  · intro j n hj hn howner
    have howner : (s.server.epoll.closeFd c.fd).owner n = some j := howner
    change (s.server.epoll.closeFd c.fd).registered n ≠ none
    by_cases hne : n = c.fd
    · simp [Epoll.closeFd, hne] at howner
    · simp only [Epoll.closeFd, Function.update_of_ne hne] at howner ⊢
      refine h.watched j n hj ?_ howner
      rw [← hn, TcpServer.fd?, TcpServer.fd?, ← hconns]
      rfl
  · exact fun j d hd => h.unasked j d (hconns ▸ hd)
  · exact fun j d hd => h.silent j d (hconns ▸ hd)
  · rw [hloop]
    exact h.ready
  · rw [hloop]
    exact h.functors
  · rw [hloop]
    exact h.pending

/-- Established connections have been accepted. -/
theorem WellFormed.lt_of_established (h : s.WellFormed) (hi : .established i ∈ s.log) :
    i < s.server.conns.length := by
  have hmem : i ∈ s.log.filterMap ServerEvent.established? :=
    List.mem_filterMap.2 ⟨_, hi, rfl⟩
  have haccepted := h.acceptOrder.sublist.subset hmem
  rw [h.accepted] at haccepted
  exact List.mem_range.1 haccepted

/-- A descriptor is accepted. -/
theorem ReadOnly.accept (h : s.ReadOnly) {sockfd : ℕ}
    (hhandlers : s.handlers = .accept :: handlers)
    (htidy : ({ s with handlers := handlers }.accepted (s.server.acceptFd sockfd)).Tidy) :
    ({ s with handlers := handlers }.accepted (s.server.acceptFd sockfd)).ReadOnly := by
  have hphase : ({ s with handlers := handlers }.accepted
      (s.server.acceptFd sockfd)).loop.phase = s.loop.phase := settle_phase _ _
  obtain ⟨hfunctors, hpending⟩ :=
    EventLoop.functors_foldl s.loop ((s.server.acceptFd sockfd).pendingFunctors.map some)
  refine ⟨htidy, h.masks, ?_, ?_, ?_, ?_, (h.popHandler hhandlers).handlers, ?_, ?_⟩
  · intro j n hj hn howner
    have hj : .established j ∈ s.log := by simpa [ServerLoop.accepted] using hj
    have hlt := h.tidy.wellFormed.lt_of_established hj
    have hfd : s.server.fd? j = some n := by
      have hn : (s.server.acceptFd sockfd).fd? j = some n := hn
      rwa [TcpServer.fd?_acceptFd, if_neg hlt.ne] at hn
    refine h.watched j n hj hfd ?_
    have howner : (s.server.epoll.openFd sockfd s.server.conns.length).owner n = some j := howner
    by_cases hne : n = sockfd
    · simp only [Epoll.openFd, hne, Function.update_self, Option.some_inj] at howner
      omega
    · simpa [Epoll.openFd, Function.update_of_ne hne] using howner
  · intro j d hd hj
    have hj : .established j ∉ s.log := fun hmem => hj (List.mem_append_left _ hmem)
    rcases TcpServer.getElem?_concat_eq_some hd with hold | ⟨-, rfl⟩
    · exact h.unasked j d hold hj
    · rfl
  · intro j d hd
    rcases TcpServer.getElem?_concat_eq_some hd with hold | ⟨-, rfl⟩
    · exact h.silent j d hold
    · exact ⟨(TcpConnection.silent_new sockfd).output, rfl⟩
  · intro channels hchannels
    exact h.ready channels (hphase.symm.trans hchannels)
  · intro f hf
    exact h.functors f (hfunctors ▸ hf)
  · intro f hf
    have hf : f ∈ s.loop.pendingFunctors ++
        (s.server.acceptFd sockfd).pendingFunctors.map some := hpending ▸ hf
    rcases List.mem_append.1 hf with hold | hnew
    · exact h.pending f hold
    · intro j set heq
      rw [TcpServer.acceptFd, TcpServer.newConnection, h.tidy.wellFormed.outbox] at hnew
      simp [heq] at hnew

/-- Between two rounds no channel is ready. -/
theorem testQuit_ready (s : ServerLoop) : ∀ channels, s.loop.testQuit.phase = .handling channels →
    ∀ e ∈ channels, ∀ i, e.channel = .other (i + 1) → e.revents &&& kWriteEvent = 0 := by
  intro channels hchannels
  rcases s.loop.testQuit_phase with hnext | hnext <;>
  · rw [hnext] at hchannels
    cases hchannels

/-- What the pass has still to execute has been queued without anything having been written. -/
theorem functors_runFunctor {l : EventLoop (Option Functor)}
    (h : s.loop.step .runFunctor = some l) :
    (∃ f, s.loop.functors = f :: l.functors) ∧ l.pendingFunctors = s.loop.pendingFunctors ∧
      s.loop.phase = .executing ∧ l.phase = .executing := by
  cases EventLoop.step_moves h with
  | runFunctor hphase hfunctors => exact ⟨⟨_, hfunctors⟩, rfl, hphase, hphase⟩

/-- **A connection is registered when it is established, for reading.** -/
theorem ReadOnly.establish (h : s.ReadOnly) {l : EventLoop (Option Functor)}
    (hloop : s.loop.step .runFunctor = some l) (hi : .established i ∉ s.log)
    (hc : s.server.conns[i]? = some c) {server : TcpServer}
    (hserver : server = { s.server with pendingFunctors := [] }.finish i
      { c with channel := c.channel.enableReading true }
      [.update (c.channel.enableReading true), .connectionCallback])
    (htidy : (({ s with loop := l }.settle server).established i).Tidy) :
    (({ s with loop := l }.settle server).established i).ReadOnly := by
  obtain ⟨⟨f, hfunctors⟩, hpending, -, hphase⟩ := functors_runFunctor hloop
  have hopened := h.tidy.fresh i c.fd (TcpServer.fd?_eq hc) hi
  have hfd := TcpServer.fd?_eq hc
  obtain ⟨n, hn, howner⟩ := hopened
  obtain rfl : c.fd = n := Option.some.inj (hfd.symm.trans hn)
  have hnone : s.server.epoll.registered c.fd = none := by
    rw [Option.eq_none_iff_forall_ne_some]
    rintro ⟨j, mask⟩ hr
    obtain rfl := Option.some.inj (howner.symm.trans (h.tidy.server.registered _ j mask hr))
    exact hi (h.tidy.wellFormed.registered _ _ mask hr)
  have hchannel := h.tidy.server.channel i c hc
  have hregistered : server.epoll.registered =
      Function.update s.server.epoll.registered c.fd (some (i, kReadEvent)) := by
    have hmask : (c.channel.enableReading true).events = kReadEvent := by
      simp [Channel.enableReading, h.unasked i c hc hi]
    rw [hserver]
    change (Epoller.update s.server.epoll i (c.channel.enableReading true)).registered = _
    rw [Epoller.update, Channel.enableReading_fd, hchannel, hmask,
      Epoll.ctlAdd_of_new howner hnone]
  have hsteady : s.server.Steady { s.server with
      conns := s.server.conns.set i { c with channel := c.channel.enableReading true } } :=
    TcpServer.steady_set hc rfl
  have hself : server.conns[i]? = some { c with channel := c.channel.enableReading true } := by
    rw [hserver]
    exact TcpServer.getElem?_finish_self (s := { s.server with pendingFunctors := [] }) hc _ _
  have hother : ∀ j, j ≠ i → server.conns[j]? = s.server.conns[j]? := by
    intro j hj
    rw [hserver, TcpServer.getElem?_finish_of_ne _ _ _ hj]
  have hloop' : ({ s with loop := l }.settle server).loop = l :=
    loop_settle (by rw [hserver]; rfl)
  have hlog : ∀ j, .established j ∈ (({ s with loop := l }.settle server).established i).log ↔
      .established j ∈ s.log ∨ j = i := by
    intro j
    simp [ServerLoop.established, invoke, settle]
  refine ⟨htidy, ?_, ?_, ?_, ?_, ?_, h.handlers, ?_, ?_⟩
  · intro n j mask hn
    have hn : server.epoll.registered n = some (j, mask) := hn
    rw [hregistered] at hn
    by_cases hne : n = c.fd
    · subst hne
      rw [Function.update_self, Option.some_inj, Prod.mk.injEq] at hn
      exact hn.2.symm
    · exact h.masks n j mask (by rwa [Function.update_of_ne hne] at hn)
  · intro j n hj hn howner'
    change server.epoll.registered n ≠ none
    rw [hregistered]
    by_cases hne : n = c.fd
    · subst hne
      simp
    · rw [Function.update_of_ne hne]
      have hn' : s.server.fd? j = some n := by
        rw [← hsteady.fd?, ← hn, hserver]
        rfl
      have hsame : server.epoll.owner = s.server.epoll.owner := by
        rw [hserver]
        exact Epoll.ctlAdd_owner _ _ _ _
      have hold : s.server.epoll.owner n = some j := (congrFun hsame n).symm.trans howner'
      refine h.watched j n (((hlog j).1 hj).resolve_right ?_) hn' hold
      rintro rfl
      exact hne (Option.some.inj (hn'.symm.trans hfd))
  · intro j d hd hj
    rw [hlog, not_or] at hj
    exact h.unasked j d ((hother j hj.2).symm.trans hd) hj.1
  · intro j d hd
    have hd : server.conns[j]? = some d := hd
    by_cases hji : j = i
    · subst hji
      obtain rfl := Option.some.inj (hself.symm.trans hd)
      exact ⟨(h.silent j c hc).output, (h.silent j c hc).unset⟩
    · exact h.silent j d ((hother j hji).symm.trans hd)
  · intro channels hchannels
    have hchannels : l.phase = .handling channels := hloop' ▸ hchannels
    rw [hphase] at hchannels
    cases hchannels
  · intro f' hf'
    have hf' : f' ∈ l.functors := hloop' ▸ hf'
    exact h.functors f' (hfunctors ▸ List.mem_cons_of_mem _ hf')
  · intro f' hf'
    have hf' : f' ∈ l.pendingFunctors := hloop' ▸ hf'
    exact h.pending f' (hpending ▸ hf')

/-- A functor is executed. -/
theorem ReadOnly.runFunctor (h : s.ReadOnly) (htidy : t.Tidy) {l : EventLoop (Option Functor)}
    {f : Option Functor} {functors : List (Option Functor)}
    (hfunctors : s.loop.functors = f :: functors) (hloop : s.loop.step .runFunctor = some l)
    (hrun : { s with loop := l }.runFunctor f = some t) : t.ReadOnly := by
  obtain ⟨⟨f', hfunctors'⟩, hpending, -, hphase⟩ := functors_runFunctor hloop
  rw [hfunctors] at hfunctors'
  obtain ⟨rfl, rfl⟩ := List.cons_eq_cons.1 hfunctors'
  rcases f with _ | f
  · cases hrun
    refine h.withLoop htidy ?_ ?_ ?_
    · intro channels hchannels
      rw [hphase] at hchannels
      cases hchannels
    · exact fun g hg => h.functors g (hfunctors ▸ List.mem_cons_of_mem _ hg)
    · exact hpending ▸ h.pending
  · cases f with
    | writeComplete j set =>
        exact absurd rfl (h.functors _ (hfunctors ▸ List.mem_cons_self) j set)
    | connectEstablished j =>
        obtain ⟨server, hserver, ht⟩ := runFunctor_eq_some h.tidy.wellFormed.called hrun
        simp only at ht
        subst ht
        cases TcpServer.step_moves hserver with
        | writeComplete hpending => cases hpending
        | connectEstablished hpending hc hok =>
            cases hpending
            obtain ⟨rfl, rfl⟩ := TcpConnection.connectEstablished_eq hok
            exact h.establish hloop (h.tidy.wellFormed.not_established hfunctors) hc rfl htidy

/-- **No harmless step breaks the invariant.** -/
theorem readOnly_step {op : ServerLoopOp} (h : s.ReadOnly) (hop : reportsOnce op = true)
    (hstep : s.step op = some t) (hharmless : s.Harmless op) : t.ReadOnly := by
  have htidy := tidy_step h.tidy hop hstep hharmless
  cases step_moves h.tidy.wellFormed.called hstep with
  | start => exact { h with tidy := htidy }
  | @loop l hloop =>
      cases EventLoop.step_moves hloop with
      | loop => exact h.withLoop htidy (testQuit_ready s) h.functors h.pending
  | @next l hloop =>
      cases EventLoop.step_moves hloop with
      | next => exact h.withLoop htidy (testQuit_ready s) h.functors h.pending
  | @doPendingFunctors l hloop =>
      cases EventLoop.step_moves hloop with
      | doPendingFunctors =>
          refine h.withLoop htidy ?_ h.pending ?_
          · intro channels hchannels
            cases hchannels
          · intro f hf
            cases hf
  | @poll l events hcallback hreports hloop =>
      cases EventLoop.step_moves hloop with
      | poll _ hphase =>
          refine h.withLoop htidy ?_ h.functors h.pending
          intro channels hchannels e he i hi
          cases hchannels
          exact h.reported (hreports e he) hi
  | @handleEvent l e channels hphase hloop =>
      cases EventLoop.step_moves hloop with
      | @handleEvent e' channels' hphase' =>
          rw [hphase] at hphase'
          cases hphase'
          have hready := h.ready _ hphase
          obtain ⟨hfunctors, hpending⟩ :=
            EventLoop.functors_handleEvent { s.loop with phase := .handling channels } e
          have hrest :=
            (EventLoop.handleEvent_frame { s.loop with phase := .handling channels } e).2.2
          refine { h with
            tidy := htidy
            ready := ?_
            handlers := write_notMem_handleEvent (hready e List.mem_cons_self)
            functors := fun f hf => h.functors f (hfunctors ▸ hf)
            pending := fun f hf => h.pending f (hpending ▸ hf) }
          intro channels' hchannels'
          obtain rfl : channels = channels' := by
            rw [hrest] at hchannels'
            exact EventLoop.Phase.handling.inj hchannels'
          exact fun e' he' => hready e' (List.mem_cons_of_mem _ he')
  | @accept sockfd handlers server hhandlers hserver =>
      cases TcpServer.step_moves hserver with
      | accept => exact h.accept hhandlers htidy
  | @handleRead i result handlers server hcallback hhandlers hserver =>
      have hmem : .read i ∈ s.handlers := by
        rw [hhandlers]
        exact List.mem_cons_self
      have hest := (h.tidy.wellFormed.handlers i (Or.inl hmem)).1
      have hholds := h.tidy.due.holds h.tidy.server (Or.inl hmem)
      cases TcpServer.step_moves hserver with
      | @handleRead _ _ c c' effects hc hok =>
          obtain ⟨hsilent, hqueues, -⟩ := TcpConnection.silent_handleRead (h.silent i c hc) hok
          have hfd := h.tidy.server.channel i c hc
          have hown := updatesOwn_of_holds h.tidy.server hholds hc effects
          cases result with
          | eof =>
              cases hok
              exact h.eof hhandlers hc htidy
          | failed =>
              have hleaves := TcpServer.leavesFd_handleRead hfd (by simp) hok
              exact (h.popHandler hhandlers).call hest hc hleaves hown hsilent hqueues
          | data bytes =>
              have hleaves := TcpServer.leavesFd_handleRead hfd (by simp) hok
              refine ((h.popHandler hhandlers).call hest hc hleaves hown hsilent hqueues).record
                htidy (List.subset_append_left _ _) ?_
              simp [settle]
  | @handleWrite i ret handlers server hhandlers hserver =>
      exact absurd (hhandlers ▸ List.mem_cons_self) (h.handlers i)
  | runFunctor hcallback hfunctors hloop hrun => exact h.runFunctor htidy hfunctors hloop hrun
  | @send i msg ret server hknown hserver =>
      have hest := h.tidy.wellFormed.established_of_known hknown
      cases TcpServer.step_moves hserver with
      | @send _ _ _ c c' effects hc hok =>
          obtain ⟨hsilent, hqueues, -⟩ := TcpConnection.silent_send (h.silent i c hc) hok
          have hleaves := TcpServer.leavesFd_send (h.tidy.server.channel i c hc) hok
          have hown := hharmless c hc (c', effects) (by rw [hok]; rfl)
          exact h.call hest hc hleaves hown hsilent hqueues
      | @sendThrows _ _ _ c hc =>
          obtain ⟨hleaves, hown⟩ := leavesFd_sendThrows h.tidy.server hc msg ret
          exact h.call hest hc hleaves hown (h.silent i c hc)
            (TcpConnection.queuesNothing_sendDirect (h.silent i c hc) msg ret)
  | @queueInLoop l hloop =>
      cases EventLoop.step_moves hloop with
      | queueInLoop =>
          refine h.withLoop htidy h.ready h.functors ?_
          intro f hf
          rcases List.mem_append.1 hf with hold | hnew
          · exact h.pending f hold
          · intro j set heq
            simp [heq] at hnew
  | returns hcallback =>
      refine h.record htidy (List.subset_append_left _ _) ?_
      simp

/-! ### A connection that could not write everything -/

/-- The connection has something to write, which begins with `waiting`, and has made these
`write`s. -/
structure Muted (i : ℕ) (waiting : List Byte) (writes : List (List Byte)) (s : ServerLoop) :
    Prop where
  waits : ∃ c, s.server.conns[i]? = some c ∧ waiting <+: c.outputBuf.readable
  written : s.server.writes i = writes

variable {j : ℕ} {waiting : List Byte} {writes : List (List Byte)}

/-- A connection is called, which writes nothing if it is the muted one. -/
theorem Muted.finish (h : s.Muted i waiting writes) (hc : s.server.conns[j]? = some c)
    (c' : TcpConnection) (effects : List Effect)
    (hkeeps : j = i → c.outputBuf.readable <+: c'.outputBuf.readable ∧
      effects.filterMap Effect.write? = [])
    (hconns : t.server.conns = (s.server.finish j c' effects).conns)
    (hcalls : t.server.calls = (s.server.finish j c' effects).calls) :
    t.Muted i waiting writes := by
  obtain ⟨d, hd, hwaiting⟩ := h.waits
  constructor
  · by_cases hji : j = i
    · subst hji
      obtain rfl := Option.some.inj (hc.symm.trans hd)
      refine ⟨c', ?_, hwaiting.trans (hkeeps rfl).1⟩
      rw [hconns, TcpServer.getElem?_finish_self hc]
    · refine ⟨d, ?_, hwaiting⟩
      rw [hconns, TcpServer.getElem?_finish_of_ne _ _ _ (Ne.symm hji), hd]
  · have hwrites := TcpServer.writes_finish s.server i j c' effects
    rw [← h.written]
    refine (congrArg (List.filterMap (Call.write? i)) hcalls).trans (hwrites.trans ?_)
    by_cases hji : j = i
    · rw [if_pos hji, (hkeeps hji).2, List.append_nil]
    · rw [if_neg hji, List.append_nil]

/-- **Whatever happens, a connection that has something to write does not write.** -/
theorem muted_step {op : ServerLoopOp} (h : s.ReadOnly) (hm : s.Muted i waiting writes)
    (hne : waiting ≠ []) (hstep : s.step op = some t) : t.Muted i waiting writes := by
  have hwaits : ∀ d, s.server.conns[i]? = some d → d.outputBuf.readable ≠ [] := by
    intro d hd hnil
    obtain ⟨d', hd', hwaiting⟩ := hm.waits
    obtain rfl := Option.some.inj (hd.symm.trans hd')
    exact hne (List.prefix_nil.1 (hnil ▸ hwaiting))
  cases step_moves h.tidy.wellFormed.called hstep with
  | start | loop | poll | handleEvent | doPendingFunctors | next | queueInLoop | returns =>
      exact ⟨hm.waits, hm.written⟩
  | @accept sockfd handlers server hhandlers hserver =>
      cases TcpServer.step_moves hserver with
      | accept =>
          obtain ⟨d, hd, hwaiting⟩ := hm.waits
          refine ⟨⟨d, ?_, hwaiting⟩, hm.written⟩
          obtain ⟨hlt, -⟩ := List.getElem?_eq_some_iff.1 hd
          exact (List.getElem?_append_left hlt).trans hd
  | @handleRead j result handlers server hcallback hhandlers hserver =>
      cases TcpServer.step_moves hserver with
      | @handleRead _ _ c c' effects hc hok =>
          obtain ⟨-, -, hout, hwrites⟩ := TcpConnection.silent_handleRead (h.silent j c hc) hok
          refine hm.finish hc c' effects (fun _ => ⟨by rw [hout], hwrites⟩) ?_ ?_ <;>
          · cases result <;> rfl
  | @handleWrite j ret handlers server hhandlers hserver =>
      exact absurd (hhandlers ▸ List.mem_cons_self) (h.handlers j)
  | @runFunctor l f functors t hcallback hfunctors hloop hrun =>
      rcases f with _ | f
      · cases hrun
        exact ⟨hm.waits, hm.written⟩
      · obtain ⟨server, hserver, ht⟩ := runFunctor_eq_some h.tidy.wellFormed.called hrun
        cases TcpServer.step_moves hserver with
        | writeComplete hpending =>
            cases hpending
            simp only at ht
            subst ht
            exact ⟨hm.waits, hm.written⟩
        | @connectEstablished j rest c c' effects hpending hc hok =>
            cases hpending
            simp only at ht
            subst ht
            obtain ⟨rfl, rfl⟩ := TcpConnection.connectEstablished_eq hok
            exact hm.finish hc { c with channel := c.channel.enableReading true }
              [.update (c.channel.enableReading true), .connectionCallback]
              (fun _ => ⟨List.prefix_refl _, rfl⟩) rfl rfl
  | @send j msg ret server hknown hserver =>
      cases TcpServer.step_moves hserver with
      | @send _ _ _ c c' effects hc hok =>
          obtain ⟨-, -, hlonger, hwrites⟩ := TcpConnection.silent_send (h.silent j c hc) hok
          refine hm.finish hc _ _ ?_ rfl rfl
          rintro rfl
          have hdirect := TcpConnection.sendDirect_of_output (h.silent j c hc) (hwaits c hc)
          exact ⟨hlonger, by rw [hwrites, hdirect]; rfl⟩
      | @sendThrows _ _ _ c hc =>
          refine hm.finish hc _ _ ?_ rfl rfl
          rintro rfl
          have hdirect := TcpConnection.sendDirect_of_output (h.silent j c hc) (hwaits c hc)
          exact ⟨List.prefix_refl _, by rw [hdirect]; rfl⟩

/-- The kernel is asked about no writability, and no `handleWrite` is due. -/
structure Unasked (s : ServerLoop) : Prop where
  table : ∀ n i mask, s.server.epoll.registered n = some (i, mask) → mask &&& EPOLLOUT = 0
  handlers : ∀ i, .write i ∉ s.handlers

theorem ReadOnly.unasked_writing (h : s.ReadOnly) : s.Unasked where
  table n i mask hn := by
    obtain rfl := h.masks n i mask hn
    decide
  handlers := h.handlers

/-- **Nobody ever asks whether a connection may be written to, and one that could not write
everything writes nothing more**, whatever the peers and the application do, as long as each `send`
is harmless. -/
theorem muted_of_exec {ops more : List ServerLoopOp}
    (h : Runs.exec (Runs.only step reportsOnce) init ops = some s)
    (hmore : Runs.exec (Runs.only step reportsOnce) s more = some t)
    (hharmless : Runs.EveryStep (Runs.only step reportsOnce) Harmless init (ops ++ more)) :
    Runs.EveryState (Runs.only step reportsOnce) Unasked init (ops ++ more) ∧
      ∀ (i : ℕ) (c : TcpConnection), s.server.conns[i]? = some c → c.outputBuf.readable ≠ [] →
        t.Muted i c.outputBuf.readable (s.server.writes i) := by
  have hstep : ∀ (s : ServerLoop) op t, s.ReadOnly →
      Runs.only step reportsOnce s op = some t → s.Harmless op → t.ReadOnly := by
    intro s op t hs hst hgood
    obtain ⟨hop, hst⟩ := Runs.only_eq_some.1 hst
    exact readOnly_step hs hop hst hgood
  obtain ⟨hbefore, hafter⟩ := hharmless.append h
  have hs := (hbefore.everyState hstep readOnly_init h).last h
  constructor
  · have hall := hharmless.everyState hstep readOnly_init
      (Runs.exec_append_eq_some.2 ⟨s, h, hmore⟩)
    exact fun pre hpre u hu => (hall pre hpre u hu).unasked_writing
  · intro i c hc hwaits
    have hboth := Runs.EveryStep.everyState
      (P := fun u => u.ReadOnly ∧ u.Muted i c.outputBuf.readable (s.server.writes i)) ?_
      ⟨hs, ⟨c, hc, List.prefix_refl _⟩, rfl⟩ hmore hafter
    · exact (hboth.last hmore).2
    · rintro u op v ⟨hu, hmuted⟩ hst hgood
      refine ⟨hstep u op v hu hst hgood, ?_⟩
      obtain ⟨-, hst⟩ := Runs.only_eq_some.1 hst
      exact muted_step hu hmuted hwaits hst

/-- A connection is accepted, and greeted with two bytes, of which the kernel takes one. -/
def greetOps : List ServerLoopOp :=
  [.start, .loop, .poll [⟨.other 0, kReadEvent⟩], .handleEvent, .accept 7, .doPendingFunctors,
    .runFunctor, .send 0 [97, 98] 1]

/-- The peer answers, and is answered. -/
def answerOps : List ServerLoopOp :=
  [.returns, .next, .poll [⟨.own, kReadEvent⟩, ⟨.other 1, kReadEvent⟩], .handleEvent, .handleEvent,
    .handleRead (.data [99]), .send 0 [100] 1, .returns]

/-- The second byte waits, and the answer behind it. -/
theorem muted_of_exec_greetOps :
    Runs.EveryState (Runs.only step reportsOnce) Unasked init (greetOps ++ answerOps) ∧
    ∃ s t c, Runs.exec (Runs.only step reportsOnce) init greetOps = some s ∧
      Runs.exec (Runs.only step reportsOnce) s answerOps = some t ∧
      t.server.conns[0]?.map (·.outputBuf.readable) = some [98, 100] ∧
      s.server.conns[0]? = some c ∧ c.outputBuf.readable = [98] ∧
      t.Muted 0 c.outputBuf.readable [[97]] := by
  have hdemo : (Runs.exec (Runs.only step reportsOnce) init greetOps).map (fun s =>
      (s.server.conns[0]?.map (·.outputBuf.readable), s.server.writes 0)) =
        some (some [98], [[97]]) := by
    decide +kernel
  have hdemo' : (Runs.exec (Runs.only step reportsOnce) init (greetOps ++ answerOps)).map (fun s =>
      s.server.conns[0]?.map (·.outputBuf.readable)) = some (some [98, 100]) := by
    decide +kernel
  obtain ⟨s, hs, hview⟩ := Option.map_eq_some_iff.1 hdemo
  obtain ⟨hout, hwrites⟩ := Prod.mk.inj hview
  obtain ⟨c, hc, hreadable⟩ := Option.map_eq_some_iff.1 hout
  obtain ⟨t, ht, hview'⟩ := Option.map_eq_some_iff.1 hdemo'
  obtain ⟨s', hs', hmore⟩ := Runs.exec_append_eq_some.1 ht
  obtain rfl := Option.some.inj (hs.symm.trans hs')
  obtain ⟨hunasked, hmuted⟩ :=
    muted_of_exec hs hmore (Runs.everyStep_of_checkSteps (by decide +kernel))
  have hmuted := hmuted 0 c hc (by rw [hreadable]; exact List.cons_ne_nil _ _)
  exact ⟨hunasked, s, t, c, hs, hmore, hview', hc, hreadable, hwrites ▸ hmuted⟩

end

end ServerLoop

end G5
