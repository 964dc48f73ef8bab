/-
**In which order a connection calls back.**

The server makes a connection when it accepts a descriptor, and queues its `connectEstablished`;
that registers the channel of the connection and calls the connection callback.  Only a registered
channel is reported by the poller, and `poll` is called when the functors of a round have been
executed: so the messages of a connection come behind its connection callback, whatever was accepted
and read in the same round, and whatever number the kernel gave the descriptor.

Main definitions:

* `TcpServer.Touches` — what the functions of one connection leave of the server;
* `ServerLoop.CallbackOrder` — the order of the callbacks;
* `ServerLoop.WellFormed` — the invariant of the server on its loop.

Main results:

* `TcpServer.touches_step` — the functions of a connection register no other one, and queue no
  `connectEstablished`;
* `ServerLoop.wellFormed_step` — **no step breaks the invariant**;
* `ServerLoop.callbackOrder_of_exec` — **the order is kept in every run**.
-/

import G5.Net.ServerLoop

set_option relaxedAutoImplicit false
set_option autoImplicit false

namespace G5

/-! ### What the functions of one connection leave of the server -/

/-- The connection that the functor establishes. -/
def Functor.establishes? : Functor → Option ℕ
  | .connectEstablished i => some i
  | .writeComplete _ _ => none

/-- The connection whose function it is. -/
def ServerOp.conn? : ServerOp → Option ℕ
  | .accept _ => none
  | .handleRead i _ => some i
  | .handleWrite i _ => some i
  | .send i _ _ => some i
  | .runFunctor => none

namespace TcpServer

/-- From `s` to `t`, no connection was made, none but `i` was registered, and no
`connectEstablished` was queued. -/
structure Touches (s : TcpServer) (i : ℕ) (t : TcpServer) : Prop where
  conns : t.conns.length = s.conns.length
  registered : ∀ fd j mask, t.epoll.registered fd = some (j, mask) →
    s.epoll.registered fd = some (j, mask) ∨ j = i
  queued : t.pendingFunctors.filterMap Functor.establishes? =
    s.pendingFunctors.filterMap Functor.establishes?

section

variable {s t : TcpServer} {i : ℕ}

theorem Touches.trans {u : TcpServer} (h : s.Touches i t) (h' : t.Touches i u) :
    s.Touches i u where
  conns := h'.conns.trans h.conns
  registered fd j mask hu := (h'.registered fd j mask hu).elim (h.registered fd j mask) Or.inr
  queued := h'.queued.trans h.queued

/-- One effect. -/
theorem touches_perform (s : TcpServer) (i : ℕ) (e : Effect) : s.Touches i (s.perform i e) := by
  cases e with
  | write fd accepted => exact ⟨rfl, fun _ _ _ h => Or.inl h, rfl⟩
  | close fd =>
      refine ⟨rfl, ?_, rfl⟩
      intro n j mask h
      by_cases hn : n = fd
      · subst hn
        simp [perform, Epoll.closeFd] at h
      · left
        simpa [perform, Epoll.closeFd, Function.update_of_ne hn] using h
  | update channel =>
      refine ⟨rfl, ?_, rfl⟩
      intro n j mask h
      rcases Epoll.registered_of_ctlAdd h with hold | ⟨-, hnew⟩
      · exact Or.inl hold
      · cases hnew
        exact Or.inr rfl
  | queueWriteComplete set =>
      refine ⟨rfl, fun _ _ _ h => Or.inl h, ?_⟩
      simp [perform, Functor.establishes?]
  | connectionCallback => exact ⟨rfl, fun _ _ _ h => Or.inl h, rfl⟩
  | messageCallback => exact ⟨rfl, fun _ _ _ h => Or.inl h, rfl⟩

theorem touches_finish (s : TcpServer) (i : ℕ) (c : TcpConnection) (effects : List Effect) :
    s.Touches i (s.finish i c effects) := by
  have hset : s.Touches i { s with conns := s.conns.set i c } :=
    ⟨List.length_set, fun _ _ _ h => Or.inl h, rfl⟩
  unfold finish
  generalize ({ s with conns := s.conns.set i c } : TcpServer) = u at hset ⊢
  -- induction on the effects
  induction effects generalizing u with
  | nil => exact hset
  | cons e effects ih => exact ih _ (hset.trans (touches_perform u i e))

/-- **The functions of a connection register no other one.** -/
theorem touches_step {op : ServerOp} (hop : op.conn? = some i) (h : s.step op = some t) :
    s.Touches i t := by
  cases step_moves h with
  | accept | connectEstablished | writeComplete => cases hop
  | handleRead | handleWrite | send | sendThrows =>
      cases hop
      exact touches_finish s i _ _

theorem touches_connectEstablished {rest : List Functor}
    (hpending : s.pendingFunctors = .connectEstablished i :: rest)
    (h : s.step .runFunctor = some t) : { s with pendingFunctors := rest }.Touches i t := by
  cases step_moves h with
  | connectEstablished hpending' =>
      rw [hpending] at hpending'
      cases hpending'
      exact touches_finish _ i _ _
  | writeComplete hpending' =>
      rw [hpending] at hpending'
      cases hpending'

/-- A write-complete functor leaves the server as it is. -/
theorem step_writeComplete {set : Bool} {rest : List Functor}
    (hpending : s.pendingFunctors = .writeComplete i set :: rest)
    (h : s.step .runFunctor = some t) : t = { s with pendingFunctors := rest } := by
  cases step_moves h with
  | connectEstablished hpending' =>
      rw [hpending] at hpending'
      cases hpending'
  | writeComplete hpending' =>
      rw [hpending] at hpending'
      cases hpending'
      rfl

/-- A descriptor is accepted: a connection more, with its functor queued. -/
theorem step_accept {sockfd : ℕ} (h : s.step (.accept sockfd) = some t) :
    t.conns.length = s.conns.length + 1 ∧ t.epoll.registered = s.epoll.registered ∧
      t.pendingFunctors = s.pendingFunctors ++ [.connectEstablished s.conns.length] := by
  cases step_moves h with
  | accept => exact ⟨List.length_append, rfl, rfl⟩

end

end TcpServer

/-! ### The order of the callbacks -/

/-- The connections that the functors of a queue establish, in order. -/
def establishes (queue : List (Option Functor)) : List ℕ :=
  queue.filterMap fun f => f.bind Functor.establishes?

namespace ServerEvent

def accepted? : ServerEvent → Option ℕ
  | .accepted i => some i
  | _ => none

def established? : ServerEvent → Option ℕ
  | .established i => some i
  | _ => none

/-- The connection whose connection callback is called. -/
def connected? : ServerEvent → Option ℕ
  | .invoked (.connection i) => some i
  | _ => none

end ServerEvent

namespace ServerLoop

open ServerEvent

/-- The connection callback of a connection is called at most once; its channel is not registered
before `connectEstablished`; its message callback is not called before the connection callback has
returned; and `connectEstablished` is called in the order in which the descriptors were accepted. -/
structure CallbackOrder (s : ServerLoop) : Prop where
  once : ∀ i, s.log.count (.invoked (.connection i)) ≤ 1
  unregistered : ∀ fd i mask, s.server.epoll.registered fd = some (i, mask) →
    .established i ∈ s.log
  connectionFirst : ∀ pre i, pre ++ [.invoked (.message i)] <+: s.log →
    .returned (.connection i) ∈ pre
  acceptOrder : s.log.filterMap established? <+: s.log.filterMap accepted?

/-! ### The invariant -/

/-- The connection has been established, and its connection callback has returned. -/
def Greeted (log : List ServerEvent) (i : ℕ) : Prop :=
  .established i ∈ log ∧ .returned (.connection i) ∈ log

/-- Messages are announced only for connections whose connection callback had returned. -/
def MessagesGreeted (log : List ServerEvent) : Prop :=
  ∀ pre i, pre ++ [.invoked (.message i)] <+: log → .returned (.connection i) ∈ pre

theorem Greeted.append {log : List ServerEvent} {i : ℕ} (h : Greeted log i)
    (more : List ServerEvent) : Greeted (log ++ more) i :=
  ⟨List.mem_append_left _ h.1, List.mem_append_left _ h.2⟩

theorem MessagesGreeted.append_one {log : List ServerEvent} (h : MessagesGreeted log)
    {e : ServerEvent} (he : ∀ i, e = .invoked (.message i) → .returned (.connection i) ∈ log) :
    MessagesGreeted (log ++ [e]) := by
  intro pre i hpre
  rcases List.prefix_concat_iff.1 hpre with hall | hold
  · obtain ⟨rfl, hlast⟩ := List.append_inj' hall rfl
    exact he i (List.singleton_inj.1 hlast).symm
  · exact h pre i hold

/-- What waits to be handled, or is called by the handler under way, belongs to a connection that
has been greeted. -/
structure WellFormed (s : ServerLoop) : Prop where
  loop : s.loop.WellFormed
  outbox : s.server.pendingFunctors = []
  called : s.server.callbacks = []
  queued : establishes s.loop.queued = List.range s.server.conns.length
  executed : establishes s.loop.executed = s.log.filterMap established?
  accepted : s.log.filterMap accepted? = List.range s.server.conns.length
  connected : s.log.filterMap connected? = s.log.filterMap established?
  registered : ∀ fd i mask, s.server.epoll.registered fd = some (i, mask) →
    .established i ∈ s.log
  greeted : ∀ i, .established i ∈ s.log →
    .returned (.connection i) ∈ s.log ∨ s.callback = some (.connection i)
  ready : ∀ channels, s.loop.phase = .handling channels → ∀ e ∈ channels, ∀ i,
    e.channel = .other (i + 1) → Greeted s.log i
  handlers : ∀ i, .read i ∈ s.handlers ∨ .write i ∈ s.handlers → Greeted s.log i
  messages : MessagesGreeted s.log

theorem wellFormed_init : init.WellFormed where
  loop := EventLoop.wellFormed_init
  outbox := rfl
  called := rfl
  queued := rfl
  executed := rfl
  accepted := rfl
  connected := rfl
  registered fd i mask h := by cases h
  greeted i h := by cases h
  ready channels h := by cases h
  handlers i h := by rcases h with h | h <;> cases h
  messages pre i h := by simp [init] at h

section

variable {s : ServerLoop} {i : ℕ}

/-- The loop moves, and has none or greeted connections to handle. -/
theorem WellFormed.withLoop (h : s.WellFormed) {l : EventLoop (Option Functor)}
    (hl : l.WellFormed) (hqueued : establishes l.queued = establishes s.loop.queued)
    (hexecuted : establishes l.executed = establishes s.loop.executed)
    (hready : ∀ channels, l.phase = .handling channels → ∀ e ∈ channels, ∀ i,
      e.channel = .other (i + 1) → Greeted s.log i) : WellFormed { s with loop := l } :=
  { h with
    loop := hl
    queued := hqueued.trans h.queued
    executed := hexecuted.trans h.executed
    ready := hready }

theorem WellFormed.withHandlers (h : s.WellFormed) {handlers : List Handler}
    (hhandlers : ∀ i, .read i ∈ handlers ∨ .write i ∈ handlers → Greeted s.log i) :
    WellFormed { s with handlers := handlers } :=
  { h with handlers := hhandlers }

/-- What a server's functions have queued is queued in the loop. -/
theorem establishes_settle (s : ServerLoop) (server : TcpServer) :
    establishes (s.settle server).loop.queued =
      establishes s.loop.queued ++ server.pendingFunctors.filterMap Functor.establishes? := by
  have hqueued := (EventLoop.foldl_queueInLoop s.loop (server.pendingFunctors.map some)).1
  unfold establishes settle
  rw [hqueued, List.filterMap_append, List.filterMap_map]
  rfl

/-- Nothing was queued or called, and the server is the same. -/
theorem settle_self (h : s.server.pendingFunctors = []) (hcalled : s.server.callbacks = []) :
    s.settle s.server = s := by
  have hserver : { s.server with pendingFunctors := [], callbacks := [] } = s.server := by
    rw [← h, ← hcalled]
  rw [settle, h, hserver]
  rfl

/-- The functions of a connection that has been established. -/
theorem WellFormed.settle (h : s.WellFormed) {server : TcpServer}
    (htouches : s.server.Touches i server) (hi : .established i ∈ s.log) :
    (s.settle server).WellFormed := by
  obtain ⟨-, hexecuted, hphase⟩ :=
    EventLoop.foldl_queueInLoop s.loop (server.pendingFunctors.map some)
  have hnone : server.pendingFunctors.filterMap Functor.establishes? = [] := by
    rw [htouches.queued, h.outbox]
    rfl
  refine { h with
    loop := h.loop.foldl_queueInLoop _
    outbox := rfl
    called := rfl
    queued := ?_
    executed := ?_
    accepted := ?_
    registered := ?_
    ready := ?_ }
  · rw [establishes_settle, hnone, List.append_nil, h.queued, ← htouches.conns]
    rfl
  · exact (congrArg establishes hexecuted).trans h.executed
  · exact h.accepted.trans (congrArg List.range htouches.conns.symm)
  · intro fd j mask hreg
    rcases htouches.registered fd j mask hreg with hold | rfl
    · exact h.registered fd j mask hold
    · exact hi
  · intro channels hchannels
    exact h.ready channels (hphase.symm.trans hchannels)

/-- A descriptor is accepted. -/
theorem WellFormed.accept (h : s.WellFormed) {server : TcpServer} {sockfd : ℕ}
    (hstep : s.server.step (.accept sockfd) = some server) : (s.accepted server).WellFormed := by
  obtain ⟨hconns, hregistered, hpending⟩ := TcpServer.step_accept hstep
  obtain ⟨-, hexecuted, hphase⟩ :=
    EventLoop.foldl_queueInLoop s.loop (server.pendingFunctors.map some)
  have hrange : List.range server.conns.length =
      List.range s.server.conns.length ++ [s.server.conns.length] := by
    rw [hconns, List.range_succ]
  have hqueued := establishes_settle s server
  rw [hpending, h.outbox, h.queued] at hqueued
  refine ⟨h.loop.foldl_queueInLoop _, rfl, rfl, hqueued.trans hrange.symm, ?_, ?_, ?_, ?_, ?_, ?_,
    ?_, ?_⟩
  · refine (congrArg establishes hexecuted).trans (h.executed.trans ?_)
    simp [ServerLoop.accepted, established?]
  · change (s.log ++ [ServerEvent.accepted s.server.conns.length]).filterMap accepted? =
      List.range server.conns.length
    rw [List.filterMap_append, h.accepted, hrange]
    rfl
  · change (s.log ++ [ServerEvent.accepted s.server.conns.length]).filterMap connected? =
      (s.log ++ [ServerEvent.accepted s.server.conns.length]).filterMap established?
    rw [List.filterMap_append, List.filterMap_append, h.connected]
    rfl
  · intro fd j mask hreg
    have hold : s.server.epoll.registered fd = some (j, mask) := by
      rw [← hregistered]
      exact hreg
    exact List.mem_append_left _ (h.registered fd j mask hold)
  · intro j hj
    have hold : .established j ∈ s.log := by simpa [ServerLoop.accepted] using hj
    exact (h.greeted j hold).imp_left (List.mem_append_left _)
  · intro channels hchannels e he j hj
    exact (h.ready channels (hphase.symm.trans hchannels) e he j hj).append _
  · intro j hj
    exact (h.handlers j hj).append _
  · exact h.messages.append_one nofun

/-- A call of the application, or its return. -/
theorem WellFormed.record (h : s.WellFormed) {callback : Option Callback} {e : ServerEvent}
    (haccepted : accepted? e = none) (hestablished : established? e = none)
    (hconnected : connected? e = none)
    (hgreeted : ∀ i, .established i ∈ s.log →
      .returned (.connection i) ∈ s.log ++ [e] ∨ callback = some (.connection i))
    (hmessage : ∀ i, e = .invoked (.message i) → Greeted s.log i) :
    WellFormed { s with callback := callback, log := s.log ++ [e] } where
  loop := h.loop
  outbox := h.outbox
  called := h.called
  queued := h.queued
  executed := by
    rw [List.filterMap_append, List.filterMap_cons_none hestablished]
    exact h.executed.trans (List.append_nil _).symm
  accepted := by
    rw [List.filterMap_append, List.filterMap_cons_none haccepted]
    exact (List.append_nil _).trans h.accepted
  connected := by
    rw [List.filterMap_append, List.filterMap_append, List.filterMap_cons_none hconnected,
      List.filterMap_cons_none hestablished, h.connected]
    rfl
  registered fd j mask hreg := List.mem_append_left _ (h.registered fd j mask hreg)
  greeted := by
    intro i hi
    rcases List.mem_append.1 hi with hi | hi
    · exact hgreeted i hi
    · obtain rfl := List.mem_singleton.1 hi
      cases hestablished
  ready channels hchannels e he j hj := (h.ready channels hchannels e he j hj).append _
  handlers j hj := (h.handlers j hj).append _
  messages := h.messages.append_one fun i hi => (hmessage i hi).2

/-- While no function of the application runs, the established connections have been greeted. -/
theorem WellFormed.greeted_idle (h : s.WellFormed) (hcallback : s.callback = none)
    (hi : .established i ∈ s.log) : Greeted s.log i := by
  refine ⟨hi, (h.greeted i hi).resolve_right ?_⟩
  intro hrunning
  rw [hcallback] at hrunning
  cases hrunning

/-- The message callback of a connection that has been greeted. -/
theorem WellFormed.invokeMessage (h : s.WellFormed) (hcallback : s.callback = none)
    (hi : Greeted s.log i) : (s.invoke (.message i)).WellFormed := by
  refine h.record rfl rfl rfl ?_ ?_
  · intro j hj
    exact Or.inl (List.mem_append_left _ (h.greeted_idle hcallback hj).2)
  · intro j hj
    cases hj
    exact hi

/-- A function of the application returns. -/
theorem WellFormed.returns (h : s.WellFormed) {callback : Callback}
    (hcallback : s.callback = some callback) :
    WellFormed { s with callback := none, log := s.log ++ [.returned callback] } := by
  refine h.record rfl rfl rfl ?_ nofun
  intro j hj
  left
  rcases h.greeted j hj with hreturned | hrunning
  · exact List.mem_append_left _ hreturned
  · obtain rfl := Option.some.inj (hcallback.symm.trans hrunning)
    exact List.mem_append_right _ List.mem_cons_self

/-- The functor of a connection is executed, up to its call of the connection callback. -/
theorem WellFormed.establish (h : s.WellFormed) (hcallback : s.callback = none)
    {l : EventLoop (Option Functor)} (hl : l.WellFormed) (hqueued : l.queued = s.loop.queued)
    (hexecuted : l.executed = s.loop.executed ++ [some (.connectEstablished i)])
    (hphase : ¬l.phase.Handling) : ({ s with loop := l }.established i).WellFormed where
  loop := hl
  outbox := h.outbox
  called := h.called
  queued := (congrArg establishes hqueued).trans h.queued
  executed := by
    have hexec := h.executed
    unfold establishes at hexec
    simp [ServerLoop.established, invoke, establishes, hexecuted, hexec, List.filterMap_cons,
      Functor.establishes?, established?]
  accepted := by
    have haccepted := h.accepted
    simpa [ServerLoop.established, invoke, List.filterMap_cons, accepted?] using haccepted
  connected := by
    simp [ServerLoop.established, invoke, List.filterMap_cons, connected?, established?,
      h.connected]
  registered fd j mask hreg :=
    List.mem_append_left _ (List.mem_append_left _ (h.registered fd j mask hreg))
  greeted := by
    intro j hj
    have hcases : .established j ∈ s.log ∨ j = i := by
      simpa [ServerLoop.established, invoke] using hj
    rcases hcases with hold | rfl
    · left
      exact List.mem_append_left _ (List.mem_append_left _ (h.greeted_idle hcallback hold).2)
    · exact Or.inr rfl
  ready channels hchannels := absurd (hchannels ▸ trivial) hphase
  handlers j hj := ((h.handlers j hj).append _).append _
  messages := by
    refine (h.messages.append_one ?_).append_one ?_ <;>
    · intro j hj
      cases hj

/-! ### Runs -/

/-- What is reported belongs to a connection that has been greeted. -/
theorem WellFormed.greeted_of_reports (h : s.WellFormed) (hcallback : s.callback = none)
    {e : EventLoop.Event} (hreports : s.Reports e) (he : e.channel = .other (i + 1)) :
    Greeted s.log i := by
  simp only [Reports, he] at hreports
  obtain ⟨mask, hmask, -⟩ := (Option.any_eq_true _ _).1 hreports
  obtain ⟨c, -, hmask⟩ := Option.bind_eq_some_iff.1 hmask
  obtain ⟨⟨j, mask'⟩, hregistered, hmask⟩ := Option.bind_eq_some_iff.1 hmask
  simp only [Option.ite_none_right_eq_some] at hmask
  obtain ⟨rfl, -⟩ := hmask
  exact h.greeted_idle hcallback (h.registered _ _ _ hregistered)

/-- What a ready channel calls belongs to its connection. -/
theorem channel_of_handleEvent {e : EventLoop.Event}
    (h : .read i ∈ handleEvent e ∨ .write i ∈ handleEvent e) : e.channel = .other (i + 1) := by
  obtain ⟨channel, revents⟩ := e
  rcases channel with _ | _ | j
  · simp [handleEvent, readCallback, writeCallback] at h
  · simp [handleEvent, readCallback, writeCallback] at h
  · simp only [handleEvent, readCallback, writeCallback, List.mem_append] at h
    split_ifs at h <;> simp at h <;> simp [h]

/-- The application has been given established connections only. -/
theorem WellFormed.established_of_known (h : s.WellFormed)
    (hknown : .invoked (.connection i) ∈ s.log) : .established i ∈ s.log := by
  have hi : i ∈ s.log.filterMap connected? := List.mem_filterMap.2 ⟨_, hknown, rfl⟩
  rw [h.connected] at hi
  obtain ⟨e, he, hei⟩ := List.mem_filterMap.1 hi
  cases e with
  | established j =>
      cases hei
      exact he
  | accepted | invoked | returned => cases hei

/-- A handler is due, and called. -/
theorem WellFormed.popHandler (h : s.WellFormed) {handler : Handler} {handlers : List Handler}
    (hhandlers : s.handlers = handler :: handlers) :
    WellFormed { s with handlers := handlers } := by
  refine h.withHandlers ?_
  intro i hi
  refine h.handlers i (hi.imp ?_ ?_) <;>
  · rw [hhandlers]
    exact List.mem_cons_of_mem _

/-- Between two rounds no channel waits to be handled. -/
theorem WellFormed.testQuit (h : s.WellFormed) (hl : s.loop.testQuit.WellFormed) :
    WellFormed { s with loop := s.loop.testQuit } := by
  refine h.withLoop hl rfl rfl ?_
  intro channels hchannels
  rcases s.loop.testQuit_phase with hphase | hphase
  · rw [hphase] at hchannels
    cases hchannels
  · rw [hphase] at hchannels
    cases hchannels

/-- A functor is executed. -/
theorem WellFormed.runFunctor (h : s.WellFormed) (hcallback : s.callback = none)
    {l : EventLoop (Option Functor)} {f : Option Functor} {functors : List (Option Functor)}
    {t : ServerLoop} (hfunctors : s.loop.functors = f :: functors)
    (hloop : s.loop.step .runFunctor = some l)
    (hrun : { s with loop := l }.runFunctor f = some t) : t.WellFormed := by
  have hl := EventLoop.wellFormed_step _ _ _ h.loop hloop
  cases EventLoop.step_moves hloop with
  | @runFunctor f' functors' hphase hfunctors' =>
      rw [hfunctors] at hfunctors'
      cases hfunctors'
      have hidle : ∀ channels, s.loop.phase = .handling channels → ∀ e ∈ channels, ∀ i,
          e.channel = .other (i + 1) → Greeted s.log i := by
        intro channels hchannels
        rw [hphase] at hchannels
        cases hchannels
      rcases f with _ | f
      · cases hrun
        refine h.withLoop hl rfl ?_ hidle
        simp [establishes]
      · obtain ⟨server, hserver, ht⟩ := runFunctor_eq_some h.called hrun
        have houtbox : { s.server with pendingFunctors := [] } = s.server := by
          rw [← h.outbox]
        cases f with
        | connectEstablished i =>
            simp only at ht
            subst ht
            have htouches := TcpServer.touches_connectEstablished rfl hserver
            rw [houtbox] at htouches
            exact (h.establish hcallback hl rfl rfl (by rw [hphase]; exact id)).settle
              htouches (List.mem_append_left _ (List.mem_append_right _ List.mem_cons_self))
        | writeComplete i set =>
            simp only at ht
            subst ht
            obtain rfl : server = s.server :=
              (TcpServer.step_writeComplete rfl hserver).trans houtbox
            have hdone := h.withLoop hl rfl (by simp [establishes, Functor.establishes?]) hidle
            exact (congrArg WellFormed (settle_self hdone.outbox hdone.called)).mpr hdone

/-- **No step breaks the invariant.** -/
theorem wellFormed_step : Runs.Invariant step WellFormed := by
  intro s op t h hstep
  cases step_moves h.called hstep with
  | start => exact { h with }
  | @loop l hloop =>
      have hl := EventLoop.wellFormed_step _ _ _ h.loop hloop
      cases EventLoop.step_moves hloop with
      | loop => exact h.testQuit hl
  | @poll l events hcallback hreports hloop =>
      have hl := EventLoop.wellFormed_step _ _ _ h.loop hloop
      cases EventLoop.step_moves hloop with
      | poll =>
          refine h.withLoop hl rfl rfl ?_
          intro channels hchannels e he i hi
          cases hchannels
          exact h.greeted_of_reports hcallback (hreports e he) hi
  | @handleEvent l e channels hphase hloop =>
      have hl := EventLoop.wellFormed_step _ _ _ h.loop hloop
      cases EventLoop.step_moves hloop with
      | @handleEvent e' channels' hphase' =>
          rw [hphase] at hphase'
          cases hphase'
          obtain ⟨hqueued, hexecuted, hhandling⟩ :=
            EventLoop.handleEvent_frame { s.loop with phase := .handling channels } e
          have hready := h.ready _ hphase
          have hloop' := h.withLoop hl (congrArg establishes hqueued)
            (congrArg establishes hexecuted) ?_
          · refine hloop'.withHandlers ?_
            intro i hi
            exact hready e List.mem_cons_self i (channel_of_handleEvent hi)
          · intro channels' hchannels' e' he'
            rw [hhandling] at hchannels'
            cases hchannels'
            exact hready e' (List.mem_cons_of_mem _ he')
  | @accept sockfd handlers server hhandlers hserver =>
      exact (h.popHandler hhandlers).accept hserver
  | @handleRead i result handlers server hcallback hhandlers hserver =>
      have hi : Greeted s.log i :=
        h.handlers i (Or.inl (by rw [hhandlers]; exact List.mem_cons_self))
      have hread := (h.popHandler hhandlers).settle (TcpServer.touches_step rfl hserver) hi.1
      cases result with
      | data bytes => exact hread.invokeMessage hcallback hi
      | eof | failed => exact hread
  | @handleWrite i ret handlers server hhandlers hserver =>
      have hi : Greeted s.log i :=
        h.handlers i (Or.inr (by rw [hhandlers]; exact List.mem_cons_self))
      exact (h.popHandler hhandlers).settle (TcpServer.touches_step rfl hserver) hi.1
  | @doPendingFunctors l hloop =>
      have hl := EventLoop.wellFormed_step _ _ _ h.loop hloop
      cases EventLoop.step_moves hloop with
      | doPendingFunctors => exact h.withLoop hl rfl rfl nofun
  | runFunctor hcallback hfunctors hloop hrun => exact h.runFunctor hcallback hfunctors hloop hrun
  | @next l hloop =>
      have hl := EventLoop.wellFormed_step _ _ _ h.loop hloop
      cases EventLoop.step_moves hloop with
      | next => exact h.testQuit hl
  | @send i msg ret server hknown hserver =>
      exact h.settle (TcpServer.touches_step rfl hserver) (h.established_of_known hknown)
  | @queueInLoop l hloop =>
      have hl := EventLoop.wellFormed_step _ _ _ h.loop hloop
      cases EventLoop.step_moves hloop with
      | queueInLoop =>
          refine h.withLoop hl ?_ rfl h.ready
          simp [EventLoop.queueInLoop, EventLoop.wakeup, establishes]
  | returns hcallback => exact h.returns hcallback

/-- The connection callback of a connection is called as often as the connection is
established. -/
theorem WellFormed.count_invoked (h : s.WellFormed) (i : ℕ) :
    s.log.count (.invoked (.connection i)) = (s.log.filterMap established?).count i := by
  rw [← h.connected, List.count_filterMap, List.count]
  refine List.countP_congr ?_
  intro e _
  rcases e with _ | _ | (_ | _) | _ <;> simp [connected?]

/-- Connections are established in the order of their acceptance. -/
theorem WellFormed.acceptOrder (h : s.WellFormed) :
    s.log.filterMap established? <+: s.log.filterMap accepted? := by
  rw [h.accepted, ← h.executed, ← h.queued, ← h.loop.order, List.append_assoc]
  unfold establishes
  rw [List.filterMap_append]
  exact List.prefix_append _ _

/-- **The invariant has the callbacks in order.** -/
theorem WellFormed.callbackOrder (h : s.WellFormed) : s.CallbackOrder where
  once := by
    intro i
    have hdistinct : (s.log.filterMap established?).Nodup := by
      refine h.acceptOrder.sublist.nodup ?_
      rw [h.accepted]
      exact List.nodup_range
    rw [h.count_invoked]
    exact List.nodup_iff_count.1 hdistinct i
  unregistered := h.registered
  connectionFirst := h.messages
  acceptOrder := h.acceptOrder

/-- **The callbacks are in order in every run**, whatever is accepted, read, closed and reopened,
and whenever the application sends. -/
theorem callbackOrder_of_exec {ops : List ServerLoopOp} (h : Runs.exec step init ops = some s) :
    s.CallbackOrder :=
  (Runs.exec_invariant wellFormed_step wellFormed_init h).callbackOrder

/-- A connection is accepted; its peer closes in the round in which another one is accepted, with
the same number; and that one reads. -/
def demoOps : List ServerLoopOp :=
  [.start, .loop, .poll [⟨.other 0, kReadEvent⟩], .handleEvent, .accept 7, .doPendingFunctors,
    .runFunctor, .send 0 [97] 1, .returns, .next,
    .poll [⟨.own, kReadEvent⟩, ⟨.other 1, kReadEvent⟩, ⟨.other 0, kReadEvent⟩], .handleEvent,
    .handleEvent, .handleRead .eof, .handleEvent, .accept 7, .doPendingFunctors, .runFunctor,
    .returns, .next, .poll [⟨.other 2, kReadEvent⟩], .handleEvent, .handleRead (.data [98])]

theorem callbackOrder_of_exec_demoOps :
    ∃ s, Runs.exec step init demoOps = some s ∧
      s.log = [.accepted 0, .established 0, .invoked (.connection 0), .returned (.connection 0),
        .accepted 1, .established 1, .invoked (.connection 1), .returned (.connection 1),
        .invoked (.message 1)] ∧ s.CallbackOrder := by
  have hdemo : (Runs.exec step init demoOps).map (·.log) = some
      [.accepted 0, .established 0, .invoked (.connection 0), .returned (.connection 0),
        .accepted 1, .established 1, .invoked (.connection 1), .returned (.connection 1),
        .invoked (.message 1)] := by
    decide +kernel
  obtain ⟨s, hs, hlog⟩ := Option.map_eq_some_iff.1 hdemo
  exact ⟨s, hs, hlog, callbackOrder_of_exec hs⟩

end

end ServerLoop

end G5
