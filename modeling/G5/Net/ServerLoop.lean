/-
**A server on its event loop** (`src/net/TcpServer.cc`, `src/net/EventLoop.cc`,
`src/net/Acceptor.cc`, `Channel::handleEvent`).

The loop of the process, with the server and its connections on it.  The poller reports channels
that are registered; `Channel::handleEvent` calls the functions of a reported channel one after the
other; a functor that the server queues is executed by a later `doPendingFunctors`.  The connections
call back into the application, which may send on any connection it has been given and queue
functors of its own; timers and other channels of the loop do nothing but call it as well, so that
it may do so at any time outside `poll`.  It does not set a write-complete callback on a connection
(`setWriteCompleteCallback`).

What is called back are the callbacks that the functions of the connections ask for among their
effects, in the order in which they ask for them.

Main definitions:

* `ServerLoop`, `ServerLoop.step` — the loop and the server together, and what may happen next;
* `ServerLoop.Reports` — the events that the poller may report;
* `ServerEvent` — what is recorded of a run.

Main results:

* `ServerLoop.step_moves` — what a step can do, said once, with what it calls back.
-/

import G5.Net.EventLoop
import G5.Net.TcpServer

set_option relaxedAutoImplicit false
set_option autoImplicit false

namespace G5

/-- What is recorded of a run. -/
inductive ServerEvent
  /-- `newConnection` makes a connection -/
  | accepted (conn : ℕ)
  /-- `connectEstablished` is called -/
  | established (conn : ℕ)
  | invoked (callback : Callback)
  | returned (callback : Callback)
  deriving DecidableEq, Repr

/-- The functions that are bound to the channels of a server. -/
inductive Handler
  /-- `Acceptor::handleRead` -/
  | accept
  /-- `TcpConnection::handleRead` -/
  | read (conn : ℕ)
  /-- `TcpConnection::handleWrite` -/
  | write (conn : ℕ)
  deriving DecidableEq, Repr

/-- The loop and the server.  A functor of the loop is one of the server's, or one of the
application's.  The channel of the acceptor has the number 0, and that of the connection `i` the
number `i + 1`. -/
structure ServerLoop where
  loop : EventLoop (Option Functor)
  server : TcpServer
  /-- the acceptor's channel is registered -/
  listening : Bool
  /-- what the `handleEvent` under way has still to call -/
  handlers : List Handler
  /-- the function of the application that has been called and has not returned -/
  callback : Option Callback
  log : List ServerEvent

/-- What may happen next. -/
inductive ServerLoopOp
  /-- `TcpServer::start` -/
  | start
  | loop
  | poll (events : List EventLoop.Event)
  | handleEvent
  /-- the handler that is due accepts this descriptor -/
  | accept (sockfd : ℕ)
  /-- the handler that is due reads -/
  | handleRead (result : ReadResult)
  /-- the handler that is due writes -/
  | handleWrite (ret : ℤ)
  | doPendingFunctors
  | runFunctor
  | next
  /-- the application sends -/
  | send (conn : ℕ) (msg : List Byte) (ret : ℤ)
  /-- the application queues a functor -/
  | queueInLoop
  /-- the function of the application returns -/
  | returns
  deriving DecidableEq, Repr

namespace ServerLoop

/-! ### The functions -/

def init : ServerLoop where
  loop := EventLoop.init
  server := TcpServer.init
  listening := false
  handlers := []
  callback := none
  log := []

/-- The function bound to a channel's reading; that of the eventfd is called with the loop's own
step. -/
def readCallback : EventLoop.Watched → List Handler
  | .own => []
  | .other 0 => [.accept]
  | .other (i + 1) => [.read i]

/-- The function bound to a channel's writing. -/
def writeCallback : EventLoop.Watched → List Handler
  | .own => []
  | .other 0 => []
  | .other (i + 1) => [.write i]

/-- The functions that `Channel::handleEvent` calls, in order. -/
def handleEvent (e : EventLoop.Event) : List Handler :=
  (if e.revents &&& kReadEvent ≠ 0 then readCallback e.channel else []) ++
    if e.revents &&& kWriteEvent ≠ 0 then writeCallback e.channel else []

/-- The mask with which the channel of the connection `i` is registered. -/
def mask? (server : TcpServer) (i : ℕ) : Option Events :=
  server.conns[i]?.bind fun c =>
    (server.epoll.registered c.fd).bind fun r => if r.1 = i then some r.2 else none

/-- The poller may report the event: the channel is registered, for what is reported. -/
def Reports (s : ServerLoop) (e : EventLoop.Event) : Prop :=
  match e.channel with
  | .own => True
  | .other 0 => s.listening = true ∧ e.revents &&& kWriteEvent = 0
  | .other (i + 1) =>
      (mask? s.server i).any fun mask =>
        e.revents &&& (kReadEvent ||| kWriteEvent) &&& ~~~mask = 0

instance (s : ServerLoop) (e : EventLoop.Event) : Decidable (s.Reports e) := by
  unfold Reports
  split <;> infer_instance

/-- The server is left as `server`; what its functions have queued is in the loop's queue. -/
def settle (s : ServerLoop) (server : TcpServer) : ServerLoop :=
  { s with
    server := { server with pendingFunctors := [], callbacks := [] }
    loop := (server.pendingFunctors.map some).foldl EventLoop.queueInLoop s.loop }

/-- The function of the application is called. -/
def invoke (s : ServerLoop) (callback : Callback) : ServerLoop :=
  { s with callback := some callback, log := s.log ++ [.invoked callback] }

/-- The server is left as `server`, and the functions of the application that it has called are
called. -/
def withServer (s : ServerLoop) (server : TcpServer) : ServerLoop :=
  server.callbacks.foldl invoke (s.settle server)

/-- A functor is executed: one of the application's, whose calls are steps of their own, or one of
the server's. -/
def runFunctor (s : ServerLoop) : Option Functor → Option ServerLoop
  | none => some s
  | some f =>
      ({ s.server with pendingFunctors := [f] }.step .runFunctor).map
        (match f with
        | .connectEstablished i => { s with log := s.log ++ [ServerEvent.established i] }
        | .writeComplete _ _ => s).withServer

/-- One step.  While a function of the application runs, the loop stands still. -/
def step (s : ServerLoop) : ServerLoopOp → Option ServerLoop
  | .start => if s.loop.phase = .polling then none else some { s with listening := true }
  | .loop =>
      match s.callback with
      | none => (s.loop.step .loop).map fun loop => { s with loop := loop }
      | some _ => none
  | .poll events =>
      if s.callback = none ∧ ∀ e ∈ events, s.Reports e then
        (s.loop.step (.poll events)).map fun loop => { s with loop := loop }
      else none
  | .handleEvent =>
      match s.callback, s.handlers, s.loop.phase with
      | none, [], .handling (e :: _) =>
          (s.loop.step .handleEvent).map fun loop =>
            { s with loop := loop, handlers := handleEvent e }
      | _, _, _ => none
  | .accept sockfd =>
      match s.callback, s.handlers with
      | none, .accept :: handlers =>
          (s.server.step (.accept sockfd)).map
            { s with
              handlers := handlers
              log := s.log ++ [ServerEvent.accepted s.server.conns.length] }.withServer
      | _, _ => none
  | .handleRead result =>
      match s.callback, s.handlers with
      | none, .read i :: handlers =>
          (s.server.step (.handleRead i result)).map { s with handlers := handlers }.withServer
      | _, _ => none
  | .handleWrite ret =>
      match s.callback, s.handlers with
      | none, .write i :: handlers =>
          (s.server.step (.handleWrite i ret)).map { s with handlers := handlers }.withServer
      | _, _ => none
  | .doPendingFunctors =>
      match s.callback, s.handlers with
      | none, [] => (s.loop.step .doPendingFunctors).map fun loop => { s with loop := loop }
      | _, _ => none
  | .runFunctor =>
      match s.callback, s.loop.functors with
      | none, f :: _ =>
          (s.loop.step .runFunctor).bind fun loop => { s with loop := loop }.runFunctor f
      | _, _ => none
  | .next =>
      match s.callback with
      | none => (s.loop.step .next).map fun loop => { s with loop := loop }
      | some _ => none
  -- the application has a connection from its connection callback on
  | .send i msg ret =>
      if s.loop.phase ≠ .polling ∧ .invoked (.connection i) ∈ s.log then
        (s.server.step (.send i msg ret)).map s.withServer
      else none
  | .queueInLoop =>
      (s.loop.step (.queueInLoop none)).map fun loop => { s with loop := loop }
  | .returns =>
      s.callback.map fun callback =>
        { s with callback := none, log := s.log ++ [.returned callback] }

/-! ### What a step can do -/

/-- `newConnection` has been called for a descriptor that was accepted. -/
def accepted (s : ServerLoop) (server : TcpServer) : ServerLoop :=
  { s.settle server with log := s.log ++ [.accepted s.server.conns.length] }

/-- A functor has been executed that calls `connectEstablished`, which has called the connection
callback. -/
def established (s : ServerLoop) (i : ℕ) : ServerLoop :=
  invoke { s with log := s.log ++ [.established i] } (.connection i)

/-- `TcpConnection::handleRead` has read this; the message callback is called for data only. -/
def afterRead (s : ServerLoop) (i : ℕ) : ReadResult → ServerLoop
  | .data _ => s.invoke (.message i)
  | .eof => s
  | .failed => s

/-- The steps, with their guards. -/
inductive Moves (s : ServerLoop) : ServerLoopOp → ServerLoop → Prop
  | start : Moves s .start { s with listening := true }
  | loop {l : EventLoop (Option Functor)} (hstep : s.loop.step .loop = some l) :
      Moves s .loop { s with loop := l }
  | poll {l : EventLoop (Option Functor)} {events : List EventLoop.Event}
      (hcallback : s.callback = none) (hreports : ∀ e ∈ events, s.Reports e)
      (hstep : s.loop.step (.poll events) = some l) : Moves s (.poll events) { s with loop := l }
  | handleEvent {l : EventLoop (Option Functor)} {e : EventLoop.Event}
      {channels : List EventLoop.Event} (hphase : s.loop.phase = .handling (e :: channels))
      (hstep : s.loop.step .handleEvent = some l) :
      Moves s .handleEvent { s with loop := l, handlers := ServerLoop.handleEvent e }
  | accept {sockfd : ℕ} {handlers : List Handler} {server : TcpServer}
      (hhandlers : s.handlers = .accept :: handlers)
      (hstep : s.server.step (.accept sockfd) = some server) :
      Moves s (.accept sockfd) ({ s with handlers := handlers }.accepted server)
  | handleRead {i : ℕ} {result : ReadResult} {handlers : List Handler} {server : TcpServer}
      (hcallback : s.callback = none) (hhandlers : s.handlers = .read i :: handlers)
      (hstep : s.server.step (.handleRead i result) = some server) :
      Moves s (.handleRead result)
        (({ s with handlers := handlers }.settle server).afterRead i result)
  | handleWrite {i : ℕ} {ret : ℤ} {handlers : List Handler} {server : TcpServer}
      (hhandlers : s.handlers = .write i :: handlers)
      (hstep : s.server.step (.handleWrite i ret) = some server) :
      Moves s (.handleWrite ret) ({ s with handlers := handlers }.settle server)
  | doPendingFunctors {l : EventLoop (Option Functor)}
      (hstep : s.loop.step .doPendingFunctors = some l) :
      Moves s .doPendingFunctors { s with loop := l }
  | runFunctor {l : EventLoop (Option Functor)} {f : Option Functor}
      {functors : List (Option Functor)} {t : ServerLoop} (hcallback : s.callback = none)
      (hfunctors : s.loop.functors = f :: functors) (hstep : s.loop.step .runFunctor = some l)
      (hrun : { s with loop := l }.runFunctor f = some t) : Moves s .runFunctor t
  | next {l : EventLoop (Option Functor)} (hstep : s.loop.step .next = some l) :
      Moves s .next { s with loop := l }
  | send {i : ℕ} {msg : List Byte} {ret : ℤ} {server : TcpServer}
      (hknown : .invoked (.connection i) ∈ s.log)
      (hstep : s.server.step (.send i msg ret) = some server) :
      Moves s (.send i msg ret) (s.settle server)
  | queueInLoop {l : EventLoop (Option Functor)}
      (hstep : s.loop.step (.queueInLoop none) = some l) :
      Moves s .queueInLoop { s with loop := l }
  | returns {callback : Callback} (hcallback : s.callback = some callback) :
      Moves s .returns { s with callback := none, log := s.log ++ [.returned callback] }

/-- What a step of the server calls is called back, where nothing else was. -/
theorem withServer_of_step (s : ServerLoop) {server server' : TcpServer} {op : ServerOp}
    (h : server.callbacks = []) (hstep : server.step op = some server') :
    s.withServer server' = (server.calledBy op).foldl invoke (s.settle server') := by
  rw [withServer, TcpServer.callbacks_step hstep, h, List.nil_append]

/-- A connection is called, and calls nothing back. -/
theorem withServer_finish (s : ServerLoop) {i : ℕ} {effects : List Effect}
    (h : s.server.callbacks = []) (hnone : effects.filterMap (TcpServer.callback? i) = [])
    (c : TcpConnection) :
    s.withServer (s.server.finish i c effects) = s.settle (s.server.finish i c effects) := by
  rw [withServer, TcpServer.callbacks_finish, h, hnone]
  rfl

/-- A functor of the server is executed, and calls the connection callback if it establishes a
connection. -/
theorem runFunctor_eq_some {s t : ServerLoop} {l : EventLoop (Option Functor)} {f : Functor}
    (h : s.server.callbacks = []) (hrun : { s with loop := l }.runFunctor (some f) = some t) :
    ∃ server, { s.server with pendingFunctors := [f] }.step .runFunctor = some server ∧
      match f with
      | .connectEstablished i => t = ({ s with loop := l }.settle server).established i
      | .writeComplete _ _ => t = { s with loop := l }.settle server := by
  obtain ⟨server, hstep, rfl⟩ := Option.map_eq_some_iff.1 hrun
  have hbefore : ({ s.server with pendingFunctors := [f] } : TcpServer).callbacks = [] := h
  refine ⟨server, hstep, ?_⟩
  cases f with
  | connectEstablished i => exact withServer_of_step _ hbefore hstep
  | writeComplete i set => exact withServer_of_step _ hbefore hstep

/-- **A step is one of these**, where all that was called before has been called back. -/
theorem step_moves {s t : ServerLoop} {op : ServerLoopOp} (hcalled : s.server.callbacks = [])
    (h : s.step op = some t) : Moves s op t := by
  cases op with
  | start =>
      simp only [step, Option.ite_none_left_eq_some, Option.some.injEq] at h
      obtain ⟨-, rfl⟩ := h
      exact .start
  | poll events =>
      simp only [step, Option.ite_none_right_eq_some, Option.map_eq_some_iff] at h
      obtain ⟨⟨hcallback, hreports⟩, l, hstep, rfl⟩ := h
      exact .poll hcallback hreports hstep
  | send i msg ret =>
      simp only [step, Option.ite_none_right_eq_some, Option.map_eq_some_iff] at h
      obtain ⟨⟨-, hknown⟩, server, hstep, rfl⟩ := h
      rw [withServer_of_step s hcalled hstep]
      exact .send hknown hstep
  | queueInLoop =>
      obtain ⟨l, hstep, rfl⟩ := Option.map_eq_some_iff.1 h
      exact .queueInLoop hstep
  | returns =>
      obtain ⟨callback, hcallback, rfl⟩ := Option.map_eq_some_iff.1 h
      exact .returns hcallback
  | loop =>
      simp only [step] at h
      split at h
      · obtain ⟨l, hstep, rfl⟩ := Option.map_eq_some_iff.1 h
        exact .loop hstep
      · cases h
  | next =>
      simp only [step] at h
      split at h
      · obtain ⟨l, hstep, rfl⟩ := Option.map_eq_some_iff.1 h
        exact .next hstep
      · cases h
  | handleEvent =>
      simp only [step] at h
      split at h
      · rename_i hphase
        obtain ⟨l, hstep, rfl⟩ := Option.map_eq_some_iff.1 h
        exact .handleEvent hphase hstep
      · cases h
  | doPendingFunctors =>
      simp only [step] at h
      split at h
      · obtain ⟨l, hstep, rfl⟩ := Option.map_eq_some_iff.1 h
        exact .doPendingFunctors hstep
      · cases h
  | accept sockfd =>
      simp only [step] at h
      split at h
      · rename_i hhandlers
        obtain ⟨server, hstep, rfl⟩ := Option.map_eq_some_iff.1 h
        rw [withServer_of_step _ hcalled hstep]
        exact .accept hhandlers hstep
      · cases h
  | handleRead result =>
      simp only [step] at h
      split at h
      · rename_i hcallback hhandlers
        obtain ⟨server, hstep, rfl⟩ := Option.map_eq_some_iff.1 h
        rw [withServer_of_step _ hcalled hstep]
        have hmoves := Moves.handleRead hcallback hhandlers hstep
        cases result <;> exact hmoves
      · cases h
  | handleWrite ret =>
      simp only [step] at h
      split at h
      · rename_i hhandlers
        obtain ⟨server, hstep, rfl⟩ := Option.map_eq_some_iff.1 h
        rw [withServer_of_step _ hcalled hstep]
        exact .handleWrite hhandlers hstep
      · cases h
  | runFunctor =>
      simp only [step] at h
      split at h
      · rename_i hcallback hfunctors
        obtain ⟨l, hstep, hrun⟩ := Option.bind_eq_some_iff.1 h
        exact .runFunctor hcallback hfunctors hstep hrun
      · cases h

end ServerLoop

end G5
