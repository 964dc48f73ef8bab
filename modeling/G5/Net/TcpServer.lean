/-
**The server and the descriptors of its connections** (`src/net/TcpServer.cc`).

The server makes a connection for each accepted descriptor and keeps it in a map under the number
of the descriptor.  Nothing takes a connection out of the map, and a connection does not remember
that it has closed its descriptor.

Callbacks, functors, and the calls of the application may come in any order; connections are never
destroyed, as the application may retain them.  The kernel gives out any number that is not open,
and answers a `read` or a `write` on a number that is not open with -1.  The server sets no
write-complete callback on its connections, and that the application sets one itself, with
`setWriteCompleteCallback`, is not modelled.

Main definitions:

* `TcpServer`, `TcpServer.newConnection`, `TcpServer.step` — the runs;
* `Call` — a `write` or a `close` that has been made, with whom the number belonged to then;
* `TcpServer.FdOwned` — a connection that has closed its descriptor is quiet, bytes reach no other
  connection's socket, and the map holds only connections whose descriptor is open.

Main results:

* `TcpServer.step_moves` — what a step can do, said once;
* `TcpServer.callbacks_step` — which functions of the application a step calls;
* `TcpServer.everyState_fdOwned_iff` — this holds all along a run exactly if no peer closes.
-/

import G5.Net.TcpConnection

set_option relaxedAutoImplicit false
set_option autoImplicit false

namespace G5

/-- What is queued in the loop. -/
inductive Functor
  /-- `std::bind(&TcpConnection::connectEstablished, conn)` -/
  | connectEstablished (conn : ℕ)
  /-- `std::bind(writeCompleteCallback_, …)`, and whether the bound callback is set -/
  | writeComplete (conn : ℕ) (set : Bool)
  deriving DecidableEq, Repr

/-- The system calls on the descriptor of a connection. -/
inductive CallKind
  | write (accepted : List Byte)
  | close
  deriving DecidableEq, Repr

/-- A system call that a connection has made, and the connection whose descriptor it was made on. -/
structure Call where
  conn : ℕ
  kind : CallKind
  owner : Option ℕ
  deriving DecidableEq, Repr

/-- The functions of the application that a connection calls. -/
inductive Callback
  | connection (conn : ℕ)
  | message (conn : ℕ)
  deriving DecidableEq, Repr

/-- The server, the connections it has made in the order in which it made them, the functors queued
in its loop, the kernel, and the functions of the application that have been called. -/
structure TcpServer where
  connectionCallback : Bool
  messageCallback : Bool
  connections : ℕ → Option ℕ
  conns : List TcpConnection
  pendingFunctors : List Functor
  epoll : Epoll ℕ
  calls : List Call
  callbacks : List Callback

/-- What may happen next. -/
inductive ServerOp
  | accept (sockfd : ℕ)
  | handleRead (conn : ℕ) (result : ReadResult)
  | handleWrite (conn : ℕ) (ret : ℤ)
  | send (conn : ℕ) (msg : List Byte) (ret : ℤ)
  | runFunctor
  deriving DecidableEq, Repr

namespace TcpServer

/-! ### The functions -/

/-- The constructor: both callbacks are the default ones. -/
def init : TcpServer where
  connectionCallback := true
  messageCallback := true
  connections := fun _ => none
  conns := []
  pendingFunctors := []
  epoll := Epoll.init
  calls := []
  callbacks := []

/-- `newConnection`; the new connection is the next one in the list. -/
def newConnection (s : TcpServer) (sockfd : ℕ) : TcpServer :=
  { s with
    conns := s.conns ++ [{ TcpConnection.new sockfd with
      connectionCallback := s.connectionCallback
      messageCallback := s.messageCallback }]
    connections := Function.update s.connections sockfd (some s.conns.length)
    pendingFunctors := s.pendingFunctors ++ [.connectEstablished s.conns.length] }

/-- What an effect of the connection `i` does to its surroundings. -/
def perform (i : ℕ) (s : TcpServer) : Effect → TcpServer
  | .write fd accepted => { s with calls := s.calls ++ [⟨i, .write accepted, s.epoll.owner fd⟩] }
  | .close fd =>
      { s with
        calls := s.calls ++ [⟨i, .close, s.epoll.owner fd⟩]
        epoll := s.epoll.closeFd fd }
  | .update channel => { s with epoll := Epoller.update s.epoll i channel }
  | .queueWriteComplete set =>
      { s with pendingFunctors := s.pendingFunctors ++ [.writeComplete i set] }
  | .connectionCallback => { s with callbacks := s.callbacks ++ [.connection i] }
  | .messageCallback => { s with callbacks := s.callbacks ++ [.message i] }

/-- The connection `i` is left as `c`, and its effects happen. -/
def finish (s : TcpServer) (i : ℕ) (c : TcpConnection) (effects : List Effect) : TcpServer :=
  effects.foldl (perform i) { s with conns := s.conns.set i c }

/-- What `read` can return on a descriptor, and on one that is not open. -/
def ReadAllowed (opened : Bool) : ReadResult → Prop
  | .failed => True
  | .eof => opened = true
  | .data bytes => opened = true ∧ bytes ≠ [] ∧ bytes.length ≤ 1024

/-- What `write` can return for `n` bytes on a descriptor, and on one that is not open. -/
def WriteAllowed (opened : Bool) (n : ℕ) (ret : ℤ) : Prop :=
  -1 ≤ ret ∧ ret ≤ n ∧ (opened = false → ret = -1)

instance (opened : Bool) (r : ReadResult) : Decidable (ReadAllowed opened r) := by
  cases r <;> unfold ReadAllowed <;> infer_instance

instance (opened : Bool) (n : ℕ) (ret : ℤ) : Decidable (WriteAllowed opened n ret) :=
  inferInstanceAs (Decidable (_ ∧ _ ∧ _))

/-- The number of the connection is open, for this connection or for another one. -/
def isOpen (s : TcpServer) (c : TcpConnection) : Bool := (s.epoll.owner c.fd).isSome

/-- One step.  A call of `send` that throws has made its `write`. -/
def step (s : TcpServer) : ServerOp → Option TcpServer
  | .accept sockfd =>
      if s.epoll.owner sockfd = none then
        some ({ s with epoll := s.epoll.openFd sockfd s.conns.length }.newConnection sockfd)
      else none
  | .handleRead i result =>
      s.conns[i]?.bind fun c =>
        if ReadAllowed (s.isOpen c) result then
          match c.handleRead result with
          | .ok (c', effects) => some (s.finish i c' effects)
          | .error _ => none
        else none
  | .handleWrite i ret =>
      s.conns[i]?.bind fun c =>
        if c.channel.isWriting → WriteAllowed (s.isOpen c) c.outputBuf.readableBytes ret then
          match c.handleWrite ret with
          | .ok (c', effects) => some (s.finish i c' effects)
          | .error _ => none
        else none
  | .send i msg ret =>
      s.conns[i]?.bind fun c =>
        if c.outputBuf.readableBytes ≤ 0 → WriteAllowed (s.isOpen c) msg.length ret then
          match c.send msg ret with
          | .ok (c', effects) => some (s.finish i c' effects)
          | .error .outOfRange => some (s.finish i c (c.sendDirect msg ret).2)
          | .error _ => none
        else none
  | .runFunctor =>
      match s.pendingFunctors with
      | .connectEstablished i :: rest =>
          s.conns[i]?.bind fun c =>
            match c.connectEstablished with
            | .ok (c', effects) => some ({ s with pendingFunctors := rest }.finish i c' effects)
            | .error _ => none
      | .writeComplete _ true :: rest => some { s with pendingFunctors := rest }
      | _ => none

/-! ### What a step can do -/

/-- The steps, with their guards and the results of the functions of the connection. -/
inductive Moves (s : TcpServer) : ServerOp → TcpServer → Prop
  | accept {sockfd : ℕ} (hfree : s.epoll.owner sockfd = none) :
      Moves s (.accept sockfd)
        ({ s with epoll := s.epoll.openFd sockfd s.conns.length }.newConnection sockfd)
  | handleRead {i : ℕ} {result : ReadResult} {c c' : TcpConnection} {effects : List Effect}
      (hc : s.conns[i]? = some c) (hok : c.handleRead result = .ok (c', effects)) :
      Moves s (.handleRead i result) (s.finish i c' effects)
  | handleWrite {i : ℕ} {ret : ℤ} {c c' : TcpConnection} {effects : List Effect}
      (hc : s.conns[i]? = some c) (hok : c.handleWrite ret = .ok (c', effects)) :
      Moves s (.handleWrite i ret) (s.finish i c' effects)
  | send {i : ℕ} {msg : List Byte} {ret : ℤ} {c c' : TcpConnection} {effects : List Effect}
      (hc : s.conns[i]? = some c) (hok : c.send msg ret = .ok (c', effects)) :
      Moves s (.send i msg ret) (s.finish i c' effects)
  | sendThrows {i : ℕ} {msg : List Byte} {ret : ℤ} {c : TcpConnection}
      (hc : s.conns[i]? = some c) :
      Moves s (.send i msg ret) (s.finish i c (c.sendDirect msg ret).2)
  | connectEstablished {i : ℕ} {rest : List Functor} {c c' : TcpConnection}
      {effects : List Effect} (hpending : s.pendingFunctors = .connectEstablished i :: rest)
      (hc : s.conns[i]? = some c) (hok : c.connectEstablished = .ok (c', effects)) :
      Moves s .runFunctor ({ s with pendingFunctors := rest }.finish i c' effects)
  | writeComplete {i : ℕ} {rest : List Functor}
      (hpending : s.pendingFunctors = .writeComplete i true :: rest) :
      Moves s .runFunctor { s with pendingFunctors := rest }

/-- **A step is one of these.** -/
theorem step_moves {s t : TcpServer} {op : ServerOp} (h : s.step op = some t) : Moves s op t := by
  cases op with
  | accept sockfd =>
      simp only [step, Option.ite_none_right_eq_some, Option.some.injEq] at h
      obtain ⟨hfree, rfl⟩ := h
      exact .accept hfree
  | handleRead i result =>
      obtain ⟨c, hc, h⟩ := Option.bind_eq_some_iff.1 h
      simp only [Option.ite_none_right_eq_some] at h
      obtain ⟨-, h⟩ := h
      split at h
      · rename_i hok
        cases h
        exact .handleRead hc hok
      · cases h
  | handleWrite i ret =>
      obtain ⟨c, hc, h⟩ := Option.bind_eq_some_iff.1 h
      simp only [Option.ite_none_right_eq_some] at h
      obtain ⟨-, h⟩ := h
      split at h
      · rename_i hok
        cases h
        exact .handleWrite hc hok
      · cases h
  | send i msg ret =>
      obtain ⟨c, hc, h⟩ := Option.bind_eq_some_iff.1 h
      simp only [Option.ite_none_right_eq_some] at h
      obtain ⟨-, h⟩ := h
      split at h
      · rename_i hok
        cases h
        exact .send hc hok
      · cases h
        exact .sendThrows hc
      · cases h
  | runFunctor =>
      simp only [step] at h
      split at h
      · rename_i i rest hpending
        obtain ⟨c, hc, h⟩ := Option.bind_eq_some_iff.1 h
        split at h
        · rename_i hok
          cases h
          exact .connectEstablished hpending hc hok
        · cases h
      · rename_i i rest hpending
        cases h
        exact .writeComplete hpending
      · cases h

/-! ### What the functions ask for -/

/-- The effect is not a `close`, and a `write` is on the descriptor `fd`. -/
def StaysOn (fd : ℕ) : Effect → Prop
  | .write n _ => n = fd
  | .close _ => False
  | _ => True

theorem staysOn_handleRead {c c' : TcpConnection} {r : ReadResult} {effects : List Effect}
    (hr : r ≠ .eof) (h : c.handleRead r = .ok (c', effects)) :
    c'.fd = c.fd ∧ ∀ e ∈ effects, StaysOn c.fd e := by
  cases r with
  | eof => exact absurd rfl hr
  | failed =>
      cases h
      exact ⟨rfl, by simp⟩
  | data bytes =>
      obtain ⟨inputBuf, -, h⟩ := bind_eq_ok.1 h
      split at h
      · cases h
        exact ⟨rfl, by simp [StaysOn]⟩
      · cases h

theorem staysOn_handleWrite {c c' : TcpConnection} {ret : ℤ} {effects : List Effect}
    (h : c.handleWrite ret = .ok (c', effects)) :
    c'.fd = c.fd ∧ ∀ e ∈ effects, StaysOn c.fd e := by
  simp only [TcpConnection.handleWrite] at h
  split at h
  · split at h
    · obtain ⟨outputBuf, -, h⟩ := bind_eq_ok.1 h
      split at h <;>
      · cases h
        exact ⟨rfl, by simp [StaysOn]⟩
    · cases h
      exact ⟨rfl, by simp [StaysOn]⟩
  · cases h
    exact ⟨rfl, by simp⟩

theorem staysOn_sendDirect (c : TcpConnection) (msg : List Byte) (ret : ℤ) :
    ∀ e ∈ (c.sendDirect msg ret).2, StaysOn c.fd e := by
  simp only [TcpConnection.sendDirect]
  split
  · split
    · simp [StaysOn]
    · split <;> simp [StaysOn]
  · simp

theorem staysOn_send {c c' : TcpConnection} {msg : List Byte} {ret : ℤ} {effects : List Effect}
    (h : c.send msg ret = .ok (c', effects)) :
    c'.fd = c.fd ∧ ∀ e ∈ effects, StaysOn c.fd e := by
  have hdirect := staysOn_sendDirect c msg ret
  simp only [TcpConnection.send] at h
  split at h
  · obtain ⟨rest, -, h⟩ := bind_eq_ok.1 h
    obtain ⟨outputBuf, -, h⟩ := bind_eq_ok.1 h
    split at h
    · cases h
      exact ⟨rfl, hdirect⟩
    · cases h
      refine ⟨rfl, ?_⟩
      intro e he
      rcases List.mem_append.1 he with he | he
      · exact hdirect e he
      · obtain rfl := List.mem_singleton.1 he
        exact trivial
  · cases h
    exact ⟨rfl, hdirect⟩

theorem staysOn_connectEstablished {c c' : TcpConnection} {effects : List Effect}
    (h : c.connectEstablished = .ok (c', effects)) :
    c'.fd = c.fd ∧ ∀ e ∈ effects, StaysOn c.fd e := by
  simp only [TcpConnection.connectEstablished] at h
  split at h
  · cases h
    exact ⟨rfl, by simp [StaysOn]⟩
  · cases h

/-! ### What is called -/

/-- The function of the application that an effect of the connection `i` calls. -/
def callback? (i : ℕ) : Effect → Option Callback
  | .connectionCallback => some (.connection i)
  | .messageCallback => some (.message i)
  | _ => none

/-- A read calls the message callback, if it has read data. -/
def calledByRead (i : ℕ) : ReadResult → List Callback
  | .failed => []
  | .eof => []
  | .data _ => [.message i]

/-- The functions of the application that a step calls, in order; the functor of a connection calls
its connection callback. -/
def calledBy (s : TcpServer) : ServerOp → List Callback
  | .accept _ => []
  | .handleRead i result => calledByRead i result
  | .handleWrite _ _ => []
  | .send _ _ _ => []
  | .runFunctor =>
      match s.pendingFunctors with
      | .connectEstablished i :: _ => [.connection i]
      | _ => []

theorem callbacks_finish (s : TcpServer) (i : ℕ) (c : TcpConnection) (effects : List Effect) :
    (s.finish i c effects).callbacks = s.callbacks ++ effects.filterMap (callback? i) := by
  have key : ∀ t : TcpServer, (effects.foldl (perform i) t).callbacks =
      t.callbacks ++ effects.filterMap (callback? i) := by
    -- induction on the effects
    induction effects with
    | nil => exact fun t => (List.append_nil _).symm
    | cons e effects ih =>
        intro t
        rw [List.foldl_cons, ih]
        cases e <;> simp [perform, callback?, List.filterMap_cons]
  exact key { s with conns := s.conns.set i c }

section

variable {c c' : TcpConnection} {effects : List Effect}

theorem called_handleRead {r : ReadResult} (h : c.handleRead r = .ok (c', effects)) (i : ℕ) :
    effects.filterMap (callback? i) = calledByRead i r := by
  cases r with
  | eof | failed =>
      cases h
      rfl
  | data bytes =>
      obtain ⟨inputBuf, -, h⟩ := bind_eq_ok.1 h
      split at h
      · cases h
        rfl
      · cases h

theorem called_handleWrite {ret : ℤ} (h : c.handleWrite ret = .ok (c', effects)) (i : ℕ) :
    effects.filterMap (callback? i) = [] := by
  simp only [TcpConnection.handleWrite] at h
  split at h
  · split at h
    · obtain ⟨outputBuf, -, h⟩ := bind_eq_ok.1 h
      split at h <;>
      · cases h
        rfl
    · cases h
      rfl
  · cases h
    rfl

theorem called_sendDirect (c : TcpConnection) (msg : List Byte) (ret : ℤ) (i : ℕ) :
    (c.sendDirect msg ret).2.filterMap (callback? i) = [] := by
  simp only [TcpConnection.sendDirect]
  split_ifs <;> rfl

theorem called_send {msg : List Byte} {ret : ℤ} (h : c.send msg ret = .ok (c', effects)) (i : ℕ) :
    effects.filterMap (callback? i) = [] := by
  have hdirect := called_sendDirect c msg ret i
  simp only [TcpConnection.send] at h
  split at h
  · obtain ⟨rest, -, h⟩ := bind_eq_ok.1 h
    obtain ⟨outputBuf, -, h⟩ := bind_eq_ok.1 h
    split at h
    · cases h
      exact hdirect
    · cases h
      rw [List.filterMap_append, hdirect]
      rfl
  · cases h
    exact hdirect

theorem called_connectEstablished (h : c.connectEstablished = .ok (c', effects)) (i : ℕ) :
    effects.filterMap (callback? i) = [.connection i] := by
  simp only [TcpConnection.connectEstablished] at h
  split at h
  · cases h
    rfl
  · cases h

end

/-- **What a step calls.** -/
theorem callbacks_step {s t : TcpServer} {op : ServerOp} (h : s.step op = some t) :
    t.callbacks = s.callbacks ++ s.calledBy op := by
  cases step_moves h with
  | accept => exact (List.append_nil _).symm
  | handleRead hc hok => rw [callbacks_finish, called_handleRead hok, calledBy]
  | handleWrite hc hok => rw [callbacks_finish, called_handleWrite hok, calledBy]
  | send hc hok => rw [callbacks_finish, called_send hok, calledBy]
  | @sendThrows i msg ret c hc => rw [callbacks_finish, called_sendDirect, calledBy]
  | @connectEstablished i rest c c' effects hpending hc hok =>
      rw [callbacks_finish, called_connectEstablished hok, calledBy, hpending]
  | writeComplete hpending => rw [calledBy, hpending, List.append_nil]

/-! ### Ownership -/

/-- A connection that has closed its descriptor makes no further call; the bytes of a connection
are taken only on its own socket; and the map holds a connection only while its descriptor is
open. -/
structure FdOwned (s : TcpServer) : Prop where
  quiet : s.calls.Pairwise fun x y => x.kind = .close → y.conn ≠ x.conn
  delivered : ∀ x ∈ s.calls, ∀ accepted, x.kind = .write accepted → accepted ≠ [] →
    x.owner = some x.conn
  mapped : ∀ n i, s.connections n = some i → s.epoll.owner n = some i

/-- No connection has closed its descriptor yet. -/
structure AllOpen (s : TcpServer) : Prop where
  opened : ∀ (i : ℕ) (c : TcpConnection), s.conns[i]? = some c → s.epoll.owner c.fd = some i
  kept : ∀ (i : ℕ) (c : TcpConnection), s.conns[i]? = some c → s.connections c.fd ≠ none
  mapped : ∀ n i, s.connections n = some i → s.epoll.owner n = some i
  calls : ∀ x ∈ s.calls, x.kind ≠ .close ∧ x.owner = some x.conn

theorem allOpen_init : init.AllOpen where
  opened := by simp [init]
  kept := by simp [init]
  mapped := by simp [init]
  calls := by simp [init]

theorem AllOpen.fdOwned {s : TcpServer} (h : s.AllOpen) : s.FdOwned where
  quiet := List.pairwise_of_forall_mem_list fun x hx _ _ hclose => absurd hclose (h.calls x hx).1
  delivered := fun x hx _ _ _ => (h.calls x hx).2
  mapped := h.mapped

theorem getElem?_concat_eq_some {α : Type} {l : List α} {a b : α} {i : ℕ}
    (h : (l ++ [a])[i]? = some b) : l[i]? = some b ∨ (i = l.length ∧ b = a) := by
  rw [List.getElem?_append] at h
  split at h
  · exact Or.inl h
  · obtain ⟨hlt, hb⟩ := List.getElem?_eq_some_iff.1 h
    rw [List.length_singleton] at hlt
    exact Or.inr ⟨by omega, by simpa using hb.symm⟩

/-- Opening the number of a new connection. -/
theorem AllOpen.accept {s : TcpServer} (h : s.AllOpen) {sockfd : ℕ}
    (hfree : s.epoll.owner sockfd = none) :
    ({ s with epoll := s.epoll.openFd sockfd s.conns.length }.newConnection sockfd).AllOpen where
  opened := by
    intro i c hi
    rcases getElem?_concat_eq_some hi with hold | ⟨rfl, rfl⟩
    · have hown := h.opened i c hold
      have hne : c.fd ≠ sockfd := fun heq => by simp [← heq, hown] at hfree
      simpa [newConnection, Epoll.openFd, Function.update_of_ne hne] using hown
    · simp [newConnection, Epoll.openFd, TcpConnection.new]
  kept := by
    intro i c hi
    by_cases hc : c.fd = sockfd
    · simp [newConnection, hc]
    · rcases getElem?_concat_eq_some hi with hold | ⟨rfl, rfl⟩
      · simpa [newConnection, Function.update_of_ne hc] using h.kept i c hold
      · exact absurd rfl hc
  mapped := by
    intro n i hn
    by_cases hns : n = sockfd
    · subst hns
      simpa [newConnection, Epoll.openFd] using hn
    · have hn' : s.connections n = some i := by
        simpa [newConnection, Function.update_of_ne hns] using hn
      simpa [newConnection, Epoll.openFd, Function.update_of_ne hns] using h.mapped n i hn'
  calls := h.calls

/-- Replacing a connection by one with the same descriptor. -/
theorem AllOpen.set {s : TcpServer} (h : s.AllOpen) {i : ℕ} {c c' : TcpConnection}
    (hc : s.conns[i]? = some c) (hfd : c'.fd = c.fd) :
    ({ s with conns := s.conns.set i c' } : TcpServer).AllOpen := by
  -- every connection of the new list has the descriptor of the old one in its place
  have hold : ∀ (j : ℕ) (d : TcpConnection), (s.conns.set i c')[j]? = some d →
      ∃ d', s.conns[j]? = some d' ∧ d'.fd = d.fd := by
    intro j d hd
    rw [List.getElem?_set] at hd
    split at hd
    · rename_i hij
      subst hij
      split at hd
      · cases hd
        exact ⟨c, hc, hfd.symm⟩
      · cases hd
    · exact ⟨d, hd, rfl⟩
  refine ⟨?_, ?_, h.mapped, h.calls⟩
  · intro j d hd
    obtain ⟨d', hd', heq⟩ := hold j d hd
    exact heq ▸ h.opened j d' hd'
  · intro j d hd
    obtain ⟨d', hd', heq⟩ := hold j d hd
    exact heq ▸ h.kept j d' hd'

/-- An effect of a connection whose descriptor is open. -/
theorem AllOpen.perform {s : TcpServer} (h : s.AllOpen) {i fd : ℕ}
    (hfd : s.epoll.owner fd = some i) {e : Effect} (he : StaysOn fd e) :
    (s.perform i e).AllOpen ∧ (s.perform i e).epoll.owner = s.epoll.owner := by
  cases e with
  | write n accepted =>
      obtain rfl : n = fd := he
      refine ⟨⟨h.opened, h.kept, h.mapped, ?_⟩, rfl⟩
      intro x hx
      rcases List.mem_append.1 hx with hx | hx
      · exact h.calls x hx
      · obtain rfl := List.mem_singleton.1 hx
        exact ⟨by simp, hfd⟩
  | close n => exact he.elim
  | update channel =>
      have hown : (s.perform i (.update channel)).epoll.owner = s.epoll.owner := by
        simp [TcpServer.perform, Epoller.update]
      refine ⟨⟨?_, h.kept, ?_, h.calls⟩, hown⟩
      · rw [hown]
        exact h.opened
      · rw [hown]
        exact h.mapped
  | queueWriteComplete set => exact ⟨⟨h.opened, h.kept, h.mapped, h.calls⟩, rfl⟩
  | connectionCallback => exact ⟨⟨h.opened, h.kept, h.mapped, h.calls⟩, rfl⟩
  | messageCallback => exact ⟨⟨h.opened, h.kept, h.mapped, h.calls⟩, rfl⟩

/-- A call of a function of a connection that does not close. -/
theorem AllOpen.finish {s : TcpServer} (h : s.AllOpen) {i : ℕ} {c c' : TcpConnection}
    (hc : s.conns[i]? = some c) {effects : List Effect}
    (hstay : c'.fd = c.fd ∧ ∀ e ∈ effects, StaysOn c.fd e) : (s.finish i c' effects).AllOpen := by
  have key : ∀ (t : TcpServer), t.AllOpen → t.epoll.owner c.fd = some i →
      (effects.foldl (TcpServer.perform i) t).AllOpen := by
    induction effects with
    | nil => exact fun _ ht _ => ht
    | cons e effects ih =>
        intro t ht hown
        obtain ⟨hall, hsame⟩ := ht.perform hown (hstay.2 e List.mem_cons_self)
        exact ih ⟨hstay.1, fun e' he' => hstay.2 e' (List.mem_cons_of_mem _ he')⟩ _ hall
          (by rw [hsame, hown])
  exact key _ (h.set hc hstay.1) (h.opened i c hc)

/-! ### Runs -/

/-- The step is not a `read` that returns 0. -/
def PeerStays : ServerOp → Prop
  | .handleRead _ .eof => False
  | _ => True

/-- A `read` that returns 0 leaves a connection in the map whose descriptor is closed. -/
theorem not_fdOwned_of_eof {s t : TcpServer} (h : s.AllOpen) {i : ℕ}
    (hst : s.step (.handleRead i .eof) = some t) : ¬t.FdOwned := by
  cases step_moves hst with
  | @handleRead _ _ c c' effects hc hok =>
      cases hok
      obtain ⟨j, hj⟩ := Option.ne_none_iff_exists'.1 (h.kept i c hc)
      intro ht
      have hopen := ht.mapped c.fd j hj
      simp [finish, perform, Epoll.closeFd] at hopen

/-- Any other step leaves all descriptors open. -/
theorem AllOpen.step {s t : TcpServer} (h : s.AllOpen) {op : ServerOp} (hop : PeerStays op)
    (hst : s.step op = some t) : t.AllOpen := by
  cases step_moves hst with
  | accept hfree => exact h.accept hfree
  | handleRead hc hok =>
      exact h.finish hc (staysOn_handleRead (fun heof => by simp [heof, PeerStays] at hop) hok)
  | handleWrite hc hok => exact h.finish hc (staysOn_handleWrite hok)
  | send hc hok => exact h.finish hc (staysOn_send hok)
  | @sendThrows _ msg ret c hc => exact h.finish hc ⟨rfl, staysOn_sendDirect c msg ret⟩
  | @connectEstablished i rest c c' effects hpending hc hok =>
      have hrest : ({ s with pendingFunctors := rest } : TcpServer).AllOpen :=
        ⟨h.opened, h.kept, h.mapped, h.calls⟩
      exact hrest.finish hc (staysOn_connectEstablished hok)
  | writeComplete => exact ⟨h.opened, h.kept, h.mapped, h.calls⟩

theorem fdOwned_step_iff {s t : TcpServer} (h : s.AllOpen) {op : ServerOp}
    (hst : s.step op = some t) : t.FdOwned ↔ PeerStays op := by
  refine ⟨?_, fun hop => (h.step hop hst).fdOwned⟩
  intro ht
  cases op with
  | handleRead i r =>
      cases r with
      | eof => exact not_fdOwned_of_eof h hst ht
      | failed => trivial
      | data bytes => trivial
  | accept _ => trivial
  | handleWrite _ _ => trivial
  | send _ _ _ => trivial
  | runFunctor => trivial

/-- **Descriptors stay with their connections exactly while no peer closes.**  In a run of the
server, whatever numbers `accept` returns and in whatever order callbacks, functors and calls of
`send` come, every state has its descriptors owned if and only if no `read` returns 0. -/
theorem everyState_fdOwned_iff {ops : List ServerOp} {t : TcpServer}
    (h : Runs.exec step init ops = some t) :
    Runs.EveryState step FdOwned init ops ↔ Runs.EveryStep step (fun _ => PeerStays) init ops :=
  Runs.everyState_iff_everyStep (I := AllOpen)
    (fun _ _ _ hs _ hst ht => hs.step ((fdOwned_step_iff hs hst).1 ht) hst)
    (fun _ _ _ hs _ hst => fdOwned_step_iff hs hst)
    allOpen_init allOpen_init.fdOwned h

/-- The theorem on a run in which a message is echoed. -/
theorem everyState_fdOwned_demo :
    Runs.EveryState step FdOwned init
        [.accept 7, .runFunctor, .handleRead 0 (.data [97, 98]), .send 0 [97, 98] 1] ↔
      Runs.EveryStep step (fun _ => PeerStays) init
        [.accept 7, .runFunctor, .handleRead 0 (.data [97, 98]), .send 0 [97, 98] 1] := by
  obtain ⟨t, ht⟩ := Option.isSome_iff_exists.1
    (by decide +kernel : (Runs.exec step init
      [.accept 7, .runFunctor, .handleRead 0 (.data [97, 98]), .send 0 [97, 98] 1]).isSome = true)
  exact everyState_fdOwned_iff ht

/-- The peer of connection 0 closes, `accept` returns the same number for connection 1, and the
application sends to connection 0: the bytes reach the socket of connection 1.  In between, the map
holds connection 0 under a number that is not open. -/
theorem exists_stale_send :
    (∃ t, Runs.exec step init [.accept 7, .runFunctor, .handleRead 0 .eof] = some t ∧
      t.connections 7 = some 0 ∧ t.epoll.owner 7 = none) ∧
    ∃ t, Runs.exec step init
        [.accept 7, .runFunctor, .handleRead 0 .eof, .accept 7, .send 0 [97, 98] 2] = some t ∧
      t.calls = [⟨0, .close, some 0⟩, ⟨0, .write [97, 98], some 1⟩] := by
  constructor
  · have h : (Runs.exec step init [.accept 7, .runFunctor, .handleRead 0 .eof]).map
        (fun t => (t.connections 7, t.epoll.owner 7)) = some (some 0, none) := by decide +kernel
    obtain ⟨t, ht, hview⟩ := Option.map_eq_some_iff.1 h
    exact ⟨t, ht, Prod.mk.inj hview⟩
  · have h : (Runs.exec step init
        [.accept 7, .runFunctor, .handleRead 0 .eof, .accept 7, .send 0 [97, 98] 2]).map
        TcpServer.calls = some [⟨0, .close, some 0⟩, ⟨0, .write [97, 98], some 1⟩] := by
      decide +kernel
    exact Option.map_eq_some_iff.1 h

end TcpServer

end G5
