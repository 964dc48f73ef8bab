/-
**The echo server** (`examples/echoserver/EchoServer.cc`).

The application that comes with the library: the message callback takes everything out of the input
buffer and sends it back.  Nothing sets a write-complete callback, and nothing catches an exception,
so that one that leaves a callback or a functor ends the process.  A `send` that throws has emptied
the input buffer before, and the message is lost.

Main definitions:

* `EchoServer`, `EchoServer.step` — the library with the application on it;
* `EchoServer.unsent` — what the message callback has done when its `send` throws;
* `EchoServer.Sound` — what has been read is handed back, or waits, in order and to its sender;
* `EchoServer.Echoes` — nothing waits;
* `EchoServer.TakesAll` — the kernel takes the whole message from the callback's `send`.

Main results:

* `EchoServer.step_moves` — what a step can do, said once;
* `EchoServer.wellFormed_step` — **no step breaks the invariant**;
* `EchoServer.sound_echo_of_exec` — nothing is lost, repeated, overtaken or sent to another peer;
* `EchoServer.everyState_echoes_iff` — everything is handed back exactly as long as the kernel takes
  every message whole.
-/

import G5.Net.WriteInterest

set_option relaxedAutoImplicit false
set_option autoImplicit false

namespace G5

/-- The library and the application. -/
structure EchoServer where
  base : ServerLoop
  /-- what each connection has read -/
  received : ℕ → List Byte
  /-- an exception has left the loop -/
  thrown : Bool

/-- What may happen next. -/
inductive EchoOp
  /-- a step of the library -/
  | library (op : ServerLoopOp)
  /-- the connection callback runs and returns -/
  | onConnection
  /-- the message callback runs, with the result of the `write` of its `send` -/
  | onMessage (ret : ℤ)
  deriving DecidableEq, Repr

namespace EchoServer

/-! ### The functions -/

def init : EchoServer where
  base := ServerLoop.init
  received := fun _ => []
  thrown := false

/-- `onMessage`, on the connection whose input buffer it is given. -/
def onMessage (c : TcpConnection) (ret : ℤ) : Checked (TcpConnection × List Effect) := do
  let (msg, inputBuf) ← c.inputBuf.retrieveAllAsString
  { c with inputBuf := inputBuf }.send msg ret

/-- What `onMessage` has done when its `send` throws: it has taken the message out of the input
buffer, and made the direct write. -/
def unsent (c : TcpConnection) (ret : ℤ) : TcpConnection × List Effect :=
  match c.inputBuf.retrieveAllAsString with
  | .ok (msg, inputBuf) =>
      ({ c with inputBuf := inputBuf }, ({ c with inputBuf := inputBuf }.sendDirect msg ret).2)
  | .error _ => (c, [])

/-- What is called by the library itself. -/
def isLibrary : ServerLoopOp → Bool
  | .send _ _ _ => false
  | .queueInLoop => false
  | .returns => false
  | _ => true

/-- The functor that is due is an unset function, and its call throws. -/
def dueThrows (s : ServerLoop) : Bool :=
  match s.callback, s.loop.functors with
  | none, some (.writeComplete _ false) :: _ => true
  | _, _ => false

/-- What has been received after a step of the library. -/
def receives (s : EchoServer) : ServerLoopOp → ℕ → List Byte
  | .handleRead (.data bytes) =>
      match s.base.handlers with
      | .read i :: _ => Function.update s.received i (s.received i ++ bytes)
      | _ => s.received
  | _ => s.received

/-- The message callback runs for the connection `i`; one that throws does not return. -/
def message (s : EchoServer) (i : ℕ) (c : TcpConnection) (ret : ℤ) : Option EchoServer :=
  match onMessage c ret with
  | .ok (c', effects) =>
      ((s.base.withServer (s.base.server.finish i c' effects)).step .returns).map fun base =>
        { s with base := base }
  | .error _ =>
      let (c', effects) := unsent c ret
      some { s with
        base := s.base.withServer (s.base.server.finish i c' effects)
        thrown := true }

/-- One step. -/
def step (s : EchoServer) (op : EchoOp) : Option EchoServer :=
  if s.thrown then none
  else
    match op with
    | .library op =>
        if op = .runFunctor ∧ dueThrows s.base = true then some { s with thrown := true }
        else if isLibrary op = true then
          (s.base.step op).map fun base => { s with base := base, received := s.receives op }
        else none
    | .onConnection =>
        match s.base.callback with
        | some (.connection _) => (s.base.step .returns).map fun base => { s with base := base }
        | _ => none
    | .onMessage ret =>
        match s.base.callback with
        | some (.message i) =>
            s.base.server.conns[i]?.bind fun c =>
              if c.outputBuf.readableBytes ≤ 0 →
                  TcpServer.WriteAllowed (s.base.server.isOpen c) c.inputBuf.readableBytes ret then
                s.message i c ret
              else none
        | _ => none

/-! ### What a step can do -/

/-- The steps, with their guards. -/
inductive Moves (s : EchoServer) : EchoOp → EchoServer → Prop
  | library {op : ServerLoopOp} {base : ServerLoop} (hlibrary : isLibrary op = true)
      (hstep : s.base.step op = some base) :
      Moves s (.library op) { s with base := base, received := s.receives op }
  | functorThrows (hthrows : dueThrows s.base = true) :
      Moves s (.library .runFunctor) { s with thrown := true }
  | onConnection {i : ℕ} {base : ServerLoop} (hcallback : s.base.callback = some (.connection i))
      (hstep : s.base.step .returns = some base) : Moves s .onConnection { s with base := base }
  | onMessage {ret : ℤ} {i : ℕ} {c c' : TcpConnection} {effects : List Effect} {base : ServerLoop}
      (hcallback : s.base.callback = some (.message i)) (hc : s.base.server.conns[i]? = some c)
      (hallowed : c.outputBuf.readableBytes ≤ 0 →
        TcpServer.WriteAllowed (s.base.server.isOpen c) c.inputBuf.readableBytes ret)
      (hok : EchoServer.onMessage c ret = .ok (c', effects))
      (hstep : (s.base.settle (s.base.server.finish i c' effects)).step .returns = some base) :
      Moves s (.onMessage ret) { s with base := base }
  | messageThrows {ret : ℤ} {i : ℕ} {c : TcpConnection} {e : Fault}
      (hcallback : s.base.callback = some (.message i)) (hc : s.base.server.conns[i]? = some c)
      (hallowed : c.outputBuf.readableBytes ≤ 0 →
        TcpServer.WriteAllowed (s.base.server.isOpen c) c.inputBuf.readableBytes ret)
      (herror : EchoServer.onMessage c ret = .error e) :
      Moves s (.onMessage ret) { s with
        base := s.base.settle (s.base.server.finish i (unsent c ret).1 (unsent c ret).2)
        thrown := true }

/-- The callback sends, and calls nothing back. -/
theorem called_onMessage {c c' : TcpConnection} {ret : ℤ} {effects : List Effect}
    (h : onMessage c ret = .ok (c', effects)) (i : ℕ) :
    effects.filterMap (TcpServer.callback? i) = [] := by
  obtain ⟨⟨msg, inputBuf⟩, -, h⟩ := bind_eq_ok.1 h
  exact TcpServer.called_send h i

theorem called_unsent (c : TcpConnection) (ret : ℤ) (i : ℕ) :
    (unsent c ret).2.filterMap (TcpServer.callback? i) = [] := by
  unfold unsent
  split
  · exact TcpServer.called_sendDirect _ _ _ i
  · rfl

/-- **A step is one of these**, and none is made after an exception has left the loop. -/
theorem step_moves {s t : EchoServer} {op : EchoOp} (hcalled : s.base.server.callbacks = [])
    (h : s.step op = some t) : s.thrown = false ∧ Moves s op t := by
  simp only [step, Option.ite_none_left_eq_some] at h
  obtain ⟨hthrown, h⟩ := h
  refine ⟨Bool.not_eq_true _ ▸ hthrown, ?_⟩
  cases op with
  | library op =>
      simp only at h
      split_ifs at h with hthrows hlibrary
      · obtain ⟨rfl, hthrows⟩ := hthrows
        cases h
        exact .functorThrows hthrows
      · obtain ⟨base, hstep, rfl⟩ := Option.map_eq_some_iff.1 h
        exact .library hlibrary hstep
  | onConnection =>
      simp only at h
      split at h
      · rename_i hcallback
        obtain ⟨base, hstep, rfl⟩ := Option.map_eq_some_iff.1 h
        exact .onConnection hcallback hstep
      · cases h
  | onMessage ret =>
      simp only at h
      split at h
      · rename_i hcallback
        obtain ⟨c, hc, h⟩ := Option.bind_eq_some_iff.1 h
        obtain ⟨hallowed, h⟩ := Option.ite_none_right_eq_some.1 h
        simp only [message] at h
        split at h
        · rename_i hok
          obtain ⟨base, hstep, rfl⟩ := Option.map_eq_some_iff.1 h
          rw [s.base.withServer_finish hcalled (called_onMessage hok _)] at hstep
          exact .onMessage hcallback hc hallowed hok hstep
        · rename_i herror
          rw [s.base.withServer_finish hcalled (called_unsent c ret _)] at h
          cases h
          exact .messageThrows hcallback hc hallowed herror
      · cases h

/-! ### The invariant -/

/-- No exception has left the message callback of the connection. -/
def Unharmed (s : EchoServer) (i : ℕ) : Prop :=
  s.thrown = false ∨ s.base.callback ≠ some (.message i)

/-- What the connection has read has been taken by the kernel, or waits in one of the two buffers,
in the input buffer only while the message callback is called; or its end was lost, with the
exception that has left the message callback. -/
structure Kept (s : EchoServer) (i : ℕ) (c : TcpConnection) : Prop where
  wellFormed : c.WellFormed
  input : c.inputBuf.readable.length ≤ 1024
  idle : s.base.callback ≠ some (.message i) → c.inputBuf.readable = []
  stream : ∃ lost, (s.base.server.writes i).flatten ++ c.outputBuf.readable ++
    c.inputBuf.readable ++ lost = s.received i ∧ (s.Unharmed i → lost = [])

structure WellFormed (s : EchoServer) : Prop where
  readOnly : s.base.ReadOnly
  kept : ∀ (i : ℕ) (c : TcpConnection), s.base.server.conns[i]? = some c → s.Kept i c
  fresh : ∀ i, s.base.server.conns.length ≤ i → s.received i = [] ∧ s.base.server.writes i = []
  reading : ∀ i, s.base.callback = some (.message i) →
    s.base.server.Opened i ∧ .established i ∈ s.base.log
  owned : ∀ call ∈ s.base.server.calls, ∀ bytes, call.kind = .write bytes → bytes ≠ [] →
    call.owner = some call.conn

theorem wellFormed_init : init.WellFormed where
  readOnly := ServerLoop.readOnly_init
  kept i c h := by cases h
  fresh i _ := ⟨rfl, rfl⟩
  reading i h := by cases h
  owned call h := by cases h

section

variable {s t : EchoServer} {i : ℕ} {c c' : TcpConnection} {effects : List Effect}

/-- Without an exception, nothing was lost. -/
theorem Kept.stream_eq (h : s.Kept i c) (hthrown : s.Unharmed i) :
    (s.base.server.writes i).flatten ++ c.outputBuf.readable ++ c.inputBuf.readable =
      s.received i := by
  obtain ⟨lost, hstream, hnone⟩ := h.stream
  rwa [hnone hthrown, List.append_nil] at hstream

theorem WellFormed.called (h : s.WellFormed) : s.base.server.callbacks = [] :=
  h.readOnly.tidy.wellFormed.called

/-- The connections and what they have done are the same. -/
theorem WellFormed.same (h : s.WellFormed) {base : ServerLoop} (hread : base.ReadOnly)
    (hconns : base.server.conns = s.base.server.conns)
    (hwrites : ∀ j, base.server.writes j = s.base.server.writes j)
    (howned : ∀ call ∈ base.server.calls, ∀ bytes, call.kind = .write bytes → bytes ≠ [] →
      call.owner = some call.conn)
    (hidle : ∀ j, base.callback ≠ some (.message j) → s.base.callback ≠ some (.message j))
    (hreading : ∀ j, base.callback = some (.message j) →
      base.server.Opened j ∧ .established j ∈ base.log) : WellFormed { s with base := base } where
  readOnly := hread
  kept j d hd := by
    have hd : s.base.server.conns[j]? = some d := hconns ▸ hd
    have hkept := h.kept j d hd
    refine ⟨hkept.wellFormed, hkept.input, fun hnot => hkept.idle (hidle j hnot), ?_⟩
    obtain ⟨lost, hstream, hnone⟩ := hkept.stream
    exact ⟨lost, by rw [hwrites, hstream], fun hgood => hnone (hgood.imp_right (hidle j))⟩
  fresh j hj := by
    have hfresh := h.fresh j (hconns ▸ hj)
    exact ⟨hfresh.1, (hwrites j).trans hfresh.2⟩
  reading := hreading
  owned := howned

/-- The loop moves, and the application is left alone. -/
theorem WellFormed.withBase (h : s.WellFormed) {base : ServerLoop} (hread : base.ReadOnly)
    (hserver : base.server = s.base.server) (hcallback : base.callback = s.base.callback)
    (hlog : base.log = s.base.log) : WellFormed { s with base := base } := by
  refine h.same hread (by rw [hserver]) (fun j => by rw [hserver]) (hserver ▸ h.owned) ?_ ?_
  · exact fun j hj => hcallback ▸ hj
  · intro j hj
    rw [hserver, hlog]
    exact h.reading j (hcallback ▸ hj)

/-! ### The calls of a connection -/

/-- The calls that are made on a descriptor are made by the one whose call it is. -/
theorem owned_foldl (u : TcpServer) {fd : ℕ} (howner : u.epoll.owner fd = some i)
    (hstay : ∀ e ∈ effects, TcpServer.StaysAt fd e) :
    ∀ call ∈ (effects.foldl (TcpServer.perform i) u).calls,
      call ∈ u.calls ∨ (call.conn = i ∧ call.owner = some i) := by
  -- induction on the effects
  induction effects generalizing u with
  | nil => exact fun call hcall => Or.inl hcall
  | cons e effects ih =>
      intro call hcall
      have he := hstay e List.mem_cons_self
      have hsame : (u.perform i e).epoll.owner fd = some i := by
        rw [(TcpServer.quiet_perform u i he).owner, howner]
      have htail := fun e' he' => hstay e' (List.mem_cons_of_mem _ he')
      rcases ih _ hsame htail call hcall with hold | hnew
      · cases e with
        | write n accepted =>
            obtain rfl : n = fd := he.1
            rcases List.mem_append.1 hold with hold | hnew
            · exact Or.inl hold
            · obtain rfl := List.mem_singleton.1 hnew
              exact Or.inr ⟨rfl, howner⟩
        | close n => exact he.1.elim
        | update | queueWriteComplete | connectionCallback | messageCallback => exact Or.inl hold
      · exact Or.inr hnew

/-- **A connection is called**, and what it has read is where it was, or further on, or lost with
an exception. -/
theorem WellFormed.finish (h : s.WellFormed) (hthrown : s.thrown = false) {thrown : Bool}
    (hc : s.base.server.conns[i]? = some c)
    (c' : TcpConnection) (effects : List Effect) (hopened : s.base.server.Opened i)
    (hleaves : TcpServer.LeavesFd c c' effects)
    {base : ServerLoop} {received : ℕ → List Byte} (hread : base.ReadOnly)
    (hconns : base.server.conns = (s.base.server.finish i c' effects).conns)
    (hcalls : base.server.calls = (s.base.server.finish i c' effects).calls)
    (hothers : ∀ j, j ≠ i → received j = s.received j)
    (hidle : ∀ j, j ≠ i → s.base.callback ≠ some (.message j))
    (hreading : ∀ j, base.callback = some (.message j) →
      base.server.Opened j ∧ .established j ∈ base.log)
    (hwellFormed : c'.WellFormed) (hinput : c'.inputBuf.readable.length ≤ 1024)
    (hempty : base.callback ≠ some (.message i) → c'.inputBuf.readable = [])
    (hstream : ∃ lost, (s.base.server.writes i).flatten ++
      (effects.filterMap Effect.write?).flatten ++ c'.outputBuf.readable ++
        c'.inputBuf.readable ++ lost = received i ∧
        (thrown = false ∨ base.callback ≠ some (.message i) → lost = [])) :
    WellFormed { s with base := base, received := received, thrown := thrown } := by
  obtain ⟨n, hn, howner⟩ := hopened
  obtain rfl : c.fd = n := Option.some.inj ((TcpServer.fd?_eq hc).symm.trans hn)
  have hwrites : ∀ j, base.server.writes j = s.base.server.writes j ++
      if i = j then effects.filterMap Effect.write? else [] := by
    intro j
    rw [← TcpServer.writes_finish s.base.server j i c' effects, TcpServer.writes, hcalls]
    rfl
  refine ⟨hread, ?_, ?_, hreading, ?_⟩
  · intro j d hd
    have hd : base.server.conns[j]? = some d := hd
    rw [hconns] at hd
    by_cases hji : j = i
    · subst hji
      obtain rfl := Option.some.inj ((TcpServer.getElem?_finish_self hc _ _).symm.trans hd)
      refine ⟨hwellFormed, hinput, hempty, ?_⟩
      obtain ⟨lost, hbytes, hnone⟩ := hstream
      refine ⟨lost, ?_, hnone⟩
      change (base.server.writes j).flatten ++ _ ++ _ ++ _ = received j
      rw [hwrites, if_pos rfl, List.flatten_append]
      exact hbytes
    · have hkept := h.kept j d ((TcpServer.getElem?_finish_of_ne _ _ _ hji).symm.trans hd)
      refine ⟨hkept.wellFormed, hkept.input, fun _ => hkept.idle (hidle j hji), [], ?_,
        fun _ => rfl⟩
      change (base.server.writes j).flatten ++ _ ++ _ ++ [] = received j
      rw [hwrites, if_neg (Ne.symm hji), List.append_nil, hothers j hji, List.append_nil]
      exact hkept.stream_eq (Or.inl hthrown)
  · intro j hj
    have hlength : base.server.conns.length = s.base.server.conns.length := by
      rw [hconns, TcpServer.finish, TcpServer.conns_foldl, List.length_set]
    have hj : s.base.server.conns.length ≤ j := hlength ▸ hj
    have hji : j ≠ i := by
      rintro rfl
      exact absurd (List.getElem?_eq_some_iff.1 hc).1 (Nat.not_lt.2 hj)
    obtain ⟨hreceived, hnone⟩ := h.fresh j hj
    refine ⟨(hothers j hji).trans hreceived, ?_⟩
    change base.server.writes j = []
    rw [hwrites, if_neg (Ne.symm hji), List.append_nil, hnone]
  · intro call hcall bytes hkind hne
    have hcall : call ∈ base.server.calls := hcall
    rw [hcalls] at hcall
    rcases owned_foldl { s.base.server with conns := s.base.server.conns.set i c' } howner
      hleaves.2.2 call hcall with hold | ⟨hconn, hown⟩
    · exact h.owned call hold bytes hkind hne
    · rw [hown, hconn]

/-! ### The steps of the library -/

/-- A descriptor is accepted. -/
theorem WellFormed.accept (h : s.WellFormed) {sockfd : ℕ} {base : ServerLoop}
    (hread : base.ReadOnly) (hcallback : s.base.callback = none)
    (hserver : base.server =
      { s.base.server.acceptFd sockfd with pendingFunctors := [], callbacks := [] })
    (hcallback' : base.callback = none) : WellFormed { s with base := base } := by
  have hcalls : base.server.calls = s.base.server.calls := by rw [hserver]; rfl
  have hwrites : ∀ j, base.server.writes j = s.base.server.writes j := by
    intro j
    rw [TcpServer.writes, hcalls, TcpServer.writes]
  refine ⟨hread, ?_, ?_, ?_, hcalls ▸ h.owned⟩
  · intro j d hd
    have hd : base.server.conns[j]? = some d := hd
    rw [hserver] at hd
    rcases TcpServer.getElem?_concat_eq_some hd with hold | ⟨rfl, rfl⟩
    · have hkept := h.kept j d hold
      refine ⟨hkept.wellFormed, hkept.input, fun _ => hkept.idle (by rw [hcallback]; simp), ?_⟩
      obtain ⟨lost, hstream, hnone⟩ := hkept.stream
      exact ⟨lost, by rw [hwrites, hstream], fun _ => hnone (Or.inr (by rw [hcallback]; simp))⟩
    · obtain ⟨hreceived, hnone⟩ := h.fresh _ (Nat.le_refl _)
      have hnew := TcpConnection.wellFormed_new sockfd
      have hempty : (Buffer.empty kInitialSize).readable = [] :=
        (Buffer.represents_empty kInitialSize).readable_eq
      refine ⟨⟨rfl, hnew.input, hnew.output, hnew.writing⟩, ?_, fun _ => hempty, [], ?_,
        fun _ => rfl⟩
      · change (Buffer.empty kInitialSize).readable.length ≤ 1024
        rw [hempty]
        exact Nat.zero_le _
      · change (base.server.writes _).flatten ++ (Buffer.empty kInitialSize).readable ++
          (Buffer.empty kInitialSize).readable ++ [] = s.received _
        rw [hwrites, hnone, hempty, hreceived]
        rfl
  · intro j hj
    have hlength : base.server.conns.length = s.base.server.conns.length + 1 := by
      rw [hserver]
      exact List.length_append
    have hj : base.server.conns.length ≤ j := hj
    obtain ⟨hreceived, hnone⟩ := h.fresh j (by omega)
    exact ⟨hreceived, (hwrites j).trans hnone⟩
  · intro j hj
    have hj : base.callback = some (.message j) := hj
    rw [hcallback'] at hj
    cases hj

/-- What a read adds to the input buffer. -/
theorem wellFormed_handleRead {bytes : List Byte} (hc : c.WellFormed)
    (hok : c.handleRead (.data bytes) = .ok (c', effects)) :
    c'.WellFormed ∧ c'.inputBuf.readable = c.inputBuf.readable ++ bytes ∧
      c'.outputBuf = c.outputBuf ∧ effects = [.messageCallback] := by
  obtain ⟨inputBuf, hin, hok⟩ := bind_eq_ok.1 hok
  obtain ⟨inputBuf', hin', hrep, -⟩ := Buffer.append_spec hc.input bytes
  obtain rfl : inputBuf = inputBuf' := Except.ok.inj (hin.symm.trans hin')
  split at hok
  · cases hok
    exact ⟨⟨hc.channel_fd, hrep.self, hc.output, hc.writing⟩, hrep.readable_eq, rfl, rfl⟩
  · cases hok

/-- A connection reads. -/
theorem WellFormed.handleRead (h : s.WellFormed) (hthrown : s.thrown = false)
    {handlers : List Handler} {bytes : List Byte} {base : ServerLoop} (hread : base.ReadOnly)
    (hcallback : s.base.callback = none)
    (hhandlers : s.base.handlers = .read i :: handlers) (hc : s.base.server.conns[i]? = some c)
    (hallowed : TcpServer.ReadAllowed (s.base.server.isOpen c) (.data bytes))
    (hok : c.handleRead (.data bytes) = .ok (c', effects))
    (hbase : base = ({ s.base with handlers := handlers }.settle
      (s.base.server.finish i c' effects)).invoke (.message i)) :
    WellFormed { s with
      base := base, received := Function.update s.received i (s.received i ++ bytes) } := by
  have hkept := h.kept i c hc
  have hmem : .read i ∈ s.base.handlers := by
    rw [hhandlers]
    exact List.mem_cons_self
  have hest := (h.readOnly.tidy.wellFormed.handlers i (Or.inl hmem)).1
  have hopened : s.base.server.Opened i := by
    have hdue := h.readOnly.tidy.due
    rw [hhandlers] at hdue
    cases hdue with
    | read hi | readWrite hi => exact hi
  have hleaves :=
    TcpServer.leavesFd_handleRead (h.readOnly.tidy.server.channel i c hc) (by simp) hok
  obtain ⟨hwf, hin, hout, rfl⟩ := wellFormed_handleRead hkept.wellFormed hok
  have hnil : c.inputBuf.readable = [] := hkept.idle (by rw [hcallback]; simp)
  have hsteady := TcpServer.steady_finish hc hleaves
  refine h.finish hthrown hc c' _ hopened hleaves hread ?_ ?_ ?_ ?_ ?_ hwf ?_ ?_
    ⟨[], ?_, fun _ => rfl⟩
  · rw [hbase]
    rfl
  · rw [hbase]
    rfl
  · exact fun j hj => Function.update_of_ne hj _ _
  · intro j _
    rw [hcallback]
    simp
  · intro j hj
    rw [hbase] at hj ⊢
    cases hj
    exact ⟨hsteady.opened.2 hopened, List.mem_append_left _ hest⟩
  · rw [hin, hnil]
    exact hallowed.2.2
  · intro hnot
    rw [hbase] at hnot
    exact absurd rfl hnot
  · rw [Function.update_self, ← hkept.stream_eq (Or.inl hthrown), hin, hout, hnil]
    simp [Effect.write?]

/-- The peer has closed. -/
theorem WellFormed.eof (h : s.WellFormed) {handlers : List Handler} {base : ServerLoop}
    (hread : base.ReadOnly) (hcallback : s.base.callback = none)
    (hc : s.base.server.conns[i]? = some c)
    (hbase : base = { s.base with handlers := handlers }.settle
      (s.base.server.finish i c [.close c.fd])) : WellFormed { s with base := base } := by
  have hwrites : ∀ j, base.server.writes j = s.base.server.writes j := by
    intro j
    have hfinish := TcpServer.writes_finish s.base.server j i c [.close c.fd]
    rw [hbase]
    refine hfinish.trans ?_
    simp [Effect.write?]
  refine h.same hread ?_ hwrites ?_ ?_ ?_
  · rw [hbase]
    exact TcpServer.conns_close s.base.server hc
  · intro call hcall bytes hkind hne
    rw [hbase] at hcall
    rcases List.mem_append.1 hcall with hold | hnew
    · exact h.owned call hold bytes hkind hne
    · obtain rfl := List.mem_singleton.1 hnew
      cases hkind
  · intro j _
    rw [hcallback]
    simp
  · intro j hj
    rw [hbase] at hj
    exact absurd (hcallback.symm.trans hj) (by simp)

/-- A connection is established, and greeted. -/
theorem WellFormed.establish (h : s.WellFormed) (hthrown : s.thrown = false)
    {l : EventLoop (Option Functor)} {base : ServerLoop} (hread : base.ReadOnly)
    (hcallback : s.base.callback = none)
    (hi : .established i ∉ s.base.log) (hc : s.base.server.conns[i]? = some c)
    (hbase : base = ({ s.base with loop := l }.settle
      ({ s.base.server with pendingFunctors := [] }.finish i
        { c with channel := c.channel.enableReading true }
        [.update (c.channel.enableReading true), .connectionCallback])).established i) :
    WellFormed { s with base := base } := by
  have hkept := h.kept i c hc
  have hopened := h.readOnly.tidy.fresh i c.fd (TcpServer.fd?_eq hc) hi
  have hfd := h.readOnly.tidy.server.channel i c hc
  refine h.finish hthrown hc { c with channel := c.channel.enableReading true }
    [.update (c.channel.enableReading true), .connectionCallback] hopened ⟨rfl, ?_, ?_⟩ hread
    (by rw [hbase]; rfl) (by rw [hbase]; rfl) (fun _ _ => rfl) ?_ ?_ ?_ hkept.input ?_
    ⟨[], ?_, fun _ => rfl⟩
  · simpa using hfd
  · simp [TcpServer.StaysAt, TcpServer.StaysOn, hfd]
  · intro j _
    rw [hcallback]
    simp
  · intro j hj
    rw [hbase] at hj
    cases hj
  · refine ⟨?_, hkept.wellFormed.input, hkept.wellFormed.output, ?_⟩
    · simpa using hfd
    · simpa using hkept.wellFormed.writing
  · exact fun _ => hkept.idle (by rw [hcallback]; simp)
  · rw [← hkept.stream_eq (Or.inl hthrown)]
    simp [Effect.write?]

theorem callback_of_accept {base base' : ServerLoop} {sockfd : ℕ}
    (h : base.step (.accept sockfd) = some base') : base.callback = none := by
  simp only [ServerLoop.step] at h
  split at h
  · assumption
  · cases h

/-- What is read is what `read` may return. -/
theorem readAllowed_of_step {server server' : TcpServer} {result : ReadResult}
    (h : server.step (.handleRead i result) = some server') (hc : server.conns[i]? = some c) :
    TcpServer.ReadAllowed (server.isOpen c) result := by
  simp only [TcpServer.step, hc, Option.bind_some, Option.ite_none_right_eq_some] at h
  exact h.1

/-- **A step of the library breaks nothing.** -/
theorem WellFormed.library (h : s.WellFormed) (hthrown : s.thrown = false) {op : ServerLoopOp}
    {base : ServerLoop}
    (hlibrary : isLibrary op = true) (hop : ServerLoop.reportsOnce op = true)
    (hstep : s.base.step op = some base) :
    WellFormed { s with base := base, received := s.receives op } := by
  have hharmless : s.base.Harmless op := by
    cases op with
    | send => cases hlibrary
    | start | loop | poll | handleEvent | accept | handleRead | handleWrite | doPendingFunctors
      | runFunctor | next | queueInLoop | returns => trivial
  have hread := ServerLoop.readOnly_step h.readOnly hop hstep hharmless
  cases ServerLoop.step_moves h.called hstep with
  | start => exact h.withBase hread rfl rfl rfl
  | loop | poll | handleEvent | doPendingFunctors | next => exact h.withBase hread rfl rfl rfl
  | send | queueInLoop | returns => cases hlibrary
  | handleWrite hhandlers =>
      exact absurd (hhandlers ▸ List.mem_cons_self) (h.readOnly.handlers _)
  | @accept sockfd handlers server hhandlers hserver =>
      have hcallback := callback_of_accept hstep
      cases TcpServer.step_moves hserver with
      | accept hfree => exact h.accept hread hcallback rfl hcallback
  | @handleRead i result handlers server hcallback hhandlers hserver =>
      cases TcpServer.step_moves hserver with
      | @handleRead _ _ c c' effects hc hok =>
          have hallowed := readAllowed_of_step hserver hc
          cases result with
          | eof =>
              cases hok
              exact h.eof hread hcallback hc rfl
          | failed =>
              cases hok
              refine h.same hread ?_ (fun _ => rfl) h.owned (fun _ hj => hj) ?_
              · obtain ⟨hlt, rfl⟩ := List.getElem?_eq_some_iff.1 hc
                exact List.set_getElem_self hlt
              · intro j hj
                exact absurd (hcallback.symm.trans hj) (by simp)
          | data bytes =>
              have hreceives : s.receives (.handleRead (.data bytes)) =
                  Function.update s.received i (s.received i ++ bytes) := by
                simp only [receives, hhandlers]
              rw [hreceives]
              exact h.handleRead hthrown hread hcallback hhandlers hc hallowed hok rfl
  | @runFunctor l f functors base hcallback hfunctors hloop hrun =>
      rcases f with _ | f
      · cases hrun
        exact h.withBase hread rfl rfl rfl
      · cases f with
        | writeComplete j set =>
            exact absurd rfl (h.readOnly.functors _ (hfunctors ▸ List.mem_cons_self) j set)
        | connectEstablished j =>
            obtain ⟨server, hserver, ht⟩ := ServerLoop.runFunctor_eq_some h.called hrun
            simp only at ht
            subst ht
            cases TcpServer.step_moves hserver with
            | writeComplete hpending => cases hpending
            | connectEstablished hpending hc hok =>
                cases hpending
                obtain ⟨rfl, rfl⟩ := TcpConnection.connectEstablished_eq hok
                have hi := h.readOnly.tidy.wellFormed.not_established hfunctors
                exact h.establish hthrown hread hcallback hi hc rfl

/-! ### The callbacks -/

/-- The connection callback has returned. -/
theorem WellFormed.onConnection (h : s.WellFormed) {base : ServerLoop} {j : ℕ}
    (hcallback : s.base.callback = some (.connection j))
    (hstep : s.base.step .returns = some base) : WellFormed { s with base := base } := by
  have hread := ServerLoop.readOnly_step h.readOnly rfl hstep trivial
  cases ServerLoop.step_moves h.called hstep with
  | returns =>
      refine h.same hread rfl (fun _ => rfl) h.owned ?_ ?_
      · intro k _
        rw [hcallback]
        simp
      · intro k hk
        cases hk

/-- `onMessage` sends what is in the input buffer, which it has emptied before. -/
theorem onMessage_eq (hc : c.WellFormed) (ret : ℤ) :
    ∃ inputBuf : Buffer, inputBuf.Represents [] ∧
      ({ c with inputBuf := inputBuf } : TcpConnection).WellFormed ∧
      onMessage c ret =
        ({ c with inputBuf := inputBuf } : TcpConnection).send c.inputBuf.readable ret ∧
      unsent c ret = ({ c with inputBuf := inputBuf },
        (({ c with inputBuf := inputBuf } : TcpConnection).sendDirect c.inputBuf.readable ret).2)
    := by
  obtain ⟨inputBuf, hretrieve, hrep, -⟩ := Buffer.retrieveAllAsString_spec hc.input
  refine ⟨inputBuf, hrep, ⟨hc.channel_fd, hrep.self, hc.output, hc.writing⟩, ?_, ?_⟩
  · rw [onMessage, hretrieve, ok_bind]
  · rw [unsent, hretrieve]

/-- What the kernel may return for a message. -/
theorem WellFormed.ret_of_allowed (h : s.WellFormed) {ret : ℤ}
    (hc : s.base.server.conns[i]? = some c)
    (hallowed : c.outputBuf.readableBytes ≤ 0 →
      TcpServer.WriteAllowed (s.base.server.isOpen c) c.inputBuf.readableBytes ret) :
    c.outputBuf.readable = [] → -1 ≤ ret ∧ ret ≤ c.inputBuf.readable.length := by
  intro hnil
  have hkept := (h.kept i c hc).wellFormed
  have hwrite := hallowed ((TcpConnection.readableBytes_le_zero_iff hkept.output).2 hnil)
  rw [hkept.input.readableBytes_eq] at hwrite
  exact ⟨hwrite.1, hwrite.2.1⟩

/-- **What the message callback does to a connection**: the message has been written, or waits. -/
theorem onMessage_spec {ret : ℤ} (hc : c.WellFormed) (hsilent : c.Silent)
    (hin : c.inputBuf.readable.length ≤ 1024)
    (hret : c.outputBuf.readable = [] → -1 ≤ ret ∧ ret ≤ c.inputBuf.readable.length)
    (hok : onMessage c ret = .ok (c', effects)) :
    c'.WellFormed ∧ c'.Silent ∧ TcpServer.QueuesNothing effects ∧
      TcpServer.LeavesFd c c' effects ∧ c'.inputBuf.readable = [] ∧
      (effects.filterMap Effect.write?).flatten ++ c'.outputBuf.readable =
        c.outputBuf.readable ++ c.inputBuf.readable := by
  obtain ⟨inputBuf, hrep, hwf, hsend, -⟩ := onMessage_eq hc ret
  rw [hsend] at hok
  have hsilent' : ({ c with inputBuf := inputBuf } : TcpConnection).Silent :=
    ⟨hsilent.output, hsilent.unset⟩
  have hlen : c.inputBuf.readable.length < 2 ^ 31 := by omega
  have hcases := TcpConnection.send_cases hwf hlen hret
  rw [hok] at hcases
  obtain ⟨hleft, hqueues, -⟩ := TcpConnection.silent_send hsilent' hok
  obtain ⟨hfd, hchannel, hstays⟩ := TcpServer.leavesFd_send hwf.channel_fd hok
  have hkeeps := TcpConnection.keeps_send hwf (hok ▸ TcpConnection.send_int_cases hwf _ ret)
  refine ⟨hkeeps.wellFormed, hleft, hqueues, ⟨hfd, hchannel, hstays⟩, ?_⟩
  cases hcases with
  | all queued hq hall hqueued =>
      have hq : c.outputBuf.readable = [] := hq
      simp only [hsilent.unset, Bool.false_eq_true, if_false] at hqueued
      subst hqueued
      exact ⟨hrep.readable_eq, by simp [Effect.write?, hq]⟩
  | short out hq hpos hlt hout =>
      have hq : c.outputBuf.readable = [] := hq
      exact ⟨hrep.readable_eq, by simp [Effect.write?, List.filterMap_cons, hq, hout.readable_eq]⟩
  | buffered out hq hout =>
      exact ⟨hrep.readable_eq, by simp [hout.readable_eq]⟩

/-- **What the message callback has done to a connection when it throws**: the direct write has
failed, and the message is gone. -/
theorem unsent_spec {ret : ℤ} {e : Fault} (hc : c.WellFormed)
    (hin : c.inputBuf.readable.length ≤ 1024)
    (hret : c.outputBuf.readable = [] → -1 ≤ ret ∧ ret ≤ c.inputBuf.readable.length)
    (herror : onMessage c ret = .error e) :
    ∃ inputBuf : Buffer, inputBuf.Represents [] ∧
      ({ c with inputBuf := inputBuf } : TcpConnection).WellFormed ∧
      unsent c ret = ({ c with inputBuf := inputBuf }, [.write c.fd []]) := by
  obtain ⟨inputBuf, hrep, hwf, hsend, hunsent⟩ := onMessage_eq hc ret
  have hlen : c.inputBuf.readable.length < 2 ^ 31 := by omega
  have hcases := TcpConnection.send_cases hwf hlen hret
  rw [← hsend, herror] at hcases
  refine ⟨inputBuf, hrep, hwf, hunsent.trans ?_⟩
  cases hcases with
  | threw hq hneg => rw [hneg, TcpConnection.sendDirect_failed hwf hq]

/-- The message callback calls a connection that is registered. -/
theorem WellFormed.readOnly_call (h : s.WellFormed)
    (hcallback : s.base.callback = some (.message i)) (hc : s.base.server.conns[i]? = some c)
    (hleaves : TcpServer.LeavesFd c c' effects)
    (hsilent : c'.Silent) (hqueues : TcpServer.QueuesNothing effects) :
    (s.base.settle (s.base.server.finish i c' effects)).ReadOnly := by
  obtain ⟨hopened, hest⟩ := h.reading i hcallback
  have htable := h.readOnly.tidy.server
  have hown := ServerLoop.updatesOwn_of_holds htable (htable.holds hopened) hc effects
  exact h.readOnly.call hest hc hleaves hown hsilent hqueues

/-- Only one function of the application runs. -/
theorem ne_message_of_callback (hcallback : s.base.callback = some (.message i)) {j : ℕ}
    (hj : j ≠ i) : s.base.callback ≠ some (.message j) := by
  intro hj'
  rw [hcallback, Option.some_inj] at hj'
  exact hj (Callback.message.inj hj').symm

/-- **The message callback has returned.** -/
theorem WellFormed.onMessage (h : s.WellFormed) (hthrown : s.thrown = false) {ret : ℤ}
    {base : ServerLoop} (hcallback : s.base.callback = some (.message i))
    (hc : s.base.server.conns[i]? = some c)
    (hret : c.outputBuf.readable = [] → -1 ≤ ret ∧ ret ≤ c.inputBuf.readable.length)
    (hok : EchoServer.onMessage c ret = .ok (c', effects))
    (hstep : (s.base.settle (s.base.server.finish i c' effects)).step .returns = some base) :
    WellFormed { s with base := base } := by
  have hkept := h.kept i c hc
  obtain ⟨hwf, hsilent, hqueues, hleaves, hempty, hstream⟩ :=
    onMessage_spec hkept.wellFormed (h.readOnly.silent i c hc) hkept.input hret hok
  have hcalled := h.readOnly_call hcallback hc hleaves hsilent hqueues
  have hread := ServerLoop.readOnly_step hcalled rfl hstep trivial
  cases ServerLoop.step_moves hcalled.tidy.wellFormed.called hstep with
  | returns =>
      refine h.finish hthrown hc c' effects (h.reading i hcallback).1 hleaves hread rfl rfl
        (fun _ _ => rfl) (fun _ => ne_message_of_callback hcallback) ?_ hwf ?_ ?_
        ⟨[], ?_, fun _ => rfl⟩
      · intro j hj
        cases hj
      · rw [hempty]
        exact Nat.zero_le _
      · exact fun _ => hempty
      · rw [hempty, List.append_nil, List.append_nil, List.append_assoc, hstream,
          ← hkept.stream_eq (Or.inl hthrown), List.append_assoc]

/-- **The message callback has thrown.** -/
theorem WellFormed.messageThrows (h : s.WellFormed) (hthrown : s.thrown = false) {ret : ℤ}
    {e : Fault} (hcallback : s.base.callback = some (.message i))
    (hc : s.base.server.conns[i]? = some c)
    (hret : c.outputBuf.readable = [] → -1 ≤ ret ∧ ret ≤ c.inputBuf.readable.length)
    (herror : EchoServer.onMessage c ret = .error e) :
    WellFormed { s with
      base := s.base.settle (s.base.server.finish i (unsent c ret).1 (unsent c ret).2)
      thrown := true } := by
  have hkept := h.kept i c hc
  obtain ⟨hopened, hest⟩ := h.reading i hcallback
  have hsilent := h.readOnly.silent i c hc
  obtain ⟨inputBuf, hrep, hwf, hunsent⟩ :=
    unsent_spec hkept.wellFormed hkept.input hret herror
  rw [hunsent]
  have hleaves : TcpServer.LeavesFd c { c with inputBuf := inputBuf } [.write c.fd []] :=
    ⟨rfl, hwf.channel_fd, by simp [TcpServer.StaysAt, TcpServer.StaysOn]⟩
  have hread := h.readOnly_call hcallback hc hleaves ⟨hsilent.output, hsilent.unset⟩
    (by simp [TcpServer.QueuesNothing])
  have hsteady := TcpServer.steady_finish hc hleaves
  refine h.finish hthrown hc { c with inputBuf := inputBuf } [.write c.fd []] hopened hleaves hread
    rfl rfl (fun _ _ => rfl) (fun _ => ne_message_of_callback hcallback) ?_ hwf ?_
    (fun _ => hrep.readable_eq) ⟨c.inputBuf.readable, ?_, ?_⟩
  · intro j hj
    obtain ⟨hj, hlog⟩ := h.reading j hj
    exact ⟨hsteady.opened.2 hj, hlog⟩
  · change inputBuf.readable.length ≤ 1024
    rw [hrep.readable_eq]
    exact Nat.zero_le _
  · change _ ++ c.outputBuf.readable ++ inputBuf.readable ++ _ = s.received i
    rw [hrep.readable_eq, ← hkept.stream_eq (Or.inl hthrown)]
    simp [Effect.write?]
  · rintro (hfalse | hidle)
    · cases hfalse
    · exact absurd hcallback hidle

/-! ### Runs -/

/-- The kernel reports a channel at most once. -/
def reportsOnce : EchoOp → Bool
  | .library op => ServerLoop.reportsOnce op
  | _ => true

theorem WellFormed.not_dueThrows (h : s.WellFormed) : ¬dueThrows s.base = true := by
  intro hthrows
  simp only [dueThrows] at hthrows
  split at hthrows
  · rename_i hfunctors
    exact h.readOnly.functors _ (hfunctors ▸ List.mem_cons_self) _ _ rfl
  · cases hthrows

/-- **No step breaks the invariant.** -/
theorem wellFormed_step : Runs.Invariant (Runs.only step reportsOnce) WellFormed := by
  intro s op t h hstep
  obtain ⟨hop, hstep⟩ := Runs.only_eq_some.1 hstep
  obtain ⟨hthrown, hmoves⟩ := step_moves h.called hstep
  cases hmoves with
  | library hlibrary hbase => exact h.library hthrown hlibrary hop hbase
  | functorThrows hthrows => exact absurd hthrows h.not_dueThrows
  | onConnection hcallback hbase => exact h.onConnection hcallback hbase
  | onMessage hcallback hc hallowed hok hbase =>
      exact h.onMessage hthrown hcallback hc (h.ret_of_allowed hc hallowed) hok hbase
  | messageThrows hcallback hc hallowed herror =>
      exact h.messageThrows hthrown hcallback hc (h.ret_of_allowed hc hallowed) herror

/-- What each connection has read has been taken by the kernel from the same connection, or waits in
its buffers, in order; only an exception that leaves the message callback of a connection loses the
end of what that connection has read.  The input buffer is empty but for the message that is being
called back; and every pointer of the loop is into a connection that the map holds. -/
structure Sound (s : EchoServer) : Prop where
  stream : ∀ (i : ℕ) (c : TcpConnection), s.base.server.conns[i]? = some c → s.Unharmed i →
    (s.base.server.writes i).flatten ++ c.outputBuf.readable ++ c.inputBuf.readable = s.received i
  inOrder : ∀ (i : ℕ) (c : TcpConnection), s.base.server.conns[i]? = some c →
    (s.base.server.writes i).flatten ++ c.outputBuf.readable ++ c.inputBuf.readable <+:
      s.received i
  idle : ∀ (i : ℕ) (c : TcpConnection), s.base.server.conns[i]? = some c →
    s.base.callback ≠ some (.message i) → c.inputBuf.readable = []
  owned : ∀ call ∈ s.base.server.calls, ∀ bytes, call.kind = .write bytes → bytes ≠ [] →
    call.owner = some call.conn
  alive : s.base.Alive

/-- **Nothing is lost, repeated, overtaken or sent to another peer**, in every state of every run,
whatever the peers send, close and open again, and whatever the kernel takes; but for the end of
what a connection has read whose message callback throws. -/
theorem sound_echo_of_exec {ops : List EchoOp}
    (h : Runs.exec (Runs.only step reportsOnce) init ops = some s) : s.Sound := by
  have hs := Runs.exec_invariant wellFormed_step wellFormed_init h
  refine ⟨fun i c hc => (hs.kept i c hc).stream_eq, fun i c hc => ?_,
    fun i c hc => (hs.kept i c hc).idle, hs.owned, hs.readOnly.tidy.alive⟩
  obtain ⟨lost, hstream, -⟩ := (hs.kept i c hc).stream
  exact ⟨lost, hstream⟩

/-! ### What is handed back -/

/-- Everything that has been read has been handed back, but for the message that is being called
back; and no exception has left the loop. -/
structure Echoes (s : EchoServer) : Prop where
  thrown : s.thrown = false
  taken : ∀ (i : ℕ) (c : TcpConnection), s.base.server.conns[i]? = some c →
    (s.base.server.writes i).flatten ++ c.inputBuf.readable = s.received i

/-- The kernel takes the whole message. -/
def TakesAll (s : EchoServer) : EchoOp → Prop
  | .onMessage ret =>
      match s.base.callback with
      | some (.message i) => ∀ c ∈ s.base.server.conns[i]?, ret = c.inputBuf.readableBytes
      | _ => True
  | _ => True

instance (s : EchoServer) (op : EchoOp) : Decidable (s.TakesAll op) := by
  unfold TakesAll
  split
  · split <;> infer_instance
  · infer_instance

/-- Everything has been handed back exactly if nothing waits to be written. -/
theorem WellFormed.echoes_iff (h : s.WellFormed) :
    s.Echoes ↔ s.thrown = false ∧ ∀ (i : ℕ) (c : TcpConnection),
      s.base.server.conns[i]? = some c → c.outputBuf.readable = [] := by
  constructor
  · rintro ⟨hthrown, htaken⟩
    refine ⟨hthrown, fun i c hc => ?_⟩
    have hstream := (h.kept i c hc).stream_eq (Or.inl hthrown)
    rw [← htaken i c hc, List.append_assoc, List.append_right_inj] at hstream
    exact List.append_left_eq_self.1 hstream
  · rintro ⟨hthrown, hnone⟩
    refine ⟨hthrown, fun i c hc => ?_⟩
    have hstream := (h.kept i c hc).stream_eq (Or.inl hthrown)
    rwa [hnone i c hc, List.append_nil] at hstream

/-- A step of the library leaves what waits to be written alone. -/
theorem output_library {op : ServerLoopOp} {base base' : ServerLoop} (h : base.ReadOnly)
    (hlibrary : isLibrary op = true) (hstep : base.step op = some base')
    (hnone : ∀ (i : ℕ) (c : TcpConnection), base.server.conns[i]? = some c →
      c.outputBuf.readable = []) :
    ∀ (i : ℕ) (c : TcpConnection), base'.server.conns[i]? = some c →
      c.outputBuf.readable = [] := by
  -- a connection that is called keeps its output buffer
  have hcalled : ∀ (u : TcpServer) (k : ℕ) (c c' : TcpConnection) (effects : List Effect),
      u.conns = base.server.conns → base.server.conns[k]? = some c → c'.outputBuf = c.outputBuf →
      ∀ (i : ℕ) (d : TcpConnection), (u.finish k c' effects).conns[i]? = some d →
        d.outputBuf.readable = [] := by
    intro u k c c' effects hu hc hout i d hd
    by_cases hik : i = k
    · subst hik
      have hself := TcpServer.getElem?_finish_self (hu ▸ hc) c' effects
      obtain rfl := Option.some.inj (hself.symm.trans hd)
      rw [hout]
      exact hnone i c hc
    · rw [TcpServer.getElem?_finish_of_ne _ _ _ hik, hu] at hd
      exact hnone i d hd
  have hcalled' := h.tidy.wellFormed.called
  cases ServerLoop.step_moves hcalled' hstep with
  | start | loop | poll | handleEvent | doPendingFunctors | next => exact hnone
  | send | queueInLoop | returns => cases hlibrary
  | handleWrite hhandlers => exact absurd (hhandlers ▸ List.mem_cons_self) (h.handlers _)
  | @accept sockfd handlers server hhandlers hserver =>
      cases TcpServer.step_moves hserver with
      | accept =>
          intro i c hc
          rcases TcpServer.getElem?_concat_eq_some hc with hold | ⟨-, rfl⟩
          · exact hnone i c hold
          · exact (Buffer.represents_empty kInitialSize).readable_eq
  | @handleRead k result handlers server hcallback hhandlers hserver =>
      cases TcpServer.step_moves hserver with
      | @handleRead _ _ c c' effects hc hok =>
          have hout := (TcpConnection.silent_handleRead (h.silent k c hc) hok).2.2.1
          have hkeeps := hcalled base.server k c c' effects rfl hc hout
          cases result <;> exact hkeeps
  | @runFunctor l f functors base hcallback hfunctors hloop hrun =>
      rcases f with _ | f
      · cases hrun
        exact hnone
      · obtain ⟨server, hserver, ht⟩ := ServerLoop.runFunctor_eq_some hcalled' hrun
        cases TcpServer.step_moves hserver with
        | writeComplete hpending =>
            cases hpending
            simp only at ht
            subst ht
            exact hnone
        | connectEstablished hpending hc hok =>
            cases hpending
            simp only at ht
            subst ht
            obtain ⟨rfl, rfl⟩ := TcpConnection.connectEstablished_eq hok
            exact hcalled { base.server with pendingFunctors := [] } _ _ _ _ rfl hc rfl

/-- **Nothing of a message waits exactly if the kernel takes it whole.** -/
theorem onMessage_takes {ret : ℤ} (hc : c.WellFormed) (hin : c.inputBuf.readable.length ≤ 1024)
    (hret : -1 ≤ ret ∧ ret ≤ c.inputBuf.readable.length) (hnone : c.outputBuf.readable = []) :
    (∀ c' effects, onMessage c ret = .ok (c', effects) →
      (c'.outputBuf.readable = [] ↔ ret = c.inputBuf.readableBytes)) ∧
    ∀ e, onMessage c ret = .error e → ret ≠ c.inputBuf.readableBytes := by
  obtain ⟨inputBuf, hrep, hwf, hsend, -⟩ := onMessage_eq hc ret
  have hlen : c.inputBuf.readable.length < 2 ^ 31 := by omega
  have hcases := TcpConnection.send_cases hwf hlen fun _ => hret
  rw [hsend, hc.input.readableBytes_eq]
  constructor
  · intro c' effects hok
    rw [hok] at hcases
    cases hcases with
    | all queued hq hall hqueued => exact iff_of_true hnone hall
    | short out hq hpos hlt hout =>
        refine iff_of_false ?_ hlt.ne
        rw [hout.readable_eq, List.drop_eq_nil_iff]
        omega
    | buffered out hq => exact absurd hnone hq
  · intro e herror
    rw [herror] at hcases
    cases hcases with
    | threw hq hneg => omega

/-- **A step of a server that owes nothing leaves it owing nothing exactly if the kernel takes the
whole message.** -/
theorem echoes_step_iff {op : EchoOp} (h : s.WellFormed) (hechoes : s.Echoes)
    (hstep : Runs.only step reportsOnce s op = some t) : t.Echoes ↔ s.TakesAll op := by
  have ht := wellFormed_step s op t h hstep
  obtain ⟨-, hstep⟩ := Runs.only_eq_some.1 hstep
  obtain ⟨hthrown, hmoves⟩ := step_moves h.called hstep
  obtain ⟨-, hnone⟩ := h.echoes_iff.1 hechoes
  cases hmoves with
  | library hlibrary hbase =>
      refine iff_of_true (ht.echoes_iff.2 ⟨hthrown, ?_⟩) trivial
      exact output_library h.readOnly hlibrary hbase hnone
  | functorThrows hthrows => exact absurd hthrows h.not_dueThrows
  | onConnection hcallback hbase =>
      cases ServerLoop.step_moves h.called hbase with
      | returns => exact iff_of_true (ht.echoes_iff.2 ⟨hthrown, hnone⟩) trivial
  | @onMessage ret i c c' effects base hcallback hc hallowed hok hbase =>
      have hkept := h.kept i c hc
      have hret := h.ret_of_allowed hc hallowed (hnone i c hc)
      have htakes := (onMessage_takes hkept.wellFormed hkept.input hret (hnone i c hc)).1 c' effects
        hok
      have hgood : s.TakesAll (.onMessage ret) ↔ ret = c.inputBuf.readableBytes := by
        simp [TakesAll, hcallback, hc]
      rw [hgood, ← htakes, ht.echoes_iff]
      cases ServerLoop.step_moves rfl hbase with
      | returns =>
          have hself := TcpServer.getElem?_finish_self hc c' effects
          constructor
          · rintro ⟨-, hall⟩
            exact hall i c' hself
          · intro hempty
            refine ⟨hthrown, fun j d hd => ?_⟩
            by_cases hji : j = i
            · subst hji
              obtain rfl := Option.some.inj (hself.symm.trans hd)
              exact hempty
            · have hother := TcpServer.getElem?_finish_of_ne s.base.server c' effects hji
              exact hnone j d (hother.symm.trans hd)
  | @messageThrows ret i c e hcallback hc hallowed herror =>
      have hkept := h.kept i c hc
      have hret := h.ret_of_allowed hc hallowed (hnone i c hc)
      have hnot := (onMessage_takes hkept.wellFormed hkept.input hret (hnone i c hc)).2 e herror
      refine iff_of_false (fun hgood => ?_) ?_
      · cases hgood.thrown
      · simpa [TakesAll, hcallback, hc] using hnot

theorem echoes_init : init.Echoes where
  thrown := rfl
  taken i c h := by cases h

/-- **The server hands back everything exactly as long as the kernel takes every message whole**:
the first one that it takes a part of, or nothing, leaves bytes behind or ends the process. -/
theorem everyState_echoes_iff {ops : List EchoOp}
    (h : Runs.exec (Runs.only step reportsOnce) init ops = some s) :
    Runs.EveryState (Runs.only step reportsOnce) Echoes init ops ↔
      Runs.EveryStep (Runs.only step reportsOnce) TakesAll init ops := by
  refine Runs.everyState_iff_everyStep (I := WellFormed) ?_ ?_ wellFormed_init echoes_init h
  · intro s op t hs _ hstep _
    exact wellFormed_step s op t hs hstep
  · intro s op t hs hechoes hstep
    exact echoes_step_iff hs hechoes hstep

/-- A peer connects and sends two bytes, which the kernel takes; and sends another two. -/
def demoOps : List EchoOp :=
  [.library .start, .library .loop, .library (.poll [⟨.other 0, kReadEvent⟩]),
    .library .handleEvent, .library (.accept 7), .library .doPendingFunctors,
    .library .runFunctor, .onConnection, .library .next,
    .library (.poll [⟨.own, kReadEvent⟩, ⟨.other 1, kReadEvent⟩]), .library .handleEvent,
    .library .handleEvent, .library (.handleRead (.data [97, 98])), .onMessage 2,
    .library .doPendingFunctors, .library .next, .library (.poll [⟨.other 1, kReadEvent⟩]),
    .library .handleEvent, .library (.handleRead (.data [99, 100]))]

theorem sound_echo_of_exec_demoOps :
    ∃ s, Runs.exec (Runs.only step reportsOnce) init demoOps = some s ∧
      s.received 0 = [97, 98, 99, 100] ∧ s.base.server.writes 0 = [[97, 98]] ∧ s.Sound := by
  have hdemo : (Runs.exec (Runs.only step reportsOnce) init demoOps).map (fun s =>
      (s.received 0, s.base.server.writes 0)) = some ([97, 98, 99, 100], [[97, 98]]) := by
    decide +kernel
  obtain ⟨s, hs, hview⟩ := Option.map_eq_some_iff.1 hdemo
  obtain ⟨hreceived, hwrites⟩ := Prod.mk.inj hview
  exact ⟨s, hs, hreceived, hwrites, sound_echo_of_exec hs⟩

/-- The kernel takes the other two as well; or it takes one of them. -/
theorem everyState_echoes_demoOps :
    Runs.EveryState (Runs.only step reportsOnce) Echoes init (demoOps ++ [.onMessage 2]) ∧
      ¬Runs.EveryState (Runs.only step reportsOnce) Echoes init (demoOps ++ [.onMessage 1]) := by
  have hall : (Runs.exec (Runs.only step reportsOnce) init (demoOps ++ [.onMessage 2])).isSome =
      true := by
    decide +kernel
  have hpart : (Runs.exec (Runs.only step reportsOnce) init (demoOps ++ [.onMessage 1])).isSome =
      true := by
    decide +kernel
  have hshort : (Runs.exec (Runs.only step reportsOnce) init demoOps).any
      (fun s => decide ¬s.TakesAll (.onMessage 1)) = true := by
    decide +kernel
  obtain ⟨s, hs⟩ := Option.isSome_iff_exists.1 hall
  obtain ⟨t, ht⟩ := Option.isSome_iff_exists.1 hpart
  constructor
  · exact (everyState_echoes_iff hs).2 (Runs.everyStep_of_checkSteps (by decide +kernel))
  · intro hechoes
    obtain ⟨u, hu, -⟩ := Runs.exec_append_eq_some.1 ht
    rw [hu] at hshort
    exact of_decide_eq_true hshort
      ((everyState_echoes_iff ht).1 hechoes demoOps _ (List.prefix_refl _) u hu)

end

end EchoServer

end G5
