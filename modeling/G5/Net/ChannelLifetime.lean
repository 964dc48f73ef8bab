/-
**The pointers of the loop into the connections** (`src/net/Epoller.cc`, `src/net/TcpServer.cc`).

The kernel's table, the channels that are ready and the handler under way hold plain pointers to
channels, which are parts of the connections; what keeps a connection is the map of the server,
which forgets a connection when its number is given to another one.

Main definitions:

* `ServerLoop.Held`, `ServerLoop.Alive` — the connections the map holds, and that every pointer is
  into one of these;
* `ServerLoop.Harmless` — a `send` on a connection whose number belongs to another one does not ask
  for an update while that number is not registered;
* `ServerLoop.Tidy` — the invariant behind it.

Main results:

* `TcpServer.quiet_foldl` — what the effects of a call that does not close can do to the table;
* `ServerLoop.tidy_step` — **no harmless step breaks the invariant**;
* `ServerLoop.everyState_alive_iff` — every pointer is into a connection that the map holds, all
  along a run, exactly if every `send` is harmless.
-/

import G5.Lib.Progress
import G5.Net.CallbackOrder

set_option relaxedAutoImplicit false
set_option autoImplicit false

namespace G5

/-! ### What a call that does not close leaves of the table -/

namespace TcpServer

/-- The effect stays on the descriptor, as does its update of the channel. -/
def StaysAt (fd : ℕ) (e : Effect) : Prop :=
  StaysOn fd e ∧ ∀ channel, e = .update channel → channel.fd = fd

/-- A call of the connection leaves its descriptor, and asks for nothing but on it. -/
def LeavesFd (c c' : TcpConnection) (effects : List Effect) : Prop :=
  c'.fd = c.fd ∧ c'.channel.fd = c.fd ∧ ∀ e ∈ effects, StaysAt c.fd e

section

variable {c c' : TcpConnection} {effects : List Effect}

theorem leavesFd_handleRead {r : ReadResult} (hfd : c.channel.fd = c.fd) (hr : r ≠ .eof)
    (h : c.handleRead r = .ok (c', effects)) : LeavesFd c c' effects := by
  cases r with
  | eof => exact absurd rfl hr
  | failed =>
      cases h
      exact ⟨rfl, hfd, by simp⟩
  | data bytes =>
      obtain ⟨inputBuf, -, h⟩ := bind_eq_ok.1 h
      split at h
      · cases h
        exact ⟨rfl, hfd, by simp [StaysAt, StaysOn]⟩
      · cases h

theorem leavesFd_handleWrite {ret : ℤ} (hfd : c.channel.fd = c.fd)
    (h : c.handleWrite ret = .ok (c', effects)) : LeavesFd c c' effects := by
  simp only [TcpConnection.handleWrite] at h
  split at h
  · split at h
    · obtain ⟨outputBuf, -, h⟩ := bind_eq_ok.1 h
      split at h <;>
      · cases h
        exact ⟨rfl, by simpa using hfd, by simp [StaysAt, StaysOn, hfd]⟩
    · cases h
      exact ⟨rfl, hfd, by simp [StaysAt, StaysOn]⟩
  · cases h
    exact ⟨rfl, hfd, by simp⟩

theorem staysAt_sendDirect (c : TcpConnection) (msg : List Byte) (ret : ℤ) :
    ∀ e ∈ (c.sendDirect msg ret).2, StaysAt c.fd e ∧ ∀ channel, e ≠ .update channel := by
  simp only [TcpConnection.sendDirect]
  split
  · split
    · simp [StaysAt, StaysOn]
    · split <;> simp [StaysAt, StaysOn]
  · simp

theorem leavesFd_send {msg : List Byte} {ret : ℤ} (hfd : c.channel.fd = c.fd)
    (h : c.send msg ret = .ok (c', effects)) : LeavesFd c c' effects := by
  have hdirect := staysAt_sendDirect c msg ret
  simp only [TcpConnection.send] at h
  split at h
  · obtain ⟨rest, -, h⟩ := bind_eq_ok.1 h
    obtain ⟨outputBuf, -, h⟩ := bind_eq_ok.1 h
    split at h
    · cases h
      exact ⟨rfl, hfd, fun e he => (hdirect e he).1⟩
    · cases h
      refine ⟨rfl, by simpa using hfd, ?_⟩
      intro e he
      rcases List.mem_append.1 he with he | he
      · exact (hdirect e he).1
      · obtain rfl := List.mem_singleton.1 he
        exact ⟨trivial, by simp [hfd]⟩
  · cases h
    exact ⟨rfl, hfd, fun e he => (hdirect e he).1⟩

theorem leavesFd_connectEstablished (hfd : c.channel.fd = c.fd)
    (h : c.connectEstablished = .ok (c', effects)) : LeavesFd c c' effects := by
  simp only [TcpConnection.connectEstablished] at h
  split at h
  · cases h
    exact ⟨rfl, by simpa using hfd, by simp [StaysAt, StaysOn, hfd]⟩
  · cases h

end

/-- From `s` to `t` nothing was opened, closed or forgotten; of the table, only the number `fd` was
registered, for `i`, which is what updates do if it was open and not registered. -/
structure Quiet (s : TcpServer) (i fd : ℕ) (updates : Prop) (t : TcpServer) : Prop where
  conns : t.conns = s.conns
  owner : t.epoll.owner = s.epoll.owner
  connections : t.connections = s.connections
  registered : ∀ n r, t.epoll.registered n = some r → s.epoll.registered n = some r ∨
    (n = fd ∧ r.1 = i ∧ updates ∧ s.epoll.owner fd ≠ none ∧ s.epoll.registered fd = none)
  registers : updates → s.epoll.owner fd ≠ none → s.epoll.registered fd = none →
    ∃ mask, t.epoll.registered fd = some (i, mask)
  keeps : ∀ n r, s.epoll.registered n = some r → t.epoll.registered n = some r

def isUpdate : Effect → Bool
  | .update _ => true
  | _ => false

/-- The effects ask for an update. -/
def Updates (effects : List Effect) : Prop := effects.any isUpdate = true

instance (effects : List Effect) : Decidable (Updates effects) :=
  inferInstanceAs (Decidable (_ = _))

section

variable {s t u : TcpServer} {i fd : ℕ} {p q : Prop}

/-- The table is the same. -/
theorem Quiet.of_eq (hconns : t.conns = s.conns) (hepoll : t.epoll = s.epoll)
    (hconnections : t.connections = s.connections) (hp : ¬p) : s.Quiet i fd p t where
  conns := hconns
  owner := by rw [hepoll]
  connections := hconnections
  registered n r h := Or.inl (hepoll ▸ h)
  registers h := absurd h hp
  keeps n r h := hepoll ▸ h

theorem Quiet.trans (h : s.Quiet i fd p t) (h' : t.Quiet i fd q u) : s.Quiet i fd (p ∨ q) u where
  conns := h'.conns.trans h.conns
  owner := h'.owner.trans h.owner
  connections := h'.connections.trans h.connections
  registered n r hu := by
    rcases h'.registered n r hu with ht | ⟨rfl, hr, hq, hopen, hnone⟩
    · exact (h.registered n r ht).imp_right fun ⟨hn, hr, hp, hrest⟩ => ⟨hn, hr, Or.inl hp, hrest⟩
    · refine Or.inr ⟨rfl, hr, Or.inr hq, h.owner ▸ hopen, ?_⟩
      rw [Option.eq_none_iff_forall_ne_some]
      intro r' hr'
      rw [h.keeps n r' hr'] at hnone
      cases hnone
  registers hpq hopen hnone := by
    rcases hpq with hp | hq
    · obtain ⟨mask, ht⟩ := h.registers hp hopen hnone
      exact ⟨mask, h'.keeps fd _ ht⟩
    · cases ht : t.epoll.registered fd with
      | none => exact h'.registers hq (h.owner.symm ▸ hopen) ht
      | some r =>
          rcases h.registered fd r ht with hold | ⟨-, rfl, -⟩
          · rw [hnone] at hold
            cases hold
          · exact ⟨r.2, h'.keeps fd _ ht⟩
  keeps n r hs := h'.keeps n r (h.keeps n r hs)

/-- One effect. -/
theorem quiet_perform (s : TcpServer) (i : ℕ) {e : Effect} (hstay : StaysAt fd e) :
    s.Quiet i fd (isUpdate e = true) (s.perform i e) := by
  cases e with
  | close n => exact hstay.1.elim
  | write n accepted => exact .of_eq rfl rfl rfl (by simp [isUpdate])
  | queueWriteComplete set => exact .of_eq rfl rfl rfl (by simp [isUpdate])
  | connectionCallback => exact .of_eq rfl rfl rfl (by simp [isUpdate])
  | messageCallback => exact .of_eq rfl rfl rfl (by simp [isUpdate])
  | update channel =>
      obtain rfl := hstay.2 channel rfl
      cases ho : s.epoll.owner channel.fd with
      | none =>
          have hsame : s.perform i (.update channel) = s := by
            rw [perform, Epoller.update, Epoll.ctlAdd_of_closed ho]
          rw [hsame]
          exact ⟨rfl, rfl, rfl, fun _ _ h => Or.inl h, fun _ hopen => absurd ho hopen,
            fun _ _ h => h⟩
      | some j =>
          cases hr : s.epoll.registered channel.fd with
          | some r =>
              have hsame : s.perform i (.update channel) = s := by
                rw [perform, Epoller.update, Epoll.ctlAdd_of_registered hr]
              rw [hsame]
              refine ⟨rfl, rfl, rfl, fun _ _ h => Or.inl h, fun _ _ hnone => ?_, fun _ _ h => h⟩
              rw [hr] at hnone
              cases hnone
          | none =>
              have hnew : (s.perform i (.update channel)).epoll.registered =
                  Function.update s.epoll.registered channel.fd (some (i, channel.events)) := by
                rw [perform, Epoller.update, Epoll.ctlAdd_of_new ho hr]
              refine ⟨rfl, Epoll.ctlAdd_owner _ _ _ _, rfl, ?_, ?_, ?_⟩
              · intro n r h
                rw [hnew] at h
                by_cases hn : n = channel.fd
                · subst hn
                  rw [Function.update_self, Option.some_inj] at h
                  exact Or.inr ⟨rfl, by rw [← h], rfl, by simp [ho], hr⟩
                · rw [Function.update_of_ne hn] at h
                  exact Or.inl h
              · intro _ _ _
                exact ⟨channel.events, by rw [hnew, Function.update_self]⟩
              · intro n r h
                have hn : n ≠ channel.fd := fun heq => by rw [heq, hr] at h; cases h
                rw [hnew, Function.update_of_ne hn, h]

/-- **What the effects of a call that does not close can do to the table.** -/
theorem quiet_foldl (s : TcpServer) (i : ℕ) {effects : List Effect}
    (hstay : ∀ e ∈ effects, StaysAt fd e) :
    s.Quiet i fd (Updates effects) (effects.foldl (perform i) s) := by
  -- induction on the effects
  induction effects generalizing s with
  | nil => exact .of_eq rfl rfl rfl (by simp [Updates])
  | cons e effects ih =>
      have htail := ih (s.perform i e) fun e' he' => hstay e' (List.mem_cons_of_mem _ he')
      have hiff : Updates (e :: effects) ↔ isUpdate e = true ∨ Updates effects := by
        rw [Updates, List.any_cons, Bool.or_eq_true]
        rfl
      rw [hiff]
      exact (quiet_perform s i (hstay e List.mem_cons_self)).trans htail

/-- The connection `i` is left as `c'`, after effects that do not close. -/
theorem quiet_finish (s : TcpServer) (i : ℕ) (c' : TcpConnection) {effects : List Effect}
    (hstay : ∀ e ∈ effects, StaysAt fd e) :
    { s with conns := s.conns.set i c' }.Quiet i fd (Updates effects) (s.finish i c' effects) :=
  quiet_foldl _ i hstay

end

/-! ### The connections that the map holds -/

/-- The descriptor of the connection. -/
def fd? (s : TcpServer) (i : ℕ) : Option ℕ := s.conns[i]?.map (·.fd)

/-- The descriptor of the connection is open, for the connection itself. -/
def Opened (s : TcpServer) (i : ℕ) : Prop := ∃ n, s.fd? i = some n ∧ s.epoll.owner n = some i

/-- The map holds the connection. -/
def Holds (s : TcpServer) (i : ℕ) : Prop := ∃ n, s.fd? i = some n ∧ s.connections n = some i

/-- What is open is in the map, and what is registered is open, for the same connection. -/
structure Tabled (s : TcpServer) : Prop where
  owned : ∀ n i, s.epoll.owner n = some i → s.connections n = some i ∧ s.fd? i = some n
  registered : ∀ n i mask, s.epoll.registered n = some (i, mask) → s.epoll.owner n = some i
  channel : ∀ (i : ℕ) (c : TcpConnection), s.conns[i]? = some c → c.channel.fd = c.fd

theorem tabled_init : init.Tabled where
  owned n i h := by cases h
  registered n i mask h := by cases h
  channel i c h := by cases h

section

variable {s t : TcpServer} {i j : ℕ} {c c' : TcpConnection}

theorem Tabled.opened (h : s.Tabled) {n : ℕ} (hn : s.epoll.owner n = some i) : s.Opened i :=
  ⟨n, (h.owned n i hn).2, hn⟩

theorem Tabled.holds (h : s.Tabled) (hi : s.Opened i) : s.Holds i := by
  obtain ⟨n, hn, howner⟩ := hi
  exact ⟨n, hn, (h.owned n i howner).1⟩

theorem fd?_eq (hc : s.conns[i]? = some c) : s.fd? i = some c.fd := by
  rw [fd?, hc, Option.map_some]

/-- Nothing was opened, closed or forgotten. -/
structure Steady (s t : TcpServer) : Prop where
  fd? : t.fd? = s.fd?
  owner : t.epoll.owner = s.epoll.owner
  connections : t.connections = s.connections

theorem Steady.refl (s : TcpServer) : s.Steady s := ⟨rfl, rfl, rfl⟩

theorem Steady.opened (h : s.Steady t) : t.Opened i ↔ s.Opened i := by
  rw [Opened, Opened, h.fd?, h.owner]

theorem Steady.holds (h : s.Steady t) : t.Holds i ↔ s.Holds i := by
  rw [Holds, Holds, h.fd?, h.connections]

/-- A connection is replaced by itself after a call, with the same descriptor. -/
theorem steady_set (hc : s.conns[i]? = some c) (hfd : c'.fd = c.fd) :
    s.Steady { s with conns := s.conns.set i c' } := by
  refine ⟨?_, rfl, rfl⟩
  funext j
  by_cases hj : j = i
  · subst hj
    have hlt : j < s.conns.length := (List.getElem?_eq_some_iff.1 hc).1
    rw [fd?_eq hc, TcpServer.fd?, List.getElem?_set_self hlt, Option.map_some, hfd]
  · rw [TcpServer.fd?, List.getElem?_set_ne (Ne.symm hj)]
    rfl

/-- The update of a call goes to the connection's own descriptor, if it does anything at all. -/
def UpdatesOwn (s : TcpServer) (i fd : ℕ) (effects : List Effect) : Prop :=
  Updates effects → s.epoll.owner fd ≠ none → s.epoll.registered fd = none →
    s.epoll.owner fd = some i

instance (s : TcpServer) (i fd : ℕ) (effects : List Effect) :
    Decidable (s.UpdatesOwn i fd effects) :=
  inferInstanceAs (Decidable (_ → _))

variable {effects : List Effect}

/-- A call that does not close leaves the descriptors as they are. -/
theorem steady_finish (hc : s.conns[i]? = some c) (h : LeavesFd c c' effects) :
    s.Steady (s.finish i c' effects) := by
  have hset := steady_set hc h.1
  have hquiet := quiet_finish s i c' h.2.2
  refine ⟨?_, hquiet.owner, hquiet.connections⟩
  rw [← hset.fd?]
  funext j
  rw [TcpServer.fd?, hquiet.conns]
  rfl

/-- **A call whose update goes to its own descriptor leaves the table in order.** -/
theorem Tabled.finish (h : s.Tabled) (hc : s.conns[i]? = some c) (hleaves : LeavesFd c c' effects)
    (hown : s.UpdatesOwn i c.fd effects) : (s.finish i c' effects).Tabled := by
  have hsteady := steady_finish hc hleaves
  have hquiet := quiet_finish s i c' hleaves.2.2
  refine ⟨?_, ?_, ?_⟩
  · rw [hsteady.owner, hsteady.connections, hsteady.fd?]
    exact h.owned
  · intro n j mask hn
    rw [hsteady.owner]
    rcases hquiet.registered n _ hn with hold | ⟨rfl, rfl, hupdates, hopen, hnone⟩
    · exact h.registered n j mask hold
    · exact hown hupdates hopen hnone
  · intro j d hd
    rw [hquiet.conns] at hd
    by_cases hj : j = i
    · subst hj
      have hlt : j < s.conns.length := (List.getElem?_eq_some_iff.1 hc).1
      rw [List.getElem?_set_self hlt, Option.some_inj] at hd
      rw [← hd, hleaves.2.1, hleaves.1]
    · rw [List.getElem?_set_ne (Ne.symm hj)] at hd
      exact h.channel j d hd

/-- **An update that goes to another connection's descriptor leaves a stray pointer in the
table.** -/
theorem Tabled.stray (h : s.Tabled) (hc : s.conns[i]? = some c) (hleaves : LeavesFd c c' effects)
    (hown : ¬s.UpdatesOwn i c.fd effects) :
    ∃ mask, (s.finish i c' effects).epoll.registered c.fd = some (i, mask) ∧
      ¬(s.finish i c' effects).Holds i := by
  simp only [UpdatesOwn, Classical.not_imp] at hown
  obtain ⟨hupdates, hopen, hnone, hne⟩ := hown
  obtain ⟨mask, hmask⟩ := (quiet_finish s i c' hleaves.2.2).registers hupdates hopen hnone
  refine ⟨mask, hmask, ?_⟩
  rw [(steady_finish hc hleaves).holds]
  rintro ⟨n, hn, hheld⟩
  rw [fd?_eq hc, Option.some_inj] at hn
  subst hn
  obtain ⟨j, hj⟩ := Option.ne_none_iff_exists'.1 hopen
  rw [(h.owned _ j hj).1, Option.some_inj] at hheld
  exact hne (hheld ▸ hj)

theorem conns_close (s : TcpServer) (hc : s.conns[i]? = some c) :
    (s.finish i c [.close c.fd]).conns = s.conns := by
  obtain ⟨hlt, rfl⟩ := List.getElem?_eq_some_iff.1 hc
  exact List.set_getElem_self hlt

theorem epoll_close (s : TcpServer) (i : ℕ) (c : TcpConnection) :
    (s.finish i c [.close c.fd]).epoll = s.epoll.closeFd c.fd := rfl

/-- A connection closes its number. -/
theorem Tabled.close (h : s.Tabled) (hc : s.conns[i]? = some c) :
    (s.finish i c [.close c.fd]).Tabled := by
  refine ⟨?_, ?_, ?_⟩
  · intro n j hn
    rw [epoll_close] at hn
    by_cases hne : n = c.fd
    · simp [Epoll.closeFd, hne] at hn
    · have hold : s.epoll.owner n = some j := by
        simpa [Epoll.closeFd, Function.update_of_ne hne] using hn
      rw [fd?, conns_close s hc]
      exact h.owned n j hold
  · intro n j mask hn
    rw [epoll_close] at hn ⊢
    by_cases hne : n = c.fd
    · simp [Epoll.closeFd, hne] at hn
    · have hold : s.epoll.registered n = some (j, mask) := by
        simpa [Epoll.closeFd, Function.update_of_ne hne] using hn
      simpa [Epoll.closeFd, Function.update_of_ne hne] using h.registered n j mask hold
  · rw [conns_close s hc]
    exact h.channel

/-- The other connections keep their numbers. -/
theorem Opened.close (h : s.Opened j) (hc : s.conns[i]? = some c) (hi : s.Opened i) (hj : j ≠ i) :
    (s.finish i c [.close c.fd]).Opened j := by
  obtain ⟨n, hn, howner⟩ := h
  obtain ⟨m, hm, howner'⟩ := hi
  obtain rfl : c.fd = m := Option.some.inj ((fd?_eq hc).symm.trans hm)
  have hne : n ≠ c.fd := by
    rintro rfl
    exact hj (Option.some.inj (howner.symm.trans howner'))
  refine ⟨n, by rw [← hn, fd?, conns_close s hc]; rfl, ?_⟩
  rw [epoll_close]
  simpa [Epoll.closeFd, Function.update_of_ne hne] using howner

theorem Holds.close (h : s.Holds j) (hc : s.conns[i]? = some c) :
    (s.finish i c [.close c.fd]).Holds j := by
  obtain ⟨n, hn, hheld⟩ := h
  exact ⟨n, by rw [← hn, fd?, conns_close s hc]; rfl, hheld⟩

/-- A connection is made for a number that is not open. -/
def acceptFd (s : TcpServer) (sockfd : ℕ) : TcpServer :=
  { s with epoll := s.epoll.openFd sockfd s.conns.length }.newConnection sockfd

theorem fd?_acceptFd (s : TcpServer) (sockfd i : ℕ) :
    (s.acceptFd sockfd).fd? i = if i = s.conns.length then some sockfd else s.fd? i := by
  unfold fd?
  simp only [acceptFd, newConnection, List.getElem?_append, TcpConnection.new]
  split_ifs with hlt heq heq
  · omega
  · rfl
  · simp [heq]
  · rw [List.getElem?_eq_none (by simp; omega), List.getElem?_eq_none (by omega)]

theorem fd?_ne_length {n : ℕ} (h : s.fd? i = some n) : i ≠ s.conns.length := by
  rintro rfl
  simp [fd?] at h

theorem Opened.acceptFd {sockfd : ℕ} (h : s.Opened i) (hfree : s.epoll.owner sockfd = none) :
    (s.acceptFd sockfd).Opened i := by
  obtain ⟨n, hn, howner⟩ := h
  have hne : n ≠ sockfd := fun heq => by rw [heq, hfree] at howner; cases howner
  refine ⟨n, by rw [fd?_acceptFd, if_neg (fd?_ne_length hn), hn], ?_⟩
  simpa [TcpServer.acceptFd, newConnection, Epoll.openFd, Function.update_of_ne hne] using howner

theorem opened_length_acceptFd (s : TcpServer) (sockfd : ℕ) :
    (s.acceptFd sockfd).Opened s.conns.length := by
  refine ⟨sockfd, by rw [fd?_acceptFd, if_pos rfl], ?_⟩
  simp [acceptFd, newConnection, Epoll.openFd]

theorem Tabled.acceptFd {sockfd : ℕ} (h : s.Tabled) (hfree : s.epoll.owner sockfd = none) :
    (s.acceptFd sockfd).Tabled := by
  refine ⟨?_, ?_, ?_⟩
  · intro n i hn
    by_cases hne : n = sockfd
    · subst hne
      obtain rfl : s.conns.length = i := by
        simpa [TcpServer.acceptFd, newConnection, Epoll.openFd] using hn
      exact ⟨by simp [TcpServer.acceptFd, newConnection], by rw [fd?_acceptFd, if_pos rfl]⟩
    · have hold : s.epoll.owner n = some i := by
        simpa [TcpServer.acceptFd, newConnection, Epoll.openFd, Function.update_of_ne hne] using hn
      obtain ⟨hheld, hfd⟩ := h.owned n i hold
      refine ⟨?_, by rw [fd?_acceptFd, if_neg (fd?_ne_length hfd), hfd]⟩
      simpa [TcpServer.acceptFd, newConnection, Function.update_of_ne hne] using hheld
  · intro n i mask hn
    have hold := h.registered n i mask hn
    have hne : n ≠ sockfd := fun heq => by rw [heq, hfree] at hold; cases hold
    simpa [TcpServer.acceptFd, newConnection, Epoll.openFd, Function.update_of_ne hne] using hold
  · intro i c hi
    rcases getElem?_concat_eq_some hi with hold | ⟨-, rfl⟩
    · exact h.channel i c hold
    · rfl

end

end TcpServer

namespace ServerLoop

/-- Every pointer of the loop is into a connection that the map holds: those the kernel reports,
those of the ready channels, and those of the handlers that are due. -/
structure Alive (s : ServerLoop) : Prop where
  registered : ∀ n i mask, s.server.epoll.registered n = some (i, mask) → s.server.Holds i
  ready : ∀ channels, s.loop.phase = .handling channels → ∀ e ∈ channels, ∀ i,
    e.channel = .other (i + 1) → s.server.Holds i
  handlers : ∀ i, .read i ∈ s.handlers ∨ .write i ∈ s.handlers → s.server.Holds i

/-- A `send` that asks for an update of a number which is open and not registered is one of the
connection to which the number belongs. -/
def Harmless (s : ServerLoop) : ServerLoopOp → Prop
  | .send i msg ret =>
      ∀ c ∈ s.server.conns[i]?, ∀ r ∈ (c.send msg ret).toOption, s.server.UpdatesOwn i c.fd r.2
  | _ => True

instance (s : ServerLoop) (op : ServerLoopOp) : Decidable (s.Harmless op) := by
  unfold Harmless
  split <;> infer_instance

/-- The kernel reports a channel at most once. -/
def reportsOnce : ServerLoopOp → Bool
  | .poll events => decide (events.map (·.channel)).Nodup
  | _ => true

/-! ### The invariant -/

/-- What a `handleEvent` under way may still have to call.  A read may have closed the number before
the write is called. -/
inductive Due (server : TcpServer) : List Handler → Prop
  | nothing : Due server []
  | accept : Due server [.accept]
  | read {i : ℕ} (hi : server.Opened i) : Due server [.read i]
  | write {i : ℕ} (hi : server.Holds i) : Due server [.write i]
  | readWrite {i : ℕ} (hi : server.Opened i) : Due server [.read i, .write i]

/-- The channels that wait are different ones, of connections whose number is open, and not the one
that is being handled. -/
structure Ready (server : TcpServer) (handlers : List Handler) (channels : List EventLoop.Event) :
    Prop where
  nodup : (channels.map (·.channel)).Nodup
  opened : ∀ e ∈ channels, ∀ i, e.channel = .other (i + 1) → server.Opened i
  waits : ∀ e ∈ channels, ∀ i, e.channel = .other (i + 1) →
    .read i ∉ handlers ∧ .write i ∉ handlers

/-- A connection that has not been established has its number; and nothing points to a connection
that has lost it, but the write that is due behind the read that closed it. -/
structure Tidy (s : ServerLoop) : Prop where
  wellFormed : s.WellFormed
  server : s.server.Tabled
  fresh : ∀ i n, s.server.fd? i = some n → .established i ∉ s.log → s.server.Opened i
  idle : ¬s.loop.phase.Handling → s.handlers = []
  due : Due s.server s.handlers
  ready : ∀ channels, s.loop.phase = .handling channels → Ready s.server s.handlers channels

theorem tidy_init : init.Tidy where
  wellFormed := wellFormed_init
  server := TcpServer.tabled_init
  fresh i n h := by cases h
  idle _ := rfl
  due := .nothing
  ready channels h := by cases h

section

variable {s t : ServerLoop} {i : ℕ} {handlers : List Handler}

theorem Due.holds {server : TcpServer} (h : Due server handlers) (htable : server.Tabled)
    (hi : .read i ∈ handlers ∨ .write i ∈ handlers) : server.Holds i := by
  cases h with
  | nothing | accept => simp at hi
  | read hj =>
      obtain rfl : i = _ := by simpa using hi
      exact htable.holds hj
  | write hj =>
      obtain rfl : i = _ := by simpa using hi
      exact hj
  | readWrite hj =>
      obtain rfl : i = _ := by simpa using hi
      exact htable.holds hj

/-- **The invariant has every pointer into a connection that the map holds.** -/
theorem Tidy.alive (h : s.Tidy) : s.Alive where
  registered n i mask hn := h.server.holds (h.server.opened (h.server.registered n i mask hn))
  ready channels hchannels e he i hi :=
    h.server.holds ((h.ready channels hchannels).opened e he i hi)
  handlers _ hi := h.due.holds h.server hi

theorem Due.mono {server server' : TcpServer} (h : Due server handlers)
    (hopened : ∀ i, server.Opened i → server'.Opened i)
    (hholds : ∀ i, server.Holds i → server'.Holds i) : Due server' handlers := by
  cases h with
  | nothing => exact .nothing
  | accept => exact .accept
  | read hi => exact .read (hopened _ hi)
  | write hi => exact .write (hholds _ hi)
  | readWrite hi => exact .readWrite (hopened _ hi)

/-- The first of the handlers is called. -/
theorem Due.tail {server : TcpServer} {handler : Handler} (h : Due server (handler :: handlers))
    (htable : server.Tabled) : Due server handlers := by
  cases h with
  | accept | read | write => exact .nothing
  | readWrite hi => exact .write (htable.holds hi)

theorem Tidy.popHandler (h : s.Tidy) {handler : Handler}
    (hhandlers : s.handlers = handler :: handlers) : Tidy { s with handlers := handlers } where
  wellFormed := h.wellFormed.popHandler hhandlers
  server := h.server
  fresh := h.fresh
  idle hphase := by
    have hnil := h.idle hphase
    rw [hhandlers] at hnil
    cases hnil
  due := by
    have hdue := h.due
    rw [hhandlers] at hdue
    exact hdue.tail h.server
  ready channels hchannels := by
    have hready := h.ready channels hchannels
    refine ⟨hready.nodup, hready.opened, ?_⟩
    intro e he i hi
    have hwaits := hready.waits e he i hi
    rw [hhandlers] at hwaits
    exact ⟨fun hmem => hwaits.1 (List.mem_cons_of_mem _ hmem),
      fun hmem => hwaits.2 (List.mem_cons_of_mem _ hmem)⟩

/-- The loop moves, without any channel to handle. -/
theorem Tidy.withLoop (h : s.Tidy) {l : EventLoop (Option Functor)}
    (hwf : WellFormed { s with loop := l }) (hhandlers : s.handlers = [])
    (hphase : ¬l.phase.Handling) : Tidy { s with loop := l } :=
  { h with
    wellFormed := hwf
    idle := fun _ => hhandlers
    ready := fun channels hchannels => by
      change l.phase = _ at hchannels
      exact absurd (by rw [hchannels]; trivial) hphase }

theorem settle_phase (s : ServerLoop) (server : TcpServer) :
    (s.settle server).loop.phase = s.loop.phase :=
  (EventLoop.foldl_queueInLoop s.loop _).2.2

/-- The server is left with the same numbers. -/
theorem Tidy.settle (h : s.Tidy) {server : TcpServer}
    (hwf : (s.settle server).WellFormed) (htable : server.Tabled)
    (hsteady : s.server.Steady server) : (s.settle server).Tidy where
  wellFormed := hwf
  server := ⟨htable.owned, htable.registered, htable.channel⟩
  fresh i n hn hi := by
    have hopened := h.fresh i n (congrFun hsteady.fd? i ▸ hn) hi
    exact hsteady.opened.2 hopened
  idle hphase := h.idle (by rwa [settle_phase] at hphase)
  due := h.due.mono (fun i => hsteady.opened.2) (fun i => hsteady.holds.2)
  ready channels hchannels := by
    have hready := h.ready channels ((settle_phase s server).symm.trans hchannels)
    exact ⟨hready.nodup, fun e he i hi => hsteady.opened.2 (hready.opened e he i hi),
      hready.waits⟩

/-- More is recorded. -/
theorem Tidy.record (h : s.Tidy) {callback : Option Callback} {log : List ServerEvent}
    (hwf : WellFormed { s with callback := callback, log := log }) (hlog : s.log ⊆ log) :
    Tidy { s with callback := callback, log := log } :=
  { h with
    wellFormed := hwf
    fresh := fun j n hn hj => h.fresh j n hn fun hmem => hj (hlog hmem) }

variable {c c' : TcpConnection} {effects : List Effect}

/-- A call of a connection, which does not close, and updates its own number if any. -/
theorem Tidy.call (h : s.Tidy) (hwf : (s.settle (s.server.finish i c' effects)).WellFormed)
    (hc : s.server.conns[i]? = some c) (hleaves : TcpServer.LeavesFd c c' effects)
    (hown : s.server.UpdatesOwn i c.fd effects) :
    (s.settle (s.server.finish i c' effects)).Tidy :=
  h.settle hwf (h.server.finish hc hleaves hown) (TcpServer.steady_finish hc hleaves)

/-- The peer has closed, and the connection closes its number. -/
theorem Tidy.eof (h : s.Tidy) (hhandlers : s.handlers = .read i :: handlers)
    (hc : s.server.conns[i]? = some c)
    (hwf : (({ s with handlers := handlers }.settle
      (s.server.finish i c [.close c.fd])).WellFormed)) :
    ({ s with handlers := handlers }.settle (s.server.finish i c [.close c.fd])).Tidy := by
  have hdue := h.due
  rw [hhandlers] at hdue
  have hi : s.server.Opened i := by
    cases hdue with
    | read hi | readWrite hi => exact hi
  have hread : .read i ∈ s.handlers := by
    rw [hhandlers]
    exact List.mem_cons_self
  have hpop := h.popHandler hhandlers
  have htable := h.server.close hc
  refine ⟨hwf, ⟨htable.owned, htable.registered, htable.channel⟩, ?_, ?_, ?_, ?_⟩
  · intro j n hn hj
    have hne : j ≠ i := by
      rintro rfl
      exact hj (h.wellFormed.handlers j (Or.inl hread)).1
    have hold : s.server.fd? j = some n := by
      rw [← hn, TcpServer.fd?, ← TcpServer.conns_close s.server hc]
      rfl
    exact (h.fresh j n hold hj).close hc hi hne
  · intro hphase
    exact hpop.idle (by rwa [settle_phase] at hphase)
  · cases hdue with
    | read => exact .nothing
    | readWrite => exact .write ((h.server.holds hi).close hc)
  · intro channels hchannels
    rw [settle_phase] at hchannels
    have hready := h.ready channels hchannels
    refine ⟨hready.nodup, ?_, (hpop.ready channels hchannels).waits⟩
    intro e he j hj
    have hne : j ≠ i := by
      rintro rfl
      exact (hready.waits e he j hj).1 hread
    exact (hready.opened e he j hj).close hc hi hne

/-- A descriptor is accepted. -/
theorem Tidy.accept (h : s.Tidy) {sockfd : ℕ} (hhandlers : s.handlers = .accept :: handlers)
    (hfree : s.server.epoll.owner sockfd = none)
    (hwf : ({ s with handlers := handlers }.accepted (s.server.acceptFd sockfd)).WellFormed) :
    ({ s with handlers := handlers }.accepted (s.server.acceptFd sockfd)).Tidy := by
  have hdue := h.due
  rw [hhandlers] at hdue
  obtain rfl : handlers = [] := by
    cases hdue with
    | accept => rfl
  have htable := h.server.acceptFd hfree
  have hphase : ({ s with handlers := [] }.accepted (s.server.acceptFd sockfd)).loop.phase =
      s.loop.phase := settle_phase _ _
  refine ⟨hwf, ⟨htable.owned, htable.registered, htable.channel⟩, ?_, fun _ => rfl, .nothing, ?_⟩
  · intro j n hn hj
    have hfd : (s.server.acceptFd sockfd).fd? j = some n := hn
    rw [TcpServer.fd?_acceptFd] at hfd
    split_ifs at hfd with hlast
    · exact hlast ▸ s.server.opened_length_acceptFd sockfd
    · refine (h.fresh j n hfd ?_).acceptFd hfree
      intro hmem
      exact hj (List.mem_append_left _ hmem)
  · intro channels hchannels
    rw [hphase] at hchannels
    have hready := h.ready channels hchannels
    refine ⟨hready.nodup, fun e he j hj => (hready.opened e he j hj).acceptFd hfree, ?_⟩
    intro e he j hj
    exact ⟨List.not_mem_nil, List.not_mem_nil⟩

/-- What a ready channel has to call. -/
theorem due_handleEvent {server : TcpServer} {e : EventLoop.Event}
    (h : ∀ i, e.channel = .other (i + 1) → server.Opened i) (htable : server.Tabled) :
    Due server (handleEvent e) := by
  obtain ⟨channel, revents⟩ := e
  rcases channel with _ | _ | i
  · simp only [handleEvent, readCallback, writeCallback, ite_self, List.append_nil]
    exact .nothing
  · simp only [handleEvent, readCallback, writeCallback, ite_self, List.append_nil]
    split_ifs
    · exact .accept
    · exact .nothing
  · have hi := h i rfl
    simp only [handleEvent, readCallback, writeCallback]
    split_ifs
    · exact .readWrite hi
    · exact .read hi
    · exact .write (htable.holds hi)
    · exact .nothing

/-- What is reported belongs to a connection whose number is open. -/
theorem Tidy.opened_of_reports (h : s.Tidy) {e : EventLoop.Event} (hreports : s.Reports e)
    (he : e.channel = .other (i + 1)) : s.server.Opened i := by
  simp only [Reports, he] at hreports
  obtain ⟨mask, hmask, -⟩ := (Option.any_eq_true _ _).1 hreports
  obtain ⟨c, -, hmask⟩ := Option.bind_eq_some_iff.1 hmask
  obtain ⟨⟨j, mask'⟩, hregistered, hmask⟩ := Option.bind_eq_some_iff.1 hmask
  simp only [Option.ite_none_right_eq_some] at hmask
  obtain ⟨rfl, -⟩ := hmask
  exact h.server.opened (h.server.registered _ _ _ hregistered)

/-- Each connection is established once. -/
theorem WellFormed.not_established (h : s.WellFormed) {functors : List (Option Functor)}
    (hfunctors : s.loop.functors = some (.connectEstablished i) :: functors) :
    .established i ∉ s.log := by
  have hdistinct : (establishes s.loop.queued).Nodup := by
    rw [h.queued]
    exact List.nodup_range
  have hexecuted := h.executed
  unfold establishes at hdistinct hexecuted
  rw [← h.loop.order, hfunctors, List.filterMap_append, List.filterMap_append, hexecuted,
    List.append_assoc] at hdistinct
  intro hi
  refine (List.nodup_append.1 hdistinct).2.2 i (List.mem_filterMap.2 ⟨_, hi, rfl⟩) i ?_ rfl
  exact List.mem_append_left _ List.mem_cons_self

theorem handlers_of_doPendingFunctors (h : s.step .doPendingFunctors = some t) :
    s.handlers = [] := by
  simp only [step] at h
  split at h
  · assumption
  · cases h

/-! ### Runs -/

/-- A connection that is in the map is told of its own number. -/
theorem updatesOwn_of_holds {server : TcpServer} (htable : server.Tabled) (hi : server.Holds i)
    (hc : server.conns[i]? = some c) (effects : List Effect) :
    server.UpdatesOwn i c.fd effects := by
  intro _ hopen _
  obtain ⟨n, hn, hheld⟩ := hi
  obtain rfl : c.fd = n := Option.some.inj ((TcpServer.fd?_eq hc).symm.trans hn)
  obtain ⟨j, hj⟩ := Option.ne_none_iff_exists'.1 hopen
  obtain rfl : i = j := Option.some.inj (hheld.symm.trans (htable.owned _ j hj).1)
  exact hj

/-- A `send` that throws asks for no update. -/
theorem leavesFd_sendThrows (htable : s.server.Tabled) (hc : s.server.conns[i]? = some c)
    (msg : List Byte) (ret : ℤ) :
    TcpServer.LeavesFd c c (c.sendDirect msg ret).2 ∧
      s.server.UpdatesOwn i c.fd (c.sendDirect msg ret).2 := by
  have hstays := TcpServer.staysAt_sendDirect c msg ret
  refine ⟨⟨rfl, htable.channel i c hc, fun e he => (hstays e he).1⟩, ?_⟩
  intro hupdates
  obtain ⟨e, he, hupdate⟩ := List.any_eq_true.1 hupdates
  cases e with
  | update channel => exact absurd rfl ((hstays _ he).2 channel)
  | write | close | queueWriteComplete | connectionCallback | messageCallback => cases hupdate

/-- While functors are executed no channel is handled, so that only the server matters. -/
theorem Tidy.executing (h : s.Tidy) (hphase : s.loop.phase = .executing) (hwf : t.WellFormed)
    (htable : t.server.Tabled) (hsteady : s.server.Steady t.server) (hlog : s.log ⊆ t.log)
    (hhandlers : t.handlers = s.handlers) (hphase' : t.loop.phase = .executing) : t.Tidy := by
  have hidle : t.handlers = [] := by
    rw [hhandlers]
    exact h.idle (by rw [hphase]; exact id)
  refine ⟨hwf, htable, ?_, fun _ => hidle, ?_, ?_⟩
  · intro j n hn hj
    refine hsteady.opened.2 (h.fresh j n (congrFun hsteady.fd? j ▸ hn) ?_)
    exact fun hmem => hj (hlog hmem)
  · rw [hidle]
    exact .nothing
  · intro channels hchannels
    rw [hphase'] at hchannels
    cases hchannels

/-- A functor is executed. -/
theorem Tidy.runFunctor (h : s.Tidy) (hwf : t.WellFormed) {l : EventLoop (Option Functor)}
    {f : Option Functor} {functors : List (Option Functor)}
    (hfunctors : s.loop.functors = f :: functors) (hloop : s.loop.step .runFunctor = some l)
    (hrun : { s with loop := l }.runFunctor f = some t) : t.Tidy := by
  obtain ⟨hphase, hl⟩ : s.loop.phase = .executing ∧ l.phase = .executing := by
    cases EventLoop.step_moves hloop with
    | runFunctor hphase => exact ⟨hphase, hphase⟩
  rcases f with _ | f
  · cases hrun
    exact h.executing hphase hwf h.server (.refl _) (List.Subset.refl _) rfl hl
  · obtain ⟨server, hserver, ht⟩ := runFunctor_eq_some h.wellFormed.called hrun
    have hphase' := (settle_phase { s with loop := l } server).trans hl
    have houtbox : { s.server with pendingFunctors := [] } = s.server := by
      rw [← h.wellFormed.outbox]
    cases f with
    | writeComplete j set =>
        simp only at ht
        subst ht
        obtain rfl : server = s.server :=
          (TcpServer.step_writeComplete rfl hserver).trans houtbox
        refine h.executing hphase hwf ?_ ⟨rfl, rfl, rfl⟩ (List.Subset.refl _) rfl hphase'
        exact ⟨h.server.owned, h.server.registered, h.server.channel⟩
    | connectEstablished j =>
        simp only at ht
        subst ht
        cases TcpServer.step_moves hserver with
        | writeComplete hpending => cases hpending
        | @connectEstablished j' rest c c' effects hpending hc hok =>
            cases hpending
            have hc : s.server.conns[j]? = some c := hc
            have hleaves := TcpServer.leavesFd_connectEstablished (h.server.channel j c hc) hok
            have hopened := h.fresh j c.fd (TcpServer.fd?_eq hc)
              (h.wellFormed.not_established hfunctors)
            have hown := updatesOwn_of_holds h.server (h.server.holds hopened) hc effects
            have htable := h.server.finish hc hleaves hown
            have hsteady := TcpServer.steady_finish hc hleaves
            simp only [houtbox] at hwf hphase' ⊢
            refine h.executing hphase hwf ?_ ?_ ?_ rfl hphase'
            · exact ⟨htable.owned, htable.registered, htable.channel⟩
            · exact ⟨hsteady.fd?, hsteady.owner, hsteady.connections⟩
            · intro e he
              exact List.mem_append_left _ (List.mem_append_left _ he)

/-- **No harmless step breaks the invariant.** -/
theorem tidy_step {op : ServerLoopOp} (h : s.Tidy) (hop : reportsOnce op = true)
    (hstep : s.step op = some t) (hharmless : s.Harmless op) : t.Tidy := by
  have hwf := wellFormed_step s op t h.wellFormed hstep
  cases step_moves h.wellFormed.called hstep with
  | start => exact { h with wellFormed := hwf }
  | @loop l hloop =>
      cases EventLoop.step_moves hloop with
      | loop hphase =>
          refine h.withLoop hwf (h.idle (by rw [hphase]; exact id)) ?_
          rcases s.loop.testQuit_phase with hnext | hnext <;>
          · rw [hnext]
            exact id
  | @next l hloop =>
      cases EventLoop.step_moves hloop with
      | next hphase =>
          refine h.withLoop hwf (h.idle (by rw [hphase]; exact id)) ?_
          rcases s.loop.testQuit_phase with hnext | hnext <;>
          · rw [hnext]
            exact id
  | @doPendingFunctors l hloop =>
      cases EventLoop.step_moves hloop with
      | doPendingFunctors => exact h.withLoop hwf (handlers_of_doPendingFunctors hstep) id
  | @poll l events hcallback hreports hloop =>
      cases EventLoop.step_moves hloop with
      | poll _ hphase =>
          have hidle : s.handlers = [] := h.idle (by rw [hphase]; exact id)
          refine { h with wellFormed := hwf, idle := fun _ => hidle, ready := ?_ }
          intro channels hchannels
          cases hchannels
          refine ⟨of_decide_eq_true hop, ?_, ?_⟩
          · exact fun e he i hi => h.opened_of_reports (hreports e he) hi
          intro e he i hi
          exact ⟨hidle ▸ List.not_mem_nil, hidle ▸ List.not_mem_nil⟩
  | @handleEvent l e channels hphase hloop =>
      cases EventLoop.step_moves hloop with
      | @handleEvent e' channels' hphase' =>
          rw [hphase] at hphase'
          cases hphase'
          have hready := h.ready _ hphase
          have hrest :=
            (EventLoop.handleEvent_frame { s.loop with phase := .handling channels } e).2.2
          refine { h with
            wellFormed := hwf
            idle := fun hnot => absurd (by rw [hrest]; trivial) hnot
            due := due_handleEvent (hready.opened e List.mem_cons_self) h.server
            ready := ?_ }
          intro channels' hchannels'
          obtain rfl : channels = channels' := by
            rw [hrest] at hchannels'
            exact EventLoop.Phase.handling.inj hchannels'
          have hnodup := hready.nodup
          rw [List.map_cons, List.nodup_cons] at hnodup
          refine ⟨hnodup.2, fun e' he' => hready.opened e' (List.mem_cons_of_mem _ he'), ?_⟩
          intro e' he' i hi
          have hother : e.channel ≠ .other (i + 1) := fun heq =>
            hnodup.1 (List.mem_map.2 ⟨e', he', hi.trans heq.symm⟩)
          exact ⟨fun hmem => hother (channel_of_handleEvent (Or.inl hmem)),
            fun hmem => hother (channel_of_handleEvent (Or.inr hmem))⟩
  | @accept sockfd handlers server hhandlers hserver =>
      cases TcpServer.step_moves hserver with
      | accept hfree => exact h.accept hhandlers hfree hwf
  | @handleRead i result handlers server hcallback hhandlers hserver =>
      have hmem : .read i ∈ s.handlers := by
        rw [hhandlers]
        exact List.mem_cons_self
      have hholds := h.due.holds h.server (Or.inl hmem)
      have hread := (h.wellFormed.popHandler hhandlers).settle
        (TcpServer.touches_step rfl hserver) (h.wellFormed.handlers i (Or.inl hmem)).1
      cases TcpServer.step_moves hserver with
      | @handleRead _ _ c c' effects hc hok =>
          have hfd := h.server.channel i c hc
          have hown := updatesOwn_of_holds h.server hholds hc effects
          cases result with
          | eof =>
              cases hok
              exact h.eof hhandlers hc hwf
          | failed =>
              have hleaves := TcpServer.leavesFd_handleRead hfd (by simp) hok
              exact (h.popHandler hhandlers).call hwf hc hleaves hown
          | data bytes =>
              have hleaves := TcpServer.leavesFd_handleRead hfd (by simp) hok
              exact ((h.popHandler hhandlers).call hread hc hleaves hown).record hwf
                (List.subset_append_left _ _)
  | @handleWrite i ret handlers server hhandlers hserver =>
      have hmem : .write i ∈ s.handlers := by
        rw [hhandlers]
        exact List.mem_cons_self
      have hholds := h.due.holds h.server (Or.inr hmem)
      cases TcpServer.step_moves hserver with
      | @handleWrite _ _ c c' effects hc hok =>
          have hleaves := TcpServer.leavesFd_handleWrite (h.server.channel i c hc) hok
          exact (h.popHandler hhandlers).call hwf hc hleaves
            (updatesOwn_of_holds h.server hholds hc effects)
  | runFunctor hcallback hfunctors hloop hrun => exact h.runFunctor hwf hfunctors hloop hrun
  | @send i msg ret server hknown hserver =>
      cases TcpServer.step_moves hserver with
      | @send _ _ _ c c' effects hc hok =>
          have hleaves := TcpServer.leavesFd_send (h.server.channel i c hc) hok
          exact h.call hwf hc hleaves (hharmless c hc (c', effects) (by rw [hok]; rfl))
      | @sendThrows _ _ _ c hc =>
          obtain ⟨hleaves, hown⟩ := leavesFd_sendThrows h.server hc msg ret
          exact h.call hwf hc hleaves hown
  | @queueInLoop l hloop =>
      cases EventLoop.step_moves hloop with
      | queueInLoop => exact { h with wellFormed := hwf }
  | returns hcallback => exact h.record hwf (List.subset_append_left _ _)

/-- The call of a `send` that is not harmless returns. -/
theorem send_of_not_harmless {server : TcpServer} {msg : List Byte} {ret : ℤ}
    (hserver : s.server.step (.send i msg ret) = some server)
    (hharmless : ¬s.Harmless (.send i msg ret)) :
    ∃ c c' effects, s.server.conns[i]? = some c ∧ c.send msg ret = .ok (c', effects) ∧
      server = s.server.finish i c' effects ∧ ¬s.server.UpdatesOwn i c.fd effects := by
  simp only [Harmless, not_forall] at hharmless
  obtain ⟨c, hc, ⟨c', effects⟩, hr, hown⟩ := hharmless
  have hsend : c.send msg ret = .ok (c', effects) := by
    cases hsend : c.send msg ret with
    | error e =>
        rw [hsend] at hr
        cases hr
    | ok r =>
        rw [hsend] at hr
        exact congrArg Except.ok (Option.some.inj hr)
  obtain ⟨d, hd, hstep⟩ := Option.bind_eq_some_iff.1 hserver
  obtain rfl : c = d := Option.some.inj (hc.symm.trans hd)
  rw [Option.ite_none_right_eq_some, hsend] at hstep
  exact ⟨c, c', effects, hc, hsend, (Option.some.inj hstep.2).symm, hown⟩

/-- **A step that is not harmless leaves a stray pointer.** -/
theorem not_alive_of_not_harmless {op : ServerLoopOp} (h : s.Tidy) (hstep : s.step op = some t)
    (hharmless : ¬s.Harmless op) : ¬t.Alive := by
  intro halive
  cases step_moves h.wellFormed.called hstep with
  | @send i msg ret server hknown hserver =>
      obtain ⟨c, c', effects, hc, hok, rfl, hown⟩ := send_of_not_harmless hserver hharmless
      have hleaves := TcpServer.leavesFd_send (h.server.channel i c hc) hok
      obtain ⟨mask, hmask, hstray⟩ := h.server.stray hc hleaves hown
      exact hstray (halive.registered _ i mask hmask)
  | start | loop | poll | handleEvent | accept | handleRead | handleWrite | doPendingFunctors
    | runFunctor | next | queueInLoop | returns => exact hharmless trivial

/-- **Every pointer of the loop is into a connection that the map holds**, all along a run, exactly
if every `send` of the run is harmless. -/
theorem everyState_alive_iff {ops : List ServerLoopOp}
    (h : Runs.exec (Runs.only step reportsOnce) init ops = some s) :
    Runs.EveryState (Runs.only step reportsOnce) Alive init ops ↔
      Runs.EveryStep (Runs.only step reportsOnce) Harmless init ops := by
  refine Runs.everyState_iff_everyStep (I := Tidy) ?_ ?_ tidy_init tidy_init.alive h
  · intro s op t hs _ hstep ht
    obtain ⟨hop, hstep⟩ := Runs.only_eq_some.1 hstep
    refine tidy_step hs hop hstep ?_
    by_contra hharmless
    exact not_alive_of_not_harmless hs hstep hharmless ht
  · intro s op t hs _ hstep
    obtain ⟨hop, hstep⟩ := Runs.only_eq_some.1 hstep
    constructor
    · intro ht
      by_contra hharmless
      exact not_alive_of_not_harmless hs hstep hharmless ht
    · intro hharmless
      exact (tidy_step hs hop hstep hharmless).alive

/-- A connection is accepted, and greets; its peer closes in the round in which another one is
accepted, with the same number; and before that one is established, the application sends on the
first one, of which the kernel takes a part. -/
def strayOps : List ServerLoopOp :=
  [.start, .loop, .poll [⟨.other 0, kReadEvent⟩], .handleEvent, .accept 7, .doPendingFunctors,
    .runFunctor, .returns, .next,
    .poll [⟨.own, kReadEvent⟩, ⟨.other 1, kReadEvent⟩, ⟨.other 0, kReadEvent⟩], .handleEvent,
    .handleEvent, .handleRead .eof, .handleEvent, .accept 7, .send 0 [97, 98] 1]

/-- Without the last `send` every pointer is good; with it the number of the second connection is
registered for the first one, which the map has forgotten. -/
theorem everyState_alive_strayOps :
    Runs.EveryState (Runs.only step reportsOnce) Alive init strayOps.dropLast ∧
      ¬Runs.EveryState (Runs.only step reportsOnce) Alive init strayOps := by
  have hgood : (Runs.exec (Runs.only step reportsOnce) init strayOps.dropLast).isSome = true := by
    decide +kernel
  have hbad : (Runs.exec (Runs.only step reportsOnce) init strayOps).isSome = true := by
    decide +kernel
  have hsend : (Runs.exec (Runs.only step reportsOnce) init strayOps.dropLast).any
      (fun s => decide ¬s.Harmless (.send 0 [97, 98] 1)) = true := by
    decide +kernel
  obtain ⟨s, hs⟩ := Option.isSome_iff_exists.1 hgood
  obtain ⟨t, ht⟩ := Option.isSome_iff_exists.1 hbad
  constructor
  · exact (everyState_alive_iff hs).2 (Runs.everyStep_of_checkSteps (by decide +kernel))
  · intro hall
    rw [hs] at hsend
    exact of_decide_eq_true hsend
      ((everyState_alive_iff ht).1 hall strayOps.dropLast _ (List.prefix_refl _) s hs)

end

end ServerLoop

end G5
