/-
**The event loop** (`src/net/EventLoop.cc`, `Epoller::poll`, `Channel::handleEvent`).

The loop waits in `poll`, handles the channels that are ready, and then executes the functors that
have been queued.  Whoever queues a functor writes to an eventfd, which the loop watches with a
channel of its own; the handler of that channel reads it back to zero.  Functors are queued before
the loop runs, by the handlers of channels, and by functors; in `poll` no code of the program runs.

Main definitions:

* `EventLoop.Phase`, `EventLoop.Op`, `EventLoop.step` — the loop and what may happen next;
* `EventLoop.EpollWait` — what the kernel may return;
* `EventLoop.Sound` — what the queue promises.

Main results:

* `EventLoop.step_moves` — what a step can do, said once;
* `EventLoop.wellFormed_step` — **the queue's invariant**: outside the handling of channels, the
  eventfd is readable while a functor waits;
* `EventLoop.loop_sound_of_exec` — functors are executed once, in order, never by the call that
  executes the functor that queues them, and the loop does not sleep while one waits.
-/

import G5.Lib.Runs
import G5.Net.Channel

set_option relaxedAutoImplicit false
set_option autoImplicit false

namespace G5

namespace EventLoop

/-- The channels the poller knows. -/
inductive Watched
  /-- `channel_`, the one of the eventfd -/
  | own
  | other (channel : ℕ)
  deriving DecidableEq, Repr

/-- A ready channel, with the events the kernel reports. -/
structure Event where
  channel : Watched
  revents : Events
  deriving DecidableEq, Repr

/-- Where control is. -/
inductive Phase
  /-- `loop` has not been called -/
  | idle
  /-- in `poller_->poll` -/
  | polling
  /-- in the loop over the ready channels, with the ones not yet handled -/
  | handling (channels : List Event)
  /-- in `doPendingFunctors`, with the functors not yet executed -/
  | executing
  /-- `loop` has returned -/
  | returned
  deriving DecidableEq, Repr

/-- A call of `doPendingFunctors`: how many functors had been queued and executed when it took the
queue, and the ones it has executed. -/
structure Call (F : Type) where
  queuedBefore : ℕ
  executedBefore : ℕ
  ran : List F
  deriving DecidableEq, Repr

/-- The functors a call has executed stand in the list behind those executed before it. -/
def Call.In {F : Type} (c : Call F) (functors : List F) : Prop :=
  ∃ pre suf, functors = pre ++ c.ran ++ suf ∧ pre.length = c.executedBefore

end EventLoop

/-- The loop, with the counter of its eventfd; the last three fields record what has happened. -/
structure EventLoop (F : Type) where
  quit : Bool
  phase : EventLoop.Phase
  eventfd : ℕ
  pendingFunctors : List F
  /-- the functors that `doPendingFunctors` has taken and not executed -/
  functors : List F
  queued : List F
  executed : List F
  /-- the calls of `doPendingFunctors`, the last one first -/
  calls : List (EventLoop.Call F)
  deriving DecidableEq, Repr

namespace EventLoop

variable {F : Type}

/-- What may happen next. -/
inductive Op (F : Type)
  /-- a call of `queueInLoop`, before the loop, by a handler or by a functor -/
  | queueInLoop (cb : F)
  | loop
  /-- `epoll_wait` returns these events, or none if a signal interrupts it -/
  | poll (events : List Event)
  /-- the next channel is handled -/
  | handleEvent
  | doPendingFunctors
  /-- the next functor is executed -/
  | runFunctor
  /-- the batch has been executed, and the loop goes on -/
  | next
  deriving DecidableEq, Repr

/-! ### The functions -/

def MAXEVENTS : ℕ := 1024

/-- The constructor. -/
def init : EventLoop F where
  quit := false
  phase := .idle
  eventfd := 0
  pendingFunctors := []
  functors := []
  queued := []
  executed := []
  calls := []

def wakeup (s : EventLoop F) : EventLoop F := { s with eventfd := s.eventfd + 1 }

def handleRead (s : EventLoop F) : EventLoop F := { s with eventfd := 0 }

def queueInLoop (s : EventLoop F) (cb : F) : EventLoop F :=
  { s with pendingFunctors := s.pendingFunctors ++ [cb], queued := s.queued ++ [cb] }.wakeup

/-- `Channel::handleEvent`.  The callbacks of other channels queue functors in steps of their own;
the channel of the eventfd has a read callback only. -/
def handleEvent (s : EventLoop F) (e : Event) : EventLoop F :=
  match e.channel with
  | .own => if e.revents &&& kReadEvent ≠ 0 then s.handleRead else s
  | .other _ => s

/-- The call has taken the queue. -/
def swapFunctors (s : EventLoop F) : EventLoop F :=
  { s with
    phase := .executing
    functors := s.pendingFunctors
    pendingFunctors := []
    calls := ⟨s.queued.length, s.executed.length, []⟩ :: s.calls }

/-- The functor has been executed by the last call. -/
def noteRun (f : F) : List (Call F) → List (Call F)
  | [] => []
  | c :: calls => { c with ran := c.ran ++ [f] } :: calls

/-- The test of the loop. -/
def testQuit (s : EventLoop F) : EventLoop F :=
  { s with phase := if s.quit then .returned else .polling }

/-- What `epoll_wait` may return: the eventfd is ready, for reading, if its counter is positive. -/
def EpollWait (eventfd : ℕ) (events : List Event) : Prop :=
  events.length ≤ MAXEVENTS ∧
    ∀ e ∈ events, e.channel = .own → 0 < eventfd ∧ e.revents = kReadEvent

instance (eventfd : ℕ) (events : List Event) : Decidable (EpollWait eventfd events) :=
  inferInstanceAs (Decidable (_ ∧ _))

/-- One step. -/
def step (s : EventLoop F) : Op F → Option (EventLoop F)
  | .queueInLoop cb => if s.phase = .polling then none else some (s.queueInLoop cb)
  | .loop => if s.phase = .idle then some s.testQuit else none
  | .poll events =>
      if s.phase = .polling ∧ EpollWait s.eventfd events then
        some { s with phase := .handling events }
      else none
  | .handleEvent =>
      match s.phase with
      | .handling (e :: channels) => some ({ s with phase := .handling channels }.handleEvent e)
      | _ => none
  | .doPendingFunctors => if s.phase = .handling [] then some s.swapFunctors else none
  | .runFunctor =>
      match s.phase, s.functors with
      | .executing, f :: functors =>
          some { s with
            functors := functors
            executed := s.executed ++ [f]
            calls := noteRun f s.calls }
      | _, _ => none
  | .next => if s.phase = .executing ∧ s.functors = [] then some s.testQuit else none

/-! ### What a step can do -/

/-- The steps, with their guards. -/
inductive Moves (s : EventLoop F) : Op F → EventLoop F → Prop
  | queueInLoop (cb : F) (hphase : s.phase ≠ .polling) :
      Moves s (.queueInLoop cb) (s.queueInLoop cb)
  | loop (hphase : s.phase = .idle) : Moves s .loop s.testQuit
  | poll (events : List Event) (hphase : s.phase = .polling) (hwait : EpollWait s.eventfd events) :
      Moves s (.poll events) { s with phase := .handling events }
  | handleEvent {e : Event} {channels : List Event} (hphase : s.phase = .handling (e :: channels)) :
      Moves s .handleEvent ({ s with phase := .handling channels }.handleEvent e)
  | doPendingFunctors (hphase : s.phase = .handling []) :
      Moves s .doPendingFunctors s.swapFunctors
  | runFunctor {f : F} {functors : List F} (hphase : s.phase = .executing)
      (hfunctors : s.functors = f :: functors) :
      Moves s .runFunctor { s with
        functors := functors
        executed := s.executed ++ [f]
        calls := noteRun f s.calls }
  | next (hphase : s.phase = .executing) (hfunctors : s.functors = []) : Moves s .next s.testQuit

/-- **A step is one of these.** -/
theorem step_moves {s t : EventLoop F} {op : Op F} (h : s.step op = some t) : Moves s op t := by
  cases op with
  | queueInLoop cb =>
      simp only [step, Option.ite_none_left_eq_some, Option.some.injEq] at h
      obtain ⟨hphase, rfl⟩ := h
      exact .queueInLoop cb hphase
  | loop =>
      simp only [step, Option.ite_none_right_eq_some, Option.some.injEq] at h
      obtain ⟨hphase, rfl⟩ := h
      exact .loop hphase
  | poll events =>
      simp only [step, Option.ite_none_right_eq_some, Option.some.injEq] at h
      obtain ⟨⟨hphase, hwait⟩, rfl⟩ := h
      exact .poll events hphase hwait
  | handleEvent =>
      simp only [step] at h
      split at h
      · rename_i e channels hphase
        obtain rfl := Option.some.inj h
        exact .handleEvent hphase
      · cases h
  | doPendingFunctors =>
      simp only [step, Option.ite_none_right_eq_some, Option.some.injEq] at h
      obtain ⟨hphase, rfl⟩ := h
      exact .doPendingFunctors hphase
  | runFunctor =>
      simp only [step] at h
      split at h
      · rename_i f functors hphase hfunctors
        obtain rfl := Option.some.inj h
        exact .runFunctor hphase hfunctors
      · cases h
  | next =>
      simp only [step, Option.ite_none_right_eq_some, Option.some.injEq] at h
      obtain ⟨⟨hphase, hfunctors⟩, rfl⟩ := h
      exact .next hphase hfunctors

/-! ### The invariant -/

/-- What the queue promises: functors are executed once, in order; a call executes functors that
were queued before it took the queue; and while one waits, `poll` can return. -/
structure Sound (s : EventLoop F) : Prop where
  order : s.executed ++ s.functors ++ s.pendingFunctors = s.queued
  batch : ∀ c ∈ s.calls, c.In s.queued ∧ c.executedBefore + c.ran.length ≤ c.queuedBefore
  awake : s.phase = .polling → s.pendingFunctors ≠ [] →
    0 < s.eventfd ∧ ∃ t, s.step (.poll [⟨.own, kReadEvent⟩]) = some t

/-- Channels are being handled, and the functors will be taken afterwards. -/
def Phase.Handling : Phase → Prop
  | .handling _ => True
  | _ => False

/-- The last call of `doPendingFunctors` is executing its batch. -/
def Executing (s : EventLoop F) : Prop :=
  ∃ c calls pre, s.calls = c :: calls ∧ s.executed = pre ++ c.ran ∧
    pre.length = c.executedBefore ∧ s.executed.length + s.functors.length = c.queuedBefore

structure WellFormed (s : EventLoop F) : Prop where
  order : s.executed ++ s.functors ++ s.pendingFunctors = s.queued
  functors : s.phase ≠ .executing → s.functors = []
  awake : ¬s.phase.Handling → s.pendingFunctors ≠ [] → 0 < s.eventfd
  calls : ∀ c ∈ s.calls, c.In s.executed ∧ c.executedBefore + c.ran.length ≤ c.queuedBefore
  executing : s.phase = .executing → s.Executing

theorem wellFormed_init : (init : EventLoop F).WellFormed where
  order := rfl
  functors := fun _ => rfl
  awake := fun _ hne => absurd rfl hne
  calls := fun c hc => by cases hc
  executing := fun h => by cases h

/-- More functors behind those a call has executed do not matter. -/
theorem Call.In.append {c : Call F} {xs : List F} (h : c.In xs) (ys : List F) :
    c.In (xs ++ ys) := by
  obtain ⟨pre, suf, rfl, hpre⟩ := h
  exact ⟨pre, suf ++ ys, by rw [List.append_assoc], hpre⟩

section

variable {s : EventLoop F}

theorem WellFormed.queueInLoop (h : s.WellFormed) (cb : F) : (s.queueInLoop cb).WellFormed where
  order := by
    change s.executed ++ s.functors ++ (s.pendingFunctors ++ [cb]) = s.queued ++ [cb]
    rw [← List.append_assoc, h.order]
  functors := h.functors
  awake := fun _ _ => Nat.succ_pos _
  calls := h.calls
  executing := h.executing

/-- Functors that are queued one after the other. -/
theorem foldl_queueInLoop (s : EventLoop F) (cbs : List F) :
    (cbs.foldl queueInLoop s).queued = s.queued ++ cbs ∧
      (cbs.foldl queueInLoop s).executed = s.executed ∧
      (cbs.foldl queueInLoop s).phase = s.phase := by
  -- induction on the functors
  induction cbs generalizing s with
  | nil => exact ⟨(List.append_nil _).symm, rfl, rfl⟩
  | cons cb cbs ih =>
      obtain ⟨hqueued, hexecuted, hphase⟩ := ih (s.queueInLoop cb)
      refine ⟨hqueued.trans ?_, hexecuted, hphase⟩
      change s.queued ++ [cb] ++ cbs = s.queued ++ cb :: cbs
      rw [List.append_assoc, List.singleton_append]

theorem WellFormed.foldl_queueInLoop (h : s.WellFormed) (cbs : List F) :
    (cbs.foldl EventLoop.queueInLoop s).WellFormed := by
  induction cbs generalizing s with
  | nil => exact h
  | cons cb cbs ih => exact ih (h.queueInLoop cb)

/-- Handling a channel queues and executes nothing by itself. -/
theorem handleEvent_frame (s : EventLoop F) (e : Event) :
    (s.handleEvent e).queued = s.queued ∧ (s.handleEvent e).executed = s.executed ∧
      (s.handleEvent e).phase = s.phase := by
  unfold handleEvent
  cases e.channel with
  | own =>
      simp only
      split_ifs
      · exact ⟨rfl, rfl, rfl⟩
      · exact ⟨rfl, rfl, rfl⟩
  | other channel => exact ⟨rfl, rfl, rfl⟩

theorem testQuit_phase (s : EventLoop F) :
    s.testQuit.phase = .returned ∨ s.testQuit.phase = .polling := by
  unfold testQuit
  cases s.quit with
  | true => exact Or.inl rfl
  | false => exact Or.inr rfl

/-- Between two batches the loop may begin a round. -/
theorem WellFormed.testQuit (h : s.WellFormed) (hfunctors : s.functors = [])
    (hphase : ¬s.phase.Handling) : s.testQuit.WellFormed := by
  refine ⟨h.order, fun _ => hfunctors, fun _ hne => h.awake hphase hne, h.calls, fun hexec => ?_⟩
  rcases s.testQuit_phase with hnext | hnext
  · rw [hnext] at hexec
    cases hexec
  · rw [hnext] at hexec
    cases hexec

/-- While channels are handled, the counter may become anything. -/
theorem WellFormed.handle (h : s.WellFormed) (hfunctors : s.functors = []) (channels : List Event)
    (eventfd : ℕ) : WellFormed { s with phase := .handling channels, eventfd := eventfd } where
  order := h.order
  functors := fun _ => hfunctors
  awake := fun hphase => absurd trivial hphase
  calls := h.calls
  executing := fun hexec => by cases hexec

theorem WellFormed.swapFunctors (h : s.WellFormed) (hfunctors : s.functors = []) :
    s.swapFunctors.WellFormed := by
  have horder := h.order
  rw [hfunctors, List.append_nil] at horder
  have hlength := congrArg List.length horder
  rw [List.length_append] at hlength
  refine ⟨?_, fun hphase => absurd rfl hphase, fun _ hne => absurd rfl hne, ?_, fun _ => ?_⟩
  · change s.executed ++ s.pendingFunctors ++ [] = s.queued
    rw [List.append_nil, horder]
  · intro c hc
    rcases List.mem_cons.1 hc with rfl | hc
    · refine ⟨⟨s.executed, [], ?_, rfl⟩, ?_⟩
      · rw [List.append_nil, List.append_nil]
        rfl
      · change s.executed.length + 0 ≤ s.queued.length
        omega
    · exact h.calls c hc
  · exact ⟨_, s.calls, s.executed, rfl, (List.append_nil _).symm, rfl, hlength⟩

theorem WellFormed.runFunctor (h : s.WellFormed) (hphase : s.phase = .executing) {f : F}
    {functors : List F} (hfunctors : s.functors = f :: functors) :
    WellFormed { s with
      functors := functors
      executed := s.executed ++ [f]
      calls := noteRun f s.calls } := by
  have horder := h.order
  obtain ⟨c, calls, pre, hcalls, hexecuted, hpre, hlength⟩ := h.executing hphase
  rw [hfunctors] at horder hlength
  rw [List.length_cons] at hlength
  have hlengths := congrArg List.length hexecuted
  rw [List.length_append] at hlengths
  refine ⟨?_, fun hne => absurd hphase hne, h.awake, ?_, fun _ => ?_⟩
  · rw [← horder]
    simp
  · rw [hcalls]
    intro d hd
    rcases List.mem_cons.1 hd with rfl | hd
    · refine ⟨⟨pre, [], ?_, hpre⟩, ?_⟩
      · change s.executed ++ [f] = pre ++ (c.ran ++ [f]) ++ []
        rw [hexecuted, List.append_nil, List.append_assoc]
      · change c.executedBefore + (c.ran ++ [f]).length ≤ c.queuedBefore
        rw [List.length_append, List.length_singleton]
        omega
    · obtain ⟨hin, hle⟩ := h.calls d (by rw [hcalls]; exact List.mem_cons_of_mem _ hd)
      exact ⟨hin.append [f], hle⟩
  · refine ⟨{ c with ran := c.ran ++ [f] }, calls, pre, ?_, ?_, hpre, ?_⟩
    · change noteRun f s.calls = _
      rw [hcalls]
      rfl
    · change s.executed ++ [f] = pre ++ (c.ran ++ [f])
      rw [hexecuted, List.append_assoc]
    · change (s.executed ++ [f]).length + functors.length = c.queuedBefore
      rw [List.length_append, List.length_singleton]
      omega

end

theorem not_handling_of_eq {p q : Phase} (h : p = q) (hq : ¬q.Handling) : ¬p.Handling := h ▸ hq

/-- **No step breaks the invariant.** -/
theorem wellFormed_step : Runs.Invariant (step (F := F)) WellFormed := by
  intro s op t h hstep
  cases step_moves hstep with
  | queueInLoop cb _ => exact h.queueInLoop cb
  | loop hphase =>
      exact h.testQuit (h.functors (by rw [hphase]; exact Phase.noConfusion))
        (not_handling_of_eq hphase id)
  | poll events hphase _ =>
      exact h.handle (h.functors (by rw [hphase]; exact Phase.noConfusion)) events s.eventfd
  | @handleEvent e channels hphase =>
      have hfunctors := h.functors (by rw [hphase]; exact Phase.noConfusion)
      unfold handleEvent
      cases e.channel with
      | own =>
          simp only
          split_ifs
          · exact h.handle hfunctors channels 0
          · exact h.handle hfunctors channels s.eventfd
      | other channel => exact h.handle hfunctors channels s.eventfd
  | doPendingFunctors hphase =>
      exact h.swapFunctors (h.functors (by rw [hphase]; exact Phase.noConfusion))
  | runFunctor hphase hfunctors => exact h.runFunctor hphase hfunctors
  | next hphase hfunctors => exact h.testQuit hfunctors (not_handling_of_eq hphase id)

/-- The invariant is what the queue promises. -/
theorem WellFormed.sound {s : EventLoop F} (h : s.WellFormed) : s.Sound := by
  refine ⟨h.order, fun c hc => ?_, fun hphase hne => ?_⟩
  · obtain ⟨hin, hle⟩ := h.calls c hc
    rw [← h.order, List.append_assoc]
    exact ⟨hin.append _, hle⟩
  · have hready := h.awake (not_handling_of_eq hphase id) hne
    refine ⟨hready, _, if_pos ⟨hphase, ?_, fun e he _ => ?_⟩⟩
    · exact Nat.succ_le_succ (Nat.zero_le _)
    · rw [List.mem_singleton.1 he]
      exact ⟨hready, rfl⟩

/-- **The queue keeps its promises**, in every state of every run. -/
theorem loop_sound_of_exec {ops : List (Op F)} {s : EventLoop F}
    (h : Runs.exec step init ops = some s) : s.Sound :=
  (Runs.exec_invariant wellFormed_step wellFormed_init h).sound

/-- A functor is queued before the loop, another one by a handler behind that of the eventfd, and a
third one by a functor. -/
def demoOps : List (Op ℕ) :=
  [.queueInLoop 0, .loop, .poll [⟨.own, kReadEvent⟩, ⟨.other 7, kReadEvent⟩], .handleEvent,
    .handleEvent, .queueInLoop 1, .doPendingFunctors, .runFunctor, .queueInLoop 0, .runFunctor,
    .next]

theorem loop_sound_of_exec_demoOps :
    ∃ s, Runs.exec step init demoOps = some s ∧ s.phase = .polling ∧ s.pendingFunctors = [0] ∧
      s.Sound := by
  refine ⟨⟨false, .polling, 2, [0], [], [0, 1, 0], [0, 1], [⟨2, 0, [0, 1]⟩]⟩, by decide, rfl, rfl,
    ?_⟩
  exact @loop_sound_of_exec _ demoOps _ (by decide)

end EventLoop

end G5
