/-
**A loop in a thread of its own** (`src/net/EventLoopThread.cc`).

`startLoop` starts the thread and waits on a condition until the thread has published its loop.  The
thread makes the loop on its stack, calls the callback with it, publishes it, and runs it; behind
that it would take the pointer back.  The destructor waits for the thread if there is a pointer.

Nothing sets the flag that ends the loop, so that the thread runs for ever.

Main definitions:

* `EventLoopThread`, `EventLoopThread.step` — the object and its two threads;
* `EventLoopThread.Sound` — what the owner may rely on.

Main results:

* `EventLoopThread.step_moves` — what a step can do, said once;
* `EventLoopThread.wellFormed_step` — **no step breaks the invariant**;
* `EventLoopThread.loopRuns_of_exec` — `startLoop` returns the loop that runs, after the callback,
  and the destructor comes to its end only if there is no thread;
* `EventLoopThread.startLoopReturns_of_exec` — **`startLoop` returns**, if the thread can be
  created.
-/

import G5.Base.Thread
import G5.Net.EventLoop

set_option relaxedAutoImplicit false
set_option autoImplicit false

namespace G5

namespace EventLoopThread

/-- Where the owner is. -/
inductive CallerPc
  | idle
  /-- in `startLoop`, in `thread_.start()` -/
  | starting
  /-- in `startLoop`, at `MutexLockGuard lock(mutex_)` -/
  | locking
  /-- in `startLoop`, at the test of the loop -/
  | testing
  /-- in `startLoop`, in `cond_.wait()` -/
  | waiting
  /-- in `startLoop`, at the end of the section -/
  | leaving (loop : ℕ)
  /-- `startLoop` has returned this -/
  | returned (loop : ℕ)
  /-- in the destructor, in `thread_.join()` -/
  | joining
  /-- the destructor has run -/
  | gone
  deriving DecidableEq, Repr

/-- Where the thread is in `threadFunc`, with the address of the loop on its stack. -/
inductive FuncPc
  /-- at `EventLoop loop` -/
  | constructing
  /-- in `callback_(&loop)` -/
  | calling (loop : ℕ)
  /-- at the first `MutexLockGuard lock(mutex_)` -/
  | locking (loop : ℕ)
  /-- at `loop_ = &loop` -/
  | publishing (loop : ℕ)
  /-- at `cond_.notify()` -/
  | notifying (loop : ℕ)
  /-- at the end of the section -/
  | unlocking (loop : ℕ)
  /-- in `loop.loop()` -/
  | looping (loop : ℕ)
  /-- at the second `MutexLockGuard lock(mutex_)` -/
  | relocking
  /-- at `loop_ = NULL` -/
  | clearing
  | done
  deriving DecidableEq, Repr

namespace CallerPc

/-- The owner has the mutex. -/
def inside : CallerPc → Bool
  | .testing | .leaving _ => true
  | _ => false

/-- What `startLoop` returns. -/
def result? : CallerPc → Option ℕ
  | .leaving loop | .returned loop => some loop
  | _ => none

end CallerPc

namespace FuncPc

/-- The thread has the mutex. -/
def inside : FuncPc → Bool
  | .publishing _ | .notifying _ | .unlocking _ | .clearing => true
  | _ => false

/-- What the thread has published. -/
def published? : FuncPc → Option ℕ
  | .notifying loop | .unlocking loop | .looping loop => some loop
  | _ => none

/-- The loop for which the callback has returned, or which has been made if there is none. -/
def ready? : FuncPc → Option ℕ
  | .locking loop | .publishing loop | .notifying loop | .unlocking loop | .looping loop =>
      some loop
  | _ => none

end FuncPc

end EventLoopThread

/-- The object and its two threads; the last field records what has happened. -/
structure EventLoopThread (F : Type) where
  loop : Option ℕ
  exiting : Bool
  thread : Thread
  /-- the thread that has `mutex_` -/
  owner : Option Party
  condition : Condition Party
  /-- `callback_` is set -/
  callback : Bool
  caller : EventLoopThread.CallerPc
  func : EventLoopThread.FuncPc
  eventLoop : EventLoop F
  /-- the assertion of `startLoop` has failed -/
  failed : Bool
  /-- the loops with which the callback has been called, and from which it has returned -/
  called : List ℕ

namespace EventLoopThread

/-- What may happen next. -/
inductive Op (F : Type)
  | startLoop
  /-- a step of `Thread::start`, or of the new thread before its function -/
  | thread (op : Thread.Op)
  /-- the owner takes its next step -/
  | caller
  /-- the owner wakes for no reason -/
  | rouse
  /-- the loop is made at this address -/
  | construct (loop : ℕ)
  /-- the thread takes its next step -/
  | func
  /-- `cond_.notify()` wakes these -/
  | notify (chosen : Finset Party)
  /-- a step of `loop.loop()` -/
  | loop (op : EventLoop.Op F)
  | destroy

/-- The steps of `Thread::start`, and of the new thread before its function. -/
def isInner : Thread.Op → Bool
  | .create _ | .storeTid _ | .latch _ | .waited | .counted | .assertTid => true
  | .start | .finish | .join | .joined | .destroy => false

/-- What `startLoop` and `threadFunc` do by themselves until the loop runs, if nobody wakes for no
reason. -/
def Op.isOwn {F : Type} : Op F → Bool
  | .thread op => op.isOwn
  | .caller | .construct _ | .func | .notify _ => true
  | .startLoop | .rouse | .loop _ | .destroy => false

variable {F : Type}

/-! ### The functions -/

/-- The constructor. -/
def init (callback : Bool) : EventLoopThread F where
  loop := none
  exiting := false
  thread := .init
  owner := none
  condition := Condition.empty
  callback := callback
  caller := .idle
  func := .constructing
  eventLoop := .init
  failed := false
  called := []

/-- The thread object makes a step, after which the owner is at the given place. -/
def threadStep (s : EventLoopThread F) (op : Thread.Op) (caller : CallerPc) :
    Option (EventLoopThread F) :=
  (s.thread.step op).map fun thread => { s with thread := thread, caller := caller }

/-- The next statement of the owner. -/
def goCaller (s : EventLoopThread F) : CallerPc → Option (EventLoopThread F)
  | .starting => if s.thread.owner = .idle then some { s with caller := .locking } else none
  | .locking =>
      if s.owner = none then some { s with owner := some .owner, caller := .testing } else none
  | .testing =>
      match s.loop with
      | none =>
          some { s with owner := none, condition := s.condition.wait .owner, caller := .waiting }
      | some loop => some { s with caller := .leaving loop }
  | .waiting =>
      if s.owner = none ∧ s.condition.Awake .owner then
        some { s with
          owner := some .owner
          condition := s.condition.resume .owner
          caller := .testing }
      else none
  | .leaving loop => some { s with owner := none, caller := .returned loop }
  | .joining =>
      (s.thread.step .joined).bind fun thread =>
        { s with thread := thread }.threadStep .destroy .gone
  | .idle | .returned _ | .gone => none

/-- The next statement of `threadFunc`. -/
def goFunc (s : EventLoopThread F) : FuncPc → Option (EventLoopThread F)
  | .calling loop => some { s with func := .locking loop, called := s.called ++ [loop] }
  | .locking loop =>
      if s.owner = none then some { s with owner := some .started, func := .publishing loop }
      else none
  | .publishing loop => some { s with loop := some loop, func := .notifying loop }
  | .unlocking loop => some { s with owner := none, func := .looping loop }
  | .looping _ => if s.eventLoop.phase = .returned then some { s with func := .relocking } else none
  | .relocking =>
      if s.owner = none then some { s with owner := some .started, func := .clearing } else none
  | .clearing =>
      { s with loop := none, owner := none, func := .done }.threadStep .finish s.caller
  | .constructing | .notifying _ | .done => none

/-- One step. -/
def step (s : EventLoopThread F) : Op F → Option (EventLoopThread F)
  | .startLoop =>
      if s.caller = .idle ∧ s.failed = false then
        if s.thread.started then some { s with failed := true } else s.threadStep .start .starting
      else none
  | .thread op => if isInner op then s.threadStep op s.caller else none
  | .caller => s.goCaller s.caller
  | .rouse =>
      if s.condition .owner = some .asleep then
        some { s with condition := s.condition.rouse .owner }
      else none
  | .construct loop =>
      if s.func = .constructing ∧ s.thread.runner = .running then
        some { s with func := if s.callback then .calling loop else .locking loop }
      else none
  | .func => s.goFunc s.func
  | .notify chosen =>
      match s.func with
      | .notifying loop =>
          if s.condition.Wakes chosen then
            some { s with condition := s.condition.notify chosen, func := .unlocking loop }
          else none
      | _ => none
  | .loop op =>
      match s.func with
      | .looping _ => (s.eventLoop.step op).map fun eventLoop => { s with eventLoop := eventLoop }
      | _ => none
  | .destroy =>
      match s.caller with
      | .idle | .returned _ =>
          match s.loop with
          | none => { s with exiting := true }.threadStep .destroy .gone
          | some _ => { s with exiting := true }.threadStep .join .joining
      | _ => none

/-! ### What a step can do -/

/-- The steps, with their guards. -/
inductive Moves (s : EventLoopThread F) : Op F → EventLoopThread F → Prop
  | startLoop {thread : Thread} (hcaller : s.caller = .idle)
      (hthread : s.thread.step .start = some thread) :
      Moves s .startLoop { s with thread := thread, caller := .starting }
  | startTwice (hcaller : s.caller = .idle) (hstarted : s.thread.started = true) :
      Moves s .startLoop { s with failed := true }
  | thread {op : Thread.Op} {thread : Thread} (hinner : isInner op = true)
      (hthread : s.thread.step op = some thread) :
      Moves s (.thread op) { s with thread := thread }
  | started (hcaller : s.caller = .starting) (hthread : s.thread.owner = .idle) :
      Moves s .caller { s with caller := .locking }
  | lock (hcaller : s.caller = .locking) (hfree : s.owner = none) :
      Moves s .caller { s with owner := some .owner, caller := .testing }
  | wait (hcaller : s.caller = .testing) (hloop : s.loop = none) :
      Moves s .caller
        { s with owner := none, condition := s.condition.wait .owner, caller := .waiting }
  | pass {loop : ℕ} (hcaller : s.caller = .testing) (hloop : s.loop = some loop) :
      Moves s .caller { s with caller := .leaving loop }
  | resume (hcaller : s.caller = .waiting) (hfree : s.owner = none)
      (hawake : s.condition.Awake .owner) :
      Moves s .caller
        { s with
          owner := some .owner
          condition := s.condition.resume .owner
          caller := .testing }
  | leave {loop : ℕ} (hcaller : s.caller = .leaving loop) :
      Moves s .caller { s with owner := none, caller := .returned loop }
  | joined {thread thread' : Thread} (hcaller : s.caller = .joining)
      (hjoined : s.thread.step .joined = some thread)
      (hdestroy : thread.step .destroy = some thread') :
      Moves s .caller { s with thread := thread', caller := .gone }
  | rouse (hasleep : s.condition .owner = some .asleep) :
      Moves s .rouse { s with condition := s.condition.rouse .owner }
  | construct {loop : ℕ} (hfunc : s.func = .constructing) (hrunner : s.thread.runner = .running) :
      Moves s (.construct loop)
        { s with func := if s.callback then .calling loop else .locking loop }
  | callback {loop : ℕ} (hfunc : s.func = .calling loop) :
      Moves s .func { s with func := .locking loop, called := s.called ++ [loop] }
  | lockFunc {loop : ℕ} (hfunc : s.func = .locking loop) (hfree : s.owner = none) :
      Moves s .func { s with owner := some .started, func := .publishing loop }
  | publish {loop : ℕ} (hfunc : s.func = .publishing loop) :
      Moves s .func { s with loop := some loop, func := .notifying loop }
  | notify {loop : ℕ} {chosen : Finset Party} (hfunc : s.func = .notifying loop)
      (hwakes : s.condition.Wakes chosen) :
      Moves s (.notify chosen)
        { s with condition := s.condition.notify chosen, func := .unlocking loop }
  | unlock {loop : ℕ} (hfunc : s.func = .unlocking loop) :
      Moves s .func { s with owner := none, func := .looping loop }
  | loop {loop : ℕ} {op : EventLoop.Op F} {eventLoop : EventLoop F}
      (hfunc : s.func = .looping loop) (hstep : s.eventLoop.step op = some eventLoop) :
      Moves s (.loop op) { s with eventLoop := eventLoop }
  | loopReturns {loop : ℕ} (hfunc : s.func = .looping loop)
      (hphase : s.eventLoop.phase = .returned) : Moves s .func { s with func := .relocking }
  | relock (hfunc : s.func = .relocking) (hfree : s.owner = none) :
      Moves s .func { s with owner := some .started, func := .clearing }
  | clear {thread : Thread} (hfunc : s.func = .clearing)
      (hthread : s.thread.step .finish = some thread) :
      Moves s .func { s with loop := none, owner := none, func := .done, thread := thread }
  | destroy {thread : Thread} (hcaller : s.caller = .idle ∨ ∃ loop, s.caller = .returned loop)
      (hloop : s.loop = none) (hthread : s.thread.step .destroy = some thread) :
      Moves s .destroy { s with exiting := true, thread := thread, caller := .gone }
  | join {loop : ℕ} {thread : Thread}
      (hcaller : s.caller = .idle ∨ ∃ loop, s.caller = .returned loop)
      (hloop : s.loop = some loop) (hthread : s.thread.step .join = some thread) :
      Moves s .destroy { s with exiting := true, thread := thread, caller := .joining }

/-- **A step is one of these.** -/
theorem step_moves {s s' : EventLoopThread F} {op : Op F} (h : s.step op = some s') :
    Moves s op s' := by
  cases op with
  | startLoop =>
      simp only [step, Option.ite_none_right_eq_some] at h
      obtain ⟨⟨hcaller, -⟩, h⟩ := h
      split_ifs at h with hstarted
      · cases h
        exact .startTwice hcaller hstarted
      · obtain ⟨thread, hthread, rfl⟩ := Option.map_eq_some_iff.1 h
        exact .startLoop hcaller hthread
  | thread op =>
      simp only [step, Option.ite_none_right_eq_some] at h
      obtain ⟨hinner, h⟩ := h
      obtain ⟨thread, hthread, rfl⟩ := Option.map_eq_some_iff.1 h
      exact .thread hinner hthread
  | caller =>
      simp only [step] at h
      cases hcaller : s.caller with
      | starting =>
          rw [hcaller, goCaller, Option.ite_none_right_eq_some, Option.some_inj] at h
          obtain ⟨hthread, rfl⟩ := h
          exact .started hcaller hthread
      | locking =>
          rw [hcaller, goCaller, Option.ite_none_right_eq_some, Option.some_inj] at h
          obtain ⟨hfree, rfl⟩ := h
          exact .lock hcaller hfree
      | testing =>
          rw [hcaller, goCaller] at h
          split at h
          · rename_i hloop
            cases h
            exact .wait hcaller hloop
          · rename_i loop hloop
            cases h
            exact .pass hcaller hloop
      | waiting =>
          rw [hcaller, goCaller, Option.ite_none_right_eq_some, Option.some_inj] at h
          obtain ⟨⟨hfree, hawake⟩, rfl⟩ := h
          exact .resume hcaller hfree hawake
      | leaving loop =>
          rw [hcaller] at h
          cases h
          exact .leave hcaller
      | joining =>
          rw [hcaller] at h
          obtain ⟨thread, hjoined, h⟩ := Option.bind_eq_some_iff.1 h
          obtain ⟨thread', hdestroy, rfl⟩ := Option.map_eq_some_iff.1 h
          exact .joined hcaller hjoined hdestroy
      | idle | returned loop | gone =>
          rw [hcaller] at h
          cases h
  | rouse =>
      simp only [step, Option.ite_none_right_eq_some, Option.some.injEq] at h
      obtain ⟨hasleep, rfl⟩ := h
      exact .rouse hasleep
  | construct loop =>
      simp only [step, Option.ite_none_right_eq_some, Option.some.injEq] at h
      obtain ⟨⟨hfunc, hrunner⟩, rfl⟩ := h
      exact .construct hfunc hrunner
  | func =>
      simp only [step] at h
      cases hfunc : s.func with
      | calling loop =>
          rw [hfunc] at h
          cases h
          exact .callback hfunc
      | locking loop =>
          rw [hfunc, goFunc, Option.ite_none_right_eq_some, Option.some_inj] at h
          obtain ⟨hfree, rfl⟩ := h
          exact .lockFunc hfunc hfree
      | publishing loop =>
          rw [hfunc] at h
          cases h
          exact .publish hfunc
      | unlocking loop =>
          rw [hfunc] at h
          cases h
          exact .unlock hfunc
      | looping loop =>
          rw [hfunc, goFunc, Option.ite_none_right_eq_some, Option.some_inj] at h
          obtain ⟨hphase, rfl⟩ := h
          exact .loopReturns hfunc hphase
      | relocking =>
          rw [hfunc, goFunc, Option.ite_none_right_eq_some, Option.some_inj] at h
          obtain ⟨hfree, rfl⟩ := h
          exact .relock hfunc hfree
      | clearing =>
          rw [hfunc] at h
          obtain ⟨thread, hthread, rfl⟩ := Option.map_eq_some_iff.1 h
          exact .clear hfunc hthread
      | constructing | notifying loop | done =>
          rw [hfunc] at h
          cases h
  | notify chosen =>
      simp only [step] at h
      split at h
      · rename_i loop hfunc
        rw [Option.ite_none_right_eq_some, Option.some_inj] at h
        obtain ⟨hwakes, rfl⟩ := h
        exact .notify hfunc hwakes
      · cases h
  | loop op =>
      simp only [step] at h
      split at h
      · rename_i loop hfunc
        obtain ⟨eventLoop, hstep, rfl⟩ := Option.map_eq_some_iff.1 h
        exact .loop hfunc hstep
      · cases h
  | destroy =>
      simp only [step] at h
      have hcaller : s.caller = .idle ∨ ∃ loop, s.caller = .returned loop := by
        split at h
        · exact Or.inl ‹_›
        · exact Or.inr ⟨_, ‹_›⟩
        · cases h
      have hbody : (match s.loop with
          | none => { s with exiting := true }.threadStep .destroy .gone
          | some _ => { s with exiting := true }.threadStep .join .joining) = some s' := by
        rcases hcaller with hidle | ⟨loop, hreturned⟩
        · rwa [hidle] at h
        · rwa [hreturned] at h
      split at hbody
      · rename_i hloop
        obtain ⟨thread, hthread, rfl⟩ := Option.map_eq_some_iff.1 hbody
        exact .destroy hcaller hloop hthread
      · rename_i loop hloop
        obtain ⟨thread, hthread, rfl⟩ := Option.map_eq_some_iff.1 hbody
        exact .join hcaller hloop hthread

/-! ### The invariant -/

/-- Where the owner is in the functions of the thread object. -/
def CallerAt (caller : CallerPc) (thread : Thread) : Prop :=
  match caller with
  | .idle => thread.started = false ∧ thread.owner = .idle ∧ thread.destroyed = false
  | .starting => thread.joined = false ∧ thread.destroyed = false
  | .joining => True
  | .gone => thread.created = 0 ∧ thread.owner = .idle
  | _ => thread.owner = .idle ∧ thread.joined = false ∧ thread.destroyed = false

/-- The thread has not come behind its loop, and calls the callback only if there is one. -/
def FuncPc.Alive (func : FuncPc) (callback : Bool) : Prop :=
  func ≠ .relocking ∧ func ≠ .clearing ∧ func ≠ .done ∧ ∀ loop, func = .calling loop →
    callback = true

/-- The pointer is the one the thread has published, and the owner has read it; while it is there
nobody sleeps, unless the thread is about to notify; and the loop does not come to its end. -/
structure WellFormed (s : EventLoopThread F) : Prop where
  thread : s.thread.WellFormed
  assertions : s.thread.failed = none ∧ s.failed = false
  callerAt : CallerAt s.caller s.thread
  running : s.func ≠ .constructing → s.thread.runner = .running
  notFinished : s.thread.runner ≠ .finished
  ownerInside : s.owner = some .owner ↔ s.caller.inside = true
  startedInside : s.owner = some .started ↔ s.func.inside = true
  waits : s.condition .owner ≠ none ↔ s.caller = .waiting
  startedAwake : s.condition .started = none
  loop : s.loop = s.func.published?
  woken : s.loop ≠ none → s.condition.NoneAsleep ∨ ∃ loop, s.func = .notifying loop
  result : ∀ loop, s.caller.result? = some loop → s.loop = some loop
  called : s.called = if s.callback then s.func.ready?.toList else []
  eventLoop : s.eventLoop.quit = false ∧ s.eventLoop.phase ≠ .returned
  alive : s.func.Alive s.callback

theorem wellFormed_init (callback : Bool) : (init callback : EventLoopThread F).WellFormed where
  thread := ⟨Thread.accounted_init, Thread.handshake_init⟩
  assertions := ⟨rfl, rfl⟩
  callerAt := ⟨rfl, rfl, rfl⟩
  running h := absurd rfl h
  notFinished := nofun
  ownerInside := by simp [init, CallerPc.inside]
  startedInside := by simp [init, FuncPc.inside]
  waits := by simp [init, Condition.empty]
  startedAwake := rfl
  loop := rfl
  woken h := absurd rfl h
  result loop h := by cases h
  called := by cases callback <;> rfl
  eventLoop := ⟨rfl, nofun⟩
  alive := ⟨nofun, nofun, nofun, nofun⟩

/-- Nothing ends a loop. -/
theorem loop_runs {l l' : EventLoop F} {op : EventLoop.Op F}
    (h : l.quit = false ∧ l.phase ≠ .returned) (hstep : l.step op = some l') :
    l'.quit = false ∧ l'.phase ≠ .returned := by
  obtain ⟨hquit, hphase⟩ := h
  have htest : l.testQuit.quit = false ∧ l.testQuit.phase ≠ .returned := by
    simp [EventLoop.testQuit, hquit]
  cases EventLoop.step_moves hstep with
  | queueInLoop cb => exact ⟨hquit, hphase⟩
  | loop | next => exact htest
  | poll | doPendingFunctors => exact ⟨hquit, nofun⟩
  | @handleEvent e channels =>
      obtain ⟨-, -, hphase'⟩ := EventLoop.handleEvent_frame { l with phase := .handling channels } e
      refine ⟨?_, by rw [hphase']; nofun⟩
      unfold EventLoop.handleEvent
      split
      · split_ifs <;> exact hquit
      · exact hquit
  | runFunctor => exact ⟨hquit, hphase⟩

section

variable {s s' : EventLoopThread F}

/-! ### The steps of the thread object -/

/-- What the steps of `Thread::start`, and of the beginning of the thread, leave of the object. -/
structure Keeps (t t' : Thread) : Prop where
  wellFormed : t'.WellFormed
  failed : t'.failed = none
  joined : t'.joined = t.joined
  destroyed : t'.destroyed = t.destroyed
  idle : t.owner = .idle → t'.owner = .idle ∧ t'.started = t.started ∧ t'.created = t.created
  running : t.runner = .running → t'.runner = .running
  finished : t.runner ≠ .finished → t'.runner ≠ .finished

theorem keeps_inner {t t' : Thread} {op : Thread.Op} (h : t.WellFormed) (hop : isInner op = true)
    (hstep : t.step op = some t') : Keeps t t' := by
  have ht' := Thread.wellFormed_step _ _ _ h hstep
  obtain ⟨hfailed, hmoves⟩ := Thread.step_moves hstep
  cases hmoves with
  | create howner =>
      have habsent := h.accounted.absent.2 (by simpa [howner] using h.accounted.created)
      exact ⟨ht', hfailed, rfl, rfl, by rw [howner]; nofun, by rw [habsent]; nofun, fun _ => nofun⟩
  | createFails howner | waited howner | assertTid howner =>
      exact ⟨ht', hfailed, rfl, rfl, by rw [howner]; nofun, id, id⟩
  | storeTid hrunner | counted hrunner =>
      exact ⟨ht', hfailed, rfl, rfl, fun howner => ⟨howner, rfl, rfl⟩, by rw [hrunner]; nofun,
        fun _ => nofun⟩
  | goOwner | goStarted | rouse =>
      exact ⟨ht', hfailed, rfl, rfl, fun howner => ⟨howner, rfl, rfl⟩, id, id⟩
  | assertFails => exact absurd rfl ht'.handshake.tidPositive
  | start | startTwice | finish | join | joinUnstarted | joinTwice | joined | destroy => cases hop

theorem CallerAt.keeps {caller : CallerPc} {t t' : Thread} (h : CallerAt caller t)
    (hkeeps : Keeps t t') : CallerAt caller t' := by
  cases caller with
  | idle =>
      obtain ⟨hstarted, howner, hlive⟩ := h
      obtain ⟨howner', hstarted', -⟩ := hkeeps.idle howner
      exact ⟨hstarted'.trans hstarted, howner', hkeeps.destroyed.trans hlive⟩
  | starting => exact ⟨hkeeps.joined.trans h.1, hkeeps.destroyed.trans h.2⟩
  | joining => trivial
  | gone =>
      obtain ⟨howner', -, hcreated⟩ := hkeeps.idle h.2
      exact ⟨hcreated.trans h.1, howner'⟩
  | locking | testing | waiting | leaving loop | returned loop =>
      obtain ⟨howner, hjoined, hlive⟩ := h
      exact ⟨(hkeeps.idle howner).1, hkeeps.joined.trans hjoined, hkeeps.destroyed.trans hlive⟩

theorem WellFormed.inner (h : s.WellFormed) {op : Thread.Op} {thread : Thread}
    (hinner : isInner op = true) (hthread : s.thread.step op = some thread) :
    WellFormed { s with thread := thread } := by
  have hkeeps := keeps_inner h.thread hinner hthread
  exact { h with
    thread := hkeeps.wellFormed
    assertions := ⟨hkeeps.failed, h.assertions.2⟩
    callerAt := h.callerAt.keeps hkeeps
    running := fun hfunc => hkeeps.running (h.running hfunc)
    notFinished := hkeeps.finished h.notFinished }

theorem WellFormed.startLoop (h : s.WellFormed) {thread : Thread} (hcaller : s.caller = .idle)
    (hthread : s.thread.step .start = some thread) :
    WellFormed { s with thread := thread, caller := .starting } := by
  have hat := h.callerAt
  rw [hcaller] at hat
  obtain ⟨hstarted, -, hlive⟩ := hat
  have hjoined : s.thread.joined = false := by
    by_contra hjoined
    rw [Bool.not_eq_false] at hjoined
    rw [(h.thread.accounted.joined hjoined).1] at hstarted
    cases hstarted
  have ht := Thread.wellFormed_step _ _ _ h.thread hthread
  obtain ⟨hfailed, hmoves⟩ := Thread.step_moves hthread
  cases hmoves with
  | startTwice hstarted' =>
      rw [hstarted] at hstarted'
      cases hstarted'
  | start =>
      refine { h with
        thread := ht
        assertions := ⟨hfailed, h.assertions.2⟩
        callerAt := ⟨hjoined, hlive⟩
        ownerInside := ?_
        waits := ?_
        result := nofun }
      · have hinside := h.ownerInside
        rw [hcaller] at hinside
        exact hinside
      · have hwaits := h.waits
        rw [hcaller] at hwaits
        exact hwaits.trans (iff_of_false nofun nofun)

/-- With a pointer published there is a thread, and the destructor waits for it. -/
theorem WellFormed.created (h : s.WellFormed) {loop : ℕ} (hloop : s.loop = some loop) :
    s.thread.runner = .running ∧ s.thread.created = 1 := by
  have hfunc : s.func ≠ .constructing := by
    intro hfunc
    have hpublished := h.loop
    rw [hfunc, hloop] at hpublished
    cases hpublished
  have hrunner := h.running hfunc
  refine ⟨hrunner, ?_⟩
  have hcreated : s.thread.created ≠ 0 := fun hzero => by
    rw [h.thread.accounted.absent.2 hzero] at hrunner
    cases hrunner
  have hone := h.thread.accounted.created
  split_ifs at hone with hstarted
  · exact hone
  · exact absurd hone hcreated

/-! ### The steps of the owner -/

/-- The owner goes to another place without the mutex. -/
theorem WellFormed.setCaller (h : s.WellFormed) {caller : CallerPc}
    (hinside : caller.inside = s.caller.inside) (hwaiting : s.caller ≠ .waiting)
    (hnot : caller ≠ .waiting) (hat : CallerAt caller s.thread)
    (hresult : ∀ loop, caller.result? = some loop → s.loop = some loop) :
    WellFormed { s with caller := caller } :=
  { h with
    callerAt := hat
    ownerInside := by rw [hinside]; exact h.ownerInside
    waits := iff_of_false (fun hc => hwaiting (h.waits.1 hc)) hnot
    result := hresult }

theorem WellFormed.lock (h : s.WellFormed) (hcaller : s.caller = .locking)
    (hfree : s.owner = none) :
    WellFormed { s with owner := some .owner, caller := .testing } := by
  have hat := h.callerAt
  have hstarted := h.startedInside
  rw [hcaller] at hat
  rw [hfree] at hstarted
  exact { h with
    callerAt := hat
    ownerInside := iff_of_true rfl rfl
    startedInside := iff_of_false nofun fun hin => by cases hstarted.2 hin
    waits := iff_of_false (fun hc => by cases hcaller.symm.trans (h.waits.1 hc)) nofun
    result := nofun }

theorem WellFormed.wait (h : s.WellFormed) (hcaller : s.caller = .testing)
    (hloop : s.loop = none) :
    WellFormed
      { s with owner := none, condition := s.condition.wait .owner, caller := .waiting } := by
  have hat := h.callerAt
  have howner := h.ownerInside
  have hstarted := h.startedInside
  rw [hcaller] at hat howner
  rw [howner.2 rfl] at hstarted
  exact { h with
    callerAt := hat
    ownerInside := iff_of_false nofun nofun
    startedInside := iff_of_false nofun fun hin => by cases hstarted.2 hin
    waits := iff_of_true (by simp [Condition.wait]) rfl
    startedAwake := by simpa [Condition.wait] using h.startedAwake
    woken := fun hne => absurd hloop hne
    result := nofun }

theorem WellFormed.resume (h : s.WellFormed) (hcaller : s.caller = .waiting)
    (hfree : s.owner = none) :
    WellFormed
      { s with
        owner := some .owner
        condition := s.condition.resume .owner
        caller := .testing } := by
  have hat := h.callerAt
  have hstarted := h.startedInside
  rw [hcaller] at hat
  rw [hfree] at hstarted
  exact { h with
    callerAt := hat
    ownerInside := iff_of_true rfl rfl
    startedInside := iff_of_false nofun fun hin => by cases hstarted.2 hin
    waits := iff_of_false (by simp [Condition.resume]) nofun
    startedAwake := by simpa [Condition.resume] using h.startedAwake
    woken := fun hne => (h.woken hne).imp_left fun hnone => hnone.resume .owner
    result := nofun }

theorem WellFormed.leave (h : s.WellFormed) {loop : ℕ} (hcaller : s.caller = .leaving loop) :
    WellFormed { s with owner := none, caller := .returned loop } := by
  have hat := h.callerAt
  have howner := h.ownerInside
  have hstarted := h.startedInside
  rw [hcaller] at hat howner
  rw [howner.2 rfl] at hstarted
  exact { h with
    callerAt := hat
    ownerInside := iff_of_false nofun nofun
    startedInside := iff_of_false nofun fun hin => by cases hstarted.2 hin
    waits := iff_of_false (fun hc => by cases hcaller.symm.trans (h.waits.1 hc)) nofun
    result := fun l hl => h.result l (by rw [hcaller]; exact hl) }

/-- The destructor comes to its end at once if `startLoop` has not been called. -/
theorem WellFormed.destroy (h : s.WellFormed) {thread : Thread}
    (hcaller : s.caller = .idle ∨ ∃ loop, s.caller = .returned loop) (hloop : s.loop = none)
    (hthread : s.thread.step .destroy = some thread) :
    WellFormed { s with exiting := true, thread := thread, caller := .gone } := by
  have hidle : s.caller = .idle := by
    refine hcaller.resolve_right ?_
    rintro ⟨loop, hreturned⟩
    have hresult := h.result loop (by rw [hreturned]; rfl)
    rw [hloop] at hresult
    cases hresult
  have hat := h.callerAt
  rw [hidle] at hat
  obtain ⟨hstarted, howner, -⟩ := hat
  have hcreated : s.thread.created = 0 := by simpa [hstarted] using h.thread.accounted.created
  have ht := Thread.wellFormed_step _ _ _ h.thread hthread
  have houtside := h.ownerInside
  rw [hidle] at houtside
  obtain ⟨hfailed, hmoves⟩ := Thread.step_moves hthread
  cases hmoves with
  | destroy =>
      exact { h with
        thread := ht
        assertions := ⟨hfailed, h.assertions.2⟩
        callerAt := ⟨hcreated, howner⟩
        ownerInside := houtside
        waits := iff_of_false (fun hc => by cases hidle.symm.trans (h.waits.1 hc)) nofun
        result := nofun }

/-- Behind `startLoop` the destructor waits for the thread. -/
theorem WellFormed.join (h : s.WellFormed) {loop : ℕ} {thread : Thread}
    (hcaller : s.caller = .idle ∨ ∃ loop, s.caller = .returned loop) (hloop : s.loop = some loop)
    (hthread : s.thread.step .join = some thread) :
    WellFormed { s with exiting := true, thread := thread, caller := .joining } := by
  obtain ⟨hrunner, hcreated⟩ := h.created hloop
  have hat := h.callerAt
  obtain ⟨l, hreturned⟩ : ∃ loop, s.caller = .returned loop := by
    refine hcaller.resolve_left fun hidle => ?_
    rw [hidle] at hat
    have hzero : s.thread.created = 0 := by simpa [hat.1] using h.thread.accounted.created
    rw [hcreated] at hzero
    cases hzero
  rw [hreturned] at hat
  have ht := Thread.wellFormed_step _ _ _ h.thread hthread
  have houtside := h.ownerInside
  rw [hreturned] at houtside
  obtain ⟨hfailed, hmoves⟩ := Thread.step_moves hthread
  cases hmoves with
  | join =>
      exact { h with
        thread := ht
        assertions := ⟨hfailed, h.assertions.2⟩
        callerAt := trivial
        ownerInside := houtside
        waits := iff_of_false (fun hc => by cases hreturned.symm.trans (h.waits.1 hc)) nofun
        result := nofun }
  | joinUnstarted hstarted =>
      have hzero : s.thread.created = 0 := by simpa [hstarted] using h.thread.accounted.created
      rw [hcreated] at hzero
      cases hzero
  | joinTwice hjoined =>
      rw [hat.2.1] at hjoined
      cases hjoined

theorem WellFormed.rouse (h : s.WellFormed) (hasleep : s.condition .owner = some .asleep) :
    WellFormed { s with condition := s.condition.rouse .owner } :=
  { h with
    waits := iff_of_true (by simp [Condition.rouse]) (h.waits.1 (by simp [hasleep]))
    startedAwake := by simpa [Condition.rouse] using h.startedAwake
    woken := fun hne => (h.woken hne).imp_left fun hnone => hnone.rouse .owner }

/-! ### The steps of the thread -/

/-- The thread goes on before it publishes its loop. -/
theorem WellFormed.setFunc (h : s.WellFormed) {f : FuncPc} {called : List ℕ}
    (hrunner : s.thread.runner = .running) (hinside : f.inside = s.func.inside)
    (hold : s.func.published? = none) (hnew : f.published? = none)
    (hcalled : called = if s.callback then f.ready?.toList else []) (halive : f.Alive s.callback) :
    WellFormed { s with func := f, called := called } := by
  have hloop : s.loop = none := h.loop.trans hold
  exact { h with
    running := fun _ => hrunner
    startedInside := by rw [hinside]; exact h.startedInside
    loop := hloop.trans hnew.symm
    woken := fun hne => absurd hloop hne
    called := hcalled
    alive := halive }

/-- The thread takes the mutex. -/
theorem WellFormed.lockFunc (h : s.WellFormed) {loop : ℕ} (hfunc : s.func = .locking loop)
    (hfree : s.owner = none) :
    WellFormed { s with owner := some .started, func := .publishing loop } := by
  have hloop : s.loop = none := by rw [h.loop, hfunc]; rfl
  have howner := h.ownerInside
  rw [hfree] at howner
  exact { h with
    running := fun _ => h.running (by rw [hfunc]; nofun)
    ownerInside := iff_of_false nofun fun hin => by cases howner.2 hin
    startedInside := iff_of_true rfl rfl
    loop := hloop
    woken := fun hne => absurd hloop hne
    called := by rw [h.called, hfunc]; rfl
    alive := ⟨nofun, nofun, nofun, nofun⟩ }

/-- **The loop is published**; the thread is about to notify. -/
theorem WellFormed.publish (h : s.WellFormed) {loop : ℕ} (hfunc : s.func = .publishing loop) :
    WellFormed { s with loop := some loop, func := .notifying loop } := by
  have hloop : s.loop = none := by rw [h.loop, hfunc]; rfl
  have hstarted := h.startedInside
  rw [hfunc] at hstarted
  refine { h with
    running := fun _ => h.running (by rw [hfunc]; nofun)
    startedInside := hstarted
    loop := rfl
    woken := fun _ => Or.inr ⟨loop, rfl⟩
    result := fun l hl => ?_
    called := by rw [h.called, hfunc]; rfl
    alive := ⟨nofun, nofun, nofun, nofun⟩ }
  have hresult := h.result l hl
  rw [hloop] at hresult
  cases hresult

/-- A signal wakes the owner, if it sleeps. -/
theorem noneAsleep_notify {c : Condition Party} {chosen : Finset Party}
    (hstarted : c .started = none) (hwakes : c.Wakes chosen) : (c.notify chosen).NoneAsleep := by
  intro p hp
  unfold Condition.notify at hp
  split_ifs at hp with hmem
  · cases hp
  · cases p with
    | started =>
        rw [hstarted] at hp
        cases hp
    | owner =>
        obtain ⟨q, hq⟩ := hwakes.2 ⟨.owner, hp⟩
        cases q with
        | owner => exact hmem hq
        | started =>
            have hasleep := hwakes.1 _ hq
            rw [hstarted] at hasleep
            cases hasleep

theorem WellFormed.notify (h : s.WellFormed) {loop : ℕ} {chosen : Finset Party}
    (hfunc : s.func = .notifying loop) (hwakes : s.condition.Wakes chosen) :
    WellFormed { s with condition := s.condition.notify chosen, func := .unlocking loop } := by
  have hstarted := h.startedInside
  rw [hfunc] at hstarted
  exact { h with
    running := fun _ => h.running (by rw [hfunc]; nofun)
    startedInside := hstarted
    waits := (not_congr (Condition.notify_eq_none_iff hwakes .owner)).trans h.waits
    startedAwake := (Condition.notify_eq_none_iff hwakes .started).2 h.startedAwake
    loop := by rw [h.loop, hfunc]; rfl
    woken := fun _ => Or.inl (noneAsleep_notify h.startedAwake hwakes)
    called := by rw [h.called, hfunc]; rfl
    alive := ⟨nofun, nofun, nofun, nofun⟩ }

theorem WellFormed.unlock (h : s.WellFormed) {loop : ℕ} (hfunc : s.func = .unlocking loop) :
    WellFormed { s with owner := none, func := .looping loop } := by
  have howner := h.ownerInside
  have hstarted := h.startedInside
  rw [hfunc] at hstarted
  rw [hstarted.2 rfl] at howner
  exact { h with
    running := fun _ => h.running (by rw [hfunc]; nofun)
    ownerInside := iff_of_false nofun fun hin => by cases howner.2 hin
    startedInside := iff_of_false nofun nofun
    loop := by rw [h.loop, hfunc]; rfl
    woken := fun hne => by
      refine Or.inl ((h.woken hne).resolve_right ?_)
      rintro ⟨l, hl⟩
      rw [hfunc] at hl
      cases hl
    called := by rw [h.called, hfunc]; rfl
    alive := ⟨nofun, nofun, nofun, nofun⟩ }

/-- **No step breaks the invariant.** -/
theorem wellFormed_step : Runs.Invariant (step (F := F)) WellFormed := by
  intro s op s' h hstep
  cases step_moves hstep with
  | startLoop hcaller hthread => exact h.startLoop hcaller hthread
  | startTwice hcaller hstarted =>
      have hat := h.callerAt
      rw [hcaller] at hat
      rw [hat.1] at hstarted
      cases hstarted
  | thread hinner hthread => exact h.inner hinner hthread
  | started hcaller hthread =>
      have hat := h.callerAt
      rw [hcaller] at hat
      exact h.setCaller (by rw [hcaller]; rfl) (by rw [hcaller]; nofun) nofun ⟨hthread, hat⟩ nofun
  | lock hcaller hfree => exact h.lock hcaller hfree
  | wait hcaller hloop => exact h.wait hcaller hloop
  | pass hcaller hloop =>
      have hat := h.callerAt
      rw [hcaller] at hat
      refine h.setCaller (by rw [hcaller]; rfl) (by rw [hcaller]; nofun) nofun hat ?_
      rintro l hl
      cases hl
      exact hloop
  | resume hcaller hfree hawake => exact h.resume hcaller hfree
  | leave hcaller => exact h.leave hcaller
  | joined hcaller hjoined hdestroy =>
      obtain ⟨-, hmoves⟩ := Thread.step_moves hjoined
      cases hmoves with
      | joined howner hrunner => exact absurd hrunner h.notFinished
  | rouse hasleep => exact h.rouse hasleep
  | @construct loop hfunc hrunner =>
      have hcalled := h.called
      rw [hfunc] at hcalled
      by_cases hcallback : s.callback = true
      · rw [if_pos hcallback] at hcalled ⊢
        exact h.setFunc (f := .calling loop) hrunner (by rw [hfunc]; rfl) (by rw [hfunc]; rfl)
          rfl (by rw [if_pos hcallback]; exact hcalled) ⟨nofun, nofun, nofun, fun _ _ => hcallback⟩
      · rw [if_neg hcallback] at hcalled ⊢
        exact h.setFunc (f := .locking loop) hrunner (by rw [hfunc]; rfl) (by rw [hfunc]; rfl)
          rfl (by rw [if_neg hcallback]; exact hcalled) ⟨nofun, nofun, nofun, nofun⟩
  | @callback loop hfunc =>
      have hcalled := h.called
      have hcallback := h.alive.2.2.2 loop hfunc
      rw [hfunc, if_pos hcallback] at hcalled
      refine h.setFunc (h.running (by rw [hfunc]; nofun)) (by rw [hfunc]; rfl) (by rw [hfunc]; rfl)
        rfl ?_ ⟨nofun, nofun, nofun, nofun⟩
      rw [hcalled, if_pos hcallback]
      rfl
  | lockFunc hfunc hfree => exact h.lockFunc hfunc hfree
  | publish hfunc => exact h.publish hfunc
  | notify hfunc hwakes => exact h.notify hfunc hwakes
  | unlock hfunc => exact h.unlock hfunc
  | loop hfunc hloop => exact { h with eventLoop := loop_runs h.eventLoop hloop }
  | loopReturns hfunc hphase => exact absurd hphase h.eventLoop.2
  | relock hfunc => exact absurd hfunc h.alive.1
  | clear hfunc => exact absurd hfunc h.alive.2.1
  | destroy hcaller hloop hthread => exact h.destroy hcaller hloop hthread
  | join hcaller hloop hthread => exact h.join hcaller hloop hthread

/-! ### What the owner may rely on -/

/-- No assertion fails.  What `startLoop` returns is the loop that the thread has published and that
is not taken back; the callback has returned from it, and was called for no other one.  While the
mutex is free, nobody sleeps once the loop is there.  The destructor comes to its end only if no
thread was created. -/
structure Sound (s : EventLoopThread F) : Prop where
  assertions : s.thread.failed = none ∧ s.failed = false
  returned : ∀ loop, s.caller = .returned loop → s.loop = some loop ∧
    s.func.published? = some loop ∧ s.thread.runner = .running ∧
      s.called = if s.callback then [loop] else []
  awake : s.owner = none → s.loop ≠ none → s.condition.NoneAsleep
  runs : s.eventLoop.phase ≠ .returned ∧ s.thread.runner ≠ .finished
  gone : s.caller = .gone → s.thread.created = 0

theorem ready_of_published {func : FuncPc} {loop : ℕ} (h : func.published? = some loop) :
    func.ready? = some loop := by
  cases func <;> first | exact h | cases h

/-- **The invariant has the loop handed over.** -/
theorem WellFormed.sound (h : s.WellFormed) : s.Sound where
  assertions := h.assertions
  returned loop hreturned := by
    have hloop := h.result loop (by rw [hreturned]; rfl)
    have hpublished := h.loop.symm.trans hloop
    refine ⟨hloop, hpublished, (h.created hloop).1, ?_⟩
    rw [h.called, ready_of_published hpublished]
    rfl
  awake hfree hloop := by
    refine (h.woken hloop).resolve_right ?_
    rintro ⟨l, hfunc⟩
    have howner := h.startedInside.2 (by rw [hfunc]; rfl)
    rw [hfree] at howner
    cases howner
  runs := ⟨h.eventLoop.2, h.notFinished⟩
  gone hgone := by
    have hat := h.callerAt
    rw [hgone] at hat
    exact hat.1

/-- **The loop is handed over** in every run, whatever the order of the steps. -/
theorem loopRuns_of_exec {callback : Bool} {ops : List (Op F)}
    (h : Runs.exec step (init callback) ops = some s) : s.Sound :=
  (Runs.exec_invariant wellFormed_step (wellFormed_init callback) h).sound

/-! ### `startLoop` returns -/

namespace CallerPc

/-- How many steps of its own the owner has before it, at most, before the loop is published and
behind that. -/
def weight (published : Bool) : CallerPc → Option Waiter → ℕ
  | .starting, _ => 9
  | .locking, _ => if published then 3 else 8
  | .testing, _ => if published then 2 else 7
  | .waiting, some .asleep => if published then 4 else 6
  | .waiting, _ => if published then 3 else 8
  | .leaving _, _ => 1
  | .joining, _ => 1
  | .idle, _ | .returned _, _ | .gone, _ => 0

theorem weight_true_le (caller : CallerPc) (w : Option Waiter) :
    caller.weight true w ≤ caller.weight false w := by
  cases caller with
  | waiting => rcases w with _ | _ | _ | _ <;> decide
  | _ => simp [weight]

theorem weight_notify_le (caller : CallerPc) {c : Condition Party} (chosen : Finset Party) :
    caller.weight true (c.notify chosen .owner) ≤ caller.weight true (c .owner) := by
  unfold Condition.notify
  split_ifs
  · cases caller with
    | waiting => rcases c .owner with _ | _ | _ | _ <;> decide
    | _ => simp [weight]
  · exact le_rfl

end CallerPc

/-- How many steps of its own the thread has before it until the loop runs. -/
def FuncPc.weight : FuncPc → ℕ
  | .constructing => 6
  | .calling _ => 5
  | .locking _ => 4
  | .publishing _ => 3
  | .notifying _ => 2
  | .unlocking _ => 1
  | .looping _ | .relocking | .clearing | .done => 0

/-- What is left to do of `startLoop`, and of `threadFunc` until the loop runs. -/
def rank (s : EventLoopThread F) : ℕ :=
  s.caller.weight s.loop.isSome (s.condition .owner) + s.func.weight + s.thread.rank

theorem rank_step (h : s.WellFormed) {op : Op F} (hop : op.isOwn = true)
    (hstep : s.step op = some s') : s'.rank < s.rank := by
  have hs' := wellFormed_step s op s' h hstep
  cases step_moves hstep with
  | thread hinner hthread =>
      have hlt := (Thread.rank_step hop hthread).resolve_right hs'.thread.handshake.tidPositive
      simp only [rank]
      omega
  | started hcaller | lock hcaller =>
      simp only [rank, hcaller]
      cases s.loop <;> simp [CallerPc.weight]
  | wait hcaller hloop | pass hcaller hloop =>
      simp only [rank, hcaller, hloop]
      simp [CallerPc.weight, Condition.wait]
  | resume hcaller hfree hawake =>
      simp only [rank, hcaller]
      rcases hawake with hw | hw <;> rw [hw] <;> cases s.loop <;> simp [CallerPc.weight]
  | leave hcaller =>
      simp only [rank, hcaller]
      simp [CallerPc.weight]
  | joined hcaller hjoined =>
      obtain ⟨-, hmoves⟩ := Thread.step_moves hjoined
      cases hmoves with
      | joined howner hrunner => exact absurd hrunner h.notFinished
  | construct hfunc =>
      simp only [rank, hfunc]
      split_ifs <;> simp [FuncPc.weight]
  | callback hfunc | lockFunc hfunc | unlock hfunc =>
      simp only [rank, hfunc]
      simp [FuncPc.weight]
  | @publish loop hfunc =>
      have hloop : s.loop = none := by rw [h.loop, hfunc]; rfl
      have hle := s.caller.weight_true_le (s.condition .owner)
      simp only [rank, hfunc, hloop, FuncPc.weight, Option.isSome_none, Option.isSome_some]
      omega
  | @notify loop chosen hfunc hwakes =>
      have hloop : s.loop = some loop := by rw [h.loop, hfunc]; rfl
      have hle := s.caller.weight_notify_le (c := s.condition) chosen
      simp only [rank, hfunc, hloop, FuncPc.weight, Option.isSome_some]
      omega
  | loopReturns hfunc hphase => exact absurd hphase h.eventLoop.2
  | relock hfunc => exact absurd hfunc h.alive.1
  | clear hfunc => exact absurd hfunc h.alive.2.1
  | startLoop | startTwice | rouse | loop | destroy | join => cases hop

/-- Where nothing can go on, a thread that was created has come to its function. -/
theorem running_of_stuck (h : s.WellFormed)
    (hstuck : ∀ op : Op F, op.isOwn = true → s.step op = none) (hcreated : s.thread.created ≠ 0) :
    s.thread.runner = .running ∧ (s.thread.owner = .idle ∨ s.thread.owner = .joining) := by
  have hthread : ∀ op : Thread.Op, op.isOwn = true → s.thread.step op = none := by
    intro op hop
    have hinner : isInner op = true := by
      cases op with
      | create | storeTid | latch | waited | counted | assertTid => rfl
      | start | finish | join | joined | destroy => cases hop
    have hnone := hstuck (.thread op) hop
    simp only [step, if_pos hinner, threadStep, Option.map_eq_none_iff] at hnone
    exact hnone
  have howner := Thread.returned_of_stuck h.thread h.assertions.1 hthread
  have hpast : s.thread.owner ≠ .waiting ∧ s.thread.owner ≠ .creating := by
    rcases howner with howner | howner <;> rw [howner] <;> exact ⟨nofun, nofun⟩
  have hstarted : s.thread.started = true := by
    by_contra hnot
    exact hcreated (by simpa [hnot] using h.thread.accounted.created)
  obtain ⟨-, hstored, hdone⟩ := h.thread.handshake.handedOver h.thread.accounted hstarted hpast
  refine ⟨?_, howner⟩
  cases hrunner : s.thread.runner with
  | running => rfl
  | absent => exact absurd (h.thread.accounted.absent.1 hrunner) hcreated
  | storing => exact absurd hrunner hstored
  | finished => exact absurd hrunner h.notFinished
  | counting =>
      have hnone := Thread.not_stuck h.assertions.1 hthread (a := .counted) rfl
      rw [Thread.next, if_pos ⟨hrunner, hdone.outside⟩] at hnone
      cases hnone

/-- Where nothing can go on, nobody has the mutex. -/
theorem free_of_stuck (h : s.WellFormed)
    (hstuck : ∀ op : Op F, op.isOwn = true → s.step op = none) : s.owner = none := by
  have hcaller := hstuck .caller rfl
  have hfunc := hstuck .func rfl
  simp only [step] at hcaller hfunc
  cases howner : s.owner with
  | none => rfl
  | some p =>
      cases p with
      | owner =>
          have hinside := h.ownerInside.1 howner
          cases hpc : s.caller with
          | testing =>
              rw [hpc, goCaller] at hcaller
              split at hcaller <;> cases hcaller
          | leaving loop =>
              rw [hpc] at hcaller
              cases hcaller
          | idle | starting | locking | waiting | returned loop | joining | gone =>
              rw [hpc] at hinside
              cases hinside
      | started =>
          have hinside := h.startedInside.1 howner
          cases hpc : s.func with
          | publishing loop | unlocking loop =>
              rw [hpc] at hfunc
              cases hfunc
          | notifying loop =>
              obtain ⟨chosen, hwakes⟩ := s.condition.exists_wakes
              have hnone := hstuck (.notify chosen) rfl
              simp only [step, hpc, if_pos hwakes] at hnone
              cases hnone
          | clearing => exact absurd hpc h.alive.2.1
          | constructing | calling loop | locking loop | looping loop | relocking | done =>
              rw [hpc] at hinside
              cases hinside

/-- Where nothing can go on, the loop of a thread that was created runs. -/
theorem looping_of_stuck (h : s.WellFormed)
    (hstuck : ∀ op : Op F, op.isOwn = true → s.step op = none) (hcreated : s.thread.created ≠ 0) :
    ∃ loop, s.func = .looping loop := by
  have hrunner := (running_of_stuck h hstuck hcreated).1
  have hfree := free_of_stuck h hstuck
  have hnone := hstuck .func rfl
  simp only [step] at hnone
  cases hfunc : s.func with
  | looping loop => exact ⟨loop, rfl⟩
  | constructing =>
      have hconstruct := hstuck (.construct 0) rfl
      rw [step, if_pos ⟨hfunc, hrunner⟩] at hconstruct
      cases hconstruct
  | calling loop =>
      rw [hfunc] at hnone
      cases hnone
  | locking loop =>
      rw [hfunc, goFunc, if_pos hfree] at hnone
      cases hnone
  | publishing loop | notifying loop | unlocking loop =>
      have howner := h.startedInside.2 (by rw [hfunc]; rfl)
      rw [hfree] at howner
      cases howner
  | relocking => exact absurd hfunc h.alive.1
  | clearing => exact absurd hfunc h.alive.2.1
  | done => exact absurd hfunc h.alive.2.2.1

/-- The call of `startLoop` has returned the loop that runs; or it cannot, as there is no thread. -/
def Settled (s : EventLoopThread F) : Prop :=
  s.thread.created = 0 ∨ s.caller = .joining ∨
    ∃ loop, s.caller = .returned loop ∧ s.func = .looping loop

/-- **Where nothing can go on, `startLoop` has returned**, if there is a thread. -/
theorem settled_of_stuck (h : s.WellFormed)
    (hstuck : ∀ op : Op F, op.isOwn = true → s.step op = none) : s.Settled := by
  by_cases hcreated : s.thread.created = 0
  · exact Or.inl hcreated
  · refine Or.inr ?_
    obtain ⟨loop, hfunc⟩ := looping_of_stuck h hstuck hcreated
    have hloop : s.loop = some loop := by rw [h.loop, hfunc]; rfl
    have hfree := free_of_stuck h hstuck
    have hat := h.callerAt
    have hnone := hstuck .caller rfl
    simp only [step] at hnone
    cases hcaller : s.caller with
    | joining => exact Or.inl rfl
    | returned l =>
        have hresult := h.result l (by rw [hcaller]; rfl)
        rw [hloop, Option.some_inj] at hresult
        exact Or.inr ⟨l, rfl, hresult ▸ hfunc⟩
    | idle =>
        rw [hcaller] at hat
        exact absurd (by simpa [hat.1] using h.thread.accounted.created) hcreated
    | gone =>
        rw [hcaller] at hat
        exact absurd hat.1 hcreated
    | starting =>
        rw [hcaller] at hat
        have howner := (running_of_stuck h hstuck hcreated).2.resolve_right fun hjoining => by
          have hjoined := hat.1
          rw [h.thread.accounted.joining hjoining] at hjoined
          cases hjoined
        rw [hcaller, goCaller, if_pos howner] at hnone
        cases hnone
    | locking =>
        rw [hcaller, goCaller, if_pos hfree] at hnone
        cases hnone
    | testing =>
        have howner := h.ownerInside.2 (by rw [hcaller]; rfl)
        rw [hfree] at howner
        cases howner
    | leaving l =>
        have howner := h.ownerInside.2 (by rw [hcaller]; rfl)
        rw [hfree] at howner
        cases howner
    | waiting =>
        -- the loop has been published, so the owner has been woken
        have hawake : s.condition.Awake .owner := by
          have hwaits := h.waits.2 hcaller
          have hasleep := h.sound.awake hfree (by rw [hloop]; nofun) .owner
          rcases hw : s.condition .owner with _ | _ | _ | _
          · exact absurd hw hwaits
          · exact absurd hw hasleep
          · exact Or.inl hw
          · exact Or.inr hw
        rw [hcaller, goCaller, if_pos ⟨hfree, hawake⟩] at hnone
        cases hnone

/-- **`startLoop` returns.**  From every state of every run, a bounded number of steps is left until
the loop runs, if nobody wakes for no reason any more and the callback returns; and where none can
be taken, `startLoop` has returned the loop that runs, if the thread was created. -/
theorem startLoopReturns_of_exec {callback : Bool} {ops : List (Op F)}
    (h : Runs.exec step (init callback) ops = some s) :
    Runs.Settles (Runs.only step Op.isOwn) Settled s.rank s := by
  have hs := Runs.exec_invariant wellFormed_step (wellFormed_init callback) h
  refine Runs.settles_of_rank (I := WellFormed) wellFormed_step.only ?_ ?_ hs
  · intro s op s' h hstep
    obtain ⟨hop, hstep⟩ := Runs.only_eq_some.1 hstep
    exact rank_step h hop hstep
  · intro s h hstuck
    exact settled_of_stuck h fun op => Runs.stuck_only hstuck

/-- `startLoop` sleeps before the thread has made its loop, and is woken behind the callback. -/
def demoOps : List (Op Unit) :=
  [.startLoop, .thread (.create true), .thread (.storeTid 7), .thread (.latch (.go .started)),
    .thread (.latch (.go .started)), .thread (.latch (.go .started)),
    .thread (.latch (.go .started)), .thread .counted, .thread (.latch (.go .owner)),
    .thread (.latch (.go .owner)), .thread (.latch (.go .owner)), .thread .waited,
    .thread .assertTid, .caller, .caller, .caller, .construct 40, .func, .func, .func,
    .notify {.owner}, .func, .caller, .caller, .caller]

theorem loopRuns_of_exec_demoOps :
    ∃ s : EventLoopThread Unit, Runs.exec step (init true) demoOps = some s ∧
      s.caller = .returned 40 ∧ s.called = [40] ∧ s.Sound := by
  have hdemo : (Runs.exec step (init true : EventLoopThread Unit) demoOps).map
      (fun s => (s.caller, s.called)) = some (.returned 40, [40]) := by
    decide +kernel
  obtain ⟨s, hs, hview⟩ := Option.map_eq_some_iff.1 hdemo
  obtain ⟨hcaller, hcalled⟩ := Prod.mk.inj hview
  exact ⟨s, hs, hcaller, hcalled, loopRuns_of_exec hs⟩

/-- The theorem where `startLoop` sleeps. -/
theorem startLoopReturns_of_exec_demoOps :
    ∃ s : EventLoopThread Unit, Runs.exec step (init true) (demoOps.take 16) = some s ∧
      s.caller = .waiting ∧ Runs.Settles (Runs.only step Op.isOwn) Settled s.rank s := by
  have hdemo : (Runs.exec step (init true : EventLoopThread Unit) (demoOps.take 16)).map
      (·.caller) = some .waiting := by
    decide +kernel
  obtain ⟨s, hs, hcaller⟩ := Option.map_eq_some_iff.1 hdemo
  exact ⟨s, hs, hcaller, startLoopReturns_of_exec hs⟩

end

end EventLoopThread

end G5
