/-
**The thread pool** (`src/base/ThreadPool.h`, `ThreadPool.cc`).

Any number of threads put tasks into a queue with `run`, worker threads take them out and execute
them, and `stop` ends the workers.  One mutex protects the queue; producers wait for room on one
condition variable and workers for a task on another.

The thread that has the mutex goes through its section step by step, while the others do what they
can without the mutex: they call `run`, wake up, execute tasks, and test `running_` in the loop of
`runInThread`, which reads it without the mutex.

A task may itself call `run`.  The worker that executes it is then a producer too: `caller` says
which worker's thread a producer is, if it is one.  Such a producer calls `run` only while its
worker executes a task, and the task does not end before the call has returned.  A task that throws
ends the process, and is not modelled; no task calls `stop`.

Beside the data of the source, the state records the tasks pushed, taken and executed, and the calls
of `run` that have returned, for the statements only.

Main definitions:

* `ThreadPool` — the pool, its threads, and the records;
* `ThreadPool.isFull`, `goRun`, `goTake`, `goStop` — the sections under the mutex;
* `ThreadPool.next`, `ThreadPool.step` — the runs;
* `ThreadPool.Moves` — the steps again, each with what holds before it.

Main results:

* `ThreadPool.step_moves` — **every step is one of these**.
-/

import G5.Lib.ConditionVariable
import G5.Lib.Runs
import Mathlib.Data.Fintype.Card

set_option relaxedAutoImplicit false
set_option autoImplicit false

namespace G5

namespace ThreadPool

/-- Where `run` is, while it has the mutex. -/
inductive RunPc
  /-- at the test of `while(isFull() && running_)` -/
  | testing
  /-- at `if(!running_) return` -/
  | checking
  /-- at `assert(!isFull())` -/
  | asserting
  /-- at `notEmpty_.notify()` -/
  | notifying
  | unlocking
  deriving DecidableEq, Repr

/-- Where `take` is, while it has the mutex. -/
inductive TakePc
  /-- at the test of `while(queue_.empty() && running_)` -/
  | testing
  /-- at `if(!queue_.empty())` -/
  | popping
  /-- at `notFull_.notify()` -/
  | notifying
  | unlocking
  deriving DecidableEq, Repr

/-- Where `stop` is, while it has the mutex. -/
inductive StopPc
  | clearing
  | notifyingEmpty
  | notifyingFull
  | unlocking
  deriving DecidableEq, Repr

/-- Who has the mutex. -/
inductive Holder (ω π : Type)
  | free
  | run (p : π) (pc : RunPc)
  | take (w : ω) (pc : TakePc)
  | stop (pc : StopPc)
  deriving DecidableEq, Repr

/-- A thread that calls `run`. -/
inductive Producer (T : Type)
  | idle
  /-- about to take the mutex -/
  | locking (task : T)
  /-- with the mutex or waiting for room; how often the call has pushed its task -/
  | inside (task : T) (pushes : ℕ)
  deriving DecidableEq, Repr

def Producer.isIdle {T : Type} : Producer T → Bool
  | .idle => true
  | _ => false

/-- A thread in `runInThread`; the task is the variable of `take` and of the loop. -/
inductive Worker (T : Type)
  | starting
  /-- at the test of `while(running_)` -/
  | looping
  /-- about to take the mutex -/
  | locking
  /-- with the mutex or waiting for a task -/
  | inside (task : Option T)
  /-- back from `take` -/
  | holding (task : Option T)
  | executing (task : T)
  | finished
  deriving DecidableEq, Repr

def Worker.isExecuting {T : Type} : Worker T → Bool
  | .executing _ => true
  | _ => false

def Worker.isFinished {T : Type} : Worker T → Bool
  | .finished => true
  | _ => false

/-- The thread that calls `stop`. -/
inductive Stopper
  | ready
  | locking
  | inside
  | joining
  | stopped
  deriving DecidableEq, Repr

/-- A call of `run` that has returned: how often it has pushed its task, and `running_` at the end
of its section. -/
structure Return (T : Type) where
  task : T
  pushes : ℕ
  running : Bool
  deriving DecidableEq, Repr

end ThreadPool

/-- The pool with its workers and producers; the last four fields record what has happened. -/
structure ThreadPool (ω π T : Type) where
  maxQueueSize : ℕ
  running : Bool
  queue : List T
  holder : ThreadPool.Holder ω π
  notEmpty : Condition ω
  notFull : Condition π
  workers : ω → ThreadPool.Worker T
  producers : π → ThreadPool.Producer T
  stopper : ThreadPool.Stopper
  /-- an assertion has failed -/
  failed : Bool
  pushed : List T
  taken : List (ω × T)
  executed : List (ω × T)
  returned : List (ThreadPool.Return T)

namespace ThreadPool

/-- What may happen next. -/
inductive Op (ω π T : Type)
  /-- a thread calls `run` -/
  | run (p : π) (task : T)
  | lockRun (p : π)
  /-- `notFull_.wait()` returns -/
  | resumeRun (p : π)
  | rouseRun (p : π)
  /-- the worker has called `threadInitCallback_` -/
  | start (w : ω)
  /-- the test of `while(running_)` -/
  | loop (w : ω)
  | lockTake (w : ω)
  /-- `notEmpty_.wait()` returns -/
  | resumeTake (w : ω)
  | rouseTake (w : ω)
  /-- the test of `if(task)`, and the call -/
  | callTask (w : ω)
  | taskDone (w : ω)
  | stop
  | lockStop
  /-- every thread has been joined -/
  | join
  /-- the thread that has the mutex takes its next step -/
  | go
  /-- the next step is `notEmpty_.notify()`, which wakes these workers -/
  | notifyWorkers (chosen : Finset ω)
  /-- the next step is `notFull_.notify()`, which wakes these producers -/
  | notifyProducers (chosen : Finset π)

variable {ω π T : Type}

/-! ### The sections under the mutex -/

def isFull (s : ThreadPool ω π T) : Bool :=
  0 < s.maxQueueSize && s.maxQueueSize ≤ s.queue.length

section

variable [DecidableEq ω] [DecidableEq π]

def setWorker (s : ThreadPool ω π T) (w : ω) (worker : Worker T) : ThreadPool ω π T :=
  { s with workers := Function.update s.workers w worker }

def setProducer (s : ThreadPool ω π T) (p : π) (producer : Producer T) : ThreadPool ω π T :=
  { s with producers := Function.update s.producers p producer }

/-- `run`, but for `notify`. -/
def goRun (s : ThreadPool ω π T) (p : π) : RunPc → Option (ThreadPool ω π T)
  | .testing =>
      if s.isFull && s.running then
        some { s with notFull := s.notFull.wait p, holder := .free }
      else
        some { s with holder := .run p .checking }
  | .checking =>
      if s.running then some { s with holder := .run p .asserting }
      else some { s with holder := .run p .unlocking }
  | .asserting =>
      match s.producers p with
      | .inside task pushes =>
          if s.isFull then
            some { s with failed := true }
          else
            some ({ s with
              queue := s.queue ++ [task]
              pushed := s.pushed ++ [task]
              holder := .run p .notifying }.setProducer p (.inside task (pushes + 1)))
      | _ => none
  | .notifying => none
  | .unlocking =>
      match s.producers p with
      | .inside task pushes =>
          let call : Return T := ⟨task, pushes, s.running⟩
          some ({ s with holder := .free, returned := s.returned ++ [call] }.setProducer p .idle)
      | _ => none

/-- `take`, but for `notify`. -/
def goTake (s : ThreadPool ω π T) (w : ω) : TakePc → Option (ThreadPool ω π T)
  | .testing =>
      if s.queue.isEmpty && s.running then
        some { s with notEmpty := s.notEmpty.wait w, holder := .free }
      else
        some { s with holder := .take w .popping }
  | .popping =>
      match s.queue with
      | [] => some { s with holder := .take w .unlocking }
      | task :: queue =>
          some ({ s with
            queue := queue
            taken := s.taken ++ [(w, task)]
            holder := .take w (if 0 < s.maxQueueSize then .notifying else .unlocking) }.setWorker w
              (.inside (some task)))
  | .notifying => none
  | .unlocking =>
      match s.workers w with
      | .inside task => some ({ s with holder := .free }.setWorker w (.holding task))
      | _ => none

end

/-- `stop`, up to the joins. -/
def goStop (s : ThreadPool ω π T) : StopPc → ThreadPool ω π T
  | .clearing => { s with running := false, holder := .stop .notifyingEmpty }
  | .notifyingEmpty => { s with notEmpty := s.notEmpty.notifyAll, holder := .stop .notifyingFull }
  | .notifyingFull => { s with notFull := s.notFull.notifyAll, holder := .stop .unlocking }
  | .unlocking => { s with holder := .free, stopper := .joining }

/-! ### The runs -/

/-- The pool after `setMaxQueueSize` and `start`. -/
def init (maxQueueSize : ℕ) : ThreadPool ω π T where
  maxQueueSize := maxQueueSize
  running := true
  queue := []
  holder := .free
  notEmpty := .empty
  notFull := .empty
  workers := fun _ => .starting
  producers := fun _ => .idle
  stopper := .ready
  failed := false
  pushed := []
  taken := []
  executed := []
  returned := []

section

variable [Fintype ω] [DecidableEq ω] [Fintype π] [DecidableEq π]

/-- No call of `run` is under way in the thread of the worker. -/
def noNestedRun (caller : π → Option ω) (s : ThreadPool ω π T) (w : ω) : Bool :=
  decide (∀ p, caller p = some w → (s.producers p).isIdle = true)

/-- The thread can call `run`: it is no worker's, or the worker's task makes the call. -/
def mayRun (caller : π → Option ω) (s : ThreadPool ω π T) (p : π) : Bool :=
  match caller p with
  | none => true
  | some w => (s.workers w).isExecuting && s.noNestedRun caller w

/-- What happens next, as long as no assertion has failed. -/
def next (caller : π → Option ω) (s : ThreadPool ω π T) :
    Op ω π T → Option (ThreadPool ω π T)
  | .run p task =>
      match s.producers p with
      | .idle =>
          if s.mayRun caller p then
            -- without workers the caller executes the task itself
            some (if Fintype.card ω = 0 then s else s.setProducer p (.locking task))
          else none
      | _ => none
  | .lockRun p =>
      match s.producers p, s.holder with
      | .locking task, .free =>
          some ({ s with holder := .run p .testing }.setProducer p (.inside task 0))
      | _, _ => none
  | .resumeRun p =>
      if s.notFull.Awake p ∧ s.holder = .free then
        some { s with notFull := s.notFull.resume p, holder := .run p .testing }
      else none
  | .rouseRun p =>
      if s.notFull p = some .asleep then some { s with notFull := s.notFull.rouse p } else none
  | .start w =>
      match s.workers w with
      | .starting => some (s.setWorker w .looping)
      | _ => none
  | .loop w =>
      match s.workers w with
      | .looping => some (s.setWorker w (if s.running then .locking else .finished))
      | _ => none
  | .lockTake w =>
      match s.workers w, s.holder with
      | .locking, .free =>
          some ({ s with holder := .take w .testing }.setWorker w (.inside none))
      | _, _ => none
  | .resumeTake w =>
      if s.notEmpty.Awake w ∧ s.holder = .free then
        some { s with notEmpty := s.notEmpty.resume w, holder := .take w .testing }
      else none
  | .rouseTake w =>
      if s.notEmpty w = some .asleep then some { s with notEmpty := s.notEmpty.rouse w } else none
  | .callTask w =>
      match s.workers w with
      | .holding (some task) =>
          some ({ s with executed := s.executed ++ [(w, task)] }.setWorker w (.executing task))
      | .holding none => some (s.setWorker w .looping)
      | _ => none
  | .taskDone w =>
      match s.workers w with
      | .executing _ => if s.noNestedRun caller w then some (s.setWorker w .looping) else none
      | _ => none
  | .stop => if s.stopper = .ready then some { s with stopper := .locking } else none
  | .lockStop =>
      if s.stopper = .locking ∧ s.holder = .free then
        some { s with stopper := .inside, holder := .stop .clearing }
      else none
  | .join =>
      if s.stopper = .joining ∧ ∀ w, (s.workers w).isFinished then
        some { s with stopper := .stopped }
      else none
  | .go =>
      match s.holder with
      | .free => none
      | .run p pc => s.goRun p pc
      | .take w pc => s.goTake w pc
      | .stop pc => some (s.goStop pc)
  | .notifyWorkers chosen =>
      match s.holder with
      | .run p .notifying =>
          if s.notEmpty.Wakes chosen then
            some { s with notEmpty := s.notEmpty.notify chosen, holder := .run p .unlocking }
          else none
      | _ => none
  | .notifyProducers chosen =>
      match s.holder with
      | .take w .notifying =>
          if s.notFull.Wakes chosen then
            some { s with notFull := s.notFull.notify chosen, holder := .take w .unlocking }
          else none
      | _ => none

/-- One step. -/
def step (caller : π → Option ω) (s : ThreadPool ω π T) (op : Op ω π T) :
    Option (ThreadPool ω π T) :=
  if s.failed then none else s.next caller op

/-! ### What a step can do -/

/-- The steps, each with what holds before it. -/
inductive Moves (s : ThreadPool ω π T) : ThreadPool ω π T → Prop
  | inline : Fintype.card ω = 0 → Moves s s
  | run (p : π) (task : T) : s.producers p = .idle → Moves s (s.setProducer p (.locking task))
  | lockRun (p : π) (task : T) : s.producers p = .locking task → s.holder = .free →
      Moves s ({ s with holder := .run p .testing }.setProducer p (.inside task 0))
  | resumeRun (p : π) : s.notFull.Awake p → s.holder = .free →
      Moves s { s with notFull := s.notFull.resume p, holder := .run p .testing }
  | rouseRun (p : π) : s.notFull p = some .asleep →
      Moves s { s with notFull := s.notFull.rouse p }
  | start (w : ω) : s.workers w = .starting → Moves s (s.setWorker w .looping)
  | loop (w : ω) : s.workers w = .looping →
      Moves s (s.setWorker w (if s.running then .locking else .finished))
  | lockTake (w : ω) : s.workers w = .locking → s.holder = .free →
      Moves s ({ s with holder := .take w .testing }.setWorker w (.inside none))
  | resumeTake (w : ω) : s.notEmpty.Awake w → s.holder = .free →
      Moves s { s with notEmpty := s.notEmpty.resume w, holder := .take w .testing }
  | rouseTake (w : ω) : s.notEmpty w = some .asleep →
      Moves s { s with notEmpty := s.notEmpty.rouse w }
  | callTask (w : ω) (task : T) : s.workers w = .holding (some task) →
      Moves s ({ s with executed := s.executed ++ [(w, task)] }.setWorker w (.executing task))
  | callNone (w : ω) : s.workers w = .holding none → Moves s (s.setWorker w .looping)
  | taskDone (w : ω) (task : T) : s.workers w = .executing task → Moves s (s.setWorker w .looping)
  | stop : s.stopper = .ready → Moves s { s with stopper := .locking }
  | lockStop : s.stopper = .locking → s.holder = .free →
      Moves s { s with stopper := .inside, holder := .stop .clearing }
  | join : s.stopper = .joining → (∀ w, (s.workers w).isFinished) →
      Moves s { s with stopper := .stopped }
  /-- `run` waits for room -/
  | waitFull (p : π) : s.holder = .run p .testing → s.isFull = true → s.running = true →
      Moves s { s with notFull := s.notFull.wait p, holder := .free }
  | leaveFull (p : π) : s.holder = .run p .testing → s.isFull = false ∨ s.running = false →
      Moves s { s with holder := .run p .checking }
  | checkRunning (p : π) : s.holder = .run p .checking → s.running = true →
      Moves s { s with holder := .run p .asserting }
  | checkStopped (p : π) : s.holder = .run p .checking → s.running = false →
      Moves s { s with holder := .run p .unlocking }
  | assertFails (p : π) : s.holder = .run p .asserting → s.isFull = true →
      Moves s { s with failed := true }
  | push (p : π) (task : T) (pushes : ℕ) : s.holder = .run p .asserting →
      s.producers p = .inside task pushes → s.isFull = false →
      Moves s ({ s with
        queue := s.queue ++ [task]
        pushed := s.pushed ++ [task]
        holder := .run p .notifying }.setProducer p (.inside task (pushes + 1)))
  | notifyWorkers (p : π) (chosen : Finset ω) : s.holder = .run p .notifying →
      s.notEmpty.Wakes chosen →
      Moves s { s with notEmpty := s.notEmpty.notify chosen, holder := .run p .unlocking }
  | unlockRun (p : π) (task : T) (pushes : ℕ) : s.holder = .run p .unlocking →
      s.producers p = .inside task pushes →
      Moves s ({ s with
        holder := .free
        returned := s.returned ++ [(⟨task, pushes, s.running⟩ : Return T)] }.setProducer p .idle)
  /-- `take` waits for a task -/
  | waitEmpty (w : ω) : s.holder = .take w .testing → s.queue = [] → s.running = true →
      Moves s { s with notEmpty := s.notEmpty.wait w, holder := .free }
  | leaveEmpty (w : ω) : s.holder = .take w .testing → s.queue ≠ [] ∨ s.running = false →
      Moves s { s with holder := .take w .popping }
  | popNone (w : ω) : s.holder = .take w .popping → s.queue = [] →
      Moves s { s with holder := .take w .unlocking }
  | pop (w : ω) (task : T) (queue : List T) : s.holder = .take w .popping →
      s.queue = task :: queue →
      Moves s ({ s with
        queue := queue
        taken := s.taken ++ [(w, task)]
        holder := .take w (if 0 < s.maxQueueSize then .notifying else .unlocking) }.setWorker w
          (.inside (some task)))
  | notifyProducers (w : ω) (chosen : Finset π) : s.holder = .take w .notifying →
      s.notFull.Wakes chosen →
      Moves s { s with notFull := s.notFull.notify chosen, holder := .take w .unlocking }
  | unlockTake (w : ω) (task : Option T) : s.holder = .take w .unlocking →
      s.workers w = .inside task → Moves s ({ s with holder := .free }.setWorker w (.holding task))
  | goStop (pc : StopPc) : s.holder = .stop pc → Moves s (s.goStop pc)

omit [Fintype π] in
theorem goRun_moves {s t : ThreadPool ω π T} {p : π} {pc : RunPc} (hholder : s.holder = .run p pc)
    (h : s.goRun p pc = some t) : Moves s t := by
  cases pc with
  | testing =>
      simp only [goRun] at h
      split_ifs at h with hwait
      · obtain rfl := Option.some.inj h
        rw [Bool.and_eq_true] at hwait
        exact .waitFull p hholder hwait.1 hwait.2
      · obtain rfl := Option.some.inj h
        rw [Bool.and_eq_true, not_and_or, Bool.not_eq_true, Bool.not_eq_true] at hwait
        exact .leaveFull p hholder hwait
  | checking =>
      simp only [goRun] at h
      split_ifs at h with hrunning
      · obtain rfl := Option.some.inj h
        exact .checkRunning p hholder hrunning
      · obtain rfl := Option.some.inj h
        exact .checkStopped p hholder (Bool.not_eq_true _ ▸ hrunning)
  | asserting =>
      simp only [goRun] at h
      split at h
      · rename_i task pushes hproducer
        split_ifs at h with hfull
        · obtain rfl := Option.some.inj h
          exact .assertFails p hholder hfull
        · obtain rfl := Option.some.inj h
          exact .push p task pushes hholder hproducer (Bool.eq_false_iff.2 hfull)
      · cases h
  | notifying => cases h
  | unlocking =>
      simp only [goRun] at h
      split at h
      · rename_i task pushes hproducer
        obtain rfl := Option.some.inj h
        exact .unlockRun p task pushes hholder hproducer
      · cases h

omit [Fintype π] in
theorem goTake_moves {s t : ThreadPool ω π T} {w : ω} {pc : TakePc}
    (hholder : s.holder = .take w pc) (h : s.goTake w pc = some t) : Moves s t := by
  cases pc with
  | testing =>
      simp only [goTake] at h
      split_ifs at h with hwait
      · obtain rfl := Option.some.inj h
        rw [Bool.and_eq_true, List.isEmpty_iff] at hwait
        exact .waitEmpty w hholder hwait.1 hwait.2
      · obtain rfl := Option.some.inj h
        rw [Bool.and_eq_true, List.isEmpty_iff, not_and_or, Bool.not_eq_true] at hwait
        exact .leaveEmpty w hholder hwait
  | popping =>
      simp only [goTake] at h
      split at h
      · obtain rfl := Option.some.inj h
        exact .popNone w hholder ‹_›
      · obtain rfl := Option.some.inj h
        exact .pop w _ _ hholder ‹_›
  | notifying => cases h
  | unlocking =>
      simp only [goTake] at h
      split at h
      · rename_i task hworker
        obtain rfl := Option.some.inj h
        exact .unlockTake w task hholder hworker
      · cases h

/-- **Every step is one of these.** -/
theorem step_moves {caller : π → Option ω} {s t : ThreadPool ω π T} {op : Op ω π T}
    (h : s.step caller op = some t) : s.failed = false ∧ Moves s t := by
  unfold step at h
  split_ifs at h with hfailed
  refine ⟨Bool.eq_false_iff.2 hfailed, ?_⟩
  cases op with
  | run p task =>
      simp only [next] at h
      split at h
      · rw [Option.ite_none_right_eq_some, Option.some.injEq] at h
        obtain ⟨-, rfl⟩ := h
        split_ifs with hcard
        · exact .inline hcard
        · exact .run p task ‹_›
      · cases h
  | lockRun p =>
      simp only [next] at h
      split at h
      · obtain rfl := Option.some.inj h
        exact .lockRun p _ ‹_› ‹_›
      · cases h
  | resumeRun p =>
      simp only [next, Option.ite_none_right_eq_some, Option.some.injEq] at h
      obtain ⟨⟨hawake, hfree⟩, rfl⟩ := h
      exact .resumeRun p hawake hfree
  | rouseRun p =>
      simp only [next, Option.ite_none_right_eq_some, Option.some.injEq] at h
      obtain ⟨hasleep, rfl⟩ := h
      exact .rouseRun p hasleep
  | start w =>
      simp only [next] at h
      split at h
      · obtain rfl := Option.some.inj h
        exact .start w ‹_›
      · cases h
  | loop w =>
      simp only [next] at h
      split at h
      · obtain rfl := Option.some.inj h
        exact .loop w ‹_›
      · cases h
  | lockTake w =>
      simp only [next] at h
      split at h
      · obtain rfl := Option.some.inj h
        exact .lockTake w ‹_› ‹_›
      · cases h
  | resumeTake w =>
      simp only [next, Option.ite_none_right_eq_some, Option.some.injEq] at h
      obtain ⟨⟨hawake, hfree⟩, rfl⟩ := h
      exact .resumeTake w hawake hfree
  | rouseTake w =>
      simp only [next, Option.ite_none_right_eq_some, Option.some.injEq] at h
      obtain ⟨hasleep, rfl⟩ := h
      exact .rouseTake w hasleep
  | callTask w =>
      simp only [next] at h
      split at h
      · obtain rfl := Option.some.inj h
        exact .callTask w _ ‹_›
      · obtain rfl := Option.some.inj h
        exact .callNone w ‹_›
      · cases h
  | taskDone w =>
      simp only [next] at h
      split at h
      · rw [Option.ite_none_right_eq_some, Option.some.injEq] at h
        obtain ⟨-, rfl⟩ := h
        exact .taskDone w _ ‹_›
      · cases h
  | stop =>
      simp only [next, Option.ite_none_right_eq_some, Option.some.injEq] at h
      obtain ⟨hready, rfl⟩ := h
      exact .stop hready
  | lockStop =>
      simp only [next, Option.ite_none_right_eq_some, Option.some.injEq] at h
      obtain ⟨⟨hlocking, hfree⟩, rfl⟩ := h
      exact .lockStop hlocking hfree
  | join =>
      simp only [next, Option.ite_none_right_eq_some, Option.some.injEq] at h
      obtain ⟨⟨hjoining, hfinished⟩, rfl⟩ := h
      exact .join hjoining hfinished
  | go =>
      simp only [next] at h
      split at h
      · cases h
      · exact goRun_moves ‹_› h
      · exact goTake_moves ‹_› h
      · obtain rfl := Option.some.inj h
        exact .goStop _ ‹_›
  | notifyWorkers chosen =>
      simp only [next] at h
      split at h
      · rw [Option.ite_none_right_eq_some, Option.some.injEq] at h
        obtain ⟨hwakes, rfl⟩ := h
        exact .notifyWorkers _ chosen ‹_› hwakes
      · cases h
  | notifyProducers chosen =>
      simp only [next] at h
      split at h
      · rw [Option.ite_none_right_eq_some, Option.some.injEq] at h
        obtain ⟨hwakes, rfl⟩ := h
        exact .notifyProducers _ chosen ‹_› hwakes
      · cases h

end

end ThreadPool

end G5
