/-
**How the logger starts** (`src/base/AsyncLogging.h`, `src/base/Thread.cc`).

`AsyncLogging::start` creates the thread, waits on the latch of the thread object, and then waits on
a latch of its own.  The new thread counts the first latch down before it enters `threadFunc`;
nobody counts down the second one.

Main definitions:

* `Startup`, `Startup.step` — the caller of `start`, the logging thread, and calls from others.

Main results:

* `Startup.start_blocked` — in every state of every run the second latch stands at one, no step
  counts it down, and `start` has not returned.
-/

import G5.Base.AsyncLogging
import G5.Base.CountDownLatch
import G5.Lib.Runs

set_option relaxedAutoImplicit false
set_option autoImplicit false

namespace G5

/-- Where the caller of `AsyncLogging::start` is. -/
inductive StarterPc
  | called
  /-- in `Thread::start`, before `pthread_create` -/
  | create
  /-- in `Thread::start`, in `latch_.wait()` -/
  | threadWait
  /-- in `AsyncLogging::start`, in `latch_.wait()` -/
  | latchWait
  | returned
  deriving DecidableEq, Repr

/-- Where the new thread is. -/
inductive ThreadPc
  | absent
  /-- in `runInThread`, before it stores its id -/
  | setTid
  /-- in `runInThread`, before `latch_->countDown()` -/
  | countDown
  /-- in `func_()`, which is `threadFunc` -/
  | func
  deriving DecidableEq, Repr

/-- The two threads and what they share. -/
structure Startup where
  starter : StarterPc
  thread : ThreadPc
  tid : ℤ
  /-- the latch of the thread object -/
  threadLatch : CountDownLatch
  /-- the latch of the logger -/
  latch : CountDownLatch
  logger : AsyncLogging

/-- What may happen next. -/
inductive StartupOp
  | setRunning
  /-- `pthread_create`, and whether it succeeds -/
  | createThread (created : Bool)
  /-- the caller looks at the latch of the thread object -/
  | threadLatchWait
  /-- the caller looks at the latch of the logger -/
  | latchWait
  | setTid (tid : ℤ)
  | countDown
  /-- a step of `threadFunc` -/
  | func (op : LogOp)
  /-- a call of `append` or `stop` from some thread -/
  | call (op : LogOp)
  deriving DecidableEq, Repr

/-- The steps of `threadFunc`. -/
def LogOp.isFunc : LogOp → Bool
  | .enter | .test | .lock | .wake | .trim | .write | .recycle => true
  | _ => false

/-- The calls other than `start`. -/
def LogOp.isCall : LogOp → Bool
  | .append _ | .stop => true
  | _ => false

namespace Startup

/-- The constructors of the logger and of its thread object. -/
def init : Startup where
  starter := .called
  thread := .absent
  tid := 0
  threadLatch := ⟨1⟩
  latch := ⟨1⟩
  logger := AsyncLogging.init

/-- A step of the logger. -/
def loggerStep (s : Startup) (op : LogOp) : Option Startup :=
  (s.logger.step op).map fun logger => { s with logger := logger }

/-- One step.  A process that has failed makes none. -/
def step (s : Startup) : StartupOp → Option Startup
  | .setRunning =>
      if s.starter = .called then ({ s with starter := .create }.loggerStep .start) else none
  | .createThread created =>
      if s.starter = .create ∧ s.logger.failed = none then
        if created then some { s with starter := .threadWait, thread := .setTid }
        else
          some { s with starter := .latchWait, logger := { s.logger with started := false } }
      else none
  | .threadLatchWait =>
      if s.starter = .threadWait ∧ s.logger.failed = none then
        if s.threadLatch.isClosed then some s
        else if 0 < s.tid then some { s with starter := .latchWait }
        else some { s with logger := s.logger.fail .started }
      else none
  | .latchWait =>
      if s.starter = .latchWait ∧ s.logger.failed = none then
        if s.latch.isClosed then some s else some { s with starter := .returned }
      else none
  | .setTid tid =>
      if s.thread = .setTid ∧ s.logger.failed = none then
        some { s with tid := tid, thread := .countDown }
      else none
  | .countDown =>
      if s.thread = .countDown ∧ s.logger.failed = none then
        some { s with threadLatch := s.threadLatch.countDown, thread := .func }
      else none
  | .func op => if s.thread = .func ∧ op.isFunc then s.loggerStep op else none
  | .call op => if op.isCall then s.loggerStep op else none

/-! ### The latch of the logger -/

/-- No step touches the latch of the logger, and while that latch is closed the caller does not get
past it. -/
theorem frame_step {s t : Startup} {op : StartupOp} (h : s.step op = some t) :
    t.latch = s.latch ∧
      (s.latch.isClosed = true → s.starter ≠ .returned → t.starter ≠ .returned) := by
  have hlogger : ∀ (u : Startup) (op : LogOp), u.latch = s.latch →
      (s.starter ≠ .returned → u.starter ≠ .returned) → u.loggerStep op = some t →
      t.latch = s.latch ∧ (s.latch.isClosed = true → s.starter ≠ .returned →
        t.starter ≠ .returned) := by
    intro u op hlatch hstarter hu
    obtain ⟨logger, -, rfl⟩ := Option.map_eq_some_iff.1 hu
    exact ⟨hlatch, fun _ => hstarter⟩
  cases op with
  | setRunning =>
      simp only [step, Option.ite_none_right_eq_some] at h
      exact hlogger { s with starter := .create } _ rfl nofun h.2
  | createThread created =>
      simp only [step, Option.ite_none_right_eq_some] at h
      have hcreated := h.2
      split at hcreated
      · cases hcreated
        exact ⟨rfl, fun _ _ => nofun⟩
      · cases hcreated
        exact ⟨rfl, fun _ _ => nofun⟩
  | threadLatchWait =>
      simp only [step, Option.ite_none_right_eq_some] at h
      have hwait := h.2
      split at hwait
      · cases hwait
        exact ⟨rfl, fun _ hs => hs⟩
      · split at hwait
        · cases hwait
          exact ⟨rfl, fun _ _ => nofun⟩
        · cases hwait
          exact ⟨rfl, fun _ hs => hs⟩
  | latchWait =>
      simp only [step, Option.ite_none_right_eq_some] at h
      have hwait := h.2
      split at hwait
      · cases hwait
        exact ⟨rfl, fun _ hs => hs⟩
      · rename_i hopen
        cases hwait
        exact ⟨rfl, fun hclosed => absurd hclosed hopen⟩
  | setTid tid =>
      simp only [step, Option.ite_none_right_eq_some, Option.some.injEq] at h
      obtain ⟨-, rfl⟩ := h
      exact ⟨rfl, fun _ hs => hs⟩
  | countDown =>
      simp only [step, Option.ite_none_right_eq_some, Option.some.injEq] at h
      obtain ⟨-, rfl⟩ := h
      exact ⟨rfl, fun _ hs => hs⟩
  | func op =>
      simp only [step, Option.ite_none_right_eq_some] at h
      exact hlogger s _ rfl id h.2
  | call op =>
      simp only [step, Option.ite_none_right_eq_some] at h
      exact hlogger s _ rfl id h.2

/-- The latch of the logger stands at one, and the caller is not past it. -/
structure Blocked (s : Startup) : Prop where
  latch : s.latch.count = 1
  starter : s.starter ≠ .returned

theorem blocked_init : init.Blocked := ⟨rfl, by simp [init]⟩

theorem blocked_step : Runs.Invariant step Blocked := by
  intro s op t hs h
  obtain ⟨hlatch, hstarter⟩ := frame_step h
  have hclosed : s.latch.isClosed = true := by
    rw [CountDownLatch.isClosed, hs.latch]
    rfl
  exact ⟨by rw [hlatch]; exact hs.latch, hstarter hclosed hs.starter⟩

/-- **`start` never returns.**  In every state of every run, whatever the logging thread has done,
the latch of the logger stands at one and `start` has not returned, and no step of any thread counts
that latch down. -/
theorem start_blocked {ops : List StartupOp} {s : Startup}
    (h : Runs.exec step init ops = some s) :
    s.latch.count = 1 ∧ s.starter ≠ .returned ∧
      ∀ op t, s.step op = some t → t.latch.count = s.latch.count := by
  obtain ⟨hlatch, hstarter⟩ := Runs.exec_invariant blocked_step blocked_init h
  exact ⟨hlatch, hstarter, fun op t hst => by rw [(frame_step hst).1]⟩

/-- A run in which the logging thread waits inside its loop. -/
def demoOps : List StartupOp :=
  [.setRunning, .createThread true, .setTid 7, .countDown, .threadLatchWait, .func .enter,
    .func .test, .func .lock, .latchWait]

/-- The theorem on this run. -/
theorem start_blocked_demoOps :
    ∃ s, Runs.exec step init demoOps = some s ∧ s.latch.count = 1 ∧ s.starter ≠ .returned ∧
      ∀ op t, s.step op = some t → t.latch.count = s.latch.count := by
  obtain ⟨s, hs⟩ := Option.isSome_iff_exists.1
    (by decide +kernel : (Runs.exec step init demoOps).isSome = true)
  exact ⟨s, hs, start_blocked hs⟩

/-- The logging thread is in its loop, the caller of `start` waits on the latch of the logger, which
does not stand at zero, and whatever happens from then on leaves it as it is. -/
theorem exists_start_blocked :
    ∃ s, Runs.exec step init demoOps = some s ∧ s.logger.pc = .waiting ∧
      s.starter = .latchWait ∧ s.latch.count ≠ 0 ∧
      ∀ ops t, Runs.exec step s ops = some t → t.latch.count ≠ 0 ∧ t.starter ≠ .returned := by
  have h : (Runs.exec step init demoOps).map (fun s => (s.logger.pc, s.starter)) =
      some (.waiting, .latchWait) := by decide +kernel
  obtain ⟨s, hs, hview⟩ := Option.map_eq_some_iff.1 h
  obtain ⟨hpc, hstarter⟩ := Prod.mk.inj hview
  have hblocked := Runs.exec_invariant blocked_step blocked_init hs
  refine ⟨s, hs, hpc, hstarter, by simp [hblocked.latch], ?_⟩
  intro ops t ht
  have htblocked := Runs.exec_invariant blocked_step hblocked ht
  exact ⟨by simp [htblocked.latch], htblocked.starter⟩

end Startup

end G5
