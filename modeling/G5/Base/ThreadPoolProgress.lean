/-
**The thread pool comes to rest.**

Whatever its threads are doing, if nobody calls `run` or `stop` any more, nobody wakes without a
signal and every task returns, but for the calls of `run` that it makes, a bounded number of steps
is left, in whatever order they are taken.  Then every call of `run` has returned and every task
that was taken has been executed; and either every worker sleeps at an empty queue, or the pool has
been stopped, with every worker finished and `stop` returned.

There is one exception.  Tasks that call `run` can jam a pool whose queue has a bound: every worker
is in such a call and waits for room, which only a worker makes.

Main definitions:

* `ThreadPool.Placed` — who is in a section has the mutex or waits;
* `ThreadPool.rank` — how much is left to do;
* `ThreadPool.Settled` — the pool at rest;
* `ThreadPool.Jammed` — every worker's task waits for room in the queue.

Main results:

* `ThreadPool.placed_moves` — **no step breaks the invariant**;
* `ThreadPool.rank_step` — every step of the pool's own lowers the rank;
* `ThreadPool.Stuck.settled_or_jammed` — a pool that cannot go on is at rest, or jammed;
* `ThreadPool.comesToRest_of_exec` — **from every state of every run** the pool comes to rest.
-/

import G5.Base.ThreadPoolTasks
import G5.Base.ThreadPoolWakeups
import G5.Lib.Progress

set_option relaxedAutoImplicit false
set_option autoImplicit false

namespace G5

namespace ThreadPool

variable {ω π T : Type}

/-! ### Who is in a section -/

/-- The producer that has the mutex. -/
@[simp] def Holder.producer? : Holder ω π → Option π
  | .run p _ => some p
  | _ => none

/-- The worker that has the mutex. -/
@[simp] def Holder.worker? : Holder ω π → Option ω
  | .take w _ => some w
  | _ => none

/-- `stop` has the mutex. -/
@[simp] def Holder.isStop : Holder ω π → Bool
  | .stop _ => true
  | _ => false

/-- Who is in a section has the mutex or waits; a producer waits only for a queue with a bound; a
worker that is about to pop finds a task unless the pool has been stopped; and only a pool that has
been stopped has workers that are finished. -/
structure Placed (s : ThreadPool ω π T) : Prop where
  producers : ∀ p task pushes, s.producers p = .inside task pushes →
    s.holder.producer? = some p ∨ s.notFull p ≠ none
  workers : ∀ w task, s.workers w = .inside task →
    s.holder.worker? = some w ∨ s.notEmpty w ≠ none
  stopper : s.stopper = .inside → s.holder.isStop = true
  bounded : ∀ p, s.notFull p ≠ none → 0 < s.maxQueueSize
  popping : ∀ w, s.holder = .take w .popping → s.queue ≠ [] ∨ s.running = false
  finished : ∀ w, s.workers w = .finished → s.running = false
  cleared : s.running = false → s.stopper ≠ .ready ∧ s.stopper ≠ .locking

theorem placed_init (maxQueueSize : ℕ) : (init maxQueueSize : ThreadPool ω π T).Placed where
  producers _ _ _ h := by cases h
  workers _ _ h := by cases h
  stopper h := by cases h
  bounded _ h := absurd rfl h
  popping _ h := by cases h
  finished _ h := by cases h
  cleared h := by cases h

section

variable {s : ThreadPool ω π T} {p : π} {w : ω}

/-- Nobody has the mutex: who is in a section waits. -/
theorem Placed.acquire (h : s.Placed) (hfree : s.holder = .free) (holder : Holder ω π)
    (hstop : holder.isStop = false → s.stopper ≠ .inside)
    (hpop : ∀ x, holder ≠ .take x .popping) : Placed { s with holder := holder } where
  producers q task pushes hq := by
    have hold := h.producers q task pushes hq
    rw [hfree] at hold
    exact Or.inr (hold.resolve_left nofun)
  workers x task hx := by
    have hold := h.workers x task hx
    rw [hfree] at hold
    exact Or.inr (hold.resolve_left nofun)
  stopper hinside := by
    by_contra hnot
    exact hstop (Bool.not_eq_true _ ▸ hnot) hinside
  bounded := h.bounded
  popping x hx := absurd hx (hpop x)
  finished := h.finished
  cleared := h.cleared

/-- `stop` is not in its section while nobody has the mutex. -/
theorem Placed.stopper_ne (h : s.Placed) (hstop : s.holder.isStop = false) :
    s.stopper ≠ .inside := by
  intro hinside
  rw [h.stopper hinside] at hstop
  cases hstop

/-- The thread that has the mutex goes on. -/
theorem Placed.shift (h : s.Placed) {holder : Holder ω π}
    (hp : holder.producer? = s.holder.producer?) (hw : holder.worker? = s.holder.worker?)
    (hstop : holder.isStop = s.holder.isStop)
    (hpop : ∀ x, holder = .take x .popping → s.queue ≠ [] ∨ s.running = false) :
    Placed { s with holder := holder } where
  producers q task pushes hq := (h.producers q task pushes hq).imp_left hp.trans
  workers x task hx := (h.workers x task hx).imp_left hw.trans
  stopper hinside := hstop.trans (h.stopper hinside)
  bounded := h.bounded
  popping := hpop
  finished := h.finished
  cleared := h.cleared

theorem Placed.shiftRun (h : s.Placed) {pc : RunPc} (hholder : s.holder = .run p pc)
    (pc' : RunPc) : Placed { s with holder := .run p pc' } :=
  h.shift (by rw [hholder]; rfl) (by rw [hholder]; rfl) (by rw [hholder]; rfl) fun _ => nofun

theorem Placed.shiftTake (h : s.Placed) {pc pc' : TakePc} (hholder : s.holder = .take w pc)
    (hpop : pc' = .popping → s.queue ≠ [] ∨ s.running = false) :
    Placed { s with holder := .take w pc' } :=
  h.shift (by rw [hholder]; rfl) (by rw [hholder]; rfl) (by rw [hholder]; rfl) fun x hx =>
    hpop (by cases hx; rfl)

theorem Placed.shiftStop (h : s.Placed) {pc : StopPc} (hholder : s.holder = .stop pc)
    (pc' : StopPc) : Placed { s with holder := .stop pc' } :=
  h.shift (by rw [hholder]; rfl) (by rw [hholder]; rfl) (by rw [hholder]; rfl) fun _ => nofun

/-- The waiting threads are in other places of their waits. -/
theorem Placed.wake (h : s.Placed) {notEmpty : Condition ω} {notFull : Condition π}
    (hempty : ∀ x, notEmpty x = none ↔ s.notEmpty x = none)
    (hfull : ∀ q, notFull q = none ↔ s.notFull q = none) :
    Placed { s with notEmpty := notEmpty, notFull := notFull } where
  producers q task pushes hq := (h.producers q task pushes hq).imp_right (mt (hfull q).1)
  workers x task hx := (h.workers x task hx).imp_right (mt (hempty x).1)
  stopper := h.stopper
  bounded q hq := h.bounded q (mt (hfull q).2 hq)
  popping := h.popping
  finished := h.finished
  cleared := h.cleared

section

variable [DecidableEq π]

theorem producers_self (s : ThreadPool ω π T) (p : π) (producer : Producer T) :
    (s.setProducer p producer).producers p = producer := Function.update_self ..

theorem producers_of_ne (s : ThreadPool ω π T) {p q : π} (hqp : q ≠ p) (producer : Producer T) :
    (s.setProducer p producer).producers q = s.producers q := Function.update_of_ne hqp ..

theorem Placed.setProducer (h : s.Placed) {producer : Producer T}
    (hp : ∀ task pushes, producer = .inside task pushes →
      s.holder.producer? = some p ∨ s.notFull p ≠ none) : (s.setProducer p producer).Placed :=
  { h with
    producers := by
      intro q task pushes hq
      by_cases hqp : q = p
      · subst hqp
        exact hp task pushes ((producers_self ..).symm.trans hq)
      · exact h.producers q task pushes ((producers_of_ne _ hqp _).symm.trans hq) }

/-- The producer that has the mutex gives it back, and waits. -/
theorem Placed.waitFull (h : s.Placed) {pc : RunPc} (hholder : s.holder = .run p pc)
    (hmax : 0 < s.maxQueueSize) :
    Placed { s with notFull := s.notFull.wait p, holder := .free } where
  producers q task pushes hq := by
    right
    by_cases hqp : q = p
    · subst hqp
      simp [Condition.wait]
    · have hold := h.producers q task pushes hq
      rw [hholder] at hold
      simpa [Condition.wait, Function.update_of_ne hqp] using
        hold.resolve_left fun heq => hqp (Option.some.inj heq).symm
  workers x task hx := by
    have hold := h.workers x task hx
    rw [hholder] at hold
    exact Or.inr (hold.resolve_left nofun)
  stopper hinside := absurd hinside (h.stopper_ne (by rw [hholder]; rfl))
  bounded _ _ := hmax
  popping _ hx := by cases hx
  finished := h.finished
  cleared := h.cleared

/-- A call of `run` returns. -/
theorem Placed.returnRun (h : s.Placed) {pc : RunPc} (hholder : s.holder = .run p pc)
    (returned : List (Return T)) :
    Placed ({ s with holder := .free, returned := returned }.setProducer p .idle) where
  producers q task pushes hq := by
    by_cases hqp : q = p
    · subst hqp
      cases (producers_self ..).symm.trans hq
    · have hold := h.producers q task pushes ((producers_of_ne _ hqp _).symm.trans hq)
      rw [hholder] at hold
      exact Or.inr (hold.resolve_left fun heq => hqp (Option.some.inj heq).symm)
  workers x task hx := by
    have hold := h.workers x task hx
    rw [hholder] at hold
    exact Or.inr (hold.resolve_left (by simp))
  stopper hinside := absurd hinside (h.stopper_ne (by rw [hholder]; rfl))
  bounded := h.bounded
  popping _ hx := by cases hx
  finished := h.finished
  cleared := h.cleared

/-- A producer that waits gets the mutex. -/
theorem Placed.resumeRun (h : s.Placed) (hfree : s.holder = .free) (p : π) :
    Placed { s with notFull := s.notFull.resume p, holder := .run p .testing } where
  producers q task pushes hq := by
    by_cases hqp : q = p
    · exact Or.inl (hqp ▸ rfl)
    · have hold := h.producers q task pushes hq
      rw [hfree] at hold
      right
      simpa [Condition.resume, Function.update_of_ne hqp] using hold.resolve_left (by simp)
  workers x task hx := by
    have hold := h.workers x task hx
    rw [hfree] at hold
    exact Or.inr (hold.resolve_left (by simp))
  stopper hinside := absurd hinside (h.stopper_ne (by rw [hfree]; rfl))
  bounded q hq := by
    refine h.bounded q fun hnone => hq ?_
    by_cases hqp : q = p
    · simp [Condition.resume, hqp]
    · simpa [Condition.resume, Function.update_of_ne hqp] using hnone
  popping _ hx := by cases hx
  finished := h.finished
  cleared := h.cleared

end

section

variable [DecidableEq ω]

theorem workers_self (s : ThreadPool ω π T) (w : ω) (worker : Worker T) :
    (s.setWorker w worker).workers w = worker := Function.update_self ..

theorem workers_of_ne (s : ThreadPool ω π T) {w x : ω} (hxw : x ≠ w) (worker : Worker T) :
    (s.setWorker w worker).workers x = s.workers x := Function.update_of_ne hxw ..

theorem Placed.setWorker (h : s.Placed) {worker : Worker T}
    (hw : ∀ task, worker = .inside task → s.holder.worker? = some w ∨ s.notEmpty w ≠ none)
    (hfinished : worker = .finished → s.running = false) : (s.setWorker w worker).Placed :=
  { h with
    workers := by
      intro x task hx
      by_cases hxw : x = w
      · subst hxw
        exact hw task ((workers_self ..).symm.trans hx)
      · exact h.workers x task ((workers_of_ne _ hxw _).symm.trans hx)
    finished := by
      intro x hx
      by_cases hxw : x = w
      · subst hxw
        exact hfinished ((workers_self ..).symm.trans hx)
      · exact h.finished x ((workers_of_ne _ hxw _).symm.trans hx) }

/-- The worker that has the mutex gives it back, and waits. -/
theorem Placed.waitEmpty (h : s.Placed) {pc : TakePc} (hholder : s.holder = .take w pc) :
    Placed { s with notEmpty := s.notEmpty.wait w, holder := .free } where
  producers q task pushes hq := by
    have hold := h.producers q task pushes hq
    rw [hholder] at hold
    exact Or.inr (hold.resolve_left (by simp))
  workers x task hx := by
    right
    by_cases hxw : x = w
    · subst hxw
      simp [Condition.wait]
    · have hold := h.workers x task hx
      rw [hholder] at hold
      simpa [Condition.wait, Function.update_of_ne hxw] using
        hold.resolve_left fun heq => hxw (Option.some.inj heq).symm
  stopper hinside := absurd hinside (h.stopper_ne (by rw [hholder]; rfl))
  bounded := h.bounded
  popping _ hx := by cases hx
  finished := h.finished
  cleared := h.cleared

/-- A call of `take` returns. -/
theorem Placed.returnTake (h : s.Placed) {pc : TakePc} (hholder : s.holder = .take w pc)
    (task : Option T) : Placed ({ s with holder := .free }.setWorker w (.holding task)) where
  producers q task pushes hq := by
    have hold := h.producers q task pushes hq
    rw [hholder] at hold
    exact Or.inr (hold.resolve_left (by simp))
  workers x task hx := by
    by_cases hxw : x = w
    · subst hxw
      cases (workers_self ..).symm.trans hx
    · have hold := h.workers x task ((workers_of_ne _ hxw _).symm.trans hx)
      rw [hholder] at hold
      exact Or.inr (hold.resolve_left fun heq => hxw (Option.some.inj heq).symm)
  stopper hinside := absurd hinside (h.stopper_ne (by rw [hholder]; rfl))
  bounded := h.bounded
  popping _ hx := by cases hx
  finished x hx := by
    by_cases hxw : x = w
    · subst hxw
      cases (workers_self ..).symm.trans hx
    · exact h.finished x ((workers_of_ne _ hxw _).symm.trans hx)
  cleared := h.cleared

/-- A worker that waits gets the mutex. -/
theorem Placed.resumeTake (h : s.Placed) (hfree : s.holder = .free) (w : ω) :
    Placed { s with notEmpty := s.notEmpty.resume w, holder := .take w .testing } where
  producers q task pushes hq := by
    have hold := h.producers q task pushes hq
    rw [hfree] at hold
    exact Or.inr (hold.resolve_left (by simp))
  workers x task hx := by
    by_cases hxw : x = w
    · exact Or.inl (hxw ▸ rfl)
    · have hold := h.workers x task hx
      rw [hfree] at hold
      right
      simpa [Condition.resume, Function.update_of_ne hxw] using hold.resolve_left (by simp)
  stopper hinside := absurd hinside (h.stopper_ne (by rw [hfree]; rfl))
  bounded := h.bounded
  popping _ hx := by cases hx
  finished := h.finished
  cleared := h.cleared

end

/-! ### The steps -/

variable [Fintype ω] [DecidableEq ω] [DecidableEq π]

/-- **No step breaks the invariant.** -/
theorem placed_moves {t : ThreadPool ω π T} [Fintype π] (hattended : s.Attended) (h : s.Placed)
    (hmoves : Moves s t) : t.Placed := by
  have hstopper : ∀ {holder : Holder ω π}, s.holder = holder → holder.isStop = false →
      s.stopper ≠ .inside := fun hholder hstop => h.stopper_ne (hholder ▸ hstop)
  cases hmoves with
  | inline => exact h
  | run p task hidle => exact h.setProducer (by simp)
  | lockRun p task hlocking hfree =>
      have hentered := h.acquire hfree (.run p .testing) (fun _ => hstopper hfree rfl)
        (by simp)
      exact hentered.setProducer fun _ _ _ => Or.inl rfl
  | resumeRun p hawake hfree => exact h.resumeRun hfree p
  | rouseRun p hasleep => exact h.wake (fun _ => Iff.rfl) (Condition.rouse_eq_none_iff hasleep)
  | start w hstarting => exact h.setWorker (by simp) (by simp)
  | loop w hlooping =>
      refine h.setWorker (fun task htask => ?_) fun hfinished => ?_
      · split_ifs at htask
      · split_ifs at hfinished with hrunning
        exact Bool.not_eq_true _ ▸ hrunning
  | lockTake w hlocking hfree =>
      have hentered := h.acquire hfree (.take w .testing) (fun _ => hstopper hfree rfl)
        (by simp)
      exact hentered.setWorker (fun _ _ => Or.inl rfl) (by simp)
  | resumeTake w hawake hfree => exact h.resumeTake hfree w
  | rouseTake w hasleep => exact h.wake (Condition.rouse_eq_none_iff hasleep) fun _ => Iff.rfl
  | callTask w task hholding =>
      have hmoved : (s.setWorker w (.executing task)).Placed := h.setWorker (by simp) (by simp)
      exact { hmoved with }
  | callNone w hholding => exact h.setWorker (by simp) (by simp)
  | taskDone w task hexecuting => exact h.setWorker (by simp) (by simp)
  | stop hready =>
      refine { h with stopper := by simp, cleared := fun hrunning => ?_ }
      exact absurd hready (h.cleared hrunning).1
  | lockStop hlocking hfree =>
      have hentered := h.acquire hfree (.stop .clearing) nofun (by simp)
      exact { hentered with stopper := fun _ => rfl, cleared := by simp }
  | join hjoining hfinished =>
      exact { h with stopper := by simp, cleared := by simp }
  | waitFull p hholder hfull hrunning =>
      simp only [isFull, Bool.and_eq_true, decide_eq_true_eq] at hfull
      exact h.waitFull hholder hfull.1
  | leaveFull p hholder | checkRunning p hholder | checkStopped p hholder =>
      exact h.shiftRun hholder _
  | assertFails p hholder hfull => exact { h with }
  | push p task pushes hholder hinside hfull =>
      have hpushed : Placed { s with
          queue := s.queue ++ [task]
          pushed := s.pushed ++ [task]
          holder := .run p .notifying } :=
        { h.shiftRun hholder .notifying with popping := by simp }
      exact hpushed.setProducer fun _ _ _ => Or.inl rfl
  | notifyWorkers p chosen hholder hwakes =>
      exact (h.shiftRun hholder .unlocking).wake (Condition.notify_eq_none_iff hwakes)
        fun _ => Iff.rfl
  | unlockRun p task pushes hholder hinside => exact h.returnRun hholder _
  | waitEmpty w hholder hqueue hrunning => exact h.waitEmpty hholder
  | leaveEmpty w hholder hleave => exact h.shiftTake hholder fun _ => hleave
  | popNone w hholder hqueue => exact h.shiftTake hholder (by simp)
  | pop w task queue hholder hqueue =>
      have hpc : (if 0 < s.maxQueueSize then TakePc.notifying else .unlocking) ≠ .popping := by
        split_ifs <;> simp
      have hpopped : Placed { s with
          queue := queue
          taken := s.taken ++ [(w, task)]
          holder := .take w (if 0 < s.maxQueueSize then .notifying else .unlocking) } :=
        { h.shiftTake hholder fun heq => absurd heq hpc with
          popping := fun x hx => absurd (Holder.take.inj hx).2 hpc }
      exact hpopped.setWorker (fun _ _ => Or.inl rfl) (by simp)
  | notifyProducers w chosen hholder hwakes =>
      have hmoved : Placed { s with holder := .take w .unlocking } := h.shiftTake hholder (by simp)
      exact hmoved.wake (fun _ => Iff.rfl) (Condition.notify_eq_none_iff hwakes)
  | unlockTake w task hholder hinside => exact h.returnTake hholder task
  | goStop pc hholder =>
      have hinside := (hattended.stopping pc hholder).1
      cases pc with
      | clearing =>
          have hcleared : s.stopper ≠ .ready ∧ s.stopper ≠ .locking := by
            rw [hinside]
            simp
          exact { h.shiftStop hholder .notifyingEmpty with
            popping := by simp [goStop]
            finished := fun _ _ => rfl
            cleared := fun _ => hcleared }
      | notifyingEmpty =>
          exact (h.shiftStop hholder .notifyingFull).wake (Condition.notifyAll_eq_none_iff _)
            fun _ => Iff.rfl
      | notifyingFull =>
          exact (h.shiftStop hholder .unlocking).wake (fun _ => Iff.rfl)
            (Condition.notifyAll_eq_none_iff _)
      | unlocking =>
          refine { h with
            producers := fun q task pushes hq => ?_
            workers := fun x task hx => ?_
            stopper := by simp [goStop]
            popping := by simp [goStop]
            cleared := by simp [goStop] }
          · have hold := h.producers q task pushes hq
            rw [hholder] at hold
            exact Or.inr (hold.resolve_left (by simp))
          · have hold := h.workers x task hx
            rw [hholder] at hold
            exact Or.inr (hold.resolve_left (by simp))

end

/-! ### What is left to do -/

/-- How many steps a worker has before it, at most, until it sleeps, has the mutex or is finished,
if it takes no task and is not woken. -/
def Worker.weight (running : Bool) : Worker T → Option Waiter → ℕ
  | .finished, _ => 0
  | .looping, _ => if running then 8 else 1
  | .starting, _ | .executing _, _ => if running then 9 else 2
  | .holding _, _ => if running then 10 else 3
  | .inside _, none | .inside _, some .asleep => 0
  | .inside _, some _ | .locking, _ => 7

/-- The same for a producer, with a credit for the task that it may push. -/
def Producer.weight (credit : ℕ) : Producer T → Option Waiter → ℕ
  | .idle, _ | .inside _ _, none => 0
  | .inside _ _, some .asleep => credit + 4
  | .inside _ _, some _ | .locking _, _ => credit + 6

variable [Fintype ω] [Fintype π]

/-- What a task in the queue may cost: a worker takes it, and wakes the producers. -/
def taskCredit (π : Type) [Fintype π] : ℕ := 2 * Fintype.card π + 8

/-- What a push may cost: the task, and the workers that are woken. -/
def pushCredit (ω π : Type) [Fintype ω] [Fintype π] : ℕ := 7 * Fintype.card ω + taskCredit π

/-- The steps of the thread that has the mutex. -/
def Holder.weight (running : Bool) : Holder ω π → ℕ
  | .free => 0
  | .run _ .unlocking => 1
  | .run _ .notifying => 7 * Fintype.card ω + 2
  | .run _ .asserting => pushCredit ω π + 3
  | .run _ .checking => pushCredit ω π + 4
  | .run _ .testing => pushCredit ω π + 5
  | .take _ .unlocking => if running then 11 else 4
  | .take _ .notifying => 2 * Fintype.card π + 12
  | .take _ .popping => 5
  | .take _ .testing => 6
  | .stop .unlocking => 2
  | .stop .notifyingFull => 2 * Fintype.card π + 3
  | .stop .notifyingEmpty => 7 * Fintype.card ω + 2 * Fintype.card π + 4
  | .stop .clearing => 7 * Fintype.card ω + 2 * Fintype.card π + 5

def Stopper.weight (ω π : Type) [Fintype ω] [Fintype π] : Stopper → ℕ
  | .ready | .inside | .stopped => 0
  | .joining => 1
  | .locking => 7 * Fintype.card ω + 2 * Fintype.card π + 6

def workersWeight (workers : ω → Worker T) (running : Bool) (notEmpty : Condition ω) : ℕ :=
  ∑ w, (workers w).weight running (notEmpty w)

def producersWeight (ω : Type) [Fintype ω] (producers : π → Producer T) (notFull : Condition π) :
    ℕ :=
  ∑ p, (producers p).weight (pushCredit ω π) (notFull p)

/-- How much is left to do. -/
def rank (s : ThreadPool ω π T) : ℕ :=
  workersWeight s.workers s.running s.notEmpty + producersWeight ω s.producers s.notFull +
    s.holder.weight s.running + s.queue.length * taskCredit π + s.stopper.weight ω π

section

variable (workers : ω → Worker T) (running : Bool) (notEmpty : Condition ω)
  (producers : π → Producer T) (notFull : Condition π)

theorem workersWeight_update [DecidableEq ω] (w : ω) (worker : Worker T) :
    workersWeight (Function.update workers w worker) running notEmpty +
        (workers w).weight running (notEmpty w) =
      workersWeight workers running notEmpty + worker.weight running (notEmpty w) := by
  have hsum := Runs.sum_add_eq (t := w)
    (f := fun x => (workers x).weight running (notEmpty x))
    (g := fun x => (Function.update workers w worker x).weight running (notEmpty x))
    fun x hx => by rw [Function.update_of_ne hx]
  rw [Function.update_self] at hsum
  exact hsum

theorem producersWeight_update [DecidableEq π] (p : π) (producer : Producer T) :
    producersWeight ω (Function.update producers p producer) notFull +
        (producers p).weight (pushCredit ω π) (notFull p) =
      producersWeight ω producers notFull + producer.weight (pushCredit ω π) (notFull p) := by
  have hsum := Runs.sum_add_eq (t := p)
    (f := fun q => (producers q).weight (pushCredit ω π) (notFull q))
    (g := fun q => (Function.update producers p producer q).weight (pushCredit ω π) (notFull q))
    fun q hq => by rw [Function.update_of_ne hq]
  rw [Function.update_self] at hsum
  exact hsum

/-- A worker begins to wait, or goes on. -/
theorem workersWeight_condition [DecidableEq ω] (w : ω) (v : Option Waiter) :
    workersWeight workers running (Function.update notEmpty w v) +
        (workers w).weight running (notEmpty w) =
      workersWeight workers running notEmpty + (workers w).weight running v := by
  have hsum := Runs.sum_add_eq (t := w)
    (f := fun x => (workers x).weight running (notEmpty x))
    (g := fun x => (workers x).weight running (Function.update notEmpty w v x))
    fun x hx => by rw [Function.update_of_ne hx]
  rw [Function.update_self] at hsum
  exact hsum

theorem producersWeight_condition [DecidableEq π] (p : π) (v : Option Waiter) :
    producersWeight ω producers (Function.update notFull p v) +
        (producers p).weight (pushCredit ω π) (notFull p) =
      producersWeight ω producers notFull + (producers p).weight (pushCredit ω π) v := by
  have hsum := Runs.sum_add_eq (t := p)
    (f := fun q => (producers q).weight (pushCredit ω π) (notFull q))
    (g := fun q => (producers q).weight (pushCredit ω π) (Function.update notFull p v q))
    fun q hq => by rw [Function.update_of_ne hq]
  rw [Function.update_self] at hsum
  exact hsum

/-- A worker that is woken has one more turn before it. -/
theorem workersWeight_wake {notEmpty' : Condition ω}
    (h : ∀ w, notEmpty' w = notEmpty w ∨ notEmpty w = some .asleep ∧
      notEmpty' w = some .signalled) :
    workersWeight workers running notEmpty' ≤
      workersWeight workers running notEmpty + 7 * Fintype.card ω := by
  refine Runs.sum_le_add fun w => ?_
  rcases h w with hsame | ⟨hasleep, hsignalled⟩
  · rw [hsame]
    exact Nat.le_add_right _ _
  · rw [hasleep, hsignalled]
    cases workers w with
    | inside task => exact le_rfl
    | starting | looping | locking | holding | executing | finished => exact Nat.le_add_right _ _

theorem producersWeight_wake {notFull' : Condition π}
    (h : ∀ p, notFull' p = notFull p ∨ notFull p = some .asleep ∧
      notFull' p = some .signalled) :
    producersWeight ω producers notFull' ≤
      producersWeight ω producers notFull + 2 * Fintype.card π := by
  refine Runs.sum_le_add fun p => ?_
  rcases h p with hsame | ⟨hasleep, hsignalled⟩
  · rw [hsame]
    exact Nat.le_add_right _ _
  · rw [hasleep, hsignalled]
    cases producers p with
    | inside task pushes => exact le_rfl
    | idle | locking => exact Nat.le_add_right _ _

/-- Nobody is further from the end when the pool has been stopped. -/
theorem workersWeight_stopped :
    workersWeight workers false notEmpty ≤ workersWeight workers running notEmpty := by
  refine Finset.sum_le_sum fun w _ => ?_
  cases workers w with
  | inside task => rcases notEmpty w with _ | _ | _ | _ <;> exact le_rfl
  | starting | looping | holding | executing => cases running <;> simp [Worker.weight]
  | locking | finished => exact le_rfl

end

/-! ### The steps of the pool's own -/

/-- The steps that begin no call, and in which nobody wakes without a signal. -/
def Op.isOwn : Op ω π T → Bool
  | .run _ _ | .stop | .rouseRun _ | .rouseTake _ => false
  | _ => true

section

variable [DecidableEq ω] [DecidableEq π] {caller : π → Option ω} {s t : ThreadPool ω π T} {p : π}
  {w : ω}

/-- `run`, with the mutex. -/
theorem rank_goRun (h : s.WellFormed) {pc : RunPc} (hholder : s.holder = .run p pc)
    (hgo : s.goRun p pc = some t) : t.rank < s.rank := by
  obtain ⟨hnone, task, pushes, hinside, hat⟩ := h.runner p pc hholder
  cases pc with
  | testing =>
      simp only [goRun] at hgo
      split_ifs at hgo
      · obtain rfl := Option.some.inj hgo
        have hweight := producersWeight_condition (ω := ω) s.producers s.notFull p (some .asleep)
        rw [hinside, hnone] at hweight
        simp only [Producer.weight] at hweight
        simp only [rank, hholder, Holder.weight, Condition.wait]
        omega
      · obtain rfl := Option.some.inj hgo
        simp only [rank, hholder, Holder.weight]
        omega
  | checking =>
      simp only [goRun] at hgo
      split_ifs at hgo <;>
      · obtain rfl := Option.some.inj hgo
        simp only [rank, hholder, Holder.weight]
        omega
  | asserting =>
      -- the task goes from the producer into the queue
      simp only [goRun, hinside, hat.2, Bool.false_eq_true, if_false, Option.some.injEq] at hgo
      subst hgo
      have hweight := producersWeight_update (ω := ω) s.producers s.notFull p
        (.inside task (pushes + 1))
      have hcredit : pushCredit ω π = 7 * Fintype.card ω + taskCredit π := rfl
      rw [hinside, hnone] at hweight
      simp only [Producer.weight] at hweight
      simp only [rank, setProducer, hholder, Holder.weight, List.length_append,
        List.length_singleton, Nat.add_mul, Nat.one_mul]
      omega
  | notifying => cases hgo
  | unlocking =>
      simp only [goRun, hinside, Option.some.injEq] at hgo
      subst hgo
      have hweight := producersWeight_update (ω := ω) s.producers s.notFull p .idle
      rw [hinside, hnone] at hweight
      simp only [Producer.weight] at hweight
      simp only [rank, setProducer, hholder, Holder.weight]
      omega

omit [DecidableEq π] in
/-- `take`, with the mutex. -/
theorem rank_goTake (h : s.WellFormed) (hplaced : s.Placed) {pc : TakePc}
    (hholder : s.holder = .take w pc) (hgo : s.goTake w pc = some t) : t.rank < s.rank := by
  obtain ⟨hnone, task, hinside, htask⟩ := h.taker w pc hholder
  cases pc with
  | testing =>
      simp only [goTake] at hgo
      split_ifs at hgo
      · obtain rfl := Option.some.inj hgo
        have hweight := workersWeight_condition s.workers s.running s.notEmpty w (some .asleep)
        rw [hinside, hnone] at hweight
        simp only [Worker.weight] at hweight
        simp only [rank, hholder, Holder.weight, Condition.wait]
        omega
      · obtain rfl := Option.some.inj hgo
        simp only [rank, hholder, Holder.weight]
        omega
  | popping =>
      simp only [goTake] at hgo
      split at hgo
      · -- only a pool that has been stopped lets a worker go without a task
        rename_i hqueue
        obtain rfl := Option.some.inj hgo
        have hstopped := (hplaced.popping w hholder).resolve_left fun hne => hne hqueue
        simp only [rank, hholder, hstopped, hqueue, Holder.weight, Bool.false_eq_true, if_false]
        omega
      · rename_i task' queue hqueue
        obtain rfl := Option.some.inj hgo
        have hweight := workersWeight_update s.workers s.running s.notEmpty w (.inside (some task'))
        have hcredit : taskCredit π = 2 * Fintype.card π + 8 := rfl
        have hlocked : (Holder.take w (if 0 < s.maxQueueSize then TakePc.notifying
            else .unlocking) : Holder ω π).weight s.running ≤ 2 * Fintype.card π + 12 := by
          split_ifs
          · exact le_rfl
          · simp only [Holder.weight]
            split_ifs <;> omega
        rw [hinside, hnone] at hweight
        simp only [Worker.weight] at hweight
        simp only [rank, setWorker, hholder, hqueue, List.length_cons, Nat.add_mul, Nat.one_mul]
        have hpopping : (Holder.take w .popping : Holder ω π).weight s.running = 5 := rfl
        omega
  | notifying => cases hgo
  | unlocking =>
      simp only [goTake, hinside, Option.some.injEq] at hgo
      subst hgo
      have hweight := workersWeight_update s.workers s.running s.notEmpty w (.holding task)
      rw [hinside, hnone] at hweight
      simp only [Worker.weight] at hweight
      simp only [rank, setWorker, hholder, Holder.weight]
      split_ifs at hweight ⊢ <;> omega

omit [DecidableEq ω] [DecidableEq π] in
/-- `stop`, with the mutex. -/
theorem rank_goStop (hattended : s.Attended) {pc : StopPc} (hholder : s.holder = .stop pc) :
    (s.goStop pc).rank < s.rank := by
  have hinside := (hattended.stopping pc hholder).1
  cases pc with
  | clearing =>
      have hweight := workersWeight_stopped s.workers s.running s.notEmpty
      simp only [rank, goStop, hholder, Holder.weight]
      omega
  | notifyingEmpty =>
      have hweight := workersWeight_wake s.workers s.running s.notEmpty
        (Condition.notifyAll_cases s.notEmpty)
      simp only [rank, goStop, hholder, Holder.weight]
      omega
  | notifyingFull =>
      have hweight := producersWeight_wake (ω := ω) s.producers s.notFull
        (Condition.notifyAll_cases s.notFull)
      simp only [rank, goStop, hholder, Holder.weight]
      omega
  | unlocking =>
      simp only [rank, goStop, hholder, hinside, Holder.weight, Stopper.weight]
      omega

/-- **Every step of the pool's own lowers the rank.** -/
theorem rank_step (h : s.WellFormed) (hattended : s.Attended) (hplaced : s.Placed)
    {op : Op ω π T} (hop : op.isOwn = true) (hstep : s.step caller op = some t) :
    t.rank < s.rank := by
  simp only [step, h.asserted, Bool.false_eq_true, if_false] at hstep
  cases op with
  | run | stop | rouseRun | rouseTake => cases hop
  | go =>
      simp only [next] at hstep
      split at hstep
      · cases hstep
      · exact rank_goRun h ‹_› hstep
      · exact rank_goTake h hplaced ‹_› hstep
      · obtain rfl := Option.some.inj hstep
        exact rank_goStop hattended ‹_›
  | lockRun p =>
      simp only [next] at hstep
      split at hstep
      · rename_i task hlocking hfree
        obtain rfl := Option.some.inj hstep
        have hnone := (h.producer_outside (p := p) (by rw [hlocking]; simp)).1
        have hweight := producersWeight_update (ω := ω) s.producers s.notFull p (.inside task 0)
        rw [hlocking, hnone] at hweight
        simp only [Producer.weight] at hweight
        simp only [rank, setProducer, hfree, Holder.weight]
        omega
      · cases hstep
  | resumeRun p =>
      simp only [next, Option.ite_none_right_eq_some, Option.some.injEq] at hstep
      obtain ⟨⟨hawake, hfree⟩, rfl⟩ := hstep
      obtain ⟨task, hinside⟩ := h.waitingFull p hawake.ne_none
      have hweight := producersWeight_condition (ω := ω) s.producers s.notFull p none
      rcases hawake with hw | hw <;>
      · rw [hinside, hw] at hweight
        simp only [Producer.weight] at hweight
        simp only [rank, hfree, Holder.weight, Condition.resume]
        omega
  | resumeTake w =>
      simp only [next, Option.ite_none_right_eq_some, Option.some.injEq] at hstep
      obtain ⟨⟨hawake, hfree⟩, rfl⟩ := hstep
      have hinside := h.waitingEmpty w hawake.ne_none
      have hweight := workersWeight_condition s.workers s.running s.notEmpty w none
      rcases hawake with hw | hw <;>
      · rw [hinside, hw] at hweight
        simp only [Worker.weight] at hweight
        simp only [rank, hfree, Holder.weight, Condition.resume]
        omega
  | start w =>
      simp only [next] at hstep
      split at hstep
      · rename_i hstarting
        obtain rfl := Option.some.inj hstep
        have hweight := workersWeight_update s.workers s.running s.notEmpty w .looping
        rw [hstarting] at hweight
        simp only [Worker.weight] at hweight
        simp only [rank, setWorker]
        split_ifs at hweight <;> omega
      · cases hstep
  | loop w =>
      simp only [next] at hstep
      split at hstep
      · rename_i hlooping
        obtain rfl := Option.some.inj hstep
        have hweight := workersWeight_update s.workers s.running s.notEmpty w
          (if s.running then .locking else .finished)
        rw [hlooping] at hweight
        simp only [rank, setWorker]
        cases hrunning : s.running <;> simp [hrunning, Worker.weight] at hweight ⊢ <;> omega
      · cases hstep
  | lockTake w =>
      simp only [next] at hstep
      split at hstep
      · rename_i hlocking hfree
        obtain rfl := Option.some.inj hstep
        have hnone := (h.worker_outside (w := w) (by rw [hlocking]; simp)).1
        have hweight := workersWeight_update s.workers s.running s.notEmpty w (.inside none)
        rw [hlocking, hnone] at hweight
        simp only [Worker.weight] at hweight
        simp only [rank, setWorker, hfree, Holder.weight]
        omega
      · cases hstep
  | callTask w =>
      simp only [next] at hstep
      split at hstep
      · rename_i task hholding
        obtain rfl := Option.some.inj hstep
        have hweight := workersWeight_update s.workers s.running s.notEmpty w (.executing task)
        rw [hholding] at hweight
        simp only [Worker.weight] at hweight
        simp only [rank, setWorker]
        split_ifs at hweight <;> omega
      · rename_i hholding
        obtain rfl := Option.some.inj hstep
        have hweight := workersWeight_update s.workers s.running s.notEmpty w .looping
        rw [hholding] at hweight
        simp only [Worker.weight] at hweight
        simp only [rank, setWorker]
        split_ifs at hweight <;> omega
      · cases hstep
  | taskDone w =>
      simp only [next] at hstep
      split at hstep
      · rename_i task hexecuting
        rw [Option.ite_none_right_eq_some, Option.some.injEq] at hstep
        obtain ⟨-, rfl⟩ := hstep
        have hweight := workersWeight_update s.workers s.running s.notEmpty w .looping
        rw [hexecuting] at hweight
        simp only [Worker.weight] at hweight
        simp only [rank, setWorker]
        split_ifs at hweight <;> omega
      · cases hstep
  | lockStop =>
      simp only [next, Option.ite_none_right_eq_some, Option.some.injEq] at hstep
      obtain ⟨⟨hlocking, hfree⟩, rfl⟩ := hstep
      simp only [rank, hlocking, hfree, Holder.weight, Stopper.weight]
      omega
  | join =>
      simp only [next, Option.ite_none_right_eq_some, Option.some.injEq] at hstep
      obtain ⟨⟨hjoining, -⟩, rfl⟩ := hstep
      simp only [rank, hjoining, Stopper.weight]
      omega
  | notifyWorkers chosen =>
      simp only [next] at hstep
      split at hstep
      · rename_i p hholder
        rw [Option.ite_none_right_eq_some, Option.some.injEq] at hstep
        obtain ⟨hwakes, rfl⟩ := hstep
        have hweight := workersWeight_wake s.workers s.running s.notEmpty
          (Condition.notify_cases hwakes)
        simp only [rank, hholder, Holder.weight]
        omega
      · cases hstep
  | notifyProducers chosen =>
      simp only [next] at hstep
      split at hstep
      · rename_i w hholder
        rw [Option.ite_none_right_eq_some, Option.some.injEq] at hstep
        obtain ⟨hwakes, rfl⟩ := hstep
        have hweight := producersWeight_wake (ω := ω) s.producers s.notFull
          (Condition.notify_cases hwakes)
        simp only [rank, hholder, Holder.weight]
        split_ifs <;> omega
      · cases hstep

/-! ### A pool that cannot go on -/

/-- The pool at rest: every call of `run` has returned, and every task that was taken has been
executed.  If `stop` was not called, nothing is in the queue and every worker waits for a task; if
it was, it has returned and every worker is finished. -/
structure Settled (s : ThreadPool ω π T) : Prop where
  idle : ∀ p, s.producers p = .idle
  done : ∀ w, Record.of w s.executed = Record.of w s.taken
  waiting : s.stopper = .ready → s.queue = [] ∧ ∀ w, s.notEmpty w = some .asleep
  stopped : s.stopper ≠ .ready → s.stopper = .stopped ∧ ∀ w, s.workers w = .finished

/-- Every worker executes a task that has called `run`, and the call waits for room in a full queue.
Nobody but `stop` can wake it. -/
structure Jammed (caller : π → Option ω) (s : ThreadPool ω π T) : Prop where
  running : s.running = true
  full : s.isFull = true
  nested : ∀ w, (s.workers w).isExecuting = true ∧
    ∃ p, caller p = some w ∧ s.notFull p = some .asleep
  producers : ∀ p, s.producers p = .idle ∨ s.notFull p = some .asleep

omit [Fintype ω] [DecidableEq π] [Fintype π] in
/-- A worker that neither executes a task nor brings one back has executed what it has taken. -/
theorem WellFormed.executed_of_waiting (h : s.WellFormed)
    (hw : s.workers w = .finished ∨ s.notEmpty w = some .asleep) :
    Record.of w s.executed = Record.of w s.taken := by
  have hhand : (s.workers w).inHand = [] := by
    rcases hw with hw | hw
    · rw [hw]
      rfl
    · rw [h.waitingEmpty w (by rw [hw]; exact Option.some_ne_none _)]
      rfl
  rw [h.executed w, hhand, List.append_nil]

/-- A pool that can take no step of its own. -/
structure Stuck (caller : π → Option ω) (s : ThreadPool ω π T) : Prop where
  wellFormed : s.WellFormed
  attended : s.Attended
  placed : s.Placed
  blocked : ∀ op : Op ω π T, op.isOwn = true → s.next caller op = none

/-- **Who has the mutex can go on.** -/
theorem Stuck.free (h : s.Stuck caller) : s.holder = .free := by
  have hgo := h.blocked .go rfl
  simp only [next] at hgo
  split at hgo
  · assumption
  · rename_i p pc hholder
    obtain ⟨-, task, pushes, hinside, hat⟩ := h.wellFormed.runner p pc hholder
    cases pc with
    | testing | checking =>
        simp only [goRun] at hgo
        split_ifs at hgo
    | asserting =>
        simp only [goRun, hinside] at hgo
        split_ifs at hgo
    | unlocking => simp only [goRun, hinside, reduceCtorEq] at hgo
    | notifying =>
        obtain ⟨chosen, hwakes⟩ := s.notEmpty.exists_wakes
        have hnotify := h.blocked (.notifyWorkers chosen) rfl
        simp only [next, hholder, if_pos hwakes, reduceCtorEq] at hnotify
  · rename_i w pc hholder
    obtain ⟨-, task, hinside, -⟩ := h.wellFormed.taker w pc hholder
    cases pc with
    | testing =>
        simp only [goTake] at hgo
        split_ifs at hgo
    | popping =>
        simp only [goTake] at hgo
        split at hgo <;> cases hgo
    | unlocking => simp only [goTake, hinside, reduceCtorEq] at hgo
    | notifying =>
        obtain ⟨chosen, hwakes⟩ := s.notFull.exists_wakes
        have hnotify := h.blocked (.notifyProducers chosen) rfl
        simp only [next, hholder, if_pos hwakes, reduceCtorEq] at hnotify
  · cases hgo

/-- Where the producers are. -/
theorem Stuck.producer (h : s.Stuck caller) (p : π) :
    s.producers p = .idle ∨ s.notFull p = some .asleep := by
  have hfree := h.free
  cases hp : s.producers p with
  | idle => exact Or.inl rfl
  | locking task =>
      have hlock := h.blocked (.lockRun p) rfl
      simp only [next, hp, hfree, reduceCtorEq] at hlock
  | inside task pushes =>
      right
      have hwait := h.placed.producers p task pushes hp
      rw [hfree] at hwait
      refine Condition.asleep_of_not_awake (hwait.resolve_left (by simp)) fun hawake => ?_
      have hresume := h.blocked (.resumeRun p) rfl
      simp only [next, if_pos (And.intro hawake hfree), reduceCtorEq] at hresume

/-- Where the workers are. -/
theorem Stuck.worker (h : s.Stuck caller) (w : ω) :
    s.workers w = .finished ∨ s.notEmpty w = some .asleep ∨
      (s.workers w).isExecuting = true ∧ ∃ p, caller p = some w ∧ s.notFull p = some .asleep := by
  have hfree := h.free
  cases hw : s.workers w with
  | finished => exact Or.inl rfl
  | starting =>
      have hstart := h.blocked (.start w) rfl
      simp only [next, hw, reduceCtorEq] at hstart
  | looping =>
      have hloop := h.blocked (.loop w) rfl
      simp only [next, hw, reduceCtorEq] at hloop
  | locking =>
      have hlock := h.blocked (.lockTake w) rfl
      simp only [next, hw, hfree, reduceCtorEq] at hlock
  | holding task =>
      have hcall := h.blocked (.callTask w) rfl
      cases task <;> simp only [next, hw, reduceCtorEq] at hcall
  | executing task =>
      -- only a call of `run` that has not returned keeps the task from returning
      have hdone := h.blocked (.taskDone w) rfl
      simp only [next, hw, ite_eq_right_iff, reduceCtorEq, imp_false, noNestedRun,
        decide_eq_true_eq, not_forall] at hdone
      obtain ⟨p, hcaller, hbusy⟩ := hdone
      refine Or.inr (Or.inr ⟨rfl, p, hcaller, ?_⟩)
      refine (h.producer p).resolve_left fun hidle => ?_
      rw [hidle] at hbusy
      exact hbusy rfl
  | inside task =>
      refine Or.inr (Or.inl ?_)
      have hwait := h.placed.workers w task hw
      rw [hfree] at hwait
      refine Condition.asleep_of_not_awake (hwait.resolve_left (by simp)) fun hawake => ?_
      have hresume := h.blocked (.resumeTake w) rfl
      simp only [next, if_pos (And.intro hawake hfree), reduceCtorEq] at hresume

/-- Where `stop` is while the mutex is free. -/
theorem Stuck.stopper (h : s.Stuck caller) :
    s.stopper = .ready ∨ s.stopper = .joining ∨ s.stopper = .stopped := by
  have hfree := h.free
  cases hstopper : s.stopper with
  | ready => exact Or.inl rfl
  | locking =>
      have hlock := h.blocked .lockStop rfl
      simp only [next, if_pos (And.intro hstopper hfree), reduceCtorEq] at hlock
  | inside => exact absurd hstopper (h.placed.stopper_ne (by rw [hfree]; rfl))
  | joining => exact Or.inr (Or.inl rfl)
  | stopped => exact Or.inr (Or.inr rfl)

/-- **Who sleeps in `run` sleeps at a full queue**, if nobody can go on. -/
theorem Stuck.full_of_asleep (h : s.Stuck caller) (hrunning : s.running = true)
    (hp : s.notFull p = some .asleep) : s.isFull = true := by
  have hfree := h.free
  have hmax := h.placed.bounded p (by rw [hp]; exact Option.some_ne_none _)
  have hle := h.attended.noLostWakeup.producers hfree hrunning hmax p hp
  rw [Condition.signalled_eq_zero fun q hq => ?_] at hle
  · simp only [freeRoom] at hle
    simp only [isFull, Bool.and_eq_true, decide_eq_true_eq]
    omega
  · rcases h.producer q with hidle | hasleep
    · obtain ⟨task, htask⟩ := h.wellFormed.waitingFull q (by rw [hq]; exact Option.some_ne_none _)
      rw [hidle] at htask
      cases htask
    · rw [hq] at hasleep
      cases hasleep

/-- **Who sleeps in `take` sleeps at an empty queue**, if nobody can go on. -/
theorem Stuck.empty_of_asleep (h : s.Stuck caller) (hrunning : s.running = true)
    (hw : s.notEmpty w = some .asleep) : s.queue = [] := by
  have hfree := h.free
  have hle := h.attended.noLostWakeup.workers hfree hrunning w hw
  rw [Condition.signalled_eq_zero fun x hx => ?_] at hle
  · exact List.length_eq_zero_iff.1 (Nat.le_zero.1 hle)
  · have hinside := h.wellFormed.waitingEmpty x (by rw [hx]; exact Option.some_ne_none _)
    rcases h.worker x with hfinished | hasleep | ⟨hexecuting, -⟩
    · rw [hinside] at hfinished
      cases hfinished
    · rw [hx] at hasleep
      cases hasleep
    · rw [hinside] at hexecuting
      cases hexecuting

/-- A pool that runs and cannot go on. -/
theorem Stuck.settled_or_jammed_of_running [Nonempty ω] (h : s.Stuck caller)
    (hrunning : s.running = true) : s.Settled ∨ s.Jammed caller := by
  have hproducer := h.producer
  have hworker : ∀ w, s.notEmpty w = some .asleep ∨ (s.workers w).isExecuting = true ∧
      ∃ p, caller p = some w ∧ s.notFull p = some .asleep := by
    intro w
    refine (h.worker w).resolve_left fun hfinished => ?_
    rw [h.placed.finished w hfinished] at hrunning
    cases hrunning
  by_cases hasleep : ∃ p, s.notFull p = some .asleep
  · obtain ⟨p, hp⟩ := hasleep
    have hfull := h.full_of_asleep hrunning hp
    refine Or.inr ⟨hrunning, hfull, fun w => (hworker w).resolve_left fun hw => ?_, hproducer⟩
    have hempty := h.empty_of_asleep hrunning hw
    simp only [isFull, hempty, List.length_nil, Bool.and_eq_true, decide_eq_true_eq] at hfull
    omega
  · have hwaiting : ∀ w, s.notEmpty w = some .asleep := by
      intro w
      rcases hworker w with hw | ⟨-, p, -, hp⟩
      · exact hw
      · exact absurd ⟨p, hp⟩ hasleep
    have hready : s.stopper = .ready := by
      refine h.stopper.resolve_right fun hended => ?_
      rw [h.attended.ended hended] at hrunning
      cases hrunning
    refine Or.inl ⟨fun p => (hproducer p).resolve_right fun hp => hasleep ⟨p, hp⟩,
      fun w => h.wellFormed.executed_of_waiting (Or.inr (hwaiting w)), fun _ => ⟨?_, hwaiting⟩,
      fun hnot => absurd hready hnot⟩
    obtain ⟨w⟩ := ‹Nonempty ω›
    exact h.empty_of_asleep hrunning (hwaiting w)

/-- A pool that has been stopped and cannot go on. -/
theorem Stuck.settled_of_stopped (h : s.Stuck caller) (hrunning : s.running = false) :
    s.Settled := by
  obtain ⟨hready, -⟩ := h.placed.cleared hrunning
  have hended := h.stopper.resolve_left hready
  obtain ⟨hempty, hfull⟩ := h.attended.noLostWakeup.stopped hended
  have hfinished : ∀ w, s.workers w = .finished := by
    intro w
    rcases h.worker w with hw | hw | ⟨-, p, -, hp⟩
    · exact hw
    · exact absurd hw (hempty w)
    · exact absurd hp (hfull p)
  refine ⟨fun p => (h.producer p).resolve_right (hfull p),
    fun w => h.wellFormed.executed_of_waiting (Or.inl (hfinished w)), fun heq => absurd heq hready,
    fun _ => ⟨hended.resolve_left fun hjoining => ?_, hfinished⟩⟩
  have hjoin := h.blocked .join rfl
  have hall : ∀ w, (s.workers w).isFinished = true := fun w => by rw [hfinished w]; rfl
  simp only [next, if_pos (And.intro hjoining hall), reduceCtorEq] at hjoin

/-- **A pool that cannot go on is at rest**, or jammed. -/
theorem Stuck.settled_or_jammed [Nonempty ω] (h : s.Stuck caller) :
    s.Settled ∨ s.Jammed caller := by
  cases hrunning : s.running with
  | true => exact h.settled_or_jammed_of_running hrunning
  | false => exact Or.inl (h.settled_of_stopped hrunning)

/-! ### Runs -/

theorem invariants_step (caller : π → Option ω) :
    Runs.Invariant (step caller : ThreadPool ω π T → Op ω π T → _)
      fun s => s.WellFormed ∧ s.Attended ∧ s.Placed := by
  rintro s op t ⟨h, hattended, hplaced⟩ hstep
  exact ⟨wellFormed_step caller s op t h hstep, attended_step caller s op t hattended hstep,
    placed_moves hattended hplaced (step_moves hstep).2⟩

/-- **The thread pool comes to rest.**  From every state of every run, if no call is begun any more
and nobody wakes without a signal, at most `rank` steps are left, in any order, and where none can
be taken the pool is at rest, or jammed by the calls of its own tasks. -/
theorem comesToRest_of_exec [Nonempty ω] {maxQueueSize : ℕ} {ops : List (Op ω π T)}
    (h : Runs.exec (step caller) (init maxQueueSize) ops = some s) :
    Runs.Settles (Runs.only (step caller) Op.isOwn) (fun t => t.Settled ∨ t.Jammed caller)
      s.rank s := by
  have hs := Runs.exec_invariant (invariants_step caller)
    ⟨wellFormed_init maxQueueSize, attended_init maxQueueSize, placed_init maxQueueSize⟩ h
  refine Runs.settles_of_rank (invariants_step caller).only ?_ ?_ hs
  · rintro s op t ⟨h, hattended, hplaced⟩ hstep
    obtain ⟨hop, hstep⟩ := Runs.only_eq_some.1 hstep
    exact rank_step h hattended hplaced hop hstep
  · rintro s ⟨h, hattended, hplaced⟩ hstuck
    refine Stuck.settled_or_jammed ⟨h, hattended, hplaced, fun op hop => ?_⟩
    have hnone := Runs.stuck_only hstuck hop
    simpa only [step, h.asserted, Bool.false_eq_true, if_false] using hnone

/-- One producer is in the thread of the worker, the other one is not. -/
def nestedCaller (p : Bool) : Option Unit := if p then some () else none

/-- The worker's task calls `run` when the queue is full. -/
def nestedOps : List (Op Unit Bool ℕ) :=
  [.start (), .loop (), .run false 7, .lockRun false, .go, .go, .go, .notifyWorkers ∅, .go,
    .lockTake (), .go, .go, .notifyProducers ∅, .go, .callTask (),
    .run false 8, .lockRun false, .go, .go, .go, .notifyWorkers ∅, .go, .run true 9, .lockRun true,
    .go]

/-- The call of the task jams the pool. -/
theorem comesToRest_of_exec_nestedOps :
    ∃ s, Runs.exec (step nestedCaller) (init 1) nestedOps = some s ∧ s.Jammed nestedCaller ∧
      s.rank = 44 ∧ Runs.Settles (Runs.only (step nestedCaller) Op.isOwn)
        (fun t => t.Settled ∨ t.Jammed nestedCaller) s.rank s := by
  have hrank : (Runs.exec (step nestedCaller) (init 1) nestedOps).map rank = some 44 := by
    decide +kernel
  have hjammed : (Runs.exec (step nestedCaller) (init 1) nestedOps).any (fun s => decide
      (s.running = true ∧ s.isFull = true ∧
        (∀ w, (s.workers w).isExecuting = true ∧
          ∃ p, nestedCaller p = some w ∧ s.notFull p = some .asleep) ∧
        ∀ p, s.producers p = .idle ∨ s.notFull p = some .asleep)) = true := by
    decide +kernel
  obtain ⟨s, hs, hrank⟩ := Option.map_eq_some_iff.1 hrank
  rw [hs] at hjammed
  obtain ⟨hrunning, hfull, hnested, hproducers⟩ := of_decide_eq_true hjammed
  exact ⟨s, hs, ⟨hrunning, hfull, hnested, hproducers⟩, hrank, comesToRest_of_exec hs⟩

end

end ThreadPool

end G5
