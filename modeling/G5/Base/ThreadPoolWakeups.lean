/-
**The wake-ups of the thread pool.**

`run` and `take` signal one thread only, and a thread that comes by may take the task, or the room,
before the signalled thread has the mutex.  No wake-up is lost all the same: whenever the mutex is
free there are signals enough for the tasks in the queue and for the room in it, or nobody sleeps.

The thread that has the mutex has a credit on the way: a worker that may still take a task, and a
producer that has put one in and has still to signal, count like a signalled worker; the other way
round for the room.

Main definitions:

* `ThreadPool.NoLostWakeup` — what is promised;
* `ThreadPool.Holder.workerCredit`, `ThreadPool.Holder.producerCredit` — the credits;
* `ThreadPool.Attended` — the invariant.

Main results:

* `ThreadPool.attended_moves` — **no step breaks the invariant**;
* `ThreadPool.noLostWakeup_of_exec` — the promise, in every state of every run.
-/

import G5.Base.ThreadPool

set_option relaxedAutoImplicit false
set_option autoImplicit false

namespace G5

namespace ThreadPool

variable {ω π T : Type}

/-- How many tasks the queue still has room for. -/
def freeRoom (s : ThreadPool ω π T) : ℕ := s.maxQueueSize - s.queue.length

/-- While the mutex is free and the pool is running, nobody sleeps without a signal if there is more
to do than threads have been signalled; and after the section of `stop` nobody sleeps. -/
structure NoLostWakeup [Fintype ω] [Fintype π] (s : ThreadPool ω π T) : Prop where
  workers : s.holder = .free → s.running = true →
    ∀ w, s.notEmpty w = some .asleep → s.queue.length ≤ s.notEmpty.signalled
  producers : s.holder = .free → s.running = true → 0 < s.maxQueueSize →
    ∀ p, s.notFull p = some .asleep → s.freeRoom ≤ s.notFull.signalled
  stopped : s.stopper = .joining ∨ s.stopper = .stopped →
    s.notEmpty.NoneAsleep ∧ s.notFull.NoneAsleep

/-! ### The invariant -/

/-- A worker that may take a task, or a producer that has still to signal for its task. -/
def Holder.workerCredit : Holder ω π → ℕ
  | .take _ .testing => 1
  | .take _ .popping => 1
  | .run _ .notifying => 1
  | _ => 0

/-- A producer that may put in a task, or a worker that has still to signal for the room. -/
def Holder.producerCredit : Holder ω π → ℕ
  | .run _ .testing => 1
  | .run _ .checking => 1
  | .run _ .asserting => 1
  | .take _ .notifying => 1
  | _ => 0

/-- `stop` has still to wake the workers. -/
def Holder.emptyPending : Holder ω π → Bool
  | .stop .notifyingEmpty => true
  | _ => false

/-- `stop` has still to wake the producers. -/
def Holder.fullPending : Holder ω π → Bool
  | .stop .notifyingEmpty => true
  | .stop .notifyingFull => true
  | _ => false

/-- Nobody is to be woken once `stop` does not have the mutex. -/
theorem Holder.not_pending {holder : Holder ω π} (h : ∀ pc, holder ≠ .stop pc) :
    holder.emptyPending = false ∧ holder.fullPending = false := by
  cases holder with
  | free => exact ⟨rfl, rfl⟩
  | run p pc => exact ⟨rfl, rfl⟩
  | take w pc => exact ⟨rfl, rfl⟩
  | stop pc => exact absurd rfl (h pc)

structure Attended [Fintype ω] [Fintype π] (s : ThreadPool ω π T) : Prop where
  workers : s.notEmpty.Served s.running s.holder.emptyPending s.queue.length s.holder.workerCredit
  producers : s.notFull.Served s.running s.holder.fullPending s.freeRoom s.holder.producerCredit
  stopping : ∀ pc, s.holder = .stop pc →
    s.stopper = .inside ∧ (pc = .clearing ∨ s.running = false)
  ended : s.stopper = .joining ∨ s.stopper = .stopped → s.running = false

variable [Fintype ω] [Fintype π]

theorem attended_init (maxQueueSize : ℕ) : (init maxQueueSize : ThreadPool ω π T).Attended where
  workers := ⟨fun _ => Or.inl Condition.noneAsleep_empty, nofun⟩
  producers := ⟨fun _ => Or.inl Condition.noneAsleep_empty, nofun⟩
  stopping := fun pc h => by cases h
  ended := fun h => by rcases h with h | h <;> cases h

theorem Attended.noLostWakeup {s : ThreadPool ω π T} (h : s.Attended) : s.NoLostWakeup := by
  obtain ⟨hworkers, hproducers, hstopping, hended⟩ := h
  refine ⟨fun hfree hrunning w hw => ?_, fun hfree hrunning _ p hp => ?_, fun hstopped => ?_⟩
  · rw [hfree] at hworkers
    exact (hworkers.covered hrunning).resolve_left fun hnone => hnone w hw
  · rw [hfree] at hproducers
    exact (hproducers.covered hrunning).resolve_left fun hnone => hnone p hp
  · have hrunning := hended hstopped
    have houtside : ∀ pc, s.holder ≠ .stop pc := by
      intro pc hholder
      rw [(hstopping pc hholder).1] at hstopped
      rcases hstopped with hstopped | hstopped
      · cases hstopped
      · cases hstopped
    obtain ⟨hempty, hfull⟩ := Holder.not_pending houtside
    exact ⟨hworkers.closed hrunning hempty, hproducers.closed hrunning hfull⟩

/-! ### The runs -/

variable [DecidableEq ω] [DecidableEq π]

omit [DecidableEq ω] in
/-- `run` pushes its task: the room that it takes is what its credit was for, and it has one for the
worker that it is going to signal. -/
theorem Attended.push {s : ThreadPool ω π T} (h : s.Attended) {p : π} {task : T} {pushes : ℕ}
    (hholder : s.holder = .run p .asserting) :
    Attended ({ s with
      queue := s.queue ++ [task]
      pushed := s.pushed ++ [task]
      holder := .run p .notifying }.setProducer p (.inside task (pushes + 1))) := by
  obtain ⟨hworkers, hproducers, -, hended⟩ := h
  rw [hholder] at hworkers hproducers
  refine ⟨hworkers.mono fun _ => ?_, hproducers.mono fun hroom => ?_, nofun, hended⟩
  · change (s.queue ++ [task]).length + 0 ≤ s.queue.length + 1
    rw [List.length_append, List.length_singleton]
  · change 0 < s.maxQueueSize - (s.queue ++ [task]).length at hroom
    change s.maxQueueSize - (s.queue ++ [task]).length + 1 ≤ s.maxQueueSize - s.queue.length + 0
    rw [List.length_append, List.length_singleton] at hroom ⊢
    omega

omit [DecidableEq π] in
/-- `take` takes the first task, and signals for the room if the queue has a bound. -/
theorem Attended.pop {s : ThreadPool ω π T} (h : s.Attended) {w : ω} {task : T} {queue : List T}
    (hholder : s.holder = .take w .popping) (hqueue : s.queue = task :: queue) :
    Attended ({ s with
      queue := queue
      taken := s.taken ++ [(w, task)]
      holder := .take w (if 0 < s.maxQueueSize then .notifying else .unlocking) }.setWorker w
        (.inside (some task))) := by
  obtain ⟨hworkers, hproducers, -, hended⟩ := h
  rw [hholder] at hworkers hproducers
  have hlength : s.queue.length = queue.length + 1 := by rw [hqueue, List.length_cons]
  split_ifs with hbounded
  · refine ⟨hworkers.mono fun _ => ?_, hproducers.mono fun _ => ?_, nofun, hended⟩
    · exact hlength.ge
    · change s.maxQueueSize - queue.length + 0 ≤ s.maxQueueSize - s.queue.length + 1
      omega
  · refine ⟨hworkers.mono fun _ => ?_, hproducers.mono fun hroom => ?_, nofun, hended⟩
    · exact hlength.ge
    · change 0 < s.maxQueueSize - queue.length at hroom
      omega

omit [DecidableEq ω] [DecidableEq π] in
/-- The section of `stop`: it closes the two conditions, and wakes everybody afterwards. -/
theorem Attended.goStop {s : ThreadPool ω π T} (h : s.Attended) {pc : StopPc}
    (hholder : s.holder = .stop pc) : (s.goStop pc).Attended := by
  obtain ⟨hworkers, hproducers, hstopping, hended⟩ := h
  obtain ⟨hinside, hcleared⟩ := hstopping pc hholder
  rw [hholder] at hworkers hproducers
  cases pc with
  | clearing =>
      exact ⟨Condition.served_close _ _ _, Condition.served_close _ _ _,
        fun _ _ => ⟨hinside, Or.inr rfl⟩, fun _ => rfl⟩
  | notifyingEmpty =>
      have hrunning := hcleared.resolve_left nofun
      exact ⟨Condition.served_notifyAll _ _ _ _ _, hproducers.mono fun _ => le_refl _,
        fun _ _ => ⟨hinside, Or.inr hrunning⟩, hended⟩
  | notifyingFull =>
      have hrunning := hcleared.resolve_left nofun
      exact ⟨hworkers, Condition.served_notifyAll _ _ _ _ _,
        fun _ _ => ⟨hinside, Or.inr hrunning⟩, hended⟩
  | unlocking => exact ⟨hworkers, hproducers, nofun, fun _ => hcleared.resolve_left nofun⟩

/-- **No step breaks the invariant.** -/
theorem attended_moves {s t : ThreadPool ω π T} (h : s.Attended) (hmoves : Moves s t) :
    t.Attended := by
  have ⟨hworkers, hproducers, hstopping, hended⟩ := h
  cases hmoves with
  | inline => exact ⟨hworkers, hproducers, hstopping, hended⟩
  | run p task hidle => exact ⟨hworkers, hproducers, hstopping, hended⟩
  | lockRun p task hlocking hfree =>
      rw [hfree] at hworkers hproducers
      exact ⟨hworkers, hproducers.mono fun _ => Nat.le_succ _, nofun, hended⟩
  | resumeRun p hawake hfree =>
      rw [hfree] at hworkers hproducers
      exact ⟨hworkers, hproducers.resume p, nofun, hended⟩
  | rouseRun p hasleep => exact ⟨hworkers, hproducers.rouse hasleep, hstopping, hended⟩
  | start w hstarting => exact ⟨hworkers, hproducers, hstopping, hended⟩
  | loop w hlooping => exact ⟨hworkers, hproducers, hstopping, hended⟩
  | lockTake w hlocking hfree =>
      rw [hfree] at hworkers hproducers
      exact ⟨hworkers.mono fun _ => Nat.le_succ _, hproducers, nofun, hended⟩
  | resumeTake w hawake hfree =>
      rw [hfree] at hworkers hproducers
      exact ⟨hworkers.resume w, hproducers, nofun, hended⟩
  | rouseTake w hasleep => exact ⟨hworkers.rouse hasleep, hproducers, hstopping, hended⟩
  | callTask w task hholding => exact ⟨hworkers, hproducers, hstopping, hended⟩
  | callNone w hholding => exact ⟨hworkers, hproducers, hstopping, hended⟩
  | taskDone w task hexecuting => exact ⟨hworkers, hproducers, hstopping, hended⟩
  | stop hready =>
      refine ⟨hworkers, hproducers, fun pc hholder => ?_, nofun⟩
      have hinside := (hstopping pc hholder).1
      rw [hready] at hinside
      cases hinside
  | lockStop hlocking hfree =>
      rw [hfree] at hworkers hproducers
      refine ⟨hworkers, hproducers, fun pc hholder => ?_, nofun⟩
      cases hholder
      exact ⟨rfl, Or.inl rfl⟩
  | join hjoining hfinished =>
      refine ⟨hworkers, hproducers, fun pc hholder => ?_, fun _ => hended (Or.inl hjoining)⟩
      have hinside := (hstopping pc hholder).1
      rw [hjoining] at hinside
      cases hinside
  | waitFull p hholder hfull hrunning =>
      rw [hholder] at hworkers
      have hroom : s.freeRoom = 0 := by
        simp only [isFull, Bool.and_eq_true, decide_eq_true_eq] at hfull
        exact Nat.sub_eq_zero_of_le hfull.2
      exact ⟨hworkers, Condition.served_wait s.notFull p hrunning hroom, nofun, hended⟩
  | leaveFull p hholder hleave =>
      rw [hholder] at hworkers hproducers
      exact ⟨hworkers, hproducers, nofun, hended⟩
  | checkRunning p hholder hrunning =>
      rw [hholder] at hworkers hproducers
      exact ⟨hworkers, hproducers, nofun, hended⟩
  | checkStopped p hholder hrunning =>
      rw [hholder] at hworkers hproducers
      exact ⟨hworkers, hproducers.of_closed hrunning _ _, nofun, hended⟩
  | assertFails p hholder hfull => exact ⟨hworkers, hproducers, hstopping, hended⟩
  | push p task pushes hholder hinside hfull => exact h.push hholder
  | notifyWorkers p chosen hholder hwakes =>
      rw [hholder] at hworkers hproducers
      exact ⟨hworkers.notify hwakes, hproducers, nofun, hended⟩
  | unlockRun p task pushes hholder hinside =>
      rw [hholder] at hworkers hproducers
      exact ⟨hworkers, hproducers, nofun, hended⟩
  | waitEmpty w hholder hqueue hrunning =>
      rw [hholder] at hproducers
      have hlength : s.queue.length = 0 := by rw [hqueue, List.length_nil]
      exact ⟨Condition.served_wait s.notEmpty w hrunning hlength, hproducers, nofun, hended⟩
  | leaveEmpty w hholder hleave =>
      rw [hholder] at hworkers hproducers
      exact ⟨hworkers, hproducers, nofun, hended⟩
  | popNone w hholder hqueue =>
      rw [hholder] at hworkers hproducers
      refine ⟨hworkers.mono fun hlength => ?_, hproducers, nofun, hended⟩
      change 0 < s.queue.length at hlength
      rw [hqueue, List.length_nil] at hlength
      exact absurd hlength (lt_irrefl 0)
  | pop w task queue hholder hqueue => exact h.pop hholder hqueue
  | notifyProducers w chosen hholder hwakes =>
      rw [hholder] at hworkers hproducers
      exact ⟨hworkers, hproducers.notify hwakes, nofun, hended⟩
  | unlockTake w task hholder hinside =>
      rw [hholder] at hworkers hproducers
      exact ⟨hworkers, hproducers, nofun, hended⟩
  | goStop pc hholder => exact h.goStop hholder

theorem attended_step (caller : π → Option ω) :
    Runs.Invariant (step caller : ThreadPool ω π T → Op ω π T → _) Attended :=
  fun _ _ _ h hstep => attended_moves h (step_moves hstep).2

/-- **No wake-up is lost**, in any state of any run. -/
theorem noLostWakeup_of_exec {caller : π → Option ω} {maxQueueSize : ℕ} {ops : List (Op ω π T)}
    {s : ThreadPool ω π T} (h : Runs.exec (step caller) (init maxQueueSize) ops = some s) :
    s.NoLostWakeup :=
  (Runs.exec_invariant (attended_step caller) (attended_init maxQueueSize) h).noLostWakeup

/-- Two workers wait for a task, and one of them is signalled. -/
def demoWaits : List (Op Bool Unit ℕ) :=
  [.start false, .loop false, .lockTake false, .go, .start true, .loop true, .lockTake true, .go,
    .run () 7, .lockRun (), .go, .go, .go, .notifyWorkers {true}, .go]

theorem noLostWakeup_of_exec_demoWaits :
    ∃ s, Runs.exec (step fun _ => none) (init 1) demoWaits = some s ∧
      s.notEmpty false = some .asleep ∧ s.queue.length = 1 ∧ s.NoLostWakeup := by
  have hrun : ((Runs.exec (step fun _ => none) (init 1) demoWaits).map fun s =>
      (s.notEmpty false, s.queue.length)) = some (some .asleep, 1) := by decide
  obtain ⟨s, hs, hfields⟩ := Option.map_eq_some_iff.1 hrun
  obtain ⟨hasleep, hlength⟩ := Prod.mk.inj hfields
  exact ⟨s, hs, hasleep, hlength, noLostWakeup_of_exec hs⟩

end ThreadPool

end G5
