/-
**The tasks of the thread pool.**

Tasks are executed in the order in which they were pushed, each once, by the worker that took it;
the queue keeps its bound; and a call of `run` pushes its task once, unless the pool has been
stopped.

Main definitions:

* `ThreadPool.Worker.inHand` — the task a worker has taken and not executed;
* `ThreadPool.Accounted` — what is promised of the tasks;
* `ThreadPool.WellFormed` — the invariant.

Main results:

* `ThreadPool.wellFormed_moves` — **no step breaks the invariant**;
* `ThreadPool.accounted_of_exec` — the promise, in every state of every run.
-/

import G5.Base.ThreadPool
import G5.Lib.Record

set_option relaxedAutoImplicit false
set_option autoImplicit false

namespace G5

namespace ThreadPool

variable {ω π T : Type} [DecidableEq ω]

/-- The task a worker has taken and not executed. -/
def Worker.inHand : Worker T → List T
  | .inside task => task.toList
  | .holding task => task.toList
  | _ => []

/-- What is promised of the tasks: they are taken in the order in which they were pushed, and
executed once by the worker that took them; the queue keeps its bound, and the assertion of `run`
holds; and a call of `run` that has returned has pushed its task once, or returned after `stop` had
cleared `running_`. -/
structure Accounted (s : ThreadPool ω π T) : Prop where
  order : s.pushed = s.taken.map Prod.snd ++ s.queue
  executed : ∀ w, Record.of w s.taken = Record.of w s.executed ++ (s.workers w).inHand
  bound : 0 < s.maxQueueSize → s.queue.length ≤ s.maxQueueSize
  asserted : s.failed = false
  returned : ∀ call ∈ s.returned, call.pushes = 1 ∨ call.pushes = 0 ∧ call.running = false

/-- What holds at the places of `run`, of the state and of how often the call has pushed. -/
def RunAt (s : ThreadPool ω π T) : RunPc → ℕ → Prop
  | .testing, pushes => pushes = 0
  | .checking, pushes => pushes = 0 ∧ (s.isFull = false ∨ s.running = false)
  | .asserting, pushes => pushes = 0 ∧ s.isFull = false
  | .notifying, pushes => pushes = 1
  | .unlocking, pushes => pushes = 1 ∨ pushes = 0 ∧ s.running = false

structure WellFormed (s : ThreadPool ω π T) : Prop extends Accounted s where
  runner : ∀ p pc, s.holder = .run p pc → s.notFull p = none ∧
    ∃ task pushes, s.producers p = .inside task pushes ∧ s.RunAt pc pushes
  taker : ∀ w pc, s.holder = .take w pc → s.notEmpty w = none ∧
    ∃ task, s.workers w = .inside task ∧ (pc = .testing ∨ pc = .popping → task = none)
  waitingFull : ∀ p, s.notFull p ≠ none → ∃ task, s.producers p = .inside task 0
  waitingEmpty : ∀ w, s.notEmpty w ≠ none → s.workers w = .inside none

theorem wellFormed_init (maxQueueSize : ℕ) :
    (init maxQueueSize : ThreadPool ω π T).WellFormed where
  order := rfl
  executed := fun _ => rfl
  bound := fun _ => Nat.zero_le _
  asserted := rfl
  returned := fun call hcall => by cases hcall
  runner := fun p pc h => by cases h
  taker := fun w pc h => by cases h
  waitingFull := fun p h => absurd rfl h
  waitingEmpty := fun w h => absurd rfl h

/-! ### The mutex changes hands -/

section

variable {s : ThreadPool ω π T}

theorem WellFormed.release (h : s.WellFormed) : WellFormed { s with holder := .free } :=
  { h with
    runner := fun p pc hholder => by cases hholder
    taker := fun w pc hholder => by cases hholder }

theorem WellFormed.enterRun (h : s.WellFormed) {p : π} {pc : RunPc} {task : T} {pushes : ℕ}
    (hwait : s.notFull p = none) (hinside : s.producers p = .inside task pushes)
    (hat : s.RunAt pc pushes) : WellFormed { s with holder := .run p pc } :=
  { h with
    runner := fun q pc' hholder => by
      cases hholder
      exact ⟨hwait, task, pushes, hinside, by cases pc <;> exact hat⟩
    taker := fun w pc' hholder => by cases hholder }

theorem WellFormed.enterTake (h : s.WellFormed) {w : ω} {pc : TakePc} {task : Option T}
    (hwait : s.notEmpty w = none) (hinside : s.workers w = .inside task)
    (htask : pc = .testing ∨ pc = .popping → task = none) :
    WellFormed { s with holder := .take w pc } :=
  { h with
    runner := fun p pc' hholder => by cases hholder
    taker := fun x pc' hholder => by
      cases hholder
      exact ⟨hwait, task, hinside, htask⟩ }

/-- `stop` has the mutex, and may clear `running_`. -/
theorem WellFormed.enterStop (h : s.WellFormed) (pc : StopPc) (running : Bool) :
    WellFormed { s with running := running, holder := .stop pc } :=
  { h with
    runner := fun p pc' hholder => by cases hholder
    taker := fun w pc' hholder => by cases hholder }

/-! ### Threads wait and wake up -/

theorem WellFormed.waitFull [DecidableEq π] (h : s.WellFormed) {p : π} {task : T}
    (hinside : s.producers p = .inside task 0) :
    WellFormed { s with notFull := s.notFull.wait p, holder := .free } :=
  { h.release with
    runner := fun q pc hholder => by cases hholder
    waitingFull := fun q hq => by
      by_cases hqp : q = p
      · exact ⟨task, hqp ▸ hinside⟩
      · refine h.waitingFull q fun hnone => hq ?_
        exact (Function.update_of_ne hqp _ _).trans hnone }

theorem WellFormed.waitEmpty (h : s.WellFormed) {w : ω} (hinside : s.workers w = .inside none) :
    WellFormed { s with notEmpty := s.notEmpty.wait w, holder := .free } :=
  { h.release with
    taker := fun x pc hholder => by cases hholder
    waitingEmpty := fun x hx => by
      by_cases hxw : x = w
      · exact hxw ▸ hinside
      · refine h.waitingEmpty x fun hnone => hx ?_
        exact (Function.update_of_ne hxw _ _).trans hnone }

theorem WellFormed.wakeFull (h : s.WellFormed) {c : Condition π}
    (hc : ∀ p, s.notFull p = none → c p = none) : WellFormed { s with notFull := c } :=
  { h with
    runner := fun p pc hholder => by
      obtain ⟨hwait, task, pushes, hinside, hat⟩ := h.runner p pc hholder
      exact ⟨hc p hwait, task, pushes, hinside, by cases pc <;> exact hat⟩
    waitingFull := fun p hp => h.waitingFull p fun hnone => hp (hc p hnone) }

theorem WellFormed.wakeEmpty (h : s.WellFormed) {c : Condition ω}
    (hc : ∀ w, s.notEmpty w = none → c w = none) : WellFormed { s with notEmpty := c } :=
  { h with
    runner := fun p pc hholder => by
      obtain ⟨hwait, task, pushes, hinside, hat⟩ := h.runner p pc hholder
      exact ⟨hwait, task, pushes, hinside, by cases pc <;> exact hat⟩
    taker := fun w pc hholder => by
      obtain ⟨hwait, task, hinside, htask⟩ := h.taker w pc hholder
      exact ⟨hc w hwait, task, hinside, htask⟩
    waitingEmpty := fun w hw => h.waitingEmpty w fun hnone => hw (hc w hnone) }

end

section

variable {s : ThreadPool ω π T}

/-! ### Threads that do not have the mutex -/

/-- A producer that neither has the mutex nor waits may do what it likes. -/
theorem WellFormed.setProducer [DecidableEq π] (h : s.WellFormed) {p : π}
    (hwait : s.notFull p = none) (hholder : ∀ pc, s.holder ≠ .run p pc) (producer : Producer T) :
    (s.setProducer p producer).WellFormed := by
  have hother : ∀ q, q ≠ p → (s.setProducer p producer).producers q = s.producers q :=
    fun q hne => Function.update_of_ne hne _ _
  refine { h with runner := fun q pc hq => ?_, waitingFull := fun q hq => ?_ }
  · obtain ⟨hnone, task, pushes, hinside, hat⟩ := h.runner q pc hq
    have hne : q ≠ p := fun heq => hholder pc (heq ▸ hq)
    exact ⟨hnone, task, pushes, (hother q hne).trans hinside, by cases pc <;> exact hat⟩
  · obtain ⟨task, hinside⟩ := h.waitingFull q hq
    have hne : q ≠ p := fun heq => hq (heq ▸ hwait)
    exact ⟨task, (hother q hne).trans hinside⟩

/-- A producer outside its section neither has the mutex nor waits. -/
theorem WellFormed.producer_outside (h : s.WellFormed) {p : π}
    (hp : ∀ task pushes, s.producers p ≠ .inside task pushes) :
    s.notFull p = none ∧ ∀ pc, s.holder ≠ .run p pc := by
  refine ⟨by_contra fun hne => ?_, fun pc hholder => ?_⟩
  · obtain ⟨task, hinside⟩ := h.waitingFull p hne
    exact hp task 0 hinside
  · obtain ⟨-, task, pushes, hinside, -⟩ := h.runner p pc hholder
    exact hp task pushes hinside

/-- A worker that neither has the mutex nor waits keeps what it has taken, or executes it. -/
theorem WellFormed.setWorker (h : s.WellFormed) {w : ω} (hwait : s.notEmpty w = none)
    (hholder : ∀ pc, s.holder ≠ .take w pc) {worker : Worker T} {executed : List (ω × T)}
    (hhand : ∀ x, Record.of x executed ++
        (if x = w then worker.inHand else (s.workers x).inHand) =
      Record.of x s.executed ++ (s.workers x).inHand) :
    WellFormed ({ s with executed := executed }.setWorker w worker) := by
  have hother : ∀ x, x ≠ w → (s.setWorker w worker).workers x = s.workers x :=
    fun x hne => Function.update_of_ne hne _ _
  refine { h with
    executed := fun x => ?_
    runner := fun q pc hq => ?_
    taker := fun x pc hx => ?_
    waitingEmpty := fun x hx => ?_ }
  · refine (h.executed x).trans ((hhand x).symm.trans (congrArg (Record.of x executed ++ ·) ?_))
    by_cases hxw : x = w
    · subst hxw
      rw [if_pos rfl]
      exact congrArg Worker.inHand (Function.update_self x worker s.workers).symm
    · rw [if_neg hxw]
      exact congrArg Worker.inHand (hother x hxw).symm
  · obtain ⟨hnone, task, pushes, hinside, hat⟩ := h.runner q pc hq
    exact ⟨hnone, task, pushes, hinside, by cases pc <;> exact hat⟩
  · obtain ⟨hnone, task, hinside, htask⟩ := h.taker x pc hx
    have hne : x ≠ w := fun heq => hholder pc (heq ▸ hx)
    exact ⟨hnone, task, (hother x hne).trans hinside, htask⟩
  · have hne : x ≠ w := fun heq => hx (heq ▸ hwait)
    exact (hother x hne).trans (h.waitingEmpty x hx)

theorem WellFormed.worker_outside (h : s.WellFormed) {w : ω}
    (hw : ∀ task, s.workers w ≠ .inside task) :
    s.notEmpty w = none ∧ ∀ pc, s.holder ≠ .take w pc := by
  refine ⟨by_contra fun hne => hw none (h.waitingEmpty w hne), fun pc hholder => ?_⟩
  obtain ⟨-, task, hinside, -⟩ := h.taker w pc hholder
  exact hw task hinside

/-- A worker goes on that has nothing in hand. -/
theorem WellFormed.moveWorker (h : s.WellFormed) {w : ω}
    (hw : ∀ task, s.workers w ≠ .inside task) {worker : Worker T}
    (hhand : worker.inHand = (s.workers w).inHand) : (s.setWorker w worker).WellFormed := by
  obtain ⟨hwait, hholder⟩ := h.worker_outside hw
  refine h.setWorker hwait hholder fun x => ?_
  by_cases hxw : x = w
  · rw [if_pos hxw, hhand, hxw]
  · rw [if_neg hxw]

/-! ### The queue -/

/-- `run` pushes its task. -/
theorem WellFormed.push [DecidableEq π] (h : s.WellFormed) {p : π} {task : T} {pushes : ℕ}
    (hholder : s.holder = .run p .asserting) (hinside : s.producers p = .inside task pushes)
    (hfull : s.isFull = false) :
    WellFormed ({ s with
      queue := s.queue ++ [task]
      pushed := s.pushed ++ [task]
      holder := .run p .notifying }.setProducer p (.inside task (pushes + 1))) := by
  obtain ⟨hwait, task', pushes', hinside', hat⟩ := h.runner p _ hholder
  obtain rfl : pushes' = pushes := by
    rw [hinside] at hinside'
    cases hinside'
    rfl
  obtain rfl : pushes' = 0 := hat.1
  have hqueue : WellFormed { s with
      queue := s.queue ++ [task], pushed := s.pushed ++ [task], holder := .free } :=
    { h.release with
      order := by
        change s.pushed ++ [task] = s.taken.map Prod.snd ++ (s.queue ++ [task])
        rw [h.order, List.append_assoc]
      bound := fun hpos => by
        change 0 < s.maxQueueSize at hpos
        change (s.queue ++ [task]).length ≤ s.maxQueueSize
        simp only [isFull, Bool.and_eq_false_iff, decide_eq_false_iff_not] at hfull
        rw [List.length_append, List.length_singleton]
        omega
      runner := fun q pc hq => by cases hq
      taker := fun x pc hx => by cases hx }
  exact (hqueue.setProducer (p := p) hwait (fun pc hq => by cases hq) (.inside task 1)).enterRun
    hwait (Function.update_self _ _ _) rfl

/-- `take` takes the first task. -/
theorem WellFormed.pop (h : s.WellFormed) {w : ω} {task : T} {queue : List T}
    (hholder : s.holder = .take w .popping) (hqueue : s.queue = task :: queue) (pc : TakePc)
    (hpc : ¬(pc = .testing ∨ pc = .popping)) :
    WellFormed ({ s with
      queue := queue
      taken := s.taken ++ [(w, task)]
      holder := .take w pc }.setWorker w (.inside (some task))) := by
  obtain ⟨hwait, task', hinside, htask⟩ := h.taker w _ hholder
  obtain rfl := htask (Or.inr rfl)
  have hother : ∀ x, x ≠ w → (s.setWorker w (.inside (some task))).workers x = s.workers x :=
    fun x hne => Function.update_of_ne hne _ _
  have hself : (s.setWorker w (.inside (some task))).workers w = .inside (some task) :=
    Function.update_self _ _ _
  have hfree : WellFormed ({ s with
      queue := queue
      taken := s.taken ++ [(w, task)]
      holder := .free }.setWorker w (.inside (some task))) :=
    { h with
      order := by
        change s.pushed = (s.taken ++ [(w, task)]).map Prod.snd ++ queue
        rw [h.order, hqueue, List.map_append, List.append_assoc]
        rfl
      executed := fun x => by
        change Record.of x (s.taken ++ [(w, task)]) = Record.of x s.executed ++
          ((s.setWorker w (.inside (some task))).workers x).inHand
        rw [Record.of_append, h.executed x]
        by_cases hxw : w = x
        · subst hxw
          rw [if_pos rfl, hself, hinside, List.append_assoc]
          rfl
        · rw [if_neg hxw, hother x (Ne.symm hxw), List.append_nil]
      bound := fun hpos => by
        have hbound := h.bound hpos
        rw [hqueue, List.length_cons] at hbound
        change queue.length ≤ s.maxQueueSize
        omega
      runner := fun q pc' hq => by cases hq
      taker := fun x pc' hx => by cases hx
      waitingEmpty := fun x hx => by
        have hne : x ≠ w := fun heq => hx (heq ▸ hwait)
        exact (hother x hne).trans (h.waitingEmpty x hx) }
  exact hfree.enterTake hwait hself fun hor => absurd hor hpc

/-- A call of `run` returns. -/
theorem WellFormed.returnRun [DecidableEq π] (h : s.WellFormed) {p : π} {task : T} {pushes : ℕ}
    (hholder : s.holder = .run p .unlocking) (hinside : s.producers p = .inside task pushes) :
    WellFormed ({ s with
      holder := .free
      returned := s.returned ++ [(⟨task, pushes, s.running⟩ : Return T)] }.setProducer p
        .idle) := by
  obtain ⟨hwait, task', pushes', hinside', hat⟩ := h.runner p _ hholder
  rw [hinside] at hinside'
  cases hinside'
  have hreturned : WellFormed { s with
      holder := .free
      returned := s.returned ++ [(⟨task, pushes, s.running⟩ : Return T)] } :=
    { h.release with
      returned := fun call hcall => by
        rcases List.mem_append.1 hcall with hcall | hcall
        · exact h.returned call hcall
        · rw [List.mem_singleton.1 hcall]
          exact hat
      runner := fun q pc hq => by cases hq
      taker := fun x pc hx => by cases hx }
  exact hreturned.setProducer hwait (fun pc hq => by cases hq) .idle

end

/-! ### The runs -/

section

variable [Fintype ω] [DecidableEq π]

/-- **No step breaks the invariant.** -/
theorem wellFormed_moves {s t : ThreadPool ω π T} (h : s.WellFormed) (hmoves : Moves s t) :
    t.WellFormed := by
  cases hmoves with
  | inline => exact h
  | run p task hidle =>
      obtain ⟨hwait, hholder⟩ := h.producer_outside (p := p) (by rw [hidle]; exact fun _ _ => nofun)
      exact h.setProducer hwait hholder _
  | lockRun p task hlocking hfree =>
      obtain ⟨hwait, hholder⟩ :=
        h.producer_outside (p := p) (by rw [hlocking]; exact fun _ _ => nofun)
      exact (h.setProducer hwait hholder (.inside task 0)).enterRun hwait
        (Function.update_self _ _ _) rfl
  | resumeRun p hawake hfree =>
      obtain ⟨task, hinside⟩ := h.waitingFull p hawake.ne_none
      exact (h.wakeFull (Condition.update_eq_none none hawake.ne_none)).enterRun
        (Function.update_self _ _ _) hinside rfl
  | rouseRun p hasleep =>
      exact h.wakeFull (Condition.update_eq_none _ (by rw [hasleep]; exact Option.some_ne_none _))
  | start w hstarting =>
      exact h.moveWorker (by rw [hstarting]; exact fun _ => nofun) (by rw [hstarting]; rfl)
  | loop w hlooping =>
      refine h.moveWorker (by rw [hlooping]; exact fun _ => nofun) ?_
      rw [hlooping]
      split_ifs
      · rfl
      · rfl
  | lockTake w hlocking hfree =>
      have hw : ∀ task, s.workers w ≠ .inside task := by
        rw [hlocking]
        exact fun _ => nofun
      have hmoved : (s.setWorker w (.inside none)).WellFormed :=
        h.moveWorker hw (by rw [hlocking]; rfl)
      exact hmoved.enterTake (h.worker_outside hw).1 (Function.update_self _ _ _) fun _ => rfl
  | resumeTake w hawake hfree =>
      exact (h.wakeEmpty (Condition.update_eq_none none hawake.ne_none)).enterTake
        (Function.update_self _ _ _) (h.waitingEmpty w hawake.ne_none) fun _ => rfl
  | rouseTake w hasleep =>
      exact h.wakeEmpty (Condition.update_eq_none _ (by rw [hasleep]; exact Option.some_ne_none _))
  | callTask w task hholding =>
      obtain ⟨hwait, hholder⟩ := h.worker_outside (w := w) (by rw [hholding]; exact fun _ => nofun)
      refine h.setWorker hwait hholder fun x => ?_
      rw [Record.of_append]
      by_cases hxw : x = w
      · rw [if_pos hxw.symm, if_pos hxw, hxw, hholding, List.append_assoc]
        rfl
      · rw [if_neg (Ne.symm hxw), if_neg hxw, List.append_nil]
  | callNone w hholding =>
      exact h.moveWorker (by rw [hholding]; exact fun _ => nofun) (by rw [hholding]; rfl)
  | taskDone w task hexecuting =>
      exact h.moveWorker (by rw [hexecuting]; exact fun _ => nofun) (by rw [hexecuting]; rfl)
  | stop hready => exact { h with }
  | lockStop hlocking hfree =>
      exact { h.enterStop .clearing s.running with }
  | join hjoining hfinished => exact { h with }
  | waitFull p hholder hfull hrunning =>
      obtain ⟨-, task, pushes, hinside, hpushes⟩ := h.runner p _ hholder
      obtain rfl : pushes = 0 := hpushes
      exact h.waitFull hinside
  | leaveFull p hholder hleave =>
      obtain ⟨hwait, task, pushes, hinside, hat⟩ := h.runner p _ hholder
      exact h.enterRun hwait hinside ⟨hat, hleave⟩
  | checkRunning p hholder hrunning =>
      obtain ⟨hwait, task, pushes, hinside, hpushes, hleave⟩ := h.runner p _ hholder
      refine h.enterRun hwait hinside ⟨hpushes, hleave.resolve_right ?_⟩
      rw [hrunning]
      exact Bool.true_eq_false_eq_False
  | checkStopped p hholder hrunning =>
      obtain ⟨hwait, task, pushes, hinside, hpushes, -⟩ := h.runner p _ hholder
      exact h.enterRun hwait hinside (Or.inr ⟨hpushes, hrunning⟩)
  | assertFails p hholder hfull =>
      obtain ⟨-, task, pushes, -, -, hroom⟩ := h.runner p _ hholder
      rw [hfull] at hroom
      cases hroom
  | push p task pushes hholder hinside hfull => exact h.push hholder hinside hfull
  | notifyWorkers p chosen hholder hwakes =>
      obtain ⟨hwait, task, pushes, hinside, hat⟩ := h.runner p _ hholder
      exact (h.wakeEmpty fun w hw => (Condition.notify_eq_none_iff hwakes w).2 hw).enterRun hwait
        hinside (Or.inl hat)
  | unlockRun p task pushes hholder hinside => exact h.returnRun hholder hinside
  | waitEmpty w hholder hqueue hrunning =>
      obtain ⟨-, task, hinside, htask⟩ := h.taker w _ hholder
      obtain rfl := htask (Or.inl rfl)
      exact h.waitEmpty hinside
  | leaveEmpty w hholder hleave =>
      obtain ⟨hwait, task, hinside, htask⟩ := h.taker w _ hholder
      exact h.enterTake hwait hinside fun _ => htask (Or.inl rfl)
  | popNone w hholder hqueue =>
      obtain ⟨hwait, task, hinside, -⟩ := h.taker w _ hholder
      exact h.enterTake hwait hinside nofun
  | pop w task queue hholder hqueue =>
      refine h.pop hholder hqueue _ ?_
      split_ifs
      · exact nofun
      · exact nofun
  | notifyProducers w chosen hholder hwakes =>
      obtain ⟨hwait, task, hinside, -⟩ := h.taker w _ hholder
      exact (h.wakeFull fun p hp => (Condition.notify_eq_none_iff hwakes p).2 hp).enterTake hwait
        hinside nofun
  | unlockTake w task hholder hinside =>
      refine h.release.setWorker (h.taker w _ hholder).1 (fun pc hpc => by cases hpc) fun x => ?_
      by_cases hxw : x = w
      · rw [if_pos hxw, hxw]
        change _ = Record.of w s.executed ++ (s.workers w).inHand
        rw [hinside]
        rfl
      · rw [if_neg hxw]
  | goStop pc hholder =>
      cases pc with
      | clearing => exact h.enterStop .notifyingEmpty false
      | notifyingEmpty =>
          exact (h.wakeEmpty fun w hw =>
            (Condition.notifyAll_eq_none_iff s.notEmpty w).2 hw).enterStop .notifyingFull s.running
      | notifyingFull =>
          exact (h.wakeFull fun p hp =>
            (Condition.notifyAll_eq_none_iff s.notFull p).2 hp).enterStop .unlocking s.running
      | unlocking => exact { h.release with }

variable [Fintype π]

theorem wellFormed_step (caller : π → Option ω) :
    Runs.Invariant (step caller : ThreadPool ω π T → Op ω π T → _) WellFormed :=
  fun _ _ _ h hstep => wellFormed_moves h (step_moves hstep).2

/-- **Tasks are executed in order and once**, the queue keeps its bound, and calls of `run` push
once, in every state of every run. -/
theorem accounted_of_exec {caller : π → Option ω} {maxQueueSize : ℕ} {ops : List (Op ω π T)}
    {s : ThreadPool ω π T} (h : Runs.exec (step caller) (init maxQueueSize) ops = some s) :
    s.Accounted :=
  (Runs.exec_invariant (wellFormed_step caller) (wellFormed_init maxQueueSize) h).toAccounted

end

/-- A worker waits for a task and gets one, while a second producer waits for room and then puts in
its own. -/
def demoOps : List (Op (Fin 1) (Fin 2) ℕ) :=
  [.start 0, .loop 0, .lockTake 0, .go,
    .run 0 7, .lockRun 0, .go, .go, .go, .notifyWorkers {0}, .go,
    .run 1 8, .lockRun 1, .go,
    .resumeTake 0, .go, .go, .notifyProducers {1}, .go, .callTask 0,
    .resumeRun 1, .go, .go, .go, .notifyWorkers ∅, .go]

theorem accounted_of_exec_demoOps :
    ∃ s, Runs.exec (step fun _ => none) (init 1) demoOps = some s ∧ s.executed = [(0, 7)] ∧
      s.queue = [8] ∧ s.Accounted := by
  have hrun : ((Runs.exec (step fun _ => none) (init 1) demoOps).map fun s =>
      (s.executed, s.queue)) = some ([(0, 7)], [8]) := by decide
  obtain ⟨s, hs, hfields⟩ := Option.map_eq_some_iff.1 hrun
  obtain ⟨hexecuted, hqueue⟩ := Prod.mk.inj hfields
  exact ⟨s, hs, hexecuted, hqueue, accounted_of_exec hs⟩

end ThreadPool

end G5
