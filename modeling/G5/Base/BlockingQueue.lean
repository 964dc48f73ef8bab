/-
**Blocking queues** (`src/base/BlockingQueue.h`).

Any number of threads call `put`, `take` and `size`.  A step is one operation on the mutex or on the
condition, with the statements of the section that go with it: `put` pushes its value as it signals,
and `take` tests the queue as soon as it gets the mutex, when it comes or when it has been woken,
and pops the front if there is one.  A thread may wake for no reason, and a thread that comes by may
take the value before the thread that was signalled for it gets the mutex.

Beside the data of the source, the state records the values that were put, in the order of the
sections, and what was taken and returned, for the statements only.

Main definitions:

* `BlockingQueue`, `BlockingQueue.Thread` — the queue, its threads, and the records;
* `BlockingQueue.takeFront` — the loop of `take`, and what follows it;
* `BlockingQueue.step` — the runs;
* `BlockingQueue.Moves` — the steps again, each with what holds before it;
* `BlockingQueue.WellFormed` — the invariant.

Main results:

* `BlockingQueue.step_moves` — every step is one of these;
* `BlockingQueue.wellFormed_moves` — **no step breaks the invariant**;
* `BlockingQueue.fifo_of_exec` — the order of the values, the assertion, and the wake-ups, in every
  state of every run.
-/

import G5.Lib.ConditionVariable
import G5.Lib.Exclusion
import G5.Lib.Record
import G5.Lib.Runs

set_option relaxedAutoImplicit false
set_option autoImplicit false

namespace G5

namespace BlockingQueue

/-- What a thread is doing. -/
inductive Thread (T : Type)
  | idle
  /-- in `put`, about to take the mutex -/
  | putting (x : T)
  /-- with the mutex, at `queue_.push_back(x)` -/
  | pushing (x : T)
  /-- with the mutex, at the end of `put` -/
  | pushed
  /-- in `take`, about to take the mutex -/
  | taking
  /-- with the mutex, at `notEmpty_.wait()` -/
  | waiting
  /-- in `notEmpty_.wait()`, without the mutex -/
  | inWait
  /-- with the mutex, at the end of `take` -/
  | popped (front : T)
  /-- about to return from `take` -/
  | returning (front : T)
  /-- in `size`, about to take the mutex -/
  | sizing
  /-- with the mutex, at the end of `size` -/
  | sized (size : ℕ)
  deriving DecidableEq, Repr

namespace Thread

variable {T : Type}

/-- The thread has the mutex. -/
def inside : Thread T → Bool
  | .pushing _ | .pushed | .waiting | .popped _ | .sized _ => true
  | .idle | .putting _ | .taking | .inWait | .returning _ | .sizing => false

/-- What the thread has taken and is about to return. -/
def inHand : Thread T → List T
  | .popped front => [front]
  | .returning front => [front]
  | _ => []

end Thread

end BlockingQueue

/-- The queue with its threads; the last three fields record what has happened. -/
structure BlockingQueue (τ T : Type) where
  owner : Option τ
  notEmpty : Condition τ
  queue : List T
  threads : τ → BlockingQueue.Thread T
  /-- the assertion of `take` has failed -/
  failed : Bool
  put : List T
  taken : List (τ × T)
  returned : List (τ × T)

namespace BlockingQueue

/-- What may happen next. -/
inductive Op (τ T : Type)
  /-- a thread calls `put` -/
  | put (t : τ) (x : T)
  | take (t : τ)
  | size (t : τ)
  /-- a thread gets the mutex at the beginning of a call -/
  | lock (t : τ)
  /-- `queue_.push_back(x)` and `notEmpty_.notify()`, which wakes these threads -/
  | notify (t : τ) (chosen : Finset τ)
  | wait (t : τ)
  /-- a thread wakes without a signal -/
  | rouse (t : τ)
  /-- a thread that is awake gets the mutex, and `notEmpty_.wait()` returns -/
  | resume (t : τ)
  | unlock (t : τ)
  /-- `take` returns -/
  | finish (t : τ)

variable {τ T : Type}

section

variable [DecidableEq τ]

def setThread (s : BlockingQueue τ T) (t : τ) (thread : Thread T) : BlockingQueue τ T :=
  { s with threads := Function.update s.threads t thread }

/-- The test of `while(queue_.empty())`, the assertion, and the front. -/
def takeFront (s : BlockingQueue τ T) (t : τ) : BlockingQueue τ T :=
  if s.queue.isEmpty then
    s.setThread t .waiting
  else
    match s.queue with
    | [] => { s with failed := true }
    | front :: queue =>
        { s with queue := queue, taken := s.taken ++ [(t, front)] }.setThread t (.popped front)

end

/-! ### The runs -/

def init : BlockingQueue τ T where
  owner := none
  notEmpty := .empty
  queue := []
  threads := fun _ => .idle
  failed := false
  put := []
  taken := []
  returned := []

section

variable [Fintype τ] [DecidableEq τ]

/-- What happens next, as long as the assertion has not failed. -/
def next (s : BlockingQueue τ T) : Op τ T → Option (BlockingQueue τ T)
  | .put t x =>
      match s.threads t with
      | .idle => some (s.setThread t (.putting x))
      | _ => none
  | .take t =>
      match s.threads t with
      | .idle => some (s.setThread t .taking)
      | _ => none
  | .size t =>
      match s.threads t with
      | .idle => some (s.setThread t .sizing)
      | _ => none
  | .lock t =>
      match s.threads t, s.owner with
      | .putting x, none => some ({ s with owner := some t }.setThread t (.pushing x))
      | .taking, none => some ({ s with owner := some t }.takeFront t)
      | .sizing, none => some ({ s with owner := some t }.setThread t (.sized s.queue.length))
      | _, _ => none
  | .notify t chosen =>
      match s.threads t with
      | .pushing x =>
          if s.notEmpty.Wakes chosen then
            some ({ s with
              queue := s.queue ++ [x]
              put := s.put ++ [x]
              notEmpty := s.notEmpty.notify chosen }.setThread t .pushed)
          else none
      | _ => none
  | .wait t =>
      match s.threads t with
      | .waiting =>
          some ({ s with notEmpty := s.notEmpty.wait t, owner := none }.setThread t .inWait)
      | _ => none
  | .rouse t =>
      if s.notEmpty t = some .asleep then some { s with notEmpty := s.notEmpty.rouse t } else none
  | .resume t =>
      match s.threads t, s.owner with
      | .inWait, none =>
          if s.notEmpty.Awake t then
            some ({ s with notEmpty := s.notEmpty.resume t, owner := some t }.takeFront t)
          else none
      | _, _ => none
  | .unlock t =>
      match s.threads t with
      | .pushed => some ({ s with owner := none }.setThread t .idle)
      | .popped front => some ({ s with owner := none }.setThread t (.returning front))
      | .sized _ => some ({ s with owner := none }.setThread t .idle)
      | _ => none
  | .finish t =>
      match s.threads t with
      | .returning front =>
          some ({ s with returned := s.returned ++ [(t, front)] }.setThread t .idle)
      | _ => none

/-- One step. -/
def step (s : BlockingQueue τ T) (op : Op τ T) : Option (BlockingQueue τ T) :=
  if s.failed then none else s.next op

/-! ### What a step can do -/

/-- The steps, each with what holds before it. -/
inductive Moves (s : BlockingQueue τ T) : BlockingQueue τ T → Prop
  | put (t : τ) (x : T) : s.threads t = .idle → Moves s (s.setThread t (.putting x))
  | take (t : τ) : s.threads t = .idle → Moves s (s.setThread t .taking)
  | size (t : τ) : s.threads t = .idle → Moves s (s.setThread t .sizing)
  | lockPut (t : τ) (x : T) : s.threads t = .putting x → s.owner = none →
      Moves s ({ s with owner := some t }.setThread t (.pushing x))
  | lockSize (t : τ) : s.threads t = .sizing → s.owner = none →
      Moves s ({ s with owner := some t }.setThread t (.sized s.queue.length))
  /-- `take` finds the queue empty when it comes -/
  | lockEmpty (t : τ) : s.threads t = .taking → s.owner = none → s.queue = [] →
      Moves s ({ s with owner := some t }.setThread t .waiting)
  | lockFront (t : τ) (front : T) (queue : List T) : s.threads t = .taking → s.owner = none →
      s.queue = front :: queue →
      Moves s ({ s with
        owner := some t
        queue := queue
        taken := s.taken ++ [(t, front)] }.setThread t (.popped front))
  | notify (t : τ) (x : T) (chosen : Finset τ) : s.threads t = .pushing x →
      s.notEmpty.Wakes chosen →
      Moves s ({ s with
        queue := s.queue ++ [x]
        put := s.put ++ [x]
        notEmpty := s.notEmpty.notify chosen }.setThread t .pushed)
  | wait (t : τ) : s.threads t = .waiting →
      Moves s ({ s with notEmpty := s.notEmpty.wait t, owner := none }.setThread t .inWait)
  | rouse (t : τ) : s.notEmpty t = some .asleep →
      Moves s { s with notEmpty := s.notEmpty.rouse t }
  /-- `take` finds the queue empty when it has been woken -/
  | resumeEmpty (t : τ) : s.threads t = .inWait → s.owner = none → s.notEmpty.Awake t →
      s.queue = [] →
      Moves s ({ s with
        notEmpty := s.notEmpty.resume t
        owner := some t }.setThread t .waiting)
  | resumeFront (t : τ) (front : T) (queue : List T) : s.threads t = .inWait → s.owner = none →
      s.notEmpty.Awake t → s.queue = front :: queue →
      Moves s ({ s with
        notEmpty := s.notEmpty.resume t
        owner := some t
        queue := queue
        taken := s.taken ++ [(t, front)] }.setThread t (.popped front))
  | unlockPut (t : τ) : s.threads t = .pushed →
      Moves s ({ s with owner := none }.setThread t .idle)
  | unlockTake (t : τ) (front : T) : s.threads t = .popped front →
      Moves s ({ s with owner := none }.setThread t (.returning front))
  | unlockSize (t : τ) (size : ℕ) : s.threads t = .sized size →
      Moves s ({ s with owner := none }.setThread t .idle)
  | finish (t : τ) (front : T) : s.threads t = .returning front →
      Moves s ({ s with returned := s.returned ++ [(t, front)] }.setThread t .idle)

omit [Fintype τ] in
/-- The assertion of `take` holds, since the loop has ended. -/
theorem takeFront_eq (s : BlockingQueue τ T) (t : τ) :
    (s.queue = [] ∧ s.takeFront t = s.setThread t .waiting) ∨
      ∃ front queue, s.queue = front :: queue ∧ s.takeFront t = { s with
        queue := queue
        taken := s.taken ++ [(t, front)] }.setThread t (.popped front) := by
  unfold takeFront
  cases hqueue : s.queue with
  | nil => exact Or.inl ⟨rfl, rfl⟩
  | cons front queue => exact Or.inr ⟨front, queue, rfl, rfl⟩

theorem lock_moves {s s' : BlockingQueue τ T} {t : τ} (h : s.next (.lock t) = some s') :
    Moves s s' := by
  simp only [next] at h
  split at h
  · rename_i x hthread howner
    obtain rfl := Option.some.inj h
    exact .lockPut t x hthread howner
  · rename_i hthread howner
    obtain rfl := Option.some.inj h
    rcases takeFront_eq { s with owner := some t } t with
      ⟨hempty, heq⟩ | ⟨front, queue, hfront, heq⟩
    · rw [heq]
      exact .lockEmpty t hthread howner hempty
    · rw [heq]
      exact .lockFront t front queue hthread howner hfront
  · rename_i hthread howner
    obtain rfl := Option.some.inj h
    exact .lockSize t hthread howner
  · cases h

theorem resume_moves {s s' : BlockingQueue τ T} {t : τ} (h : s.next (.resume t) = some s') :
    Moves s s' := by
  simp only [next] at h
  split at h
  · rename_i hthread howner
    split_ifs at h with hawake
    obtain rfl := Option.some.inj h
    rcases takeFront_eq { s with notEmpty := s.notEmpty.resume t, owner := some t } t with
      ⟨hempty, heq⟩ | ⟨front, queue, hfront, heq⟩
    · rw [heq]
      exact .resumeEmpty t hthread howner hawake hempty
    · rw [heq]
      exact .resumeFront t front queue hthread howner hawake hfront
  · cases h

/-- **Every step is one of these.** -/
theorem step_moves {s s' : BlockingQueue τ T} {op : Op τ T} (h : s.step op = some s') :
    Moves s s' := by
  unfold step at h
  split_ifs at h with hfailed
  cases op with
  | lock t => exact lock_moves h
  | resume t => exact resume_moves h
  | put t x =>
      simp only [next] at h
      split at h
      · rename_i hthread
        obtain rfl := Option.some.inj h
        exact .put t x hthread
      · cases h
  | take t =>
      simp only [next] at h
      split at h
      · rename_i hthread
        obtain rfl := Option.some.inj h
        exact .take t hthread
      · cases h
  | size t =>
      simp only [next] at h
      split at h
      · rename_i hthread
        obtain rfl := Option.some.inj h
        exact .size t hthread
      · cases h
  | notify t chosen =>
      simp only [next] at h
      split at h
      · rename_i x hthread
        split_ifs at h with hwakes
        obtain rfl := Option.some.inj h
        exact .notify t x chosen hthread hwakes
      · cases h
  | wait t =>
      simp only [next] at h
      split at h
      · rename_i hthread
        obtain rfl := Option.some.inj h
        exact .wait t hthread
      · cases h
  | rouse t =>
      simp only [next] at h
      split_ifs at h with hasleep
      obtain rfl := Option.some.inj h
      exact .rouse t hasleep
  | unlock t =>
      simp only [next] at h
      split at h
      · rename_i hthread
        obtain rfl := Option.some.inj h
        exact .unlockPut t hthread
      · rename_i front hthread
        obtain rfl := Option.some.inj h
        exact .unlockTake t front hthread
      · rename_i size hthread
        obtain rfl := Option.some.inj h
        exact .unlockSize t size hthread
      · cases h
  | finish t =>
      simp only [next] at h
      split at h
      · rename_i front hthread
        obtain rfl := Option.some.inj h
        exact .finish t front hthread
      · cases h

end

/-! ### The invariant -/

/-- Of what a thread has taken, it has returned all but what it has in hand. -/
def Accounted [DecidableEq τ] (taken returned : List (τ × T)) (threads : τ → Thread T) : Prop :=
  ∀ t, Record.of t taken = Record.of t returned ++ (threads t).inHand

/-- Nobody is about to wait while there is something in the queue. -/
def Patient (queue : List T) (threads : τ → Thread T) : Prop :=
  ∀ t, threads t = .waiting → queue = []

section

variable [DecidableEq τ] {taken returned : List (τ × T)} {threads : τ → Thread T} {queue : List T}
  {t : τ} {thread : Thread T} {front : T}

/-- A thread that has as much in hand as before. -/
theorem Accounted.move (h : Accounted taken returned threads)
    (hthread : thread.inHand = (threads t).inHand) :
    Accounted taken returned (Function.update threads t thread) := by
  refine (Function.forall_update_iff threads fun u other =>
    Record.of u taken = Record.of u returned ++ other.inHand).2 ⟨?_, fun u _ => h u⟩
  rw [hthread]
  exact h t

/-- A thread that takes a value in hand. -/
theorem Accounted.pop (h : Accounted taken returned threads) (hbefore : (threads t).inHand = [])
    (hthread : thread.inHand = [front]) :
    Accounted (taken ++ [(t, front)]) returned (Function.update threads t thread) := by
  refine (Function.forall_update_iff threads fun u other =>
    Record.of u (taken ++ [(t, front)]) = Record.of u returned ++ other.inHand).2
      ⟨?_, fun u hu => ?_⟩
  · rw [Record.of_append, if_pos rfl, hthread, h t, hbefore, List.append_nil]
  · rw [Record.of_append, if_neg (Ne.symm hu), List.append_nil]
    exact h u

theorem Accounted.finish (h : Accounted taken returned threads)
    (hbefore : (threads t).inHand = [front]) (hthread : thread.inHand = []) :
    Accounted taken (returned ++ [(t, front)]) (Function.update threads t thread) := by
  refine (Function.forall_update_iff threads fun u other =>
    Record.of u taken = Record.of u (returned ++ [(t, front)]) ++ other.inHand).2
      ⟨?_, fun u hu => ?_⟩
  · rw [Record.of_append, if_pos rfl, hthread, List.append_nil, h t, hbefore]
  · rw [Record.of_append, if_neg (Ne.symm hu), List.append_nil]
    exact h u

/-- A thread that is not about to wait. -/
theorem Patient.move (h : Patient queue threads) (hthread : thread ≠ .waiting) :
    Patient queue (Function.update threads t thread) :=
  (Function.forall_update_iff threads fun _ other => other = .waiting → queue = []).2
    ⟨fun hwaiting => absurd hwaiting hthread, fun u _ => h u⟩

/-- The thread that has the mutex may change the queue. -/
theorem Patient.of_exclusive {owner : Option τ} (h : Exclusive Thread.inside owner threads)
    (howner : owner = none ∨ owner = some t) (thread : Thread T) (hthread : thread ≠ .waiting)
    (queue : List T) :
    Patient queue (Function.update threads t thread) := by
  refine (Function.forall_update_iff threads fun _ other => other = .waiting → queue = []).2
    ⟨fun hwaiting => absurd hwaiting hthread, fun u hut hwaiting => ?_⟩
  have hin := h.owner_eq (t := u) (by rw [hwaiting]; rfl)
  rcases howner with hfree | howner
  · rw [hfree] at hin
    cases hin
  · rw [howner] at hin
    exact absurd (Option.some_inj.1 hin).symm hut

end

section

variable [Fintype τ] [DecidableEq τ]

/-- What is promised: the values are taken in the order in which they were put, and returned once by
the thread that took them; the assertion holds; and nobody sleeps without a signal while there are
more values in the queue than threads that have been signalled and have not gone on. -/
structure Fifo (s : BlockingQueue τ T) : Prop where
  order : s.put = s.taken.map Prod.snd ++ s.queue
  returned : Accounted s.taken s.returned s.threads
  asserted : s.failed = false
  noLostWakeup : ∀ t, s.notEmpty t = some .asleep → s.queue.length ≤ s.notEmpty.signalled

structure WellFormed (s : BlockingQueue τ T) : Prop where
  exclusive : Exclusive Thread.inside s.owner s.threads
  order : s.put = s.taken.map Prod.snd ++ s.queue
  returned : Accounted s.taken s.returned s.threads
  asserted : s.failed = false
  patient : Patient s.queue s.threads
  covered : s.notEmpty.Covered s.queue.length 0

theorem WellFormed.fifo {s : BlockingQueue τ T} (h : s.WellFormed) : s.Fifo where
  order := h.order
  returned := h.returned
  asserted := h.asserted
  noLostWakeup := fun t ht => h.covered.resolve_left fun hnone => hnone t ht

theorem wellFormed_init : (init : BlockingQueue τ T).WellFormed where
  exclusive := Exclusive.init rfl
  order := rfl
  returned := fun _ => rfl
  asserted := rfl
  patient := fun _ _ => rfl
  covered := Or.inl Condition.noneAsleep_empty

/-- A thread that is not about to wait goes on, inside or outside. -/
theorem WellFormed.move {s : BlockingQueue τ T} (h : s.WellFormed) {t : τ} {thread : Thread T}
    (hinside : thread.inside = (s.threads t).inside) (hhand : thread.inHand = (s.threads t).inHand)
    (hthread : thread ≠ .waiting) : (s.setThread t thread).WellFormed :=
  { h with
    exclusive := h.exclusive.move hinside
    returned := h.returned.move hhand
    patient := h.patient.move hthread }

/-- A thread that is not about to wait gets the mutex. -/
theorem WellFormed.enter {s : BlockingQueue τ T} (h : s.WellFormed) {t : τ} {thread : Thread T}
    (hfree : s.owner = none) (hinside : thread.inside = true)
    (hhand : thread.inHand = (s.threads t).inHand) (hthread : thread ≠ .waiting) :
    WellFormed ({ s with owner := some t }.setThread t thread) := by
  have hexclusive := h.exclusive
  rw [hfree] at hexclusive
  exact { h with
    exclusive := hexclusive.enter hinside
    returned := h.returned.move hhand
    patient := h.patient.move hthread }

/-- The thread that has the mutex gives it away. -/
theorem WellFormed.leave {s : BlockingQueue τ T} (h : s.WellFormed) {t : τ} {thread : Thread T}
    (hbefore : (s.threads t).inside = true) (hinside : thread.inside = false)
    (hhand : thread.inHand = (s.threads t).inHand) (hthread : thread ≠ .waiting) :
    WellFormed ({ s with owner := none }.setThread t thread) := by
  have hexclusive := h.exclusive
  rw [hexclusive.owner_eq hbefore] at hexclusive
  exact { h with
    exclusive := hexclusive.leave hinside
    returned := h.returned.move hhand
    patient := h.patient.move hthread }

/-- **No step breaks the invariant.** -/
theorem wellFormed_moves {s s' : BlockingQueue τ T} (h : s.WellFormed) (hmoves : Moves s s') :
    s'.WellFormed := by
  have ⟨hexclusive, horder, hreturned, hasserted, hpatient, hcovered⟩ := h
  cases hmoves with
  | put t x hidle => exact h.move (by rw [hidle]; rfl) (by rw [hidle]; rfl) nofun
  | take t hidle => exact h.move (by rw [hidle]; rfl) (by rw [hidle]; rfl) nofun
  | size t hidle => exact h.move (by rw [hidle]; rfl) (by rw [hidle]; rfl) nofun
  | lockPut t x hputting hfree => exact h.enter hfree rfl (by rw [hputting]; rfl) nofun
  | lockSize t hsizing hfree => exact h.enter hfree rfl (by rw [hsizing]; rfl) nofun
  | lockEmpty t htaking hfree hempty =>
      rw [hfree] at hexclusive
      exact ⟨hexclusive.enter rfl, horder, hreturned.move (by rw [htaking]; rfl), hasserted,
        fun _ _ => hempty, hcovered⟩
  | lockFront t front queue htaking hfree hfront =>
      rw [hfree] at hexclusive
      rw [hfront] at horder hcovered
      refine ⟨hexclusive.enter rfl, ?_, hreturned.pop (by rw [htaking]; rfl) rfl, hasserted,
        Patient.of_exclusive hexclusive (Or.inl rfl) (.popped front) nofun _, ?_⟩
      · simpa [setThread] using horder
      · exact hcovered.mono fun _ => by simp [setThread]
  | notify t x chosen hpushing hwakes =>
      have howner := hexclusive.owner_eq (t := t) (by rw [hpushing]; rfl)
      refine ⟨hexclusive.move (by rw [hpushing]; rfl), ?_, hreturned.move (by rw [hpushing]; rfl),
        hasserted, Patient.of_exclusive hexclusive (Or.inr howner) .pushed nofun _, ?_⟩
      · simp [setThread, horder]
      · -- the value is one more to do, and the signal covers it
        have hone : s.notEmpty.Covered (s.queue ++ [x]).length 1 :=
          hcovered.mono fun _ => by simp
        exact hone.notify hwakes
  | wait t hwaiting =>
      have howner := hexclusive.owner_eq (t := t) (by rw [hwaiting]; rfl)
      rw [howner] at hexclusive
      refine ⟨hexclusive.leave rfl, horder, hreturned.move (by rw [hwaiting]; rfl), hasserted,
        hpatient.move nofun, ?_⟩
      have hempty := hpatient t hwaiting
      simp only [setThread, hempty]
      exact Condition.covered_zero _ 0
  | rouse t hasleep =>
      exact ⟨hexclusive, horder, hreturned, hasserted, hpatient, hcovered.rouse hasleep⟩
  | resumeEmpty t hwait hfree hawake hempty =>
      rw [hfree] at hexclusive
      refine ⟨hexclusive.enter rfl, horder, hreturned.move (by rw [hwait]; rfl), hasserted,
        fun _ _ => hempty, ?_⟩
      simp only [setThread, hempty]
      exact Condition.covered_zero _ 0
  | resumeFront t front queue hwait hfree hawake hfront =>
      rw [hfree] at hexclusive
      rw [hfront] at horder hcovered
      refine ⟨hexclusive.enter rfl, ?_, hreturned.pop (by rw [hwait]; rfl) rfl, hasserted,
        Patient.of_exclusive hexclusive (Or.inl rfl) (.popped front) nofun _, ?_⟩
      · simpa [setThread] using horder
      · -- the thread that goes on uses up one signal and takes one value
        exact (hcovered.resume t).mono fun _ => by simp [setThread]
  | unlockPut t hpushed =>
      exact h.leave (by rw [hpushed]; rfl) rfl (by rw [hpushed]; rfl) nofun
  | unlockTake t front hpopped =>
      exact h.leave (by rw [hpopped]; rfl) rfl (by rw [hpopped]; rfl) nofun
  | unlockSize t size hsized =>
      exact h.leave (by rw [hsized]; rfl) rfl (by rw [hsized]; rfl) nofun
  | finish t front hreturning =>
      exact ⟨hexclusive.move (by rw [hreturning]; rfl), horder,
        hreturned.finish (by rw [hreturning]; rfl) rfl, hasserted, hpatient.move nofun, hcovered⟩

/-- **A blocking queue is first in, first out, and loses no wake-up.**  In every state of every run,
with any number of threads: the values put are those taken, in this order, followed by the queue,
and each thread has returned what it took, but for what it is about to return; the assertion of
`take` holds; and no thread sleeps without a signal while there are more values in the queue than
threads that have been signalled and have not gone on. -/
theorem fifo_of_exec {ops : List (Op τ T)} {s : BlockingQueue τ T}
    (h : Runs.exec step init ops = some s) : s.Fifo := by
  have hinvariant : Runs.Invariant step (WellFormed (τ := τ) (T := T)) :=
    fun s op s' hs hstep => wellFormed_moves hs (step_moves hstep)
  exact (Runs.exec_invariant hinvariant wellFormed_init h).fifo

end

/-- One thread waits, wakes for no reason and waits again; another one puts two values, and the
first one is signalled for it and takes one of them. -/
def demoOps : List (Op Bool ℕ) :=
  [.take true, .lock true, .wait true, .rouse true, .resume true, .wait true,
    .put false 5, .lock false, .notify false {true}, .unlock false,
    .put false 7, .lock false, .notify false ∅, .unlock false,
    .resume true, .unlock true, .finish true]

theorem fifo_of_exec_demoOps :
    ∃ s : BlockingQueue Bool ℕ, Runs.exec step init demoOps = some s ∧ s.put = [5, 7] ∧
      s.returned = [(true, 5)] ∧ s.queue = [7] ∧ s.Fifo := by
  have hrun : ((Runs.exec step (init : BlockingQueue Bool ℕ) demoOps).map fun s =>
      (s.put, s.returned, s.queue)) = some ([5, 7], [(true, 5)], [7]) := by decide
  obtain ⟨s, hs, hfields⟩ := Option.map_eq_some_iff.1 hrun
  obtain ⟨hput, hrest⟩ := Prod.mk.inj hfields
  obtain ⟨hreturned, hqueue⟩ := Prod.mk.inj hrest
  exact ⟨s, hs, hput, hreturned, hqueue, fifo_of_exec hs⟩

end BlockingQueue

end G5
