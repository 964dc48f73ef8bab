/-
**The mutex of the thread pool** (`ThreadPool::run` and `isFull` of `src/base/ThreadPool.cc`).

`isFull` asserts that the mutex is locked by the thread that calls it.  Here `run`, of a pool that
has workers, goes statement by statement over a mutex whose functions go statement by statement
themselves, with any number of threads in `run`, and any others that lock the mutex, unlock it and
wait as they like, and write the fields of the pool.

Main definitions:

* `PoolMutex`, `PoolMutex.Place` — the pool with its mutex, and the places of `run`;
* `PoolMutex.isFull`, `PoolMutex.goRun` — `isFull` with its assertion, and the statements of `run`;
* `PoolMutex.step` — the runs;
* `PoolMutex.Guarded` — the invariant.

Main results:

* `PoolMutex.guarded_step` — **no step breaks the invariant**;
* `PoolMutex.holder_exact` — in every state of every run the recorded holder is exact, and the
  assertion has not failed.
-/

import G5.Base.Mutex
import G5.Lib.Runs

set_option relaxedAutoImplicit false
set_option autoImplicit false

namespace G5

namespace PoolMutex

/-- Where a thread is in `run`; from a call of the mutex it goes on there. -/
inductive Place (T : Type)
  | elsewhere
  /-- at `MutexLockGuard lock(mutex_)` -/
  | entering (task : T)
  /-- at the test of `while(isFull() && running_)` -/
  | testing (task : T)
  /-- at `if(!running_) return` -/
  | checking (task : T)
  /-- at `assert(!isFull())` -/
  | asserting (task : T)
  /-- at `queue_.push_back(std::move(task))` and `notEmpty_.notify()` -/
  | pushing (task : T)
  /-- at the end of the section -/
  | leaving
  deriving DecidableEq, Repr

/-- The place is in the section that the mutex protects. -/
def Place.inSection {T : Type} : Place T → Bool
  | .testing _ | .checking _ | .asserting _ | .pushing _ | .leaving => true
  | .elsewhere | .entering _ => false

end PoolMutex

/-- The pool with its mutex and its threads. -/
structure PoolMutex (τ T : Type) where
  mutex : MutexLock τ
  maxQueueSize : ℕ
  running : Bool
  queue : List T
  places : τ → PoolMutex.Place T
  /-- the assertion of `isFull` has failed, when it was called from `run` -/
  failed : Bool

namespace PoolMutex

/-- What may happen next. -/
inductive Op (τ T : Type)
  /-- a thread calls `run` -/
  | call (t : τ) (task : T)
  /-- a thread in `run` takes the next step of its own -/
  | run (t : τ)
  /-- a step of the mutex: of a thread in `run` only those of what it has called -/
  | mutex (op : MutexLock.Op τ)
  /-- the other functions of the pool write its fields -/
  | write (running : Bool) (queue : List T)

variable {τ T : Type}

def init (maxQueueSize : ℕ) (running : Bool) : PoolMutex τ T where
  mutex := .init
  maxQueueSize := maxQueueSize
  running := running
  queue := []
  places := fun _ => .elsewhere
  failed := false

def isFull (tid : τ → ℤ) (s : PoolMutex τ T) (t : τ) : Checked Bool := do
  s.mutex.assertLocked tid t
  return 0 < s.maxQueueSize && s.maxQueueSize ≤ s.queue.length

/-- The thread is not in a function of the mutex. -/
def ownCode (s : PoolMutex τ T) (t : τ) : Bool :=
  s.mutex.points t == .outside || s.mutex.points t == .inside

/-- A thread that is not in `run` may call the functions of the mutex. -/
def mayCall (s : PoolMutex τ T) : MutexLock.Op τ → Bool
  | .lock t | .unlock t | .wait t | .waitForSeconds t _ =>
      match s.places t with
      | .elsewhere => true
      | _ => false
  | .wake _ | .go _ => true

section

variable [DecidableEq τ]

def setPlace (s : PoolMutex τ T) (t : τ) (place : Place T) : PoolMutex τ T :=
  { s with places := Function.update s.places t place }

/-- A call of the mutex, after which the thread goes on at the given place. -/
def callMutex (tid : τ → ℤ) (s : PoolMutex τ T) (t : τ) (op : MutexLock.Op τ) (place : Place T) :
    Option (PoolMutex τ T) :=
  (s.mutex.next tid op).map fun mutex => { s with mutex := mutex }.setPlace t place

/-- The next statement of `run`. -/
def goRun (tid : τ → ℤ) (s : PoolMutex τ T) (t : τ) : Place T → Option (PoolMutex τ T)
  | .elsewhere => none
  | .entering task => s.callMutex tid t (.lock t) (.testing task)
  | .testing task =>
      match s.isFull tid t with
      | .error _ => some { s with failed := true }
      | .ok full =>
          if full && s.running then s.callMutex tid t (.wait t) (.testing task)
          else some (s.setPlace t (.checking task))
  | .checking task => some (s.setPlace t (if s.running then .asserting task else .leaving))
  | .asserting task =>
      match s.isFull tid t with
      | .error _ => some { s with failed := true }
      | .ok full => if full then none else some (s.setPlace t (.pushing task))
  | .pushing task => some ({ s with queue := s.queue ++ [task] }.setPlace t .leaving)
  | .leaving => s.callMutex tid t (.unlock t) .elsewhere

/-- One step, as long as the assertion has not failed. -/
def step (tid : τ → ℤ) (s : PoolMutex τ T) (op : Op τ T) : Option (PoolMutex τ T) :=
  if s.failed then none
  else
    match op with
    | .call t task =>
        match s.places t, s.ownCode t with
        | .elsewhere, true => some (s.setPlace t (.entering task))
        | _, _ => none
    | .run t => if s.ownCode t then s.goRun tid t (s.places t) else none
    | .mutex op =>
        if s.mayCall op then (s.mutex.next tid op).map fun mutex => { s with mutex := mutex }
        else none
    | .write running queue => some { s with running := running, queue := queue }

end

/-! ### The invariant -/

/-- The recorded holder is exact, and a thread in the section of `run` has called `lock` and has not
begun to unlock. -/
structure Guarded (tid : τ → ℤ) (s : PoolMutex τ T) : Prop where
  exact : s.mutex.Exact tid
  within : ∀ t, (s.places t).inSection = true → (s.mutex.points t).within = true
  asserted : s.failed = false

theorem guarded_init (tid : τ → ℤ) (maxQueueSize : ℕ) (running : Bool) :
    (init maxQueueSize running : PoolMutex τ T).Guarded tid where
  exact := MutexLock.exact_init tid
  within := fun _ h => by cases h
  asserted := rfl

section

variable {tid : τ → ℤ} {s s' : PoolMutex τ T} {t : τ} {place : Place T}

/-- In its own code, a thread in the section of `run` has the mutex. -/
theorem Guarded.inside (h : s.Guarded tid) (hsection : (s.places t).inSection = true)
    (hcode : s.ownCode t = true) : s.mutex.points t = .inside := by
  have hwithin := h.within t hsection
  rw [ownCode, Bool.or_eq_true, beq_iff_eq, beq_iff_eq] at hcode
  rcases hcode with hout | hin
  · rw [hout] at hwithin
    cases hwithin
  · exact hin

/-- **The assertion of `isFull` holds** where `run` calls it. -/
theorem Guarded.isFull_eq (h : s.Guarded tid) (hsection : (s.places t).inSection = true)
    (hcode : s.ownCode t = true) :
    s.isFull tid t = .ok (0 < s.maxQueueSize && s.maxQueueSize ≤ s.queue.length) := by
  have hpoint := h.inside hsection hcode
  have hholder := h.exact.holder_of_assigned (t := t) (by rw [hpoint]; rfl) (by rw [hpoint]; rfl)
  have hlocked : s.mutex.isLockedByThisThread tid t = true := beq_iff_eq.2 hholder
  rw [isFull, MutexLock.assertLocked, assertThat_pos hlocked]
  rfl

variable [DecidableEq τ]

/-- A thread goes to another place; into the section only after it has called `lock`. -/
theorem Guarded.setPlace (h : s.Guarded tid)
    (hplace : place.inSection = true → (s.mutex.points t).within = true) :
    (s.setPlace t place).Guarded tid where
  exact := h.exact
  within := (Function.forall_update_iff s.places fun u place =>
    place.inSection = true → (s.mutex.points u).within = true).2 ⟨hplace, fun u _ => h.within u⟩
  asserted := h.asserted

/-- A step of the mutex, by which no thread in the section begins to unlock it. -/
theorem Guarded.mutex (h : s.Guarded tid) {op : MutexLock.Op τ} {mutex : MutexLock τ}
    (hnext : s.mutex.next tid op = some mutex)
    (hop : ∀ u, (s.places u).inSection = true → op ≠ .unlock u) :
    Guarded tid { s with mutex := mutex } where
  exact := MutexLock.exact_moves h.exact (MutexLock.next_moves hnext)
  within := fun u hu =>
    MutexLock.within_moves (MutexLock.next_moves hnext) (hop u hu) (h.within u hu)
  asserted := h.asserted

/-- A call of the mutex by a thread in `run`. -/
theorem Guarded.callMutex (h : s.Guarded tid) {op : MutexLock.Op τ}
    (hcall : s.callMutex tid t op place = some s') (hop : ∀ u, u ≠ t → op ≠ .unlock u)
    (hplace : place.inSection = true → ∀ mutex, MutexLock.Moves tid s.mutex op mutex →
      (mutex.points t).within = true) : s'.Guarded tid := by
  obtain ⟨mutex, hnext, rfl⟩ := Option.map_eq_some_iff.1 hcall
  have hmoves := MutexLock.next_moves hnext
  refine ⟨MutexLock.exact_moves h.exact hmoves, ?_, h.asserted⟩
  refine (Function.forall_update_iff s.places fun u place =>
    place.inSection = true → (mutex.points u).within = true).2
      ⟨fun hsection => hplace hsection mutex hmoves, fun u hut hsection => ?_⟩
  exact MutexLock.within_moves hmoves (hop u hut) (h.within u hsection)

/-! ### The steps -/

/-- The statements of `run`. -/
theorem guarded_goRun (h : s.Guarded tid) (hcode : s.ownCode t = true)
    (hgo : s.goRun tid t (s.places t) = some s') : s'.Guarded tid := by
  cases hplace : s.places t with
  | elsewhere =>
      rw [hplace] at hgo
      cases hgo
  | entering task =>
      rw [hplace] at hgo
      refine h.callMutex hgo nofun fun _ mutex hmoves => ?_
      cases hmoves with
      | lock t hpoint => rw [MutexLock.setPoint_self]; rfl
      | relock t hpoint => rw [MutexLock.setPoint_self]; rfl
  | testing task =>
      have hwithin := h.within t (by rw [hplace]; rfl)
      have hfull := h.isFull_eq (t := t) (by rw [hplace]; rfl) hcode
      rw [hplace, goRun, hfull] at hgo
      simp only [] at hgo
      split_ifs at hgo with hwait
      · exact h.callMutex hgo nofun fun _ mutex hmoves =>
          MutexLock.within_moves hmoves nofun hwithin
      · cases hgo
        exact h.setPlace fun _ => hwithin
  | checking task =>
      have hwithin := h.within t (by rw [hplace]; rfl)
      rw [hplace] at hgo
      cases hgo
      exact h.setPlace fun _ => hwithin
  | asserting task =>
      have hwithin := h.within t (by rw [hplace]; rfl)
      have hfull := h.isFull_eq (t := t) (by rw [hplace]; rfl) hcode
      rw [hplace, goRun, hfull] at hgo
      simp only [] at hgo
      split_ifs at hgo with hroom
      cases hgo
      exact h.setPlace fun _ => hwithin
  | pushing task =>
      have hwithin := h.within t (by rw [hplace]; rfl)
      rw [hplace] at hgo
      cases hgo
      exact Guarded.setPlace ⟨h.exact, h.within, h.asserted⟩ fun _ => hwithin
  | leaving =>
      rw [hplace] at hgo
      refine h.callMutex hgo (fun u hut hunlock => ?_) fun hsection => by cases hsection
      cases hunlock
      exact hut rfl

/-- **No step breaks the invariant.** -/
theorem guarded_step {op : Op τ T} (h : s.Guarded tid) (hstep : s.step tid op = some s') :
    s'.Guarded tid := by
  unfold step at hstep
  split_ifs at hstep with hfailed
  cases op with
  | call t task =>
      simp only [] at hstep
      split at hstep
      · cases hstep
        exact h.setPlace fun hsection => by cases hsection
      · cases hstep
  | run t =>
      simp only [] at hstep
      split_ifs at hstep with hcode
      exact guarded_goRun h hcode hstep
  | mutex op =>
      simp only [] at hstep
      split_ifs at hstep with hmay
      obtain ⟨mutex, hnext, rfl⟩ := Option.map_eq_some_iff.1 hstep
      refine h.mutex hnext fun u hsection hunlock => ?_
      -- a thread in `run` does not call the mutex by itself
      rw [hunlock, mayCall] at hmay
      split at hmay
      · rename_i helsewhere
        rw [helsewhere] at hsection
        cases hsection
      · cases hmay
  | write running queue =>
      cases hstep
      exact ⟨h.exact, h.within, h.asserted⟩

/-- **The recorded holder is exact.**  For any number of threads with distinct ids that are not
zero, in every state of every run: the field is zero or the id of the thread that owns the mutex; a
thread that has returned from `lock` or a wait, and has not begun to unlock or to wait, finds the
mutex locked by itself, and no other thread does; the field is zero while nobody owns the mutex, and
nobody finds it locked who does not own it; and the assertion of `isFull` has not failed in `run`.
-/
theorem holder_exact {tid : τ → ℤ} (htid : Function.Injective tid) (hzero : ∀ t, tid t ≠ 0)
    {maxQueueSize : ℕ} {running : Bool} {ops : List (Op τ T)} {s : PoolMutex τ T}
    (h : Runs.exec (step tid) (init maxQueueSize running) ops = some s) :
    s.mutex.Recorded tid ∧ s.failed = false := by
  have hinvariant : Runs.Invariant (step tid) (Guarded (T := T) tid) :=
    fun s op s' hs hstep => guarded_step hs hstep
  have hguarded := Runs.exec_invariant hinvariant (guarded_init tid maxQueueSize running) h
  exact ⟨hguarded.exact.recorded htid hzero, hguarded.asserted⟩

end

def demoTid : Bool → ℤ
  | true => 101
  | false => 102

/-- There is room for one task.  The second call of `run` waits for room; the other thread takes the
task out, with a timed wait that is refused, and the first one goes on. -/
def demoOps : List (Op Bool ℕ) :=
  [.call true 7, .run true, .mutex (.go true), .mutex (.go true), .run true, .run true, .run true,
    .run true, .run true, .mutex (.go true), .mutex (.go true),
    .call true 8, .run true, .mutex (.go true), .mutex (.go true), .run true, .mutex (.go true),
    .mutex (.lock false), .mutex (.go true), .mutex (.go false), .mutex (.go false),
    .mutex (.wake true), .mutex (.waitForSeconds false ⟨0, 1500000000⟩), .mutex (.go false),
    .mutex (.go false), .mutex (.go false), .write true [], .mutex (.unlock false),
    .mutex (.go false), .mutex (.go false), .mutex (.go true), .mutex (.go true), .run true,
    .run true, .run true, .run true]

theorem holder_exact_demoOps :
    ∃ s : PoolMutex Bool ℕ, Runs.exec (step demoTid) (init 1 true) demoOps = some s ∧
      s.queue = [8] ∧ s.mutex.holder = 101 ∧ s.mutex.Recorded demoTid ∧ s.failed = false := by
  have htid : Function.Injective demoTid := by
    intro t u h
    cases t <;> cases u <;> first | rfl | cases h
  have hzero : ∀ t, demoTid t ≠ 0 := by
    intro t
    cases t <;> decide
  have hrun : ((Runs.exec (step demoTid) (init 1 true : PoolMutex Bool ℕ) demoOps).map fun s =>
      (s.queue, s.mutex.holder)) = some ([8], 101) := by decide
  obtain ⟨s, hs, hfields⟩ := Option.map_eq_some_iff.1 hrun
  obtain ⟨hqueue, hholder⟩ := Prod.mk.inj hfields
  exact ⟨s, hs, hqueue, hholder, holder_exact htid hzero hs⟩

end PoolMutex

end G5
