/-
**Starting a thread** (`src/base/Thread.cc`).

`Thread::start` creates the thread and waits on a latch; the new thread stores its id in the object
and counts the latch down, through pointers into the object, before it calls its function.  The
object may be destroyed as soon as `start` has returned, while the thread goes on.

The two threads go on in any order, and the latch goes statement by statement.  `pthread_create`
may fail, after which `start` may be called again.  A failed assertion ends the process.

Main definitions:

* `Thread`, `Thread.step` — the object, the thread that owns it and the one that is started;
* `Thread.Sound` — what the owner may rely on.

Main results:

* `Thread.step_moves` — what a step can do, said once;
* `Thread.wellFormed_step` — **no step breaks the invariant**;
* `Thread.handsOver_of_exec` — when `start` has returned, the id is there and the thread is done
  with the object; and a thread that was created is joined or detached, once;
* `Thread.startReturns_of_exec` — **`start` returns**.
-/

import G5.Base.CountDownLatch

set_option relaxedAutoImplicit false
set_option autoImplicit false

namespace G5

/-- The two threads. -/
inductive Party
  /-- the one that owns the object -/
  | owner
  /-- the one that is started -/
  | started
  deriving DecidableEq, Repr

instance : Fintype Party := ⟨{.owner, .started}, fun p => by cases p <;> decide⟩

namespace Thread

/-- Where the owner is. -/
inductive OwnerPc
  | idle
  /-- in `start`, at `pthread_create` -/
  | creating
  /-- in `start`, in `latch_.wait()` -/
  | waiting
  /-- in `start`, at `assert(tid_ > 0)` -/
  | asserting
  /-- in `join`, in `pthread_join` -/
  | joining
  deriving DecidableEq, Repr

/-- Where the thread that is started is. -/
inductive RunnerPc
  | absent
  /-- at `*tid_ = tid()` -/
  | storing
  /-- in `latch_->countDown()` -/
  | counting
  /-- in `func_()` -/
  | running
  | finished
  deriving DecidableEq, Repr

inductive Assertion
  /-- `assert(!started_)` of `start` -/
  | notStarted
  /-- `assert(tid_ > 0)` of `start` -/
  | tidPositive
  /-- `assert(started_)` of `join` -/
  | started
  /-- `assert(!joined_)` of `join` -/
  | notJoined
  deriving DecidableEq, Repr

end Thread

/-- The object and its two threads; the last three fields record what has happened. -/
structure Thread where
  started : Bool
  joined : Bool
  tid : ℤ
  latch : LatchThreads Party
  owner : Thread.OwnerPc
  runner : Thread.RunnerPc
  destroyed : Bool
  failed : Option Thread.Assertion
  /-- the started thread has used the object after its destructor -/
  stale : Bool
  /-- how many threads have been created -/
  created : ℕ
  /-- how often a thread has been joined or detached -/
  released : ℕ

namespace Thread

/-- What may happen next. -/
inductive Op
  | start
  /-- `pthread_create`, and whether it succeeds -/
  | create (created : Bool)
  /-- the started thread stores its id -/
  | storeTid (tid : ℤ)
  /-- a step in a function of the latch -/
  | latch (op : LatchThreads.Op Party)
  /-- `latch_.wait()` has returned -/
  | waited
  /-- `latch_->countDown()` has returned -/
  | counted
  | assertTid
  /-- `func_()` returns -/
  | finish
  | join
  /-- `pthread_join` returns -/
  | joined
  /-- the destructor -/
  | destroy

/-- What `start` and the beginning of the new thread do by themselves, if nobody wakes for no
reason. -/
def Op.isOwn : Op → Bool
  | .create _ | .storeTid _ | .latch (.go _) | .waited | .counted | .assertTid => true
  | _ => false

/-! ### The functions -/

def init : Thread where
  started := false
  joined := false
  tid := 0
  latch := .init 1
  owner := .idle
  runner := .absent
  destroyed := false
  failed := none
  stale := false
  created := 0
  released := 0

def fail (s : Thread) (a : Assertion) : Thread := { s with failed := some a }

/-- The started thread uses a pointer into the object. -/
def touch (s : Thread) : Thread := { s with stale := s.stale || s.destroyed }

/-- The latch makes a step. -/
def latchStep (s : Thread) (op : LatchThreads.Op Party) : Option Thread :=
  (s.latch.step op).map fun latch => { s with latch := latch }

/-- One step, before an assertion has failed. -/
def next (s : Thread) : Op → Option Thread
  | .start =>
      if s.owner = .idle ∧ s.destroyed = false then
        if s.started then some (s.fail .notStarted)
        else some { s with started := true, owner := .creating }
      else none
  | .create created =>
      if s.owner = .creating then
        if created then
          { s with
            owner := .waiting
            runner := .storing
            created := s.created + 1 }.latchStep (.call .owner .wait)
        else some { s with started := false, owner := .idle }
      else none
  -- the ids of threads are positive
  | .storeTid tid =>
      if s.runner = .storing ∧ 0 < tid then
        { s with tid := tid, runner := .counting }.touch.latchStep (.call .started .countDown)
      else none
  | .latch (.call _ _) => none
  | .latch (.go .owner) => s.latchStep (.go .owner)
  | .latch (.go .started) => s.touch.latchStep (.go .started)
  | .latch (.rouse t) => s.latchStep (.rouse t)
  | .waited =>
      if s.owner = .waiting ∧ s.latch.points .owner = .outside then
        some { s with owner := .asserting }
      else none
  | .counted =>
      if s.runner = .counting ∧ s.latch.points .started = .outside then
        some { s with runner := .running }
      else none
  | .assertTid =>
      if s.owner = .asserting then
        if 0 < s.tid then some { s with owner := .idle } else some (s.fail .tidPositive)
      else none
  | .finish => if s.runner = .running then some { s with runner := .finished } else none
  | .join =>
      if s.owner = .idle ∧ s.destroyed = false then
        if s.started = false then some (s.fail .started)
        else if s.joined then some (s.fail .notJoined)
        else some { s with joined := true, owner := .joining }
      else none
  | .joined =>
      if s.owner = .joining ∧ s.runner = .finished then
        some { s with owner := .idle, released := s.released + 1 }
      else none
  | .destroy =>
      if s.owner = .idle ∧ s.destroyed = false then
        some { s with
          destroyed := true
          released := if s.started && !s.joined then s.released + 1 else s.released }
      else none

/-- One step. -/
def step (s : Thread) (op : Op) : Option Thread := if s.failed = none then s.next op else none

/-! ### What a step can do -/

/-- The steps, with their guards. -/
inductive Moves (s : Thread) : Op → Thread → Prop
  | start (howner : s.owner = .idle) (hlive : s.destroyed = false) (hstarted : s.started = false) :
      Moves s .start { s with started := true, owner := .creating }
  | startTwice (hstarted : s.started = true) : Moves s .start (s.fail .notStarted)
  | create {latch : LatchThreads Party} (howner : s.owner = .creating)
      (hlatch : s.latch.step (.call .owner .wait) = some latch) :
      Moves s (.create true)
        { s with
          owner := .waiting
          runner := .storing
          created := s.created + 1
          latch := latch }
  | createFails (howner : s.owner = .creating) :
      Moves s (.create false) { s with started := false, owner := .idle }
  | storeTid {tid : ℤ} {latch : LatchThreads Party} (hrunner : s.runner = .storing)
      (htid : 0 < tid) (hlatch : s.latch.step (.call .started .countDown) = some latch) :
      Moves s (.storeTid tid)
        ({ s with tid := tid, runner := .counting, latch := latch }.touch)
  | goOwner {latch : LatchThreads Party} (hlatch : s.latch.step (.go .owner) = some latch) :
      Moves s (.latch (.go .owner)) { s with latch := latch }
  | goStarted {latch : LatchThreads Party} (hlatch : s.latch.step (.go .started) = some latch) :
      Moves s (.latch (.go .started)) ({ s with latch := latch }.touch)
  | rouse {t : Party} {latch : LatchThreads Party} (hlatch : s.latch.step (.rouse t) = some latch) :
      Moves s (.latch (.rouse t)) { s with latch := latch }
  | waited (howner : s.owner = .waiting) (hpoint : s.latch.points .owner = .outside) :
      Moves s .waited { s with owner := .asserting }
  | counted (hrunner : s.runner = .counting) (hpoint : s.latch.points .started = .outside) :
      Moves s .counted { s with runner := .running }
  | assertTid (howner : s.owner = .asserting) (htid : 0 < s.tid) :
      Moves s .assertTid { s with owner := .idle }
  | assertFails (howner : s.owner = .asserting) (htid : ¬0 < s.tid) :
      Moves s .assertTid (s.fail .tidPositive)
  | finish (hrunner : s.runner = .running) : Moves s .finish { s with runner := .finished }
  | join (howner : s.owner = .idle) (hlive : s.destroyed = false) (hstarted : s.started = true)
      (hjoined : s.joined = false) : Moves s .join { s with joined := true, owner := .joining }
  | joinUnstarted (hstarted : s.started = false) : Moves s .join (s.fail .started)
  | joinTwice (hjoined : s.joined = true) : Moves s .join (s.fail .notJoined)
  | joined (howner : s.owner = .joining) (hrunner : s.runner = .finished) :
      Moves s .joined { s with owner := .idle, released := s.released + 1 }
  | destroy (howner : s.owner = .idle) (hlive : s.destroyed = false) :
      Moves s .destroy
        { s with
          destroyed := true
          released := if s.started && !s.joined then s.released + 1 else s.released }

/-- **A step is one of these**, and none is made after an assertion has failed. -/
theorem step_moves {s s' : Thread} {op : Op} (h : s.step op = some s') :
    s.failed = none ∧ Moves s op s' := by
  simp only [step, Option.ite_none_right_eq_some] at h
  obtain ⟨hfailed, h⟩ := h
  refine ⟨hfailed, ?_⟩
  cases op with
  | start =>
      simp only [next, Option.ite_none_right_eq_some] at h
      obtain ⟨⟨howner, hlive⟩, h⟩ := h
      split_ifs at h with hstarted <;> cases h
      · exact .startTwice hstarted
      · exact .start howner hlive (Bool.not_eq_true _ ▸ hstarted)
  | create created =>
      simp only [next, Option.ite_none_right_eq_some] at h
      obtain ⟨howner, h⟩ := h
      cases created with
      | true =>
          obtain ⟨latch, hlatch, rfl⟩ := Option.map_eq_some_iff.1 h
          exact .create howner hlatch
      | false =>
          cases h
          exact .createFails howner
  | storeTid tid =>
      simp only [next, Option.ite_none_right_eq_some] at h
      obtain ⟨⟨hrunner, htid⟩, h⟩ := h
      obtain ⟨latch, hlatch, rfl⟩ := Option.map_eq_some_iff.1 h
      exact .storeTid hrunner htid hlatch
  | latch op =>
      cases op with
      | call t call => cases h
      | rouse t =>
          obtain ⟨latch, hlatch, rfl⟩ := Option.map_eq_some_iff.1 h
          exact .rouse hlatch
      | go t =>
          cases t with
          | owner =>
              obtain ⟨latch, hlatch, rfl⟩ := Option.map_eq_some_iff.1 h
              exact .goOwner hlatch
          | started =>
              obtain ⟨latch, hlatch, rfl⟩ := Option.map_eq_some_iff.1 h
              exact .goStarted hlatch
  | waited =>
      simp only [next, Option.ite_none_right_eq_some, Option.some.injEq] at h
      obtain ⟨⟨howner, hpoint⟩, rfl⟩ := h
      exact .waited howner hpoint
  | counted =>
      simp only [next, Option.ite_none_right_eq_some, Option.some.injEq] at h
      obtain ⟨⟨hrunner, hpoint⟩, rfl⟩ := h
      exact .counted hrunner hpoint
  | assertTid =>
      simp only [next, Option.ite_none_right_eq_some] at h
      obtain ⟨howner, h⟩ := h
      split_ifs at h with htid <;> cases h
      · exact .assertTid howner htid
      · exact .assertFails howner htid
  | finish =>
      simp only [next, Option.ite_none_right_eq_some, Option.some.injEq] at h
      obtain ⟨hrunner, rfl⟩ := h
      exact .finish hrunner
  | join =>
      simp only [next, Option.ite_none_right_eq_some] at h
      obtain ⟨⟨howner, hlive⟩, h⟩ := h
      split_ifs at h with hstarted hjoined <;> cases h
      · exact .joinUnstarted hstarted
      · exact .joinTwice hjoined
      · exact .join howner hlive (Bool.not_eq_false _ ▸ hstarted) (Bool.not_eq_true _ ▸ hjoined)
  | joined =>
      simp only [next, Option.ite_none_right_eq_some, Option.some.injEq] at h
      obtain ⟨⟨howner, hrunner⟩, rfl⟩ := h
      exact .joined howner hrunner
  | destroy =>
      simp only [next, Option.ite_none_right_eq_some, Option.some.injEq] at h
      obtain ⟨⟨howner, hlive⟩, rfl⟩ := h
      exact .destroy howner hlive

/-! ### The invariant -/

/-- The owner is in the latch only while it waits there. -/
def OwnerAt : OwnerPc → LatchThreads.Point → Prop
  | .waiting, .entering .wait | .waiting, .testing | .waiting, .waiting => True
  | .waiting, .leaving .wait => True
  | _, .outside => True
  | _, _ => False

/-- The started thread is in the latch only to count it down, and counts it down once. -/
def StartedAt (runner : RunnerPc) (point : LatchThreads.Point) (counted : ℕ) : Prop :=
  match runner, point with
  | .absent, .outside | .storing, .outside => counted = 0
  | .counting, .entering .countDown | .counting, .counting => counted = 0
  | .counting, .notifying | .counting, .leaving .countDown | .counting, .outside => counted = 1
  | .running, .outside | .finished, .outside => counted = 1
  | _, _ => False

/-- The latch does not hold the owner back: it has not waited there yet, or not any more. -/
def Past : OwnerPc → LatchThreads.Point → Prop
  | .creating, _ => False
  | .waiting, .leaving .wait | .waiting, .outside => True
  | .waiting, _ => False
  | _, _ => True

/-- The started thread is done with the object. -/
structure Done (latch : LatchThreads Party) : Prop where
  counted : latch.counted = 1
  outside : latch.points .started = .outside

/-- A thread exists once it has been created, and is joined or detached once. -/
structure Accounted (s : Thread) : Prop where
  absent : s.runner = .absent ↔ s.created = 0
  created : s.created = if s.started = true ∧ s.owner ≠ .creating then 1 else 0
  creating : s.owner = .creating → s.started = true
  waits : s.owner = .waiting ∨ s.owner = .asserting → s.started = true
  joined : s.joined = true → s.started = true ∧ s.owner ≠ .creating
  released : s.released =
    if s.destroyed = true ∨ (s.joined = true ∧ s.owner ≠ .joining) then s.created else 0
  joining : s.owner = .joining → s.joined = true
  destroyed : s.destroyed = true → s.owner = .idle

/-- Once the owner is past the latch, a thread that was created is done with the object. -/
structure Handshake (s : Thread) : Prop where
  latch : s.latch.WellFormed 1
  ownerAt : OwnerAt s.owner (s.latch.points .owner)
  startedAt : StartedAt s.runner (s.latch.points .started) s.latch.counted
  past : Past s.owner (s.latch.points .owner) → s.runner = .absent ∨ Done s.latch
  tid : s.runner = .absent ∨ s.runner = .storing ∨ 0 < s.tid
  stale : s.stale = false
  tidPositive : s.failed ≠ some .tidPositive

structure WellFormed (s : Thread) : Prop where
  accounted : s.Accounted
  handshake : s.Handshake

theorem accounted_init : init.Accounted := by
  constructor <;> simp [init]

theorem handshake_init : init.Handshake where
  latch := LatchThreads.wellFormed_init 1
  ownerAt := trivial
  startedAt := rfl
  past _ := Or.inl rfl
  tid := Or.inl rfl
  stale := rfl
  tidPositive := nofun

theorem Accounted.not_destroyed {s : Thread} (h : s.Accounted) (howner : s.owner ≠ .idle) :
    s.destroyed ≠ true := by
  intro hdestroyed
  exact howner (h.destroyed hdestroyed)

/-- The started thread goes on. -/
theorem Accounted.setRunner {s : Thread} (h : s.Accounted) {pc pc' : RunnerPc}
    (hrunner : s.runner = pc) (hold : pc ≠ .absent) (hnew : pc' ≠ .absent) :
    Accounted { s with runner := pc' } where
  __ := h
  absent := by
    constructor
    · intro habsent
      exact absurd habsent hnew
    · intro hcreated
      exact absurd (hrunner.symm.trans (h.absent.2 hcreated)) hold

/-- The owner goes on in `start`, behind `pthread_create`. -/
theorem Accounted.goOn {s : Thread} (h : s.Accounted) {pc : OwnerPc}
    (howner : s.owner = .waiting ∨ s.owner = .asserting) (hpc : pc = .asserting ∨ pc = .idle) :
    Accounted { s with owner := pc } := by
  have hcreated := h.created
  have hreleased := h.released
  have hlive := h.not_destroyed (by rcases howner with howner | howner <;> simp [howner])
  have hstarted := h.waits howner
  have hnot : s.owner ≠ .creating ∧ s.owner ≠ .joining := by
    rcases howner with howner | howner <;> simp [howner]
  have hnew : pc ≠ .creating ∧ pc ≠ .joining := by
    rcases hpc with rfl | rfl <;> simp
  refine ⟨h.absent, ?_, fun hpc => absurd hpc hnew.1, fun _ => hstarted,
    fun _ => ⟨hstarted, hnew.1⟩, ?_, fun hpc => absurd hpc hnew.2, fun hdestroyed =>
      absurd hdestroyed hlive⟩
  · simpa [hnot.1, hnew.1] using hcreated
  · simpa [hnot.2, hnew.2] using hreleased

/-- **Threads are accounted for in every step.** -/
theorem accounted_moves {s s' : Thread} {op : Op} (h : s.Accounted) (hmoves : Moves s op s') :
    s'.Accounted := by
  have hcreated := h.created
  have hreleased := h.released
  cases hmoves with
  | startTwice | assertFails | joinUnstarted | joinTwice | goOwner | rouse | goStarted =>
      exact { h with }
  | counted hrunner => exact h.setRunner hrunner nofun nofun
  | finish hrunner => exact h.setRunner hrunner nofun nofun
  | storeTid hrunner =>
      have hset : Accounted { s with runner := .counting } := h.setRunner hrunner nofun nofun
      exact { hset with }
  | waited howner => exact h.goOn (Or.inl howner) (Or.inl rfl)
  | assertTid howner => exact h.goOn (Or.inr howner) (Or.inr rfl)
  | start howner hlive hstarted =>
      have hjoined : s.joined ≠ true := fun hjoined => by
        have := (h.joined hjoined).1
        simp [hstarted] at this
      refine ⟨h.absent, ?_, fun _ => rfl, nofun, fun hjoined' => absurd hjoined' hjoined, ?_, nofun,
        fun hdestroyed => ?_⟩
      · simpa [hstarted] using hcreated
      · simpa [hjoined] using hreleased
      · simp [hlive] at hdestroyed
  | create howner =>
      have hstarted := h.creating howner
      have hlive := h.not_destroyed (by rw [howner]; exact nofun)
      have hjoined : s.joined ≠ true := fun hjoined => (h.joined hjoined).2 howner
      refine ⟨?_, ?_, nofun, fun _ => hstarted, fun hjoined' => absurd hjoined' hjoined, ?_, nofun,
        fun hdestroyed => absurd hdestroyed hlive⟩
      · simp
      · simpa [howner, hstarted] using hcreated
      · simpa [hlive, hjoined] using hreleased
  | createFails howner =>
      have hlive := h.not_destroyed (by rw [howner]; exact nofun)
      have hjoined : s.joined ≠ true := fun hjoined => (h.joined hjoined).2 howner
      refine ⟨h.absent, ?_, nofun, nofun, fun hjoined' => absurd hjoined' hjoined, ?_, nofun,
        fun hdestroyed => absurd hdestroyed hlive⟩
      · simpa [howner] using hcreated
      · simpa [hlive, hjoined] using hreleased
  | join howner hlive hstarted hjoined =>
      refine ⟨h.absent, ?_, nofun, nofun, fun _ => ⟨hstarted, nofun⟩, ?_, fun _ => rfl,
        fun hdestroyed => ?_⟩
      · simpa [howner, hstarted] using hcreated
      · simpa [hlive, hjoined] using hreleased
      · simp [hlive] at hdestroyed
  | joined howner hrunner =>
      have hjoined := h.joining howner
      have hstarted := (h.joined hjoined).1
      have hlive := h.not_destroyed (by rw [howner]; exact nofun)
      refine ⟨h.absent, ?_, nofun, nofun, fun _ => ⟨hstarted, nofun⟩, ?_, nofun, fun _ => rfl⟩
      · simpa [howner] using hcreated
      · simp [howner, hlive, hstarted] at hreleased hcreated
        simp [hjoined, hreleased, hcreated]
  | destroy howner hlive =>
      refine ⟨h.absent, hcreated, h.creating, h.waits, h.joined, ?_, h.joining, fun _ => howner⟩
      cases hstarted : s.started with
      | false =>
          have hjoined : s.joined = false := by
            by_contra hjoined
            have hboth := h.joined (Bool.not_eq_false _ ▸ hjoined)
            simp [hstarted] at hboth
          simpa [hstarted, hjoined, hlive, hcreated] using hreleased
      | true =>
          cases hjoined : s.joined with
          | false => simp [hjoined, hlive, howner, hstarted, hreleased, hcreated]
          | true => simp [hjoined, hlive, howner, hstarted, hreleased, hcreated]

section

variable {s s' : Thread} {latch : LatchThreads Party}

/-! ### The steps of the latch -/

/-- The owner goes on in the latch. -/
theorem ownerAt_go (h : s.Handshake) (hlatch : s.latch.step (.go .owner) = some latch) :
    s.owner = .waiting ∧ OwnerAt s.owner (latch.points .owner) ∧
      latch.counted = s.latch.counted ∧ (Past s.owner (latch.points .owner) →
        latch.latch.count ≤ 0 ∧ s.latch.owner = some .owner) := by
  have hat := h.ownerAt
  have howns : ∀ p, s.latch.points .owner = p → p.inside = true →
      s.latch.owner = some .owner := by
    rintro p rfl hinside
    exact h.latch.exclusive.owner_eq hinside
  cases LatchThreads.step_moves hlatch with
  | @enter _ call hpoint hfree =>
      cases howner : s.owner <;> cases call <;>
        simp [OwnerAt, Past, hpoint, howner, LatchThreads.Point.first] at hat ⊢
  | pass hpoint hopen =>
      cases howner : s.owner <;> simp [OwnerAt, Past, hpoint, howner] at hat ⊢
      exact ⟨LatchThreads.isClosed_eq_false hopen, howns _ hpoint rfl⟩
  | wait hpoint | resume hpoint | read hpoint | count hpoint | notify hpoint | skip hpoint =>
      cases howner : s.owner <;> simp [OwnerAt, Past, hpoint, howner] at hat ⊢
  | @leave _ call hpoint =>
      cases howner : s.owner <;> cases call <;>
        simp [OwnerAt, Past, hpoint, howner, LatchThreads.leave] at hat ⊢
      exact ⟨h.latch.passed _ hpoint, howns _ hpoint rfl⟩

/-- The started thread goes on in the latch. -/
theorem startedAt_go (h : s.Handshake) (hlatch : s.latch.step (.go .started) = some latch) :
    s.runner = .counting ∧ s.latch.points .started ≠ .outside ∧
      StartedAt s.runner (latch.points .started) latch.counted := by
  have hat := h.startedAt
  cases LatchThreads.step_moves hlatch with
  | @enter _ call hpoint hfree =>
      cases hrunner : s.runner <;> cases call <;>
        simp [StartedAt, hpoint, hrunner, LatchThreads.Point.first] at hat ⊢
      exact hat
  | wait hpoint hclosed | pass hpoint hclosed | resume hpoint hfree hawake
  | read hpoint | count hpoint hfits | notify hpoint hzero | skip hpoint hzero =>
      cases hrunner : s.runner <;>
        simp [StartedAt, hpoint, hrunner] at hat ⊢
      all_goals exact hat
  | @leave _ call hpoint =>
      cases hrunner : s.runner <;> cases call <;>
        simp [StartedAt, hpoint, hrunner, LatchThreads.leave] at hat ⊢
      exact hat

/-- A thread that has counted down, and is not in the section, has left the latch. -/
theorem StartedAt.outside {runner : RunnerPc} {point : LatchThreads.Point} {counted : ℕ}
    (h : StartedAt runner point counted) (hcounted : counted ≠ 0) (hpoint : point.inside = false) :
    counted = 1 ∧ point = .outside := by
  unfold StartedAt at h
  split at h
  -- the places in the section come last
  all_goals first
    | exact absurd h hcounted
    | exact ⟨h, rfl⟩
    | cases hpoint
    | exact h.elim

theorem StartedAt.counted_le {runner : RunnerPc} {point : LatchThreads.Point} {counted : ℕ}
    (h : StartedAt runner point counted) : counted ≤ 1 := by
  unfold StartedAt at h
  split at h
  all_goals first
    | exact h.le.trans (Nat.zero_le 1)
    | exact h.le
    | exact h.elim

/-- While the owner has the mutex of an open latch, the started thread is done with the object. -/
theorem Handshake.done (h : s.Handshake) (hopen : s.latch.latch.count ≤ 0)
    (howner : s.latch.owner = some .owner) : Done s.latch := by
  have hcounted := h.latch.counted
  have houtside : (s.latch.points .started).inside = false := by
    rw [← Bool.not_eq_true]
    intro hinside
    have hstarted := h.latch.exclusive.owner_eq hinside
    rw [howner] at hstarted
    cases hstarted
  obtain ⟨hone, hleft⟩ := h.startedAt.outside (by omega) houtside
  exact ⟨hone, hleft⟩

/-- The started thread uses the object only before it is destroyed. -/
theorem Handshake.touch (h : s.Handshake) (ha : s.Accounted) (hrunner : s.runner ≠ .absent)
    (hdone : ¬Done s.latch) : s.touch.stale = false := by
  have hlive : s.destroyed = false := by
    by_contra hdestroyed
    rw [Bool.not_eq_false] at hdestroyed
    have howner := ha.destroyed hdestroyed
    rcases h.past (by rw [howner]; trivial) with habsent | hdone'
    · exact hrunner habsent
    · exact hdone hdone'
  change (s.stale || s.destroyed) = false
  rw [h.stale, hlive]
  rfl

/-- The owner goes to another place of its own, past the latch. -/
theorem Handshake.setOwner (h : s.Handshake) (howner : s.latch.points .owner = .outside)
    (hpast : s.runner = .absent ∨ Done s.latch) {t : Thread}
    (ht : t.latch = s.latch ∧ t.runner = s.runner ∧ t.tid = s.tid ∧ t.stale = s.stale ∧
      t.failed = s.failed) : t.Handshake := by
  obtain ⟨hlatch, hrunner, htid, hstale, hfailed⟩ := ht
  constructor
  · rw [hlatch]; exact h.latch
  · rw [hlatch, howner]; cases t.owner <;> trivial
  · rw [hlatch, hrunner]; exact h.startedAt
  · rw [hlatch, hrunner]; exact fun _ => hpast
  · rw [hrunner, htid]; exact h.tid
  · rw [hstale]; exact h.stale
  · rw [hfailed]; exact h.tidPositive

/-! ### The steps -/

/-- The owner goes on in the latch. -/
theorem Handshake.goOwner (h : s.Handshake) (hlatch : s.latch.step (.go .owner) = some latch) :
    Handshake { s with latch := latch } := by
  obtain ⟨hwaiting, hat, hcounted, hpast⟩ := ownerAt_go h hlatch
  have hstarted : latch.points .started = s.latch.points .started :=
    LatchThreads.points_go hlatch (by decide)
  have hwell := LatchThreads.wellFormed_step 1 _ _ _ h.latch hlatch
  refine { h with latch := hwell, ownerAt := hat, startedAt := ?_, past := ?_ }
  · change StartedAt s.runner (latch.points .started) latch.counted
    rw [hstarted, hcounted]
    exact h.startedAt
  · intro hp
    obtain ⟨hopen, howns⟩ := hpast hp
    have hcount : latch.latch.count = s.latch.latch.count := by
      rw [hwell.counted, h.latch.counted, hcounted]
    obtain ⟨hone, hleft⟩ := h.done (hcount ▸ hopen) howns
    exact Or.inr ⟨hcounted.trans hone, hstarted.trans hleft⟩

/-- The started thread goes on in the latch; the owner is still held back. -/
theorem Handshake.goStarted (h : s.Handshake) (ha : s.Accounted)
    (hlatch : s.latch.step (.go .started) = some latch) :
    Handshake ({ s with latch := latch }.touch) := by
  obtain ⟨hcounting, hinside, hat⟩ := startedAt_go h hlatch
  have howner : latch.points .owner = s.latch.points .owner :=
    LatchThreads.points_go hlatch (by decide)
  have hdone : ¬Done s.latch := fun hdone => hinside hdone.outside
  have hpresent : s.runner ≠ .absent := by rw [hcounting]; nofun
  refine { h with
    latch := LatchThreads.wellFormed_step 1 _ _ _ h.latch hlatch
    ownerAt := ?_
    startedAt := hat
    past := ?_
    stale := h.touch ha hpresent hdone }
  · change OwnerAt s.owner (latch.points .owner)
    rw [howner]
    exact h.ownerAt
  · intro hp
    change Past s.owner (latch.points .owner) at hp
    rw [howner] at hp
    rcases h.past hp with habsent | hd
    · exact absurd habsent hpresent
    · exact absurd hd hdone

theorem Handshake.rouse {t : Party} (h : s.Handshake)
    (hlatch : s.latch.step (.rouse t) = some latch) : Handshake { s with latch := latch } := by
  have hwell := LatchThreads.wellFormed_step 1 _ _ _ h.latch hlatch
  cases LatchThreads.step_moves hlatch with
  | rouse =>
      exact { h with
        latch := hwell
        past := fun hp => (h.past hp).imp_right fun hdone => ⟨hdone.counted, hdone.outside⟩ }

/-- A call of the latch brings its thread to the guard, and changes nothing else. -/
theorem latch_call {latch' : LatchThreads Party} {t : Party} {call : LatchCall}
    (h : latch.step (.call t call) = some latch') :
    latch'.points t = .entering call ∧ (∀ u, u ≠ t → latch'.points u = latch.points u) ∧
      latch'.counted = latch.counted := by
  cases LatchThreads.step_moves h with
  | call =>
      exact ⟨LatchThreads.setPoint_self _ _ _, fun u hu => LatchThreads.setPoint_of_ne _ hu _, rfl⟩

/-- The thread has been created, and the owner begins to wait. -/
theorem Handshake.create (h : s.Handshake) (ha : s.Accounted) (howner : s.owner = .creating)
    (hlatch : s.latch.step (.call .owner .wait) = some latch) :
    Handshake { s with
      owner := .waiting
      runner := .storing
      created := s.created + 1
      latch := latch } := by
  have habsent := ha.absent.2 (by simpa [howner] using ha.created)
  obtain ⟨hpoint, hother, hcounted⟩ := latch_call hlatch
  have hstarted := h.startedAt
  rw [habsent] at hstarted
  refine ⟨LatchThreads.wellFormed_step 1 _ _ _ h.latch hlatch, ?_, ?_, ?_, Or.inr (Or.inl rfl),
    h.stale, h.tidPositive⟩
  · change OwnerAt .waiting (latch.points .owner)
    rw [hpoint]
    trivial
  · change StartedAt .storing (latch.points .started) latch.counted
    rw [hother .started (by decide), hcounted]
    revert hstarted
    cases s.latch.points .started <;> exact id
  · intro hp
    change Past .waiting (latch.points .owner) at hp
    rw [hpoint] at hp
    exact hp.elim

/-- The id is stored; the owner is still held back. -/
theorem Handshake.storeTid (h : s.Handshake) (ha : s.Accounted) {tid : ℤ}
    (hrunner : s.runner = .storing) (htid : 0 < tid)
    (hlatch : s.latch.step (.call .started .countDown) = some latch) :
    Handshake ({ s with tid := tid, runner := .counting, latch := latch }.touch) := by
  obtain ⟨hpoint, hother, hcounted⟩ := latch_call hlatch
  have hstarted := h.startedAt
  rw [hrunner] at hstarted
  have hzero : s.latch.counted = 0 := by
    revert hstarted
    cases s.latch.points .started <;> simp [StartedAt]
  have hdone : ¬Done s.latch := fun hdone => by
    rw [hdone.counted] at hzero
    cases hzero
  have hpresent : s.runner ≠ .absent := by rw [hrunner]; nofun
  refine ⟨LatchThreads.wellFormed_step 1 _ _ _ h.latch hlatch, ?_, ?_, ?_,
    Or.inr (Or.inr htid), h.touch ha hpresent hdone, h.tidPositive⟩
  · change OwnerAt s.owner (latch.points .owner)
    rw [hother .owner (by decide)]
    exact h.ownerAt
  · change StartedAt .counting (latch.points .started) latch.counted
    rw [hpoint, hcounted]
    exact hzero
  · intro hp
    change Past s.owner (latch.points .owner) at hp
    rw [hother .owner (by decide)] at hp
    rcases h.past hp with habsent | hd
    · exact absurd habsent hpresent
    · exact absurd hd hdone

/-- The started thread goes on behind the latch. -/
theorem Handshake.setRunner (h : s.Handshake) {runner : RunnerPc}
    (hat : StartedAt runner (s.latch.points .started) s.latch.counted)
    (hrunner : s.runner ≠ .absent ∧ s.runner ≠ .storing) :
    Handshake { s with runner := runner } :=
  { h with
    startedAt := hat
    past := fun hp => Or.inr ((h.past hp).resolve_left hrunner.1)
    tid := Or.inr (Or.inr ((h.tid.resolve_left hrunner.1).resolve_left hrunner.2)) }

/-- Outside the latch the owner is not held back. -/
theorem past_of_outside {owner : OwnerPc} (h : owner ≠ .creating) : Past owner .outside := by
  cases owner with
  | creating => exact absurd rfl h
  | _ => trivial

theorem OwnerAt.outside {owner : OwnerPc} {point : LatchThreads.Point} (h : OwnerAt owner point)
    (howner : owner ≠ .waiting) : point = .outside := by
  cases owner with
  | waiting => exact absurd rfl howner
  | _ => cases point <;> first | rfl | exact h.elim

/-- A step that only the owner makes, past the latch. -/
theorem Handshake.past_outside (h : s.Handshake) (howner : s.owner ≠ .waiting)
    (hcreating : s.owner ≠ .creating) :
    s.latch.points .owner = .outside ∧ (s.runner = .absent ∨ Done s.latch) := by
  have hpoint := h.ownerAt.outside howner
  exact ⟨hpoint, h.past (by rw [hpoint]; exact past_of_outside hcreating)⟩

/-- When the owner is past the latch and there is a thread, the thread has stored its id. -/
theorem Handshake.handedOver (h : s.Handshake) (ha : s.Accounted) (hstarted : s.started = true)
    (howner : s.owner ≠ .waiting ∧ s.owner ≠ .creating) :
    0 < s.tid ∧ s.runner ≠ .storing ∧ Done s.latch := by
  have hcreated : s.created = 1 := by rw [ha.created, if_pos ⟨hstarted, howner.2⟩]
  have hpresent : s.runner ≠ .absent := fun habsent => by
    rw [ha.absent.1 habsent] at hcreated
    cases hcreated
  have hdone := (h.past_outside howner.1 howner.2).2.resolve_left hpresent
  have hstored : s.runner ≠ .storing := fun hstoring => by
    have hat := h.startedAt
    rw [hstoring, hdone.outside, hdone.counted] at hat
    cases hat
  exact ⟨(h.tid.resolve_left hpresent).resolve_left hstored, hstored, hdone⟩

/-- **The hand-over is kept in every step.** -/
theorem handshake_moves {op : Op} (h : s.Handshake) (ha : s.Accounted) (hmoves : Moves s op s') :
    s'.Handshake := by
  cases hmoves with
  | start howner | assertTid howner | join howner | joined howner | destroy howner =>
      obtain ⟨hpoint, hpast⟩ := h.past_outside (by rw [howner]; nofun) (by rw [howner]; nofun)
      exact h.setOwner hpoint hpast ⟨rfl, rfl, rfl, rfl, rfl⟩
  | createFails howner =>
      have habsent := ha.absent.2 (by simpa [howner] using ha.created)
      exact h.setOwner (h.ownerAt.outside (by rw [howner]; nofun)) (Or.inl habsent)
        ⟨rfl, rfl, rfl, rfl, rfl⟩
  | waited howner hpoint =>
      have hpast := h.past (by rw [howner, hpoint]; trivial)
      exact h.setOwner hpoint hpast ⟨rfl, rfl, rfl, rfl, rfl⟩
  | create howner hlatch => exact h.create ha howner hlatch
  | storeTid hrunner htid hlatch => exact h.storeTid ha hrunner htid hlatch
  | goOwner hlatch => exact h.goOwner hlatch
  | goStarted hlatch => exact h.goStarted ha hlatch
  | rouse hlatch => exact h.rouse hlatch
  | counted hrunner hpoint =>
      have hstarted := h.startedAt
      rw [hrunner, hpoint] at hstarted
      refine h.setRunner ?_ (by rw [hrunner]; exact ⟨nofun, nofun⟩)
      rw [hpoint]
      exact hstarted
  | finish hrunner =>
      have hstarted := h.startedAt
      rw [hrunner] at hstarted
      refine h.setRunner ?_ (by rw [hrunner]; exact ⟨nofun, nofun⟩)
      revert hstarted
      cases s.latch.points .started <;> exact id
  | assertFails howner htid =>
      have hstarted := ha.waits (Or.inr howner)
      exact absurd (h.handedOver ha hstarted (by rw [howner]; exact ⟨nofun, nofun⟩)).1 htid
  | startTwice | joinUnstarted | joinTwice => exact { h with tidPositive := nofun }

/-- **No step breaks the invariant.** -/
theorem wellFormed_step : Runs.Invariant step WellFormed := by
  intro s op s' h hstep
  obtain ⟨-, hmoves⟩ := step_moves hstep
  exact ⟨accounted_moves h.accounted hmoves, handshake_moves h.handshake h.accounted hmoves⟩

/-! ### What the owner may rely on -/

/-- The assertion on the id does not fail.  When `start` has returned, with a thread, the id is
there and the thread has left the functions of the object for good; so it never uses the object
after the destructor.  There is one thread at most; it is joined or detached once at most, and has
been when the destructor has run. -/
structure Sound (s : Thread) : Prop where
  tidPositive : s.failed ≠ some .tidPositive
  handedOver : s.started = true → s.owner = .idle ∨ s.owner = .joining →
    0 < s.tid ∧ s.runner ≠ .storing ∧ Done s.latch
  stale : s.stale = false
  released : s.released ≤ s.created ∧ s.created ≤ 1
  destroyed : s.destroyed = true → s.released = s.created

theorem WellFormed.sound (h : s.WellFormed) : s.Sound where
  tidPositive := h.handshake.tidPositive
  handedOver hstarted howner := by
    refine h.handshake.handedOver h.accounted hstarted ?_
    rcases howner with howner | howner <;> rw [howner] <;> exact ⟨nofun, nofun⟩
  stale := h.handshake.stale
  released := by
    rw [h.accounted.released, h.accounted.created]
    split_ifs <;> simp
  destroyed hdestroyed := by
    rw [h.accounted.released, if_pos (Or.inl hdestroyed)]

/-- **The object is handed over** in every run, whatever the order of the steps. -/
theorem handsOver_of_exec {ops : List Op} (h : Runs.exec step init ops = some s) : s.Sound :=
  (Runs.exec_invariant wellFormed_step ⟨accounted_init, handshake_init⟩ h).sound

/-- The owner sleeps before the thread stores its id; it is woken, and destroys the object while the
thread runs. -/
def demoOps : List Op :=
  [.start, .create true, .latch (.go .owner), .latch (.go .owner), .storeTid 7,
    .latch (.go .started), .latch (.go .started), .latch (.go .started), .latch (.go .started),
    .latch (.go .owner), .latch (.go .owner), .latch (.go .owner), .waited, .assertTid, .destroy,
    .counted]

theorem handsOver_of_exec_demoOps :
    ∃ s, Runs.exec step init demoOps = some s ∧ s.runner = .running ∧ s.destroyed = true ∧
      s.Sound := by
  have hdemo : (Runs.exec step init demoOps).map (fun s => (s.runner, s.destroyed)) =
      some (.running, true) := by
    decide +kernel
  obtain ⟨s, hs, hview⟩ := Option.map_eq_some_iff.1 hdemo
  obtain ⟨hrunner, hdestroyed⟩ := Prod.mk.inj hview
  exact ⟨s, hs, hrunner, hdestroyed, handsOver_of_exec hs⟩

/-! ### `start` returns -/

def OwnerPc.weight : OwnerPc → ℕ
  | .creating => 19
  | .waiting => 2
  | .asserting => 1
  | .idle | .joining => 0

def RunnerPc.weight : RunnerPc → ℕ
  | .storing => 9
  | .counting => 1
  | .absent | .running | .finished => 0

/-- What is left to do of `start`, and of the beginning of the new thread. -/
def rank (s : Thread) : ℕ := s.owner.weight + s.runner.weight + s.latch.rank

theorem rank_step {op : Op} (hop : op.isOwn = true) (hstep : s.step op = some s') :
    s'.rank < s.rank ∨ s'.failed = some .tidPositive := by
  obtain ⟨-, hmoves⟩ := step_moves hstep
  cases hmoves with
  | create howner hlatch =>
      have hcall := LatchThreads.rank_call hlatch
      simp only [rank, howner, OwnerPc.weight, RunnerPc.weight]
      omega
  | createFails howner =>
      simp only [rank, howner, OwnerPc.weight]
      omega
  | storeTid hrunner htid hlatch =>
      have hcall := LatchThreads.rank_call hlatch
      simp only [rank, touch, hrunner, RunnerPc.weight]
      omega
  | goOwner hlatch =>
      have hgo := LatchThreads.rank_go hlatch
      simp only [rank]
      omega
  | goStarted hlatch =>
      have hgo := LatchThreads.rank_go hlatch
      simp only [rank, touch]
      omega
  | waited howner =>
      simp only [rank, howner, OwnerPc.weight]
      omega
  | counted hrunner =>
      simp only [rank, hrunner, RunnerPc.weight]
      omega
  | assertTid howner =>
      simp only [rank, howner, OwnerPc.weight]
      omega
  | assertFails => exact Or.inr rfl
  | start | startTwice | rouse | finish | join | joinUnstarted | joinTwice | joined | destroy =>
      cases hop

/-- The process runs. -/
structure Running (s : Thread) : Prop where
  wellFormed : s.WellFormed
  failed : s.failed = none

theorem running_step : Runs.Invariant (Runs.only step Op.isOwn) Running := by
  intro s op s' h hstep
  obtain ⟨hop, hstep⟩ := Runs.only_eq_some.1 hstep
  have hs' := wellFormed_step s op s' h.wellFormed hstep
  refine ⟨hs', ?_⟩
  obtain ⟨hfailed, hmoves⟩ := step_moves hstep
  cases hmoves with
  | assertFails => exact absurd rfl hs'.handshake.tidPositive
  | create | createFails | storeTid | goOwner | goStarted | waited | counted | assertTid =>
      exact hfailed
  | start | startTwice | rouse | finish | join | joinUnstarted | joinTwice | joined | destroy =>
      cases hop

/-- Where the latch goes on, so does the thread. -/
theorem latch_stuck (hfailed : s.failed = none)
    (hstuck : ∀ op : Op, op.isOwn = true → s.step op = none) (t : Party) :
    s.latch.step (.go t) = none := by
  cases t with
  | owner =>
      have hnone := hstuck (.latch (.go .owner)) rfl
      rw [step, if_pos hfailed] at hnone
      exact Option.map_eq_none_iff.1 hnone
  | started =>
      have hnone := hstuck (.latch (.go .started)) rfl
      rw [step, if_pos hfailed] at hnone
      exact Option.map_eq_none_iff.1 hnone

/-- A step that is enabled before an assertion has failed. -/
theorem not_stuck (hfailed : s.failed = none)
    (hstuck : ∀ op : Op, op.isOwn = true → s.step op = none) {a : Op} (ha : a.isOwn = true) :
    s.next a = none := by
  have hnone := hstuck a ha
  rwa [step, if_pos hfailed] at hnone

/-- Where nothing can go on, the started thread has counted the latch down. -/
theorem counted_of_stuck (h : s.WellFormed) (hfailed : s.failed = none)
    (hstuck : ∀ op : Op, op.isOwn = true → s.step op = none)
    (hstarted : s.latch.points .started = .outside ∨ s.latch.points .started = .waiting)
    (hpresent : s.runner ≠ .absent) : s.latch.counted = 1 := by
  have hat := h.handshake.startedAt
  have houtside : s.latch.points .started = .outside := by
    rcases hstarted with hstarted | hstarted
    · exact hstarted
    · rw [hstarted] at hat
      cases hrunner : s.runner <;> rw [hrunner] at hat <;> exact hat.elim
  rw [houtside] at hat
  cases hrunner : s.runner with
  | absent => exact absurd hrunner hpresent
  | storing =>
      have hnone := not_stuck hfailed hstuck (a := .storeTid 1) rfl
      rw [next, if_pos ⟨hrunner, by decide⟩, latchStep, Option.map_eq_none_iff] at hnone
      simp [touch, LatchThreads.step, houtside] at hnone
  | counting | running | finished =>
      rw [hrunner] at hat
      exact hat

/-- **Where nothing can go on, `start` has returned.** -/
theorem returned_of_stuck (h : s.WellFormed) (hfailed : s.failed = none)
    (hstuck : ∀ op : Op, op.isOwn = true → s.step op = none) :
    s.owner = .idle ∨ s.owner = .joining := by
  have hcount := h.handshake.latch.counted
  have hroom : s.latch.HasRoom := by
    have hle := s.latch.toCount_le_card
    have hcard : Fintype.card Party = 2 := rfl
    have hcounted := h.handshake.startedAt.counted_le
    unfold LatchThreads.HasRoom
    omega
  have hthreads := LatchThreads.outside_or_asleep_of_stuck h.handshake.latch (by omega) hroom
    (latch_stuck hfailed hstuck)
  cases howner : s.owner with
  | idle => exact Or.inl rfl
  | joining => exact Or.inr rfl
  | creating =>
      have hnone := not_stuck hfailed hstuck (a := .create false) rfl
      rw [next, if_pos howner] at hnone
      cases hnone
  | asserting =>
      have hnone := not_stuck hfailed hstuck (a := .assertTid) rfl
      rw [next, if_pos howner] at hnone
      split_ifs at hnone
  | waiting =>
      have hcreated : s.created = 1 := by
        rw [h.accounted.created,
          if_pos ⟨h.accounted.waits (Or.inl howner), by rw [howner]; nofun⟩]
      have hpresent : s.runner ≠ .absent := fun habsent => by
        rw [h.accounted.absent.1 habsent] at hcreated
        cases hcreated
      have hcounted := counted_of_stuck h hfailed hstuck
        ((hthreads .started).imp_right And.left) hpresent
      -- the latch is open, so the owner does not sleep
      have houtside := (hthreads .owner).resolve_right fun hasleep => by omega
      have hnone := not_stuck hfailed hstuck (a := .waited) rfl
      rw [next, if_pos ⟨howner, houtside⟩] at hnone
      cases hnone

/-- **`start` returns.**  From every state of every run in which no assertion has failed, whatever
the owner and the new thread are doing, a bounded number of steps is left of `start`, if nobody
wakes for no reason any more, and where none can be taken `start` has returned. -/
theorem startReturns_of_exec {ops : List Op} (h : Runs.exec step init ops = some s)
    (hfailed : s.failed = none) :
    Runs.Settles (Runs.only step Op.isOwn) (fun t => t.owner = .idle ∨ t.owner = .joining)
      s.rank s := by
  have hs := Runs.exec_invariant wellFormed_step ⟨accounted_init, handshake_init⟩ h
  refine Runs.settles_of_rank (I := Running) running_step ?_ ?_ ⟨hs, hfailed⟩
  · intro s op s' hrunning hstep
    have hs' := running_step s op s' hrunning hstep
    obtain ⟨hop, hstep⟩ := Runs.only_eq_some.1 hstep
    exact (rank_step hop hstep).resolve_right hs'.wellFormed.handshake.tidPositive
  · intro s hrunning hstuck
    exact returned_of_stuck hrunning.wellFormed hrunning.failed fun op => Runs.stuck_only hstuck

/-- The owner sleeps, and the thread has not begun. -/
theorem startReturns_of_exec_demo :
    ∃ s, Runs.exec step init [.start, .create true, .latch (.go .owner), .latch (.go .owner)] =
        some s ∧ s.owner = .waiting ∧
      Runs.Settles (Runs.only step Op.isOwn) (fun t => t.owner = .idle ∨ t.owner = .joining)
        s.rank s := by
  have hdemo : (Runs.exec step init [.start, .create true, .latch (.go .owner),
      .latch (.go .owner)]).map (fun s => (s.owner, s.failed)) = some (.waiting, none) := by
    decide +kernel
  obtain ⟨s, hs, hview⟩ := Option.map_eq_some_iff.1 hdemo
  obtain ⟨howner, hfailed⟩ := Prod.mk.inj hview
  exact ⟨s, hs, howner, startReturns_of_exec hs hfailed⟩

end

end Thread

end G5
