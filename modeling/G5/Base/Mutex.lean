/-
**The holder of a mutex** (`src/base/Mutex.h`, `Condition.h`, `Condition.cc`).

A `MutexLock` records the thread that holds it, for `isLockedByThisThread`.  The field is written
apart from the operations of the operating system: after the mutex has been taken, before it is
given back, and on either side of a wait on a condition, by a guard.

Every statement is a step, of any thread.  A thread calls `unlock` or a wait only in its own code
and with the mutex; if it calls `lock` there, it is blocked for ever.  A thread in a wait may wake
at any time: it is signalled, its time is over, or it wakes for no reason.  A timed wait whose time
is not normalised is refused, and returns without having given the mutex away.

Main definitions:

* `MutexLock`, `MutexLock.Point` — the mutex, and the places of its threads;
* `MutexLock.isLockedByThisThread`, `MutexLock.assertLocked`;
* `MutexLock.next` — the steps;
* `MutexLock.Exact` — the invariant: what the field is at each place.

Main results:

* `MutexLock.next_moves` — every step is one of `MutexLock.Moves`;
* `MutexLock.exact_moves` — **no step breaks the invariant**;
* `MutexLock.Exact.recorded` — what the field says, of whoever owns the mutex.
-/

import G5.Base.Condition
import G5.Lib.Exclusion

set_option relaxedAutoImplicit false
set_option autoImplicit false

namespace G5

namespace MutexLock

/-- Where a thread is. -/
inductive Point
  /-- in its own code, without the mutex -/
  | outside
  /-- in `lock`, at `pthread_mutex_lock` -/
  | locking
  /-- in `lock`, at `assignHolder()` -/
  | assigning
  /-- in its own code, with the mutex -/
  | inside
  /-- in `lock`, at `pthread_mutex_lock`, with the mutex -/
  | relocking
  /-- in `unlock`, at `unassignHolder()` -/
  | unassigning
  /-- in `unlock`, at `pthread_mutex_unlock` -/
  | unlocking
  /-- in a wait, until the given time if there is one, at the constructor of the guard -/
  | guarding (abstime : Option Timespec)
  /-- at `pthread_cond_wait` or `pthread_cond_timedwait` -/
  | waiting (abstime : Option Timespec)
  /-- in it, without the mutex -/
  | asleep
  /-- awake again, and about to get the mutex -/
  | awake
  /-- at the destructor of the guard -/
  | unguarding
  deriving DecidableEq, Repr

namespace Point

/-- The thread owns the mutex. -/
def owns : Point → Bool
  | .assigning | .inside | .relocking | .unassigning | .unlocking => true
  | .guarding _ | .waiting _ | .unguarding => true
  | .outside | .locking | .asleep | .awake => false

/-- The field has been assigned, and not been cleared. -/
def assigned : Point → Bool
  | .inside | .relocking | .unassigning | .guarding _ => true
  | .assigning | .unlocking | .waiting _ | .unguarding => false
  | .outside | .locking | .asleep | .awake => false

/-- The thread has called `lock`, and has not begun to unlock. -/
def within : Point → Bool
  | .outside | .unassigning | .unlocking => false
  | _ => true

/-- The thread has returned from `lock` or from a wait, and has not begun to unlock or to wait. -/
def holds : Point → Bool
  | .inside | .relocking => true
  | _ => false

end Point

end MutexLock

/-- The mutex and its threads. -/
structure MutexLock (τ : Type) where
  /-- the thread that owns the mutex of the operating system -/
  owner : Option τ
  holder : ℤ
  points : τ → MutexLock.Point

namespace MutexLock

/-- What a thread may do. -/
inductive Op (τ : Type)
  /-- it calls `lock` -/
  | lock (t : τ)
  | unlock (t : τ)
  | wait (t : τ)
  /-- it calls `waitForSeconds`, which computes the time -/
  | waitForSeconds (t : τ) (abstime : Timespec)
  /-- it wakes -/
  | wake (t : τ)
  /-- it takes the next step of what it has called -/
  | go (t : τ)

variable {τ : Type}

def init : MutexLock τ where
  owner := none
  holder := 0
  points := fun _ => .outside

def isLockedByThisThread (tid : τ → ℤ) (s : MutexLock τ) (t : τ) : Bool := s.holder == tid t

def assertLocked (tid : τ → ℤ) (s : MutexLock τ) (t : τ) : Checked Unit :=
  assertThat (s.isLockedByThisThread tid t = true)

section

variable [DecidableEq τ]

def setPoint (s : MutexLock τ) (t : τ) (p : Point) : MutexLock τ :=
  { s with points := Function.update s.points t p }

@[simp] theorem setPoint_self (s : MutexLock τ) (t : τ) (p : Point) :
    (s.setPoint t p).points t = p := Function.update_self ..

theorem setPoint_of_ne (s : MutexLock τ) {t u : τ} (h : u ≠ t) (p : Point) :
    (s.setPoint t p).points u = s.points u := Function.update_of_ne h ..

/-- The next statement of `lock`, `unlock` or a wait. -/
def goOn (tid : τ → ℤ) (s : MutexLock τ) (t : τ) : Point → Option (MutexLock τ)
  | .locking =>
      match s.owner with
      | none => some ({ s with owner := some t }.setPoint t .assigning)
      | some _ => none
  | .assigning => some ({ s with holder := tid t }.setPoint t .inside)
  | .unassigning => some ({ s with holder := 0 }.setPoint t .unlocking)
  | .unlocking => some ({ s with owner := none }.setPoint t .outside)
  | .guarding abstime => some ({ s with holder := 0 }.setPoint t (.waiting abstime))
  | .waiting none => some ({ s with owner := none }.setPoint t .asleep)
  | .waiting (some abstime) =>
      if abstime.Normalised then some ({ s with owner := none }.setPoint t .asleep)
      else some (s.setPoint t .unguarding)
  | .awake =>
      match s.owner with
      | none => some ({ s with owner := some t }.setPoint t .unguarding)
      | some _ => none
  | .unguarding => some ({ s with holder := tid t }.setPoint t .inside)
  | .outside | .inside | .relocking | .asleep => none

/-- One step. -/
def next (tid : τ → ℤ) (s : MutexLock τ) : Op τ → Option (MutexLock τ)
  | .lock t =>
      match s.points t with
      | .outside => some (s.setPoint t .locking)
      | .inside => some (s.setPoint t .relocking)
      | _ => none
  | .unlock t =>
      match s.points t with
      | .inside => some (s.setPoint t .unassigning)
      | _ => none
  | .wait t =>
      match s.points t with
      | .inside => some (s.setPoint t (.guarding none))
      | _ => none
  | .waitForSeconds t abstime =>
      match s.points t with
      | .inside => some (s.setPoint t (.guarding (some abstime)))
      | _ => none
  | .wake t =>
      match s.points t with
      | .asleep => some (s.setPoint t .awake)
      | _ => none
  | .go t => s.goOn tid t (s.points t)

/-! ### What a step can do -/

/-- The steps, each with what holds before it. -/
inductive Moves (tid : τ → ℤ) (s : MutexLock τ) : Op τ → MutexLock τ → Prop
  | lock (t : τ) : s.points t = .outside → Moves tid s (.lock t) (s.setPoint t .locking)
  | relock (t : τ) : s.points t = .inside → Moves tid s (.lock t) (s.setPoint t .relocking)
  | unlock (t : τ) : s.points t = .inside → Moves tid s (.unlock t) (s.setPoint t .unassigning)
  | wait (t : τ) : s.points t = .inside → Moves tid s (.wait t) (s.setPoint t (.guarding none))
  | waitForSeconds (t : τ) (abstime : Timespec) : s.points t = .inside →
      Moves tid s (.waitForSeconds t abstime) (s.setPoint t (.guarding (some abstime)))
  | wake (t : τ) : s.points t = .asleep → Moves tid s (.wake t) (s.setPoint t .awake)
  | acquire (t : τ) : s.points t = .locking → s.owner = none →
      Moves tid s (.go t) ({ s with owner := some t }.setPoint t .assigning)
  | assign (t : τ) : s.points t = .assigning →
      Moves tid s (.go t) ({ s with holder := tid t }.setPoint t .inside)
  | unassign (t : τ) : s.points t = .unassigning →
      Moves tid s (.go t) ({ s with holder := 0 }.setPoint t .unlocking)
  | release (t : τ) : s.points t = .unlocking →
      Moves tid s (.go t) ({ s with owner := none }.setPoint t .outside)
  | guarded (t : τ) (abstime : Option Timespec) : s.points t = .guarding abstime →
      Moves tid s (.go t) ({ s with holder := 0 }.setPoint t (.waiting abstime))
  | sleep (t : τ) (abstime : Option Timespec) : s.points t = .waiting abstime →
      Moves tid s (.go t) ({ s with owner := none }.setPoint t .asleep)
  /-- the time is refused, and the mutex is not given away -/
  | refuse (t : τ) (abstime : Timespec) : s.points t = .waiting (some abstime) →
      ¬abstime.Normalised → Moves tid s (.go t) (s.setPoint t .unguarding)
  | reacquire (t : τ) : s.points t = .awake → s.owner = none →
      Moves tid s (.go t) ({ s with owner := some t }.setPoint t .unguarding)
  | unguard (t : τ) : s.points t = .unguarding →
      Moves tid s (.go t) ({ s with holder := tid t }.setPoint t .inside)

/-- The statements of `lock`, `unlock` and the waits. -/
theorem goOn_moves {tid : τ → ℤ} {s s' : MutexLock τ} {t : τ}
    (h : s.goOn tid t (s.points t) = some s') : Moves tid s (.go t) s' := by
  cases hpoint : s.points t with
  | locking =>
      rw [hpoint, goOn] at h
      split at h
      · rename_i hfree
        obtain rfl := Option.some.inj h
        exact .acquire t hpoint hfree
      · cases h
  | awake =>
      rw [hpoint, goOn] at h
      split at h
      · rename_i hfree
        obtain rfl := Option.some.inj h
        exact .reacquire t hpoint hfree
      · cases h
  | assigning =>
      rw [hpoint] at h
      obtain rfl := Option.some.inj h
      exact .assign t hpoint
  | unguarding =>
      rw [hpoint] at h
      obtain rfl := Option.some.inj h
      exact .unguard t hpoint
  | unassigning =>
      rw [hpoint] at h
      obtain rfl := Option.some.inj h
      exact .unassign t hpoint
  | unlocking =>
      rw [hpoint] at h
      obtain rfl := Option.some.inj h
      exact .release t hpoint
  | guarding abstime =>
      rw [hpoint] at h
      obtain rfl := Option.some.inj h
      exact .guarded t abstime hpoint
  | waiting abstime =>
      rw [hpoint] at h
      cases abstime with
      | none =>
          obtain rfl := Option.some.inj h
          exact .sleep t none hpoint
      | some abstime =>
          rw [goOn] at h
          split_ifs at h with hnormalised
          · obtain rfl := Option.some.inj h
            exact .sleep t (some abstime) hpoint
          · obtain rfl := Option.some.inj h
            exact .refuse t abstime hpoint hnormalised
  | outside | inside | relocking | asleep =>
      rw [hpoint] at h
      cases h

/-- **Every step is one of these.** -/
theorem next_moves {tid : τ → ℤ} {s s' : MutexLock τ} {op : Op τ}
    (h : s.next tid op = some s') : Moves tid s op s' := by
  cases op with
  | go t => exact goOn_moves h
  | lock t =>
      simp only [next] at h
      split at h
      · rename_i hpoint
        obtain rfl := Option.some.inj h
        exact .lock t hpoint
      · rename_i hpoint
        obtain rfl := Option.some.inj h
        exact .relock t hpoint
      · cases h
  | unlock t =>
      simp only [next] at h
      split at h
      · rename_i hpoint
        obtain rfl := Option.some.inj h
        exact .unlock t hpoint
      · cases h
  | wait t =>
      simp only [next] at h
      split at h
      · rename_i hpoint
        obtain rfl := Option.some.inj h
        exact .wait t hpoint
      · cases h
  | waitForSeconds t abstime =>
      simp only [next] at h
      split at h
      · rename_i hpoint
        obtain rfl := Option.some.inj h
        exact .waitForSeconds t abstime hpoint
      · cases h
  | wake t =>
      simp only [next] at h
      split at h
      · rename_i hpoint
        obtain rfl := Option.some.inj h
        exact .wake t hpoint
      · cases h

end

/-! ### The invariant -/

/-- The mutex is owned by the thread that is at a place where it owns it; there the field is the id
of this thread, from the assignment on until it is cleared, and otherwise it is zero. -/
structure Exact (tid : τ → ℤ) (s : MutexLock τ) : Prop where
  exclusive : Exclusive Point.owns s.owner s.points
  holder_eq : ∀ t, (s.points t).owns = true →
    s.holder = if (s.points t).assigned then tid t else 0
  free : s.owner = none → s.holder = 0

theorem exact_init (tid : τ → ℤ) : (init : MutexLock τ).Exact tid where
  exclusive := Exclusive.init rfl
  holder_eq := fun _ h => by cases h
  free := fun _ => rfl

/-- What the field says: it is zero, or the id of the owner, and zero if there is no owner; a thread
that has locked the mutex finds it locked, and no other one; and nobody does who does not own it. -/
structure Recorded (tid : τ → ℤ) (s : MutexLock τ) : Prop where
  holder : s.holder = 0 ∨ ∃ t, s.owner = some t ∧ s.holder = tid t
  locked : ∀ t, (s.points t).holds = true →
    s.isLockedByThisThread tid t = true ∧ ∀ u, u ≠ t → s.isLockedByThisThread tid u = false
  free : s.owner = none → s.holder = 0
  notLocked : ∀ t, s.owner ≠ some t → s.isLockedByThisThread tid t = false

section

variable {tid : τ → ℤ} {s : MutexLock τ} {t : τ} {p : Point}

theorem Point.owns_of_holds {p : Point} (h : p.holds = true) :
    p.owns = true ∧ p.assigned = true := by
  cases p with
  | inside => exact ⟨rfl, rfl⟩
  | relocking => exact ⟨rfl, rfl⟩
  | _ => cases h

theorem Exact.holder_of_assigned (h : s.Exact tid) (howns : (s.points t).owns = true)
    (hassigned : (s.points t).assigned = true) : s.holder = tid t := by
  rw [h.holder_eq t howns, if_pos hassigned]

theorem Exact.holder_of_not_assigned (h : s.Exact tid) (howns : (s.points t).owns = true)
    (hassigned : (s.points t).assigned = false) : s.holder = 0 := by
  rw [h.holder_eq t howns, if_neg (by rw [hassigned]; decide)]

theorem Exact.zero_or_owner (h : s.Exact tid) :
    s.holder = 0 ∨ ∃ t, s.owner = some t ∧ s.holder = tid t := by
  cases howner : s.owner with
  | none => exact Or.inl (h.free howner)
  | some t =>
      have howns := (h.exclusive t).1 howner
      cases hassigned : (s.points t).assigned with
      | false => exact Or.inl (h.holder_of_not_assigned howns hassigned)
      | true => exact Or.inr ⟨t, rfl, h.holder_of_assigned howns hassigned⟩

theorem Exact.recorded (htid : Function.Injective tid) (hzero : ∀ t, tid t ≠ 0)
    (h : s.Exact tid) : s.Recorded tid where
  holder := h.zero_or_owner
  locked := by
    intro t ht
    obtain ⟨howns, hassigned⟩ := Point.owns_of_holds ht
    have hholder := h.holder_of_assigned howns hassigned
    refine ⟨beq_iff_eq.2 hholder, fun u hu => ?_⟩
    refine beq_eq_false_iff_ne.2 fun heq => hu ?_
    exact htid (heq.symm.trans hholder)
  free := h.free
  notLocked := by
    intro t ht
    refine beq_eq_false_iff_ne.2 fun heq => ?_
    rcases h.zero_or_owner with hnone | ⟨u, howner, hholder⟩
    · exact hzero t (heq.symm.trans hnone)
    · obtain rfl := htid (heq.symm.trans hholder)
      exact ht howner

variable [DecidableEq τ]

/-- A step of a thread that does not own the mutex, before or after. -/
theorem Exact.stay (h : s.Exact tid) (ht : (s.points t).owns = false) (hp : p.owns = false) :
    (s.setPoint t p).Exact tid where
  exclusive := h.exclusive.move (hp.trans ht.symm)
  holder_eq := by
    refine (Function.forall_update_iff s.points fun u q =>
      q.owns = true → s.holder = if q.assigned then tid u else 0).2
        ⟨fun howns => ?_, fun u _ => h.holder_eq u⟩
    rw [hp] at howns
    cases howns
  free := h.free

/-- A step after which the thread owns the mutex. -/
theorem exact_hold {holder : ℤ} (hexclusive : Exclusive Point.owns (some t)
      (Function.update s.points t p))
    (hholder : holder = if p.assigned then tid t else 0) :
    Exact tid ({ s with owner := some t, holder := holder }.setPoint t p) where
  exclusive := hexclusive
  holder_eq := by
    intro u hu
    obtain rfl : t = u := Option.some_inj.1 (hexclusive.owner_eq hu)
    rw [setPoint_self]
    exact hholder
  free := fun howner => by cases howner

/-- A step with which the thread gives the mutex away. -/
theorem Exact.release (h : s.Exact tid) (howns : (s.points t).owns = true)
    (hassigned : (s.points t).assigned = false) (hp : p.owns = false) :
    Exact tid ({ s with owner := none }.setPoint t p) := by
  have howner := h.exclusive.owner_eq howns
  have hexclusive : Exclusive Point.owns none (Function.update s.points t p) := by
    have hbefore := h.exclusive
    rw [howner] at hbefore
    exact hbefore.leave hp
  refine ⟨hexclusive, fun u hu => ?_, fun _ => h.holder_of_not_assigned howns hassigned⟩
  exact absurd (hexclusive.owner_eq hu) (Option.some_ne_none u).symm

/-- A step of the owner, which may write the field. -/
theorem Exact.write (h : s.Exact tid) (howns : (s.points t).owns = true) (hp : p.owns = true)
    {holder : ℤ} (hholder : holder = if p.assigned then tid t else 0) :
    Exact tid ({ s with holder := holder }.setPoint t p) := by
  have howner := h.exclusive.owner_eq howns
  have hexclusive : Exclusive Point.owns (some t) (Function.update s.points t p) := by
    rw [← howner]
    exact h.exclusive.move (hp.trans howns.symm)
  have hexact := exact_hold (s := s) hexclusive hholder
  rwa [← howner] at hexact

/-- A step of the owner that does not touch the field. -/
theorem Exact.keep (h : s.Exact tid) (howns : (s.points t).owns = true) (hp : p.owns = true)
    (hassigned : p.assigned = (s.points t).assigned) : (s.setPoint t p).Exact tid :=
  h.write howns hp (by rw [hassigned]; exact h.holder_eq t howns)

/-- A thread gets the mutex, while nobody owns it. -/
theorem Exact.acquire (h : s.Exact tid) (hfree : s.owner = none) (hp : p.owns = true)
    (hassigned : p.assigned = false) :
    Exact tid ({ s with owner := some t }.setPoint t p) := by
  have hexclusive := h.exclusive
  rw [hfree] at hexclusive
  refine exact_hold (s := s) (hexclusive.enter hp) ?_
  rw [h.free hfree, if_neg (by rw [hassigned]; decide)]

/-! ### The steps -/

/-- **No step breaks the invariant.** -/
theorem exact_moves {s' : MutexLock τ} {op : Op τ} (h : s.Exact tid)
    (hmoves : Moves tid s op s') : s'.Exact tid := by
  cases hmoves with
  | lock t hpoint => exact h.stay (by rw [hpoint]; rfl) rfl
  | relock t hpoint => exact h.keep (by rw [hpoint]; rfl) rfl (by rw [hpoint]; rfl)
  | unlock t hpoint => exact h.keep (by rw [hpoint]; rfl) rfl (by rw [hpoint]; rfl)
  | wait t hpoint => exact h.keep (by rw [hpoint]; rfl) rfl (by rw [hpoint]; rfl)
  | waitForSeconds t abstime hpoint =>
      exact h.keep (by rw [hpoint]; rfl) rfl (by rw [hpoint]; rfl)
  | wake t hpoint => exact h.stay (by rw [hpoint]; rfl) rfl
  | acquire t hpoint hfree => exact h.acquire hfree rfl rfl
  | assign t hpoint => exact h.write (by rw [hpoint]; rfl) rfl rfl
  | unassign t hpoint => exact h.write (by rw [hpoint]; rfl) rfl rfl
  | release t hpoint => exact h.release (by rw [hpoint]; rfl) (by rw [hpoint]; rfl) rfl
  | guarded t abstime hpoint => exact h.write (by rw [hpoint]; rfl) rfl rfl
  | sleep t abstime hpoint => exact h.release (by rw [hpoint]; rfl) (by rw [hpoint]; rfl) rfl
  | refuse t abstime hpoint hnot => exact h.keep (by rw [hpoint]; rfl) rfl (by rw [hpoint]; rfl)
  | reacquire t hpoint hfree => exact h.acquire hfree rfl rfl
  | unguard t hpoint => exact h.write (by rw [hpoint]; rfl) rfl rfl

/-- A thread that does not begin to unlock the mutex stays between `lock` and `unlock`. -/
theorem within_moves {s' : MutexLock τ} {op : Op τ} {u : τ} (hmoves : Moves tid s op s')
    (hop : op ≠ .unlock u) (hu : (s.points u).within = true) : (s'.points u).within = true := by
  have hother : ∀ (r : MutexLock τ) (t : τ) (q : Point), r.points = s.points →
      (u = t → q.within = true) → ((r.setPoint t q).points u).within = true := by
    intro r t q hr hq
    by_cases hut : u = t
    · subst hut
      rw [setPoint_self]
      exact hq rfl
    · rw [setPoint_of_ne r hut, hr]
      exact hu
  cases hmoves with
  | unlock t hpoint => exact hother s t _ rfl fun hut => absurd (hut ▸ rfl) hop
  | unassign t hpoint =>
      exact hother _ t _ rfl fun hut => by
        rw [hut, hpoint] at hu
        cases hu
  | release t hpoint =>
      exact hother _ t _ rfl fun hut => by
        rw [hut, hpoint] at hu
        cases hu
  | lock t hpoint => exact hother s t _ rfl fun _ => rfl
  | relock t hpoint => exact hother s t _ rfl fun _ => rfl
  | wait t hpoint => exact hother s t _ rfl fun _ => rfl
  | waitForSeconds t abstime hpoint => exact hother s t _ rfl fun _ => rfl
  | wake t hpoint => exact hother s t _ rfl fun _ => rfl
  | acquire t hpoint hfree => exact hother _ t _ rfl fun _ => rfl
  | assign t hpoint => exact hother _ t _ rfl fun _ => rfl
  | guarded t abstime hpoint => exact hother _ t _ rfl fun _ => rfl
  | sleep t abstime hpoint => exact hother _ t _ rfl fun _ => rfl
  | refuse t abstime hpoint hnot => exact hother s t _ rfl fun _ => rfl
  | reacquire t hpoint hfree => exact hother _ t _ rfl fun _ => rfl
  | unguard t hpoint => exact hother _ t _ rfl fun _ => rfl

end

end MutexLock

end G5
