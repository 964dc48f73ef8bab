/-
**The latch, statement by statement** (`src/base/CountDownLatch.cc`).

Any number of threads call `wait`, `countDown` and `getCount`.  Each of these takes the mutex, and
`wait` gives it away while it waits on the condition; a thread in `condition_.wait()` may wake for
no reason.  Only the thread whose `--count_` comes to zero calls `notifyAll`.

Main definitions:

* `CountDownLatch` — the count;
* `LatchThreads`, `LatchThreads.Point` — the latch, its mutex and its condition, and the places of
  the threads;
* `LatchThreads.step` — the runs;
* `LatchThreads.Sound` — what the callers may rely on.

Main results:

* `LatchThreads.step_moves` — what a step can do, said once;
* `LatchThreads.wellFormed_step` — **no step breaks the invariant**;
* `LatchThreads.openLatch_of_exec` — nobody gets past a latch that is closed, and nobody sleeps at
  one that is open;
* `LatchThreads.callsReturn_of_exec` — **once the latch is open every call returns**.
-/

import G5.Lib.ConditionVariable
import G5.Lib.Exclusion
import G5.Lib.FixedWidth
import G5.Lib.Progress

set_option relaxedAutoImplicit false
set_option autoImplicit false

namespace G5

structure CountDownLatch where
  count : ℤ
  deriving DecidableEq, Repr

namespace CountDownLatch

def countDown (latch : CountDownLatch) : CountDownLatch := ⟨latch.count - 1⟩

/-- The condition of the loop in `wait`. -/
def isClosed (latch : CountDownLatch) : Bool := 0 < latch.count

end CountDownLatch

/-- The functions of the latch. -/
inductive LatchCall
  | wait
  | countDown
  | getCount
  deriving DecidableEq, Repr

namespace LatchThreads

/-- Where a thread is. -/
inductive Point
  | outside
  /-- at `MutexLockGuard lock(mutex_)` -/
  | entering (call : LatchCall)
  /-- in `wait`, at the test of the loop -/
  | testing
  /-- in `wait`, in `condition_.wait()`, without the mutex -/
  | waiting
  /-- in `countDown`, at `--count_` -/
  | counting
  /-- in `countDown`, at the test behind it -/
  | notifying
  /-- in `getCount`, at `return count_` -/
  | reading
  /-- at the end of the section -/
  | leaving (call : LatchCall)
  deriving DecidableEq, Repr

namespace Point

/-- The thread has the mutex. -/
def inside : Point → Bool
  | .testing | .counting | .notifying | .reading | .leaving _ => true
  | .outside | .entering _ | .waiting => false

/-- The first statement behind the guard. -/
def first : LatchCall → Point
  | .wait => .testing
  | .countDown => .counting
  | .getCount => .reading

end Point

end LatchThreads

/-- The latch and its threads; the last three fields record what has happened. -/
structure LatchThreads (τ : Type) where
  latch : CountDownLatch
  /-- the thread that has the mutex -/
  owner : Option τ
  points : τ → LatchThreads.Point
  condition : Condition τ
  /-- how often the latch has been counted down -/
  counted : ℕ
  /-- how often `wait` has returned -/
  returned : ℕ
  /-- what `getCount` has read -/
  reads : List ℤ

namespace LatchThreads

/-- What may happen next. -/
inductive Op (τ : Type)
  | call (t : τ) (call : LatchCall)
  /-- a thread takes its next step -/
  | go (t : τ)
  /-- a thread wakes for no reason -/
  | rouse (t : τ)

/-- Everything but the beginning of a call. -/
def Op.isOwn {τ : Type} : Op τ → Bool
  | .call _ _ => false
  | .go _ | .rouse _ => true

variable {τ : Type}

/-! ### The functions -/

def init (count : ℤ) : LatchThreads τ where
  latch := ⟨count⟩
  owner := none
  points := fun _ => .outside
  condition := Condition.empty
  counted := 0
  returned := 0
  reads := []

section

variable [DecidableEq τ]

def setPoint (s : LatchThreads τ) (t : τ) (p : Point) : LatchThreads τ :=
  { s with points := Function.update s.points t p }

@[simp] theorem setPoint_latch (s : LatchThreads τ) (t : τ) (p : Point) :
    (s.setPoint t p).latch = s.latch := rfl

@[simp] theorem setPoint_condition (s : LatchThreads τ) (t : τ) (p : Point) :
    (s.setPoint t p).condition = s.condition := rfl

@[simp] theorem setPoint_counted (s : LatchThreads τ) (t : τ) (p : Point) :
    (s.setPoint t p).counted = s.counted := rfl

/-- A thread gives the mutex back at the end of a section. -/
def leave (s : LatchThreads τ) (t : τ) (call : LatchCall) : LatchThreads τ :=
  { s with
    owner := none
    returned := if call = LatchCall.wait then s.returned + 1 else s.returned }.setPoint t .outside

/-- The next statement of a thread.  A count that leaves the range of `int` is not computed. -/
def goOn (s : LatchThreads τ) (t : τ) : Point → Option (LatchThreads τ)
  | .outside => none
  | .entering call =>
      match s.owner with
      | none => some ({ s with owner := some t }.setPoint t (.first call))
      | some _ => none
  | .testing =>
      if s.latch.isClosed then
        some ({ s with owner := none, condition := s.condition.wait t }.setPoint t .waiting)
      else some (s.setPoint t (.leaving .wait))
  | .waiting =>
      if s.owner = none ∧ s.condition.Awake t then
        some ({ s with
          owner := some t
          condition := s.condition.resume t }.setPoint t .testing)
      else none
  | .counting =>
      if FixedWidth.Fits 32 (s.latch.count - 1) then
        some ({ s with
          latch := s.latch.countDown
          counted := s.counted + 1 }.setPoint t .notifying)
      else none
  | .notifying =>
      if s.latch.count = 0 then
        some ({ s with condition := s.condition.notifyAll }.setPoint t (.leaving .countDown))
      else some (s.setPoint t (.leaving .countDown))
  | .reading =>
      some ({ s with reads := s.reads ++ [s.latch.count] }.setPoint t (.leaving .getCount))
  | .leaving call => some (s.leave t call)

/-- One step. -/
def step (s : LatchThreads τ) : Op τ → Option (LatchThreads τ)
  | .call t call =>
      match s.points t with
      | .outside => some (s.setPoint t (.entering call))
      | _ => none
  | .go t => s.goOn t (s.points t)
  | .rouse t =>
      if s.condition t = some .asleep then some { s with condition := s.condition.rouse t }
      else none

/-! ### What a step can do -/

/-- The steps, with their guards. -/
inductive Moves (s : LatchThreads τ) : Op τ → LatchThreads τ → Prop
  | call {t : τ} (call : LatchCall) (hpoint : s.points t = .outside) :
      Moves s (.call t call) (s.setPoint t (.entering call))
  | enter {t : τ} {call : LatchCall} (hpoint : s.points t = .entering call)
      (hfree : s.owner = none) :
      Moves s (.go t) ({ s with owner := some t }.setPoint t (.first call))
  | wait {t : τ} (hpoint : s.points t = .testing) (hclosed : s.latch.isClosed = true) :
      Moves s (.go t)
        ({ s with owner := none, condition := s.condition.wait t }.setPoint t .waiting)
  | pass {t : τ} (hpoint : s.points t = .testing) (hopen : s.latch.isClosed = false) :
      Moves s (.go t) (s.setPoint t (.leaving .wait))
  | resume {t : τ} (hpoint : s.points t = .waiting) (hfree : s.owner = none)
      (hawake : s.condition.Awake t) :
      Moves s (.go t)
        ({ s with owner := some t, condition := s.condition.resume t }.setPoint t .testing)
  | count {t : τ} (hpoint : s.points t = .counting)
      (hfits : FixedWidth.Fits 32 (s.latch.count - 1)) :
      Moves s (.go t)
        ({ s with latch := s.latch.countDown, counted := s.counted + 1 }.setPoint t .notifying)
  | notify {t : τ} (hpoint : s.points t = .notifying) (hzero : s.latch.count = 0) :
      Moves s (.go t)
        ({ s with condition := s.condition.notifyAll }.setPoint t (.leaving .countDown))
  | skip {t : τ} (hpoint : s.points t = .notifying) (hzero : s.latch.count ≠ 0) :
      Moves s (.go t) (s.setPoint t (.leaving .countDown))
  | read {t : τ} (hpoint : s.points t = .reading) :
      Moves s (.go t)
        ({ s with reads := s.reads ++ [s.latch.count] }.setPoint t (.leaving .getCount))
  | leave {t : τ} {call : LatchCall} (hpoint : s.points t = .leaving call) :
      Moves s (.go t) (s.leave t call)
  | rouse {t : τ} (hasleep : s.condition t = some .asleep) :
      Moves s (.rouse t) { s with condition := s.condition.rouse t }

/-- **A step is one of these.** -/
theorem step_moves {s s' : LatchThreads τ} {op : Op τ} (h : s.step op = some s') :
    Moves s op s' := by
  cases op with
  | call t call =>
      simp only [step] at h
      split at h
      · rename_i hpoint
        cases h
        exact .call call hpoint
      · cases h
  | rouse t =>
      simp only [step, Option.ite_none_right_eq_some, Option.some.injEq] at h
      obtain ⟨hasleep, rfl⟩ := h
      exact .rouse hasleep
  | go t =>
      simp only [step] at h
      cases hpoint : s.points t with
      | outside =>
          rw [hpoint] at h
          cases h
      | entering call =>
          rw [hpoint, goOn] at h
          split at h
          · rename_i hfree
            cases h
            exact .enter hpoint hfree
          · cases h
      | testing =>
          rw [hpoint, goOn] at h
          split_ifs at h with hclosed <;> cases h
          · exact .wait hpoint hclosed
          · exact .pass hpoint (Bool.not_eq_true _ ▸ hclosed)
      | waiting =>
          rw [hpoint, goOn, Option.ite_none_right_eq_some, Option.some_inj] at h
          obtain ⟨⟨hfree, hawake⟩, rfl⟩ := h
          exact .resume hpoint hfree hawake
      | counting =>
          rw [hpoint, goOn, Option.ite_none_right_eq_some, Option.some_inj] at h
          obtain ⟨hfits, rfl⟩ := h
          exact .count hpoint hfits
      | notifying =>
          rw [hpoint, goOn] at h
          split_ifs at h with hzero <;> cases h
          · exact .notify hpoint hzero
          · exact .skip hpoint hzero
      | reading =>
          rw [hpoint] at h
          cases h
          exact .read hpoint
      | leaving call =>
          rw [hpoint] at h
          cases h
          exact .leave hpoint

theorem setPoint_of_ne (s : LatchThreads τ) {t u : τ} (h : u ≠ t) (p : Point) :
    (s.setPoint t p).points u = s.points u := Function.update_of_ne h ..

@[simp] theorem setPoint_self (s : LatchThreads τ) (t : τ) (p : Point) :
    (s.setPoint t p).points t = p := Function.update_self ..

/-- A step of one thread leaves the others where they are. -/
theorem points_go {s s' : LatchThreads τ} {t u : τ} (h : s.step (.go t) = some s') (hut : u ≠ t) :
    s'.points u = s.points u := by
  cases step_moves h with
  | enter | wait | pass | resume | count | notify | skip | read | leave =>
      exact setPoint_of_ne _ hut _

end

/-! ### The invariant -/

/-- The latch has been counted down from the given count; a `wait` is past its loop only if the
latch is open; and while it is open nobody sleeps, unless the thread that has brought the count to
zero is about to wake everybody. -/
structure WellFormed (count : ℤ) (s : LatchThreads τ) : Prop where
  exclusive : Exclusive Point.inside s.owner s.points
  waits : ∀ t, s.points t = .waiting ↔ s.condition t ≠ none
  counted : s.latch.count = count - s.counted
  passed : ∀ t, s.points t = .leaving .wait → s.latch.count ≤ 0
  returned : 0 < s.returned → s.latch.count ≤ 0
  woken : s.latch.count ≤ 0 →
    s.condition.NoneAsleep ∨ (s.latch.count = 0 ∧ ∃ t, s.points t = .notifying)
  reads : s.reads.Pairwise fun x y => y ≤ x
  readBetween : ∀ x ∈ s.reads, s.latch.count ≤ x ∧ x ≤ count

theorem wellFormed_init (count : ℤ) : (init count : LatchThreads τ).WellFormed count where
  exclusive := Exclusive.init rfl
  waits t := by simp [init, Condition.empty]
  counted := by simp [init]
  passed t h := by cases h
  returned h := by simp [init] at h
  woken _ := Or.inl Condition.noneAsleep_empty
  reads := List.Pairwise.nil
  readBetween x h := by cases h

section

variable {count : ℤ} {s : LatchThreads τ} {t : τ} {p : Point}

theorem isClosed_eq_false {latch : CountDownLatch} (h : latch.isClosed = false) :
    latch.count ≤ 0 := by
  simpa [CountDownLatch.isClosed] using h

/-- The only thread in the section is the one that owns the mutex. -/
theorem WellFormed.eq_of_inside (h : s.WellFormed count) {u : τ}
    (ht : (s.points t).inside = true) (hu : (s.points u).inside = true) : u = t := by
  have howner := h.exclusive.owner_eq ht
  rw [h.exclusive.owner_eq hu, Option.some_inj] at howner
  exact howner

/-- While a thread is at another place of the section, nobody is about to wake the others. -/
theorem WellFormed.noneAsleep (h : s.WellFormed count) (ht : (s.points t).inside = true)
    (hne : s.points t ≠ .notifying) (hopen : s.latch.count ≤ 0) : s.condition.NoneAsleep := by
  rcases h.woken hopen with hnone | ⟨-, u, hu⟩
  · exact hnone
  · obtain rfl := h.eq_of_inside ht (by rw [hu]; rfl)
    exact absurd hu hne

theorem WellFormed.noneAsleep_of_free (h : s.WellFormed count) (hfree : s.owner = none)
    (hopen : s.latch.count ≤ 0) : s.condition.NoneAsleep := by
  rcases h.woken hopen with hnone | ⟨-, u, hu⟩
  · exact hnone
  · have howner := h.exclusive.owner_eq (t := u) (by rw [hu]; rfl)
    rw [hfree] at howner
    cases howner

variable [DecidableEq τ]

/-- A thread goes to another place, and neither is one of `condition_.wait()`. -/
theorem WellFormed.waits_move (h : s.WellFormed count) (ht : s.points t ≠ .waiting)
    (hp : p ≠ .waiting) :
    ∀ u, Function.update s.points t p u = .waiting ↔ s.condition u ≠ none := by
  refine (Function.forall_update_iff s.points fun u q => q = .waiting ↔ s.condition u ≠ none).2
    ⟨iff_of_false hp fun hwaits => ht ((h.waits t).2 hwaits), fun u _ => h.waits u⟩

/-- A thread goes to a place that is not behind the loop of `wait`. -/
theorem WellFormed.passed_move (h : s.WellFormed count)
    (hp : p = .leaving .wait → s.latch.count ≤ 0) :
    ∀ u, Function.update s.points t p u = .leaving .wait → s.latch.count ≤ 0 :=
  (Function.forall_update_iff s.points fun _ q => q = .leaving .wait → s.latch.count ≤ 0).2
    ⟨hp, fun u _ => h.passed u⟩

/-- A thread that is not about to wake the others goes to another place. -/
theorem WellFormed.woken_move (h : s.WellFormed count) (ht : s.points t ≠ .notifying) :
    s.latch.count ≤ 0 → s.condition.NoneAsleep ∨
      (s.latch.count = 0 ∧ ∃ u, Function.update s.points t p u = .notifying) := by
  intro hopen
  refine (h.woken hopen).imp_right ?_
  rintro ⟨hzero, u, hu⟩
  have hut : u ≠ t := fun heq => ht (heq ▸ hu)
  exact ⟨hzero, u, by rw [Function.update_of_ne hut, hu]⟩

/-- A step inside the section that leaves the latch and the condition as they are. -/
theorem WellFormed.move (h : s.WellFormed count) (hp : p.inside = (s.points t).inside)
    (ht : s.points t ≠ .waiting ∧ s.points t ≠ .notifying) (hpw : p ≠ .waiting)
    (hpass : p = .leaving .wait → s.latch.count ≤ 0) : (s.setPoint t p).WellFormed count :=
  { h with
    exclusive := h.exclusive.move hp
    waits := h.waits_move ht.1 hpw
    passed := h.passed_move hpass
    woken := h.woken_move ht.2 }

/-! ### The steps -/

theorem WellFormed.enter (h : s.WellFormed count) {call : LatchCall}
    (hpoint : s.points t = .entering call) (hfree : s.owner = none) :
    WellFormed count ({ s with owner := some t }.setPoint t (.first call)) := by
  have hexclusive := h.exclusive
  rw [hfree] at hexclusive
  have hfirst : (Point.first call).inside = true ∧ Point.first call ≠ .waiting ∧
      Point.first call ≠ .leaving .wait := by
    cases call <;> decide
  exact { h with
    exclusive := hexclusive.enter hfirst.1
    waits := h.waits_move (by rw [hpoint]; nofun) hfirst.2.1
    passed := h.passed_move fun heq => absurd heq hfirst.2.2
    woken := h.woken_move (by rw [hpoint]; nofun) }

/-- A thread begins to wait, at a latch that is closed. -/
theorem WellFormed.wait (h : s.WellFormed count) (hpoint : s.points t = .testing)
    (hclosed : s.latch.isClosed = true) :
    WellFormed count
      ({ s with owner := none, condition := s.condition.wait t }.setPoint t .waiting) := by
  have howner := h.exclusive.owner_eq (t := t) (by rw [hpoint]; rfl)
  have hexclusive := h.exclusive
  rw [howner] at hexclusive
  have hpositive : 0 < s.latch.count := of_decide_eq_true hclosed
  refine { h with
    exclusive := hexclusive.leave rfl
    waits := ?_
    passed := h.passed_move nofun
    woken := fun hopen => absurd hopen (not_le.2 hpositive) }
  intro u
  by_cases hut : u = t
  · subst hut
    simp [setPoint, Condition.wait]
  · simpa [setPoint, Condition.wait, Function.update_of_ne hut] using h.waits u

/-- A thread has the mutex again. -/
theorem WellFormed.resume (h : s.WellFormed count) (hfree : s.owner = none) :
    WellFormed count
      ({ s with
        owner := some t
        condition := s.condition.resume t }.setPoint t .testing) := by
  have hexclusive := h.exclusive
  rw [hfree] at hexclusive
  refine { h with
    exclusive := hexclusive.enter rfl
    waits := ?_
    passed := h.passed_move nofun
    woken := fun hopen => Or.inl ((h.noneAsleep_of_free hfree hopen).resume t) }
  intro u
  by_cases hut : u = t
  · subst hut
    simp [setPoint, Condition.resume]
  · simpa [setPoint, Condition.resume, Function.update_of_ne hut] using h.waits u

/-- **The count goes down**; if it comes to zero, the thread is about to wake the others. -/
theorem WellFormed.countDown (h : s.WellFormed count) (hpoint : s.points t = .counting) :
    WellFormed count
      ({ s with
        latch := s.latch.countDown
        counted := s.counted + 1 }.setPoint t .notifying) := by
  have hinside : (s.points t).inside = true := by rw [hpoint]; rfl
  have hdown : s.latch.countDown.count = s.latch.count - 1 := rfl
  refine { h with
    exclusive := h.exclusive.move hinside.symm
    waits := h.waits_move (by rw [hpoint]; nofun) nofun
    counted := ?_
    passed := ?_
    returned := ?_
    woken := ?_
    readBetween := ?_ }
  · change s.latch.countDown.count = count - ((s.counted + 1 : ℕ) : ℤ)
    rw [hdown, h.counted]
    push_cast
    omega
  · intro u hu
    have hold := h.passed_move (p := .notifying) nofun u hu
    exact hdown.trans_le (by omega)
  · intro hreturned
    have hold := h.returned hreturned
    exact hdown.trans_le (by omega)
  · intro hopen
    change s.latch.count - 1 ≤ 0 at hopen
    by_cases hone : s.latch.count = 1
    · refine Or.inr ⟨?_, t, Function.update_self ..⟩
      change s.latch.count - 1 = 0
      omega
    · exact Or.inl (h.noneAsleep hinside (by rw [hpoint]; nofun) (by omega))
  · intro x hx
    have hold := h.readBetween x hx
    exact ⟨hdown.trans_le (by omega), hold.2⟩

/-- Everybody is woken. -/
theorem WellFormed.notify (h : s.WellFormed count) (hpoint : s.points t = .notifying) :
    WellFormed count
      ({ s with condition := s.condition.notifyAll }.setPoint t (.leaving .countDown)) := by
  refine { h with
    exclusive := h.exclusive.move (by rw [hpoint]; rfl)
    waits := ?_
    passed := h.passed_move nofun
    woken := fun _ => Or.inl (Condition.noneAsleep_notifyAll _) }
  intro u
  have hwaits := h.waits_move (t := t) (p := .leaving .countDown) (by rw [hpoint]; nofun) nofun u
  exact hwaits.trans (not_congr (Condition.notifyAll_eq_none_iff _ u).symm)

/-- The count has not come to zero. -/
theorem WellFormed.skip (h : s.WellFormed count) (hpoint : s.points t = .notifying)
    (hzero : s.latch.count ≠ 0) : (s.setPoint t (.leaving .countDown)).WellFormed count :=
  { h with
    exclusive := h.exclusive.move (by rw [hpoint]; rfl)
    waits := h.waits_move (by rw [hpoint]; nofun) nofun
    passed := h.passed_move nofun
    woken := fun hopen => Or.inl ((h.woken hopen).resolve_right fun hnotify => hzero hnotify.1) }

theorem WellFormed.read (h : s.WellFormed count) (hpoint : s.points t = .reading) :
    WellFormed count
      ({ s with
        reads := s.reads ++ [s.latch.count] }.setPoint t (.leaving .getCount)) := by
  have hbelow : s.latch.count ≤ count := by
    rw [h.counted]
    omega
  refine { h with
    exclusive := h.exclusive.move (by rw [hpoint]; rfl)
    waits := h.waits_move (by rw [hpoint]; nofun) nofun
    passed := h.passed_move nofun
    woken := h.woken_move (by rw [hpoint]; nofun)
    reads := ?_
    readBetween := ?_ }
  · refine List.pairwise_append.2 ⟨h.reads, List.pairwise_singleton _ _, ?_⟩
    intro x hx y hy
    obtain rfl := List.mem_singleton.1 hy
    exact (h.readBetween x hx).1
  · intro x hx
    rcases List.mem_append.1 hx with hx | hx
    · exact h.readBetween x hx
    · obtain rfl := List.mem_singleton.1 hx
      exact ⟨le_rfl, hbelow⟩

theorem WellFormed.leave (h : s.WellFormed count) {call : LatchCall}
    (hpoint : s.points t = .leaving call) : (s.leave t call).WellFormed count := by
  have hinside : (s.points t).inside = true := by rw [hpoint]; rfl
  have hexclusive := h.exclusive
  rw [h.exclusive.owner_eq hinside] at hexclusive
  refine { h with
    exclusive := hexclusive.leave rfl
    waits := h.waits_move (by rw [hpoint]; nofun) nofun
    passed := h.passed_move nofun
    returned := ?_
    woken := h.woken_move (by rw [hpoint]; nofun) }
  intro hreturned
  change 0 < (if call = LatchCall.wait then s.returned + 1 else s.returned) at hreturned
  split_ifs at hreturned with hcall
  · exact h.passed t (hcall ▸ hpoint)
  · exact h.returned hreturned

theorem WellFormed.rouse (h : s.WellFormed count) (hasleep : s.condition t = some .asleep) :
    WellFormed count { s with condition := s.condition.rouse t } := by
  refine { h with
    waits := ?_
    woken := fun hopen => (h.woken hopen).imp_left fun hnone => hnone.rouse t }
  intro u
  by_cases hut : u = t
  · subst hut
    simp [(h.waits u).2 (by rw [hasleep]; nofun), Condition.rouse]
  · simpa [Condition.rouse, Function.update_of_ne hut] using h.waits u

/-- **No step breaks the invariant.** -/
theorem wellFormed_step (count : ℤ) :
    Runs.Invariant (step (τ := τ)) (WellFormed count) := by
  intro s op s' h hstep
  cases step_moves hstep with
  | call call hpoint =>
      exact h.move (by rw [hpoint]; rfl) (by rw [hpoint]; exact ⟨nofun, nofun⟩) nofun nofun
  | enter hpoint hfree => exact h.enter hpoint hfree
  | wait hpoint hclosed => exact h.wait hpoint hclosed
  | pass hpoint hopen =>
      exact h.move (by rw [hpoint]; rfl) (by rw [hpoint]; exact ⟨nofun, nofun⟩) nofun
        fun _ => isClosed_eq_false hopen
  | resume hpoint hfree hawake => exact h.resume hfree
  | count hpoint hfits => exact h.countDown hpoint
  | notify hpoint hzero => exact h.notify hpoint
  | skip hpoint hzero => exact h.skip hpoint hzero
  | read hpoint => exact h.read hpoint
  | leave hpoint => exact h.leave hpoint
  | rouse hasleep => exact h.rouse hasleep

end

/-! ### What the callers may rely on -/

/-- The count is what is left; a `wait` has returned only if the latch is open, and while it is
open nobody sleeps, once the mutex is free; and what `getCount` returns does not go up. -/
structure Sound (count : ℤ) (s : LatchThreads τ) : Prop where
  counted : s.latch.count = count - s.counted
  returned : 0 < s.returned → s.latch.count ≤ 0
  awake : s.owner = none → s.latch.count ≤ 0 → s.condition.NoneAsleep
  reads : s.reads.Pairwise fun x y => y ≤ x
  readBetween : ∀ x ∈ s.reads, s.latch.count ≤ x ∧ x ≤ count

/-- **A latch holds back as long as it is closed, and no longer**: whatever the first count, in
every state of every run, in whatever order the threads come and whenever they wake. -/
theorem openLatch_of_exec [DecidableEq τ] {count : ℤ} {ops : List (Op τ)} {s : LatchThreads τ}
    (h : Runs.exec step (init count) ops = some s) : s.Sound count := by
  have hs := Runs.exec_invariant (wellFormed_step count) (wellFormed_init count) h
  exact ⟨hs.counted, hs.returned, hs.noneAsleep_of_free, hs.reads, hs.readBetween⟩

/-- A thread waits, and sleeps; another one reads the count and counts down; the first one goes
on. -/
def demoOps : List (Op Bool) :=
  [.call true .wait, .go true, .go true, .call false .getCount, .go false, .go false, .go false,
    .call false .countDown, .go false, .go false, .go false, .go false, .go true, .go true,
    .go true]

theorem openLatch_of_exec_demoOps :
    ∃ s : LatchThreads Bool, Runs.exec step (init 1) demoOps = some s ∧ s.returned = 1 ∧
      s.Sound 1 := by
  have hdemo : (Runs.exec step (init 1 : LatchThreads Bool) demoOps).map (·.returned) = some 1 := by
    decide +kernel
  obtain ⟨s, hs, hreturned⟩ := Option.map_eq_some_iff.1 hdemo
  exact ⟨s, hs, hreturned, openLatch_of_exec hs⟩

/-! ### Every call returns -/

namespace Point

/-- How many steps of its own a thread has before it, at most, if it is not roused at a closed
latch. -/
def weight (closed : Bool) : Point → Option Waiter → ℕ
  | .outside, _ => 0
  | .leaving _, _ => 1
  | .notifying, _ | .reading, _ => 2
  | .counting, _ | .entering .getCount, _ => 3
  | .entering .countDown, _ => 4
  | .testing, _ => if closed then 6 else 2
  | .waiting, some .asleep => if closed then 5 else 4
  | .waiting, _ | .entering .wait, _ => if closed then 7 else 3

/-- How often the thread will count down before its call returns. -/
def toCount : Point → ℕ
  | .entering .countDown | .counting => 1
  | _ => 0

/-- Nobody is further from the end for being signalled at an open latch. -/
theorem weight_signalled_le (p : Point) (closed : Bool) (w : Option Waiter) :
    p.weight false (some .signalled) ≤ p.weight closed w := by
  cases p with
  | waiting => rcases w with _ | _ | _ | _ <;> cases closed <;> decide
  | entering call => cases call <;> cases closed <;> simp [weight]
  | testing => cases closed <;> simp [weight]
  | _ => exact le_rfl

/-- Nobody is further from the end when the latch opens. -/
theorem weight_false_le (p : Point) (closed : Bool) (w : Option Waiter) :
    p.weight false w ≤ p.weight closed w := by
  cases p with
  | waiting => rcases w with _ | _ | _ | _ <;> cases closed <;> decide
  | entering call => cases call <;> cases closed <;> simp [weight]
  | testing => cases closed <;> simp [weight]
  | _ => exact le_rfl

end Point

section

variable [DecidableEq τ] [Fintype τ]

/-- What is left to do of all the calls under way. -/
def rank (s : LatchThreads τ) : ℕ :=
  ∑ u, (s.points u).weight s.latch.isClosed (s.condition u)

/-- How often the calls under way will count down. -/
def toCount (s : LatchThreads τ) : ℕ := ∑ u, (s.points u).toCount

variable {count : ℤ} {s s' : LatchThreads τ} {t : τ} {p : Point}

/-- One thread goes on, and the others are no further from the end. -/
theorem rank_lt {r : LatchThreads τ} (hpoints : r.points = Function.update s.points t p)
    (ht : p.weight r.latch.isClosed (r.condition t) <
      (s.points t).weight s.latch.isClosed (s.condition t))
    (hother : ∀ u, u ≠ t → (s.points u).weight r.latch.isClosed (r.condition u) ≤
      (s.points u).weight s.latch.isClosed (s.condition u)) : r.rank < s.rank := by
  unfold rank
  rw [hpoints]
  refine Finset.sum_lt_sum (fun u _ => ?_) ⟨t, Finset.mem_univ t, by rwa [Function.update_self]⟩
  by_cases hut : u = t
  · subst hut
    rw [Function.update_self]
    exact ht.le
  · rw [Function.update_of_ne hut]
    exact hother u hut

/-- The count only goes down. -/
theorem isClosed_countDown (latch : CountDownLatch) :
    latch.countDown.isClosed = true → latch.isClosed = true := by
  intro h
  have hpositive : 0 < latch.count - 1 := of_decide_eq_true h
  exact decide_eq_true (by omega)

/-- **Every step of a call brings it nearer to its end**, be the latch open or closed. -/
theorem rank_go (hstep : s.step (.go t) = some s') : s'.rank < s.rank := by
  cases step_moves hstep with
  | @enter t call hpoint hfree =>
      refine rank_lt rfl ?_ fun u _ => le_rfl
      rw [hpoint]
      cases call with
      | wait => cases hclosed : s.latch.isClosed <;> simp [Point.first, Point.weight, hclosed]
      | countDown | getCount => simp [Point.first, Point.weight]
  | @wait t hpoint hclosed =>
      refine rank_lt rfl ?_ fun u hut => ?_
      · rw [hpoint]
        simp [Condition.wait, Point.weight, hclosed]
      · simp [Condition.wait, Function.update_of_ne hut]
  | @resume t hpoint hfree hawake =>
      refine rank_lt rfl ?_ fun u hut => ?_
      · rcases hawake with hw | hw <;> rw [hpoint, hw] <;> cases hclosed : s.latch.isClosed <;>
          simp [Point.weight, hclosed]
      · simp [Condition.resume, Function.update_of_ne hut]
  | @notify t hpoint hzero =>
      have hopen : s.latch.isClosed = false := by simp [CountDownLatch.isClosed, hzero]
      refine rank_lt rfl (by rw [hpoint]; simp [Point.weight]) fun u _ => ?_
      by_cases hasleep : s.condition u = some .asleep
      · have hw : s.condition.notifyAll u = some .signalled := if_pos hasleep
        simp only [setPoint_latch, setPoint_condition, hw, hopen]
        exact Point.weight_signalled_le _ _ _
      · have hw : s.condition.notifyAll u = s.condition u := if_neg hasleep
        simp only [setPoint_latch, setPoint_condition, hw, le_refl]
  | @count t hpoint hfits =>
      refine rank_lt rfl (by rw [hpoint]; simp [Point.weight]) fun u _ => ?_
      simp only [setPoint_latch, setPoint_condition]
      cases hclosed : s.latch.countDown.isClosed with
      | false => exact Point.weight_false_le _ _ _
      | true => rw [isClosed_countDown _ hclosed]
  | @pass t hpoint hopen =>
      exact rank_lt rfl (by rw [hpoint]; simp [Point.weight, hopen]) fun u _ => le_rfl
  | @skip t hpoint | @read t hpoint | @leave t call hpoint =>
      exact rank_lt rfl (by rw [hpoint]; simp [Point.weight]) fun u _ => le_rfl

/-- A call that begins has at most seven steps before it. -/
theorem rank_call {call : LatchCall} (hstep : s.step (.call t call) = some s') :
    s'.rank ≤ s.rank + 7 := by
  cases step_moves hstep with
  | call =>
      have hterm : ∀ u, ((s.setPoint t (.entering call)).points u).weight s.latch.isClosed
          (s.condition u) ≤ (s.points u).weight s.latch.isClosed (s.condition u) +
            if u = t then 7 else 0 := by
        intro u
        by_cases hut : u = t
        · subst hut
          rw [setPoint_self, if_pos rfl]
          cases call <;> cases s.latch.isClosed <;> simp [Point.weight]
        · rw [setPoint_of_ne _ hut, if_neg hut, Nat.add_zero]
      have hsum := Finset.sum_le_sum fun u (_ : u ∈ Finset.univ) => hterm u
      rw [Finset.sum_add_distrib, Finset.sum_ite_eq', if_pos (Finset.mem_univ t)] at hsum
      exact hsum

/-- The calls under way keep the count in the range of `int`. -/
def HasRoom (s : LatchThreads τ) : Prop := -2147483648 ≤ s.latch.count - s.toCount

theorem HasRoom.move (h : s.HasRoom) (hp : p.toCount ≤ (s.points t).toCount) :
    (s.setPoint t p).HasRoom := by
  have hle : (s.setPoint t p).toCount ≤ s.toCount := Runs.sum_update_le hp
  change -2147483648 ≤ s.latch.count - ((s.setPoint t p).toCount : ℤ)
  unfold HasRoom at h
  omega

theorem HasRoom.countDown (h : s.HasRoom) (hpoint : s.points t = .counting) :
    HasRoom
      ({ s with
        latch := s.latch.countDown
        counted := s.counted + 1 }.setPoint t .notifying) := by
  have hlt : (s.setPoint t .notifying).toCount < s.toCount :=
    Runs.sum_update_lt (by rw [hpoint]; decide)
  change -2147483648 ≤ s.latch.count - 1 - ((s.setPoint t .notifying).toCount : ℤ)
  unfold HasRoom at h
  omega

omit [DecidableEq τ] in
theorem toCount_le_card (s : LatchThreads τ) : s.toCount ≤ Fintype.card τ := by
  have hle := Finset.sum_le_card_nsmul Finset.univ (fun u => (s.points u).toCount) 1 fun u _ => by
    unfold Point.toCount
    split <;> decide
  rw [Finset.card_univ, nsmul_eq_mul, Nat.cast_id, mul_one] at hle
  exact hle

/-- A thread in the section can go on. -/
theorem enabled_of_inside (hle : s.latch.count ≤ 2147483648) (hroom : s.HasRoom)
    (ht : (s.points t).inside = true) : s.step (.go t) ≠ none := by
  simp only [step]
  cases hpoint : s.points t with
  | outside | waiting | entering call =>
      rw [hpoint] at ht
      cases ht
  | testing =>
      rw [goOn]
      split_ifs <;> exact Option.some_ne_none _
  | notifying =>
      rw [goOn]
      split_ifs <;> exact Option.some_ne_none _
  | reading | leaving call => exact Option.some_ne_none _
  | counting =>
      have hone : 1 ≤ s.toCount := by
        have hle := Finset.single_le_sum (f := fun u => (s.points u).toCount)
          (fun u _ => Nat.zero_le _) (Finset.mem_univ t)
        rw [hpoint] at hle
        exact hle
      unfold HasRoom at hroom
      rw [goOn, if_pos (FixedWidth.fits_32 (by omega) (by omega))]
      exact Option.some_ne_none _

/-- **Where nobody can go on**, every call has returned, or sleeps at a closed latch. -/
theorem outside_or_asleep_of_stuck (h : s.WellFormed count) (hle : s.latch.count ≤ 2147483648)
    (hroom : s.HasRoom) (hstuck : ∀ t, s.step (.go t) = none) (u : τ) :
    s.points u = .outside ∨ (s.points u = .waiting ∧ 0 < s.latch.count) := by
  cases howner : s.owner with
  | some t => exact absurd (hstuck t) (enabled_of_inside hle hroom ((h.exclusive t).1 howner))
  | none =>
      have houtside := h.exclusive
      rw [howner] at houtside
      have hu := houtside.outside u
      have hnone := hstuck u
      simp only [step] at hnone
      cases hpoint : s.points u with
      | outside => exact Or.inl rfl
      | entering call =>
          rw [hpoint, goOn, howner] at hnone
          cases hnone
      | waiting =>
          refine Or.inr ⟨rfl, not_le.1 fun hopen => ?_⟩
          -- the condition has woken everybody
          have hawake : s.condition.Awake u := by
            have hwaits := (h.waits u).1 hpoint
            have hasleep := h.noneAsleep_of_free howner hopen u
            rcases hw : s.condition u with _ | _ | _ | _
            · exact absurd hw hwaits
            · exact absurd hw hasleep
            · exact Or.inl hw
            · exact Or.inr hw
          rw [hpoint, goOn, if_pos ⟨howner, hawake⟩] at hnone
          cases hnone
      | testing | counting | notifying | reading | leaving call =>
          rw [hpoint] at hu
          cases hu

/-- The latch is open, with room for the calls under way. -/
structure Opened (count : ℤ) (s : LatchThreads τ) : Prop where
  wellFormed : s.WellFormed count
  isOpen : s.latch.count ≤ 0
  room : s.HasRoom

end

end LatchThreads

end G5
