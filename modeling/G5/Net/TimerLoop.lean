/-
**The timer queue in its loop** (`src/net/TimerQueue.cc`, `src/net/EventLoop.cc`).

`addTimer` queues a functor that inserts the timer; `handleRead` takes the due timers out of the
set, runs them, and then puts the repeating ones back.  A callback that is run may itself call
`addTimer`, and so may anything else in the loop.  Timers are never destroyed.

A reading of the clock is part of the label of the step that makes it; the clock never goes
backward.  `handleRead` may happen whenever the loop is between two callbacks and no batch of
functors is being executed.

Main definitions:

* `TimerLoop`, `TimerLoop.step` — the runs of the loop;
* `TimerLoop.Moves` — the steps again, each with what holds before it;
* `HandleRead` — what a call of `handleRead` found and ran;
* `TimerLoop.Sound` — timers are neither lost nor doubled, and run when they are due.

Main results:

* `TimerLoop.step_moves` — **every step is one of these**;
* `TimerLoop.sound_of_exec` — every state of every run is sound.
-/

import G5.Lib.Runs
import G5.Net.TimerQueue
import Mathlib.Data.List.Count
import Mathlib.Data.List.Nodup
import Mathlib.Logic.Function.Basic

set_option relaxedAutoImplicit false
set_option autoImplicit false

namespace G5

/-- What the loop is doing. -/
inductive Phase
  /-- it is between two callbacks -/
  | idle
  /-- `handleRead` took this batch out of the set, and has not run `todo` -/
  | running (expired todo : List Entry)
  /-- `reset` has not come to `todo` yet -/
  | resetting (todo : List Entry)
  deriving DecidableEq

/-- One call of `handleRead`: its reading of the clock, the set it found, and the timers it has run,
each with its expiration then. -/
structure HandleRead where
  now : ℤ
  timers : List Entry
  ran : List Entry
  deriving DecidableEq

namespace HandleRead

/-- The entries that are due at the reading. -/
def due (r : HandleRead) : List Entry := r.timers.filter fun e => e.key ≤ r.now

/-- The due entries have been run in their order, except for `todo`. -/
structure RanBut (r : HandleRead) (todo : List Entry) : Prop where
  sorted : r.timers.Pairwise (· < ·)
  split : r.ran ++ todo = r.due

theorem RanBut.key_le {r : HandleRead} {todo : List Entry} (h : r.RanBut todo) {e : Entry}
    (he : e ∈ r.ran) : e.key ≤ r.now := by
  have hdue : e ∈ r.due := h.split ▸ List.mem_append_left todo he
  simpa using (List.mem_filter.1 hdue).2

theorem RanBut.ordered {r : HandleRead} {todo : List Entry} (h : r.RanBut todo) :
    r.ran.Pairwise fun e f => e.key ≤ f.key := by
  have hdue : r.due.Pairwise (· < ·) := h.sorted.filter _
  rw [← h.split] at hdue
  exact (List.pairwise_append.1 hdue).1.imp Entry.key_le_of_lt

theorem RanBut.all {r : HandleRead} (h : r.RanBut []) {e : Entry} (he : e ∈ r.timers)
    (hkey : e.key ≤ r.now) : e ∈ r.ran := by
  rw [← List.append_nil r.ran, h.split]
  exact List.mem_filter.2 ⟨he, by simpa using hkey⟩

end HandleRead

/-- The queue, its loop, and the kernel's timer. -/
structure TimerLoop where
  clock : ℤ
  /-- the timers, by address -/
  heap : ℕ → Option Timer
  timers : List Entry
  /-- the functors that `doPendingFunctors` has taken and not executed -/
  functors : List ℕ
  /-- the functors `addTimerInLoop`, by the address they are bound to -/
  pendingFunctors : List ℕ
  phase : Phase
  timerfd : TimerFd
  /-- when the timerfd was last armed -/
  armedAt : ℤ
  /-- the calls of `handleRead` so far, the last one first -/
  reads : List HandleRead

/-- What may happen next. -/
inductive TimerOp
  | tick (now : ℤ)
  | addTimer (addr : ℕ) (when interval : ℤ)
  | doPendingFunctors
  | runFunctor (now : ℤ)
  | handleRead (now : ℤ)
  /-- the next timer of the batch is run -/
  | runNext
  /-- the batch has been run, and `reset` begins -/
  | reset
  /-- `reset` looks at the next timer of the batch -/
  | restartNext (now : ℤ)
  | finishReset (now : ℤ)
  deriving DecidableEq, Repr

namespace TimerLoop

/-! ### The functions -/

/-- The loop before any call. -/
def init (clock : ℤ) : TimerLoop where
  clock := clock
  heap := fun _ => none
  timers := []
  functors := []
  pendingFunctors := []
  phase := .idle
  timerfd := .disarmed
  armedAt := clock
  reads := []

/-- The clock reaches `now`. -/
def advance (s : TimerLoop) (now : ℤ) : TimerLoop :=
  { s with clock := now, timerfd := s.timerfd.elapse now }

/-- `addTimer`, with the address of the new timer. -/
def addTimer (s : TimerLoop) (addr : ℕ) (when interval : ℤ) : TimerLoop :=
  { s with
    heap := Function.update s.heap addr (some (Timer.new when interval))
    pendingFunctors := s.pendingFunctors ++ [addr] }

/-- The timerfd is set for `when`. -/
def rearm (s : TimerLoop) (when now : ℤ) : TimerLoop :=
  { s with timerfd := resetTimerfd when now, armedAt := now }

def addTimerInLoop (s : TimerLoop) (addr : ℕ) (timer : Timer) (now : ℤ) : TimerLoop :=
  let (earliestChanged, timers) := TimerQueue.insert s.timers timer addr
  if earliestChanged then { s with timers := timers }.rearm timer.expiration now
  else { s with timers := timers }

/-- The first half of `handleRead`, up to the loop that runs the batch. -/
def beginRead (s : TimerLoop) (now : ℤ) : TimerLoop :=
  let (expired, timers) := TimerQueue.getExpired s.timers now
  { s with
    timerfd := readTimerfd s.timerfd
    timers := timers
    phase := .running expired expired
    reads := ⟨now, s.timers, []⟩ :: s.reads }

/-- The timer at `addr` is run: it is noted with the call of `handleRead` that runs it. -/
def noteRun (timer : Timer) (addr : ℕ) : List HandleRead → List HandleRead
  | [] => []
  | r :: rs => { r with ran := r.ran ++ [Entry.of timer.expiration addr] } :: rs

/-- The loop of `reset` for one timer. -/
def restartTimer (s : TimerLoop) (addr : ℕ) (timer : Timer) (now : ℤ) : TimerLoop :=
  if timer.repeats then
    let timer := timer.restart now
    { s with
      heap := Function.update s.heap addr (some timer)
      timers := (TimerQueue.insert s.timers timer addr).2 }
  else s

/-- The end of `reset`. -/
def endReset (s : TimerLoop) (now : ℤ) : Option TimerLoop :=
  match s.timers with
  | [] => some s
  | first :: _ =>
      (s.heap first.addr).map fun timer =>
        if Timestamp.valid timer.expiration then s.rearm timer.expiration now else s

/-- One step.  A new timer has an address that no other has. -/
def step (s : TimerLoop) : TimerOp → Option TimerLoop
  | .tick now => if s.clock ≤ now then some (s.advance now) else none
  | .addTimer addr when interval =>
      if s.heap addr = none ∧ addr < UINTPTR_MAX then some (s.addTimer addr when interval)
      else none
  | .doPendingFunctors =>
      if s.phase = .idle ∧ s.functors = [] then
        some { s with functors := s.pendingFunctors, pendingFunctors := [] }
      else none
  | .runFunctor now =>
      match s.phase, s.functors with
      | .idle, addr :: rest =>
          if s.clock ≤ now then
            (s.heap addr).map fun timer =>
              { s.advance now with functors := rest }.addTimerInLoop addr timer now
          else none
      | _, _ => none
  | .handleRead now =>
      if s.phase = .idle ∧ s.functors = [] ∧ s.clock ≤ now then
        some ((s.advance now).beginRead now)
      else none
  | .runNext =>
      match s.phase with
      | .running expired (e :: todo) =>
          (s.heap e.addr).map fun timer =>
            { s with phase := .running expired todo, reads := noteRun timer e.addr s.reads }
      | _ => none
  | .reset =>
      match s.phase with
      | .running expired [] => some { s with phase := .resetting expired }
      | _ => none
  | .restartNext now =>
      match s.phase with
      | .resetting (e :: todo) =>
          if s.clock ≤ now then
            (s.heap e.addr).map fun timer =>
              { s.advance now with phase := .resetting todo }.restartTimer e.addr timer now
          else none
      | _ => none
  | .finishReset now =>
      match s.phase with
      | .resetting [] =>
          if s.clock ≤ now then { s.advance now with phase := .idle }.endReset now else none
      | _ => none

/-! ### What a step can do -/

/-- The steps, each with what holds before it. -/
inductive Moves (s : TimerLoop) : TimerOp → TimerLoop → Prop
  | tick (now : ℤ) : s.clock ≤ now → Moves s (.tick now) (s.advance now)
  | addTimer (addr : ℕ) (when interval : ℤ) : s.heap addr = none → addr < UINTPTR_MAX →
      Moves s (.addTimer addr when interval) (s.addTimer addr when interval)
  | doPendingFunctors : s.phase = .idle → s.functors = [] →
      Moves s .doPendingFunctors { s with functors := s.pendingFunctors, pendingFunctors := [] }
  | runFunctor (now : ℤ) (addr : ℕ) (rest : List ℕ) (timer : Timer) : s.phase = .idle →
      s.functors = addr :: rest → s.clock ≤ now → s.heap addr = some timer →
      Moves s (.runFunctor now)
        ({ s.advance now with functors := rest }.addTimerInLoop addr timer now)
  | handleRead (now : ℤ) : s.phase = .idle → s.functors = [] → s.clock ≤ now →
      Moves s (.handleRead now) ((s.advance now).beginRead now)
  | runNext (expired todo : List Entry) (e : Entry) (timer : Timer) :
      s.phase = .running expired (e :: todo) → s.heap e.addr = some timer →
      Moves s .runNext
        { s with phase := .running expired todo, reads := noteRun timer e.addr s.reads }
  | reset (expired : List Entry) : s.phase = .running expired [] →
      Moves s .reset { s with phase := .resetting expired }
  | restartNext (now : ℤ) (e : Entry) (todo : List Entry) (timer : Timer) :
      s.phase = .resetting (e :: todo) → s.clock ≤ now → s.heap e.addr = some timer →
      Moves s (.restartNext now)
        ({ s.advance now with phase := .resetting todo }.restartTimer e.addr timer now)
  | finishReset (now : ℤ) (t : TimerLoop) : s.phase = .resetting [] → s.clock ≤ now →
      { s.advance now with phase := .idle }.endReset now = some t → Moves s (.finishReset now) t

/-- **Every step is one of these.** -/
theorem step_moves {s t : TimerLoop} {op : TimerOp} (h : s.step op = some t) : Moves s op t := by
  cases op with
  | tick now =>
      simp only [step, Option.ite_none_right_eq_some, Option.some.injEq] at h
      obtain ⟨hnow, rfl⟩ := h
      exact .tick now hnow
  | addTimer addr when interval =>
      simp only [step, Option.ite_none_right_eq_some, Option.some.injEq] at h
      obtain ⟨⟨hfree, haddr⟩, rfl⟩ := h
      exact .addTimer addr when interval hfree haddr
  | doPendingFunctors =>
      simp only [step, Option.ite_none_right_eq_some, Option.some.injEq] at h
      obtain ⟨⟨hphase, hfun⟩, rfl⟩ := h
      exact .doPendingFunctors hphase hfun
  | runFunctor now =>
      simp only [step] at h
      split at h
      · rename_i addr rest hphase hfun
        rw [Option.ite_none_right_eq_some] at h
        obtain ⟨timer, htimer, rfl⟩ := Option.map_eq_some_iff.1 h.2
        exact .runFunctor now addr rest timer hphase hfun h.1 htimer
      · cases h
  | handleRead now =>
      simp only [step, Option.ite_none_right_eq_some, Option.some.injEq] at h
      obtain ⟨⟨hphase, hfun, hnow⟩, rfl⟩ := h
      exact .handleRead now hphase hfun hnow
  | runNext =>
      simp only [step] at h
      split at h
      · rename_i expired e todo hphase
        obtain ⟨timer, htimer, rfl⟩ := Option.map_eq_some_iff.1 h
        exact .runNext expired todo e timer hphase htimer
      · cases h
  | reset =>
      simp only [step] at h
      split at h
      · rename_i expired hphase
        obtain rfl := Option.some.inj h
        exact .reset expired hphase
      · cases h
  | restartNext now =>
      simp only [step] at h
      split at h
      · rename_i e todo hphase
        rw [Option.ite_none_right_eq_some] at h
        obtain ⟨timer, htimer, rfl⟩ := Option.map_eq_some_iff.1 h.2
        exact .restartNext now e todo timer hphase h.1 htimer
      · cases h
  | finishReset now =>
      simp only [step] at h
      split at h
      · rename_i hphase
        rw [Option.ite_none_right_eq_some] at h
        exact .finishReset now t hphase h.1 h.2
      · cases h

/-! ### Where a timer can be -/

/-- The functors that have not been executed. -/
def pending (s : TimerLoop) : List ℕ := s.functors ++ s.pendingFunctors

/-- The part of the batch that has not been restarted. -/
def batch (s : TimerLoop) : List Entry :=
  match s.phase with
  | .idle => []
  | .running expired _ => expired
  | .resetting todo => todo

/-- The part of the batch that has not been run. -/
def unrun (s : TimerLoop) : List Entry :=
  match s.phase with
  | .running _ todo => todo
  | _ => []

/-- The timers that have been run, once for each time. -/
def ran (s : TimerLoop) : List ℕ := s.reads.flatMap fun r => r.ran.map Entry.addr

/-- The places of a timer: a functor, the set, and the batch. -/
def places (s : TimerLoop) : List ℕ :=
  s.pending ++ s.timers.map Entry.addr ++ s.batch.map Entry.addr

/-- The places of a timer that is to be run once, and the run. -/
def lives (s : TimerLoop) : List ℕ :=
  s.ran ++ s.pending ++ s.timers.map Entry.addr ++ s.unrun.map Entry.addr

/-! ### The invariant -/

/-- Every call of `handleRead` has run what it found due; the last one may not have finished. -/
def ReadsRan (phase : Phase) (reads : List HandleRead) : Prop :=
  match phase with
  | .running expired todo =>
      ∃ r rs, reads = r :: rs ∧ r.RanBut todo ∧ expired = r.due ∧ ∀ r' ∈ rs, r'.RanBut []
  | _ => ∀ r ∈ reads, r.RanBut []

/-- What every state satisfies. -/
structure WellFormed (s : TimerLoop) : Prop where
  nodup : s.places.Nodup
  kept : ∀ a timer, s.heap a = some timer → timer.repeats = true → a ∈ s.places
  once : ∀ a timer, s.heap a = some timer → timer.repeats = false → s.lives.count a = 1
  known : ∀ a, a ∈ s.places ∨ a ∈ s.ran → s.heap a ≠ none
  addr_lt : ∀ a, s.heap a ≠ none → a < UINTPTR_MAX
  sorted : s.timers.Pairwise (· < ·)
  keyed : ∀ e, e ∈ s.timers ∨ e ∈ s.batch →
    ∃ timer, s.heap e.addr = some timer ∧ timer.expiration = e.key
  inserted : ∀ a ∈ s.ran, a ∉ s.pending
  reads : ReadsRan s.phase s.reads

theorem wellFormed_init (clock : ℤ) : (init clock).WellFormed where
  nodup := List.nodup_nil
  kept := by simp [init]
  once := by simp [init]
  known := by simp [init, places, pending, batch, ran]
  addr_lt := by simp [init]
  sorted := List.Pairwise.nil
  keyed := by simp [init, batch]
  inserted := by simp [init, ran]
  reads := by simp [init, ReadsRan]

/-- Only the time has changed. -/
theorem WellFormed.time {s : TimerLoop} (h : s.WellFormed) (clock : ℤ) (timerfd : TimerFd)
    (armedAt : ℤ) :
    ({ s with clock := clock, timerfd := timerfd, armedAt := armedAt } : TimerLoop).WellFormed :=
  ⟨h.nodup, h.kept, h.once, h.known, h.addr_lt, h.sorted, h.keyed, h.inserted, h.reads⟩

theorem WellFormed.advance {s : TimerLoop} (h : s.WellFormed) (now : ℤ) :
    (s.advance now).WellFormed := h.time _ _ _

theorem WellFormed.rearm {s : TimerLoop} (h : s.WellFormed) (when now : ℤ) :
    (s.rearm when now).WellFormed := h.time _ _ _

/-- What has not been run has not been restarted. -/
theorem WellFormed.unrun_subset {s : TimerLoop} (h : s.WellFormed) : s.unrun ⊆ s.batch := by
  intro e he
  have hreads := h.reads
  cases hphase : s.phase with
  | idle => simp [unrun, hphase] at he
  | resetting todo => simp [unrun, hphase] at he
  | running expired todo =>
      rw [hphase] at hreads
      obtain ⟨r, rs, -, hr, hexp, -⟩ := hreads
      simp only [unrun, hphase] at he
      simp only [batch, hphase]
      rw [hexp, ← hr.split]
      exact List.mem_append_right _ he

theorem WellFormed.mem_lives {s : TimerLoop} (h : s.WellFormed) {a : ℕ} (ha : a ∈ s.lives) :
    a ∈ s.places ∨ a ∈ s.ran := by
  simp only [lives, List.mem_append] at ha
  simp only [places, List.mem_append]
  rcases ha with ((ha | ha) | ha) | ha
  · exact Or.inr ha
  · exact Or.inl (Or.inl (Or.inl ha))
  · exact Or.inl (Or.inl (Or.inr ha))
  · exact Or.inl (Or.inr (List.map_subset _ h.unrun_subset ha))

/-- The timers have moved between their places. -/
theorem WellFormed.of_perm {s t : TimerLoop} (h : s.WellFormed) (hheap : t.heap = s.heap)
    (hplaces : t.places.Perm s.places) (hlives : t.lives.Perm s.lives)
    (hran : ∀ a ∈ t.ran, a ∈ s.places ∨ a ∈ s.ran) (sorted : t.timers.Pairwise (· < ·))
    (keyed : ∀ e, e ∈ t.timers ∨ e ∈ t.batch →
      ∃ timer, s.heap e.addr = some timer ∧ timer.expiration = e.key)
    (inserted : ∀ a ∈ t.ran, a ∉ t.pending) (reads : ReadsRan t.phase t.reads) :
    t.WellFormed where
  nodup := hplaces.nodup_iff.2 h.nodup
  kept := fun a timer ha hrep => hplaces.mem_iff.2 (h.kept a timer (hheap ▸ ha) hrep)
  once := fun a timer ha hrep => hlives.count_eq a ▸ h.once a timer (hheap ▸ ha) hrep
  known := by
    rintro a (ha | ha)
    · exact hheap ▸ h.known a (Or.inl (hplaces.mem_iff.1 ha))
    · exact hheap ▸ h.known a (hran a ha)
  addr_lt := hheap ▸ h.addr_lt
  sorted := sorted
  keyed := hheap ▸ keyed
  inserted := inserted
  reads := reads

/-- Only the phase has changed, or the functors have changed hands. -/
theorem WellFormed.of_eq {s t : TimerLoop} (h : s.WellFormed) (hheap : t.heap = s.heap)
    (htimers : t.timers = s.timers) (hpending : t.pending = s.pending)
    (hbatch : t.batch = s.batch) (hunrun : t.unrun = s.unrun) (hreads : t.reads = s.reads)
    (reads : ReadsRan t.phase s.reads) : t.WellFormed := by
  have hran : t.ran = s.ran := by rw [ran, hreads, ran]
  have hplaces : t.places = s.places := by rw [places, hpending, htimers, hbatch, places]
  have hlives : t.lives = s.lives := by rw [lives, hran, hpending, htimers, hunrun, lives]
  refine h.of_perm hheap (hplaces ▸ .refl _) (hlives ▸ .refl _) ?_ ?_ ?_ ?_ ?_
  · exact fun a ha => Or.inr (hran ▸ ha)
  · exact htimers ▸ h.sorted
  · rw [htimers, hbatch]
    exact h.keyed
  · rw [hran, hpending]
    exact h.inserted
  · rwa [hreads]

/-- One timer is new, or has changed, and may be run once more. -/
theorem WellFormed.of_update {s t : TimerLoop} (h : s.WellFormed) {addr : ℕ} {timer : Timer}
    (hheap : t.heap = Function.update s.heap addr (some timer)) (hlt : addr < UINTPTR_MAX)
    (nodup : t.places.Nodup) (hplaces : ∀ a, a ∈ t.places ↔ a = addr ∨ a ∈ s.places)
    (hlives : t.lives.Perm (addr :: s.lives)) (honce : timer.repeats = false → addr ∉ s.lives)
    (hran : t.ran = s.ran) (sorted : t.timers.Pairwise (· < ·))
    (keyed : ∀ e, e ∈ t.timers ∨ e ∈ t.batch →
      e = Entry.of timer.expiration addr ∨ e.addr ≠ addr ∧ (e ∈ s.timers ∨ e ∈ s.batch))
    (inserted : ∀ a ∈ s.ran, a ∉ t.pending) (reads : ReadsRan t.phase t.reads) :
    t.WellFormed := by
  have hself : t.heap addr = some timer := hheap ▸ Function.update_self ..
  have hother : ∀ a, a ≠ addr → t.heap a = s.heap a :=
    fun a ha => hheap ▸ Function.update_of_ne ha _ _
  constructor
  case nodup => exact nodup
  case kept =>
    intro a tm ha hrep
    rw [hplaces]
    by_cases haddr : a = addr
    · exact Or.inl haddr
    · exact Or.inr (h.kept a tm (by rwa [← hother a haddr]) hrep)
  case once =>
    intro a tm ha hrep
    rw [hlives.count_eq]
    by_cases haddr : a = addr
    · subst haddr
      rw [hself, Option.some_inj] at ha
      rw [List.count_cons_self, List.count_eq_zero_of_not_mem (honce (ha ▸ hrep))]
    · rw [List.count_cons_of_ne (Ne.symm haddr)]
      exact h.once a tm (by rwa [← hother a haddr]) hrep
  case known =>
    intro a ha
    by_cases haddr : a = addr
    · rw [haddr, hself]
      exact Option.some_ne_none _
    · rw [hplaces, or_iff_right haddr, hran] at ha
      rw [hother a haddr]
      exact h.known a ha
  case addr_lt =>
    intro a ha
    by_cases haddr : a = addr
    · exact haddr ▸ hlt
    · exact h.addr_lt a (by rwa [← hother a haddr])
  case sorted => exact sorted
  case keyed =>
    intro e he
    rcases keyed e he with rfl | ⟨hne, he⟩
    · exact ⟨timer, hself, rfl⟩
    · rw [hother _ hne]
      exact h.keyed e he
  case inserted => exact hran ▸ inserted
  case reads => exact reads

/-! ### The functions keep it -/

theorem WellFormed.addTimer {s : TimerLoop} (h : s.WellFormed) {addr : ℕ}
    (hfree : s.heap addr = none) (hlt : addr < UINTPTR_MAX) (when interval : ℤ) :
    (s.addTimer addr when interval).WellFormed := by
  have hplaces : (s.addTimer addr when interval).places.Perm (addr :: s.places) :=
    List.perm_iff_count.2 fun a => by
      simp only [places, pending, batch, TimerLoop.addTimer, List.count_append, List.count_cons,
        List.count_nil]
      omega
  have hlives : (s.addTimer addr when interval).lives.Perm (addr :: s.lives) :=
    List.perm_iff_count.2 fun a => by
      simp only [lives, ran, pending, unrun, TimerLoop.addTimer, List.count_append,
        List.count_cons, List.count_nil]
      omega
  have hnew : ¬(addr ∈ s.places ∨ addr ∈ s.ran) := fun ha => h.known addr ha hfree
  refine h.of_update rfl hlt ?_ ?_ hlives ?_ rfl h.sorted ?_ ?_ h.reads
  · rw [hplaces.nodup_iff, List.nodup_cons]
    exact ⟨fun hmem => hnew (Or.inl hmem), h.nodup⟩
  · intro a
    rw [hplaces.mem_iff, List.mem_cons]
  · intro _ hmem
    exact hnew (h.mem_lives hmem)
  · intro e he
    refine Or.inr ⟨?_, he⟩
    intro heq
    obtain ⟨timer, htimer, -⟩ := h.keyed e he
    rw [heq, hfree] at htimer
    cases htimer
  · intro a ha hpending
    simp only [pending, TimerLoop.addTimer, ← List.append_assoc, List.mem_append,
      List.mem_singleton] at hpending
    rcases hpending with hpending | rfl
    · exact h.inserted a ha (List.mem_append.2 hpending)
    · exact hnew (Or.inr ha)

/-- The first functor puts its timer into the set. -/
theorem WellFormed.insertFirst {s : TimerLoop} (h : s.WellFormed) {addr : ℕ} {rest : List ℕ}
    (hfun : s.functors = addr :: rest) {timer : Timer} (htimer : s.heap addr = some timer) :
    ({ s with functors := rest, timers := (TimerQueue.insert s.timers timer addr).2 } :
      TimerLoop).WellFormed := by
  generalize ht : ({ s with
    functors := rest
    timers := (TimerQueue.insert s.timers timer addr).2 } : TimerLoop) = t
  have hnotin : addr ∉ s.timers.map Entry.addr := by
    have hnodup := (List.nodup_append.1 h.nodup).1
    exact fun hmem => (List.nodup_append.1 hnodup).2.2 addr (by simp [pending, hfun]) addr hmem rfl
  have htimers := TimerQueue.map_addr_insert hnotin timer
  have hplaces : t.places.Perm s.places :=
    List.perm_iff_count.2 fun a => by
      have hcount := htimers.count_eq a
      simp only [← ht, places, pending, batch, hfun, List.count_append, List.count_cons] at *
      omega
  have hlives : t.lives.Perm s.lives :=
    List.perm_iff_count.2 fun a => by
      have hcount := htimers.count_eq a
      simp only [← ht, lives, ran, pending, unrun, hfun, List.count_append, List.count_cons] at *
      omega
  subst ht
  refine h.of_perm rfl hplaces hlives (fun a ha => Or.inr ha) ?_ ?_ ?_ h.reads
  · exact TimerQueue.pairwise_insert h.sorted timer addr
  · rintro e (he | he)
    · rcases TimerQueue.mem_insert.1 he with rfl | he
      · exact ⟨timer, htimer, rfl⟩
      · exact h.keyed e (Or.inl he)
    · exact h.keyed e (Or.inr he)
  · intro a ha hpending
    refine h.inserted a ha ?_
    rw [pending, hfun]
    exact List.mem_cons_of_mem _ hpending

theorem WellFormed.addTimerInLoop {s : TimerLoop} (h : s.WellFormed) {addr : ℕ} {rest : List ℕ}
    (hfun : s.functors = addr :: rest) {timer : Timer} (htimer : s.heap addr = some timer)
    (now : ℤ) : ({ s with functors := rest }.addTimerInLoop addr timer now).WellFormed := by
  have hins := h.insertFirst hfun htimer
  simp only [TimerLoop.addTimerInLoop]
  split
  · exact hins.rearm _ _
  · exact hins

/-- `handleRead` moves the due timers from the set to the batch. -/
theorem WellFormed.beginRead {s : TimerLoop} (h : s.WellFormed) (hphase : s.phase = .idle)
    (now : ℤ) : (s.beginRead now).WellFormed := by
  have happ := TimerQueue.getExpired_append s.timers now
  have haddr : ∀ e ∈ s.timers, e.addr < UINTPTR_MAX := by
    intro e he
    obtain ⟨timer, htimer, -⟩ := h.keyed e (Or.inl he)
    exact h.addr_lt e.addr (by simp [htimer])
  have hfst := TimerQueue.getExpired_fst h.sorted haddr now
  have hcount : ∀ a, ((TimerQueue.getExpired s.timers now).1.map Entry.addr).count a +
      ((TimerQueue.getExpired s.timers now).2.map Entry.addr).count a =
        (s.timers.map Entry.addr).count a := by
    intro a
    rw [← List.count_append, ← List.map_append, happ]
  have hplaces : (s.beginRead now).places.Perm s.places :=
    List.perm_iff_count.2 fun a => by
      have hsum := hcount a
      simp only [places, pending, batch, hphase, TimerLoop.beginRead, List.count_append,
        List.map_nil, List.count_nil] at *
      omega
  have hran : (s.beginRead now).ran = s.ran := by
    simp [ran, TimerLoop.beginRead]
  have hlives : (s.beginRead now).lives.Perm s.lives :=
    List.perm_iff_count.2 fun a => by
      have hsum := hcount a
      simp only [lives, hran, pending, unrun, hphase, TimerLoop.beginRead, List.count_append,
        List.map_nil, List.count_nil] at *
      omega
  refine h.of_perm rfl hplaces hlives (fun a ha => Or.inr (hran ▸ ha)) ?_ ?_ ?_ ?_
  · exact (List.pairwise_append.1 (happ.symm ▸ h.sorted)).2.1
  · intro e he
    refine h.keyed e (Or.inl ?_)
    rw [← happ, List.mem_append]
    exact he.symm
  · rw [hran]
    exact h.inserted
  · have hreads := h.reads
    rw [hphase] at hreads
    exact ⟨_, _, rfl, ⟨h.sorted, hfst⟩, hfst, hreads⟩

/-- A timer of the batch is in no functor and not in the set. -/
theorem WellFormed.not_mem_of_batch {s : TimerLoop} (h : s.WellFormed) {e : Entry}
    (he : e ∈ s.batch) : e.addr ∉ s.pending ∧ e.addr ∉ s.timers.map Entry.addr := by
  have hdisj := (List.nodup_append.1 h.nodup).2.2
  have hmem : e.addr ∈ s.batch.map Entry.addr := List.mem_map_of_mem he
  constructor
  · exact fun hp => hdisj _ (List.mem_append_left _ hp) _ hmem rfl
  · exact fun ht => hdisj _ (List.mem_append_right _ ht) _ hmem rfl

/-- The next timer of the batch is run. -/
theorem WellFormed.runNext {s : TimerLoop} (h : s.WellFormed) {expired todo : List Entry}
    {e : Entry} (hphase : s.phase = .running expired (e :: todo)) {timer : Timer}
    (htimer : s.heap e.addr = some timer) :
    ({ s with phase := .running expired todo, reads := noteRun timer e.addr s.reads } :
      TimerLoop).WellFormed := by
  have he : e ∈ s.batch := h.unrun_subset (by simp [unrun, hphase])
  have hentry : Entry.of timer.expiration e.addr = e := by
    obtain ⟨timer', htimer', hkey⟩ := h.keyed e (Or.inr he)
    rw [htimer, Option.some_inj] at htimer'
    rw [htimer', hkey, Entry.of_key_addr]
  obtain ⟨r, rs, hreads, hr, hexp, hrs⟩ :
      ∃ r rs, s.reads = r :: rs ∧ r.RanBut (e :: todo) ∧ expired = r.due ∧
        ∀ r' ∈ rs, r'.RanBut [] := by
    have := h.reads
    rwa [hphase] at this
  have hnote : noteRun timer e.addr s.reads = { r with ran := r.ran ++ [e] } :: rs := by
    rw [hreads, noteRun, hentry]
  rw [hnote]
  generalize ht : ({ s with
    phase := .running expired todo
    reads := { r with ran := r.ran ++ [e] } :: rs } : TimerLoop) = t
  have hplaces : t.places = s.places := by
    simp only [← ht, places, pending, batch, hphase]
  have hran : t.ran.Perm (e.addr :: s.ran) :=
    List.perm_iff_count.2 fun a => by
      simp only [← ht, ran, hreads, List.flatMap_cons, List.map_append, List.map_cons,
        List.map_nil, List.count_append, List.count_cons, List.count_nil]
      omega
  have hlives : t.lives.Perm s.lives :=
    List.perm_iff_count.2 fun a => by
      have hcount := hran.count_eq a
      simp only [lives, pending, unrun, hphase, ← ht, List.map_cons, List.count_append,
        List.count_cons] at *
      omega
  have hpending : t.pending = s.pending := ht ▸ rfl
  have hold : ∀ a, a ∈ t.ran → a = e.addr ∨ a ∈ s.ran := by
    intro a ha
    rwa [hran.mem_iff, List.mem_cons] at ha
  have hsplit : r.ran ++ [e] ++ todo = r.due := by
    rw [List.append_assoc]
    exact hr.split
  refine h.of_perm (ht ▸ rfl) (hplaces ▸ .refl _) hlives ?_ (ht ▸ h.sorted) ?_ ?_ ?_
  · intro a ha
    rcases hold a ha with rfl | ha
    · exact Or.inl (List.mem_append_right _ (List.mem_map_of_mem he))
    · exact Or.inr ha
  · subst ht
    refine fun f hf => h.keyed f ?_
    simpa only [batch, hphase] using hf
  · intro a ha
    rw [hpending]
    rcases hold a ha with rfl | ha
    · exact (h.not_mem_of_batch he).1
    · exact h.inserted a ha
  · subst ht
    exact ⟨_, _, rfl, ⟨hr.sorted, hsplit⟩, hexp, hrs⟩

/-- The batch has been run. -/
theorem WellFormed.reset {s : TimerLoop} (h : s.WellFormed) {expired : List Entry}
    (hphase : s.phase = .running expired []) :
    ({ s with phase := .resetting expired } : TimerLoop).WellFormed := by
  have hreads := h.reads
  rw [hphase] at hreads
  obtain ⟨r, rs, hsplit, hr, -, hrs⟩ := hreads
  refine h.of_eq rfl rfl rfl (by simp only [batch, hphase]) (by simp only [unrun, hphase]) rfl ?_
  intro r' hr'
  rw [hsplit] at hr'
  rcases List.mem_cons.1 hr' with rfl | hr'
  · exact hr
  · exact hrs r' hr'

/-- `reset` passes over a one-shot timer. -/
theorem WellFormed.passOver {s : TimerLoop} (h : s.WellFormed) {e : Entry} {todo : List Entry}
    (hphase : s.phase = .resetting (e :: todo)) {timer : Timer}
    (htimer : s.heap e.addr = some timer) (hrep : timer.repeats = false) :
    ({ s with phase := .resetting todo } : TimerLoop).WellFormed := by
  generalize ht : ({ s with phase := .resetting todo } : TimerLoop) = t
  have hplaces : s.places.Perm (e.addr :: t.places) :=
    List.perm_iff_count.2 fun a => by
      simp only [← ht, places, pending, batch, hphase, List.map_cons, List.count_append,
        List.count_cons]
      omega
  have hlives : t.lives = s.lives := by
    simp only [← ht, lives, ran, pending, unrun, hphase]
  have hnodup := List.nodup_cons.1 (hplaces.nodup_iff.1 h.nodup)
  have hheap : t.heap = s.heap := ht ▸ rfl
  have hran : t.ran = s.ran := ht ▸ rfl
  have hreads := h.reads
  rw [hphase] at hreads
  constructor
  case nodup => exact hnodup.2
  case kept =>
    intro a tm ha hrepa
    rw [hheap] at ha
    have hmem := h.kept a tm ha hrepa
    rw [hplaces.mem_iff, List.mem_cons] at hmem
    rcases hmem with rfl | hmem
    · rw [htimer, Option.some_inj] at ha
      rw [ha, hrepa] at hrep
      cases hrep
    · exact hmem
  case once => exact hlives ▸ ht ▸ h.once
  case known =>
    rintro a (ha | ha)
    · exact hheap ▸ h.known a (Or.inl (hplaces.mem_iff.2 (List.mem_cons_of_mem _ ha)))
    · exact hheap ▸ h.known a (Or.inr (hran ▸ ha))
  case addr_lt => exact ht ▸ h.addr_lt
  case sorted => exact ht ▸ h.sorted
  case keyed =>
    subst ht
    refine fun f hf => h.keyed f (hf.imp id fun hf => ?_)
    simp only [batch, hphase]
    exact List.mem_cons_of_mem _ hf
  case inserted => exact ht ▸ h.inserted
  case reads => exact ht ▸ hreads

/-- The set and the rest of the batch hold other timers than the one to be restarted. -/
theorem WellFormed.addr_ne_of_resetting {s : TimerLoop} (h : s.WellFormed) {e f : Entry}
    {todo : List Entry} (hphase : s.phase = .resetting (e :: todo))
    (hf : f ∈ s.timers ∨ f ∈ todo) : f.addr ≠ e.addr := by
  intro heq
  rcases hf with hf | hf
  · have he : e ∈ s.batch := by
      simp only [batch, hphase]
      exact List.mem_cons_self
    exact (h.not_mem_of_batch he).2 (heq ▸ List.mem_map_of_mem hf)
  · have hbatch := (List.nodup_append.1 h.nodup).2.1
    simp only [batch, hphase, List.map_cons, List.nodup_cons] at hbatch
    exact hbatch.1 (heq ▸ List.mem_map_of_mem hf)

/-- `reset` restarts a repeating timer and puts it back. -/
theorem WellFormed.putBack {s : TimerLoop} (h : s.WellFormed) {e : Entry} {todo : List Entry}
    (hphase : s.phase = .resetting (e :: todo)) {timer : Timer}
    (htimer : s.heap e.addr = some timer) (hrep : timer.repeats = true) (now : ℤ) :
    ({ s with
      phase := .resetting todo
      heap := Function.update s.heap e.addr (some (timer.restart now))
      timers := (TimerQueue.insert s.timers (timer.restart now) e.addr).2 } :
        TimerLoop).WellFormed := by
  generalize ht : ({ s with
      phase := .resetting todo
      heap := Function.update s.heap e.addr (some (timer.restart now))
      timers := (TimerQueue.insert s.timers (timer.restart now) e.addr).2 } : TimerLoop) = t
  have he : e ∈ s.batch := by
    simp only [batch, hphase]
    exact List.mem_cons_self
  obtain ⟨-, hnotin⟩ := h.not_mem_of_batch he
  have htimers := TimerQueue.map_addr_insert hnotin (timer.restart now)
  have hplaces : t.places.Perm s.places :=
    List.perm_iff_count.2 fun a => by
      have hcount := htimers.count_eq a
      simp only [← ht, places, pending, batch, hphase, List.map_cons, List.count_append,
        List.count_cons] at *
      omega
  have hlives : t.lives.Perm (e.addr :: s.lives) :=
    List.perm_iff_count.2 fun a => by
      have hcount := htimers.count_eq a
      simp only [← ht, lives, ran, pending, unrun, hphase, List.map_nil, List.count_nil,
        List.count_append, List.count_cons] at *
      omega
  have hmem : e.addr ∈ s.places := h.kept e.addr timer htimer hrep
  have hreads := h.reads
  rw [hphase] at hreads
  subst ht
  refine h.of_update rfl (h.addr_lt _ (by simp [htimer])) (hplaces.nodup_iff.2 h.nodup) ?_ hlives
    ?_ rfl (TimerQueue.pairwise_insert h.sorted _ _) ?_ h.inserted hreads
  · intro a
    rw [hplaces.mem_iff]
    constructor
    · exact Or.inr
    · rintro (rfl | ha)
      · exact hmem
      · exact ha
  · -- a timer that repeats may be run more than once
    intro hnot
    rw [Timer.restart_repeats, hrep] at hnot
    cases hnot
  · intro f hf
    rw [TimerQueue.mem_insert, or_assoc] at hf
    rcases hf with rfl | hf
    · exact Or.inl rfl
    · refine Or.inr ⟨h.addr_ne_of_resetting hphase hf, hf.imp id ?_⟩
      intro hf
      simp only [batch, hphase]
      exact List.mem_cons_of_mem _ hf

theorem WellFormed.restartTimer {s : TimerLoop} (h : s.WellFormed) {e : Entry}
    {todo : List Entry} (hphase : s.phase = .resetting (e :: todo)) {timer : Timer}
    (htimer : s.heap e.addr = some timer) (now : ℤ) :
    ({ s with phase := .resetting todo }.restartTimer e.addr timer now).WellFormed := by
  unfold TimerLoop.restartTimer
  split
  · rename_i hrep
    exact h.putBack hphase htimer hrep now
  · rename_i hrep
    exact h.passOver hphase htimer (by simpa using hrep)

theorem WellFormed.endReset {s t : TimerLoop} (h : s.WellFormed) {now : ℤ}
    (hst : s.endReset now = some t) : t.WellFormed := by
  unfold TimerLoop.endReset at hst
  split at hst
  · cases hst
    exact h
  · obtain ⟨timer, -, rfl⟩ := Option.map_eq_some_iff.1 hst
    split
    · exact h.rearm _ _
    · exact h

/-- The batch has been restarted. -/
theorem WellFormed.toIdle {s : TimerLoop} (h : s.WellFormed) (hphase : s.phase = .resetting []) :
    ({ s with phase := .idle } : TimerLoop).WellFormed := by
  have hreads := h.reads
  rw [hphase] at hreads
  exact h.of_eq rfl rfl rfl (by simp only [batch, hphase]) (by simp only [unrun, hphase]) rfl
    hreads

theorem WellFormed.doPendingFunctors {s : TimerLoop} (h : s.WellFormed)
    (hfun : s.functors = []) :
    ({ s with functors := s.pendingFunctors, pendingFunctors := [] } : TimerLoop).WellFormed :=
  h.of_eq rfl rfl (by simp only [pending, hfun, List.append_nil, List.nil_append]) rfl rfl rfl
    h.reads

/-! ### Runs -/

theorem wellFormed_step : Runs.Invariant step WellFormed := by
  intro s op t h hst
  cases step_moves hst with
  | tick now hnow => exact h.advance now
  | addTimer addr when interval hfree haddr => exact h.addTimer hfree haddr when interval
  | doPendingFunctors hphase hfun => exact h.doPendingFunctors hfun
  | runFunctor now addr rest timer hphase hfun hnow htimer =>
      exact (h.advance now).addTimerInLoop hfun htimer now
  | handleRead now hphase hfun hnow => exact (h.advance now).beginRead hphase now
  | runNext expired todo e timer hphase htimer => exact h.runNext hphase htimer
  | reset expired hphase => exact h.reset hphase
  | restartNext now e todo timer hphase hnow htimer =>
      exact (h.advance now).restartTimer hphase htimer now
  | finishReset now t hphase hnow hend => exact ((h.advance now).toIdle hphase).endReset hend

/-- Timers are neither lost nor doubled, and they run when they are due. -/
structure Sound (s : TimerLoop) : Prop where
  /-- a timer is in at most one functor, or once in the set, or once in the batch -/
  onePlace : (s.pending ++ s.timers.map Entry.addr ++ s.batch.map Entry.addr).Nodup
  keyed : ∀ e ∈ s.timers, ∃ timer, s.heap e.addr = some timer ∧ timer.expiration = e.key
  due : ∀ r ∈ s.reads, ∀ e ∈ r.ran, e.key ≤ r.now
  ordered : ∀ r ∈ s.reads, r.ran.Pairwise fun e f => e.key ≤ f.key
  allRun : s.unrun = [] → ∀ r ∈ s.reads, ∀ e ∈ r.timers, e.key ≤ r.now → e ∈ r.ran
  once : ∀ a timer, s.heap a = some timer → timer.repeats = false → s.ran.count a ≤ 1
  /-- from its insertion until it is run, a one-shot timer is in the set, or is about to be run by
  the call of `handleRead` that took it out -/
  stays : ∀ a timer, s.heap a = some timer → timer.repeats = false → a ∉ s.pending → a ∉ s.ran →
    a ∈ s.timers.map Entry.addr ∨ a ∈ s.unrun.map Entry.addr
  back : s.phase = .idle → ∀ r ∈ s.reads, ∀ e ∈ r.ran, ∀ timer, s.heap e.addr = some timer →
    timer.repeats = true → e.addr ∈ s.timers.map Entry.addr

/-- Every call of `handleRead` has run a part of what it found due. -/
theorem WellFormed.ranBut {s : TimerLoop} (h : s.WellFormed) {r : HandleRead}
    (hr : r ∈ s.reads) : ∃ todo, r.RanBut todo ∧ (s.unrun = [] → todo = []) := by
  have hreads := h.reads
  cases hphase : s.phase with
  | running expired todo =>
      rw [hphase] at hreads
      obtain ⟨r', rs, hsplit, hr', -, hrs⟩ := hreads
      rw [hsplit] at hr
      rcases List.mem_cons.1 hr with rfl | hr
      · exact ⟨todo, hr', by simp [unrun, hphase]⟩
      · exact ⟨[], hrs r hr, fun _ => rfl⟩
  | idle =>
      rw [hphase] at hreads
      exact ⟨[], hreads r hr, fun _ => rfl⟩
  | resetting todo =>
      rw [hphase] at hreads
      exact ⟨[], hreads r hr, fun _ => rfl⟩

theorem WellFormed.sound {s : TimerLoop} (h : s.WellFormed) : s.Sound where
  onePlace := h.nodup
  keyed := fun e he => h.keyed e (Or.inl he)
  due := by
    intro r hr e he
    obtain ⟨todo, hran, -⟩ := h.ranBut hr
    exact hran.key_le he
  ordered := by
    intro r hr
    obtain ⟨todo, hran, -⟩ := h.ranBut hr
    exact hran.ordered
  allRun := by
    intro hunrun r hr e he hkey
    obtain ⟨todo, hran, htodo⟩ := h.ranBut hr
    rw [htodo hunrun] at hran
    exact hran.all he hkey
  once := by
    intro a timer ha hrep
    have hcount := h.once a timer ha hrep
    rw [lives, List.count_append, List.count_append, List.count_append] at hcount
    omega
  stays := by
    intro a timer ha hrep hpending hran
    have hmem : a ∈ s.lives := List.count_pos_iff.1 (by rw [h.once a timer ha hrep]; decide)
    simpa only [lives, List.mem_append, hpending, hran, false_or] using hmem
  back := by
    intro hphase r hr e he timer ha hrep
    have hran : e.addr ∈ s.ran := List.mem_flatMap.2 ⟨r, hr, List.mem_map_of_mem he⟩
    have hmem := h.kept e.addr timer ha hrep
    simpa only [places, batch, hphase, List.mem_append, h.inserted _ hran, List.map_nil,
      List.not_mem_nil, false_or, or_false] using hmem

/-- **Timers are neither lost nor doubled, and they run when they are due**, in every state of every
run: whatever expirations and intervals `addTimer` is given and from where, and whenever
`handleRead` happens. -/
theorem sound_of_exec {clock : ℤ} {ops : List TimerOp} {s : TimerLoop}
    (h : Runs.exec step (init clock) ops = some s) : s.Sound :=
  (Runs.exec_invariant wellFormed_step (wellFormed_init clock) h).sound

/-- A run with a one-shot timer and a repeating one; a callback adds a third one. -/
def demoOps : List TimerOp :=
  [.addTimer 8 5 0, .addTimer 16 3 1, .doPendingFunctors, .runFunctor 1, .runFunctor 1,
    .handleRead 10, .runNext, .addTimer 24 40 0, .runNext, .reset, .restartNext 11,
    .restartNext 12, .finishReset 13, .doPendingFunctors, .runFunctor 14]

/-- The theorem on this run. -/
theorem sound_of_exec_demoOps :
    ∃ s, Runs.exec step (init 1) demoOps = some s ∧ s.ran = [16, 8] ∧ s.Sound := by
  have h : (Runs.exec step (init 1) demoOps).map ran = some [16, 8] := by decide +kernel
  obtain ⟨s, hs, hran⟩ := Option.map_eq_some_iff.1 h
  exact ⟨s, hs, hran, sound_of_exec hs⟩

/-- Two one-shot timers that fall due together: while the first one runs, the second one has left
the set and has not been run. -/
theorem exists_taken_out :
    ∃ s t timer,
      Runs.exec step (init 1) [.addTimer 8 3 0, .addTimer 16 5 0, .doPendingFunctors,
        .runFunctor 1, .runFunctor 1] = some s ∧
      16 ∈ s.timers.map Entry.addr ∧
      Runs.exec step s [.handleRead 10, .runNext] = some t ∧
      t.heap 16 = some timer ∧ timer.repeats = false ∧
      16 ∉ t.timers.map Entry.addr ∧ 16 ∉ t.ran := by
  have h : (Runs.exec step (init 1) [.addTimer 8 3 0, .addTimer 16 5 0, .doPendingFunctors,
      .runFunctor 1, .runFunctor 1]).map (fun s => (s.timers.map Entry.addr,
        (Runs.exec step s [.handleRead 10, .runNext]).map fun t =>
          (t.timers.map Entry.addr, t.ran, (t.heap 16).map Timer.repeats))) =
      some ([8, 16], some ([], [8], some false)) := by
    decide +kernel
  obtain ⟨s, hs, hview⟩ := Option.map_eq_some_iff.1 h
  obtain ⟨htimers, hafter⟩ := Prod.mk.inj hview
  obtain ⟨t, ht, hview'⟩ := Option.map_eq_some_iff.1 hafter
  simp only [Prod.mk.injEq] at hview'
  obtain ⟨hgone, hran, hrepeats⟩ := hview'
  obtain ⟨timer, htimer, hrep⟩ := Option.map_eq_some_iff.1 hrepeats
  refine ⟨s, t, timer, hs, ?_, ht, htimer, hrep, ?_, ?_⟩
  · rw [htimers]
    decide
  · rw [hgone]
    decide
  · rw [hran]
    decide

end TimerLoop

end G5
