/-
**Timers and their intervals in seconds.**

A timer is run when its expiration is not after the reading of the clock by `handleRead`, and
restarted from a later reading.  So the time between two firings is at least what `addTime` adds,
and this is the interval as long as its microseconds fit in an `int`.

Main definitions:

* `TimerLoop.firing` — the timer whose callback is next;
* `TimerLoop.FiringsApart`, `TimerLoop.NeverEarly` — what `runEvery` and `runAfter` promise in every
  run;
* `TimerLoop.KeepsSeconds` — an interval is kept everywhere;
* `TimerLoop.NotBefore` — the invariant: a timer is not run before a time.

Main results:

* `TimerLoop.NotBefore.exec` — the invariant over a run;
* `TimerLoop.keepsSeconds_iff` — **an interval is kept exactly if it is at most 2147 seconds**.
-/

import G5.Net.TimerCalls
import G5.Net.TimerLoop

set_option relaxedAutoImplicit false
set_option autoImplicit false

namespace G5

open EventLoop

/-- The call of `addTimer` that makes the timer, at the address `addr`. -/
def TimerOp.create (addr : ℕ) (timer : Timer) : TimerOp :=
  .addTimer addr timer.expiration timer.interval

namespace TimerLoop

/-! ### What the calls promise -/

/-- The timer whose callback `handleRead` invokes next. -/
def firing (s : TimerLoop) : Option ℕ :=
  match s.phase with
  | .running _ (e :: _) => some e.addr
  | _ => none

/-- Two firings of a timer of `runEvery(k)` are at least `k` seconds apart, in every run in which
the clock stays within an `int64_t`. -/
def FiringsApart (k : ℤ) : Prop :=
  ∀ (clock : ℤ) (before between after : List TimerOp) (a : ℕ) (s t u v w : TimerLoop),
    Runs.exec step (init clock) before = some s →
    s.step (.create a (runEvery s.clock k)) = some t →
    Runs.exec step t between = some u → u.firing = some a → u.step .runNext = some v →
    Runs.exec step v after = some w → w.firing = some a →
    -2 ^ 63 ≤ clock → w.clock + k * kMicroSecondsPerSecond < 2 ^ 63 →
    u.clock + k * kMicroSecondsPerSecond ≤ w.clock

/-- A timer of `runAfter(k)` does not fire before `k` seconds have passed. -/
def NeverEarly (k : ℤ) : Prop :=
  ∀ (clock : ℤ) (before after : List TimerOp) (a : ℕ) (s t u : TimerLoop),
    Runs.exec step (init clock) before = some s →
    s.step (.create a (runAfter s.clock k)) = some t →
    Runs.exec step t after = some u → u.firing = some a →
    -2 ^ 63 ≤ clock → u.clock + k * kMicroSecondsPerSecond < 2 ^ 63 →
    s.clock + k * kMicroSecondsPerSecond ≤ u.clock

/-- Intervals of `k` seconds are kept. -/
structure KeepsSeconds (k : ℤ) : Prop where
  exact : ∀ ts, FitsInt64 ts → FitsInt64 (ts + k * kMicroSecondsPerSecond) →
    addTime ts k = ts + k * kMicroSecondsPerSecond
  restarted : 0 < k → ∀ (now : ℤ) (restarts : List ℤ) (later : ℤ), FitsInt64 later →
    FitsInt64 (later + k * kMicroSecondsPerSecond) →
    ((restarts.foldl Timer.restart (runEvery now k)).restart later).expiration =
      later + k * kMicroSecondsPerSecond
  apart : 0 < k → FiringsApart k
  after : 0 < k → NeverEarly k

/-! ### Frames -/

theorem addTimerInLoop_frame (s : TimerLoop) (addr : ℕ) (timer : Timer) (now : ℤ) :
    (s.addTimerInLoop addr timer now).heap = s.heap ∧
      (s.addTimerInLoop addr timer now).clock = s.clock ∧
      (s.addTimerInLoop addr timer now).phase = s.phase ∧
      (s.addTimerInLoop addr timer now).reads = s.reads := by
  simp only [addTimerInLoop]
  split
  · exact ⟨rfl, rfl, rfl, rfl⟩
  · exact ⟨rfl, rfl, rfl, rfl⟩

theorem restartTimer_frame (s : TimerLoop) (addr : ℕ) (timer : Timer) (now : ℤ) :
    (s.restartTimer addr timer now).clock = s.clock ∧
      (s.restartTimer addr timer now).phase = s.phase ∧
      (s.restartTimer addr timer now).reads = s.reads := by
  unfold restartTimer
  split
  · exact ⟨rfl, rfl, rfl⟩
  · exact ⟨rfl, rfl, rfl⟩

theorem endReset_frame {s t : TimerLoop} {now : ℤ} (h : s.endReset now = some t) :
    t.heap = s.heap ∧ t.clock = s.clock ∧ t.phase = s.phase ∧ t.reads = s.reads := by
  unfold endReset at h
  split at h
  · cases h
    exact ⟨rfl, rfl, rfl, rfl⟩
  · obtain ⟨timer, -, rfl⟩ := Option.map_eq_some_iff.1 h
    split
    · exact ⟨rfl, rfl, rfl, rfl⟩
    · exact ⟨rfl, rfl, rfl, rfl⟩

/-! ### The clock -/

/-- The loop is well formed, and no reading is from the future. -/
structure Timed (s : TimerLoop) : Prop where
  wellFormed : s.WellFormed
  past : ∀ r ∈ s.reads, r.now ≤ s.clock

theorem timed_init (clock : ℤ) : (init clock).Timed where
  wellFormed := wellFormed_init clock
  past := by simp [init]

/-- The readings are those of before, or one more that has just been made. -/
theorem Moves.time {s t : TimerLoop} {op : TimerOp} (h : Moves s op t) :
    s.clock ≤ t.clock ∧ ∀ r ∈ t.reads, r.now = t.clock ∨ ∃ r' ∈ s.reads, r.now = r'.now := by
  cases h with
  | tick now hnow => exact ⟨hnow, fun r hr => Or.inr ⟨r, hr, rfl⟩⟩
  | addTimer addr when interval hfree haddr => exact ⟨le_refl _, fun r hr => Or.inr ⟨r, hr, rfl⟩⟩
  | doPendingFunctors hphase hfun => exact ⟨le_refl _, fun r hr => Or.inr ⟨r, hr, rfl⟩⟩
  | runFunctor now addr rest timer hphase hfun hnow htimer =>
      obtain ⟨-, hclock, -, hreads⟩ :=
        addTimerInLoop_frame { s.advance now with functors := rest } addr timer now
      rw [hclock, hreads]
      exact ⟨hnow, fun r hr => Or.inr ⟨r, hr, rfl⟩⟩
  | handleRead now hphase hfun hnow =>
      refine ⟨hnow, ?_⟩
      intro r hr
      rcases List.mem_cons.1 hr with rfl | hr
      · exact Or.inl rfl
      · exact Or.inr ⟨r, hr, rfl⟩
  | runNext expired todo e timer hphase htimer =>
      refine ⟨le_refl _, ?_⟩
      intro r hr
      cases hreads : s.reads with
      | nil =>
          rw [hreads] at hr
          cases hr
      | cons r' rs =>
          rw [hreads] at hr
          rcases List.mem_cons.1 hr with rfl | hr
          · exact Or.inr ⟨r', List.mem_cons_self, rfl⟩
          · exact Or.inr ⟨r, List.mem_cons_of_mem _ hr, rfl⟩
  | reset expired hphase => exact ⟨le_refl _, fun r hr => Or.inr ⟨r, hr, rfl⟩⟩
  | restartNext now e todo timer hphase hnow htimer =>
      obtain ⟨hclock, -, hreads⟩ :=
        restartTimer_frame { s.advance now with phase := .resetting todo } e.addr timer now
      rw [hclock, hreads]
      exact ⟨hnow, fun r hr => Or.inr ⟨r, hr, rfl⟩⟩
  | finishReset now t hphase hnow hend =>
      obtain ⟨-, hclock, -, hreads⟩ := endReset_frame hend
      rw [hclock, hreads]
      exact ⟨hnow, fun r hr => Or.inr ⟨r, hr, rfl⟩⟩

theorem timed_step : Runs.Invariant step Timed := by
  intro s op t h hst
  obtain ⟨hclock, hreads⟩ := (step_moves hst).time
  refine ⟨wellFormed_step s op t h.wellFormed hst, ?_⟩
  intro r hr
  rcases hreads r hr with hnow | ⟨r', hr', hnow⟩
  · exact le_of_eq hnow
  · exact hnow ▸ le_trans (h.past r' hr') hclock

theorem clock_le_of_exec {s t : TimerLoop} {ops : List TimerOp}
    (h : Runs.exec step s ops = some t) : s.clock ≤ t.clock :=
  Runs.exec_invariant (I := fun u => s.clock ≤ u.clock)
    (fun _ _ _ hs hst => le_trans hs (step_moves hst).time.1) (le_refl _) h

/-! ### The invariant -/

/-- The timer at `a` is not run before `bound`: either it does not expire before, or it has been
run, and is going to be restarted. -/
structure NotBefore (a : ℕ) (rep : Bool) (k bound : ℤ) (s : TimerLoop) : Prop where
  timer : ∃ timer, s.heap a = some timer ∧ timer.repeats = rep ∧ (rep = true → timer.interval = k) ∧
    (bound ≤ timer.expiration ∨
      rep = true ∧ a ∈ s.batch.map Entry.addr ∧ a ∉ s.unrun.map Entry.addr)
  clock : bound ≤ s.clock + k * kMicroSecondsPerSecond

section

variable {a : ℕ} {rep : Bool} {k bound : ℤ} {s t : TimerLoop}

/-- The timers are the same, and the batch has not lost the timer or has nothing left to run. -/
theorem NotBefore.of_heap (h : s.NotBefore a rep k bound) (hheap : t.heap a = s.heap a)
    (hclock : s.clock ≤ t.clock)
    (hbatch : a ∈ s.batch.map Entry.addr → a ∈ t.batch.map Entry.addr)
    (hunrun : a ∈ t.unrun.map Entry.addr → a ∈ s.unrun.map Entry.addr) :
    t.NotBefore a rep k bound := by
  obtain ⟨timer, htimer, hrep, hinterval, hwhen⟩ := h.timer
  refine ⟨⟨timer, hheap.trans htimer, hrep, hinterval, ?_⟩, ?_⟩
  · rcases hwhen with hwhen | ⟨hrep, hmem, hnot⟩
    · exact Or.inl hwhen
    · exact Or.inr ⟨hrep, hbatch hmem, fun hin => hnot (hunrun hin)⟩
  · have := h.clock
    omega

/-- Between batches the timer waits for its expiration. -/
theorem NotBefore.of_idle (h : s.NotBefore a rep k bound) (hphase : s.batch = [])
    (hheap : t.heap a = s.heap a) (hclock : s.clock ≤ t.clock) : t.NotBefore a rep k bound := by
  obtain ⟨timer, htimer, hrep, hinterval, hwhen⟩ := h.timer
  refine ⟨⟨timer, hheap.trans htimer, hrep, hinterval, Or.inl ?_⟩, ?_⟩
  · rcases hwhen with hwhen | ⟨-, hmem, -⟩
    · exact hwhen
    · rw [hphase] at hmem
      cases hmem
  · have := h.clock
    omega

/-- `reset` looks at the next timer, which may be the one at `a`. -/
theorem NotBefore.restartNext (h : s.NotBefore a rep k bound) {now : ℤ} {e : Entry}
    {todo : List Entry} {timer : Timer} (hphase : s.phase = .resetting (e :: todo))
    (hnow : s.clock ≤ now) (htimer : s.heap e.addr = some timer) (hlo : -2147 ≤ k)
    (hhi : k ≤ 2147) (hfits : FitsInt64 (now + k * kMicroSecondsPerSecond)) :
    ({ s.advance now with phase := .resetting todo }.restartTimer e.addr timer now).NotBefore
      a rep k bound := by
  obtain ⟨hclock', hphase', -⟩ :=
    restartTimer_frame { s.advance now with phase := .resetting todo } e.addr timer now
  have hbound := h.clock
  by_cases ha : e.addr = a
  · subst ha
    obtain ⟨timer', htimer', hrep, hinterval, hwhen⟩ := h.timer
    obtain rfl : timer = timer' := Option.some_inj.1 (htimer.symm.trans htimer')
    cases hr : rep with
    | true =>
        rw [hr] at hrep
        refine ⟨⟨timer.restart now, ?_, ?_, ?_, Or.inl ?_⟩, ?_⟩
        · simp [TimerLoop.restartTimer, hrep]
        · rw [Timer.restart_repeats, hrep]
        · intro _
          rw [Timer.restart_interval, hinterval hr]
        · rw [Timer.restart_expiration hrep, hinterval hr, addTime_eq hlo hhi hfits]
          omega
        · rw [hclock']
          exact le_trans hbound (by simpa [TimerLoop.advance] using hnow)
    | false =>
        rw [hr] at hrep
        refine ⟨⟨timer, ?_, hrep, (fun hset => nomatch hset), Or.inl ?_⟩, ?_⟩
        · simpa [TimerLoop.restartTimer, hrep, TimerLoop.advance] using htimer
        · rcases hwhen with hwhen | ⟨hset, -, -⟩
          · exact hwhen
          · rw [hr] at hset
            cases hset
        · rw [hclock']
          exact le_trans hbound (by simpa [TimerLoop.advance] using hnow)
  · refine h.of_heap ?_ ?_ ?_ ?_
    · unfold TimerLoop.restartTimer
      split
      · exact Function.update_of_ne (Ne.symm ha) _ _
      · rfl
    · rw [hclock']
      exact hnow
    · intro hmem
      simp only [batch, hphase, hphase'] at hmem ⊢
      exact (List.mem_cons.1 hmem).resolve_left (Ne.symm ha)
    · intro hmem
      simp only [unrun, hphase', List.map_nil, List.not_mem_nil] at hmem

/-- **A step does not bring the timer forward.** -/
theorem NotBefore.step {op : TimerOp} (h : s.NotBefore a rep k bound) (hst : s.step op = some t)
    (hlo : -2147 ≤ k) (hhi : k ≤ 2147) (hfits : FitsInt64 (t.clock + k * kMicroSecondsPerSecond)) :
    t.NotBefore a rep k bound := by
  have hm := step_moves hst
  have hclock := hm.time.1
  cases hm with
  | tick now hnow => exact h.of_heap rfl hclock id id
  | addTimer addr when interval hfree haddr =>
      refine h.of_heap (Function.update_of_ne ?_ _ _) hclock id id
      rintro rfl
      obtain ⟨timer, htimer, -⟩ := h.timer
      rw [hfree] at htimer
      cases htimer
  | doPendingFunctors hphase hfun => exact h.of_heap rfl hclock id id
  | runFunctor now addr rest timer hphase hfun hnow htimer =>
      obtain ⟨hheap, -, -, -⟩ :=
        addTimerInLoop_frame { s.advance now with functors := rest } addr timer now
      exact h.of_idle (by simp only [batch, hphase]) (congrFun hheap a) hclock
  | handleRead now hphase hfun hnow =>
      exact h.of_idle (by simp only [batch, hphase]) rfl hclock
  | runNext expired todo e timer hphase htimer =>
      refine h.of_heap rfl hclock (fun hmem => ?_) (fun hmem => ?_)
      · simpa only [batch, hphase] using hmem
      · simp only [unrun, hphase] at hmem ⊢
        exact List.mem_cons_of_mem _ hmem
  | reset expired hphase =>
      refine h.of_heap rfl hclock (fun hmem => ?_) (fun hmem => ?_)
      · simpa only [batch, hphase] using hmem
      · simp only [unrun, List.map_nil, List.not_mem_nil] at hmem
  | restartNext now e todo timer hphase hnow htimer =>
      have hnow' : FitsInt64 (now + k * kMicroSecondsPerSecond) := by
        obtain ⟨heq, -, -⟩ :=
          restartTimer_frame { s.advance now with phase := .resetting todo } e.addr timer now
        rwa [heq] at hfits
      exact h.restartNext hphase hnow htimer hlo hhi hnow'
  | finishReset now t hphase hnow hend =>
      exact h.of_idle (by simp only [batch, hphase]) (congrFun (endReset_frame hend).1 a) hclock

/-- The invariant over a run, at whose end the interval still fits. -/
theorem NotBefore.exec {ops : List TimerOp} (hk : 0 < k) (hhi : k ≤ 2147)
    (h : s.NotBefore a rep k bound) (hst : Runs.exec TimerLoop.step s ops = some t)
    (hmin : -2 ^ 63 ≤ s.clock) (hmax : t.clock + k * kMicroSecondsPerSecond < 2 ^ 63) :
    t.NotBefore a rep k bound := by
  induction ops generalizing s with
  | nil =>
      obtain rfl : s = t := Option.some_inj.1 hst
      exact h
  | cons op ops ih =>
      obtain ⟨u, hu, hut⟩ := Runs.exec_cons_eq_some.1 hst
      have hlower : s.clock ≤ u.clock := (step_moves hu).time.1
      have hupper := clock_le_of_exec hut
      have hfits : FitsInt64 (u.clock + k * kMicroSecondsPerSecond) := by
        rw [kMicroSecondsPerSecond] at *
        exact ⟨by omega, by omega⟩
      exact ih (h.step hu (by omega) hhi hfits) hut (by omega)

/-- A timer that is run has waited. -/
theorem NotBefore.le_clock (h : s.NotBefore a rep k bound) (hs : s.Timed)
    (hfire : s.firing = some a) : bound ≤ s.clock := by
  obtain ⟨timer, htimer, -, -, hwhen⟩ := h.timer
  unfold firing at hfire
  split at hfire
  · rename_i expired e todo hphase
    obtain rfl := Option.some_inj.1 hfire
    have hmem : e ∈ s.unrun := by simp [unrun, hphase]
    have hbound : bound ≤ timer.expiration := by
      rcases hwhen with hwhen | ⟨-, -, hnot⟩
      · exact hwhen
      · exact absurd (List.mem_map_of_mem hmem) hnot
    obtain ⟨timer', htimer', hkey⟩ :=
      hs.wellFormed.keyed e (Or.inr (hs.wellFormed.unrun_subset hmem))
    obtain rfl : timer = timer' := Option.some_inj.1 (htimer.symm.trans htimer')
    have hreads := hs.wellFormed.reads
    rw [hphase] at hreads
    obtain ⟨r, rs, hsplit, hr, -, -⟩ := hreads
    have hdue : e ∈ r.due := hr.split ▸ List.mem_append_right _ List.mem_cons_self
    have hnow : e.key ≤ r.now := by simpa using (List.mem_filter.1 hdue).2
    have hpast : r.now ≤ s.clock := hs.past r (by simp [hsplit])
    omega
  · cases hfire

/-- A timer that has just been made. -/
theorem notBefore_create {timer : Timer} (hst : s.step (.create a timer) = some t)
    (hnew : Timer.new timer.expiration timer.interval = timer) (hrep : timer.repeats = rep)
    (hinterval : rep = true → timer.interval = k)
    (hwhen : timer.expiration = s.clock + k * kMicroSecondsPerSecond) :
    t.NotBefore a rep k (s.clock + k * kMicroSecondsPerSecond) := by
  rw [TimerOp.create] at hst
  cases step_moves hst with
  | addTimer _ _ _ hfree haddr =>
      refine ⟨⟨timer, ?_, hrep, hinterval, Or.inl (le_of_eq hwhen.symm)⟩, le_refl _⟩
      simp [TimerLoop.addTimer, hnew]

/-- A repeating timer that has been run will be restarted from a later reading. -/
theorem NotBefore.fired (h : s.NotBefore a true k bound) (hs : s.Timed)
    (hfire : s.firing = some a) (hst : s.step .runNext = some t) :
    t.NotBefore a true k (s.clock + k * kMicroSecondsPerSecond) := by
  obtain ⟨timer, htimer, hrep, hinterval, -⟩ := h.timer
  cases step_moves hst with
  | runNext expired todo e timer' hphase htimer' =>
      have hea : e.addr = a := by
        rw [firing, hphase] at hfire
        exact Option.some_inj.1 hfire
      have hmem : e ∈ s.batch := hs.wellFormed.unrun_subset (by simp [unrun, hphase])
      -- in the batch every timer stands once, so that it is not among the rest
      have hnot : a ∉ todo.map Entry.addr := by
        have hreads := hs.wellFormed.reads
        rw [hphase] at hreads
        obtain ⟨r, rs, -, hr, hexp, -⟩ := hreads
        have hnodup := (List.nodup_append.1 hs.wellFormed.nodup).2.1
        simp only [batch, hphase] at hnodup
        rw [hexp, ← hr.split, List.map_append, List.map_cons, List.nodup_append,
          List.nodup_cons, hea] at hnodup
        exact hnodup.2.1.1
      refine ⟨⟨timer, htimer, hrep, hinterval, Or.inr ⟨rfl, ?_, ?_⟩⟩, le_refl _⟩
      · simp only [batch, hphase] at hmem ⊢
        exact hea ▸ List.mem_map_of_mem hmem
      · simpa only [unrun] using hnot

end

/-! ### Intervals -/

section

variable {k : ℤ}

/-- A reading at which the interval fits lies before a later one at which it fits. -/
theorem fits_of_le {x y : ℤ} (hk : 0 < k) (hlo : -2 ^ 63 ≤ x) (hle : x ≤ y)
    (h : y + k * kMicroSecondsPerSecond < 2 ^ 63) :
    FitsInt64 (x + k * kMicroSecondsPerSecond) := by
  rw [kMicroSecondsPerSecond] at *
  exact ⟨by omega, by omega⟩

theorem firingsApart (hk : 0 < k) (hhi : k ≤ 2147) : FiringsApart k := by
  intro clock before between after a s t u v w hs hcreate hu hfire hrun hw hfire' hmin hmax
  have hsclock : clock ≤ s.clock := clock_le_of_exec hs
  have htclock := (step_moves hcreate).time.1
  have huclock := clock_le_of_exec hu
  have hvclock := (step_moves hrun).time.1
  have hwclock := clock_le_of_exec hw
  have hstimed := Runs.exec_invariant timed_step (timed_init clock) hs
  have httimed := timed_step _ _ _ hstimed hcreate
  have hutimed := Runs.exec_invariant timed_step httimed hu
  have hvtimed := timed_step _ _ _ hutimed hrun
  have hwtimed := Runs.exec_invariant timed_step hvtimed hw
  have hfits : FitsInt64 (s.clock + k * kMicroSecondsPerSecond) :=
    fits_of_le hk (by omega) (by omega : s.clock ≤ w.clock) hmax
  -- the timer as it is made, until it is run, and from then on
  have hmade : t.NotBefore a true k (s.clock + k * kMicroSecondsPerSecond) := by
    rw [runEvery_intCast] at hcreate
    exact notBefore_create hcreate rfl (by simpa [Timer.new] using hk) (fun _ => rfl)
      (addTime_eq (by omega) hhi hfits)
  have hbefore : u.NotBefore a true k _ := hmade.exec hk hhi hu (by omega) (by omega)
  have hafter : w.NotBefore a true k _ :=
    (hbefore.fired hutimed hfire hrun).exec hk hhi hw (by omega) hmax
  exact hafter.le_clock hwtimed hfire'

theorem neverEarly (hk : 0 < k) (hhi : k ≤ 2147) : NeverEarly k := by
  intro clock before after a s t u hs hcreate hu hfire hmin hmax
  have hsclock : clock ≤ s.clock := clock_le_of_exec hs
  have htclock := (step_moves hcreate).time.1
  have huclock := clock_le_of_exec hu
  have hstimed := Runs.exec_invariant timed_step (timed_init clock) hs
  have httimed := timed_step _ _ _ hstimed hcreate
  have hutimed := Runs.exec_invariant timed_step httimed hu
  have hfits : FitsInt64 (s.clock + k * kMicroSecondsPerSecond) :=
    fits_of_le hk (by omega) (by omega : s.clock ≤ u.clock) hmax
  have hmade : t.NotBefore a false k (s.clock + k * kMicroSecondsPerSecond) := by
    rw [runAfter_intCast] at hcreate
    exact notBefore_create hcreate rfl rfl (fun hset => nomatch hset)
      (addTime_eq (by omega) hhi hfits)
  exact (hmade.exec hk hhi hu (by omega) hmax).le_clock hutimed hfire

/-- What `addTime` adds to a time stamp is the interval exactly if its microseconds are an `int`. -/
theorem addTime_eq_iff {ts : ℤ} (hlo : -2 ^ 31 ≤ k) (hhi : k < 2 ^ 31)
    (hfits : FitsInt64 (ts + k * kMicroSecondsPerSecond)) :
    addTime ts k = ts + k * kMicroSecondsPerSecond ↔ -2147 ≤ k ∧ k ≤ 2147 := by
  constructor
  · intro h
    have hlower := le_toInt32 (k * kMicroSecondsPerSecond)
    have hupper := toInt32_lt (k * kMicroSecondsPerSecond)
    -- the sum has not wrapped either, as it is too close to the exact one
    obtain ⟨n, hn⟩ := exists_toInt64_eq (ts + toInt32 (k * kMicroSecondsPerSecond))
    rw [addTime, hn] at h
    have hrange : -2 ^ 52 < k * kMicroSecondsPerSecond ∧ k * kMicroSecondsPerSecond < 2 ^ 52 := by
      rw [kMicroSecondsPerSecond]
      exact ⟨by omega, by omega⟩
    obtain rfl : n = 0 := by omega
    rw [kMicroSecondsPerSecond] at *
    omega
  · rintro ⟨hlow, hhigh⟩
    exact addTime_eq hlow hhigh hfits

/-- **Intervals are kept up to 2147 seconds.**  For every interval that is an `int`: `addTime` adds
it to a time stamp for which the sum fits, and — for an interval above zero — timers of `runEvery`
are restarted with it and fire at least so far apart, and timers of `runAfter` do not fire before,
in every run, if and only if its microseconds are an `int` as well. -/
theorem keepsSeconds_iff (hlo : -2 ^ 31 ≤ k) (hhi : k < 2 ^ 31) :
    (∀ ts, FitsInt64 (ts + k * kMicroSecondsPerSecond) →
      (addTime ts k = ts + k * kMicroSecondsPerSecond ↔ -2147 ≤ k ∧ k ≤ 2147)) ∧
    (KeepsSeconds k ↔ -2147 ≤ k ∧ k ≤ 2147) := by
  have hexact : ∀ ts, FitsInt64 (ts + k * kMicroSecondsPerSecond) →
      (addTime ts k = ts + k * kMicroSecondsPerSecond ↔ -2147 ≤ k ∧ k ≤ 2147) :=
    fun _ hfits => addTime_eq_iff hlo hhi hfits
  refine ⟨hexact, ?_⟩
  constructor
  · intro h
    have hfits : FitsInt64 (0 + k * kMicroSecondsPerSecond) := by
      rw [kMicroSecondsPerSecond]
      exact ⟨by omega, by omega⟩
    exact (hexact 0 hfits).1 (h.exact 0 (by decide) hfits)
  · rintro ⟨hlow, hhigh⟩
    refine ⟨?_, ?_, fun hk => firingsApart hk hhigh, fun hk => neverEarly hk hhigh⟩
    · intro ts _ hfits
      exact addTime_eq hlow hhigh hfits
    · intro hk now restarts later _ hfits
      obtain ⟨hrepeats, hinterval⟩ := foldl_restart restarts (runEvery now k)
      have hnew := runEvery_intCast now k
      have hrep : (runEvery now k).repeats = true := by
        rw [hnew]
        simpa [Timer.new] using hk
      rw [Timer.restart_expiration (hrepeats.trans hrep), hinterval, hnew]
      exact addTime_eq hlow hhigh hfits

end

/-- The theorem at five seconds. -/
theorem keepsSeconds_iff_five :
    (∀ ts, FitsInt64 (ts + 5 * kMicroSecondsPerSecond) →
      (addTime ts 5 = ts + 5 * kMicroSecondsPerSecond ↔ (-2147 : ℤ) ≤ 5 ∧ (5 : ℤ) ≤ 2147)) ∧
    (KeepsSeconds 5 ↔ (-2147 : ℤ) ≤ 5 ∧ (5 : ℤ) ≤ 2147) :=
  keepsSeconds_iff (by decide) (by decide)

/-- A timer of 2148 seconds fires twice within a second: its microseconds are negative as an `int`,
so that its expirations lie in the past. -/
theorem not_firingsApart_2148 :
    addTime 5000000000 2148 = 5000000000 - 2146967296 ∧ ¬FiringsApart 2148 ∧
      ¬KeepsSeconds 2148 := by
  have hapart : ¬FiringsApart 2148 := by
    intro h
    have hfirst : (((init 5000000000).step (.create 8 (runEvery 5000000000 (2148 : ℤ)))).bind
        fun t => Runs.exec step t [.doPendingFunctors, .runFunctor 5000000000,
          .handleRead 5000000100]).map
        (fun u => (u.firing, u.clock, (u.step .runNext).bind fun v =>
          (Runs.exec step v [.reset, .restartNext 5000000200, .finishReset 5000000200,
            .handleRead 5000000300]).map fun w => (w.firing, w.clock))) =
        some (some 8, 5000000100, some (some 8, 5000000300)) := by
      decide +kernel
    obtain ⟨u, hrun, hview⟩ := Option.map_eq_some_iff.1 hfirst
    obtain ⟨t, ht, hu⟩ := Option.bind_eq_some_iff.1 hrun
    simp only [Prod.mk.injEq] at hview
    obtain ⟨hfire, huclock, hsecond⟩ := hview
    obtain ⟨v, hv, hlast⟩ := Option.bind_eq_some_iff.1 hsecond
    obtain ⟨w, hw, hview'⟩ := Option.map_eq_some_iff.1 hlast
    obtain ⟨hfire', hwclock⟩ := Prod.mk.inj hview'
    have hfar := h 5000000000 [] _ _ 8 _ t u v w rfl ht hu hfire hv hw hfire' (by decide)
      (by rw [hwclock]; decide)
    rw [huclock, hwclock] at hfar
    exact absurd hfar (by decide)
  exact ⟨by decide, hapart, fun h => hapart (h.apart (by decide))⟩

end TimerLoop

end G5
