/-
**The timerfd wakes the loop in time** (`src/net/TimerQueue.cc`).

The timerfd is set from two places: by `addTimerInLoop`, if the new timer is the earliest, and at
the end of `reset`, if timers are left and the earliest one is valid.  Between two callbacks of the
loop it has always been set early enough for the earliest timer.

Main definitions:

* `TimerLoop.Fits` — the assumptions on a step: the microseconds of an interval fit in an `int`, and
  the time from a reading of the clock to the expiration compared with it fits in an `int64_t`;
* `TimerLoop.Awake` — the timerfd has expired, or will in time.

Main results:

* `TimerLoop.awake_of_exec` — every state of every run of such steps is awake.
-/

import G5.Net.TimerLoop

set_option relaxedAutoImplicit false
set_option autoImplicit false

namespace G5

namespace TimerLoop

/-! ### Assumptions and conclusion -/

/-- The numbers of a step fit in their types. -/
def Fits (s : TimerLoop) : TimerOp → Prop
  | .addTimer _ _ interval =>
      -2 ^ 31 ≤ interval * kMicroSecondsPerSecond ∧ interval * kMicroSecondsPerSecond < 2 ^ 31
  | .runFunctor now =>
      match s.functors with
      | [] => True
      | addr :: _ =>
          match s.heap addr with
          | none => True
          | some timer => FitsInt64 (timer.expiration - now)
  | .finishReset now =>
      match s.timers with
      | [] => True
      | first :: _ => FitsInt64 (first.key - now)
  | _ => True

instance (s : TimerLoop) : (op : TimerOp) → Decidable (s.Fits op)
  | .addTimer _ _ _ => instDecidableAnd
  | .runFunctor now =>
      match h : s.functors with
      | [] => .isTrue (by rw [Fits, h]; trivial)
      | addr :: _ =>
          match h' : s.heap addr with
          | none => .isTrue (by simp [Fits, h, h'])
          | some timer =>
              decidable_of_iff (FitsInt64 (timer.expiration - now)) (by simp [Fits, h, h'])
  | .finishReset now =>
      match h : s.timers with
      | [] => .isTrue (by rw [Fits, h]; trivial)
      | first :: _ => decidable_of_iff (FitsInt64 (first.key - now)) (by rw [Fits, h])
  | .tick _ | .doPendingFunctors | .handleRead _ | .runNext | .reset | .restartNext _ =>
      .isTrue trivial

/-- The timerfd has expired and has not been read, or it is armed for no later than the earliest
expiration, or than 100 microseconds after it was last armed. -/
def TimerfdReady (timerfd : TimerFd) (armedAt earliest : ℤ) : Prop :=
  timerfd = .expired ∨
    ∃ deadline, timerfd = .armed deadline ∧ deadline ≤ 1000 * max earliest (armedAt + 100)

/-- Between two callbacks of the loop, the timerfd is ready if a timer waits. -/
def Awake (s : TimerLoop) : Prop :=
  s.phase = .idle → ∀ first rest, s.timers = first :: rest →
    TimerfdReady s.timerfd s.armedAt first.key

/-! ### The invariant -/

/-- What is known of the states of such runs besides. -/
structure Ticking (s : TimerLoop) : Prop where
  wellFormed : s.WellFormed
  clock_pos : 0 < s.clock
  interval_lt : ∀ a timer, s.heap a = some timer →
    (timer.repeats = true → 0 < timer.interval) ∧
      timer.interval * kMicroSecondsPerSecond < 2 ^ 31
  awake : s.Awake
  /-- during `handleRead`, what waits is not due; a time stamp that has overflowed is far in the
  past -/
  waiting : s.phase ≠ .idle → ∀ e ∈ s.timers, 0 < e.key ∨ e.key < s.clock - 2 ^ 63

theorem ticking_init {clock : ℤ} (h : 0 < clock) : (init clock).Ticking where
  wellFormed := wellFormed_init clock
  clock_pos := h
  interval_lt := by simp [init]
  awake := by
    intro _ first rest htimers
    simp [init] at htimers
  waiting := fun hphase => absurd rfl hphase

/-- Time passes, and the timerfd may expire. -/
theorem TimerfdReady.elapse {timerfd : TimerFd} {armedAt earliest : ℤ}
    (h : TimerfdReady timerfd armedAt earliest) (now : ℤ) :
    TimerfdReady (timerfd.elapse now) armedAt earliest := by
  rcases h with rfl | ⟨deadline, rfl, hle⟩
  · exact Or.inl rfl
  · rw [TimerFd.elapse]
    split
    · exact Or.inl rfl
    · exact Or.inr ⟨deadline, rfl, hle⟩

theorem Ticking.advance {s : TimerLoop} (h : s.Ticking) {now : ℤ} (hnow : s.clock ≤ now) :
    (s.advance now).Ticking where
  wellFormed := h.wellFormed.advance now
  clock_pos := Int.lt_of_lt_of_le h.clock_pos hnow
  interval_lt := h.interval_lt
  awake := fun hphase first rest htimers => (h.awake hphase first rest htimers).elapse now
  waiting := by
    intro hphase e he
    have hkey := h.waiting hphase e he
    change 0 < e.key ∨ e.key < now - 2 ^ 63
    omega

theorem timerfdReady_reset {when now : ℤ} (h : FitsInt64 (when - now)) :
    TimerfdReady (resetTimerfd when now) now when :=
  Or.inr ⟨_, resetTimerfd_eq h, le_refl _⟩

/-! ### The functions keep it -/

theorem Ticking.addTimer {s : TimerLoop} (h : s.Ticking) {addr : ℕ} {when interval : ℤ}
    (hfree : s.heap addr = none) (hlt : addr < UINTPTR_MAX)
    (hint : interval * kMicroSecondsPerSecond < 2 ^ 31) :
    (s.addTimer addr when interval).Ticking where
  wellFormed := h.wellFormed.addTimer hfree hlt when interval
  clock_pos := h.clock_pos
  interval_lt := by
    intro a timer ha
    by_cases haddr : a = addr
    · subst haddr
      have htimer : Timer.new when interval = timer := by simpa [TimerLoop.addTimer] using ha
      subst htimer
      exact ⟨fun hrep => by simpa [Timer.new] using hrep, hint⟩
    · exact h.interval_lt a timer (by simpa [TimerLoop.addTimer, haddr] using ha)
  awake := h.awake
  waiting := h.waiting

/-- The functor of a timer sets the timerfd if the timer is the earliest, and otherwise the earliest
expiration stays. -/
theorem Ticking.addTimerInLoop {s : TimerLoop} (h : s.Ticking) (hphase : s.phase = .idle)
    {addr : ℕ} {rest : List ℕ} (hfun : s.functors = addr :: rest) {timer : Timer}
    (htimer : s.heap addr = some timer) (hfits : FitsInt64 (timer.expiration - s.clock)) :
    ({ s with functors := rest }.addTimerInLoop addr timer s.clock).Ticking := by
  have hwf := h.wellFormed.addTimerInLoop hfun htimer s.clock
  have hreset := timerfdReady_reset hfits
  simp only [TimerLoop.addTimerInLoop, TimerQueue.insert] at hwf ⊢
  cases htimers : s.timers with
  | nil =>
      simp only [htimers, if_true, SortedSet.insert_nil] at hwf ⊢
      refine ⟨hwf, h.clock_pos, h.interval_lt, ?_, fun hne => absurd hphase hne⟩
      intro _ first _ hfirst
      obtain ⟨rfl, -⟩ := List.cons.inj hfirst
      exact hreset
  | cons e timers =>
      have hhead := SortedSet.head?_insert (Entry.of timer.expiration addr) e timers
      simp only [htimers, decide_eq_true_iff] at hwf ⊢
      by_cases hlt : timer.expiration < e.key
      · rw [if_pos hlt] at hwf ⊢
        refine ⟨hwf, h.clock_pos, h.interval_lt, ?_, fun hne => absurd hphase hne⟩
        intro _ first others hfirst
        have hbefore : Entry.of timer.expiration addr < e := Entry.lt_iff.2 (Or.inl hlt)
        rw [if_pos hbefore] at hhead
        change SortedSet.insert _ _ = _ at hfirst
        rw [hfirst, List.head?_cons, Option.some_inj] at hhead
        rw [hhead]
        exact hreset
      · rw [if_neg hlt] at hwf ⊢
        refine ⟨hwf, h.clock_pos, h.interval_lt, ?_, fun hne => absurd hphase hne⟩
        intro _ first others hfirst
        change SortedSet.insert _ _ = _ at hfirst
        rw [hfirst, List.head?_cons, Option.some_inj] at hhead
        -- the earliest expiration is the one it was
        have hkey : first.key = e.key := by
          rw [hhead]
          split
          · rename_i hbefore
            rcases Entry.lt_iff.1 hbefore with hkey | ⟨hkey, -⟩
            · exact absurd hkey hlt
            · exact hkey
          · rfl
        rw [hkey]
        exact h.awake hphase e timers htimers

theorem Ticking.beginRead {s : TimerLoop} (h : s.Ticking) (hphase : s.phase = .idle) :
    (s.beginRead s.clock).Ticking where
  wellFormed := h.wellFormed.beginRead hphase s.clock
  clock_pos := h.clock_pos
  interval_lt := h.interval_lt
  awake := fun hidle => by cases hidle
  waiting := by
    intro _ e he
    have haddr : ∀ e ∈ s.timers, e.addr < UINTPTR_MAX := by
      intro f hf
      obtain ⟨timer, htimer, -⟩ := h.wellFormed.keyed f (Or.inl hf)
      exact h.wellFormed.addr_lt f.addr (by simp [htimer])
    have hkey := TimerQueue.lt_key_of_mem_getExpired_snd h.wellFormed.sorted haddr he
    exact Or.inl (lt_trans h.clock_pos hkey)

/-- A restarted timer is in the future, unless its time stamp overflows. -/
theorem addTime_pos_or {now interval : ℤ} (hnow : 0 < now) (h₀ : 0 < interval)
    (hint : interval * kMicroSecondsPerSecond < 2 ^ 31) :
    0 < addTime now interval ∨ addTime now interval < now - 2 ^ 63 := by
  have hprod : toInt32 (interval * kMicroSecondsPerSecond) = interval * kMicroSecondsPerSecond := by
    refine toInt32_eq ?_ hint
    have hpos : 0 ≤ interval * kMicroSecondsPerSecond := Int.mul_nonneg h₀.le (by decide)
    omega
  have hpos : 0 < interval * kMicroSecondsPerSecond := Int.mul_pos h₀ (by decide)
  rw [addTime, hprod]
  generalize interval * kMicroSecondsPerSecond = delta at *
  obtain ⟨k, hk⟩ := exists_toInt64_eq (now + delta)
  have hhi := toInt64_lt (now + delta)
  omega

theorem Ticking.restartTimer {s : TimerLoop} (h : s.Ticking) {e : Entry} {todo : List Entry}
    (hphase : s.phase = .resetting (e :: todo)) {timer : Timer}
    (htimer : s.heap e.addr = some timer) :
    ({ s with phase := .resetting todo }.restartTimer e.addr timer s.clock).Ticking := by
  have hwf := h.wellFormed.restartTimer hphase htimer s.clock
  have hwaiting := h.waiting (by simp [hphase])
  obtain ⟨hpos, hint⟩ := h.interval_lt e.addr timer htimer
  rw [TimerLoop.restartTimer] at hwf ⊢
  by_cases hrep : timer.repeats = true
  · rw [if_pos hrep] at hwf ⊢
    refine ⟨hwf, h.clock_pos, ?_, (fun hidle => by cases hidle), ?_⟩
    · intro a tm ha
      by_cases haddr : a = e.addr
      · subst haddr
        have heq : timer.restart s.clock = tm := by simpa using ha
        rw [← heq, Timer.restart_repeats, Timer.restart_interval]
        exact ⟨hpos, hint⟩
      · exact h.interval_lt a tm (by simpa [haddr] using ha)
    · intro _ f hf
      rcases TimerQueue.mem_insert.1 hf with rfl | hf
      · rw [Entry.key_of, Timer.restart_expiration hrep]
        exact addTime_pos_or h.clock_pos (hpos hrep) hint
      · exact hwaiting f hf
  · rw [if_neg hrep] at hwf ⊢
    exact ⟨hwf, h.clock_pos, h.interval_lt, (fun hidle => by cases hidle), fun _ => hwaiting⟩

/-- The end of `reset` sets the timerfd if a timer waits. -/
theorem Ticking.endReset {s t : TimerLoop} (h : s.Ticking) (hphase : s.phase = .resetting [])
    (hfits : s.Fits (.finishReset s.clock))
    (hst : ({ s with phase := .idle } : TimerLoop).endReset s.clock = some t) : t.Ticking := by
  have hwf := (h.wellFormed.toIdle hphase).endReset hst
  have hwaiting := h.waiting (by simp [hphase])
  unfold TimerLoop.endReset at hst
  cases htimers : s.timers with
  | nil =>
      simp only [htimers, Option.some_inj] at hst
      subst hst
      refine ⟨hwf, h.clock_pos, h.interval_lt, ?_, fun hne => absurd rfl hne⟩
      intro _ first rest hfirst
      cases hfirst
  | cons e timers =>
      obtain ⟨timer, htimer, hkey⟩ := h.wellFormed.keyed e (Or.inl (htimers ▸ List.mem_cons_self))
      simp only [htimers, htimer, Option.map_some, Option.some_inj] at hst
      simp only [Fits, htimers] at hfits
      -- an overflowed time stamp would not fit
      have hvalid : 0 < e.key := by
        have hlo := hfits.1
        rcases hwaiting e (htimers ▸ List.mem_cons_self) with hpos | hfar
        · exact hpos
        · omega
      rw [if_pos (by rw [hkey, Timestamp.valid, decide_eq_true_iff]; exact hvalid)] at hst
      subst hst
      refine ⟨hwf, h.clock_pos, h.interval_lt, ?_, fun hne => absurd rfl hne⟩
      intro _ first rest hfirst
      obtain ⟨rfl, -⟩ := List.cons.inj hfirst
      change TimerfdReady (resetTimerfd timer.expiration s.clock) s.clock _
      rw [hkey]
      exact timerfdReady_reset hfits

/-! ### Runs -/

theorem ticking_step {s t : TimerLoop} {op : TimerOp} (h : s.Ticking) (hst : s.step op = some t)
    (hfits : s.Fits op) : t.Ticking := by
  have hwf := wellFormed_step _ _ _ h.wellFormed hst
  cases step_moves hst with
  | tick now hnow => exact h.advance hnow
  | addTimer addr when interval hfree haddr => exact h.addTimer hfree haddr hfits.2
  | doPendingFunctors hphase hfun => exact ⟨hwf, h.clock_pos, h.interval_lt, h.awake, h.waiting⟩
  | runFunctor now addr rest timer hphase hfun hnow htimer =>
      simp only [Fits, hfun, htimer] at hfits
      exact (h.advance hnow).addTimerInLoop hphase hfun htimer hfits
  | handleRead now hphase hfun hnow => exact (h.advance hnow).beginRead hphase
  | runNext expired todo e timer hphase htimer =>
      exact ⟨hwf, h.clock_pos, h.interval_lt, (fun hidle => by cases hidle),
        fun _ => h.waiting (by simp [hphase])⟩
  | reset expired hphase =>
      exact ⟨hwf, h.clock_pos, h.interval_lt, (fun hidle => by cases hidle),
        fun _ => h.waiting (by simp [hphase])⟩
  | restartNext now e todo timer hphase hnow htimer =>
      exact (h.advance hnow).restartTimer hphase htimer
  | finishReset now t hphase hnow hend => exact (h.advance hnow).endReset hphase hfits hend

/-- **The timerfd wakes the loop in time.**  Let the clock read positive and the numbers of every
step fit in their types; then, in every state between two callbacks of the loop, a waiting timer
finds the timerfd expired, or armed for no later than the earliest expiration, or than 100
microseconds after the last arming. -/
theorem awake_of_exec {clock : ℤ} (hclock : 0 < clock) {ops : List TimerOp} {s : TimerLoop}
    (h : Runs.exec step (init clock) ops = some s)
    (hfits : Runs.EveryStep step Fits (init clock) ops) : s.Awake :=
  (hfits.everyState (P := Ticking) (fun _ _ _ => ticking_step) (ticking_init hclock) h).last h
    |>.awake

/-- The theorem on a run with a one-shot timer, a repeating one, and one that a callback adds. -/
theorem awake_of_exec_demo :
    ∃ s, Runs.exec step (init 1) demoOps = some s ∧ s.phase = .idle ∧
      s.timers = [Entry.of 40 24, Entry.of 1000011 16] ∧ s.Awake := by
  have h : (Runs.exec step (init 1) demoOps).map (fun s => (s.phase, s.timers)) =
      some (.idle, [Entry.of 40 24, Entry.of 1000011 16]) := by decide +kernel
  obtain ⟨s, hs, hview⟩ := Option.map_eq_some_iff.1 h
  obtain ⟨hphase, htimers⟩ := Prod.mk.inj hview
  exact ⟨s, hs, hphase, htimers,
    awake_of_exec (by decide) hs (Runs.everyStep_of_checkSteps (by decide +kernel))⟩

end TimerLoop

end G5
