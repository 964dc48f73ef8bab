/-
**The calls that make timers** (`EventLoop::runAt`, `runAfter` and `runEvery` of
`src/net/EventLoop.cc`, `TimerQueue::addTimer`).

A delay is given as a `double` and passes through parameters of other types: `addTime` and
`addTimer` take an `int`, and the constructor of `Timer` takes a `double` again.  Doubles are
rational numbers here, and conversion to `int` is truncation.

Main definitions:

* `doubleToInt`, `TimerQueue.addTimer`, `EventLoop.runAt`, `EventLoop.runAfter`,
  `EventLoop.runEvery` — the timer that a call makes, with its reading of the clock;
* `RunEveryExact`, `RunAfterExact`, `DelayHonoured` — the delay is kept to the microsecond.

Main results:

* `addTime_eq` — what is added for whole seconds;
* `delayHonoured_iff` — delays are honoured exactly if they are whole seconds, but for less than a
  microsecond, and at least one.
-/

import G5.Net.TimerQueue
import Mathlib.Data.Rat.Floor

set_option relaxedAutoImplicit false
set_option autoImplicit false

namespace G5

/-! ### The functions -/

/-- Conversion of a `double` to `int`: towards zero. -/
def doubleToInt (d : ℚ) : ℤ := d.num.tdiv d.den

/-- The timer that `addTimer` makes: its interval is an `int`. -/
def TimerQueue.addTimer (when : ℤ) (interval : ℚ) : Timer :=
  Timer.new when (doubleToInt interval)

namespace EventLoop

def runAt (when : ℤ) : Timer := TimerQueue.addTimer when 0

def runAfter (now : ℤ) (delay : ℚ) : Timer :=
  TimerQueue.addTimer (addTime now (doubleToInt delay)) 0

def runEvery (now : ℤ) (interval : ℚ) : Timer :=
  TimerQueue.addTimer (addTime now (doubleToInt interval)) interval

end EventLoop

open EventLoop

@[simp] theorem doubleToInt_intCast (k : ℤ) : doubleToInt k = k := by
  rw [doubleToInt, Rat.num_intCast, Rat.den_intCast, Nat.cast_one, Int.tdiv_one]

/-- From zero on, truncation is rounding down. -/
theorem doubleToInt_of_nonneg {d : ℚ} (h : 0 ≤ d) : doubleToInt d = ⌊d⌋ := by
  rw [doubleToInt, Int.tdiv_eq_ediv_of_nonneg (Rat.num_nonneg.2 h), Rat.floor_def']

theorem runAfter_intCast (now k : ℤ) : runAfter now k = Timer.new (addTime now k) 0 := by
  have hzero : doubleToInt 0 = 0 := rfl
  rw [runAfter, TimerQueue.addTimer, doubleToInt_intCast, hzero]

theorem runEvery_intCast (now k : ℤ) : runEvery now k = Timer.new (addTime now k) k := by
  rw [runEvery, TimerQueue.addTimer, doubleToInt_intCast]

/-! ### Whole seconds -/

/-- Up to 2147 seconds the product fits in an `int`. -/
theorem addTime_eq {ts interval : ℤ} (hlo : -2147 ≤ interval) (hhi : interval ≤ 2147)
    (h : FitsInt64 (ts + interval * kMicroSecondsPerSecond)) :
    addTime ts interval = ts + interval * kMicroSecondsPerSecond := by
  have hint : toInt32 (interval * kMicroSecondsPerSecond) = interval * kMicroSecondsPerSecond := by
    rw [kMicroSecondsPerSecond]
    exact toInt32_eq (by omega) (by omega)
  rw [addTime, hint, toInt64_of_fits h]

/-! ### Fractions of a second -/

/-- The microseconds of a delay. -/
def microseconds (d : ℚ) : ℤ := ⌊d * kMicroSecondsPerSecond⌋

/-- The timer repeats, and its first expiration and every later one are the delay after the reading
of the clock; the timer may have been restarted any number of times before. -/
def RunEveryExact (d : ℚ) : Prop :=
  ∀ now, FitsInt64 (now + microseconds d) →
    (runEvery now d).repeats = true ∧ (runEvery now d).expiration = now + microseconds d ∧
      ∀ (restarts : List ℤ) (later : ℤ), FitsInt64 (later + microseconds d) →
        ((restarts.foldl Timer.restart (runEvery now d)).restart later).expiration =
          later + microseconds d

/-- The timer runs once, and its expiration is the delay after the reading of the clock. -/
def RunAfterExact (d : ℚ) : Prop :=
  ∀ now, FitsInt64 (now + microseconds d) →
    (runAfter now d).repeats = false ∧ (runAfter now d).expiration = now + microseconds d

/-- Fractional delays are honoured. -/
structure DelayHonoured (d : ℚ) : Prop where
  every : RunEveryExact d
  after : RunAfterExact d

/-- The microseconds of the whole seconds, and those of the fraction. -/
theorem microseconds_eq (d : ℚ) :
    microseconds d = ⌊d⌋ * kMicroSecondsPerSecond + ⌊Int.fract d * kMicroSecondsPerSecond⌋ := by
  have hsplit : d * kMicroSecondsPerSecond = ((⌊d⌋ * kMicroSecondsPerSecond : ℤ) : ℚ) +
      Int.fract d * kMicroSecondsPerSecond := by
    rw [Int.cast_mul, ← add_mul, Int.floor_add_fract]
  rw [microseconds, hsplit, Int.floor_intCast_add]

/-- No microsecond is lost with the fraction. -/
theorem microseconds_eq_floor_iff (d : ℚ) :
    microseconds d = ⌊d⌋ * kMicroSecondsPerSecond ↔
      Int.fract d * kMicroSecondsPerSecond < 1 := by
  have hpos : (0 : ℚ) ≤ Int.fract d * kMicroSecondsPerSecond :=
    mul_nonneg (Int.fract_nonneg d) (by rw [kMicroSecondsPerSecond]; norm_num)
  rw [microseconds_eq, add_eq_left, Int.floor_eq_zero_iff, Set.mem_Ico, and_iff_right hpos]

section

variable {d : ℚ}

theorem floor_range (h₀ : 0 < d) (h : d ≤ 2147) : 0 ≤ ⌊d⌋ ∧ ⌊d⌋ ≤ 2147 := by
  have hle : (⌊d⌋ : ℚ) ≤ 2147 := le_trans (Int.floor_le d) h
  exact ⟨Int.floor_nonneg.2 (le_of_lt h₀), by exact_mod_cast hle⟩

/-- A delay up to 2147 seconds, cut to whole seconds. -/
theorem addTime_doubleToInt (h₀ : 0 < d) (h : d ≤ 2147) {now : ℤ}
    (hfits : FitsInt64 (now + ⌊d⌋ * kMicroSecondsPerSecond)) :
    addTime now (doubleToInt d) = now + ⌊d⌋ * kMicroSecondsPerSecond := by
  obtain ⟨hlo, hhi⟩ := floor_range h₀ h
  rw [doubleToInt_of_nonneg (le_of_lt h₀)]
  exact addTime_eq (by omega) hhi hfits

/-- If the expiration is right whatever the clock reads, then it is so at zero. -/
theorem microseconds_eq_of_exact (h₀ : 0 < d) (h : d ≤ 2147)
    (hexact : ∀ now, FitsInt64 (now + microseconds d) →
      addTime now (doubleToInt d) = now + microseconds d) :
    microseconds d = ⌊d⌋ * kMicroSecondsPerSecond := by
  obtain ⟨hlo, hhi⟩ := floor_range h₀ h
  have hwhole : FitsInt64 (0 + ⌊d⌋ * kMicroSecondsPerSecond) := by
    rw [kMicroSecondsPerSecond]
    exact ⟨by omega, by omega⟩
  have hmicro : FitsInt64 (0 + microseconds d) := by
    have hnonneg : 0 ≤ microseconds d := by
      rw [microseconds, kMicroSecondsPerSecond]
      exact Int.floor_nonneg.2 (by positivity)
    have hle : (microseconds d : ℚ) ≤ 2147 * kMicroSecondsPerSecond := by
      refine le_trans (Int.floor_le _) (mul_le_mul_of_nonneg_right h ?_)
      rw [kMicroSecondsPerSecond]
      norm_num
    have hle' : microseconds d ≤ 2147 * kMicroSecondsPerSecond := by exact_mod_cast hle
    rw [kMicroSecondsPerSecond] at hle'
    exact ⟨by omega, by omega⟩
  have hzero := hexact 0 hmicro
  rw [addTime_doubleToInt h₀ h hwhole] at hzero
  omega

/-- What a timer does at a restart depends on its interval only. -/
theorem foldl_restart (restarts : List ℤ) (timer : Timer) :
    (restarts.foldl Timer.restart timer).repeats = timer.repeats ∧
      (restarts.foldl Timer.restart timer).interval = timer.interval := by
  induction restarts generalizing timer with
  | nil => exact ⟨rfl, rfl⟩
  | cons now restarts ih =>
      obtain ⟨hrepeats, hinterval⟩ := ih (timer.restart now)
      rw [List.foldl_cons, hrepeats, hinterval]
      exact ⟨Timer.restart_repeats timer now, Timer.restart_interval timer now⟩

theorem runAfterExact_iff (h₀ : 0 < d) (h : d ≤ 2147) :
    RunAfterExact d ↔ Int.fract d * kMicroSecondsPerSecond < 1 := by
  rw [← microseconds_eq_floor_iff]
  constructor
  · intro hexact
    exact microseconds_eq_of_exact h₀ h fun now hfits => (hexact now hfits).2
  · intro hsame now hfits
    rw [hsame] at hfits ⊢
    exact ⟨rfl, addTime_doubleToInt h₀ h hfits⟩

/-- A delay of less than a second is cut to zero, which makes the timer run once. -/
theorem runEvery_repeats_iff (h₀ : 0 < d) (now : ℤ) :
    (runEvery now d).repeats = true ↔ 1 ≤ d := by
  have hrepeats : (runEvery now d).repeats = decide (0 < doubleToInt d) := rfl
  rw [hrepeats, decide_eq_true_iff, doubleToInt_of_nonneg (le_of_lt h₀), Int.floor_pos]

theorem runEveryExact_iff (h₀ : 0 < d) (h : d ≤ 2147) :
    RunEveryExact d ↔ 1 ≤ d ∧ Int.fract d * kMicroSecondsPerSecond < 1 := by
  rw [← microseconds_eq_floor_iff]
  constructor
  · intro hexact
    have hsame := microseconds_eq_of_exact h₀ h fun now hfits => (hexact now hfits).2.1
    obtain ⟨hlo, hhi⟩ := floor_range h₀ h
    have hfits : FitsInt64 (0 + microseconds d) := by
      rw [hsame, kMicroSecondsPerSecond]
      exact ⟨by omega, by omega⟩
    exact ⟨(runEvery_repeats_iff h₀ 0).1 (hexact 0 hfits).1, hsame⟩
  · rintro ⟨hone, hsame⟩ now hfits
    rw [hsame] at hfits ⊢
    have hrepeats := (runEvery_repeats_iff h₀ now).2 hone
    refine ⟨hrepeats, addTime_doubleToInt h₀ h hfits, ?_⟩
    intro restarts later hlater
    obtain ⟨hkept, hinterval⟩ := foldl_restart restarts (runEvery now d)
    rw [Timer.restart_expiration (hkept.trans hrepeats), hinterval]
    exact addTime_doubleToInt h₀ h hlater

/-- **Delays are honoured in whole seconds.**  For every delay above zero and up to 2147 seconds,
`runEvery` and `runAfter` make timers that keep it to the microsecond if and only if it is at least
a second and has a fraction of less than a microsecond. -/
theorem delayHonoured_iff (h₀ : 0 < d) (h : d ≤ 2147) :
    DelayHonoured d ↔ 1 ≤ d ∧ Int.fract d * kMicroSecondsPerSecond < 1 := by
  rw [← runEveryExact_iff h₀ h]
  constructor
  · intro hd
    exact hd.every
  · intro hevery
    exact ⟨hevery, (runAfterExact_iff h₀ h).2 ((runEveryExact_iff h₀ h).1 hevery).2⟩

end

/-- The theorem at a second and a half. -/
theorem delayHonoured_iff_demo :
    DelayHonoured (3 / 2) ↔ (1 : ℚ) ≤ 3 / 2 ∧ Int.fract (3 / 2 : ℚ) * kMicroSecondsPerSecond < 1 :=
  delayHonoured_iff (by norm_num) (by norm_num)

/-- Half a second: `runEvery` makes a timer that runs once, and at once, and so does `runAfter`. -/
theorem not_delayHonoured_half :
    runEvery 1000 (1 / 2) = ⟨1000, 0, false⟩ ∧ runAfter 1000 (1 / 2) = ⟨1000, 0, false⟩ ∧
      ¬DelayHonoured (1 / 2) := by
  have hevery : runEvery 1000 (1 / 2) = ⟨1000, 0, false⟩ := by decide +kernel
  have hafter : runAfter 1000 (1 / 2) = ⟨1000, 0, false⟩ := by decide +kernel
  refine ⟨hevery, hafter, fun hd => ?_⟩
  have hmicro : microseconds (1 / 2) = 500000 := by decide +kernel
  have hfits : FitsInt64 (1000 + microseconds (1 / 2)) := by
    rw [hmicro]
    decide
  have hrepeats := (hd.every 1000 hfits).1
  rw [hevery] at hrepeats
  cases hrepeats

end G5
