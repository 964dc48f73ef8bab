/-
**The deadline of a timed wait** (`Condition::waitForSeconds` of `src/base/Condition.cc`).

`pthread_cond_timedwait` takes an absolute time.  The function reads the clock and adds the
duration to it, first to the seconds and then to the nanoseconds; both sums start from the
nanoseconds that were read, and the second one adds the remainder to them once more.

Main definitions:

* `Condition.abstime` — the time that is passed on;
* `Timespec.Normalised` — what `pthread_cond_timedwait` accepts without `EINVAL`;
* `Condition.Deadline` — the time is normalised, and the duration after the clock reading.

Main results:

* `Condition.abstime_eq` — what is computed, if nothing overflows;
* `Condition.deadline_iff` — the deadline is right exactly if the clock reads a whole second;
* `Condition.normalised_wholeSeconds_iff` — a wait of whole seconds ends at once during the second
  half of every second.
-/

import G5.Base.Timestamp
import G5.Lib.FixedWidth

set_option relaxedAutoImplicit false
set_option autoImplicit false

namespace G5

open FixedWidth

def kNanoSecondsPerSecond : ℤ := 1000000000

namespace Timespec

/-- The nanoseconds since the epoch. -/
def total (t : Timespec) : ℤ := t.tvSec * kNanoSecondsPerSecond + t.tvNsec

/-- The nanoseconds are less than a second. -/
def Normalised (t : Timespec) : Prop := 0 ≤ t.tvNsec ∧ t.tvNsec < kNanoSecondsPerSecond

instance (t : Timespec) : Decidable t.Normalised := inferInstanceAs (Decidable (_ ∧ _))

end Timespec

namespace Condition

/-- The `abstime` of `waitForSeconds`, from the clock reading and the converted duration. -/
def abstime (now : Timespec) (nanoseconds : ℤ) : Option Timespec := do
  let tvSec ← add 64 now.tvSec (← div 64 (← add 64 now.tvNsec nanoseconds) kNanoSecondsPerSecond)
  let tvNsec ← add 64 now.tvNsec (← mod 64 (← add 64 now.tvNsec nanoseconds) kNanoSecondsPerSecond)
  return ⟨tvSec, tvNsec⟩

/-- The wait ends the duration after the clock reading. -/
def Deadline (now : Timespec) (nanoseconds : ℤ) : Prop :=
  ∃ t, abstime now nanoseconds = some t ∧ t.Normalised ∧ t.total = now.total + nanoseconds

section

variable {now : Timespec} {nanoseconds : ℤ}

/-- **What is computed**: the remainder is added to nanoseconds that are part of it already. -/
theorem abstime_eq (hnow : now.Normalised) (hns : 0 ≤ nanoseconds)
    (hsum : Fits 64 (now.tvNsec + nanoseconds))
    (hsec : Fits 64 (now.tvSec + (now.tvNsec + nanoseconds) / kNanoSecondsPerSecond)) :
    abstime now nanoseconds =
      some ⟨now.tvSec + (now.tvNsec + nanoseconds) / kNanoSecondsPerSecond,
        now.tvNsec + (now.tvNsec + nanoseconds) % kNanoSecondsPerSecond⟩ := by
  have hpos : (0 : ℤ) < kNanoSecondsPerSecond := by decide
  obtain ⟨hlo, hhi⟩ := hnow
  have hnonneg : 0 ≤ now.tvNsec + nanoseconds := by omega
  have hrem := Int.emod_nonneg (now.tvNsec + nanoseconds) (ne_of_gt hpos)
  have hlt := Int.emod_lt_of_pos (now.tvNsec + nanoseconds) hpos
  have hnsec : Fits 64 (now.tvNsec + (now.tvNsec + nanoseconds) % kNanoSecondsPerSecond) := by
    rw [kNanoSecondsPerSecond] at *
    exact fits_64 (by omega) (by omega)
  rw [abstime, add_bind _ hsum, div_bind _ hsum hnonneg hpos, add_bind _ hsec, add_bind _ hsum,
    tmod_bind _ hsum hpos, Int.tmod_eq_emod_of_nonneg hnonneg, add_bind _ hnsec]
  rfl

/-- **The deadline is right exactly at a whole second.**  For a clock reading with less than a
second of nanoseconds and a duration from zero on, if nothing overflows, the time that is passed on
is normalised and the duration after the reading if and only if the reading has no nanoseconds. -/
theorem deadline_iff (hnow : now.Normalised) (hns : 0 ≤ nanoseconds)
    (hsum : Fits 64 (now.tvNsec + nanoseconds))
    (hsec : Fits 64 (now.tvSec + (now.tvNsec + nanoseconds) / kNanoSecondsPerSecond)) :
    Deadline now nanoseconds ↔ now.tvNsec = 0 := by
  have habstime := abstime_eq hnow hns hsum hsec
  have hsplit := Int.mul_ediv_add_emod (now.tvNsec + nanoseconds) kNanoSecondsPerSecond
  constructor
  · rintro ⟨t, ht, -, htotal⟩
    obtain rfl : _ = t := Option.some_inj.1 (habstime.symm.trans ht)
    simp only [Timespec.total, add_mul] at htotal
    rw [mul_comm] at hsplit
    -- what is left over is the nanoseconds, counted twice
    omega
  · intro hzero
    refine ⟨_, habstime, ?_, ?_⟩
    · have hpos : (0 : ℤ) < kNanoSecondsPerSecond := by decide
      rw [hzero, zero_add, Timespec.Normalised, zero_add]
      exact ⟨Int.emod_nonneg _ (ne_of_gt hpos), Int.emod_lt_of_pos _ hpos⟩
    · simp only [Timespec.total, add_mul]
      rw [mul_comm] at hsplit
      omega

/-- A wait of whole seconds doubles the nanoseconds of the reading: during the second half of every
second the time is one that `pthread_cond_timedwait` refuses. -/
theorem normalised_wholeSeconds_iff {seconds : ℤ} (hnow : now.Normalised) (hns : 0 ≤ seconds)
    (hsum : Fits 64 (now.tvNsec + seconds * kNanoSecondsPerSecond))
    (hsec : Fits 64 (now.tvSec + seconds)) :
    ∃ t, abstime now (seconds * kNanoSecondsPerSecond) = some t ∧
      t.tvSec = now.tvSec + seconds ∧ t.tvNsec = 2 * now.tvNsec ∧
      (t.Normalised ↔ 2 * now.tvNsec < kNanoSecondsPerSecond) := by
  have hpos : (0 : ℤ) < kNanoSecondsPerSecond := by decide
  have hdiv : (now.tvNsec + seconds * kNanoSecondsPerSecond) / kNanoSecondsPerSecond = seconds := by
    rw [Int.add_mul_ediv_right _ _ (ne_of_gt hpos), Int.ediv_eq_zero_of_lt hnow.1 hnow.2, zero_add]
  have hmod : (now.tvNsec + seconds * kNanoSecondsPerSecond) % kNanoSecondsPerSecond =
      now.tvNsec := by
    rw [Int.add_mul_emod_self_right, Int.emod_eq_of_lt hnow.1 hnow.2]
  have habstime := abstime_eq hnow (mul_nonneg hns (le_of_lt hpos)) hsum (by rwa [hdiv])
  rw [hdiv, hmod] at habstime
  refine ⟨_, habstime, rfl, (two_mul _).symm, ?_⟩
  obtain ⟨hlo, -⟩ := hnow
  simp only [Timespec.Normalised, two_mul]
  exact ⟨fun h => h.2, fun h => ⟨by omega, h⟩⟩

end

/-- Two seconds after a reading with 600000000 nanoseconds: the flush interval of the logger. -/
theorem deadline_demo : Deadline ⟨1700000000, 600000000⟩ 2000000000 ↔ (600000000 : ℤ) = 0 :=
  deadline_iff (by decide) (by decide) (by decide) (by decide)

/-- That deadline has more than a second of nanoseconds. -/
theorem not_deadline_demo :
    abstime ⟨1700000000, 600000000⟩ 2000000000 = some ⟨1700000002, 1200000000⟩ ∧
      ¬Deadline ⟨1700000000, 600000000⟩ 2000000000 := by
  have h : abstime ⟨1700000000, 600000000⟩ 2000000000 = some ⟨1700000002, 1200000000⟩ := by decide
  refine ⟨h, ?_⟩
  rintro ⟨t, ht, hnormalised, -⟩
  obtain rfl : _ = t := Option.some_inj.1 (h.symm.trans ht)
  exact absurd hnormalised (by decide)

end Condition

end G5
