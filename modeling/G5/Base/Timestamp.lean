/-
**Time stamps** (`src/base/Timestamp.h`).

A time stamp is its number of microseconds since the epoch.

Main definitions:

* `Timespec`, `Timestamp.valid`, `Timestamp.invalid`, `addTime`.

Main results:

* `exists_toInt64_eq` — conversion to `int64_t` adds a multiple of `2 ^ 64`.
-/

import G5.Basic

set_option relaxedAutoImplicit false
set_option autoImplicit false

namespace G5

/-- The `struct timespec` of the C library. -/
structure Timespec where
  tvSec : ℤ
  tvNsec : ℤ
  deriving DecidableEq, Repr

def kMicroSecondsPerSecond : ℤ := 1000 * 1000

def Timestamp.valid (t : ℤ) : Bool := 0 < t

def Timestamp.invalid : ℤ := 0

/-- `addTime`: the product is computed in `int`. -/
def addTime (ts interval : ℤ) : ℤ :=
  toInt64 (ts + toInt32 (interval * kMicroSecondsPerSecond))

/-- The number fits in an `int64_t`. -/
def FitsInt64 (x : ℤ) : Prop := -2 ^ 63 ≤ x ∧ x < 2 ^ 63

instance (x : ℤ) : Decidable (FitsInt64 x) := inferInstanceAs (Decidable (_ ∧ _))

theorem toInt64_of_fits {x : ℤ} (h : FitsInt64 x) : toInt64 x = x := toInt64_eq h.1 h.2

theorem exists_toInt64_eq (x : ℤ) : ∃ k, toInt64 x = x + 2 ^ 64 * k := by
  rw [toInt64, Int.bmod_def]
  split
  · exact ⟨-(x / 2 ^ 64), by omega⟩
  · exact ⟨-(x / 2 ^ 64) - 1, by omega⟩

theorem toInt64_lt (x : ℤ) : toInt64 x < 2 ^ 63 := by
  rw [toInt64, Int.bmod_def]
  omega

end G5
