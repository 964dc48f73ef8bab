/-
**Timers, the set of waiting timers, and the timerfd** (`src/net/TimerQueue.cc`,
`src/net/Timer.cc`).

The queue keeps the waiting timers in a set ordered by expiration and address; a sentinel entry
with the largest address separates the due ones.  The earliest one is told to a one-shot timerfd.

Main definitions:

* `Timer`, `Timer.restart`; `Entry`, `TimerQueue.insert`, `TimerQueue.getExpired`;
* `TimerFd`, `howMuchTimeFromNow`, `resetTimerfd`, `readTimerfd`.

Main results:

* `TimerQueue.getExpired_fst`, `TimerQueue.lt_key_of_mem_getExpired_snd` — the sentinel entry splits
  the set at the reading of the clock;
* `resetTimerfd_eq` — the deadline that is set.
-/

import G5.Base.Timestamp
import G5.Lib.SortedSet
import Mathlib.Data.Prod.Lex
import Mathlib.Order.Lattice

set_option relaxedAutoImplicit false
set_option autoImplicit false

namespace G5

/-! ### Timers -/

/-- A timer; what its callback does is left to the run. -/
structure Timer where
  expiration : ℤ
  interval : ℤ
  repeats : Bool
  deriving DecidableEq, Repr

namespace Timer

/-- The constructor. -/
def new (when interval : ℤ) : Timer := ⟨when, interval, 0 < interval⟩

def restart (timer : Timer) (now : ℤ) : Timer :=
  if timer.repeats then { timer with expiration := addTime now timer.interval }
  else { timer with expiration := Timestamp.invalid }

@[simp] theorem restart_repeats (timer : Timer) (now : ℤ) :
    (timer.restart now).repeats = timer.repeats := by
  unfold restart
  split <;> rfl

@[simp] theorem restart_interval (timer : Timer) (now : ℤ) :
    (timer.restart now).interval = timer.interval := by
  unfold restart
  split <;> rfl

theorem restart_expiration {timer : Timer} (h : timer.repeats = true) (now : ℤ) :
    (timer.restart now).expiration = addTime now timer.interval := by
  rw [restart, if_pos h]

end Timer

/-! ### The set of waiting timers -/

/-- `std::pair<Timestamp, Timer*>`, ordered by the time stamp and then by the address. -/
abbrev Entry := ℤ ×ₗ ℕ

namespace Entry

def key (e : Entry) : ℤ := (ofLex e).1

def addr (e : Entry) : ℕ := (ofLex e).2

/-- The pair of a time stamp and an address. -/
def of (when : ℤ) (addr : ℕ) : Entry := toLex (when, addr)

@[simp] theorem key_of (when : ℤ) (addr : ℕ) : (of when addr).key = when := rfl

@[simp] theorem addr_of (when : ℤ) (addr : ℕ) : (of when addr).addr = addr := rfl

theorem lt_iff {e f : Entry} : e < f ↔ e.key < f.key ∨ e.key = f.key ∧ e.addr < f.addr :=
  Prod.Lex.lt_iff

theorem key_le_of_lt {e f : Entry} (h : e < f) : e.key ≤ f.key := by
  rcases lt_iff.1 h with h | ⟨h, -⟩
  · exact le_of_lt h
  · exact le_of_eq h

theorem of_key_addr (e : Entry) : of e.key e.addr = e := rfl

end Entry

/-- The largest address. -/
def UINTPTR_MAX : ℕ := 2 ^ 64 - 1

namespace TimerQueue

/-- `insert`: whether the timer is now the earliest, and the set with it. -/
def insert (timers : List Entry) (timer : Timer) (addr : ℕ) : Bool × List Entry :=
  let when := timer.expiration
  let earliestChanged :=
    match timers with
    | [] => true
    | first :: _ => decide (when < first.key)
  (earliestChanged, SortedSet.insert (Entry.of when addr) timers)

theorem mem_insert {timers : List Entry} {timer : Timer} {addr : ℕ} {e : Entry} :
    e ∈ (insert timers timer addr).2 ↔ e = Entry.of timer.expiration addr ∨ e ∈ timers :=
  SortedSet.mem_insert

theorem pairwise_insert {timers : List Entry} (h : timers.Pairwise (· < ·)) (timer : Timer)
    (addr : ℕ) : (insert timers timer addr).2.Pairwise (· < ·) :=
  SortedSet.pairwise_insert h

/-- A timer that is not in the set is added once. -/
theorem map_addr_insert {timers : List Entry} {addr : ℕ} (h : addr ∉ timers.map Entry.addr)
    (timer : Timer) :
    ((insert timers timer addr).2.map Entry.addr).Perm (addr :: timers.map Entry.addr) := by
  have hnew : Entry.of timer.expiration addr ∉ timers :=
    fun hmem => h (List.mem_map.2 ⟨_, hmem, Entry.addr_of _ _⟩)
  exact (SortedSet.insert_perm hnew).map Entry.addr

/-- The entry beyond every timer that is due. -/
def sentry (now : ℤ) : Entry := Entry.of now UINTPTR_MAX

/-- `getExpired`: the entries that are due, and the ones that stay in the set. -/
def getExpired (timers : List Entry) (now : ℤ) : List Entry × List Entry :=
  (SortedSet.below (sentry now) timers, SortedSet.above (sentry now) timers)

theorem lt_sentry_iff {e : Entry} {now : ℤ} (h : e.addr < UINTPTR_MAX) :
    e < sentry now ↔ e.key ≤ now := by
  rw [Entry.lt_iff, sentry, Entry.key_of, Entry.addr_of]
  omega

/-- The due entries are those whose time stamp is not after the reading. -/
theorem getExpired_fst {timers : List Entry} (hs : timers.Pairwise (· < ·))
    (ha : ∀ e ∈ timers, e.addr < UINTPTR_MAX) (now : ℤ) :
    (getExpired timers now).1 = timers.filter fun e => e.key ≤ now := by
  rw [getExpired, SortedSet.below_eq_filter hs]
  refine List.filter_congr ?_
  intro e he
  rw [decide_eq_decide]
  exact lt_sentry_iff (ha e he)

theorem getExpired_append (timers : List Entry) (now : ℤ) :
    (getExpired timers now).1 ++ (getExpired timers now).2 = timers :=
  SortedSet.below_append_above _ _

/-- What stays in the set is not due. -/
theorem lt_key_of_mem_getExpired_snd {timers : List Entry} (hs : timers.Pairwise (· < ·))
    (ha : ∀ e ∈ timers, e.addr < UINTPTR_MAX) {now : ℤ} {e : Entry}
    (he : e ∈ (getExpired timers now).2) : now < e.key := by
  have hmem : e ∈ timers := by
    rw [← getExpired_append timers now]
    exact List.mem_append_right _ he
  have hle : sentry now ≤ e := SortedSet.le_of_mem_above hs he
  by_contra hkey
  exact absurd ((lt_sentry_iff (ha e hmem)).2 (Int.not_lt.1 hkey)) (not_lt.2 hle)

end TimerQueue

/-! ### The timerfd -/

/-- The state of a one-shot timer of the kernel, with its deadline in nanoseconds. -/
inductive TimerFd
  | disarmed
  | armed (deadline : ℤ)
  /-- it has expired, and nobody has read it since -/
  | expired
  deriving DecidableEq, Repr

/-- The clock reaches `now`. -/
def TimerFd.elapse (now : ℤ) : TimerFd → TimerFd
  | .armed deadline => if deadline ≤ now * 1000 then .expired else .armed deadline
  | fd => fd

/-- `timerfd_settime` with a relative time; zero disarms. -/
def TimerFd.settime (now : ℤ) (value : Timespec) : TimerFd :=
  if value.tvSec = 0 ∧ value.tvNsec = 0 then .disarmed
  else .armed (now * 1000 + value.tvSec * 10 ^ 9 + value.tvNsec)

def howMuchTimeFromNow (when now : ℤ) : Timespec :=
  let difference := toInt64 (when - now)
  let microseconds := if difference < 100 then 100 else difference
  ⟨microseconds.tdiv kMicroSecondsPerSecond, microseconds.tmod kMicroSecondsPerSecond * 1000⟩

/-- `readTimerfd`: reading an expired timer clears it, and otherwise there is nothing to read. -/
def readTimerfd : TimerFd → TimerFd
  | .expired => .disarmed
  | fd => fd

/-- `resetTimerfd`, with its reading of the clock. -/
def resetTimerfd (when now : ℤ) : TimerFd := TimerFd.settime now (howMuchTimeFromNow when now)

/-- The timer is armed for `when`, but for no earlier than 100 microseconds from now. -/
theorem resetTimerfd_eq {when now : ℤ} (h : FitsInt64 (when - now)) :
    resetTimerfd when now = .armed (1000 * max when (now + 100)) := by
  have hmicro : (if toInt64 (when - now) < 100 then 100 else toInt64 (when - now)) =
      max when (now + 100) - now := by
    rw [toInt64_of_fits h]
    split <;> omega
  rw [resetTimerfd, howMuchTimeFromNow]
  simp only [hmicro]
  have hpos : 100 ≤ max when (now + 100) - now := by omega
  generalize max when (now + 100) = deadline at *
  rw [Int.tdiv_eq_ediv_of_nonneg (by omega), Int.tmod_eq_emod_of_nonneg (by omega),
    kMicroSecondsPerSecond, TimerFd.settime]
  simp only
  rw [if_neg (by omega), TimerFd.armed.injEq]
  omega

end G5
