/-
**The proleptic Gregorian calendar.**

The calendar is a rule for the day after a day.  Days are numbered by their Julian day; the number
of a date and the date of a number are given by formulas, over all the integers, and the module
proves that they follow the rule.

The formulas count years from the first of March, so that the leap day is the last day of its year.
A year counted so begins 32044 days before the Julian day 0 for the first time, in 4800 BC.

Main definitions:

* `Gregorian.Date`, `Gregorian.IsLeap`, `Gregorian.daysInMonth`, `Gregorian.Date.Valid`;
* `Gregorian.Date.next`, `Gregorian.Date.Before` — the day after a day, and the order of dates;
* `Gregorian.dayNumber`, `Gregorian.ofDayNumber` — the number of a date, and the date of a number;
* `Gregorian.Date.dayOfYear` — how many days of the year are over.

Main results:

* `Gregorian.valid_ofDayNumber`, `Gregorian.dayNumber_ofDayNumber`,
  `Gregorian.ofDayNumber_dayNumber` — **numbers and valid dates correspond**;
* `Gregorian.ofDayNumber_succ` — **the next number is the next date**;
* `Gregorian.dayNumber_lt_iff` — **numbers are ordered like dates**;
* `Gregorian.dayNumber_sub_newYear` — the day of the year is a difference of numbers.
-/

import Mathlib.Algebra.Order.Ring.Int
import Mathlib.Tactic.Common
import Mathlib.Tactic.IntervalCases
import Mathlib.Tactic.Ring

set_option relaxedAutoImplicit false
set_option autoImplicit false

namespace Gregorian

/-! ### The calendar -/

structure Date where
  year : ℤ
  month : ℤ
  day : ℤ
  deriving DecidableEq, Repr

/-- Every fourth year is a leap year, but of the full centuries only every fourth one. -/
def IsLeap (y : ℤ) : Prop := y % 4 = 0 ∧ (y % 100 = 0 → y % 400 = 0)

instance (y : ℤ) : Decidable (IsLeap y) := inferInstanceAs (Decidable (_ ∧ (_ → _)))

def daysInMonth (y m : ℤ) : ℤ :=
  if m = 2 then if IsLeap y then 29 else 28
  else if m = 4 ∨ m = 6 ∨ m = 9 ∨ m = 11 then 30
  else 31

namespace Date

/-- The date is a day of the calendar. -/
structure Valid (d : Date) : Prop where
  month_pos : 1 ≤ d.month
  month_le : d.month ≤ 12
  day_pos : 1 ≤ d.day
  day_le : d.day ≤ daysInMonth d.year d.month

/-- The day after. -/
def next (d : Date) : Date :=
  if d.day < daysInMonth d.year d.month then ⟨d.year, d.month, d.day + 1⟩
  else if d.month < 12 then ⟨d.year, d.month + 1, 1⟩
  else ⟨d.year + 1, 1, 1⟩

/-- The order of year, month and day. -/
def Before (d d' : Date) : Prop :=
  d.year < d'.year ∨ d.year = d'.year ∧
    (d.month < d'.month ∨ d.month = d'.month ∧ d.day < d'.day)

/-- How many days of the year are over. -/
def dayOfYear (d : Date) : ℤ :=
  ((List.range (d.month - 1).toNat).map fun i : ℕ => daysInMonth d.year (i + 1)).sum + (d.day - 1)

end Date

/-! ### The numbers of the days -/

/-- The first day of the year `y` counted from March, from that of the year 0 on. -/
def marchYear (y : ℤ) : ℤ := 365 * y + y / 4 - y / 100 + y / 400

/-- The first day of the month `m` counted from March, in its year. -/
def marchMonth (m : ℤ) : ℤ := (153 * m + 2) / 5

/-- The Julian day of a date. -/
def dayNumber (d : Date) : ℤ :=
  let a := (14 - d.month) / 12
  marchYear (d.year + 4800 - a) + marchMonth (d.month + 12 * a - 3) + d.day - 32045

/-- The century of the day `a`. -/
def century (a : ℤ) : ℤ := (4 * a + 3) / 146097

def dayOfCentury (a : ℤ) : ℤ := a - 146097 * century a / 4

/-- The year of the day `c` of a century. -/
def yearOfCentury (c : ℤ) : ℤ := (4 * c + 3) / 1461

def dayOfMarchYear (c : ℤ) : ℤ := c - 1461 * yearOfCentury c / 4

/-- The month of the day `e` of a year counted from March. -/
def monthOfMarchYear (e : ℤ) : ℤ := (5 * e + 2) / 153

/-- The date of a Julian day. -/
def ofDayNumber (n : ℤ) : Date :=
  let a := n + 32044
  let c := dayOfCentury a
  let e := dayOfMarchYear c
  let m := monthOfMarchYear e
  { year := 100 * century a + yearOfCentury c - 4800 + m / 10
    month := m + 3 - 12 * (m / 10)
    day := e - marchMonth m + 1 }

/-! ### Centuries and years -/

theorem mul_146097_ediv (b : ℤ) : 146097 * b / 4 = 36524 * b + b / 4 := by omega

theorem mul_1461_ediv (d : ℤ) : 1461 * d / 4 = 365 * d + d / 4 := by omega

/-- A century has 36524 days, and every fourth one a day more. -/
theorem dayOfCentury_range (a : ℤ) :
    0 ≤ dayOfCentury a ∧ dayOfCentury a ≤ 36524 ∧
      (dayOfCentury a = 36524 → century a % 4 = 3) := by
  have hlow : century a * 146097 ≤ 4 * a + 3 := Int.ediv_mul_le _ (by decide)
  have hhigh : 4 * a + 3 < (century a + 1) * 146097 :=
    Int.lt_ediv_add_one_mul_self _ (by decide)
  unfold dayOfCentury
  rw [mul_146097_ediv]
  generalize century a = b at *
  omega

/-- A year has 365 days, and every fourth one a day more, unless the century is over before. -/
theorem dayOfMarchYear_range {c : ℤ} (h₀ : 0 ≤ c) (h : c ≤ 36524) :
    0 ≤ yearOfCentury c ∧ yearOfCentury c ≤ 99 ∧ 0 ≤ dayOfMarchYear c ∧ dayOfMarchYear c ≤ 365 ∧
      (dayOfMarchYear c = 365 →
        yearOfCentury c % 4 = 3 ∧ (yearOfCentury c = 99 → c = 36524)) := by
  unfold dayOfMarchYear yearOfCentury
  omega

theorem marchYear_eq {b d : ℤ} (h₀ : 0 ≤ d) (h : d ≤ 99) :
    marchYear (100 * b + d) = 146097 * b / 4 + 1461 * d / 4 := by
  have h4 : (100 * b + d) / 4 = 25 * b + d / 4 := by omega
  have h100 : (100 * b + d) / 100 = b := by omega
  have h400 : (100 * b + d) / 400 = b / 4 := by omega
  rw [marchYear, h4, h100, h400, mul_146097_ediv, mul_1461_ediv]
  ring

/-- A year counted from March ends with the February of the next year. -/
theorem marchYear_succ (y : ℤ) :
    marchYear (y + 1) = marchYear y + if IsLeap (y + 1) then 366 else 365 := by
  unfold marchYear
  by_cases h : IsLeap (y + 1)
  · rw [if_pos h]
    unfold IsLeap at h
    omega
  · rw [if_neg h]
    unfold IsLeap at h
    omega

/-- 4800 years before, the years are leap years like now. -/
theorem isLeap_add_4800 (y : ℤ) : IsLeap (y + 4800) ↔ IsLeap y := by
  unfold IsLeap
  omega

/-! ### Months -/

theorem monthOfMarchYear_range {e : ℤ} (h₀ : 0 ≤ e) (h : e ≤ 365) :
    0 ≤ monthOfMarchYear e ∧ monthOfMarchYear e ≤ 11 ∧ marchMonth (monthOfMarchYear e) ≤ e ∧
      (monthOfMarchYear e < 11 → e < marchMonth (monthOfMarchYear e + 1)) := by
  unfold marchMonth monthOfMarchYear
  omega

/-- The months from March to January have the days they should have. -/
theorem marchMonth_succ {y m : ℤ} (h₀ : 0 ≤ m) (h : m < 11) :
    marchMonth (m + 1) = marchMonth m + daysInMonth y (m + 3 - 12 * (m / 10)) := by
  unfold marchMonth daysInMonth
  interval_cases m <;> simp

theorem daysInMonth_range (y m : ℤ) : 28 ≤ daysInMonth y m ∧ daysInMonth y m ≤ 31 := by
  unfold daysInMonth
  split
  · split <;> omega
  · split <;> omega

/-! ### From a number to a date -/

/-- **Every number is that of a date of the calendar.** -/
theorem valid_ofDayNumber (n : ℤ) : (ofDayNumber n).Valid := by
  obtain ⟨hc₀, hc, hcentury⟩ := dayOfCentury_range (n + 32044)
  obtain ⟨hd₀, hd, he₀, he, hleap⟩ := dayOfMarchYear_range hc₀ hc
  obtain ⟨hm₀, hm, hstart, hend⟩ := monthOfMarchYear_range he₀ he
  unfold ofDayNumber
  simp only
  generalize century (n + 32044) = b at *
  generalize dayOfCentury (n + 32044) = c at *
  generalize yearOfCentury c = d at *
  generalize dayOfMarchYear c = e at *
  generalize monthOfMarchYear e = m at *
  refine ⟨?_, ?_, ?_, ?_⟩
  · simp only
    omega
  · simp only
    omega
  · simp only
    omega
  · simp only
    by_cases hlast : m < 11
    · have hsucc := marchMonth_succ (y := 100 * b + d - 4800 + m / 10) hm₀ hlast
      have hlt := hend hlast
      omega
    · -- February, which has its last day in a leap year only
      have hm11 : m = 11 := by omega
      have hstart11 : marchMonth 11 = 337 := by decide
      subst hm11
      rw [hstart11] at *
      unfold daysInMonth
      rw [if_pos (by decide)]
      by_cases h : e = 365
      · obtain ⟨hd4, hd99⟩ := hleap h
        have hyear : IsLeap (100 * b + d - 4800 + 11 / 10) := by
          unfold IsLeap
          omega
        rw [if_pos hyear]
        omega
      · split <;> omega

/-- **The number of the date of a number.** -/
theorem dayNumber_ofDayNumber (n : ℤ) : dayNumber (ofDayNumber n) = n := by
  obtain ⟨hc₀, hc, -⟩ := dayOfCentury_range (n + 32044)
  obtain ⟨hd₀, hd, he₀, he, -⟩ := dayOfMarchYear_range hc₀ hc
  obtain ⟨hm₀, hm, -, -⟩ := monthOfMarchYear_range he₀ he
  have hyear := marchYear_eq (b := century (n + 32044)) hd₀ hd
  have he' : dayOfMarchYear (dayOfCentury (n + 32044)) = n + 32044 -
      146097 * century (n + 32044) / 4 - 1461 * yearOfCentury (dayOfCentury (n + 32044)) / 4 := rfl
  unfold dayNumber ofDayNumber
  simp only
  generalize century (n + 32044) = b at *
  generalize dayOfMarchYear (dayOfCentury (n + 32044)) = e at *
  generalize yearOfCentury (dayOfCentury (n + 32044)) = d at *
  generalize monthOfMarchYear e = m at *
  have ha : (14 - (m + 3 - 12 * (m / 10))) / 12 = m / 10 := by omega
  have hy : 100 * b + d - 4800 + m / 10 + 4800 - m / 10 = 100 * b + d := by ring
  have hmonth : m + 3 - 12 * (m / 10) + 12 * (m / 10) - 3 = m := by ring
  rw [ha, hy, hmonth, hyear]
  omega

/-! ### The order of the dates -/

/-- The number of the first day of a month, for the months numbered through the years. -/
def firstOfMonth (k : ℤ) : ℤ := dayNumber ⟨k / 12, k % 12 + 1, 1⟩

/-- January and February stand at the end of a year counted from March. -/
theorem firstOfMonth_eq {y r : ℤ} (h₀ : 0 ≤ r) (h : r < 12) :
    firstOfMonth (12 * y + r) =
      if r < 2 then marchYear (y + 4799) + marchMonth (r + 10) - 32044
      else marchYear (y + 4800) + marchMonth (r - 2) - 32044 := by
  have hy : (12 * y + r) / 12 = y := by omega
  have hr : (12 * y + r) % 12 = r := by omega
  unfold firstOfMonth dayNumber
  simp only [hy, hr]
  by_cases hlt : r < 2
  · have ha : (14 - (r + 1)) / 12 = 1 := by omega
    have hyear : y + 4800 - 1 = y + 4799 := by ring
    have hmonth : r + 1 + 12 * 1 - 3 = r + 10 := by ring
    rw [if_pos hlt, ha, hyear, hmonth]
    ring
  · have ha : (14 - (r + 1)) / 12 = 0 := by omega
    have hyear : y + 4800 - 0 = y + 4800 := by ring
    have hmonth : r + 1 + 12 * 0 - 3 = r - 2 := by ring
    rw [if_neg hlt, ha, hyear, hmonth]
    ring

/-- **The first day of the next month** comes after the days of this one. -/
theorem firstOfMonth_succ (k : ℤ) :
    firstOfMonth (k + 1) = firstOfMonth k + daysInMonth (k / 12) (k % 12 + 1) := by
  obtain ⟨y, r, h₀, h, rfl⟩ : ∃ y r, 0 ≤ r ∧ r < 12 ∧ k = 12 * y + r :=
    ⟨k / 12, k % 12, by omega, by omega, by omega⟩
  have hy : (12 * y + r) / 12 = y := by omega
  have hr : (12 * y + r) % 12 = r := by omega
  rw [hy, hr, firstOfMonth_eq h₀ h]
  by_cases hdec : r = 11
  · subst hdec
    have hnext : 12 * y + 11 + 1 = 12 * (y + 1) + 0 := by ring
    have hyear : y + 1 + 4799 = y + 4800 := by ring
    have hdays := marchMonth_succ (y := y) (m := 9) (by decide) (by decide)
    rw [hnext, firstOfMonth_eq (by decide) (by decide), if_pos (by decide), if_neg (by decide),
      hyear]
    norm_num at hdays ⊢
    omega
  · rw [add_assoc, firstOfMonth_eq (by omega) (by omega)]
    by_cases hjan : r = 0
    · subst hjan
      have hdays := marchMonth_succ (y := y) (m := 10) (by decide) (by decide)
      norm_num at hdays ⊢
      omega
    · by_cases hfeb : r = 1
      · -- the year counted from March is over
        subst hfeb
        have hyear := marchYear_succ (y + 4799)
        have hnext : y + 4799 + 1 = y + 4800 := by ring
        have hfirst : marchMonth (1 + 1 - 2) = 0 := by decide
        have hlast : marchMonth (1 + 10) = 337 := by decide
        have hdays : daysInMonth y (1 + 1) = if IsLeap y then 29 else 28 := if_pos rfl
        rw [hnext] at hyear
        rw [if_neg (by decide), if_pos (by decide), hfirst, hlast, hdays, hyear]
        by_cases hleap : IsLeap y
        · rw [if_pos hleap, if_pos ((isLeap_add_4800 y).2 hleap)]
          ring
        · rw [if_neg hleap, if_neg fun hl => hleap ((isLeap_add_4800 y).1 hl)]
          ring
      · have hdays := marchMonth_succ (y := y) (m := r - 2) (by omega) (by omega)
        have hindex : r - 2 + 3 - 12 * ((r - 2) / 10) = r + 1 := by omega
        have hprev : r - 2 + 1 = r + 1 - 2 := by ring
        rw [hindex, hprev] at hdays
        rw [if_neg (by omega), if_neg (by omega), hdays]
        ring

/-- A month ends before any later month begins. -/
theorem firstOfMonth_of_lt {k k' : ℤ} (h : k < k') :
    firstOfMonth k + daysInMonth (k / 12) (k % 12 + 1) ≤ firstOfMonth k' := by
  rw [← firstOfMonth_succ]
  -- induction on the months between
  induction k', h using Int.leInduction with
  | base => exact le_refl _
  | succ k' _ ih =>
      have hsucc := firstOfMonth_succ k'
      have hdays := (daysInMonth_range (k' / 12) (k' % 12 + 1)).1
      omega

/-- The month of a date, counted through the years. -/
def Date.monthIndex (d : Date) : ℤ := 12 * d.year + (d.month - 1)

section

variable {d d' : Date}

theorem Date.Valid.monthIndex_ediv (h : d.Valid) :
    d.monthIndex / 12 = d.year ∧ d.monthIndex % 12 + 1 = d.month := by
  have h₁ := h.month_pos
  have h₂ := h.month_le
  unfold monthIndex
  omega

/-- A date is a day of its month. -/
theorem Date.Valid.dayNumber_eq (h : d.Valid) :
    dayNumber d = firstOfMonth d.monthIndex + (d.day - 1) := by
  obtain ⟨hyear, hmonth⟩ := h.monthIndex_ediv
  rw [firstOfMonth, hyear, hmonth]
  unfold dayNumber
  ring

theorem Date.Valid.before_iff (h : d.Valid) (h' : d'.Valid) :
    d.Before d' ↔ d.monthIndex < d'.monthIndex ∨
      d.monthIndex = d'.monthIndex ∧ d.day < d'.day := by
  have h₁ := h.month_pos
  have h₂ := h.month_le
  have h₃ := h'.month_pos
  have h₄ := h'.month_le
  unfold Before monthIndex
  omega

/-- An earlier date has a smaller number. -/
theorem dayNumber_lt_of_before (h : d.Valid) (h' : d'.Valid) (hbefore : d.Before d') :
    dayNumber d < dayNumber d' := by
  have hday := h.day_le
  have hday' := h'.day_pos
  rw [h.dayNumber_eq, h'.dayNumber_eq]
  rcases (h.before_iff h').1 hbefore with hmonth | ⟨hmonth, hlt⟩
  · obtain ⟨hyear, hmon⟩ := h.monthIndex_ediv
    have hend := firstOfMonth_of_lt hmonth
    rw [hyear, hmon] at hend
    omega
  · rw [hmonth]
    omega

theorem Date.before_trichotomy (d d' : Date) : d.Before d' ∨ d = d' ∨ d'.Before d := by
  obtain ⟨y, m, dd⟩ := d
  obtain ⟨y', m', dd'⟩ := d'
  unfold Before
  simp only [Date.mk.injEq]
  omega

/-- **Numbers are ordered like dates.** -/
theorem dayNumber_lt_iff (h : d.Valid) (h' : d'.Valid) :
    dayNumber d < dayNumber d' ↔ d.Before d' := by
  constructor
  · intro hlt
    rcases d.before_trichotomy d' with hbefore | rfl | hafter
    · exact hbefore
    · exact absurd hlt (lt_irrefl _)
    · exact absurd (dayNumber_lt_of_before h' h hafter) (not_lt_of_gt hlt)
  · exact dayNumber_lt_of_before h h'

/-- **A number is that of one date.** -/
theorem dayNumber_inj (h : d.Valid) (h' : d'.Valid) (heq : dayNumber d = dayNumber d') :
    d = d' := by
  rcases d.before_trichotomy d' with hbefore | rfl | hafter
  · exact absurd heq (ne_of_lt (dayNumber_lt_of_before h h' hbefore))
  · rfl
  · exact absurd heq (ne_of_gt (dayNumber_lt_of_before h' h hafter))

/-- **The date of the number of a date.** -/
theorem ofDayNumber_dayNumber (h : d.Valid) : ofDayNumber (dayNumber d) = d :=
  dayNumber_inj (valid_ofDayNumber _) h (dayNumber_ofDayNumber _)

/-! ### The next day -/

theorem Date.Valid.next (h : d.Valid) : d.next.Valid := by
  have h₁ := h.month_pos
  have h₂ := h.month_le
  have h₃ := h.day_pos
  have hdays := fun y m => (daysInMonth_range y m).1
  unfold Date.next
  split
  · rename_i hlt
    exact ⟨h₁, h₂, by simp only; omega, by simp only; omega⟩
  · split
    · rename_i hmonth
      have hlast := hdays d.year (d.month + 1)
      exact ⟨by simp only; omega, by simp only; omega, le_refl _, by simp only; omega⟩
    · have hlast := hdays (d.year + 1) 1
      exact ⟨le_refl _, by simp only; omega, le_refl _, by simp only; omega⟩

/-- The number of the day after is one more. -/
theorem dayNumber_next (h : d.Valid) : dayNumber d.next = dayNumber d + 1 := by
  have hday := h.day_le
  obtain ⟨hyear, hmonth⟩ := h.monthIndex_ediv
  have hfirst := firstOfMonth_succ d.monthIndex
  rw [hyear, hmonth] at hfirst
  rw [h.next.dayNumber_eq, h.dayNumber_eq]
  unfold Date.next
  by_cases hlt : d.day < daysInMonth d.year d.month
  · have hindex : Date.monthIndex ⟨d.year, d.month, d.day + 1⟩ = d.monthIndex := rfl
    rw [if_pos hlt, hindex]
    ring
  · rw [if_neg hlt]
    by_cases hdec : d.month < 12
    · have hindex : Date.monthIndex ⟨d.year, d.month + 1, 1⟩ = d.monthIndex + 1 := by
        unfold Date.monthIndex
        ring
      rw [if_pos hdec, hindex, hfirst]
      simp only
      omega
    · have hindex : Date.monthIndex ⟨d.year + 1, 1, 1⟩ = d.monthIndex + 1 := by
        have h12 := h.month_le
        unfold Date.monthIndex
        simp only
        omega
      rw [if_neg hdec, hindex, hfirst]
      simp only
      omega

/-- **The next number is the next date.** -/
theorem ofDayNumber_succ (n : ℤ) : ofDayNumber (n + 1) = (ofDayNumber n).next := by
  have hvalid := valid_ofDayNumber n
  refine dayNumber_inj (valid_ofDayNumber _) hvalid.next ?_
  rw [dayNumber_ofDayNumber, dayNumber_next hvalid, dayNumber_ofDayNumber]

/-! ### The day of the year -/

theorem valid_newYear (y : ℤ) : Date.Valid ⟨y, 1, 1⟩ := by
  have hdays := (daysInMonth_range y 1).1
  exact ⟨le_refl _, by simp only; omega, le_refl _, by simp only; omega⟩

/-- The months of a year follow each other. -/
theorem firstOfMonth_add (y : ℤ) {n : ℕ} (hn : n < 12) :
    firstOfMonth (12 * y + n) = firstOfMonth (12 * y) +
      ((List.range n).map fun i : ℕ => daysInMonth y (i + 1)).sum := by
  induction n with
  | zero => simp
  | succ n ih =>
      have hyear : (12 * y + (n : ℤ)) / 12 = y := by omega
      have hmonth : (12 * y + (n : ℤ)) % 12 = n := by omega
      have hsucc := firstOfMonth_succ (12 * y + n)
      rw [hyear, hmonth, ih (by omega)] at hsucc
      rw [List.range_succ, List.map_append, List.sum_append, List.map_singleton,
        List.sum_singleton, Nat.cast_succ, ← add_assoc, hsucc, add_assoc]

/-- **The day of the year is a difference of numbers.** -/
theorem dayNumber_sub_newYear (h : d.Valid) :
    dayNumber d - dayNumber ⟨d.year, 1, 1⟩ = d.dayOfYear := by
  have h₁ := h.month_pos
  have h₂ := h.month_le
  have hmonths := firstOfMonth_add d.year (n := (d.month - 1).toNat) (by omega)
  have hindex : 12 * d.year + ((d.month - 1).toNat : ℤ) = d.monthIndex := by
    unfold Date.monthIndex
    omega
  have hnew : Date.monthIndex ⟨d.year, 1, 1⟩ = 12 * d.year := by
    unfold Date.monthIndex
    ring
  rw [hindex] at hmonths
  rw [h.dayNumber_eq, (valid_newYear d.year).dayNumber_eq, hnew, hmonths, Date.dayOfYear]
  simp only
  ring

end

end Gregorian
