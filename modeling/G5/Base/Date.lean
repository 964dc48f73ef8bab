/-
**Dates as Julian days** (`src/base/Date.h`, `Date.cc`).

A date is kept as its Julian day, and turned into year, month and day and back by arithmetic on
`int`.  Every operation of the source is an operation of 32 bits here, which has no result when it
overflows.

Main definitions:

* `getJulianDayNumber`, `getYearMonthDay`;
* `Date` and its functions.

Main results:

* `getYearMonthDay_eq`, `getJulianDayNumber_eq` — **within their range, the two functions are the
  formulas of the calendar**, and nothing overflows;
* `Date.calendar` — the dates of the range follow each other like the days of the Gregorian
  calendar, and are ordered like them.
-/

import G5.Lib.FixedWidth
import G5.Lib.Gregorian

set_option relaxedAutoImplicit false
set_option autoImplicit false

namespace G5

open FixedWidth Gregorian

/-- The `YearMonthDay` of the source. -/
abbrev YearMonthDay := Gregorian.Date

/-! ### The functions -/

def getJulianDayNumber (year month day : ℤ) : Option ℤ := do
  let a ← div 32 (← sub 32 14 month) 12
  let y ← sub 32 (← add 32 year 4800) a
  let m ← sub 32 (← add 32 month (← mul 32 12 a)) 3
  let n ← add 32 day (← div 32 (← add 32 (← mul 32 153 m) 2) 5)
  let n ← add 32 n (← mul 32 y 365)
  let n ← add 32 n (← div 32 y 4)
  let n ← sub 32 n (← div 32 y 100)
  let n ← add 32 n (← div 32 y 400)
  sub 32 n 32045

def getYearMonthDay (julianDayNumber : ℤ) : Option YearMonthDay := do
  let a ← add 32 julianDayNumber 32044
  let b ← div 32 (← add 32 (← mul 32 4 a) 3) 146097
  let c ← sub 32 a (← div 32 (← mul 32 b 146097) 4)
  let d ← div 32 (← add 32 (← mul 32 4 c) 3) 1461
  let e ← sub 32 c (← div 32 (← mul 32 1461 d) 4)
  let m ← div 32 (← add 32 (← mul 32 5 e) 2) 153
  let day ← add 32 (← sub 32 e (← div 32 (← add 32 (← mul 32 153 m) 2) 5)) 1
  let month ← sub 32 (← add 32 m 3) (← mul 32 12 (← div 32 m 10))
  let year ← add 32 (← sub 32 (← add 32 (← mul 32 b 100) d) 4800) (← div 32 m 10)
  return ⟨year, month, day⟩

structure Date where
  julianDayNumber : ℤ
  deriving DecidableEq, Repr

namespace Date

def kDaysPerWeek : ℤ := 7

/-- `getJulianDayNumber(1970, 1, 1)`. -/
def kJulianDayOf1970_01_01 : Option ℤ := getJulianDayNumber 1970 1 1

/-- The constructor from a year, a month and a day. -/
def new (y m d : ℤ) : Option Date := (getJulianDayNumber y m d).map Date.mk

def valid (d : Date) : Bool := 0 < d.julianDayNumber

def yearMonthDay (d : Date) : Option YearMonthDay := getYearMonthDay d.julianDayNumber

def year (d : Date) : Option ℤ := d.yearMonthDay.map Gregorian.Date.year

def month (d : Date) : Option ℤ := d.yearMonthDay.map Gregorian.Date.month

def day (d : Date) : Option ℤ := d.yearMonthDay.map Gregorian.Date.day

def weekDay (d : Date) : Option ℤ := do mod 32 (← add 32 d.julianDayNumber 1) kDaysPerWeek

/-- `operator<`. -/
def lt (x y : Date) : Bool := x.julianDayNumber < y.julianDayNumber

end Date

/-! ### Within the range nothing overflows -/

/-- The Julian days whose dates can be computed. -/
def InRange (n : ℤ) : Prop := -32044 ≤ n ∧ n ≤ 536838867

instance (n : ℤ) : Decidable (InRange n) := inferInstanceAs (Decidable (_ ∧ _))

/-- The year of a day of the range, and the day in its year, counted from March. -/
theorem getYearMonthDay_split {a : ℤ} (h₀ : 0 ≤ a) (h : a ≤ 536870911) :
    (do
      let b ← div 32 (← add 32 (← mul 32 4 a) 3) 146097
      let c ← sub 32 a (← div 32 (← mul 32 b 146097) 4)
      let d ← div 32 (← add 32 (← mul 32 4 c) 3) 1461
      let e ← sub 32 c (← div 32 (← mul 32 1461 d) 4)
      return (b, d, e)) =
      some (century a, yearOfCentury (dayOfCentury a), dayOfMarchYear (dayOfCentury a)) := by
  obtain ⟨hc₀, hc, -⟩ := dayOfCentury_range a
  obtain ⟨hd₀, hd, he₀, he, -⟩ := dayOfMarchYear_range hc₀ hc
  have hb₀ : 0 ≤ century a := Int.ediv_nonneg (by omega) (by decide)
  have hb : century a * 146097 ≤ 4 * a + 3 := Int.ediv_mul_le _ (by decide)
  -- each quotient has its name in the calendar's formula
  have hcentury : (4 * a + 3) / 146097 = century a := rfl
  have hday : a - century a * 146097 / 4 = dayOfCentury a := by rw [dayOfCentury, mul_comm]
  have hyear : (4 * dayOfCentury a + 3) / 1461 = yearOfCentury (dayOfCentury a) := rfl
  have hrest : dayOfCentury a - 1461 * yearOfCentury (dayOfCentury a) / 4 =
      dayOfMarchYear (dayOfCentury a) := rfl
  rw [mul_32 (by omega) (by omega), add_32 (by omega) (by omega),
    div_32 (by omega) (by omega) (by decide), hcentury,
    mul_32 (by omega) (by omega), div_32 (by omega) (by omega) (by decide),
    sub_32 (by omega) (by omega), hday,
    mul_32 (by omega) (by omega), add_32 (by omega) (by omega),
    div_32 (by omega) (by omega) (by decide), hyear,
    mul_32 (by omega) (by omega), div_32 (by omega) (by omega) (by decide),
    sub_32 (by omega) (by omega), hrest]
  rfl

/-- The date of a day in a year counted from March. -/
theorem getYearMonthDay_month {b d e : ℤ} (hb₀ : 0 ≤ b) (hb : b ≤ 20000) (hd₀ : 0 ≤ d)
    (hd : d ≤ 99) (he₀ : 0 ≤ e) (he : e ≤ 365) :
    (do
      let m ← div 32 (← add 32 (← mul 32 5 e) 2) 153
      let day ← add 32 (← sub 32 e (← div 32 (← add 32 (← mul 32 153 m) 2) 5)) 1
      let month ← sub 32 (← add 32 m 3) (← mul 32 12 (← div 32 m 10))
      let year ← add 32 (← sub 32 (← add 32 (← mul 32 b 100) d) 4800) (← div 32 m 10)
      return (⟨year, month, day⟩ : YearMonthDay)) =
      some { year := 100 * b + d - 4800 + monthOfMarchYear e / 10
             month := monthOfMarchYear e + 3 - 12 * (monthOfMarchYear e / 10)
             day := e - marchMonth (monthOfMarchYear e) + 1 } := by
  obtain ⟨hm₀, hm, -, -⟩ := monthOfMarchYear_range he₀ he
  have hmonth : (5 * e + 2) / 153 = monthOfMarchYear e := rfl
  rw [mul_32 (by omega) (by omega), add_32 (by omega) (by omega),
    div_32 (by omega) (by omega) (by decide), hmonth,
    -- the day
    mul_32 (by omega) (by omega), add_32 (by omega) (by omega),
    div_32 (by omega) (by omega) (by decide), sub_32 (by omega) (by omega),
    add_32 (by omega) (by omega),
    -- the month
    add_32 (by omega) (by omega), div_32 (by omega) (by omega) (by decide),
    mul_32 (by omega) (by omega), sub_32 (by omega) (by omega),
    -- the year
    mul_32 (by omega) (by omega), add_32 (by omega) (by omega), sub_32 (by omega) (by omega),
    div_32 (by omega) (by omega) (by decide), add_32 (by omega) (by omega), mul_comm b 100]
  rfl

/-- **The date of a Julian day.** -/
theorem getYearMonthDay_eq {n : ℤ} (h : InRange n) : getYearMonthDay n = some (ofDayNumber n) := by
  obtain ⟨h₀, h₁⟩ := h
  have hsplit := getYearMonthDay_split (a := n + 32044) (by omega) (by omega)
  obtain ⟨hc₀, hc, -⟩ := dayOfCentury_range (n + 32044)
  obtain ⟨hd₀, hd, he₀, he, -⟩ := dayOfMarchYear_range hc₀ hc
  have hb₀ : 0 ≤ century (n + 32044) := Int.ediv_nonneg (by omega) (by decide)
  have hb : century (n + 32044) * 146097 ≤ 4 * (n + 32044) + 3 := Int.ediv_mul_le _ (by decide)
  have hmonth := getYearMonthDay_month hb₀ (by omega) hd₀ hd he₀ he
  have hcompose : getYearMonthDay n = (do
      let a ← add 32 n 32044
      let (b, d, e) ← (do
        let b ← div 32 (← add 32 (← mul 32 4 a) 3) 146097
        let c ← sub 32 a (← div 32 (← mul 32 b 146097) 4)
        let d ← div 32 (← add 32 (← mul 32 4 c) 3) 1461
        let e ← sub 32 c (← div 32 (← mul 32 1461 d) 4)
        return (b, d, e))
      let m ← div 32 (← add 32 (← mul 32 5 e) 2) 153
      let day ← add 32 (← sub 32 e (← div 32 (← add 32 (← mul 32 153 m) 2) 5)) 1
      let month ← sub 32 (← add 32 m 3) (← mul 32 12 (← div 32 m 10))
      let year ← add 32 (← sub 32 (← add 32 (← mul 32 b 100) d) 4800) (← div 32 m 10)
      return ⟨year, month, day⟩) := by
    simp only [getYearMonthDay, bind_assoc, pure_bind]
  rw [hcompose, add_32 (by omega) (by omega), hsplit]
  exact hmonth

/-- The first and the last date of the range. -/
def firstDate : YearMonthDay := ⟨-4800, 3, 1⟩

def lastDate : YearMonthDay := ⟨1465102, 10, 18⟩

theorem dayNumber_firstDate : dayNumber firstDate = -32044 := by decide

/-- The dates of the range are the ones between the first and the last. -/
theorem inRange_iff {d : YearMonthDay} (h : d.Valid) :
    InRange (dayNumber d) ↔ ¬d.Before firstDate ∧ ¬lastDate.Before d := by
  have hfirst : firstDate.Valid := ⟨by decide, by decide, by decide, by decide⟩
  have hlast : lastDate.Valid := ⟨by decide, by decide, by decide, by decide⟩
  have hnumber : dayNumber lastDate = 536838867 := by decide
  rw [← dayNumber_lt_iff h hfirst, ← dayNumber_lt_iff hlast h, dayNumber_firstDate, hnumber]
  unfold InRange
  omega

/-- **The Julian day of a date.** -/
theorem getJulianDayNumber_eq {d : YearMonthDay} (h : d.Valid) (hr : InRange (dayNumber d)) :
    getJulianDayNumber d.year d.month d.day = some (dayNumber d) := by
  have h₁ := h.month_pos
  have h₂ := h.month_le
  have h₃ := h.day_pos
  have h₄ := le_trans h.day_le (daysInMonth_range d.year d.month).2
  have hbegin := ((inRange_iff h).1 hr).1
  have ha₀ : 0 ≤ (14 - d.month) / 12 := by omega
  -- the year counted from March is not before the first one
  have hy₀ : 0 ≤ d.year + 4800 - (14 - d.month) / 12 := by
    unfold Gregorian.Date.Before firstDate at hbegin
    simp only at hbegin
    omega
  have hm₀ : 0 ≤ d.month + 12 * ((14 - d.month) / 12) - 3 := by omega
  have hm : d.month + 12 * ((14 - d.month) / 12) - 3 ≤ 11 := by omega
  have hnumber : dayNumber d = marchYear (d.year + 4800 - (14 - d.month) / 12) +
      marchMonth (d.month + 12 * ((14 - d.month) / 12) - 3) + d.day - 32045 := rfl
  have hend := hr.2
  unfold getJulianDayNumber
  rw [hnumber] at hend ⊢
  unfold marchYear marchMonth at *
  rw [sub_32 (by omega) (by omega), div_32 (by omega) (by omega) (by decide)]
  generalize (14 - d.month) / 12 = a at *
  rw [add_32 (by omega) (by omega), sub_32 (by omega) (by omega)]
  generalize d.year + 4800 - a = y at *
  rw [mul_32 (by omega) (by omega), add_32 (by omega) (by omega), sub_32 (by omega) (by omega)]
  generalize d.month + 12 * a - 3 = m at *
  rw [mul_32 (by omega) (by omega), add_32 (by omega) (by omega),
    div_32 (by omega) (by omega) (by decide), add_32 (by omega) (by omega),
    -- the days of the years
    mul_32 (by omega) (by omega), add_32 (by omega) (by omega),
    div_32 (by omega) (by omega) (by decide), add_32 (by omega) (by omega),
    div_32 (by omega) (by omega) (by decide), sub_32 (by omega) (by omega),
    div_32 (by omega) (by omega) (by decide), add_32 (by omega) (by omega),
    sub_32_eq (by omega) (by omega)]
  refine congrArg some ?_
  omega

/-- The epoch of the system. -/
theorem kJulianDayOf1970_01_01_eq : Date.kJulianDayOf1970_01_01 = some 2440588 := by decide

/-! ### The calendar -/

namespace Date

theorem yearMonthDay_eq {x : Date} (h : InRange x.julianDayNumber) :
    x.yearMonthDay = some (ofDayNumber x.julianDayNumber) := getYearMonthDay_eq h

/-- The day of the week, with Sunday as the first. -/
theorem weekDay_eq {x : Date} (h₀ : 0 ≤ x.julianDayNumber) (h : x.julianDayNumber < 2147483647) :
    x.weekDay = some ((x.julianDayNumber + 1) % 7) := by
  unfold weekDay kDaysPerWeek
  rw [add_32 (by omega) (by omega), mod, if_neg (by decide), check,
    if_pos (fits_tdiv (fits_32 (by omega) (by omega)) (by decide)),
    Int.tmod_eq_emod_of_nonneg (by omega)]
  rfl

/-- **Dates are compared like years, months and days.** -/
theorem lt_iff_before (x y : Date) :
    x.lt y = true ↔ (ofDayNumber x.julianDayNumber).Before (ofDayNumber y.julianDayNumber) := by
  rw [← dayNumber_lt_iff (valid_ofDayNumber _) (valid_ofDayNumber _), dayNumber_ofDayNumber,
    dayNumber_ofDayNumber]
  exact decide_eq_true_iff

/-- **The Julian days of the range follow each other like the days of the Gregorian calendar.**  No
operation overflows; the day after a Julian day is the day after in the calendar; the conversions
undo each other; and dates are compared like years, months and days. -/
theorem calendar :
    (∀ j, -32044 ≤ j → j ≤ 536838866 → ∃ d : YearMonthDay,
      getYearMonthDay j = some d ∧ d.Valid ∧ getYearMonthDay (j + 1) = some d.next ∧
      getJulianDayNumber d.year d.month d.day = some j) ∧
    getYearMonthDay 2440588 = some ⟨1970, 1, 1⟩ ∧
    (∀ d : YearMonthDay, d.Valid → ¬d.Before firstDate → ¬lastDate.Before d →
      ∃ j, InRange j ∧ getJulianDayNumber d.year d.month d.day = some j ∧
        getYearMonthDay j = some d) ∧
    (∀ x y : Date, InRange x.julianDayNumber → InRange y.julianDayNumber →
      ∃ d d', x.yearMonthDay = some d ∧ y.yearMonthDay = some d' ∧
        (x.lt y = true ↔ d.Before d')) := by
  refine ⟨?_, by decide, ?_, ?_⟩
  · intro j h₀ h
    have hvalid := valid_ofDayNumber j
    have hnumber := dayNumber_ofDayNumber j
    have hback := getJulianDayNumber_eq hvalid (by rw [hnumber]; exact ⟨h₀, by omega⟩)
    rw [hnumber] at hback
    refine ⟨ofDayNumber j, getYearMonthDay_eq ⟨h₀, by omega⟩, hvalid, ?_, hback⟩
    rw [getYearMonthDay_eq ⟨by omega, by omega⟩, ofDayNumber_succ]
  · intro d hvalid hfirst hlast
    have hrange := (inRange_iff hvalid).2 ⟨hfirst, hlast⟩
    refine ⟨dayNumber d, hrange, getJulianDayNumber_eq hvalid hrange, ?_⟩
    rw [getYearMonthDay_eq hrange, ofDayNumber_dayNumber hvalid]
  · intro x y hx hy
    exact ⟨_, _, yearMonthDay_eq hx, yearMonthDay_eq hy, lt_iff_before x y⟩

end Date

end G5
