/-
**UTC times** (`TimeZone::toUtcTime`, `TimeZone::fromUtcTime` of `src/base/TimeZone.cc`).

The seconds since the epoch are taken apart into a date and a time of the day.  Division in the
source is towards zero, so that the seconds before 1970 are put right afterwards; the time of the
day is then computed without a sign.

Main definitions:

* `Tm` — the broken-down time of the C library;
* `fillHMS`, `TimeZone.toUtcTime`, `TimeZone.fromUtcTime`, `TimeZone.fromUtcTimeOf`;
* `UtcRange` — the times whose days have a date.

Main results:

* `TimeZone.toUtcTime_eq`, `TimeZone.fromUtcTimeOf_eq` — **within the range the conversions are
  division by a day and by its parts**, and nothing overflows;
* `TimeZone.utc_roundTrip` — the conversions undo each other and keep the order.
-/

import G5.Base.Date
import G5.Basic

set_option relaxedAutoImplicit false
set_option autoImplicit false

namespace G5

open FixedWidth Gregorian

/-- The `struct tm` of the C library, with the zone as the bytes of its name. -/
structure Tm where
  sec : ℤ := 0
  min : ℤ := 0
  hour : ℤ := 0
  mday : ℤ := 0
  mon : ℤ := 0
  year : ℤ := 0
  wday : ℤ := 0
  yday : ℤ := 0
  isdst : ℤ := 0
  gmtoff : ℤ := 0
  zone : Option (List Byte) := none
  deriving DecidableEq, Repr

namespace Tm

/-- Years count from 1900, and months from zero. -/
def date (t : Tm) : YearMonthDay := ⟨t.year + 1900, t.mon + 1, t.mday⟩

/-- The date is one of the calendar, and the time one of the clock. -/
structure ValidTime (t : Tm) : Prop where
  date : t.date.Valid
  hour : 0 ≤ t.hour ∧ t.hour < 24
  min : 0 ≤ t.min ∧ t.min < 60
  sec : 0 ≤ t.sec ∧ t.sec < 60

/-- Every field is in its range. -/
structure Normalised (t : Tm) : Prop where
  sec : 0 ≤ t.sec ∧ t.sec < 60
  min : 0 ≤ t.min ∧ t.min < 60
  hour : 0 ≤ t.hour ∧ t.hour < 24
  mon : 0 ≤ t.mon ∧ t.mon ≤ 11
  mday : 1 ≤ t.mday ∧ t.mday ≤ daysInMonth (t.year + 1900) (t.mon + 1)
  wday : 0 ≤ t.wday ∧ t.wday < 7

/-- Year, month, day, hour, minute and second are the same. -/
structure SameTime (t t' : Tm) : Prop where
  date : t.date = t'.date
  hour : t.hour = t'.hour
  min : t.min = t'.min
  sec : t.sec = t'.sec

/-- The order of year, month, day, hour, minute and second. -/
def Before (t t' : Tm) : Prop :=
  t.date.Before t'.date ∨ t.date = t'.date ∧
    (t.hour < t'.hour ∨ t.hour = t'.hour ∧
      (t.min < t'.min ∨ t.min = t'.min ∧ t.sec < t'.sec))

end Tm

/-! ### The functions -/

def kSecondsPerDay : ℤ := 86400

def fillHMS (seconds : ℕ) (utc : Tm) : Tm :=
  let minutes := seconds / 60
  { utc with
    sec := (seconds % 60 : ℕ)
    min := (minutes % 60 : ℕ)
    hour := (minutes / 60 : ℕ) }

namespace TimeZone

def toUtcTime (secondsSinceEpoch : ℤ) (yday : Bool) : Option Tm := do
  let utc : Tm := { zone := some (ascii "GMT") }
  let seconds := toInt32 (← mod 64 secondsSinceEpoch kSecondsPerDay)
  let days := toInt32 (← div 64 secondsSinceEpoch kSecondsPerDay)
  let (seconds, days) ← (if seconds < 0 then do
      return (← add 32 seconds kSecondsPerDay, ← sub 32 days 1)
    else
      return (seconds, days) : Option (ℤ × ℤ))
  let utc := fillHMS (toUnsigned seconds) utc
  let date : Date := ⟨← add 32 days (← Date.kJulianDayOf1970_01_01)⟩
  let ymd ← date.yearMonthDay
  let year ← sub 32 ymd.year 1900
  let mon ← sub 32 ymd.month 1
  let wday ← date.weekDay
  let utc := { utc with year := year, mon := mon, mday := ymd.day, wday := wday }
  if yday then
    let startOfYear ← Date.new ymd.year 1 1
    let yday ← sub 32 date.julianDayNumber startOfYear.julianDayNumber
    return { utc with yday := yday }
  else
    return utc

/-- The overload of `fromUtcTime` on six numbers. -/
def fromUtcTimeOf (year month day hour minute seconds : ℤ) : Option ℤ := do
  let date ← Date.new year month day
  let secondsInDay ← add 32 (← add 32 (← mul 32 hour 3600) (← mul 32 minute 60)) seconds
  let days ← sub 32 date.julianDayNumber (← Date.kJulianDayOf1970_01_01)
  add 64 (← mul 64 days kSecondsPerDay) secondsInDay

/-- The overload of `fromUtcTime` on a `struct tm`. -/
def fromUtcTime (utc : Tm) : Option ℤ := do
  fromUtcTimeOf (← add 32 utc.year 1900) (← add 32 utc.mon 1) utc.mday utc.hour utc.min utc.sec

end TimeZone

/-! ### Taking a time apart -/

/-- The day of the epoch. -/
def epochDay : ℤ := 2440588

/-- The times whose day is numbered, from the Julian day zero to the last one with a date. -/
def UtcRange (t : ℤ) : Prop := 0 ≤ t / 86400 + epochDay ∧ t / 86400 + epochDay ≤ 536838867

theorem UtcRange.fits {t : ℤ} (h : UtcRange t) : Fits 64 t := by
  obtain ⟨h₁, h₂⟩ := h
  unfold epochDay at h₁ h₂
  exact fits_64 (by omega) (by omega)

namespace TimeZone

/-- The second of the day and the day, put right where they are rounded upwards. -/
theorem splitDay_eq {t : ℤ} (h : UtcRange t) :
    (if toInt32 (t.tmod kSecondsPerDay) < 0 then do
        return (← add 32 (toInt32 (t.tmod kSecondsPerDay)) kSecondsPerDay,
          ← sub 32 (toInt32 (t.tdiv kSecondsPerDay)) 1)
      else
        return (toInt32 (t.tmod kSecondsPerDay), toInt32 (t.tdiv kSecondsPerDay)) :
      Option (ℤ × ℤ)) = some (t % 86400, t / 86400) := by
  obtain ⟨h₁, h₂⟩ := h
  unfold epochDay at h₁ h₂
  have hlow := Int.lt_tmod_of_pos t (b := 86400) (by decide)
  have hhigh := Int.tmod_lt_of_pos t (b := 86400) (by decide)
  unfold kSecondsPerDay
  rcases lt_or_ge (t.tmod 86400) 0 with hneg | hnonneg
  · obtain ⟨hmod, hdiv⟩ := ediv_of_tmod_neg (by decide) hneg
    rw [toInt32_eq (x := t.tmod 86400) (by omega) (by omega),
      toInt32_eq (x := t.tdiv 86400) (by omega) (by omega), if_pos hneg,
      add_32 (by omega) (by omega), sub_32 (by omega) (by omega), hmod, hdiv]
    rfl
  · obtain ⟨hmod, hdiv⟩ := ediv_of_tmod_nonneg (by decide) hnonneg
    rw [toInt32_eq (x := t.tmod 86400) (by omega) (by omega),
      toInt32_eq (x := t.tdiv 86400) (by omega) (by omega), if_neg (by omega), hmod, hdiv]
    rfl

/-- The Julian day zero is in 4714 BC. -/
theorem year_range {n : ℤ} (h₀ : 0 ≤ n) (h : n ≤ 536838867) :
    -4713 ≤ (ofDayNumber n).year ∧ (ofDayNumber n).year ≤ 1465102 := by
  have hvalid := valid_ofDayNumber n
  have hnumber := dayNumber_ofDayNumber n
  have hlast := ((inRange_iff hvalid).1 (by rw [hnumber]; exact ⟨by omega, h⟩)).2
  have hfirst : ¬(ofDayNumber n).Before ⟨-4713, 1, 1⟩ := by
    rw [← dayNumber_lt_iff hvalid (valid_newYear _), hnumber]
    have hold : dayNumber ⟨-4713, 1, 1⟩ = -327 := by decide
    omega
  constructor
  · by_contra hlt
    exact hfirst (Or.inl (not_le.1 hlt))
  · by_contra hlt
    exact hlast (Or.inl (not_le.1 hlt))

/-- The first day of the year is in the range too. -/
theorem newYear_inRange {n : ℤ} (h₀ : 0 ≤ n) (h : n ≤ 536838867) :
    InRange (dayNumber ⟨(ofDayNumber n).year, 1, 1⟩) := by
  have hvalid := valid_ofDayNumber n
  have hyear := (year_range h₀ h).1
  have hbegin : ¬(ofDayNumber n).Before ⟨(ofDayNumber n).year, 1, 1⟩ := by
    have hmonth := hvalid.month_pos
    have hday := hvalid.day_pos
    unfold Gregorian.Date.Before
    simp only
    omega
  rw [← dayNumber_lt_iff hvalid (valid_newYear _), dayNumber_ofDayNumber] at hbegin
  have hfirst : ¬Gregorian.Date.Before ⟨(ofDayNumber n).year, 1, 1⟩ firstDate := by
    unfold Gregorian.Date.Before firstDate
    simp only
    omega
  have hfirstValid : firstDate.Valid := ⟨by decide, by decide, by decide, by decide⟩
  rw [← dayNumber_lt_iff (valid_newYear _) hfirstValid, dayNumber_firstDate] at hfirst
  exact ⟨by omega, by omega⟩

/-- The time of a second of the day. -/
theorem fillHMS_eq {s : ℤ} (h₀ : 0 ≤ s) (h : s < 86400) (utc : Tm) :
    fillHMS (toUnsigned s) utc =
      { utc with sec := s % 60, min := s / 60 % 60, hour := s / 3600 } := by
  have hs : (toUnsigned s : ℤ) = s := by
    unfold toUnsigned
    omega
  unfold fillHMS
  simp only [Tm.mk.injEq, and_true]
  refine ⟨?_, ?_, ?_⟩ <;> omega

/-- The broken-down time of a second. -/
def utcOf (t : ℤ) (yday : Bool) : Tm :=
  let d := ofDayNumber (t / 86400 + epochDay)
  { sec := t % 86400 % 60
    min := t % 86400 / 60 % 60
    hour := t % 86400 / 3600
    mday := d.day
    mon := d.month - 1
    year := d.year - 1900
    wday := (t / 86400 + epochDay + 1) % 7
    yday := if yday then d.dayOfYear else 0
    zone := some (ascii "GMT") }

/-- **The broken-down time is computed without overflow.** -/
theorem toUtcTime_eq {t : ℤ} (h : UtcRange t) (yday : Bool) :
    toUtcTime t yday = some (utcOf t yday) := by
  have hsplit := splitDay_eq h
  have hfits := h.fits
  obtain ⟨h₁, h₂⟩ := h
  have hepoch : epochDay = 2440588 := rfl
  have hrange : InRange (t / 86400 + epochDay) := ⟨by omega, h₂⟩
  have hvalid := valid_ofDayNumber (t / 86400 + epochDay)
  have hyear := year_range h₁ h₂
  unfold toUtcTime
  rw [tmod_bind _ hfits (by decide), tdiv_bind _ hfits (by decide)]
  simp only
  rw [hsplit, some_bind, kJulianDayOf1970_01_01_eq, some_bind, add_32 (by omega) (by omega),
    ← hepoch, Date.yearMonthDay_eq hrange, some_bind]
  simp only
  generalize hn : t / 86400 + epochDay = n at *
  have hmonth := hvalid.month_pos
  have hmonth' := hvalid.month_le
  rw [sub_32 (by omega) (by omega), sub_32 (by omega) (by omega),
    Date.weekDay_eq (x := ⟨n⟩) h₁ (by simp only; omega), some_bind,
    fillHMS_eq (Int.emod_nonneg _ (by decide)) (Int.emod_lt_of_pos _ (by decide))]
  unfold utcOf
  rw [hn]
  cases yday with
  | false => rfl
  | true =>
      have hnew :=
        getJulianDayNumber_eq (valid_newYear (ofDayNumber n).year) (newYear_inRange h₁ h₂)
      have hdays := dayNumber_sub_newYear hvalid
      obtain ⟨hbegin, hend⟩ := newYear_inRange h₁ h₂
      rw [dayNumber_ofDayNumber] at hdays
      rw [if_pos rfl, Date.new, hnew, Option.map_some, some_bind]
      simp only
      rw [sub_32 (by omega) (by omega), hdays]
      rfl

/-- A time of the clock, on a day of the range, is a second. -/
theorem fromUtcTimeOf_eq {d : YearMonthDay} {hour minute seconds : ℤ} (hd : d.Valid)
    (h₀ : 0 ≤ dayNumber d) (h : dayNumber d ≤ 536838867) (hhour : 0 ≤ hour ∧ hour < 24)
    (hminute : 0 ≤ minute ∧ minute < 60) (hseconds : 0 ≤ seconds ∧ seconds < 60) :
    fromUtcTimeOf d.year d.month d.day hour minute seconds =
      some ((dayNumber d - epochDay) * 86400 + (hour * 3600 + minute * 60 + seconds)) := by
  have hepoch : epochDay = 2440588 := rfl
  unfold fromUtcTimeOf kSecondsPerDay
  rw [Date.new, getJulianDayNumber_eq hd ⟨by omega, h⟩, Option.map_some, some_bind,
    mul_32 (by omega) (by omega), mul_32 (by omega) (by omega), add_32 (by omega) (by omega),
    add_32 (by omega) (by omega), kJulianDayOf1970_01_01_eq, some_bind]
  simp only
  rw [sub_32 (by omega) (by omega), ← hepoch,
    mul_bind _ (fits_64 (by omega) (by omega)), add, check,
    if_pos (fits_64 (by omega) (by omega))]

end TimeZone

/-! ### Times of the clock and seconds -/

namespace Tm

/-- The second of a time of the clock. -/
def secondOf (a : Tm) : ℤ :=
  (dayNumber a.date - epochDay) * 86400 + (a.hour * 3600 + a.min * 60 + a.sec)

theorem Normalised.validTime {a : Tm} (h : a.Normalised) : a.ValidTime where
  date :=
    { month_pos := by have hmon := h.mon.1; unfold date; simp only; omega
      month_le := by have hmon := h.mon.2; unfold date; simp only; omega
      day_pos := h.mday.1
      day_le := h.mday.2 }
  hour := h.hour
  min := h.min
  sec := h.sec

/-- **Times of the clock are ordered like their seconds.** -/
theorem before_iff {a b : Tm} (ha : a.ValidTime) (hb : b.ValidTime) :
    a.Before b ↔ a.secondOf < b.secondOf := by
  obtain ⟨hdateA, hhourA, hminA, hsecA⟩ := ha
  obtain ⟨hdateB, hhourB, hminB, hsecB⟩ := hb
  have hdate : a.date = b.date ↔ dayNumber a.date = dayNumber b.date :=
    ⟨fun heq => by rw [heq], dayNumber_inj hdateA hdateB⟩
  unfold Before secondOf
  rw [← dayNumber_lt_iff hdateA hdateB, hdate]
  omega

/-- The day of the second of a time of the clock. -/
theorem secondOf_ediv {a : Tm} (ha : a.ValidTime) :
    a.secondOf / 86400 = dayNumber a.date - epochDay := by
  obtain ⟨-, hhour, hmin, hsec⟩ := ha
  unfold secondOf
  omega

/-- The year of a date of the range. -/
theorem year_range {a : Tm} (ha : a.ValidTime) (h₀ : 0 ≤ dayNumber a.date)
    (h : dayNumber a.date ≤ 536838867) : -4713 ≤ a.year + 1900 ∧ a.year + 1900 ≤ 1465102 := by
  have hyear := TimeZone.year_range h₀ h
  rw [ofDayNumber_dayNumber ha.date] at hyear
  exact hyear

end Tm

namespace TimeZone

@[simp] theorem utcOf_sec (t : ℤ) (yday : Bool) : (utcOf t yday).sec = t % 86400 % 60 := rfl

@[simp] theorem utcOf_min (t : ℤ) (yday : Bool) : (utcOf t yday).min = t % 86400 / 60 % 60 := rfl

@[simp] theorem utcOf_hour (t : ℤ) (yday : Bool) : (utcOf t yday).hour = t % 86400 / 3600 := rfl

@[simp] theorem utcOf_wday (t : ℤ) (yday : Bool) :
    (utcOf t yday).wday = (t / 86400 + epochDay + 1) % 7 := rfl

theorem utcOf_date (t : ℤ) (yday : Bool) :
    (utcOf t yday).date = ofDayNumber (t / 86400 + epochDay) := by
  unfold Tm.date utcOf
  simp only [sub_add_cancel]

theorem utcOf_normalised (t : ℤ) (yday : Bool) : (utcOf t yday).Normalised := by
  have hvalid := valid_ofDayNumber (t / 86400 + epochDay)
  have hdate := utcOf_date t yday
  rw [← hdate] at hvalid
  obtain ⟨hmonth, hmonth', hday, hday'⟩ := hvalid
  have hmon : (utcOf t yday).date.month = (utcOf t yday).mon + 1 := rfl
  refine ⟨?_, ?_, ?_, ⟨by omega, by omega⟩, ⟨hday, hday'⟩, ?_⟩
  · rw [utcOf_sec]
    omega
  · rw [utcOf_min]
    omega
  · rw [utcOf_hour]
    omega
  · rw [utcOf_wday]
    omega

theorem secondOf_utcOf (t : ℤ) (yday : Bool) : (utcOf t yday).secondOf = t := by
  have hnumber := dayNumber_ofDayNumber (t / 86400 + epochDay)
  rw [← utcOf_date t yday] at hnumber
  unfold Tm.secondOf
  rw [hnumber, utcOf_hour, utcOf_min, utcOf_sec]
  omega

/-- The time of the clock of a second is determined by the second. -/
theorem utcOf_secondOf {a : Tm} (ha : a.ValidTime) (yday : Bool) :
    (utcOf a.secondOf yday).SameTime a := by
  have hdiv := Tm.secondOf_ediv ha
  obtain ⟨hdate, hhour, hmin, hsec⟩ := ha
  have hmod : a.secondOf % 86400 = a.hour * 3600 + a.min * 60 + a.sec := by
    unfold Tm.secondOf
    omega
  refine ⟨?_, ?_, ?_, ?_⟩
  · rw [utcOf_date, hdiv, sub_add_cancel, ofDayNumber_dayNumber hdate]
  · rw [utcOf_hour, hmod]
    omega
  · rw [utcOf_min, hmod]
    omega
  · rw [utcOf_sec, hmod]
    omega

/-- **A valid time of the range is turned into its second**, by both overloads. -/
theorem fromUtcTime_eq {a : Tm} (ha : a.ValidTime) (h₀ : 0 ≤ dayNumber a.date)
    (h : dayNumber a.date ≤ 536838867) :
    fromUtcTimeOf a.date.year a.date.month a.date.day a.hour a.min a.sec = some a.secondOf ∧
      fromUtcTime a = some a.secondOf := by
  have hof := fromUtcTimeOf_eq ha.date h₀ h ha.hour ha.min ha.sec
  refine ⟨hof, ?_⟩
  have hyear := Tm.year_range ha h₀ h
  have hmonth := ha.date.month_pos
  have hmonth' := ha.date.month_le
  have hmon : a.date.month = a.mon + 1 := rfl
  unfold fromUtcTime
  rw [add_32 (by omega) (by omega), add_32 (by omega) (by omega)]
  exact hof

theorem utcRange_secondOf {a : Tm} (ha : a.ValidTime) (h₀ : 0 ≤ dayNumber a.date)
    (h : dayNumber a.date ≤ 536838867) : UtcRange a.secondOf := by
  unfold UtcRange
  rw [Tm.secondOf_ediv ha, sub_add_cancel]
  exact ⟨h₀, h⟩

/-- **The conversions between seconds and UTC times undo each other.**  A second is turned into
normalised fields, with the day of the week going on by one a day and the day of the year as in the
calendar, and the fields into the second; a valid date and time of the clock is turned into a
second, and that into the same date and time; and both conversions keep the order. -/
theorem utc_roundTrip :
    (∀ t yday, UtcRange t → ∃ utc, toUtcTime t yday = some utc ∧ fromUtcTime utc = some t ∧
      utc.Normalised ∧ (yday = true → utc.yday = utc.date.dayOfYear)) ∧
    (∀ t t' yday yday' utc utc', UtcRange t → UtcRange t' →
      toUtcTime t yday = some utc → toUtcTime t' yday' = some utc' →
      utc'.wday = (utc.wday + (t' / 86400 - t / 86400)) % 7 ∧ (t < t' → utc.Before utc')) ∧
    (∀ a : Tm, a.ValidTime → 0 ≤ dayNumber a.date → dayNumber a.date ≤ 536838867 →
      ∃ t, fromUtcTimeOf a.date.year a.date.month a.date.day a.hour a.min a.sec = some t ∧
        fromUtcTime a = some t ∧ UtcRange t ∧
        ∀ yday, ∃ utc, toUtcTime t yday = some utc ∧ utc.SameTime a) ∧
    (∀ a b : Tm, a.ValidTime → b.ValidTime →
      0 ≤ dayNumber a.date → dayNumber a.date ≤ 536838867 →
      0 ≤ dayNumber b.date → dayNumber b.date ≤ 536838867 → a.Before b →
      ∃ t t', fromUtcTime a = some t ∧ fromUtcTime b = some t' ∧ t < t') := by
  refine ⟨?_, ?_, ?_, ?_⟩
  · intro t yday h
    have hnumber := dayNumber_ofDayNumber (t / 86400 + epochDay)
    rw [← utcOf_date t yday] at hnumber
    have hfrom := (fromUtcTime_eq (utcOf_normalised t yday).validTime
      (by rw [hnumber]; exact h.1) (by rw [hnumber]; exact h.2)).2
    rw [secondOf_utcOf] at hfrom
    refine ⟨utcOf t yday, toUtcTime_eq h yday, hfrom, utcOf_normalised t yday, fun hyday => ?_⟩
    rw [utcOf_date]
    exact if_pos hyday
  · intro t t' yday yday' utc utc' h h' hutc hutc'
    rw [toUtcTime_eq h, Option.some.injEq] at hutc
    rw [toUtcTime_eq h', Option.some.injEq] at hutc'
    subst hutc hutc'
    refine ⟨?_, fun hlt => ?_⟩
    · rw [utcOf_wday, utcOf_wday]
      omega
    · rw [Tm.before_iff (utcOf_normalised t yday).validTime (utcOf_normalised t' yday').validTime,
        secondOf_utcOf, secondOf_utcOf]
      exact hlt
  · intro a ha h₀ h
    obtain ⟨hof, hfrom⟩ := fromUtcTime_eq ha h₀ h
    have hrange := utcRange_secondOf ha h₀ h
    exact ⟨a.secondOf, hof, hfrom, hrange,
      fun yday => ⟨_, toUtcTime_eq hrange yday, utcOf_secondOf ha yday⟩⟩
  · intro a b ha hb h₀ h h₀' h' hbefore
    exact ⟨a.secondOf, b.secondOf, (fromUtcTime_eq ha h₀ h).2, (fromUtcTime_eq hb h₀' h').2,
      (Tm.before_iff ha hb).1 hbefore⟩

end TimeZone

end G5
