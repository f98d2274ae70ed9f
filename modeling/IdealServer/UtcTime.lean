import IdealServer.Basics
import IdealServer.Date

/-! `TimeZone::toUtcTime` and `TimeZone::fromUtcTime`: the civil date and the time of day of a second. -/
namespace IdealServer

open Checked Gregorian

def kSecondsPerDay : ℤ := 24*60*60

/-- `struct tm`. The zone is the text that `tm_zone` points to. -/
structure Tm where
  sec : ℤ
  min : ℤ
  hour : ℤ
  mday : ℤ
  mon : ℤ
  year : ℤ
  wday : ℤ
  yday : ℤ
  isdst : ℤ
  gmtoff : ℤ
  zone : Bytes
deriving DecidableEq, Repr

namespace Tm

/-- What `memset` leaves. -/
def zero : Tm := ⟨0, 0, 0, 0, 0, 0, 0, 0, 0, 0, []⟩

/-- Years are counted from 1900 and months from 0. -/
def date (tm : Tm) : YearMonthDay := ⟨tm.year+1900, tm.mon+1, tm.mday⟩

def secondsInDay (tm : Tm) : ℤ := tm.hour*3600+tm.min*60+tm.sec

/-- The same date and the same time of day. -/
structure SameClock (s t : Tm) : Prop where
  date : s.date = t.date
  hour : s.hour = t.hour
  min : s.min = t.min
  sec : s.sec = t.sec

/-- The order of the clock: by the date, the hour, the minute and the second. -/
def Earlier (s t : Tm) : Prop := s.date.Before t.date ∨ s.date = t.date ∧ (s.hour < t.hour ∨
  s.hour = t.hour ∧ (s.min < t.min ∨ s.min = t.min ∧ s.sec < t.sec))

end Tm

def fillHMS (seconds : ℤ) (utc : Tm) : Calc Tm := do
  let sec ← Checked.toInt (← rem seconds 60)
  let minutes ← div seconds 60
  let min ← Checked.toInt (← rem minutes 60)
  let hour ← Checked.toInt (← div minutes 60)
  return { utc with sec := sec, min := min, hour := hour }

namespace TimeZone

def toUtcTime (secondsSinceEpoch : ℤ) (yday : Bool) : Calc Tm := do
  let seconds ← Checked.toInt (← rem secondsSinceEpoch kSecondsPerDay)
  let days ← Checked.toInt (← div secondsSinceEpoch kSecondsPerDay)
  -- before 1970 both are rounded up
  let split ← (if seconds < 0 then (do
      let seconds ← int (seconds+kSecondsPerDay)
      let days ← int (days-1)
      return (seconds, days))
    else pure (seconds, days) : Calc (ℤ × ℤ))
  let utc ← fillHMS (← toUnsigned split.1) { Tm.zero with zone := ascii "GMT" }
  let date : Date := ⟨← int (split.2+(← Date.kJulianDayOf1970_01_01))⟩
  let ymd ← date.yearMonthDay
  let year ← int (ymd.year-1900)
  let mon ← int (ymd.month-1)
  let wday ← date.weekDay
  let utc := { utc with year := year, mon := mon, mday := ymd.day, wday := wday }
  if yday then
    let startOfYear ← Date.ofYearMonthDay ymd.year 1 1
    return { utc with yday := ← int (date.julianDayNumber-startOfYear.julianDayNumber) }
  else return utc

/-- The overload for six numbers. -/
def fromCivilTime (year month day hour minute second : ℤ) : Calc ℤ := do
  let date ← Date.ofYearMonthDay year month day
  let secondsInDay ← int ((← int ((← int (hour*3600))+(← int (minute*60))))+second)
  let days ← int (date.julianDayNumber-(← Date.kJulianDayOf1970_01_01))
  long ((← long (days*kSecondsPerDay))+secondsInDay)

def fromUtcTime (utc : Tm) : Calc ℤ := do
  fromCivilTime (← int (utc.year+1900)) (← int (utc.mon+1)) utc.mday utc.hour utc.min utc.sec

end TimeZone

/-- The Julian day number of the day that has the second. -/
def julianDayOfTime (t : ℤ) : ℤ := t/86400+2440588

/-- The seconds whose days have a number from 0 to 500000000. -/
def TimeInRange (t : ℤ) : Prop := 0 ≤ julianDayOfTime t ∧ julianDayOfTime t ≤ 500000000

instance (t : ℤ) : Decidable (TimeInRange t) := inferInstanceAs (Decidable (_ ∧ _))

/-- The fields say which day and which second of the day it is. Days of the week are counted from Sunday,
and the first of 1970 was a Thursday. -/
structure Tm.Shows (tm : Tm) (t : ℤ) : Prop where
  hour_range : 0 ≤ tm.hour ∧ tm.hour ≤ 23
  min_range : 0 ≤ tm.min ∧ tm.min ≤ 59
  sec_range : 0 ≤ tm.sec ∧ tm.sec ≤ 59
  mon_range : 0 ≤ tm.mon ∧ tm.mon ≤ 11
  valid : tm.date.Valid
  day : julianDay tm.date = julianDayOfTime t
  second : tm.secondsInDay = t%86400
  wday : tm.wday = (t/86400+4)%7
  yday : tm.yday = tm.date.yearDay

/-- `gmtime_r`, for seconds of either sign. -/
def gmtime (t : ℤ) : Tm where
  sec := t%86400%60
  min := t%86400/60%60
  hour := t%86400/60/60
  mday := (civilOfDay (julianDayOfTime t)).day
  mon := (civilOfDay (julianDayOfTime t)).month-1
  year := (civilOfDay (julianDayOfTime t)).year-1900
  wday := (t/86400+4)%7
  yday := (civilOfDay (julianDayOfTime t)).yearDay
  isdst := 0
  gmtoff := 0
  zone := ascii "GMT"

/-- `timegm`, for fields in their ranges. -/
def timegm (tm : Tm) : ℤ := (julianDay tm.date-2440588)*86400+tm.secondsInDay

theorem date_gmtime (t : ℤ) : (gmtime t).date = civilOfDay (julianDayOfTime t) := by
  rw [Tm.date, gmtime]
  dsimp only
  rw [Int.sub_add_cancel, Int.sub_add_cancel]

theorem secondsInDay_gmtime (t : ℤ) : (gmtime t).secondsInDay = t%86400 := by
  rw [Tm.secondsInDay, gmtime]
  dsimp only
  omega

/-- The fields of `gmtime` are those of its second, and the second is found again. -/
theorem gmtime_shows (t : ℤ) : (gmtime t).Shows t := by
  have hdate := date_gmtime t
  have hvalid := civilOfDay_valid (julianDayOfTime t)
  have hmonth : 1 ≤ (civilOfDay (julianDayOfTime t)).month ∧
      (civilOfDay (julianDayOfTime t)).month ≤ 12 := ⟨hvalid.month_pos, hvalid.month_le⟩
  refine ⟨?_, ?_, ?_, ?_, ?_, ?_, secondsInDay_gmtime t, rfl, ?_⟩
  · rw [gmtime]
    dsimp only
    omega
  · rw [gmtime]
    dsimp only
    omega
  · rw [gmtime]
    dsimp only
    omega
  · rw [gmtime]
    dsimp only
    omega
  · rw [hdate]
    exact hvalid
  · rw [hdate, julianDay_civilOfDay]
  · rw [hdate]
    rfl

theorem timegm_gmtime {t : ℤ} {tm : Tm} (h : tm.SameClock (gmtime t)) : timegm tm = t := by
  have hseconds : tm.secondsInDay = t%86400 := by
    rw [← secondsInDay_gmtime, Tm.secondsInDay, Tm.secondsInDay, h.hour, h.min, h.sec]
  rw [timegm, h.date, date_gmtime, julianDay_civilOfDay, hseconds, julianDayOfTime]
  omega

section Rules
variable {P : Event → Prop}

theorem yields_kJulianDay (hP : ∀ x, 0 ≤ x → P (.division x)) :
    Date.kJulianDayOf1970_01_01.Yields P 2440588 :=
  yields_getJulianDayNumber hP (d := ⟨1970, 1, 1⟩) ⟨by decide, by decide, by decide, by decide⟩
    (by decide) (by decide)

variable (hP : ∀ e, e.Lossless → P e)
include hP

theorem yields_fillHMS {seconds : ℤ} (h0 : 0 ≤ seconds) (h : seconds < 86400) (utc : Tm) :
    (fillHMS seconds utc).Yields P
      { utc with sec := seconds%60, min := seconds/60%60, hour := seconds/60/60 } := by
  have hdivision (x : ℤ) : P (.division x) := hP _ trivial
  have hconversion (x : ℤ) : P (.conversion x x) := hP _ rfl
  rw [fillHMS]
  apply yields_bind (yields_remainder (hdivision _) (by omega) h0)
  apply yields_bind (yields_toInt (by omega) (hconversion _))
  apply yields_bind (yields_quotient (q := seconds/60) (hdivision _) (by omega) (by omega) (by omega))
  apply yields_bind (yields_remainder (hdivision _) (by omega) (by omega))
  apply yields_bind (yields_toInt (by omega) (hconversion _))
  apply yields_bind (yields_quotient (q := seconds/60/60) (hdivision _) (by omega) (by omega) (by omega))
  apply yields_bind (yields_toInt (by omega) (hconversion _))
  exact yields_pure _

end Rules

/-- Truncated division before 1970, and the correction, are division rounded down. -/
theorem split_days {t : ℤ} : (t.tmod 86400 < 0 ∧ t.tmod 86400+86400 = t%86400 ∧
      t.tdiv 86400-1 = t/86400) ∨
    (0 ≤ t.tmod 86400 ∧ t.tmod 86400 = t%86400 ∧ t.tdiv 86400 = t/86400) := by
  by_cases h : 0 ≤ t
  · rw [Int.tmod_eq_emod_of_nonneg h, Int.tdiv_eq_ediv_of_nonneg h]
    omega
  · have hneg : 0 ≤ -t := by omega
    have hmod : t.tmod 86400 = -((-t)%86400) := by
      rw [← Int.tmod_eq_emod_of_nonneg hneg, Int.neg_tmod, Int.neg_neg]
    have hdiv : t.tdiv 86400 = -((-t)/86400) := by
      rw [← Int.tdiv_eq_ediv_of_nonneg hneg, Int.neg_tdiv, Int.neg_neg]
    rw [hmod, hdiv]
    omega

section Breakdown
variable {P : Event → Prop} (hP : ∀ e, e.Lossless → P e)
include hP

/-- In range the fields are those that `gmtime_r` finds. -/
theorem yields_toUtcTime {t : ℤ} (ht : TimeInRange t) :
    (TimeZone.toUtcTime t true).Yields P (gmtime t) := by
  have hdivision (x : ℤ) : P (.division x) := hP _ trivial
  have hconversion (x : ℤ) : P (.conversion x x) := hP _ rfl
  have hnonneg (x : ℤ) (_ : 0 ≤ x) : P (.division x) := hdivision x
  obtain ⟨d,hdef⟩ : ∃ d, d = civilOfDay (julianDayOfTime t) := ⟨_, rfl⟩
  have hd : d.Valid := hdef ▸ civilOfDay_valid _
  have hday : julianDay d = julianDayOfTime t := hdef ▸ julianDay_civilOfDay _
  obtain ⟨hlow,hhigh⟩ := ht
  have hrange : DayInRange (julianDayOfTime t) := ⟨hlow, by omega⟩
  have hyear := year_of_inRange hd (by rwa [hday])
  have hmonth : 1 ≤ d.month ∧ d.month ≤ 12 := ⟨hd.month_pos, hd.month_le⟩
  obtain ⟨e,he,hsame,hdate⟩ := yearMonthDay_of_inRange hnonneg hrange
  have heq : e = d := by
    apply YearMonthDay.ordinal_inj he hd
    simp only [julianDay] at hsame hday
    omega
  rw [heq] at hdate
  have hkJulianDay := yields_kJulianDay hnonneg
  have hstart : (Date.ofYearMonthDay d.year 1 1).Yields P ⟨julianDay ⟨d.year, 1, 1⟩⟩ :=
    yields_ofYearMonthDay hnonneg (YearMonthDay.yearStart_valid d.year) (by dsimp only; omega)
      (by dsimp only; omega)
  have hyday : julianDayOfTime t-julianDay ⟨d.year, 1, 1⟩ = d.yearDay := by
    rw [← hday, julianDay, julianDay, Int.add_sub_add_right, YearMonthDay.ordinal_sub_yearStart]
  have hydayRange := hd.yearDay_range
  have hleap := leapDay_cases d.year
  have hsplit := split_days (t := t)
  have hweekDay : (Date.weekDay ⟨t/86400+2440588⟩).Yields P ((t/86400+4)%7) := by
    have hwday : (julianDayOfTime t+1)%7 = (t/86400+4)%7 := by
      rw [julianDayOfTime]
      omega
    rw [← hwday]
    exact yields_weekDay hnonneg hlow (by rw [julianDayOfTime] at hhigh; omega)
  rw [julianDayOfTime] at hlow hhigh
  rw [TimeZone.toUtcTime, show kSecondsPerDay = 86400 from rfl]
  apply yields_bind (yields_rem (by omega) (hdivision _))
  apply yields_bind (yields_toInt (by omega) (hconversion _))
  apply yields_bind (yields_div (by omega) (hdivision _))
  apply yields_bind (yields_toInt (by omega) (hconversion _))
  apply yields_bind (v := (t%86400, t/86400))
  · rcases hsplit with ⟨hneg,hmod,hdiv⟩ | ⟨hpos,hmod,hdiv⟩
    · rw [if_pos hneg]
      apply yields_bind (yields_int_eq hmod (by omega))
      apply yields_bind (yields_int_eq hdiv (by omega))
      exact yields_pure _
    · rw [if_neg (by omega), hmod, hdiv]
      exact yields_pure _
  clear hsplit
  dsimp only
  apply yields_bind (yields_toUnsigned (by omega) (hconversion _))
  apply yields_bind (yields_fillHMS hP (by omega) (by omega) _)
  apply yields_bind hkJulianDay
  apply yields_bind (yields_int (by omega))
  apply yields_bind hdate
  apply yields_bind (yields_int (by omega))
  apply yields_bind (yields_int (by omega))
  apply yields_bind hweekDay
  rw [if_pos rfl]
  apply yields_bind hstart
  apply yields_bind (yields_int_eq hyday (by omega))
  rw [gmtime, ← hdef]
  exact yields_pure _

theorem yields_fromUtcTime {t : ℤ} {tm : Tm} (ht : TimeInRange t) (h : tm.Shows t) :
    (TimeZone.fromUtcTime tm).Yields P t := by
  have hnonneg (x : ℤ) (_ : 0 ≤ x) : P (.division x) := hP _ trivial
  obtain ⟨hlow,hhigh⟩ := ht
  have hday := h.day
  have hsecond := h.second
  have hyear := year_of_inRange h.valid (by rw [hday]; exact ⟨hlow, by omega⟩)
  have hdate := yields_ofYearMonthDay hnonneg h.valid (by omega) (by omega)
  rw [julianDayOfTime] at hlow hhigh hday
  obtain ⟨hhour0,hhour⟩ := h.hour_range
  obtain ⟨hmin0,hmin⟩ := h.min_range
  obtain ⟨hsec0,hsec⟩ := h.sec_range
  obtain ⟨hmon0,hmon⟩ := h.mon_range
  have hyear1900 : tm.date.year = tm.year+1900 := rfl
  rw [Tm.secondsInDay] at hsecond
  rw [TimeZone.fromUtcTime]
  apply yields_bind (yields_int (by omega))
  apply yields_bind (yields_int (by omega))
  rw [TimeZone.fromCivilTime, show kSecondsPerDay = 86400 from rfl]
  apply yields_bind hdate
  -- the second of the day
  apply yields_bind (yields_int (by omega))
  apply yields_bind (yields_int (by omega))
  apply yields_bind (yields_int (by omega))
  apply yields_bind (yields_int_eq hsecond (by omega))
  -- the day
  apply yields_bind (yields_kJulianDay hnonneg)
  apply yields_bind (yields_int_eq (v := t/86400) (by dsimp only; omega) (by omega))
  apply yields_bind (yields_long (by omega))
  have hsum : t/86400*86400+t%86400 = t := by omega
  rw [hsum]
  exact yields_long (by omega)

end Breakdown

namespace Tm.Shows
variable {tm1 tm2 : Tm} {t1 t2 : ℤ}

/-- Seconds of one day are in the order of the hour, the minute and the second. -/
theorem secondsInDay_lt_iff (h1 : tm1.Shows t1) (h2 : tm2.Shows t2) :
    tm1.secondsInDay < tm2.secondsInDay ↔ tm1.hour < tm2.hour ∨ tm1.hour = tm2.hour ∧
      (tm1.min < tm2.min ∨ tm1.min = tm2.min ∧ tm1.sec < tm2.sec) := by
  have hmin1 := h1.min_range
  have hmin2 := h2.min_range
  have hsec1 := h1.sec_range
  have hsec2 := h2.sec_range
  simp only [secondsInDay]
  omega

theorem lt_iff (h1 : tm1.Shows t1) (h2 : tm2.Shows t2) : t1 < t2 ↔ tm1.Earlier tm2 := by
  have hday1 := h1.day
  have hday2 := h2.day
  have hsecond1 := h1.second
  have hsecond2 := h2.second
  have hbefore := YearMonthDay.ordinal_lt_iff h1.valid h2.valid
  have hdates : tm1.date = tm2.date ↔ tm1.date.ordinal = tm2.date.ordinal :=
    ⟨congrArg _, YearMonthDay.ordinal_inj h1.valid h2.valid⟩
  rw [Earlier, ← hbefore, hdates, ← secondsInDay_lt_iff h1 h2]
  simp only [julianDay, julianDayOfTime] at hday1 hday2
  omega

end Tm.Shows

/-- Every second whose day is in range is broken down into the civil date, the time of day, the day of the
week and the day of the year, no conversion to `int` loses anything, and `fromUtcTime` finds the second
again. Different seconds have different fields, in the order of the seconds. -/
theorem utc_breakdown : (∀ t, TimeInRange t →
      ∃ tm, (TimeZone.toUtcTime t true).Yields Event.Lossless tm ∧ tm.Shows t ∧
        (TimeZone.fromUtcTime tm).Yields Event.Lossless t) ∧
    ∀ t1 t2 tm1 tm2, TimeInRange t1 → TimeInRange t2 →
      (TimeZone.toUtcTime t1 true).Yields Event.Lossless tm1 →
      (TimeZone.toUtcTime t2 true).Yields Event.Lossless tm2 →
      (tm1 = tm2 → t1 = t2) ∧ (t1 < t2 ↔ tm1.Earlier tm2) := by
  have hP (e : Event) (h : e.Lossless) : e.Lossless := h
  refine ⟨?_, ?_⟩
  · intro t ht
    exact ⟨gmtime t, yields_toUtcTime hP ht, gmtime_shows t, yields_fromUtcTime hP ht (gmtime_shows t)⟩
  · intro t1 t2 tm1 tm2 ht1 ht2 hyields1 hyields2
    rw [hyields1.unique (yields_toUtcTime hP ht1), hyields2.unique (yields_toUtcTime hP ht2)]
    refine ⟨?_, (gmtime_shows t1).lt_iff (gmtime_shows t2)⟩
    intro hsame
    have hback := yields_fromUtcTime hP ht1 (gmtime_shows t1)
    rw [hsame] at hback
    exact hback.unique (yields_fromUtcTime hP ht2 (gmtime_shows t2))

/-- The last second of 1969 and the first of 1970. -/
theorem utc_breakdown_epoch : (∃ tm, (TimeZone.toUtcTime (-1) true).Yields Event.Lossless tm ∧
      tm.Shows (-1)) ∧
    ∀ tm1 tm2, (TimeZone.toUtcTime (-1) true).Yields Event.Lossless tm1 →
      (TimeZone.toUtcTime 0 true).Yields Event.Lossless tm2 → tm1.Earlier tm2 := by
  have hbefore : TimeInRange (-1) := by decide
  have hepoch : TimeInRange 0 := by decide
  refine ⟨?_, ?_⟩
  · obtain ⟨tm,hyields,hshows,_⟩ := utc_breakdown.1 (-1) hbefore
    exact ⟨tm, hyields, hshows⟩
  · intro tm1 tm2 h1 h2
    exact ((utc_breakdown.2 (-1) 0 tm1 tm2 hbefore hepoch h1 h2).2).mp (by decide)

end IdealServer
