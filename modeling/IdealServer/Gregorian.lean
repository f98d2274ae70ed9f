import Mathlib.Algebra.Ring.Int.Defs
import Mathlib.Data.Int.Basic
import Mathlib.Tactic.Common
import Mathlib.Tactic.IntervalCases

/-! The proleptic Gregorian calendar: its dates in order, and their numbers. -/
namespace Gregorian

structure YearMonthDay where
  year : ℤ
  month : ℤ
  day : ℤ
deriving DecidableEq, Repr

def LeapYear (year : ℤ) : Prop := year%4 = 0 ∧ (year%100 ≠ 0 ∨ year%400 = 0)

instance (year : ℤ) : Decidable (LeapYear year) := inferInstanceAs (Decidable (_ ∧ _))

def leapDay (year : ℤ) : ℤ := if LeapYear year then 1 else 0

def monthLengths (year : ℤ) : List ℤ := [31, 28+leapDay year, 31, 30, 31, 30, 31, 31, 30, 31, 30, 31]

def monthLength (year month : ℤ) : ℤ := (monthLengths year).getD (month-1).toNat 0

def daysBeforeMonth (year month : ℤ) : ℤ := ((monthLengths year).take (month-1).toNat).sum

/-- The days from the first day of the year 1 to the first day of `year`. -/
def daysBeforeYear (year : ℤ) : ℤ := 365*(year-1)+(year-1)/4-(year-1)/100+(year-1)/400

namespace YearMonthDay

structure Valid (d : YearMonthDay) : Prop where
  month_pos : 1 ≤ d.month
  month_le : d.month ≤ 12
  day_pos : 1 ≤ d.day
  day_le : d.day ≤ monthLength d.year d.month

/-- The day of the year, counted from 0. -/
def yearDay (d : YearMonthDay) : ℤ := daysBeforeMonth d.year d.month+(d.day-1)

/-- The number of the day, where the first day of the year 1 has the number 1. -/
def ordinal (d : YearMonthDay) : ℤ := daysBeforeYear d.year+d.yearDay+1

def next (d : YearMonthDay) : YearMonthDay :=
  if d.day < monthLength d.year d.month then { d with day := d.day+1 }
  else if d.month < 12 then ⟨d.year, d.month+1, 1⟩
  else ⟨d.year+1, 1, 1⟩

/-- The order of the calendar. -/
def Before (d e : YearMonthDay) : Prop :=
  d.year < e.year ∨ d.year = e.year ∧ (d.month < e.month ∨ d.month = e.month ∧ d.day < e.day)

end YearMonthDay

theorem leapDay_cases (year : ℤ) : leapDay year = 0 ∨ leapDay year = 1 := by
  rw [leapDay]
  by_cases h : LeapYear year
  · exact .inr (if_pos h)
  · exact .inl (if_neg h)

/-- The leap rule, by the quotients that count the leap years. -/
theorem leapDay_eq (year : ℤ) : leapDay year =
    year/4-(year-1)/4-(year/100-(year-1)/100)+(year/400-(year-1)/400) := by
  rw [leapDay]
  by_cases h : LeapYear year
  · rw [if_pos h]
    simp only [LeapYear] at h
    omega
  · rw [if_neg h]
    simp only [LeapYear] at h
    omega

theorem daysBeforeYear_add_leapDay (year : ℤ) :
    daysBeforeYear year+leapDay year = 365*(year-1)+year/4-year/100+year/400 := by
  have hleap := leapDay_eq year
  simp only [daysBeforeYear]
  omega

theorem daysBeforeYear_succ (year : ℤ) :
    daysBeforeYear (year+1) = daysBeforeYear year+365+leapDay year := by
  have hleap := leapDay_eq year
  simp only [daysBeforeYear]
  omega

theorem daysBeforeYear_le {y z : ℤ} (h : y ≤ z) : daysBeforeYear y ≤ daysBeforeYear z := by
  simp only [daysBeforeYear]
  omega

/-- The months from March on, by one quotient; the first day after the year is that of a month 13. -/
theorem daysBeforeMonth_eq (year : ℤ) {month : ℤ} (h1 : 1 ≤ month) (h13 : month ≤ 13) :
    daysBeforeMonth year month =
      if month ≤ 2 then 31*(month-1) else 59+leapDay year+(153*(month-3)+2)/5 := by
  interval_cases month
  all_goals simp only [daysBeforeMonth, monthLengths, Int.reduceSub, Int.reduceToNat, List.take_zero,
    List.take_succ_cons, List.sum_cons, List.sum_nil, Int.reduceLE, if_true, if_false, Int.reduceMul]
  all_goals omega

/-- A month ends where the next one begins. -/
theorem daysBeforeMonth_succ (year : ℤ) {month : ℤ} (h1 : 1 ≤ month) (h12 : month ≤ 12) :
    daysBeforeMonth year (month+1) = daysBeforeMonth year month+monthLength year month := by
  interval_cases month
  all_goals simp only [daysBeforeMonth, monthLength, monthLengths, Int.reduceSub, Int.reduceAdd,
    Int.reduceToNat, List.take_zero, List.take_succ_cons, List.sum_cons, List.sum_nil,
    List.getD_cons_zero, List.getD_cons_succ]
  all_goals omega

theorem daysBeforeMonth_le (year : ℤ) {m n : ℤ} (h1 : 1 ≤ m) (h : m ≤ n) (h13 : n ≤ 13) :
    daysBeforeMonth year m ≤ daysBeforeMonth year n := by
  rw [daysBeforeMonth_eq year h1 (by omega), daysBeforeMonth_eq year (by omega) h13]
  have hleap := leapDay_cases year
  split
  · split
    all_goals omega
  · rw [if_neg (by omega)]
    omega

theorem monthLength_bounds (year : ℤ) {month : ℤ} (h1 : 1 ≤ month) (h12 : month ≤ 12) :
    28 ≤ monthLength year month ∧ monthLength year month ≤ 31 := by
  have hleap := leapDay_cases year
  interval_cases month
  all_goals simp only [monthLength, monthLengths, Int.reduceSub, Int.reduceToNat, List.getD_cons_zero,
    List.getD_cons_succ]
  all_goals omega

theorem daysBeforeMonth_of_le (year : ℤ) {month : ℤ} (h1 : 1 ≤ month) (h2 : month ≤ 2) :
    daysBeforeMonth year month = 31*(month-1) := by
  rw [daysBeforeMonth_eq year h1 (by omega), if_pos h2]

theorem daysBeforeMonth_of_ge (year : ℤ) {month : ℤ} (h3 : 3 ≤ month) (h13 : month ≤ 13) :
    daysBeforeMonth year month = 59+leapDay year+(153*(month-3)+2)/5 := by
  rw [daysBeforeMonth_eq year (by omega) h13, if_neg (by omega)]

theorem monthLength_of_ge (year : ℤ) {month : ℤ} (h3 : 3 ≤ month) (h12 : month ≤ 12) :
    monthLength year month = (153*(month-2)+2)/5-(153*(month-3)+2)/5 := by
  have hsucc := daysBeforeMonth_succ year (by omega) h12
  rw [daysBeforeMonth_of_ge year h3 (by omega),
    daysBeforeMonth_of_ge year (show 3 ≤ month+1 by omega) (by omega)] at hsucc
  omega

namespace YearMonthDay
variable {d e : YearMonthDay}

/-- The days of a month lie between its first day and that of the next month. -/
theorem Valid.yearDay_bounds (h : d.Valid) : daysBeforeMonth d.year d.month ≤ d.yearDay ∧
    d.yearDay < daysBeforeMonth d.year (d.month+1) := by
  have hday := h.day_pos
  have hlast := h.day_le
  rw [daysBeforeMonth_succ d.year h.month_pos h.month_le, yearDay]
  omega

theorem Valid.yearDay_range (h : d.Valid) : 0 ≤ d.yearDay ∧ d.yearDay < 365+leapDay d.year := by
  have hbounds := h.yearDay_bounds
  have hpos := h.month_pos
  have hle := h.month_le
  have hfirst := daysBeforeMonth_le d.year (m := 1) (by omega) hpos (by omega)
  have hlast := daysBeforeMonth_le d.year (m := d.month+1) (by omega) (n := 13) (by omega) (by omega)
  rw [daysBeforeMonth_of_le d.year (by omega) (by omega)] at hfirst
  rw [daysBeforeMonth_of_ge d.year (show (3 : ℤ) ≤ 13 by omega) (by omega)] at hlast
  omega

theorem yearStart_valid (year : ℤ) : Valid ⟨year, 1, 1⟩ := by
  refine ⟨?_, ?_, ?_, ?_⟩
  · show (1 : ℤ) ≤ 1
    omega
  · show (1 : ℤ) ≤ 12
    omega
  · show (1 : ℤ) ≤ 1
    omega
  · show (1 : ℤ) ≤ 31
    omega

/-- The day of the year, as a difference to the first of January. -/
theorem ordinal_sub_yearStart (d : YearMonthDay) : d.ordinal-ordinal ⟨d.year, 1, 1⟩ = d.yearDay := by
  have hstart : yearDay ⟨d.year, 1, 1⟩ = 0 := rfl
  rw [ordinal, ordinal, hstart]
  dsimp only
  omega

/-- The days of a year lie behind those of the years before it. -/
theorem Valid.ordinal_bounds (h : d.Valid) :
    daysBeforeYear d.year < d.ordinal ∧ d.ordinal ≤ daysBeforeYear (d.year+1) := by
  have hrange := h.yearDay_range
  rw [daysBeforeYear_succ, ordinal]
  omega

theorem ordinal_lt (hd : d.Valid) (he : e.Valid) (h : d.Before e) : d.ordinal < e.ordinal := by
  rcases h with hyear | ⟨hyear,hmonth | ⟨hmonth,hday⟩⟩
  · have hlast := hd.ordinal_bounds.2
    have hfirst := he.ordinal_bounds.1
    have hle := daysBeforeYear_le (show d.year+1 ≤ e.year by omega)
    omega
  · have hlast := hd.yearDay_bounds.2
    have hfirst := he.yearDay_bounds.1
    have hpos := hd.month_pos
    have hmax := he.month_le
    have hle := daysBeforeMonth_le e.year (show 1 ≤ d.month+1 by omega)
      (show d.month+1 ≤ e.month by omega) (by omega)
    rw [hyear] at hlast
    rw [ordinal, ordinal, hyear]
    omega
  · rw [ordinal, ordinal, yearDay, yearDay, hyear, hmonth]
    omega

theorem before_trichotomy (d e : YearMonthDay) : d.Before e ∨ d = e ∨ e.Before d := by
  cases d with
  | mk y m n =>
    cases e with
    | mk y' m' n' =>
      simp only [Before, mk.injEq]
      omega

/-- The numbers are in the order of the calendar. -/
theorem ordinal_lt_iff (hd : d.Valid) (he : e.Valid) : d.ordinal < e.ordinal ↔ d.Before e := by
  constructor
  · intro h
    rcases before_trichotomy d e with hbefore | hsame | hafter
    · exact hbefore
    · rw [hsame] at h
      omega
    · have hgt := ordinal_lt he hd hafter
      omega
  · exact ordinal_lt hd he

theorem ordinal_inj (hd : d.Valid) (he : e.Valid) (h : d.ordinal = e.ordinal) : d = e := by
  rcases before_trichotomy d e with hbefore | hsame | hafter
  · have hlt := ordinal_lt hd he hbefore
    omega
  · exact hsame
  · have hlt := ordinal_lt he hd hafter
    omega

theorem Valid.next (h : d.Valid) : d.next.Valid := by
  have hpos := h.month_pos
  have hle := h.month_le
  have hday := h.day_pos
  rw [YearMonthDay.next]
  by_cases hsame : d.day < monthLength d.year d.month
  · rw [if_pos hsame]
    refine ⟨hpos, hle, ?_, ?_⟩
    · show 1 ≤ d.day+1
      omega
    · show d.day+1 ≤ monthLength d.year d.month
      omega
  · rw [if_neg hsame]
    by_cases hmonth : d.month < 12
    · rw [if_pos hmonth]
      have hlength := monthLength_bounds d.year (show 1 ≤ d.month+1 by omega) (by omega)
      refine ⟨?_, ?_, Int.le_refl 1, ?_⟩
      · show 1 ≤ d.month+1
        omega
      · show d.month+1 ≤ 12
        omega
      · show 1 ≤ monthLength d.year (d.month+1)
        omega
    · rw [if_neg hmonth]
      have hlength := monthLength_bounds (d.year+1) (Int.le_refl 1) (by omega)
      refine ⟨Int.le_refl 1, ?_, Int.le_refl 1, ?_⟩
      · show (1 : ℤ) ≤ 12
        omega
      · show 1 ≤ monthLength (d.year+1) 1
        omega

theorem next_year (d : YearMonthDay) : d.next.year = d.year ∨ d.next.year = d.year+1 := by
  rw [YearMonthDay.next]
  split
  · exact .inl rfl
  · split
    · exact .inl rfl
    · exact .inr rfl

theorem Valid.ordinal_next (h : d.Valid) : d.next.ordinal = d.ordinal+1 := by
  have hlast := h.day_le
  rw [YearMonthDay.next]
  by_cases hsame : d.day < monthLength d.year d.month
  · rw [if_pos hsame]
    simp only [ordinal, yearDay]
    omega
  · have hsucc := daysBeforeMonth_succ d.year h.month_pos h.month_le
    rw [if_neg hsame]
    by_cases hmonth : d.month < 12
    · rw [if_pos hmonth]
      simp only [ordinal, yearDay]
      omega
    · -- the last day of the year
      have hdec : d.month = 12 := by
        have hle := h.month_le
        omega
      rw [if_neg hmonth]
      simp only [ordinal, yearDay, daysBeforeYear_succ]
      rw [hdec] at hsucc hsame hlast ⊢
      rw [daysBeforeMonth_of_ge d.year (show (3 : ℤ) ≤ 12+1 by omega) (by omega)] at hsucc
      rw [daysBeforeMonth_of_le (d.year+1) (Int.le_refl 1) (by omega)]
      omega

end YearMonthDay

end Gregorian
