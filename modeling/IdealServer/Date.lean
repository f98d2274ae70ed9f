import IdealServer.Checked
import IdealServer.Gregorian

/-! `Date`: a day by its Julian day number, and the two formulas between such numbers and the civil
calendar. -/
namespace IdealServer

open Checked Gregorian

def getJulianDayNumber (year month day : ℤ) : Calc ℤ := do
  let a ← div (← int (14-month)) 12
  let y ← int ((← int (year+4800))-a)
  let m ← int ((← int (month+(← int (12*a))))-3)
  let n ← int (day+(← div (← int ((← int (153*m))+2)) 5))
  let n ← int (n+(← int (y*365)))
  let n ← int (n+(← div y 4))
  let n ← int (n-(← div y 100))
  let n ← int (n+(← div y 400))
  int (n-32045)

def getYearMonthDay (julianDayNumber : ℤ) : Calc YearMonthDay := do
  let a ← int (julianDayNumber+32044)
  let b ← div (← int ((← int (4*a))+3)) 146097
  let c ← int (a-(← div (← int (b*146097)) 4))
  let d ← div (← int ((← int (4*c))+3)) 1461
  let e ← int (c-(← div (← int (1461*d)) 4))
  let m ← div (← int ((← int (5*e))+2)) 153
  let day ← int ((← int (e-(← div (← int ((← int (153*m))+2)) 5)))+1)
  let month ← int ((← int (m+3))-(← int (12*(← div m 10))))
  let year ← int ((← int ((← int ((← int (b*100))+d))-4800))+(← div m 10))
  return { year := year, month := month, day := day }

structure Date where
  julianDayNumber : ℤ
deriving DecidableEq, Repr

namespace Date

def kDaysPerWeek : ℤ := 7

def ofYearMonthDay (year month day : ℤ) : Calc Date := do
  return ⟨← getJulianDayNumber year month day⟩

def kJulianDayOf1970_01_01 : Calc ℤ := getJulianDayNumber 1970 1 1

def yearMonthDay (date : Date) : Calc YearMonthDay := getYearMonthDay date.julianDayNumber

def weekDay (date : Date) : Calc ℤ := do rem (← int (date.julianDayNumber+1)) kDaysPerWeek

end Date

/-- The Julian day number of a civil date: the day before the year 1 has the number 1721425. -/
def julianDay (d : YearMonthDay) : ℤ := d.ordinal+1721425

/-- The numbers for which `4 * a + 3` is an `int`. -/
def DayInRange (n : ℤ) : Prop := 0 ≤ n ∧ 4*(n+32044)+3 < 2^31

instance (n : ℤ) : Decidable (DayInRange n) := inferInstanceAs (Decidable (_ ∧ _))

/-- How `getYearMonthDay` cuts the days from a March of the year -4800 on: `b` centuries, `d` years and
`m` months, with `c` days after the centuries and `e` after the years. -/
structure MarchDate (a b c d e m : ℤ) : Prop where
  century : 146097*b ≤ 4*a+3 ∧ 4*a+3 < 146097*b+146097
  inCentury : c = a-(b*146097)/4 ∧ 0 ≤ c ∧ c ≤ 36524 ∧ (c = 36524 → b%4 = 3)
  year : 0 ≤ d ∧ d ≤ 99 ∧ 1461*d ≤ 4*c+3 ∧ 4*c+3 < 1461*d+1461
  inYear : e = c-(1461*d)/4 ∧ 0 ≤ e ∧ e ≤ 365 ∧ (e = 365 → d%4 = 3 ∧ (d = 99 → b%4 = 3))
  month : 0 ≤ m ∧ m ≤ 11 ∧ 153*m ≤ 5*e+2 ∧ 5*e+2 < 153*m+153

theorem quarter_centuries (b : ℤ) : (b*146097)/4 = 36524*b+b/4 := by omega

theorem quarter_years (d : ℤ) : (1461*d)/4 = 365*d+d/4 := by omega

theorem century_bounds {a b c : ℤ} (hb : b = (4*a+3)/146097) (hc : c = a-(b*146097)/4) :
    0 ≤ c ∧ c ≤ 36524 ∧ (c = 36524 → b%4 = 3) := by
  rw [quarter_centuries] at hc
  obtain ⟨p,hp⟩ : ∃ p, p = b/4 := ⟨_, rfl⟩
  have hfour : b = 4*p ∨ b = 4*p+1 ∨ b = 4*p+2 ∨ b = 4*p+3 := by omega
  rcases hfour with rfl | rfl | rfl | rfl
  all_goals omega

theorem year_bounds {c d e : ℤ} (h0 : 0 ≤ c) (hmax : c ≤ 36524) (hd : d = (4*c+3)/1461)
    (he : e = c-(1461*d)/4) :
    0 ≤ d ∧ d ≤ 99 ∧ 0 ≤ e ∧ e ≤ 365 ∧ (e = 365 → d%4 = 3 ∧ (d = 99 → c = 36524)) := by
  rw [quarter_years] at he
  obtain ⟨p,hp⟩ : ∃ p, p = d/4 := ⟨_, rfl⟩
  have hfour : d = 4*p ∨ d = 4*p+1 ∨ d = 4*p+2 ∨ d = 4*p+3 := by omega
  rcases hfour with rfl | rfl | rfl | rfl
  all_goals omega

/-- The civil date; the years begin with January there. -/
def MarchDate.civil (b d e m : ℤ) : YearMonthDay where
  year := b*100+d-4800+m/10
  month := m+3-12*(m/10)
  day := e-(153*m+2)/5+1

/-- The date of a day number of either sign. -/
def civilOfDay (n : ℤ) : YearMonthDay :=
  let b := (4*(n+32044)+3)/146097
  let c := n+32044-(b*146097)/4
  let d := (4*c+3)/1461
  let e := c-(1461*d)/4
  MarchDate.civil b d e ((5*e+2)/153)

theorem exists_marchDate (n : ℤ) : ∃ b c d e m, MarchDate (n+32044) b c d e m ∧
    civilOfDay n = MarchDate.civil b d e m := by
  obtain ⟨a,ha⟩ : ∃ a, a = n+32044 := ⟨_, rfl⟩
  rw [civilOfDay, ← ha]
  obtain ⟨b,hb⟩ : ∃ b, b = (4*a+3)/146097 := ⟨_, rfl⟩
  obtain ⟨c,hc⟩ : ∃ c, c = a-(b*146097)/4 := ⟨_, rfl⟩
  obtain ⟨hc0,hcmax,hlastCentury⟩ := century_bounds hb hc
  obtain ⟨d,hd⟩ : ∃ d, d = (4*c+3)/1461 := ⟨_, rfl⟩
  obtain ⟨e,he⟩ : ∃ e, e = c-(1461*d)/4 := ⟨_, rfl⟩
  obtain ⟨hd0,hdmax,he0,hemax,hlastYear⟩ := year_bounds hc0 hcmax hd he
  obtain ⟨m,hm⟩ : ∃ m, m = (5*e+2)/153 := ⟨_, rfl⟩
  refine ⟨b, c, d, e, m, ⟨?_, ⟨hc, hc0, hcmax, hlastCentury⟩, ?_, ⟨he, he0, hemax, ?_⟩, ?_⟩, ?_⟩
  · clear hc he hm
    omega
  · clear hc he hm hb
    omega
  · intro hlast
    exact ⟨(hlastYear hlast).1, fun h99 => hlastCentury ((hlastYear hlast).2 h99)⟩
  · clear hc he hb hd
    omega
  · rw [hm, he, hd, hc, hb]

namespace MarchDate
variable {a b c d e m : ℤ}

/-- From March to December. -/
theorem civil_of_le (h0 : 0 ≤ m) (h : m ≤ 9) :
    civil b d e m = ⟨b*100+d-4800, m+3, e-(153*m+2)/5+1⟩ := by
  have hquotient : m/10 = 0 := by omega
  rw [civil, hquotient]
  congr 1
  · omega
  · omega

/-- January and February belong to the next civil year. -/
theorem civil_of_ge (h : 10 ≤ m) (hmax : m ≤ 11) :
    civil b d e m = ⟨b*100+d-4799, m-9, e-(153*m+2)/5+1⟩ := by
  have hquotient : m/10 = 1 := by omega
  rw [civil, hquotient]
  congr 1
  · omega
  · omega

/-- The quotients of the year by which the leap years are counted. -/
theorem year_quotients (h : MarchDate a b c d e m) : (b*100+d-4800)/4 = 25*b-1200+d/4 ∧
    (b*100+d-4800)/100 = b-48 ∧ (b*100+d-4800)/400 = b/4-12 := by
  obtain ⟨hd0,hdmax,_⟩ := h.year
  omega

/-- In the year that begins with March only the last day depends on the leap rule. -/
theorem leapDay_of_last (h : MarchDate a b c d e m) (hlast : e = 365) :
    leapDay (b*100+d-4799) = 1 := by
  have hq := h.year_quotients
  obtain ⟨hd0,hdmax,_⟩ := h.year
  obtain ⟨hd3,hb3⟩ := h.inYear.2.2.2 hlast
  rw [leapDay, if_pos]
  by_cases h99 : d = 99
  · have hb := hb3 h99
    refine ⟨by omega, .inr ?_⟩
    omega
  · refine ⟨by omega, .inl ?_⟩
    omega

theorem civil_valid (h : MarchDate a b c d e m) : (civil b d e m).Valid := by
  obtain ⟨hm0,hmmax,hmlow,hmhigh⟩ := h.month
  obtain ⟨_,he0,hemax,_⟩ := h.inYear
  by_cases hspring : m ≤ 9
  · rw [civil_of_le hm0 hspring]
    have hlength := monthLength_of_ge (b*100+d-4800) (show 3 ≤ m+3 by omega) (by omega)
    have hday : 1 ≤ e-(153*m+2)/5+1 ∧
        e-(153*m+2)/5+1 ≤ (153*(m+3-2)+2)/5-(153*(m+3-3)+2)/5 := by
      clear hlength h
      interval_cases m
      all_goals omega
    rw [← hlength] at hday
    exact ⟨by dsimp only; omega, by dsimp only; omega, hday.1, hday.2⟩
  · rw [civil_of_ge (by omega) hmmax]
    by_cases hjan : m = 10
    · rw [hjan] at hmlow hmhigh ⊢
      have hlength : monthLength (b*100+d-4799) (10-9) = 31 := rfl
      refine ⟨?_, ?_, ?_, ?_⟩
      all_goals
        dsimp only
        omega
    · -- the last day of February is one of a leap year
      obtain rfl : m = 11 := by omega
      have hlength : monthLength (b*100+d-4799) (11-9) = 28+leapDay (b*100+d-4799) := rfl
      have hleap := leapDay_cases (b*100+d-4799)
      have hlast := h.leapDay_of_last
      refine ⟨?_, ?_, ?_, ?_⟩
      all_goals
        dsimp only
        omega

/-- The civil date has the number that was cut. -/
theorem julianDay_civil (h : MarchDate a b c d e m) : julianDay (civil b d e m) = a-32044 := by
  obtain ⟨hm0,hmmax,_,_⟩ := h.month
  have hinYear := h.inYear.1
  have hinCentury := h.inCentury.1
  obtain ⟨hq4,hq100,hq400⟩ := h.year_quotients
  rw [quarter_years] at hinYear
  rw [quarter_centuries] at hinCentury
  by_cases hspring : m ≤ 9
  · rw [civil_of_le hm0 hspring]
    have hyears := daysBeforeYear_add_leapDay (b*100+d-4800)
    rw [hq4, hq100, hq400] at hyears
    simp only [julianDay, YearMonthDay.ordinal, YearMonthDay.yearDay]
    rw [daysBeforeMonth_of_ge _ (by omega) (by omega), show m+3-3 = m by omega]
    omega
  · rw [civil_of_ge (by omega) hmmax]
    have hyears : daysBeforeYear (b*100+d-4799) = 365*(b*100+d-4800)+(25*b-1200+d/4)-(b-48)+(b/4-12) := by
      rw [daysBeforeYear, show b*100+d-4799-1 = b*100+d-4800 by omega, hq4, hq100, hq400]
    have hmonths : (153*m+2)/5 = 306+31*(m-10) := by omega
    simp only [julianDay, YearMonthDay.ordinal, YearMonthDay.yearDay]
    rw [daysBeforeMonth_of_le _ (by omega) (by omega), hyears, hmonths]
    omega

end MarchDate

theorem civilOfDay_valid (n : ℤ) : (civilOfDay n).Valid := by
  obtain ⟨b,c,d,e,m,hparts,hcivil⟩ := exists_marchDate n
  rw [hcivil]
  exact hparts.civil_valid

theorem julianDay_civilOfDay (n : ℤ) : julianDay (civilOfDay n) = n := by
  obtain ⟨b,c,d,e,m,hparts,hcivil⟩ := exists_marchDate n
  rw [hcivil, hparts.julianDay_civil, Int.add_sub_cancel]

section Formulas
variable {P : Event → Prop} (hP : ∀ x, 0 ≤ x → P (.division x))
include hP

theorem yields_getYearMonthDay {n b c d e m : ℤ} (hn : DayInRange n)
    (h : MarchDate (n+32044) b c d e m) :
    (getYearMonthDay n).Yields P (MarchDate.civil b d e m) := by
  obtain ⟨hn0,hnmax⟩ := hn
  obtain ⟨hblow,hbhigh⟩ := h.century
  have hb0 : 0 ≤ b := by omega
  obtain ⟨hc,hc0,hcmax,_⟩ := h.inCentury
  obtain ⟨hd0,hdmax,hdlow,hdhigh⟩ := h.year
  obtain ⟨he,he0,hemax,_⟩ := h.inYear
  obtain ⟨hm0,hmmax,hmlow,hmhigh⟩ := h.month
  clear h
  rw [getYearMonthDay]
  -- the century
  apply yields_bind (yields_int (by omega))
  apply yields_bind (yields_int (by omega))
  apply yields_bind (yields_int (by omega))
  apply yields_bind (yields_quotient (q := b) (hP _ (by omega)) (by omega) hb0 (by omega))
  apply yields_bind (yields_int (by omega))
  apply yields_bind (yields_quotient (q := b*146097/4) (hP _ (by omega)) (by omega) (by omega) (by omega))
  apply yields_bind (yields_int_eq hc.symm (by omega))
  -- the year
  apply yields_bind (yields_int (by omega))
  apply yields_bind (yields_int (by omega))
  apply yields_bind (yields_quotient (q := d) (hP _ (by omega)) (by omega) hd0 (by omega))
  apply yields_bind (yields_int (by omega))
  apply yields_bind (yields_quotient (q := 1461*d/4) (hP _ (by omega)) (by omega) (by omega) (by omega))
  apply yields_bind (yields_int_eq he.symm (by omega))
  clear hc he hdlow hdhigh
  -- the month and the day
  apply yields_bind (yields_int (by omega))
  apply yields_bind (yields_int (by omega))
  apply yields_bind (yields_quotient (q := m) (hP _ (by omega)) (by omega) hm0 (by omega))
  apply yields_bind (yields_int (by omega))
  apply yields_bind (yields_int (by omega))
  apply yields_bind (yields_quotient (q := (153*m+2)/5) (hP _ (by omega)) (by omega) (by omega) (by omega))
  apply yields_bind (yields_int (by omega))
  apply yields_bind (yields_int (by omega))
  apply yields_bind (yields_int (by omega))
  apply yields_bind (yields_quotient (q := m/10) (hP _ (by omega)) (by omega) (by omega) (by omega))
  apply yields_bind (yields_int (by omega))
  apply yields_bind (yields_int (by omega))
  -- the civil year
  apply yields_bind (yields_int (by omega))
  apply yields_bind (yields_int (by omega))
  apply yields_bind (yields_int (by omega))
  apply yields_bind (yields_quotient (q := m/10) (hP _ (by omega)) (by omega) (by omega) (by omega))
  apply yields_bind (yields_int (by omega))
  exact yields_pure _

/-- The formula with the year from March on, `y`, and the month in it, `m`. -/
theorem yields_formula {year month day a y m : ℤ} (hmonth : 1 ≤ month ∧ month ≤ 12)
    (ha : 0 ≤ a ∧ 12*a ≤ 14-month ∧ 14-month < 12*a+12) (hy : y = year+4800-a)
    (hm : m = month+12*a-3) (hy0 : 0 ≤ y) (hymax : y ≤ 5000000) (hday : 1 ≤ day ∧ day ≤ 31) :
    (getJulianDayNumber year month day).Yields P
      (day+(153*m+2)/5+y*365+y/4-y/100+y/400-32045) := by
  have hm0 : 0 ≤ m := by omega
  have hmmax : m ≤ 11 := by omega
  rw [getJulianDayNumber]
  apply yields_bind (yields_int (by omega))
  apply yields_bind (yields_quotient (q := a) (hP _ (by omega)) (by omega) ha.1 (by omega))
  apply yields_bind (yields_int (by omega))
  apply yields_bind (yields_int_eq (v := y) (by omega) (by omega))
  apply yields_bind (yields_int (by omega))
  apply yields_bind (yields_int (by omega))
  apply yields_bind (yields_int_eq (v := m) (by omega) (by omega))
  clear hy hm ha
  apply yields_bind (yields_int (by omega))
  apply yields_bind (yields_int (by omega))
  apply yields_bind (yields_quotient (q := (153*m+2)/5) (hP _ (by omega)) (by omega) (by omega) (by omega))
  apply yields_bind (yields_int (by omega))
  -- the sum
  apply yields_bind (yields_int (by omega))
  apply yields_bind (yields_int (by omega))
  apply yields_bind (yields_quotient (q := y/4) (hP _ hy0) (by omega) (by omega) (by omega))
  apply yields_bind (yields_int (by omega))
  apply yields_bind (yields_quotient (q := y/100) (hP _ hy0) (by omega) (by omega) (by omega))
  apply yields_bind (yields_int (by omega))
  apply yields_bind (yields_quotient (q := y/400) (hP _ hy0) (by omega) (by omega) (by omega))
  apply yields_bind (yields_int (by omega))
  exact yields_int (by omega)

/-- The formula gives the Julian day number, from the year -4799 on. -/
theorem yields_getJulianDayNumber {d : YearMonthDay} (h : d.Valid) (hyear : -4800 < d.year)
    (hmax : d.year ≤ 4000000) :
    (getJulianDayNumber d.year d.month d.day).Yields P (julianDay d) := by
  have hmonth : 1 ≤ d.month ∧ d.month ≤ 12 := ⟨h.month_pos, h.month_le⟩
  have hlength := monthLength_bounds d.year hmonth.1 hmonth.2
  have hday : 1 ≤ d.day ∧ d.day ≤ 31 := ⟨h.day_pos, Int.le_trans h.day_le hlength.2⟩
  by_cases hwinter : d.month ≤ 2
  · have hformula := yields_formula hP hmonth (a := 1) (m := d.month+9) (by omega)
      (show d.year+4799 = d.year+4800-1 by omega) (by omega) (by omega) (by omega) hday
    have hmonths : (153*(d.month+9)+2)/5 = 306+31*(d.month-1) := by omega
    have hsame : julianDay d = d.day+(153*(d.month+9)+2)/5+(d.year+4799)*365+(d.year+4799)/4-
        (d.year+4799)/100+(d.year+4799)/400-32045 := by
      rw [julianDay, YearMonthDay.ordinal, YearMonthDay.yearDay, daysBeforeYear,
        daysBeforeMonth_of_le _ hmonth.1 hwinter, hmonths]
      omega
    rw [hsame]
    exact hformula
  · have hformula := yields_formula hP hmonth (a := 0) (m := d.month-3) (by omega)
      (show d.year+4800 = d.year+4800-0 by omega) (by omega) (by omega) (by omega) hday
    have hyears := daysBeforeYear_add_leapDay d.year
    have hsame : julianDay d = d.day+(153*(d.month-3)+2)/5+(d.year+4800)*365+(d.year+4800)/4-
        (d.year+4800)/100+(d.year+4800)/400-32045 := by
      rw [julianDay, YearMonthDay.ordinal, YearMonthDay.yearDay,
        daysBeforeMonth_of_ge _ (by omega) (by omega)]
      omega
    rw [hsame]
    exact hformula

theorem yields_ofYearMonthDay {d : YearMonthDay} (h : d.Valid) (hyear : -4800 < d.year)
    (hmax : d.year ≤ 4000000) :
    (Date.ofYearMonthDay d.year d.month d.day).Yields P ⟨julianDay d⟩ :=
  yields_bind (yields_getJulianDayNumber hP h hyear hmax) (yields_pure _)

theorem yields_weekDay {n : ℤ} (h0 : 0 ≤ n) (hmax : n+1 < 2^31) :
    (Date.weekDay ⟨n⟩).Yields P ((n+1)%7) := by
  apply yields_bind (yields_int (by dsimp only; omega))
  exact yields_remainder (hP _ (by dsimp only; omega)) (by decide) (by dsimp only; omega)

end Formulas

/-- The years of the numbers in range. -/
theorem year_of_inRange {d : YearMonthDay} (h : d.Valid) (hrange : DayInRange (julianDay d)) :
    -4714 < d.year ∧ d.year < 1466000 := by
  obtain ⟨h0,hmax⟩ := hrange
  obtain ⟨hfirst,hlast⟩ := h.ordinal_bounds
  simp only [julianDay, daysBeforeYear] at h0 hmax hfirst hlast
  omega

theorem yearMonthDay_of_inRange {P : Event → Prop} (hP : ∀ x, 0 ≤ x → P (.division x)) {n : ℤ}
    (h : DayInRange n) :
    ∃ d : YearMonthDay, d.Valid ∧ julianDay d = n ∧ (getYearMonthDay n).Yields P d := by
  obtain ⟨b,c,d,e,m,hparts,_⟩ := exists_marchDate n
  refine ⟨MarchDate.civil b d e m, hparts.civil_valid, ?_, yields_getYearMonthDay hP h hparts⟩
  rw [hparts.julianDay_civil, Int.add_sub_cancel]

/-- The formulas undo each other, the day after a date has the next number, and its day of the week is the
next one. No operation overflows, and no dividend is negative. -/
theorem civil_calendar : (∀ n, DayInRange n → ∃ d : YearMonthDay, d.Valid ∧
      (Date.yearMonthDay ⟨n⟩).Yields Event.NoNegative d ∧
      (Date.ofYearMonthDay d.year d.month d.day).Yields Event.NoNegative ⟨n⟩) ∧
    (∀ d : YearMonthDay, d.Valid → DayInRange (julianDay d) →
      (Date.ofYearMonthDay d.year d.month d.day).Yields Event.NoNegative ⟨julianDay d⟩ ∧
      (Date.yearMonthDay ⟨julianDay d⟩).Yields Event.NoNegative d ∧
      (Date.ofYearMonthDay d.next.year d.next.month d.next.day).Yields Event.NoNegative
        ⟨julianDay d+1⟩) ∧
    ∀ n, DayInRange n → ∃ w, (Date.weekDay ⟨n⟩).Yields Event.NoNegative w ∧
      (Date.weekDay ⟨n+1⟩).Yields Event.NoNegative ((w+1)%7) := by
  have hP : ∀ x, 0 ≤ x → Event.NoNegative (.division x) := fun x hx => hx
  refine ⟨?_, ?_, ?_⟩
  · intro n hn
    obtain ⟨d,hd,rfl,hdate⟩ := yearMonthDay_of_inRange hP hn
    have hyear := year_of_inRange hd hn
    exact ⟨d, hd, hdate, yields_ofYearMonthDay hP hd (by omega) (by omega)⟩
  · intro d hd hn
    have hyear := year_of_inRange hd hn
    obtain ⟨e,he,hsame,hdate⟩ := yearMonthDay_of_inRange hP hn
    -- two valid dates of one number
    have heq : e = d := by
      apply YearMonthDay.ordinal_inj he hd
      simp only [julianDay] at hsame
      omega
    have hnextYear := d.next_year
    have hnext := yields_ofYearMonthDay hP hd.next (by omega) (by omega)
    have hsucc : julianDay d.next = julianDay d+1 := by
      rw [julianDay, hd.ordinal_next, julianDay]
      omega
    rw [heq] at hdate
    rw [hsucc] at hnext
    exact ⟨yields_ofYearMonthDay hP hd (by omega) (by omega), hdate, hnext⟩
  · intro n hn
    obtain ⟨h0,hmax⟩ := hn
    have hsucc : (n+1+1)%7 = ((n+1)%7+1)%7 := by omega
    refine ⟨(n+1)%7, yields_weekDay hP h0 (by omega), ?_⟩
    rw [← hsucc]
    exact yields_weekDay hP (by omega) (by omega)

/-- The first day of 1970, a Thursday. -/
theorem civil_calendar_epoch : (∃ d : YearMonthDay, d.Valid ∧
      (Date.yearMonthDay ⟨2440588⟩).Yields Event.NoNegative d ∧
      (Date.ofYearMonthDay d.year d.month d.day).Yields Event.NoNegative ⟨2440588⟩) ∧
    (Date.yearMonthDay ⟨julianDay ⟨1970, 1, 1⟩⟩).Yields Event.NoNegative ⟨1970, 1, 1⟩ :=
  ⟨civil_calendar.1 2440588 (by decide), (civil_calendar.2.1 ⟨1970, 1, 1⟩
    ⟨by decide, by decide, by decide, by decide⟩ (by decide)).2.1⟩

end IdealServer
