import IdealServer.ClockText
import IdealServer.RtspMessage

/-! `Timestamp::toFormattedString`: a date and a time of day for log files. -/
namespace IdealServer

def kMicrosecondsPerSecond : ℤ := 1000*1000

/-- The comment says that the time is moved to the time zone eight hours east. -/
def toFormattedString (microsecondsSinceEpoch : ℤ) (showMicroseconds : Bool) : Bytes :=
  let microseconds := microsecondsSinceEpoch+8*60*60*1000
  let tm_time := gmtime (microseconds.tdiv kMicrosecondsPerSecond)
  let date := spacePadded 4 (tm_time.year+1900) ++ zeroPadded 2 (tm_time.mon+1) ++
    zeroPadded 2 tm_time.mday
  let time := zeroPadded 2 tm_time.hour ++ ascii ":" ++ zeroPadded 2 tm_time.min ++ ascii ":" ++
    zeroPadded 2 tm_time.sec
  if showMicroseconds then
    -- these are the microseconds of the time that was not moved
    let microseconds := microsecondsSinceEpoch.tmod kMicrosecondsPerSecond
    snprintf 63 [] (date ++ ascii " " ++ time ++ (ascii "." ++ zeroPadded 6 microseconds))
  else snprintf 63 [] (date ++ ascii " " ++ time)

def secondFields : List (Bytes × ℕ) :=
  [([], 4), ([], 2), ([], 2), (ascii " ", 2), (ascii ":", 2), (ascii ":", 2)]

/-- The text that shows the date and the time of a second of UTC. -/
def secondText (second : ℤ) : Bytes := decimalDigits.fields secondFields (gmtime second).numbers

def clockText (second : ℤ) (micro : ℕ) : Bytes :=
  secondText second ++ (ascii "." ++ decimalDigits.fixed 6 micro)

/-- The civil date and time eight hours east of UTC, to the microsecond. -/
def utc8Text (microsecondsSinceEpoch : ℤ) : Bytes :=
  clockText (microsecondsSinceEpoch/1000000+8*60*60) (microsecondsSinceEpoch%1000000).natAbs

/-- Times whose date eight hours east of UTC is between 1970 and 9999. -/
def InYears (microsecondsSinceEpoch : ℤ) : Prop :=
  1970 ≤ (gmtime (microsecondsSinceEpoch/1000000+8*60*60)).year+1900 ∧
    (gmtime (microsecondsSinceEpoch/1000000+8*60*60)).year+1900 ≤ 9999

instance (t : ℤ) : Decidable (InYears t) := inferInstanceAs (Decidable (_ ∧ _))

/-- Seconds whose year has four digits. -/
structure FourDigitYear (second : ℤ) : Prop where
  low : 1000 ≤ (gmtime second).year+1900
  high : (gmtime second).year+1900 ≤ 9999

theorem gmtime_year_mono {s t : ℤ} (h : s ≤ t) : (gmtime s).year ≤ (gmtime t).year := by
  by_cases heq : s = t
  · rw [heq]
  · have hearlier := ((gmtime_shows s).lt_iff (gmtime_shows t)).mp (by omega)
    simp only [Tm.Earlier, Gregorian.YearMonthDay.Before, Tm.date,
      Gregorian.YearMonthDay.mk.injEq] at hearlier
    omega

theorem InYears.nonneg {t : ℤ} (h : InYears t) : 0 ≤ t/1000000+8*60*60 := by
  by_contra hneg
  have hyear := gmtime_year_mono (s := t/1000000+8*60*60) (t := -1) (by omega)
  have hlast : (gmtime (-1)).year = 69 := by decide
  have hlow := h.1
  omega

theorem InYears.fourDigitYear {t : ℤ} (h : InYears t) {s : ℤ} (hlow : -(8*60*60) ≤ s)
    (hhigh : s ≤ t/1000000+8*60*60) : FourDigitYear s := by
  have hyear := gmtime_year_mono hlow
  have hyear9999 := gmtime_year_mono hhigh
  have hfirst : (gmtime (-(8*60*60))).year = 69 := by decide
  have hlast := h.2
  exact ⟨by omega, by omega⟩

/-- The second that is shown is 28 to 30 seconds after the time. -/
theorem shown_range (t : ℤ) : t/1000000+28 ≤ (t+28800000).tdiv kMicrosecondsPerSecond ∧
    (t+28800000).tdiv kMicrosecondsPerSecond ≤ t/1000000+30 := by
  rw [show kMicrosecondsPerSecond = 1000000 from rfl]
  by_cases h : 0 ≤ t+28800000
  · rw [Int.tdiv_eq_ediv_of_nonneg h]
    omega
  · have hneg : (t+28800000).tdiv 1000000 = -((-(t+28800000))/1000000) := by
      rw [← Int.tdiv_eq_ediv_of_nonneg (show 0 ≤ -(t+28800000) by omega), Int.neg_tdiv, Int.neg_neg]
    omega

theorem InYears.shown {t : ℤ} (h : InYears t) :
    FourDigitYear ((t+28800000).tdiv kMicrosecondsPerSecond) := by
  have hrange := shown_range t
  have hnonneg := h.nonneg
  exact h.fourDigitYear (by omega) (by omega)

theorem length_secondText (s : ℤ) : (secondText s).length = 17 := by
  simp only [secondText, secondFields, Tm.numbers, Radix.Alphabet.fields, List.length_append,
    Radix.Alphabet.length_fixed, List.length_nil, ascii]
  decide

section Text
variable {s : ℤ} (hs : FourDigitYear s)
include hs

theorem numbers_fit : decimalDigits.Fit secondFields (gmtime s).numbers := by
  have hshows := gmtime_shows s
  have hlow := hs.low
  have hhigh := hs.high
  have hhour := hshows.hour_range
  have hmin := hshows.min_range
  have hsec := hshows.sec_range
  have hmon := hshows.mon_range
  have hday : 1 ≤ (gmtime s).mday := hshows.valid.day_pos
  have hday31 : (gmtime s).mday ≤ 31 := Int.le_trans hshows.valid.day_le
    (Gregorian.monthLength_bounds _ hshows.valid.month_pos hshows.valid.month_le).2
  have hbase : decimalDigits.base = 10 := rfl
  simp only [Radix.Alphabet.Fit, secondFields, Tm.numbers, List.forall₂_cons, List.forall₂_nil_left_iff,
    hbase, and_true]
  omega

/-- The conversions of the format print the fields. -/
theorem format_eq : spacePadded 4 ((gmtime s).year+1900) ++ zeroPadded 2 ((gmtime s).mon+1) ++
      zeroPadded 2 (gmtime s).mday ++ ascii " " ++ (zeroPadded 2 (gmtime s).hour ++ ascii ":" ++
        zeroPadded 2 (gmtime s).min ++ ascii ":" ++ zeroPadded 2 (gmtime s).sec) = secondText s := by
  have hfit := numbers_fit hs
  have hshows := gmtime_shows s
  have hlow := hs.low
  have hday : 1 ≤ (gmtime s).mday := hshows.valid.day_pos
  have hbase : decimalDigits.base = 10 := rfl
  simp only [Radix.Alphabet.Fit, secondFields, Tm.numbers, List.forall₂_cons, List.forall₂_nil_left_iff,
    hbase, and_true] at hfit
  obtain ⟨_,hmon2,hday2,hhour2,hmin2,hsec2⟩ := hfit
  have hyear := spacePadded_eq hlow hs.high
  have hmon := zeroPadded_eq (w := 2) (by decide) (by have h := hshows.mon_range; omega) hmon2
  have hmday := zeroPadded_eq (w := 2) (by decide) (by omega) hday2
  have hhour := zeroPadded_eq (w := 2) (by decide) hshows.hour_range.1 hhour2
  have hmin := zeroPadded_eq (w := 2) (by decide) hshows.min_range.1 hmin2
  have hsec := zeroPadded_eq (w := 2) (by decide) hshows.sec_range.1 hsec2
  rw [hyear, hmon, hmday, hhour, hmin, hsec, secondText]
  simp only [secondFields, Tm.numbers, Radix.Alphabet.fields, List.nil_append, List.append_nil,
    List.append_assoc]

end Text

theorem secondText_lt_iff {s1 s2 : ℤ} (h1 : FourDigitYear s1) (h2 : FourDigitYear s2) :
    secondText s1 < secondText s2 ↔ s1 < s2 := by
  have hyear1 := h1.low
  have hyear2 := h2.low
  rw [secondText, secondText, Radix.fields_lt_iff decimalDigits decimalDigits_order (numbers_fit h1)
    (numbers_fit h2)]
  exact (gmtime_shows s1).numbers_lt_iff (gmtime_shows s2) (by omega) (by omega)

theorem secondText_inj_iff {s1 s2 : ℤ} (h1 : FourDigitYear s1) (h2 : FourDigitYear s2) :
    secondText s1 = secondText s2 ↔ s1 = s2 := by
  refine ⟨?_, congrArg _⟩
  intro heq
  have hlt := secondText_lt_iff h1 h2
  have hgt := secondText_lt_iff h2 h1
  rw [heq] at hlt hgt
  have hirrefl : ¬secondText s2 < secondText s2 := List.lt_irrefl _
  have hnot1 : ¬s1 < s2 := fun h => hirrefl (hlt.mpr h)
  have hnot2 : ¬s2 < s1 := fun h => hirrefl (hgt.mpr h)
  omega

/-- What is printed in front of the microseconds. -/
theorem toFormattedString_eq {t : ℤ} (h : InYears t) : toFormattedString t true =
    snprintf 63 [] (secondText ((t+28800000).tdiv kMicrosecondsPerSecond) ++
      (ascii "." ++ zeroPadded 6 (t.tmod kMicrosecondsPerSecond))) := by
  rw [toFormattedString, if_pos rfl]
  dsimp only
  rw [show (8*60*60*1000 : ℤ) = 28800000 from rfl, format_eq h.shown]

/-- From 1970 on the text shows 28.8 seconds later, with the microseconds of the time itself. -/
theorem toFormattedString_of_nonneg {t : ℤ} (h : InYears t) (h0 : 0 ≤ t) : toFormattedString t true =
    clockText ((t+28800000).tdiv kMicrosecondsPerSecond) (t%1000000).natAbs := by
  have hmod : t.tmod kMicrosecondsPerSecond = t%1000000 := Int.tmod_eq_emod_of_nonneg h0
  have hsix : zeroPadded 6 (t%1000000) = decimalDigits.fixed 6 (t%1000000).natAbs :=
    zeroPadded_eq (by decide) (by omega) (by omega)
  rw [toFormattedString_eq h, hmod, hsix]
  apply snprintf_fits
  simp only [List.nil_append, List.length_append, length_secondText, Radix.Alphabet.length_fixed, ascii]
  decide

example : toFormattedString 0 true = ascii "19700101 00:00:28.000000" := by decide

theorem clockText_lt_iff {s1 s2 : ℤ} {u1 u2 : ℕ} (h1 : FourDigitYear s1) (h2 : FourDigitYear s2)
    (hu1 : u1 < 1000000) (hu2 : u2 < 1000000) :
    clockText s1 u1 < clockText s2 u2 ↔ s1 < s2 ∨ s1 = s2 ∧ u1 < u2 := by
  have hirrefl : ¬ascii "." < ascii "." := List.lt_irrefl _
  have hlast := Radix.fixed_lt_iff decimalDigits decimalDigits_order (w := 6) hu1 hu2
  rw [clockText, clockText, Lexicographic.append_lt_append_iff (by rw [length_secondText, length_secondText]),
    Lexicographic.append_lt_append_iff rfl, secondText_lt_iff h1 h2, secondText_inj_iff h1 h2, hlast,
    iff_false_intro hirrefl, false_or, eq_self_iff_true, true_and]

/-- No text shows the time eight hours east of UTC. -/
theorem toFormattedString_ne {t : ℤ} (h : InYears t) : toFormattedString t true ≠ utc8Text t := by
  have hrange := shown_range t
  have hnonneg := h.nonneg
  have hmeant := h.fourDigitYear (s := t/1000000+8*60*60) (by omega) (by omega)
  rw [toFormattedString_eq h, utc8Text, clockText, snprintf, List.nil_append]
  intro heq
  -- both begin with the text of a second, and these are different seconds
  have hprefix := congrArg (List.take 17) heq
  rw [List.take_take, List.take_left' (length_secondText _)] at hprefix
  rw [show min 17 (63-1) = 17 from rfl, List.take_left' (length_secondText _)] at hprefix
  have hsame := (secondText_inj_iff h.shown hmeant).mp hprefix
  omega

theorem toFormattedString_lt_iff {t1 t2 : ℤ} (h1 : InYears t1) (h2 : InYears t2) (h0 : 0 ≤ t1)
    (hlt : t1 < t2) : toFormattedString t1 true < toFormattedString t2 true ↔
      ¬(t2/1000000 = t1/1000000+1 ∧ 200000 ≤ t1%1000000 ∧ t2%1000000 < 200000) := by
  have hdiv {t : ℤ} (h : 0 ≤ t) : (t+28800000).tdiv kMicrosecondsPerSecond = (t+28800000)/1000000 :=
    Int.tdiv_eq_ediv_of_nonneg (by omega)
  rw [toFormattedString_of_nonneg h1 h0, toFormattedString_of_nonneg h2 (by omega),
    clockText_lt_iff h1.shown h2.shown (by omega) (by omega), hdiv h0, hdiv (t := t2) (by omega)]
  omega

/-- The text of no time is that of eight hours east of UTC, and from 1970 on two texts are out of order
exactly if the times are in consecutive seconds, the first at or after 0.2 and the second before 0.2. -/
theorem formatted_never {t1 : ℤ} (h1 : InYears t1) : toFormattedString t1 true ≠ utc8Text t1 ∧
    ∀ t2, InYears t2 → 0 ≤ t1 → t1 < t2 →
      (toFormattedString t1 true < toFormattedString t2 true ↔
        ¬(t2/1000000 = t1/1000000+1 ∧ 200000 ≤ t1%1000000 ∧ t2%1000000 < 200000)) :=
  ⟨toFormattedString_ne h1, fun _ h2 => toFormattedString_lt_iff h1 h2⟩

theorem formatted_never_epoch : toFormattedString 0 true ≠ utc8Text 0 ∧
    ¬toFormattedString 900000 true < toFormattedString 1100000 true := by
  have hepoch : InYears 0 := by decide
  have hearlier : InYears 900000 := by decide
  have hlater : InYears 1100000 := by decide
  refine ⟨(formatted_never hepoch).1, ?_⟩
  intro hlt
  exact ((formatted_never hearlier).2 1100000 hlater (by decide) (by decide)).mp hlt
    ⟨by decide, by decide, by decide⟩

/-- The first second of 1970, and two times in the second after it. -/
theorem formatted_fails : (InYears 0 ∧ toFormattedString 0 true ≠ utc8Text 0) ∧
    InYears 900000 ∧ InYears 1100000 ∧ ¬toFormattedString 900000 true < toFormattedString 1100000 true := by
  have hepoch : InYears 0 := by decide
  have hearlier : InYears 900000 := by decide
  have hlater : InYears 1100000 := by decide
  refine ⟨⟨hepoch, toFormattedString_ne hepoch⟩, hearlier, hlater, ?_⟩
  intro hlt
  exact (toFormattedString_lt_iff hearlier hlater (by decide) (by decide)).mp hlt
    ⟨by decide, by decide, by decide⟩

end IdealServer
