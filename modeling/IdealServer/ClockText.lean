import IdealServer.Convert
import IdealServer.UtcTime

/-! The conversions of `printf` that print dates and times, and the order of such texts. -/
namespace IdealServer

/-- `%0wd` -/
def zeroPadded (w : ℕ) (v : ℤ) : Bytes :=
  if v < 0 then 45 :: decimalDigits.padded (w-1) v.natAbs else decimalDigits.padded w v.natAbs

/-- `%wd` -/
def spacePadded (w : ℕ) (v : ℤ) : Bytes := List.replicate (w-(decimalText v).length) 32 ++ decimalText v

/-- Where the number has no sign and fits, both conversions print its last digits. -/
theorem zeroPadded_eq {w : ℕ} {v : ℤ} (hw : 0 < w) (h0 : 0 ≤ v) (h : v.natAbs < 10^w) :
    zeroPadded w v = decimalDigits.fixed w v.natAbs := by
  rw [zeroPadded, if_neg (by omega)]
  exact decimalDigits.padded_eq_fixed hw h

theorem spacePadded_eq {v : ℤ} (hlow : 1000 ≤ v) (hhigh : v ≤ 9999) :
    spacePadded 4 v = decimalDigits.fixed 4 v.natAbs := by
  have htext : decimalText v = decimalDigits.numeral v.natAbs := if_neg (by omega)
  have hlen : (decimalDigits.numeral v.natAbs).length = 4 := by
    have h3 := decimalDigits.length_numeral_le_iff (n := v.natAbs) (k := 3) (by decide)
    have h4 := decimalDigits.length_numeral_le_iff (n := v.natAbs) (k := 4) (by decide)
    rw [show decimalDigits.base = 10 from rfl] at h3 h4
    omega
  have hpadded := decimalDigits.padded_eq_fixed (w := 4) (n := v.natAbs) (by decide)
    (by rw [show decimalDigits.base = 10 from rfl]; omega)
  rw [Radix.Alphabet.padded, hlen] at hpadded
  rw [spacePadded, htext, hlen, ← hpadded]
  rfl

theorem decimalDigits_order : ∀ d < decimalDigits.base, ∀ e < decimalDigits.base,
    (decimalDigits.symbol d < decimalDigits.symbol e ↔ d < e) := by decide

/-- The fields of a date and a time of day, the greatest unit first. -/
def Tm.numbers (tm : Tm) : List ℕ :=
  [(tm.year+1900).natAbs, (tm.mon+1).natAbs, tm.mday.natAbs, tm.hour.natAbs, tm.min.natAbs, tm.sec.natAbs]

/-- Seconds of dates from year 0 on are in the order of their fields. -/
theorem Tm.Shows.numbers_lt_iff {tm1 tm2 : Tm} {t1 t2 : ℤ} (h1 : tm1.Shows t1) (h2 : tm2.Shows t2)
    (hyear1 : 0 ≤ tm1.year+1900) (hyear2 : 0 ≤ tm2.year+1900) : tm1.numbers < tm2.numbers ↔ t1 < t2 := by
  have hlt {a b : ℤ} (ha : 0 ≤ a) (hb : 0 ≤ b) : a.natAbs < b.natAbs ↔ a < b := by omega
  have heq {a b : ℤ} (ha : 0 ≤ a) (hb : 0 ≤ b) : a.natAbs = b.natAbs ↔ a = b := by omega
  have hmon1 : 0 ≤ tm1.mon+1 := by have h := h1.mon_range; omega
  have hmon2 : 0 ≤ tm2.mon+1 := by have h := h2.mon_range; omega
  have hday1 : 0 ≤ tm1.mday := Int.le_trans (by decide) h1.valid.day_pos
  have hday2 : 0 ≤ tm2.mday := Int.le_trans (by decide) h2.valid.day_pos
  have hend : ¬([] : List ℕ) < [] := List.lt_irrefl []
  rw [h1.lt_iff h2, Tm.Earlier, Tm.numbers, Tm.numbers]
  simp only [Gregorian.YearMonthDay.Before, Tm.date, Gregorian.YearMonthDay.mk.injEq,
    List.cons_lt_cons_iff, hlt hyear1 hyear2, heq hyear1 hyear2, hlt hmon1 hmon2, heq hmon1 hmon2,
    hlt hday1 hday2, heq hday1 hday2, hlt h1.hour_range.1 h2.hour_range.1,
    heq h1.hour_range.1 h2.hour_range.1, hlt h1.min_range.1 h2.min_range.1,
    heq h1.min_range.1 h2.min_range.1, hlt h1.sec_range.1 h2.sec_range.1, hend]
  tauto

end IdealServer
