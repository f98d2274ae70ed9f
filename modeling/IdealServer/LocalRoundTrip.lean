import IdealServer.LocalTime

/-! From a second to local time and back: which seconds are found again, and what is found where the clock
is set back. -/
namespace IdealServer

namespace Tm

/-- The same date, time of day and daylight saving flag. -/
def SameRendering (s t : Tm) : Prop := s.SameClock t ∧ s.isdst = t.isdst

end Tm

namespace TimeZone

variable (gmtime : ℤ → Tm) (timegm : Tm → ℤ)

/-- Local time at `t` is read as a second of the same rendering, and as `t` where no other second has it. -/
def RoundTrips (tz : TimeZone) (t : ℤ) : Prop := ∃ tm u tm', tz.toLocalTime gmtime t = .ok tm ∧
  tz.fromLocalTime gmtime timegm tm = .ok u ∧ tz.toLocalTime gmtime u = .ok tm' ∧
  tm'.SameRendering tm ∧
  ((∀ t2 tm2, tz.toLocalTime gmtime t2 = .ok tm2 → tm2.SameRendering tm → t2 = t) → u = t)

namespace Data

/-- By how much the clock has been set back between `t` and the transition that is last by local time. -/
def setBack (data : Data) (t : ℤ) : ℤ :=
  (data.inForce t).gmtOffset-(data.readBy (t+(data.inForce t).gmtOffset)).gmtOffset

/-- After the clock has been set back, the offset is that by which local time is read, and the flag is as
before. -/
def KeepsFlag (data : Data) (t : ℤ) : Prop :=
  (data.inForce (t+data.setBack t)).gmtOffset = (data.inForce t).gmtOffset-data.setBack t ∧
  (data.inForce (t+data.setBack t)).isDst = (data.inForce t).isDst

/-- Daylight saving time ends, the clocks agree in hour and minute, and an hour earlier it is daylight saving
time that is one hour ahead. -/
def EndsDstByHour (data : Data) (t : ℤ) : Prop :=
  (data.inForce t).isDst = true ∧ (data.inForce (t+data.setBack t)).isDst = false ∧
  (gmtime (t+data.setBack t+(data.inForce (t+data.setBack t)).gmtOffset)).hour =
    (gmtime (t+(data.inForce t).gmtOffset)).hour ∧
  (gmtime (t+data.setBack t+(data.inForce (t+data.setBack t)).gmtOffset)).min =
    (gmtime (t+(data.inForce t).gmtOffset)).min ∧
  (data.inForce (t+data.setBack t-3600)).isDst = true ∧
  (data.inForce (t+data.setBack t-3600)).gmtOffset = (data.inForce t).gmtOffset-data.setBack t+3600

end Data

variable {gmtime timegm} {data : Data}

/-- Local time that no later transition repeats is read by the type in force. -/
theorem Data.WellFormed.readBy_eq (h : data.WellFormed) {t : ℤ} (honce : ∀ tr ∈ data.transitions,
      t < tr.gmttime → t+(data.inForce t).gmtOffset < tr.localtime) :
    data.readBy (t+(data.inForce t).gmtOffset) = data.inForce t := by
  have hup (tr : Transition) (htr : tr ∈ data.transitions) :
      tr.localtime ≤ t+(data.inForce t).gmtOffset ↔ tr.gmttime ≤ t := by
    constructor
    · intro hle
      by_contra hlt
      have hlater := honce tr htr (by omega)
      omega
    · intro hle
      obtain ⟨last,hlast,hbehind⟩ := LowerBound.exists_lastUpTo h.gmttime htr hle
      obtain ⟨hmem,hlastLe⟩ := LowerBound.lastUpTo_mem hlast
      have htype : data.inForce t = data.typeOf (some last) := by rw [inForce, hlast]
      have hlocal := (h.element_some hmem).2.2
      rw [htype]
      -- the order by local time is that by the other time
      have hordered : tr.localtime ≤ last.localtime := by
        obtain ⟨i,hi,rfl⟩ := List.getElem_of_mem htr
        obtain ⟨j,hj,rfl⟩ := List.getElem_of_mem hmem
        rcases Nat.lt_trichotomy i j with hlt | heq | hgt
        · exact le_of_lt (List.pairwise_iff_getElem.mp h.localtime i j hi hj hlt)
        · simp only [heq, le_refl]
        · have hbefore := List.pairwise_iff_getElem.mp h.gmttime j i hj hi hgt
          omega
      omega
  have hfilter : data.transitions.filter
        (fun tr => decide (tr.localtime ≤ t+(data.inForce t).gmtOffset)) =
      data.transitions.filter (fun tr => decide (tr.gmttime ≤ t)) := by
    apply List.filter_congr
    intro tr htr
    exact decide_eq_decide.mpr (hup tr htr)
  rw [readBy, LowerBound.lastUpTo, hfilter]
  rfl

/-- So a second whose local time is not repeated is found. -/
theorem Data.WellFormed.keepsFlag (h : data.WellFormed) {t : ℤ} (honce : ∀ tr ∈ data.transitions,
    t < tr.gmttime → t+(data.inForce t).gmtOffset < tr.localtime) : data.KeepsFlag t := by
  have hnone : data.setBack t = 0 := by rw [setBack, h.readBy_eq honce, Int.sub_self]
  rw [KeepsFlag, hnone, Int.add_zero, Int.sub_zero]
  exact ⟨rfl, rfl⟩

/-- And so is one of the last hour of daylight saving time, where that is one hour ahead. -/
theorem Data.endsDstByHour {t : ℤ} (hback : data.setBack t = 3600)
    (hdst : (data.inForce t).isDst = true) (hstandard : (data.inForce (t+3600)).isDst = false)
    (hoffset : (data.inForce (t+3600)).gmtOffset = (data.inForce t).gmtOffset-3600) :
    data.EndsDstByHour gmtime t := by
  have hclock : t+3600+((data.inForce t).gmtOffset-3600) = t+(data.inForce t).gmtOffset := by omega
  rw [EndsDstByHour, hback, hoffset, hclock, Int.add_sub_cancel]
  exact ⟨hdst, hstandard, rfl, rfl, hdst, by omega⟩

/-- What `toLocalTime` returns. -/
def rendering (gmtime : ℤ → Tm) (data : Data) (t : ℤ) : Tm :=
  { gmtime (t+(data.inForce t).gmtOffset) with
    isdst := if (data.inForce t).isDst then 1 else 0
    gmtoff := (data.inForce t).gmtOffset
    zone := data.abbreviation.drop (data.inForce t).arrbIdx }

theorem toLocalTime_eq (h : data.WellFormed) (t : ℤ) :
    toLocalTime gmtime ⟨some data⟩ t = .ok (rendering gmtime data t) := by
  have hfind := h.findLocaltime_eq ⟨t, 0, 0⟩ ⟨true⟩
  have hindex : (data.inForce t).arrbIdx ≤ data.abbreviation.length := h.arrbIdx _ h.typeOf_mem
  have hfind : findLocaltime data ⟨t, 0, 0⟩ ⟨true⟩ = .ok (data.inForce t) := hfind
  simp only [toLocalTime, hfind, bind, Except.bind]
  rw [if_pos hindex]
  rfl

/-- `tm_isdst` holds the flag. -/
theorem isdst_eq_zero (flag : Bool) : (if flag then 1 else 0 : ℤ) = 0 ↔ flag = false := by
  cases flag <;> decide

theorem isdst_inj (a b : Bool) : (if a then 1 else 0 : ℤ) = (if b then 1 else 0) ↔ a = b := by
  cases a <;> cases b <;> decide

/-- Renderings are the same where the shifted seconds and the flags are. -/
theorem sameRendering_iff (hinverse : ∀ t tm, Tm.SameClock tm (gmtime t) → timegm tm = t) (t u : ℤ) :
    (rendering gmtime data u).SameRendering (rendering gmtime data t) ↔
      u+(data.inForce u).gmtOffset = t+(data.inForce t).gmtOffset ∧
      (data.inForce u).isDst = (data.inForce t).isDst := by
  have hflag : (rendering gmtime data u).isdst = (rendering gmtime data t).isdst ↔
      (data.inForce u).isDst = (data.inForce t).isDst := isdst_inj _ _
  constructor
  · intro ⟨hclock,hsame⟩
    refine ⟨?_, hflag.mp hsame⟩
    have hself : (gmtime (u+(data.inForce u).gmtOffset)).SameClock (gmtime (u+(data.inForce u).gmtOffset)) :=
      ⟨rfl, rfl, rfl, rfl⟩
    have hother : (gmtime (u+(data.inForce u).gmtOffset)).SameClock (gmtime (t+(data.inForce t).gmtOffset)) :=
      ⟨hclock.date, hclock.hour, hclock.min, hclock.sec⟩
    rw [← hinverse _ _ hself, hinverse _ _ hother]
  · intro ⟨hshifted,hsame⟩
    refine ⟨?_, hflag.mpr hsame⟩
    simp only [rendering, hshifted]
    exact ⟨rfl, rfl, rfl, rfl⟩

/-- The clocks agree in hour and minute, and only the first of them shows daylight saving time. -/
def Shifted (gmtime : ℤ → Tm) (data : Data) (t : ℤ) : Prop :=
  (data.inForce t).isDst = true ∧ (data.inForce (t+data.setBack t)).isDst = false ∧
  (rendering gmtime data (t+data.setBack t)).hour = (rendering gmtime data t).hour ∧
  (rendering gmtime data (t+data.setBack t)).min = (rendering gmtime data t).min

/-- The second that `fromLocalTime` finds: after the clock has been set back, or an hour before. -/
theorem fromLocalTime_eq (hinverse : ∀ t tm, Tm.SameClock tm (gmtime t) → timegm tm = t)
    (h : data.WellFormed) (t : ℤ) :
    (Shifted gmtime data t ∧ fromLocalTime gmtime timegm ⟨some data⟩ (rendering gmtime data t) =
        .ok (t+data.setBack t-3600)) ∨
    (¬Shifted gmtime data t ∧ fromLocalTime gmtime timegm ⟨some data⟩ (rendering gmtime data t) =
        .ok (t+data.setBack t)) := by
  have hseconds : timegm (rendering gmtime data t) = t+(data.inForce t).gmtOffset :=
    hinverse _ _ ⟨rfl, rfl, rfl, rfl⟩
  have hfind : findLocaltime data ⟨0, t+(data.inForce t).gmtOffset, 0⟩ ⟨false⟩ =
      .ok (data.readBy (t+(data.inForce t).gmtOffset)) := h.findLocaltime_eq ⟨0, _, 0⟩ ⟨false⟩
  have hlater : t+(data.inForce t).gmtOffset-(data.readBy (t+(data.inForce t).gmtOffset)).gmtOffset =
      t+data.setBack t := by
    rw [Data.setBack]
    omega
  have hearlier : t+(data.inForce t).gmtOffset-3600-
      (data.readBy (t+(data.inForce t).gmtOffset)).gmtOffset = t+data.setBack t-3600 := by
    rw [← hlater]
    omega
  have hdst : (rendering gmtime data t).isdst ≠ 0 ↔ (data.inForce t).isDst = true := by
    rw [← Bool.not_eq_false, ← isdst_eq_zero]
    rfl
  have htry : (rendering gmtime data (t+data.setBack t)).isdst = 0 ↔
      (data.inForce (t+data.setBack t)).isDst = false := isdst_eq_zero _
  simp only [fromLocalTime, hseconds, hfind, bind, Except.bind, hlater, hearlier, toLocalTime_eq h, hdst,
    htry]
  by_cases hflag : (data.inForce t).isDst = true
  · rw [if_pos hflag]
    by_cases hsame : (data.inForce (t+data.setBack t)).isDst = false ∧
        (rendering gmtime data (t+data.setBack t)).hour = (rendering gmtime data t).hour ∧
        (rendering gmtime data (t+data.setBack t)).min = (rendering gmtime data t).min
    · rw [if_pos hsame]
      exact .inl ⟨⟨hflag, hsame⟩, rfl⟩
    · rw [if_neg hsame]
      exact .inr ⟨fun hshifted => hsame hshifted.2, rfl⟩
  · rw [if_neg hflag]
    exact .inr ⟨fun hshifted => hflag hshifted.1, rfl⟩

/-- Of a second that is found, everything is known by the offset and the flag in force there. -/
theorem roundTrips_iff_of_found (hinverse : ∀ t tm, Tm.SameClock tm (gmtime t) → timegm tm = t)
    (h : data.WellFormed) {t u : ℤ}
    (hfound : fromLocalTime gmtime timegm ⟨some data⟩ (rendering gmtime data t) = .ok u) :
    RoundTrips gmtime timegm ⟨some data⟩ t ↔
      u+(data.inForce u).gmtOffset = t+(data.inForce t).gmtOffset ∧
      (data.inForce u).isDst = (data.inForce t).isDst := by
  rw [← sameRendering_iff hinverse t u]
  constructor
  · intro ⟨tm,v,tm',hthere,hback,hagain,hsame,_⟩
    rw [toLocalTime_eq h] at hthere hagain
    rw [← Except.ok.inj hthere, hfound] at hback
    rwa [← Except.ok.inj hthere, ← Except.ok.inj hagain, ← Except.ok.inj hback] at hsame
  · intro hsame
    refine ⟨_, u, _, toLocalTime_eq h t, hfound, toLocalTime_eq h u, hsame, ?_⟩
    intro honly
    exact honly u _ (toLocalTime_eq h u) hsame

/-- A second is found again, or another one of the same rendering is found, exactly where the clock was set
back without a change of the flag, if at all, or daylight saving time ends and the clock is set back by an
hour. -/
theorem local_round_trip_iff (hinverse : ∀ t tm, Tm.SameClock tm (gmtime t) → timegm tm = t)
    (h : data.WellFormed) (t : ℤ) : RoundTrips gmtime timegm ⟨some data⟩ t ↔
      data.KeepsFlag t ∨ data.EndsDstByHour gmtime t := by
  rcases fromLocalTime_eq hinverse h t with ⟨hshifted,hfound⟩ | ⟨hshifted,hfound⟩
  · rw [roundTrips_iff_of_found hinverse h hfound]
    obtain ⟨hdst,hstandard,hhour,hmin⟩ := hshifted
    constructor
    · intro ⟨hseconds,hflag⟩
      exact .inr ⟨hdst, hstandard, hhour, hmin, hflag.trans hdst, by omega⟩
    · rintro (⟨_,hflag⟩ | ⟨_,_,_,_,hflag,hoffset⟩)
      · rw [hdst, hstandard] at hflag
        cases hflag
      · exact ⟨by omega, hflag.trans hdst.symm⟩
  · rw [roundTrips_iff_of_found hinverse h hfound]
    constructor
    · intro ⟨hseconds,hflag⟩
      exact .inl ⟨by omega, hflag⟩
    · rintro (⟨hoffset,hflag⟩ | ⟨hdst,hstandard,hhour,hmin,_⟩)
      · exact ⟨by omega, hflag⟩
      · exact absurd ⟨hdst, hstandard, hhour, hmin⟩ hshifted

/-- Daylight saving time of half an hour, as on Lord Howe Island in 2018 and 2019. -/
def lordHowe : Data where
  transitions := [⟨1538839800, 1538879400, 1⟩, ⟨1554562800, 1554600600, 0⟩]
  localtimes := [⟨37800, false, 0⟩, ⟨39600, true, 5⟩]
  abbreviation := [43, 49, 48, 51, 48, 0, 43, 49, 49]

theorem lordHowe_wellFormed : lordHowe.WellFormed := by
  refine ⟨by decide, by decide, by decide, ?_, by decide⟩
  intro tr htr
  rcases List.mem_cons.mp htr with rfl | htr
  · exact ⟨⟨39600, true, 5⟩, rfl, rfl⟩
  · rw [List.mem_singleton.mp htr]
    exact ⟨⟨37800, false, 0⟩, rfl, rfl⟩

/-- The second in which daylight saving time begins, which is found again. -/
theorem local_round_trip_lordHowe : RoundTrips IdealServer.gmtime IdealServer.timegm ⟨some lordHowe⟩
    1538839800 :=
  (local_round_trip_iff (fun _ _ hclock => timegm_gmtime hclock) lordHowe_wellFormed 1538839800).mpr
    (.inl ⟨by decide, by decide⟩)

/-- Ten minutes before it ends: the time that is found reads half an hour earlier. -/
theorem local_round_trip_fails :
    ¬RoundTrips IdealServer.gmtime IdealServer.timegm ⟨some lordHowe⟩ 1554562200 := by
  have hinverse (t : ℤ) (tm : Tm) (hclock : tm.SameClock (IdealServer.gmtime t)) :
      IdealServer.timegm tm = t := timegm_gmtime hclock
  have hshifted : Shifted IdealServer.gmtime lordHowe 1554562200 :=
    ⟨by decide, by decide, by decide, by decide⟩
  rcases fromLocalTime_eq hinverse lordHowe_wellFormed 1554562200 with ⟨_,hfound⟩ | ⟨hnot,_⟩
  · rw [roundTrips_iff_of_found hinverse lordHowe_wellFormed hfound]
    exact fun hsame => absurd hsame.1 (by decide)
  · exact absurd hshifted hnot

end TimeZone

end IdealServer
