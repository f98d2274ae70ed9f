import IdealServer.LogTime

/-! The cached time of a thread's log records against the time formatted anew. -/
namespace IdealServer

theorem dateTimeText_congr {tm1 tm2 : Tm} (h : tm1.SameClock tm2) : dateTimeText tm1 = dateTimeText tm2 := by
  have hdate := h.date
  simp only [Tm.date, Gregorian.YearMonthDay.mk.injEq] at hdate
  obtain ⟨hyear,hmon,hday⟩ := hdate
  rw [dateTimeText, dateTimeText, hyear, hmon, hday, h.hour, h.min, h.sec]

theorem zeroPadded_two {v : ℤ} (h0 : 0 ≤ v) (h : v ≤ 99) :
    (zeroPadded 2 v).length = 2 ∧ zeroPadded 2 v = decimalDigits.fixed 2 v.natAbs := by
  have heq := zeroPadded_eq (w := 2) (v := v) (by decide) h0 (by omega)
  exact ⟨by rw [heq, decimalDigits.length_fixed], heq⟩

theorem zeroPadded_two_inj {v w : ℤ} (hv : 0 ≤ v ∧ v ≤ 99) (hw : 0 ≤ w ∧ w ≤ 99)
    (h : zeroPadded 2 v = zeroPadded 2 w) : v = w := by
  rw [(zeroPadded_two hv.1 hv.2).2, (zeroPadded_two hw.1 hw.2).2] at h
  have hbase : decimalDigits.base = 10 := rfl
  have hsame := (decimalDigits.fixed_inj_iff (w := 2) (n := v.natAbs) (m := w.natAbs)
    (by rw [hbase]; omega) (by rw [hbase]; omega)).mp h
  omega

theorem decimalText_inj {v w : ℤ} (h : decimalText v = decimalText w) : v = w := by
  rw [← (decimalText_isDecimal v).read, h, (decimalText_isDecimal w).read]

/-- The fields of a broken-down time that are printed with two digits. -/
structure TwoDigits (tm : Tm) : Prop where
  mon : 0 ≤ tm.mon+1 ∧ tm.mon+1 ≤ 99
  mday : 0 ≤ tm.mday ∧ tm.mday ≤ 99
  hour : 0 ≤ tm.hour ∧ tm.hour ≤ 99
  min : 0 ≤ tm.min ∧ tm.min ≤ 99
  sec : 0 ≤ tm.sec ∧ tm.sec ≤ 99

theorem twoDigits_gmtime (t : ℤ) : TwoDigits (gmtime t) := by
  have hshows := gmtime_shows t
  have hmon := hshows.mon_range
  have hhour := hshows.hour_range
  have hmin := hshows.min_range
  have hsec := hshows.sec_range
  have hday : 1 ≤ (gmtime t).mday := hshows.valid.day_pos
  have hday31 : (gmtime t).mday ≤ 31 := Int.le_trans hshows.valid.day_le
    (Gregorian.monthLength_bounds _ hshows.valid.month_pos hshows.valid.month_le).2
  exact ⟨by omega, by omega, by omega, by omega, by omega⟩

/-- The text of a date and a time of day is that of no other. -/
theorem dateTimeText_inj {tm1 tm2 : Tm} (h1 : TwoDigits tm1) (h2 : TwoDigits tm2)
    (h : dateTimeText tm1 = dateTimeText tm2) : tm1.SameClock tm2 := by
  have hlen {v w : ℤ} (hv : 0 ≤ v ∧ v ≤ 99) (hw : 0 ≤ w ∧ w ≤ 99) :
      (zeroPadded 2 v).length = (zeroPadded 2 w).length := by
    rw [(zeroPadded_two hv.1 hv.2).1, (zeroPadded_two hw.1 hw.2).1]
  rw [dateTimeText, dateTimeText] at h
  -- what follows the years has the same length in both
  obtain ⟨hyear,h⟩ := List.append_inj' h (by
    simp only [List.length_append, hlen h1.mon h2.mon, hlen h1.mday h2.mday, hlen h1.hour h2.hour,
      hlen h1.min h2.min, hlen h1.sec h2.sec])
  obtain ⟨hmon,h⟩ := List.append_inj (List.append_cancel_left h) (hlen h1.mon h2.mon)
  obtain ⟨hday,h⟩ := List.append_inj (List.append_cancel_left h) (hlen h1.mday h2.mday)
  obtain ⟨hhour,h⟩ := List.append_inj (List.append_cancel_left h) (hlen h1.hour h2.hour)
  obtain ⟨hmin,h⟩ := List.append_inj (List.append_cancel_left h) (hlen h1.min h2.min)
  have hyear := decimalText_inj hyear
  have hmon := zeroPadded_two_inj h1.mon h2.mon hmon
  have hday := zeroPadded_two_inj h1.mday h2.mday hday
  refine ⟨?_, zeroPadded_two_inj h1.hour h2.hour hhour, zeroPadded_two_inj h1.min h2.min hmin,
    zeroPadded_two_inj h1.sec h2.sec (List.append_cancel_left h)⟩
  rw [Tm.date, Tm.date, hyear, hmon, hday]

/-- A zone shows a second with the fields of `gmtime` at another one. -/
theorem TimeZone.fields_twoDigits {zone : TimeZone} {seconds : ℤ} {tm : Tm}
    (h : zone.fields seconds = .ok tm) : TwoDigits tm := by
  rw [fields] at h
  split at h
  · rw [toLocalTime] at h
    split at h
    · cases h
    · obtain ⟨localType,_,h⟩ := Runs.bind_ok h
      split at h
      · obtain ⟨hmon,hmday,hhour,hmin,hsec⟩ := twoDigits_gmtime (seconds+localType.gmtOffset)
        rw [← Except.ok.inj h]
        exact ⟨hmon, hmday, hhour, hmin, hsec⟩
      · cases h
  · rw [← Except.ok.inj h]
    exact twoDigits_gmtime seconds

namespace LogClock

/-- What the thread keeps after the events of a run. -/
structure Cached (c : LogClock) (h : LogHistory) : Prop where
  zone : c.zone = h.zone
  size : c.time.length = 64
  unused : h.shown = none → c.lastSecond = 0 ∧ Scanf.cString c.time = []
  used : ∀ shown, h.shown = some shown → c.lastSecond = shown.1 ∧
    ∃ tm, shown.2.fields shown.1 = .ok tm ∧ Scanf.cString c.time = dateTimeText tm ∧
      (dateTimeText tm).length = 19

theorem cached_initial : Cached initial .initial := by
  refine ⟨rfl, List.length_replicate, fun _ => ⟨rfl, by decide⟩, ?_⟩
  intro shown h
  cases h

variable {c : LogClock} {h : LogHistory}

/-- Formatting a second anew, if it goes through. -/
theorem refresh_ok {c' : LogClock} (hsize : c.time.length = 64) {seconds : ℤ}
    (hrefresh : c.refresh seconds = .ok c') : ∃ tm, c.zone.fields seconds = .ok tm ∧
      (dateTimeText tm).length = 19 ∧ c' = { c with
        lastSecond := seconds
        time := CharArray.overwrite c.time 0 (dateTimeText tm ++ [0]) } := by
  obtain ⟨tm,hfields,_⟩ := Runs.bind_ok hrefresh
  rw [refresh_eq hsize hfields] at hrefresh
  by_cases hlen : (dateTimeText tm).length = 19
  · rw [if_pos hlen] at hrefresh
    exact ⟨tm, hfields, hlen, (Except.ok.inj hrefresh).symm⟩
  · rw [if_neg hlen] at hrefresh
    cases hrefresh

theorem cached_refresh {c' : LogClock} (hc : c.Cached h) {ts : ℤ} (hrefresh : c.refresh (second ts) = .ok c') :
    c'.Cached { h with shown := some (second ts, h.zone) } := by
  obtain ⟨tm,hfields,hlen,rfl⟩ := refresh_ok hc.size hrefresh
  refine ⟨hc.zone, ?_, ?_, ?_⟩
  · have hsize := hc.size
    dsimp only
    rw [CharArray.length_overwrite, hsize]
    rw [List.length_append, List.length_singleton]
    omega
  · intro hnone
    cases hnone
  · intro shown hshown
    obtain rfl := Option.some.inj hshown
    exact ⟨rfl, tm, hc.zone ▸ hfields, (unbroken_dateTimeText tm).cString_overwrite _, hlen⟩

/-- Every event keeps track of the zone by which the cached second was formatted. -/
theorem cached_step {e : LogEvent} {c' : LogClock} {out : List Bytes} (hc : c.Cached h)
    (hstep : c.step e = .ok (c', out)) : c'.Cached (h.after e) := by
  cases e with
  | setTimeZone tz =>
    obtain ⟨rfl,_⟩ := Prod.mk.inj (Except.ok.inj hstep)
    exact ⟨rfl, hc.size, hc.unused, hc.used⟩
  | record array ts =>
    obtain ⟨⟨c1,s1⟩,hformat,heq⟩ := Runs.map_ok hstep
    obtain ⟨rfl,_⟩ := Prod.mk.inj heq
    rw [LogHistory.after]
    by_cases hsecond : second ts = c.lastSecond
    · rw [formatTime_of_eq hsecond] at hformat
      obtain ⟨s2,hput,heq⟩ := Runs.map_ok hformat
      obtain ⟨rfl,_⟩ := Prod.mk.inj heq
      cases hshown : h.shown with
      | none =>
        -- nothing has been formatted, and the empty text fails its check
        obtain ⟨_,hempty⟩ := hc.unused hshown
        rw [putTime_eq, hempty, if_neg (by simp)] at hput
        cases hput
      | some shown =>
        have hlast := (hc.used shown hshown).1
        rw [if_pos (by rw [Option.map_some, hsecond, hlast])]
        exact hc
    · rw [formatTime_of_ne hsecond] at hformat
      obtain ⟨c2,hrefresh,hput⟩ := Runs.bind_ok hformat
      obtain ⟨s2,_,heq⟩ := Runs.map_ok hput
      obtain ⟨rfl,_⟩ := Prod.mk.inj heq
      have hnew : h.shown.map Prod.fst ≠ some (second ts) := by
        intro hsome
        obtain ⟨shown,hshown,hfst⟩ := Option.map_eq_some_iff.mp hsome
        exact hsecond ((hfst.symm).trans (hc.used shown hshown).1.symm)
      rw [if_neg hnew]
      exact cached_refresh hc hrefresh

theorem cached_run {events : List LogEvent} {out : List Bytes} (hrun : Runs.run step initial events = .ok (c, out)) :
    c.Cached (.of events) := by
  have hall : ∀ (events : List LogEvent) (c0 : LogClock) (h0 : LogHistory) (out : List Bytes),
      c0.Cached h0 → Runs.run step c0 events = .ok (c, out) → c.Cached (events.foldl LogHistory.after h0) := by
    intro events
    induction events with
    | nil =>
      intro c0 h0 out hc0 hrun
      obtain ⟨rfl,_⟩ := Prod.mk.inj (Except.ok.inj hrun)
      exact hc0
    | cons e events ih =>
      intro c0 h0 out hc0 hrun
      obtain ⟨c1,o1,o2,h1,h2,_⟩ := Runs.run_cons_ok hrun
      exact ih c1 (h0.after e) o2 (cached_step hc0 h1) h2
  exact hall events initial .initial out cached_initial hrun

/-- The time depends on the zone in force and on the cached text alone. -/
theorem putTime_congr {c1 c2 : LogClock} (hzone : c1.zone = c2.zone)
    (htime : Scanf.cString c1.time = Scanf.cString c2.time) (stream : LogStream) (u : ℤ) :
    c1.putTime stream u = c2.putTime stream u := by
  have hsuffix : c1.suffix u = c2.suffix u := by rw [suffix, suffix, hzone]
  have hlength : c1.suffixLength = c2.suffixLength := by rw [suffixLength, suffixLength, hzone]
  rw [putTime_eq, putTime_eq, hsuffix, hlength, htime]

/-- A record whose second is shown alike gets the text that it would get anew. -/
theorem formatTime_anew_of_agrees (hc : c.Cached h) {ts : ℤ} (hagrees : h.Agrees ts) (stream : LogStream) :
    (c.formatTime stream ts).map Prod.snd = ((c.anew ts).formatTime stream ts).map Prod.snd := by
  by_cases hsecond : second ts = c.lastSecond
  · rw [LogHistory.Agrees] at hagrees
    cases hshown : h.shown with
    | none =>
      rw [hshown] at hagrees
      exact absurd (hsecond.trans (hc.unused hshown).1) hagrees
    | some shown =>
      obtain ⟨hlast,tm,hfields,htext,hlen⟩ := hc.used shown hshown
      rw [hshown] at hagrees
      obtain ⟨tm1,tm2,h1,h2,hclock⟩ := hagrees (hsecond.trans hlast)
      have hsame : dateTimeText tm1 = dateTimeText tm := by
        rw [dateTimeText_congr hclock, Except.ok.inj (h2.symm.trans hfields)]
      have hzone : c.zone.fields (second ts) = .ok tm1 := by rw [hc.zone, hsecond, hlast, h1]
      rw [formatTime_of_eq hsecond, formatTime_anew, refresh_eq hc.size hzone, hsame, if_pos hlen]
      dsimp only [Except.bind]
      have hput (u : ℤ) : c.putTime stream u = putTime { c with
          lastSecond := second ts
          time := CharArray.overwrite c.time 0 (dateTimeText tm ++ [0]) } stream u := by
        apply putTime_congr
        · rfl
        · exact htext.trans ((unbroken_dateTimeText tm).cString_overwrite c.time).symm
      rw [hput]
      cases putTime _ stream (ts.tmod kMicrosecondsPerSecond) with
      | error e => rfl
      | ok s => rfl
  · rw [formatTime_of_ne hsecond, formatTime_anew]

/-- What a record begins with. -/
theorem putTime_new {array : Bytes} (harray : array.length = kSmallBuffer) {u : ℤ} {s : LogStream}
    (hput : c.putTime (.new array) u = .ok s) : (Scanf.cString c.time).length = 19 ∧
      (c.suffix u).length = c.suffixLength ∧ ∃ t, s.Holds t ∧ t.content = Scanf.cString c.time ++ c.suffix u := by
  have hcond : (c.suffix u).length = c.suffixLength ∧ (Scanf.cString c.time).length = 19 := by
    by_contra hnot
    rw [putTime_eq, if_neg hnot] at hput
    cases hput
  obtain ⟨hsuffix,htime⟩ := hcond
  have hlength : c.suffixLength ≤ 9 := by
    rw [suffixLength]
    split <;> decide
  have hsmall : kSmallBuffer = 4000 := rfl
  let P := Token.pieces LogStream.wholeDoubles
  obtain ⟨s1,h1,hholds⟩ := c.putTime_holds LogStream.wholeDoubles (LogStream.new_holds harray) hsuffix htime
  obtain rfl := Except.ok.inj (hput.symm.trans h1)
  have hfirst : (P.add LogStream.emptyText ⟨.string (Scanf.cString c.time), trivial⟩).content =
      Scanf.cString c.time := by
    rw [BoundedText.Pieces.content_add_of_le]
    · rfl
    · show 0+((Scanf.cString c.time).length+1) ≤ kSmallBuffer
      omega
  refine ⟨htime, hsuffix, _, hholds, ?_⟩
  show (P.add (P.add LogStream.emptyText ⟨.string (Scanf.cString c.time), trivial⟩)
    ⟨.string (c.suffix u), trivial⟩).content = _
  rw [BoundedText.Pieces.content_add_of_le, hfirst]
  · rfl
  · rw [hfirst]
    show (Scanf.cString c.time).length+((c.suffix u).length+1) ≤ kSmallBuffer
    omega

theorem putTime_content {array : Bytes} (harray : array.length = kSmallBuffer) {u : ℤ} {s : LogStream}
    (hput : c.putTime (.new array) u = .ok s) : s.buffer.content = Scanf.cString c.time ++ c.suffix u := by
  obtain ⟨_,_,t,hholds,hcontent⟩ := putTime_new harray hput
  exact hholds.content.trans hcontent

/-- A record that can be formatted anew has that text only if its second is shown alike. -/
theorem agrees_of_formatTime_anew (hc : c.Cached h) {ts : ℤ} {array : Bytes}
    (harray : array.length = kSmallBuffer) {s : LogStream}
    (hfresh : ((c.anew ts).formatTime (.new array) ts).map Prod.snd = .ok s)
    (hformat : (c.formatTime (.new array) ts).map Prod.snd = .ok s) : h.Agrees ts := by
  obtain ⟨⟨c1,s1⟩,hanew,hs1⟩ := Runs.map_ok hfresh
  obtain ⟨⟨c2,s2⟩,hcached,hs2⟩ := Runs.map_ok hformat
  have hboth : s2 = s1 := hs2.trans hs1.symm
  rw [formatTime_anew] at hanew
  obtain ⟨c3,hrefresh,hrest⟩ := Runs.bind_ok hanew
  obtain ⟨s3,hput3,hpair3⟩ := Runs.map_ok hrest
  obtain ⟨_,hs3⟩ := Prod.mk.inj hpair3
  obtain ⟨tm3,hfields3,hlen3,hc3⟩ := refresh_ok hc.size hrefresh
  have htext3 : Scanf.cString c3.time = dateTimeText tm3 := by
    rw [hc3]
    exact (unbroken_dateTimeText tm3).cString_overwrite _
  have hzone3 : c3.suffix (ts.tmod kMicrosecondsPerSecond) = c.suffix (ts.tmod kMicrosecondsPerSecond) := by
    rw [suffix, suffix, hc3]
  have hcontent3 := putTime_content harray hput3
  by_cases hsecond : second ts = c.lastSecond
  · rw [formatTime_of_eq hsecond] at hcached
    obtain ⟨s4,hput,hpair⟩ := Runs.map_ok hcached
    obtain ⟨_,hs4⟩ := Prod.mk.inj hpair
    have hlen := (putTime_new harray hput).1
    have hcontent := putTime_content harray hput
    rw [hs4, hboth, ← hs3, hcontent3, htext3, hzone3] at hcontent
    have htext := List.append_cancel_right hcontent
    rw [LogHistory.Agrees]
    cases hshown : h.shown with
    | none =>
      rw [(hc.unused hshown).2] at hlen
      cases hlen
    | some shown =>
      intro _
      obtain ⟨hlast,tm,hfields,hkept,_⟩ := hc.used shown hshown
      rw [hkept] at htext
      refine ⟨tm3, tm, ?_, hfields, ?_⟩
      · rw [← hc.zone, ← hlast, ← hsecond, hfields3]
      · exact dateTimeText_inj (TimeZone.fields_twoDigits hfields3) (TimeZone.fields_twoDigits hfields) htext
  · -- another second than the cached one
    rw [LogHistory.Agrees]
    cases hshown : h.shown with
    | none => exact fun hzero => hsecond (hzero.trans (hc.unused hshown).1.symm)
    | some shown => exact fun hsame => absurd (hsame.trans (hc.used shown hshown).1.symm) hsecond

/-- From 1970 on a second whose text has 19 characters can be formatted. -/
theorem formatTime_anew_ok (hc : c.Cached h) {ts : ℤ} (h0 : 0 ≤ ts) {array : Bytes}
    (harray : array.length = kSmallBuffer) {tm : Tm} (hfields : h.zone.fields (second ts) = .ok tm)
    (hlen : (dateTimeText tm).length = 19) :
    ∃ s, ((c.anew ts).formatTime (.new array) ts).map Prod.snd = .ok s := by
  have hmod : ts.tmod kMicrosecondsPerSecond = ts%1000000 := Int.tmod_eq_emod_of_nonneg h0
  have hsix : (zeroPadded 6 (ts%1000000)).length = 6 := by
    rw [zeroPadded_eq (by decide) (by omega) (by omega), decimalDigits.length_fixed]
  have hsuffix (c : LogClock) : (c.suffix (ts%1000000)).length = c.suffixLength := by
    rw [suffix, suffixLength, List.length_append, List.length_append, hsix]
    split <;> simp [ascii]
  rw [← hc.zone] at hfields
  rw [formatTime_anew, refresh_eq hc.size hfields, if_pos hlen, hmod]
  dsimp only [Except.bind]
  obtain ⟨s,hput,_⟩ := putTime_holds LogStream.wholeDoubles { c with
    lastSecond := second ts
    time := CharArray.overwrite c.time 0 (dateTimeText tm ++ [0]) } (LogStream.new_holds harray)
    (hsuffix _) (by rw [(unbroken_dateTimeText tm).cString_overwrite, hlen])
  rw [hput]
  exact ⟨s, rfl⟩

end LogClock

section Runs
variable (events : List LogEvent)

/-- Every record gets the text that it would get if its second were formatted anew. -/
def AllAnew : Prop := ∀ n array ts, events[n]? = some (.record array ts) → ∀ c out,
  Runs.run LogClock.step .initial (events.take n) = .ok (c, out) →
    (c.formatTime (.new array) ts).map Prod.snd = ((c.anew ts).formatTime (.new array) ts).map Prod.snd

/-- Every record finds its second shown as the zone in force shows it. -/
def AllAgree : Prop := ∀ n array ts, events[n]? = some (.record array ts) →
  (LogHistory.of (events.take n)).Agrees ts

/-- Every record can be formatted anew, in a buffer of the size that streams have. -/
def AllFormat : Prop := ∀ n array ts, events[n]? = some (.record array ts) →
  array.length = kSmallBuffer ∧ ∀ c out,
    Runs.run LogClock.step .initial (events.take n) = .ok (c, out) →
      ∃ s, ((c.anew ts).formatTime (.new array) ts).map Prod.snd = .ok s

variable {events}

theorem allAnew_of_allAgree (h : AllAgree events) : AllAnew events := by
  intro n array ts hevent c out hrun
  exact LogClock.formatTime_anew_of_agrees (LogClock.cached_run hrun) (h n array ts hevent) _

/-- The run goes through if every record gets the text that it gets anew, and gets one. -/
theorem run_ok_of_allAnew (hformat : AllFormat events) (hanew : AllAnew events) (n : ℕ) :
    ∃ c out, Runs.run LogClock.step .initial (events.take n) = .ok (c, out) := by
  induction n with
  | zero => exact ⟨_, _, rfl⟩
  | succ n ih =>
    obtain ⟨c,out,hrun⟩ := ih
    rw [List.take_add_one]
    cases hevent : events[n]? with
    | none => exact ⟨c, out, by rwa [Option.toList_none, List.append_nil]⟩
    | some e =>
      have hstep : ∃ c' out', c.step e = .ok (c', out') := by
        cases e with
        | setTimeZone tz => exact ⟨_, _, rfl⟩
        | record array ts =>
          obtain ⟨s,hs⟩ := (hformat n array ts hevent).2 c out hrun
          rw [← hanew n array ts hevent c out hrun] at hs
          obtain ⟨r,hr,_⟩ := Runs.map_ok hs
          exact ⟨r.1, [r.2.buffer.content], by rw [LogClock.step, hr]; rfl⟩
      obtain ⟨c',out',hstep⟩ := hstep
      rw [Option.toList_some]
      exact ⟨c', _, Runs.run_append_of_ok hrun (Runs.run_single hstep)⟩

theorem allAgree_of_allAnew (hformat : AllFormat events) (hanew : AllAnew events) : AllAgree events := by
  intro n array ts hevent
  obtain ⟨c,out,hrun⟩ := run_ok_of_allAnew hformat hanew n
  obtain ⟨harray,hfresh⟩ := hformat n array ts hevent
  obtain ⟨s,hs⟩ := hfresh c out hrun
  have hsame := hanew n array ts hevent c out hrun
  exact LogClock.agrees_of_formatTime_anew (LogClock.cached_run hrun) harray hs (hsame.trans hs)

end Runs

/-- In a run whose records all find their second shown as the zone in force shows it, each record gets the
text that it would get anew. Where all of them can be formatted, only such runs do. -/
theorem cached_time (events : List LogEvent) : (AllAgree events → AllAnew events) ∧
    (AllFormat events → AllAnew events → AllAgree events) :=
  ⟨allAnew_of_allAgree, allAgree_of_allAnew⟩

/-- The zone eight hours east of UTC. -/
def chinaTime : TimeZone := .ofOffset 28800 (ascii "CST")

/-- A change of the zone between two records, the second of them at a given time. -/
def zoneChange (ts : ℤ) : List LogEvent :=
  [.record (List.replicate 4000 0) 1000000000, .setTimeZone chinaTime, .record (List.replicate 4000 0) ts]

theorem zoneChange_format {ts : ℤ} (h0 : 0 ≤ ts)
    (hlen : (dateTimeText (gmtime (LogClock.second ts+28800))).length = 19) : AllFormat (zoneChange ts) := by
  intro n array ts' hevent
  have harray : (List.replicate 4000 (0 : UInt8)).length = kSmallBuffer := List.length_replicate
  have hutc : (dateTimeText (gmtime 1000)).length = 19 := by decide
  match n with
  | 0 =>
    obtain ⟨rfl,rfl⟩ := LogEvent.record.inj (Option.some.inj hevent)
    refine ⟨harray, ?_⟩
    intro c out hrun
    exact LogClock.formatTime_anew_ok (LogClock.cached_run hrun) (by decide) harray rfl hutc
  | 1 => cases hevent
  | 2 =>
    obtain ⟨rfl,rfl⟩ := LogEvent.record.inj (Option.some.inj hevent)
    refine ⟨harray, ?_⟩
    intro c out hrun
    exact LogClock.formatTime_anew_ok (LogClock.cached_run hrun) h0 harray rfl hlen
  | n+3 => cases hevent

/-- The second record is in a later second. -/
theorem cached_time_later : AllAnew (zoneChange 2000000000) ∧ AllAgree (zoneChange 2000000000) := by
  have hagree : AllAgree (zoneChange 2000000000) := by
    intro n array ts hevent
    match n with
    | 0 =>
      obtain ⟨rfl,rfl⟩ := LogEvent.record.inj (Option.some.inj hevent)
      exact (by decide : LogClock.second 1000000000 ≠ 0)
    | 1 => cases hevent
    | 2 =>
      obtain ⟨rfl,rfl⟩ := LogEvent.record.inj (Option.some.inj hevent)
      intro hsame
      exact absurd hsame (by decide : LogClock.second 2000000000 ≠ LogClock.second 1000000000)
    | n+3 => cases hevent
  have hanew := (cached_time (zoneChange 2000000000)).1 hagree
  exact ⟨hanew, (cached_time (zoneChange 2000000000)).2 (zoneChange_format (by decide) (by decide)) hanew⟩

/-- In the same second the second record still has the time in UTC. -/
theorem cached_time_fails : ¬AllAnew (zoneChange 1000000000) := by
  intro hanew
  have hagrees := allAgree_of_allAnew (zoneChange_format (by decide) (by decide)) hanew 2 _ _ rfl
  obtain ⟨tm1,tm2,h1,h2,hclock⟩ := hagrees rfl
  have hhour1 : tm1.hour = 8 := by
    rw [← Except.ok.inj h1]
    decide
  have hhour2 : tm2.hour = 0 := by
    rw [← Except.ok.inj h2]
    decide
  have hsame := hclock.hour
  omega

end IdealServer
