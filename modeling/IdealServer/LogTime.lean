import IdealServer.FormattedTime
import IdealServer.LocalTime
import IdealServer.LogTokens
import IdealServer.Runs

/-! `Logger::Impl::formatTime`: the time in front of a log record, of which a thread keeps the last second as
a text. -/
namespace IdealServer

/-- What `%F %H:%M:%S` prints. -/
def dateTimeText (tm : Tm) : Bytes :=
  decimalText (tm.year+1900) ++ (ascii "-" ++ (zeroPadded 2 (tm.mon+1) ++ (ascii "-" ++ (zeroPadded 2 tm.mday ++
    (ascii " " ++ (zeroPadded 2 tm.hour ++ (ascii ":" ++ (zeroPadded 2 tm.min ++ (ascii ":" ++
      zeroPadded 2 tm.sec)))))))))

/-- `strftime` returns 0 if the text and its terminator do not fit. -/
def strftime (s : Bytes) (max : ℕ) (tm : Tm) : Except Fault (Bytes × ℕ) :=
  if (dateTimeText tm).length < max then do
    let data ← CharArray.copyTo s 0 (dateTimeText tm ++ [0])
    return (data, (dateTimeText tm).length)
  else return (s, 0)

/-- `Fmt` -/
def fmt (text : Bytes) : Except Fault Bytes :=
  if text.length < 32 then .ok text else .error .assertFailed

/-- `T` has the length of its text checked. -/
def LogStream.insertT (s : LogStream) (str : Bytes) (len : ℕ) : Except Fault LogStream :=
  if (Scanf.cString str).length = len then s.append str len else .error .assertFailed

/-- `t_lastSecond` and `t_time` of one thread, and `g_logTimeZone`. -/
structure LogClock where
  lastSecond : ℤ
  time : Bytes
  zone : TimeZone
deriving DecidableEq, Repr

/-- The fields of a second in a zone, or in UTC if the zone is not valid. -/
def TimeZone.fields (zone : TimeZone) (seconds : ℤ) : Except Fault Tm :=
  if zone.valid then zone.toLocalTime gmtime seconds else .ok (gmtime seconds)

namespace LogClock

/-- Thread variables are filled with zeros, and the zone has no data. -/
def initial : LogClock := ⟨0, List.replicate 64 0, ⟨none⟩⟩

/-- The second is formatted into `t_time`. -/
def refresh (c : LogClock) (seconds : ℤ) : Except Fault LogClock := do
  let tm_time ← c.zone.fields seconds
  let r ← strftime c.time 64 tm_time
  if r.2 = 19 then return { c with lastSecond := seconds, time := r.1 } else .error .assertFailed

/-- The suffix is that of the zone in force. -/
def putTime (c : LogClock) (stream : LogStream) (microseconds : ℤ) : Except Fault LogStream :=
  if c.zone.valid then do
    let us ← fmt (ascii "." ++ zeroPadded 6 microseconds ++ ascii " ")
    if us.length = 8 then (← stream.insertT c.time 19).insertT us 8 else .error .assertFailed
  else do
    let us ← fmt (ascii "." ++ zeroPadded 6 microseconds ++ ascii "Z ")
    if us.length = 9 then (← stream.insertT c.time 19).insertT us 9 else .error .assertFailed

/-- `secondsSinceEpoch` -/
def second (microsecondsSinceEpoch : ℤ) : ℤ := microsecondsSinceEpoch.tdiv kMicrosecondsPerSecond

def formatTime (c : LogClock) (stream : LogStream) (microsecondsSinceEpoch : ℤ) :
    Except Fault (LogClock × LogStream) := do
  let seconds := second microsecondsSinceEpoch
  let microseconds := microsecondsSinceEpoch.tmod kMicrosecondsPerSecond
  let c ← (if seconds ≠ c.lastSecond then c.refresh seconds else pure c)
  let stream ← c.putTime stream microseconds
  return (c, stream)

def setTimeZone (c : LogClock) (tz : TimeZone) : LogClock := { c with zone := tz }

/-- The clock of a thread that formatted another second last. -/
def anew (c : LogClock) (microsecondsSinceEpoch : ℤ) : LogClock :=
  { c with lastSecond := second microsecondsSinceEpoch+1 }

end LogClock

inductive LogEvent
  /-- A record is begun, in a buffer that has not been initialized. -/
  | record (array : Bytes) (microsecondsSinceEpoch : ℤ)
  | setTimeZone (tz : TimeZone)

/-- A record emits what is in its stream then. -/
def LogClock.step (c : LogClock) : LogEvent → Except Fault (LogClock × List Bytes)
  | .record array ts =>
    (c.formatTime (.new array) ts).map (fun r => (r.1, [r.2.buffer.content]))
  | .setTimeZone tz => .ok (c.setTimeZone tz, [])

/-- What happened so far: the zone in force, the second of the last record, and the zone that was in force
when that second was formatted. -/
structure LogHistory where
  zone : TimeZone
  shown : Option (ℤ × TimeZone)

namespace LogHistory

def initial : LogHistory := ⟨⟨none⟩, none⟩

def after (h : LogHistory) : LogEvent → LogHistory
  | .record _ ts =>
    if h.shown.map Prod.fst = some (LogClock.second ts) then h
    else { h with shown := some (LogClock.second ts, h.zone) }
  | .setTimeZone tz => { h with zone := tz }

def of (events : List LogEvent) : LogHistory := events.foldl after initial

/-- Two zones show a second with the same date and time. -/
def SameFields (z1 z2 : TimeZone) (seconds : ℤ) : Prop :=
  ∃ tm1 tm2, z1.fields seconds = .ok tm1 ∧ z2.fields seconds = .ok tm2 ∧ tm1.SameClock tm2

/-- The first record is not in the second 0, and a record in the second of the one before it finds that
second shown as the zone in force shows it. -/
def Agrees (h : LogHistory) (microsecondsSinceEpoch : ℤ) : Prop :=
  match h.shown with
  | none => LogClock.second microsecondsSinceEpoch ≠ 0
  | some shown => LogClock.second microsecondsSinceEpoch = shown.1 → SameFields h.zone shown.2 shown.1

end LogHistory

/-! What is printed holds no zero and no newline. -/

/-- Text without zeros and newlines. -/
def Unbroken (text : Bytes) : Prop := ∀ b ∈ text, b ≠ 0 ∧ b ≠ LF

theorem Unbroken.append {s t : Bytes} (hs : Unbroken s) (ht : Unbroken t) : Unbroken (s ++ t) := by
  intro b hb
  rcases List.mem_append.mp hb with h | h
  · exact hs b h
  · exact ht b h

theorem unbroken_of_isDigit {text : Bytes} (h : ∀ c ∈ text, decimalDigits.IsDigit c) : Unbroken text := by
  have hsymbol : ∀ d < decimalDigits.base, decimalDigits.symbol d ≠ 0 ∧ decimalDigits.symbol d ≠ LF := by
    decide
  intro b hb
  obtain ⟨d,hd,rfl⟩ := h b hb
  exact hsymbol d hd

theorem Unbroken.minus {text : Bytes} (h : Unbroken text) : Unbroken (45 :: text) := by
  intro b hb
  rcases List.mem_cons.mp hb with rfl | hb
  · decide
  · exact h b hb

theorem unbroken_numeral (n : ℕ) : Unbroken (decimalDigits.numeral n) :=
  unbroken_of_isDigit (decimalDigits.numeral_canonical n).digits

theorem unbroken_decimalText (v : ℤ) : Unbroken (decimalText v) := by
  rw [decimalText]
  split
  · exact (unbroken_numeral _).minus
  · exact unbroken_numeral _

theorem unbroken_zeroPadded (w : ℕ) (v : ℤ) : Unbroken (zeroPadded w v) := by
  have hpadded (w n : ℕ) : Unbroken (decimalDigits.padded w n) := by
    apply Unbroken.append _ (unbroken_numeral n)
    intro b hb
    rw [List.eq_of_mem_replicate hb]
    decide
  rw [zeroPadded]
  split
  · exact (hpadded _ _).minus
  · exact hpadded _ _

theorem unbroken_dateTimeText (tm : Tm) : Unbroken (dateTimeText tm) := by
  have hminus : Unbroken (ascii "-") := by simp [Unbroken, ascii, LF]
  have hblank : Unbroken (ascii " ") := by simp [Unbroken, ascii, LF]
  have hcolon : Unbroken (ascii ":") := by simp [Unbroken, ascii, LF]
  rw [dateTimeText]
  apply (unbroken_decimalText _).append
  apply hminus.append
  apply (unbroken_zeroPadded _ _).append
  apply hminus.append
  apply (unbroken_zeroPadded _ _).append
  apply hblank.append
  apply (unbroken_zeroPadded _ _).append
  apply hcolon.append
  apply (unbroken_zeroPadded _ _).append
  exact hcolon.append (unbroken_zeroPadded _ _)

theorem Unbroken.cString_append_zero {text rest : Bytes} (h : Unbroken text) :
    Scanf.cString (text ++ 0 :: rest) = text := by
  rw [Scanf.cString_append (fun b hb => (h b hb).1)]
  exact List.append_nil text

theorem Unbroken.cString_eq {text : Bytes} (h : Unbroken text) : Scanf.cString text = text :=
  Scanf.cString_eq (fun b hb => (h b hb).1)

/-- A text and its terminator at the start of an array. -/
theorem Unbroken.cString_overwrite {text : Bytes} (h : Unbroken text) (data : Bytes) :
    Scanf.cString (CharArray.overwrite data 0 (text ++ [0])) = text := by
  rw [CharArray.overwrite, List.take_zero, List.nil_append, List.append_assoc]
  exact h.cString_append_zero

/-- `T` appends what its array shows as a string. -/
theorem LogStream.insertT_eq (s : LogStream) {str : Bytes} {len : ℕ} (h : (Scanf.cString str).length = len) :
    s.insertT str len = s.append (Scanf.cString str) len := by
  have hprefix : Scanf.cString str <+: str := List.takeWhile_prefix _
  have hread : readBytes str 0 len = readBytes (Scanf.cString str) 0 len := by
    have hle := hprefix.length_le
    rw [readBytes_eq _ _ _ (by omega), readBytes_eq _ _ _ (by omega), List.drop_zero, List.drop_zero, ← h,
      List.take_length, ← List.prefix_iff_eq_take.mp hprefix]
  rw [insertT, if_pos h, append, append, FixedBuffer.append, FixedBuffer.append, hread]

namespace LogClock

def suffix (c : LogClock) (microseconds : ℤ) : Bytes :=
  ascii "." ++ zeroPadded 6 microseconds ++ (if c.zone.valid then ascii " " else ascii "Z ")

def suffixLength (c : LogClock) : ℕ := if c.zone.valid then 8 else 9

theorem unbroken_suffix (c : LogClock) (microseconds : ℤ) : Unbroken (c.suffix microseconds) := by
  have hdot : Unbroken (ascii ".") := by simp [Unbroken, ascii, LF]
  have hblank : Unbroken (ascii " ") := by simp [Unbroken, ascii, LF]
  have hz : Unbroken (ascii "Z ") := by simp [Unbroken, ascii, LF]
  apply (hdot.append (unbroken_zeroPadded 6 microseconds)).append
  split
  · exact hblank
  · exact hz

/-- The time is put into the stream if the cached text and the suffix have their lengths. -/
theorem putTime_eq (c : LogClock) (stream : LogStream) (u : ℤ) : c.putTime stream u =
    if (c.suffix u).length = c.suffixLength ∧ (Scanf.cString c.time).length = 19 then
      (stream.append (Scanf.cString c.time) 19).bind
        (fun s => s.append (c.suffix u) c.suffixLength)
    else .error .assertFailed := by
  have hunbroken := (c.unbroken_suffix u).cString_eq
  by_cases hsuffix : (c.suffix u).length = c.suffixLength
  · have hT (s : LogStream) : s.insertT (c.suffix u) c.suffixLength = s.append (c.suffix u) c.suffixLength := by
      have h := s.insertT_eq (show (Scanf.cString (c.suffix u)).length = c.suffixLength by
        rw [hunbroken, hsuffix])
      rwa [hunbroken] at h
    by_cases htime : (Scanf.cString c.time).length = 19
    · have hstream := stream.insertT_eq htime
      rw [if_pos ⟨hsuffix, htime⟩]
      cases hvalid : c.zone.valid with
      | true | false =>
        simp only [suffix, suffixLength, hvalid, if_true, Bool.false_eq_true, if_false] at hsuffix hT
        simp only [putTime, fmt, suffix, suffixLength, hvalid, if_true, Bool.false_eq_true, if_false, hsuffix,
          bind, Except.bind, hstream, hT, Nat.reduceLT]
    · have hstream : stream.insertT c.time 19 = .error .assertFailed := if_neg htime
      rw [if_neg (fun h => htime h.2)]
      cases hvalid : c.zone.valid with
      | true | false =>
        simp only [suffix, suffixLength, hvalid, if_true, Bool.false_eq_true, if_false] at hsuffix
        simp only [putTime, fmt, hvalid, if_true, Bool.false_eq_true, if_false, hsuffix, bind, Except.bind,
          hstream, Nat.reduceLT]
  · rw [if_neg (fun h => hsuffix h.1)]
    cases hvalid : c.zone.valid with
    | true | false =>
      simp only [suffix, suffixLength, hvalid, if_true, Bool.false_eq_true, if_false] at hsuffix
      simp only [putTime, fmt, hvalid, if_true, Bool.false_eq_true, if_false]
      split
      · exact if_neg hsuffix
      · rfl

/-- The two texts are put in like any others. -/
theorem putTime_holds (F : FloatFormat) (c : LogClock) {s : LogStream}
    {t : BoundedText.Text UInt8 kSmallBuffer} (h : s.Holds t) {u : ℤ}
    (hsuffix : (c.suffix u).length = c.suffixLength) (htime : (Scanf.cString c.time).length = 19) :
    ∃ s', c.putTime s u = .ok s' ∧ s'.Holds ((Token.pieces F).add
      ((Token.pieces F).add t ⟨.string (Scanf.cString c.time), trivial⟩) ⟨.string (c.suffix u), trivial⟩) := by
  obtain ⟨s1,h1,hholds1⟩ := LogStream.append_holds F h (Scanf.cString c.time)
  obtain ⟨s2,h2,hholds2⟩ := LogStream.append_holds F hholds1 (c.suffix u)
  rw [htime] at h1
  rw [hsuffix] at h2
  rw [putTime_eq, if_pos ⟨hsuffix, htime⟩, h1]
  exact ⟨s2, h2, hholds2⟩

theorem formatTime_of_ne {c : LogClock} {ts : ℤ} (h : second ts ≠ c.lastSecond) (stream : LogStream) :
    c.formatTime stream ts = (c.refresh (second ts)).bind (fun c =>
      (c.putTime stream (ts.tmod kMicrosecondsPerSecond)).map (fun s => (c, s))) := by
  rw [formatTime]
  simp only [if_pos h]
  rfl

theorem formatTime_of_eq {c : LogClock} {ts : ℤ} (h : second ts = c.lastSecond) (stream : LogStream) :
    c.formatTime stream ts =
      (c.putTime stream (ts.tmod kMicrosecondsPerSecond)).map (fun s => (c, s)) := by
  rw [formatTime]
  simp only [if_neg (not_not_intro h)]
  rfl

theorem formatTime_anew (c : LogClock) (ts : ℤ) (stream : LogStream) :
    (c.anew ts).formatTime stream ts = (c.refresh (second ts)).bind (fun c =>
      (c.putTime stream (ts.tmod kMicrosecondsPerSecond)).map (fun s => (c, s))) := by
  have hne : second ts ≠ (c.anew ts).lastSecond := by
    show second ts ≠ second ts+1
    omega
  exact formatTime_of_ne hne stream

theorem refresh_eq {c : LogClock} (h : c.time.length = 64) {seconds : ℤ} {tm : Tm}
    (hfields : c.zone.fields seconds = .ok tm) : c.refresh seconds =
      if (dateTimeText tm).length = 19 then
        .ok { c with lastSecond := seconds, time := CharArray.overwrite c.time 0 (dateTimeText tm ++ [0]) }
      else .error .assertFailed := by
  by_cases hlen : (dateTimeText tm).length = 19
  · have hcopy := CharArray.copyTo_eq (show 0+(dateTimeText tm ++ [0]).length ≤ c.time.length by
      rw [List.length_append, List.length_singleton]
      omega)
    have hfit : (dateTimeText tm).length < 64 := by omega
    rw [refresh, hfields, if_pos hlen]
    simp only [bind, Except.bind, strftime, if_pos hfit, hcopy, pure, Except.pure, if_pos hlen]
  · rw [refresh, hfields, if_neg hlen]
    simp only [bind, Except.bind, strftime]
    by_cases hfit : (dateTimeText tm).length < 64
    · have hcopy := CharArray.copyTo_eq (show 0+(dateTimeText tm ++ [0]).length ≤ c.time.length by
        rw [List.length_append, List.length_singleton]
        omega)
      simp only [if_pos hfit, hcopy, pure, Except.pure, if_neg hlen]
    · simp only [if_neg hfit, pure, Except.pure]
      rfl

end LogClock

end IdealServer
