import IdealServer.LogCache

/-! `Logger`: a record is put together in a stream and given to the output when the logger is destroyed. -/
namespace IdealServer

inductive LogLevel
  | TRACE
  | DEBUG
  | INFO
  | WARN
  | ERROR
  | FATAL
deriving DecidableEq, Repr

def LogLevelName : LogLevel → Bytes
  | .TRACE => ascii "TRACE "
  | .DEBUG => ascii "DEBUG "
  | .INFO => ascii "INFO  "
  | .WARN => ascii "WARN  "
  | .ERROR => ascii "ERROR "
  | .FATAL => ascii "FATAL "

/-- Where a character stands last in a string. -/
def strrchr (s : Bytes) (c : UInt8) : Option ℕ :=
  ((Scanf.cString s).reverse.idxOf? c).map (fun i => (Scanf.cString s).length-1-i)

/-- A pointer into a file name and a length. -/
structure SourceFile where
  data : Bytes
  size : ℕ
  size_le : size ≤ data.length

namespace SourceFile

/-- The constructor for arrays. The bytes are those in front of the terminator. -/
def ofArray (arr : Bytes) : SourceFile :=
  match strrchr arr 47 with
  | some slash => ⟨arr.drop (slash+1), arr.length-(slash+1), List.length_drop.ge⟩
  | none => ⟨arr, arr.length, Nat.le_refl _⟩

def text (file : SourceFile) : Bytes := file.data.take file.size

end SourceFile

/-- The four constructors of `Logger`, with the arguments that only some of them have. -/
inductive LoggerKind
  | plain
  | level (level : LogLevel)
  | func (level : LogLevel) (func : Bytes)
  | sys (toAbort : Bool)

namespace LoggerKind

def logLevel : LoggerKind → LogLevel
  | .plain => .INFO
  | .level l => l
  | .func l _ => l
  | .sys toAbort => if toAbort then .FATAL else .ERROR

/-- The error number of the thread is kept by one constructor. -/
def savedErrno (errno : BitVec 32) : LoggerKind → BitVec 32
  | .sys _ => errno
  | _ => 0

end LoggerKind

/-- A log statement with what it finds in its thread: the buffer before it is initialized, the clock, the
thread and the error number. -/
structure LogStatement (F : FloatFormat) where
  array : Bytes
  microsecondsSinceEpoch : ℤ
  tid : BitVec 32
  errno : BitVec 32
  file : SourceFile
  line : BitVec 32
  kind : LoggerKind
  tokens : List {t : Token F // t.Legal}

namespace LogStatement
variable {F : FloatFormat} (strerror : BitVec 32 → Bytes) (x : LogStatement F)

/-- What `getCachedTid` prints. -/
def tidText : Bytes := spacePadded 5 x.tid.toInt ++ ascii " "

def savedErrno : BitVec 32 := x.kind.savedErrno x.errno

def errnoTokens : List {t : Token F // t.Legal} :=
  if x.savedErrno ≠ 0 then
    [⟨.cstring (some (strerror x.savedErrno)), trivial⟩, ⟨.cstring (some (ascii " (errno = ")), trivial⟩,
      ⟨.integer .int x.savedErrno, trivial⟩, ⟨.cstring (some (ascii ") ")), trivial⟩]
  else []

def lineTokens : List {t : Token F // t.Legal} :=
  [⟨.char 58, trivial⟩, ⟨.integer .int x.line, trivial⟩, ⟨.cstring (some (ascii " - ")), trivial⟩]

def funcTokens : List {t : Token F // t.Legal} :=
  match x.kind with
  | .func _ func => [⟨.cstring (some func), trivial⟩, ⟨.char 32, trivial⟩]
  | _ => []

end LogStatement

namespace LogStream
variable {F : FloatFormat}

def insertLegal (s : LogStream) (is : List {t : Token F // t.Legal}) : Except Fault LogStream :=
  s.insertAll (is.map Subtype.val)

end LogStream

namespace Logger
variable {F : FloatFormat} (strerror : BitVec 32 → Bytes)

/-- `Logger::Impl::Impl` -/
def impl (c : LogClock) (x : LogStatement F) : Except Fault (LogClock × LogStream) := do
  let r ← c.formatTime (.new x.array) x.microsecondsSinceEpoch
  let s ← r.2.insertT (snprintf 32 [] x.tidText) x.tidText.length
  let s ← s.insertT (LogLevelName x.kind.logLevel) 6
  let s ← s.insertLegal (x.errnoTokens strerror)
  let s ← s.append x.file.data x.file.size
  let s ← s.insertLegal x.lineTokens
  return (r.1, s)

def finish (s : LogStream) : Except Fault LogStream := s.insert (F := F) (.char 10)

/-- A statement, from the construction of the logger to its destruction, and what is given to the output. A
record of the level `FATAL` ends the process then, but here the thread goes on. -/
def record (c : LogClock) (x : LogStatement F) : Except Fault (LogClock × Bytes) := do
  let r ← impl strerror c x
  let s ← r.2.insertLegal x.funcTokens
  let s ← s.insertLegal x.tokens
  let s ← finish (F := F) s
  return (r.1, s.buffer.content)

end Logger

inductive LogInput (F : FloatFormat)
  | log (x : LogStatement F)
  | setTimeZone (tz : TimeZone)

/-- A thread emits what it gives to the output. -/
def LogClock.logStep {F : FloatFormat} (strerror : BitVec 32 → Bytes) (c : LogClock) :
    LogInput F → Except Fault (LogClock × List Bytes)
  | .log x => (Logger.record strerror c x).map (fun r => (r.1, [r.2]))
  | .setTimeZone tz => .ok (c.setTimeZone tz, [])

namespace LogStatement
variable {F : FloatFormat} (strerror : BitVec 32 → Bytes) (x : LogStatement F)

/-- Everything that is put into the stream after the time and before the newline. -/
def pieces : List {t : Token F // t.Legal} :=
  [⟨.string x.tidText, trivial⟩, ⟨.string (LogLevelName x.kind.logLevel), trivial⟩] ++ x.errnoTokens strerror ++
    [⟨.string x.file.text, trivial⟩] ++ x.lineTokens ++ x.funcTokens ++ x.tokens

/-- How full the buffer is when the newline is put in. The time and its suffix have 27 or 28 characters. -/
def fill (zoneValid : Bool) : ℕ :=
  (x.pieces strerror).foldl ((Token.pieces F).level kSmallBuffer) (19+(if zoneValid then 8 else 9))

/-- Texts without newlines, and a buffer of the size that streams have. -/
structure Plain : Prop where
  array : x.array.length = kSmallBuffer
  file : LF ∉ x.file.text
  func : ∀ i ∈ x.funcTokens, LF ∉ i.1.text
  tokens : ∀ i ∈ x.tokens, LF ∉ i.1.text

end LogStatement

namespace LogInput
variable {F : FloatFormat} (strerror : BitVec 32 → Bytes)

def Plain : LogInput F → Prop
  | .log x => x.Plain
  | .setTimeZone _ => True

/-- The buffer is not filled up to its last byte but one when the newline is put in. -/
def Terminated (c : LogClock) : LogInput F → Prop
  | .log x => x.fill strerror c.zone.valid ≠ 3999
  | .setTimeZone _ => True

end LogInput

/-- A newline at the end and no other one. -/
def OneLine (msg : Bytes) : Prop := ∃ body, msg = body ++ [LF] ∧ LF ∉ body

theorem newline_not_mem_decimalText (v : ℤ) : LF ∉ decimalText v :=
  fun h => (unbroken_decimalText v LF h).2 rfl

theorem newline_not_mem_errnoTokens {F : FloatFormat} {strerror : BitVec 32 → Bytes}
    (hstrerror : ∀ e, LF ∉ strerror e) (x : LogStatement F) :
    ∀ i ∈ x.errnoTokens strerror, LF ∉ i.1.text := by
  intro i hi
  rw [LogStatement.errnoTokens] at hi
  split at hi
  · simp only [List.mem_cons, List.not_mem_nil, or_false] at hi
    rcases hi with rfl | rfl | rfl | rfl
    · exact fun h => hstrerror _ ((List.takeWhile_prefix _).subset h)
    · simp [Token.text, Token.cstringText, Scanf.cString, ascii, LF]
    · exact newline_not_mem_decimalText _
    · simp [Token.text, Token.cstringText, Scanf.cString, ascii, LF]
  · cases hi

theorem newline_not_mem_lineTokens {F : FloatFormat} (x : LogStatement F) :
    ∀ i ∈ x.lineTokens, LF ∉ i.1.text := by
  intro i hi
  simp only [LogStatement.lineTokens, List.mem_cons, List.not_mem_nil, or_false] at hi
  rcases hi with rfl | rfl | rfl
  · simp [Token.text, LF]
  · exact newline_not_mem_decimalText _
  · simp [Token.text, Token.cstringText, Scanf.cString, ascii, LF]

theorem unbroken_tidText {F : FloatFormat} (x : LogStatement F) : Unbroken x.tidText := by
  have hblank : Unbroken (ascii " ") := by simp [Unbroken, ascii, LF]
  apply Unbroken.append _ hblank
  rw [spacePadded]
  apply Unbroken.append _ (unbroken_decimalText _)
  intro b hb
  rw [List.eq_of_mem_replicate hb]
  decide

theorem unbroken_LogLevelName (level : LogLevel) : Unbroken (LogLevelName level) := by
  cases level <;> simp [LogLevelName, Unbroken, ascii, LF]

/-- No insertion of a plain statement has a newline. -/
theorem newline_not_mem_pieces {F : FloatFormat} {strerror : BitVec 32 → Bytes}
    (hstrerror : ∀ e, LF ∉ strerror e) {x : LogStatement F} (hx : x.Plain) :
    ∀ i ∈ x.pieces strerror, LF ∉ i.1.text := by
  have hhead : ∀ i ∈ ([⟨.string x.tidText, trivial⟩, ⟨.string (LogLevelName x.kind.logLevel), trivial⟩] :
      List {t : Token F // t.Legal}), LF ∉ i.1.text := by
    intro i hi
    simp only [List.mem_cons, List.not_mem_nil, or_false] at hi
    rcases hi with rfl | rfl
    · exact fun h => (unbroken_tidText x LF h).2 rfl
    · exact fun h => (unbroken_LogLevelName _ LF h).2 rfl
  have hfile : ∀ i ∈ ([⟨.string x.file.text, trivial⟩] : List {t : Token F // t.Legal}), LF ∉ i.1.text := by
    intro i hi
    rw [List.mem_singleton.mp hi]
    exact hx.file
  rw [LogStatement.pieces]
  simp only [List.forall_mem_append]
  exact ⟨⟨⟨⟨⟨hhead, newline_not_mem_errnoTokens hstrerror x⟩, hfile⟩, newline_not_mem_lineTokens x⟩,
    hx.func⟩, hx.tokens⟩

namespace LogStream
variable {F : FloatFormat} {s : LogStream} {t : BoundedText.Text UInt8 kSmallBuffer}

theorem insertLegal_holds (h : s.Holds t) (is : List {t : Token F // t.Legal}) :
    ∃ s', s.insertLegal is = .ok s' ∧ s'.Holds (is.foldl (Token.pieces F).add t) := insertAll_holds h is

variable (F) in
/-- `T` puts in a text without zeros. -/
theorem insertT_holds (h : s.Holds t) {text : Bytes} (htext : Unbroken text) {len : ℕ}
    (hlen : text.length = len) : ∃ s', s.insertT text len = .ok s' ∧
      s'.Holds ((Token.pieces F).add t ⟨.string text, trivial⟩) := by
  have hsame := htext.cString_eq
  obtain ⟨s',hs',hholds⟩ := append_holds F h text
  rw [insertT_eq s (by rw [hsame, hlen]), hsame]
  rw [hlen] at hs'
  exact ⟨s', hs', hholds⟩

end LogStream

theorem length_tidText_lt {F : FloatFormat} (x : LogStatement F) : x.tidText.length < 32 := by
  have hlow := BitVec.le_toInt x.tid
  have hhigh := BitVec.toInt_lt (x := x.tid)
  have hlen := length_decimalText_le (v := x.tid.toInt) (by omega) (by omega)
  have hblank : (ascii " ").length = 1 := by simp [ascii]
  simp only [LogStatement.tidText, spacePadded, List.length_append, List.length_replicate]
  omega

namespace Logger
variable {F : FloatFormat} {strerror : BitVec 32 → Bytes} {c c1 : LogClock} {x : LogStatement F}

/-- What is put in after the time is a text of the pieces that found room. -/
theorem record_eq {s : LogStream} {t : BoundedText.Text UInt8 kSmallBuffer}
    (htime : c.formatTime (.new x.array) x.microsecondsSinceEpoch = .ok (c1, s)) (h : s.Holds t) :
    record strerror c x = .ok (c1, ((Token.pieces F).add ((x.pieces strerror).foldl (Token.pieces F).add t)
      ⟨.char 10, trivial⟩).content) := by
  have htid : snprintf 32 [] x.tidText = x.tidText := snprintf_fits (length_tidText_lt x)
  have hlevel : (LogLevelName x.kind.logLevel).length = 6 := by
    cases x.kind.logLevel <;> simp [LogLevelName, ascii]
  obtain ⟨s1,h1,hholds1⟩ := LogStream.insertT_holds F h (unbroken_tidText x) rfl
  obtain ⟨s2,h2,hholds2⟩ := LogStream.insertT_holds F hholds1 (unbroken_LogLevelName _) hlevel
  obtain ⟨s3,h3,hholds3⟩ := LogStream.insertLegal_holds hholds2 (x.errnoTokens strerror)
  obtain ⟨s4,h4,hholds4⟩ := hholds3.append
    (i := (⟨.string x.file.text, trivial⟩ : {t : Token F // t.Legal})) rfl x.file.size_le rfl
  obtain ⟨s5,h5,hholds5⟩ := LogStream.insertLegal_holds hholds4 x.lineTokens
  obtain ⟨s6,h6,hholds6⟩ := LogStream.insertLegal_holds hholds5 x.funcTokens
  obtain ⟨s7,h7,hholds7⟩ := LogStream.insertLegal_holds hholds6 x.tokens
  obtain ⟨s8,h8,hholds8⟩ := LogStream.insert_holds hholds7
    (⟨.char 10, trivial⟩ : {t : Token F // t.Legal})
  dsimp only at h8
  simp only [record, impl, finish, bind, Except.bind, pure, Except.pure, htime, htid, h1, h2, h3, h4, h5, h6,
    h7, h8]
  rw [hholds8.content, LogStatement.pieces]
  simp only [List.foldl_append, List.foldl_cons, List.foldl_nil]

end Logger

end IdealServer
