import IdealServer.FormattedTime
import IdealServer.Runs

/-! `FileUtil::AppendFile` and `LogFile`: log records in files of a limited size, with a new file every day. -/
namespace IdealServer

/-- What `fwrite` has taken since the file was opened, and how much of it the system has been given. -/
structure AppendFile where
  filename : Bytes
  taken : Bytes
  flushed : ℕ
  writtenBytes : ℕ
deriving DecidableEq, Repr

namespace AppendFile

def new (filename : Bytes) (opens : Bool) : Except Fault AppendFile :=
  if opens then .ok ⟨filename, [], 0, 0⟩ else .error .assertFailed

/-- `fwrite_unlocked` takes so many bytes, at most all. -/
def write (f : AppendFile) (data : Bytes) (x : ℕ) : AppendFile × ℕ :=
  ({ f with taken := f.taken ++ data.take x }, min x data.length)

/-- The loop behind the first call, with the results of `fwrite`. Where they end everything is taken. -/
def appendLoop (f : AppendFile) (logline : Bytes) (n : ℕ) : List ℕ → AppendFile
  | [] => (f.write (logline.drop n) (logline.length-n)).1
  | x :: xs =>
    if n < logline.length then
      let r := f.write (logline.drop n) x
      if r.2 = 0 then r.1 else appendLoop r.1 logline (n+r.2) xs
    else f

/-- The whole length is counted, whatever was taken. -/
def append (f : AppendFile) (logline : Bytes) (results : List ℕ) : AppendFile :=
  let r := f.write logline (results.headD logline.length)
  let f := appendLoop r.1 logline r.2 results.tail
  { f with writtenBytes := f.writtenBytes+logline.length }

def flush (f : AppendFile) : AppendFile := { f with flushed := f.taken.length }

/-- `fclose` flushes. -/
def close (f : AppendFile) : AppendFile := f.flush

end AppendFile

/-- What `ProcessInfo` says. -/
structure ProcessInfo where
  hostname : Bytes
  pid : ℤ

def kRollPerSeconds : ℤ := 60*60*24

/-- The first second of the day. -/
def periodOf (now : ℤ) : ℤ := now.tdiv kRollPerSeconds*kRollPerSeconds

/-- What `.%Y%m%d-%H%M%S.` prints. -/
def stampText (tm : Tm) : Bytes :=
  ascii "." ++ (decimalText (tm.year+1900) ++ (zeroPadded 2 (tm.mon+1) ++ (zeroPadded 2 tm.mday ++
    (ascii "-" ++ (zeroPadded 2 tm.hour ++ (zeroPadded 2 tm.min ++ (zeroPadded 2 tm.sec ++ ascii ".")))))))

/-- The file is a null pointer until the first is opened. -/
structure LogFile where
  basename : Bytes
  rollSize : ℤ
  flushInterval : ℤ
  checkEveryN : ℤ
  count : ℤ
  startOfPeriod : ℤ
  lastRoll : ℤ
  lastFlush : ℤ
  file : Option AppendFile
deriving DecidableEq, Repr

/-- The calls of a log file, with what they read and with the results of the calls they make. -/
inductive LogFileOp
  | append (logline : Bytes) (results : List ℕ) (first second : ℤ) (opens : Bool)
  | flush
  | rollFile (now : ℤ) (opens : Bool)

namespace LogFile
variable (p : ProcessInfo)

def getLogFileName (basename : Bytes) (now : ℤ) : Bytes :=
  basename ++ (stampText (gmtime now) ++ (p.hostname ++ (snprintf 32 [] (ascii "." ++ decimalText p.pid) ++
    ascii ".log")))

/-- The file that is replaced is closed. -/
def rollFile (s : LogFile) (now : ℤ) (opens : Bool) : Except Fault (LogFile × List AppendFile) :=
  if s.lastRoll < now then do
    let file ← AppendFile.new (getLogFileName p s.basename now) opens
    return ({ s with
        lastRoll := now, lastFlush := now, startOfPeriod := periodOf now, file := some file },
      s.file.toList.map AppendFile.close)
  else return (s, [])

def new (basename : Bytes) (rollSize flushInterval checkEveryN now : ℤ) (opens : Bool) :
    Except Fault LogFile :=
  if 47 ∈ basename then .error .assertFailed
  else do
    let r ← rollFile p ⟨basename, rollSize, flushInterval, checkEveryN, 0, 0, 0, 0, none⟩ now opens
    return r.1

/-- `append_unlocked`. The time may be read twice, the second time by `rollFile`. -/
def appendUnlocked (s : LogFile) (logline : Bytes) (results : List ℕ) (first second : ℤ) (opens : Bool) :
    Except Fault (LogFile × List AppendFile) :=
  match s.file with
  | none => .error .nullPointer
  | some file =>
    let file := file.append logline results
    let s : LogFile := { s with file := some file }
    if s.rollSize < (file.writtenBytes : ℤ) then s.rollFile p first opens
    else if s.checkEveryN ≤ s.count+1 then
      let s := { s with count := 0 }
      if periodOf first ≠ s.startOfPeriod then s.rollFile p second opens
      else if s.flushInterval < first-s.lastFlush then
        .ok ({ s with lastFlush := first, file := some file.flush }, [])
      else .ok (s, [])
    else .ok ({ s with count := s.count+1 }, [])

/-- The files that are closed are the output of a step. -/
def step (s : LogFile) : LogFileOp → Except Fault (LogFile × List AppendFile)
  | .append logline results first second opens => s.appendUnlocked p logline results first second opens
  | .flush =>
    match s.file with
    | none => .error .nullPointer
    | some file => .ok ({ s with file := some file.flush }, [])
  | .rollFile now opens => s.rollFile p now opens

end LogFile

/-- A record with the results of the calls that write it, and the time at which it is appended. -/
structure LogRecord where
  logline : Bytes
  results : List ℕ
  time : ℤ
deriving DecidableEq, Repr

namespace LogRecord

/-- What is written of the record. -/
def text (r : LogRecord) : Bytes := ((AppendFile.mk [] [] 0 0).append r.logline r.results).taken

/-- The length that is counted for records. -/
def total (rs : List LogRecord) : ℕ := (rs.map (fun r => r.logline.length)).sum

theorem total_concat (rs : List LogRecord) (r : LogRecord) : total (rs ++ [r]) = total rs+r.logline.length := by
  rw [total, total, List.map_append, List.sum_append, List.map_singleton, List.sum_singleton]

end LogRecord

namespace LogFileOp

def records : LogFileOp → List LogRecord
  | .append logline results first _ _ => [⟨logline, results, first⟩]
  | .flush => []
  | .rollFile _ _ => []

/-- The times that are read, in this order. -/
def times : LogFileOp → List ℤ
  | .append _ _ first second _ => [first, second]
  | .flush => []
  | .rollFile now _ => [now]

/-- A file that is opened can be opened. -/
def Opens : LogFileOp → Prop
  | .append _ _ _ _ opens => opens = true
  | .flush => True
  | .rollFile _ opens => opens = true

end LogFileOp

namespace AppendFile

/-- The bytes taken are appended to what was there. -/
theorem appendLoop_eq (f : AppendFile) (logline : Bytes) (n : ℕ) (xs : List ℕ) :
    appendLoop f logline n xs =
      { f with taken := f.taken ++ (appendLoop ⟨[], [], 0, 0⟩ logline n xs).taken } := by
  induction xs generalizing f n with
  | nil => rfl
  | cons x xs ih =>
    rw [appendLoop, appendLoop]
    by_cases hn : n < logline.length
    · rw [if_pos hn, if_pos hn]
      by_cases h0 : min x (logline.drop n).length = 0
      · simp only [write, h0, if_true, List.nil_append]
      · dsimp only [write]
        rw [if_neg h0, if_neg h0, ih, ih ⟨[], [] ++ (logline.drop n).take x, 0, 0⟩]
        simp only [List.nil_append, List.append_assoc]
    · rw [if_neg hn, if_neg hn]
      simp only [List.append_nil]

theorem append_eq (f : AppendFile) (r : LogRecord) : f.append r.logline r.results =
    { f with taken := f.taken ++ r.text, writtenBytes := f.writtenBytes+r.logline.length } := by
  rw [LogRecord.text, append, append]
  dsimp only [write]
  rw [appendLoop_eq, appendLoop_eq ⟨[], [] ++ r.logline.take (r.results.headD r.logline.length), 0, 0⟩]
  simp only [List.nil_append, List.append_assoc]

/-- The loop goes on with the record where it is, and takes all of it unless a call takes nothing. -/
theorem appendLoop_taken (logline : Bytes) (n : ℕ) (xs : List ℕ) :
    (appendLoop ⟨[], [], 0, 0⟩ logline n xs).taken <+: logline.drop n ∧
      ((∀ x ∈ xs, 0 < x) → (appendLoop ⟨[], [], 0, 0⟩ logline n xs).taken = logline.drop n) := by
  induction xs generalizing n with
  | nil =>
    have hall : (logline.drop n).take (logline.length-n) = logline.drop n :=
      List.take_of_length_le (by rw [List.length_drop])
    rw [appendLoop, write]
    dsimp only
    rw [hall, List.nil_append]
    exact ⟨List.prefix_refl _, fun _ => rfl⟩
  | cons x xs ih =>
    rw [appendLoop]
    by_cases hn : n < logline.length
    · have hlen : (logline.drop n).length = logline.length-n := List.length_drop
      rw [if_pos hn]
      dsimp only [write]
      by_cases h0 : min x (logline.drop n).length = 0
      · have hx : x = 0 := by omega
        rw [if_pos h0, hx, List.take_zero, List.nil_append]
        refine ⟨List.nil_prefix, ?_⟩
        intro hpos
        exact absurd (hpos 0 List.mem_cons_self) (Nat.lt_irrefl 0)
      · obtain ⟨hbegin,hall⟩ := ih (n+min x (logline.drop n).length)
        -- the bytes of this call and those that remain after it
        have hsplit : (logline.drop n).take x ++ logline.drop (n+min x (logline.drop n).length) =
            logline.drop n := by
          rw [← List.drop_drop, List.take_eq_take_min, List.take_append_drop]
        rw [if_neg h0, appendLoop_eq]
        dsimp only
        rw [List.nil_append]
        refine ⟨?_, ?_⟩
        · calc (logline.drop n).take x ++ _ <+: (logline.drop n).take x ++
                logline.drop (n+min x (logline.drop n).length) := (List.prefix_append_right_inj _).mpr hbegin
            _ = logline.drop n := hsplit
        · intro hpos
          rw [hall (fun y hy => hpos y (List.mem_cons_of_mem _ hy)), hsplit]
    · have hnil : logline.drop n = [] := List.drop_of_length_le (by omega)
      rw [if_neg hn, hnil]
      exact ⟨List.prefix_refl _, fun _ => rfl⟩

end AppendFile
end IdealServer
