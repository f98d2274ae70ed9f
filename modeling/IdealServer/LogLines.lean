import IdealServer.Logger

/-! Log records as lines. -/
namespace IdealServer

namespace LogClock
variable {c c1 : LogClock}

/-- The array of the cached second has its size, and shows a text without newlines. -/
structure Ready (c : LogClock) : Prop where
  size : c.time.length = 64
  time : Unbroken (Scanf.cString c.time)

theorem ready_initial : initial.Ready := by
  refine ⟨List.length_replicate, ?_⟩
  intro b hb
  have hempty : Scanf.cString initial.time = [] := by decide
  rw [hempty] at hb
  cases hb

theorem Ready.putTime (hc : c.Ready) {array : Bytes} (harray : array.length = kSmallBuffer) {u : ℤ} {s : LogStream}
    (hput : c.putTime (.new array) u = .ok s) : ∃ t, s.Holds t ∧
      t.content.length = 19+(if c.zone.valid then 8 else 9) ∧ LF ∉ t.content := by
  obtain ⟨htime,hsuffix,t,hholds,hcontent⟩ := putTime_new harray hput
  refine ⟨t, hholds, ?_, ?_⟩
  · rw [hcontent, List.length_append, htime, hsuffix]
    rfl
  · rw [hcontent]
    exact fun h => (hc.time.append (c.unbroken_suffix u) LF h).2 rfl

/-- The time in front of a record, which keeps the clock ready. -/
theorem Ready.formatTime (hc : c.Ready) {array : Bytes} (harray : array.length = kSmallBuffer) {ts : ℤ}
    {s : LogStream} (hformat : c.formatTime (.new array) ts = .ok (c1, s)) : c1.Ready ∧ ∃ t, s.Holds t ∧
      t.content.length = 19+(if c.zone.valid then 8 else 9) ∧ LF ∉ t.content := by
  by_cases hsecond : second ts = c.lastSecond
  · rw [formatTime_of_eq hsecond] at hformat
    obtain ⟨s1,hput,hpair⟩ := Runs.map_ok hformat
    obtain ⟨rfl,rfl⟩ := Prod.mk.inj hpair
    exact ⟨hc, hc.putTime harray hput⟩
  · rw [formatTime_of_ne hsecond] at hformat
    obtain ⟨c2,hrefresh,hrest⟩ := Runs.bind_ok hformat
    obtain ⟨s1,hput,hpair⟩ := Runs.map_ok hrest
    obtain ⟨rfl,rfl⟩ := Prod.mk.inj hpair
    obtain ⟨tm,_,hlen,hc2⟩ := refresh_ok hc.size hrefresh
    have hready : c2.Ready := by
      rw [hc2]
      refine ⟨?_, ?_⟩
      · have hsize := hc.size
        show (CharArray.overwrite c.time 0 (dateTimeText tm ++ [0])).length = 64
        rw [CharArray.length_overwrite, hsize]
        rw [List.length_append, List.length_singleton]
        omega
      · show Unbroken (Scanf.cString (CharArray.overwrite c.time 0 (dateTimeText tm ++ [0])))
        rw [(unbroken_dateTimeText tm).cString_overwrite]
        exact unbroken_dateTimeText tm
    have hzone : c2.zone = c.zone := by rw [hc2]
    refine ⟨hready, ?_⟩
    rw [← hzone]
    exact hready.putTime harray hput

end LogClock

variable {F : FloatFormat} {strerror : BitVec 32 → Bytes}

/-- The newline is put into a buffer in which it has room unless only one byte is left. -/
theorem oneLine_add_newline {t : BoundedText.Text UInt8 kSmallBuffer} (h : LF ∉ t.content) :
    OneLine ((Token.pieces F).add t ⟨.char 10, trivial⟩).content ↔ t.content.length ≠ 3999 := by
  have hlt := t.lt
  have hsmall : kSmallBuffer = 4000 := rfl
  have hneed : (Token.pieces F).need ⟨.char 10, trivial⟩ = 2 := rfl
  by_cases hroom : t.content.length+(Token.pieces F).need ⟨.char 10, trivial⟩ ≤ kSmallBuffer
  · rw [BoundedText.Pieces.content_add_of_le hroom]
    exact iff_of_true ⟨t.content, rfl, h⟩ (by omega)
  · rw [BoundedText.Pieces.add_of_not_le hroom]
    refine iff_of_false ?_ (by omega)
    intro ⟨body,hbody,_⟩
    apply h
    rw [hbody]
    exact List.mem_append_right _ List.mem_cons_self

/-- A record is one line exactly if the newline finds room behind everything else. -/
theorem oneLine_record_iff (hstrerror : ∀ e, LF ∉ strerror e) {c c1 : LogClock} (hc : c.Ready)
    {x : LogStatement F} (hx : x.Plain) {msg : Bytes} (hrecord : Logger.record strerror c x = .ok (c1, msg)) :
    c1.Ready ∧ (OneLine msg ↔ x.fill strerror c.zone.valid ≠ 3999) := by
  obtain ⟨⟨c2,s2⟩,himpl,_⟩ := Runs.bind_ok hrecord
  obtain ⟨⟨c3,s3⟩,hformat,_⟩ := Runs.bind_ok himpl
  obtain ⟨hready,t,hholds,hlen,hnewline⟩ := hc.formatTime hx.array hformat
  have heq : Logger.record strerror c x = _ := Logger.record_eq hformat hholds
  obtain ⟨rfl,rfl⟩ := Prod.mk.inj (Except.ok.inj (hrecord.symm.trans heq))
  have hbody : LF ∉ ((x.pieces strerror).foldl (Token.pieces F).add t).content := by
    intro hmem
    rcases BoundedText.Pieces.mem_content_foldl hmem with hmem | ⟨i,hi,hmem⟩
    · exact hnewline hmem
    · exact newline_not_mem_pieces hstrerror hx i hi hmem
  refine ⟨hready, ?_⟩
  rw [oneLine_add_newline hbody, BoundedText.Pieces.length_foldl, hlen]
  rfl

/-- In a thread that logs statements without newlines and whose zone is changed between them, everything
given to the output is one line exactly if no statement fills its buffer up to the last byte but one. -/
theorem log_lines_iff (hstrerror : ∀ e, LF ∉ strerror e) {inputs : List (LogInput F)}
    (hplain : ∀ i ∈ inputs, i.Plain) {c : LogClock} {out : List Bytes}
    (hrun : Runs.run (LogClock.logStep strerror) .initial inputs = .ok (c, out)) :
    (∀ msg ∈ out, OneLine msg) ↔
      Runs.Along (LogClock.logStep strerror) (fun c i => i.Terminated strerror c) .initial inputs := by
  apply Runs.run_emits_iff (P := fun _ i => i.Plain) LogClock.Ready OneLine _ LogClock.ready_initial
    (Runs.along_of_forall (fun i hi _ => hplain i hi)) hrun
  intro c i c' out hc hi hstep
  cases i with
  | setTimeZone tz =>
    obtain ⟨rfl,rfl⟩ := Prod.mk.inj (Except.ok.inj hstep)
    exact ⟨⟨hc.size, hc.time⟩, iff_of_true (fun msg hmsg => (List.not_mem_nil hmsg).elim) trivial⟩
  | log x =>
    obtain ⟨⟨c1,msg⟩,hrecord,hpair⟩ := Runs.map_ok hstep
    obtain ⟨rfl,rfl⟩ := Prod.mk.inj hpair
    obtain ⟨hready,hiff⟩ := oneLine_record_iff hstrerror hc hi hrecord
    refine ⟨hready, ?_⟩
    rw [List.forall_mem_singleton]
    exact hiff

/-- A statement without a message. -/
def bare : LogStatement LogStream.wholeDoubles where
  array := List.replicate 4000 0
  microsecondsSinceEpoch := 1000000000
  tid := 12345
  errno := 0
  file := .ofArray (ascii "src/a.cc")
  line := 7
  kind := .plain
  tokens := []

/-- The same with a message of `n` letters. -/
def letters (n : ℕ) : LogStatement LogStream.wholeDoubles :=
  { bare with tokens := [⟨.string (List.replicate n 97), trivial⟩] }

def noError (_ : BitVec 32) : Bytes := ascii "Success"

theorem newline_not_mem_noError (e : BitVec 32) : LF ∉ noError e := by simp [noError, ascii, LF]

theorem letters_plain (n : ℕ) : (letters n).Plain := by
  refine ⟨List.length_replicate, ?_, ?_, ?_⟩
  · show LF ∉ (SourceFile.ofArray (ascii "src/a.cc")).text
    decide
  · intro i hi
    cases hi
  · intro i hi
    rw [List.mem_singleton.mp hi]
    intro hmem
    exact absurd (List.eq_of_mem_replicate hmem) (by decide)

/-- In front of the letters there are 49 characters. -/
theorem letters_fill {n : ℕ} (h : 50+n ≤ 4000) : (letters n).fill noError false = 49+n := by
  have hhead : bare.fill noError false = 49 := by decide
  have hpieces : (letters n).pieces noError = bare.pieces noError ++ (letters n).tokens := rfl
  have htext : (Token.pieces LogStream.wholeDoubles).text ⟨.string (List.replicate n 97), trivial⟩ =
      List.replicate n 97 := rfl
  have hneed : (Token.pieces LogStream.wholeDoubles).need ⟨.string (List.replicate n 97), trivial⟩ =
      (List.replicate n (97 : UInt8)).length+1 := rfl
  rw [LogStatement.fill] at hhead
  rw [LogStatement.fill, hpieces, List.foldl_append, hhead]
  show (Token.pieces LogStream.wholeDoubles).level kSmallBuffer 49 ⟨.string (List.replicate n 97), trivial⟩ = _
  rw [BoundedText.Pieces.level, htext, hneed, List.length_replicate, if_pos]
  show 49+(n+1) ≤ 4000
  omega

theorem letters_run (n : ℕ) : ∃ c msg,
    Runs.run (LogClock.logStep noError) .initial [.log (letters n)] = .ok (c, [msg]) ∧
      (OneLine msg ↔ (letters n).fill noError false ≠ 3999) := by
  have hagrees : LogHistory.initial.Agrees 1000000000 := by
    show LogClock.second 1000000000 ≠ 0
    decide
  have hlen : (dateTimeText (gmtime 1000)).length = 19 := by decide
  have harray : (letters n).array.length = kSmallBuffer := List.length_replicate
  obtain ⟨s,hs⟩ := LogClock.formatTime_anew_ok LogClock.cached_initial (show (0 : ℤ) ≤ 1000000000 by decide)
    harray rfl hlen
  rw [← LogClock.formatTime_anew_of_agrees LogClock.cached_initial hagrees] at hs
  obtain ⟨⟨c1,s1⟩,hformat,_⟩ := Runs.map_ok hs
  obtain ⟨_,t,hholds,_,_⟩ := LogClock.ready_initial.formatTime harray hformat
  obtain ⟨msg,hrecord⟩ : ∃ msg, Logger.record noError .initial (letters n) = .ok (c1, msg) :=
    ⟨_, Logger.record_eq (x := letters n) hformat hholds⟩
  have hstep : LogClock.initial.logStep noError (.log (letters n)) = .ok (c1, [msg]) := by
    show (Logger.record noError .initial (letters n)).map _ = _
    rw [hrecord]
    rfl
  obtain ⟨_,hiff⟩ := oneLine_record_iff newline_not_mem_noError LogClock.ready_initial (letters_plain n) hrecord
  exact ⟨c1, msg, Runs.run_single hstep, hiff⟩

theorem log_lines_iff_letters : ∃ c out,
    Runs.run (LogClock.logStep noError) .initial [.log (letters 5)] = .ok (c, out) ∧
      ((∀ msg ∈ out, OneLine msg) ↔ Runs.Along (LogClock.logStep noError) (fun c i => i.Terminated noError c)
        .initial [.log (letters 5)]) := by
  obtain ⟨c,msg,hrun,_⟩ := letters_run 5
  refine ⟨c, _, hrun, ?_⟩
  apply log_lines_iff newline_not_mem_noError _ hrun
  intro i hi
  rw [List.mem_singleton.mp hi]
  exact letters_plain 5

/-- 3950 letters leave one byte, which is not enough for the newline. -/
theorem log_lines_fails : (letters 3950).Plain ∧ ∃ c msg,
    Runs.run (LogClock.logStep noError) .initial [.log (letters 3950)] = .ok (c, [msg]) ∧ ¬OneLine msg := by
  obtain ⟨c,msg,hrun,hiff⟩ := letters_run 3950
  have hfill := letters_fill (n := 3950) (by omega)
  refine ⟨letters_plain 3950, c, msg, hrun, ?_⟩
  rw [hiff, not_ne_iff]
  omega

end IdealServer
