import IdealServer.LogFile

/-! Runs of a `LogFile`: which records its files hold, what the files are called, and what a crash would lose. -/
namespace IdealServer

/-- The records of one file, and when it was opened. -/
structure LogVolume where
  opened : ℤ
  records : List LogRecord

namespace LogVolume

/-- The file holds the records. -/
structure Holds (p : ProcessInfo) (basename : Bytes) (f : AppendFile) (v : LogVolume) : Prop where
  filename : f.filename = LogFile.getLogFileName p basename v.opened
  taken : f.taken = v.records.flatMap LogRecord.text
  writtenBytes : f.writtenBytes = LogRecord.total v.records

/-- A record behind which another stands does not go over the size, unless the clock showed the second in which
the file was opened or an earlier one. -/
def Limited (rollSize : ℤ) (v : LogVolume) : Prop :=
  ∀ rs r r' rs', v.records = rs ++ r :: r' :: rs' →
    LogRecord.total (rs ++ [r]) ≤ rollSize ∨ r.time ≤ v.opened

/-- The file goes over the size, or its last record came on another day. -/
def Due (rollSize : ℤ) (v : LogVolume) : Prop :=
  rollSize < LogRecord.total v.records ∨
    ∃ rs r, v.records = rs ++ [r] ∧ periodOf r.time ≠ periodOf v.opened

end LogVolume

/-- The first second of the year 10000. -/
def endOfYear9999 : ℤ := 253402300800

def stampFields : List (Bytes × ℕ) :=
  [(ascii ".", 4), ([], 2), ([], 2), (ascii "-", 2), ([], 2), ([], 2)]

theorem fourDigitYear_of_lt {t : ℤ} (h0 : 0 < t) (h : t < endOfYear9999) : FourDigitYear t := by
  have hyear := gmtime_year_mono h0.le
  have hlast := gmtime_year_mono (s := t) (t := 253402300799) (by rw [endOfYear9999] at h; omega)
  have hfirst : (gmtime 0).year = 70 := by decide
  have hend : (gmtime 253402300799).year = 8099 := by decide
  exact ⟨by omega, by omega⟩

theorem decimalText_eq_fixed {v : ℤ} (hlow : 1000 ≤ v) (hhigh : v ≤ 9999) :
    decimalText v = decimalDigits.fixed 4 v.natAbs := by
  have hspaces := spacePadded_eq hlow hhigh
  have hlen : (decimalText v).length = 4 := by
    have h3 := decimalDigits.length_numeral_le_iff (n := v.natAbs) (k := 3) (by decide)
    have h4 := decimalDigits.length_numeral_le_iff (n := v.natAbs) (k := 4) (by decide)
    rw [show decimalDigits.base = 10 from rfl] at h3 h4
    rw [decimalText, if_neg (by omega)]
    omega
  rwa [spacePadded, hlen, Nat.sub_self, List.replicate_zero, List.nil_append] at hspaces

section Stamp
variable {s : ℤ} (hs : FourDigitYear s)
include hs

theorem stampNumbers_fit : decimalDigits.Fit stampFields (gmtime s).numbers := by
  have hfit := numbers_fit hs
  simp only [Radix.Alphabet.Fit, secondFields, stampFields, Tm.numbers, List.forall₂_cons] at hfit ⊢
  exact hfit

theorem stampText_eq : stampText (gmtime s) = decimalDigits.fields stampFields (gmtime s).numbers ++ ascii "." := by
  have hfit := numbers_fit hs
  have hshows := gmtime_shows s
  have hday : 1 ≤ (gmtime s).mday := hshows.valid.day_pos
  simp only [Radix.Alphabet.Fit, secondFields, Tm.numbers, List.forall₂_cons, List.forall₂_nil_left_iff,
    and_true] at hfit
  obtain ⟨_,hmon2,hday2,hhour2,hmin2,hsec2⟩ := hfit
  have hmon := zeroPadded_eq (w := 2) (by decide) (by have h := hshows.mon_range; omega) hmon2
  have hmday := zeroPadded_eq (w := 2) (by decide) (by omega) hday2
  have hhour := zeroPadded_eq (w := 2) (by decide) hshows.hour_range.1 hhour2
  have hmin := zeroPadded_eq (w := 2) (by decide) hshows.min_range.1 hmin2
  have hsec := zeroPadded_eq (w := 2) (by decide) hshows.sec_range.1 hsec2
  rw [stampText, decimalText_eq_fixed hs.low hs.high, hmon, hmday, hhour, hmin, hsec]
  simp only [stampFields, Tm.numbers, Radix.Alphabet.fields, List.nil_append, List.append_nil,
    List.append_assoc]

end Stamp

/-- The names of two files of a process are in the order in which these were opened. -/
theorem getLogFileName_lt_iff (p : ProcessInfo) (basename : Bytes) {s t : ℤ} (hs : FourDigitYear s)
    (ht : FourDigitYear t) :
    LogFile.getLogFileName p basename s < LogFile.getLogFileName p basename t ↔ s < t := by
  have hirrefl (b : Bytes) : ¬b < b := List.lt_irrefl b
  have hyear1 := hs.low
  have hyear2 := ht.low
  have hlen : (decimalDigits.fields stampFields (gmtime s).numbers).length =
      (decimalDigits.fields stampFields (gmtime t).numbers).length := by
    simp only [stampFields, Tm.numbers, Radix.Alphabet.fields, List.length_append, Radix.Alphabet.length_fixed]
  rw [LogFile.getLogFileName, LogFile.getLogFileName, Lexicographic.append_lt_append_iff rfl, stampText_eq hs,
    stampText_eq ht, List.append_assoc, List.append_assoc, Lexicographic.append_lt_append_iff hlen,
    Radix.fields_lt_iff decimalDigits decimalDigits_order (stampNumbers_fit hs) (stampNumbers_fit ht),
    (gmtime_shows s).numbers_lt_iff (gmtime_shows t) (by omega) (by omega)]
  simp only [hirrefl, true_and, false_or, and_false, or_false]

namespace LogVolume
variable {rollSize : ℤ}

/-- The last record does not go over the size, or the clock had not moved on. -/
def Within (rollSize : ℤ) (v : LogVolume) : Prop :=
  ∀ rs r, v.records = rs ++ [r] → LogRecord.total v.records ≤ rollSize ∨ r.time ≤ v.opened

theorem Limited.append {v : LogVolume} (h : v.Limited rollSize) (hw : v.Within rollSize) (r : LogRecord) :
    (LogVolume.mk v.opened (v.records ++ [r])).Limited rollSize := by
  intro rs a b rs' heq
  dsimp only at heq ⊢
  rcases List.eq_nil_or_concat rs' with rfl | ⟨init,c,rfl⟩
  · -- the record in front of the new one was the last
    have hrecords : v.records = rs ++ [a] := by
      have hconcat : v.records ++ [r] = rs ++ [a] ++ [b] := by
        rw [heq, List.append_assoc]
        rfl
      exact List.append_inj_left' hconcat rfl
    rw [← hrecords]
    exact hw rs a hrecords
  · have hrecords : v.records = rs ++ a :: b :: init := by
      have hconcat : v.records ++ [r] = rs ++ a :: b :: init ++ [c] := by
        rw [heq, List.append_assoc, List.concat_eq_append]
        rfl
      exact List.append_inj_left' hconcat rfl
    exact h rs a b init hrecords

theorem Holds.append {p : ProcessInfo} {basename : Bytes} {f : AppendFile} {v : LogVolume}
    (h : v.Holds p basename f) (r : LogRecord) :
    (LogVolume.mk v.opened (v.records ++ [r])).Holds p basename (f.append r.logline r.results) := by
  rw [AppendFile.append_eq]
  refine ⟨h.filename, ?_, ?_⟩
  · dsimp only
    rw [List.flatMap_append, List.flatMap_singleton, h.taken]
  · dsimp only
    rw [LogRecord.total_concat, h.writtenBytes]

end LogVolume

/-- A log file, the files it has closed, and the records given to it. `Q` says that nobody else rolls it. -/
structure LogVolumes (p : ProcessInfo) (Q : Prop) (s : LogFile) (closed : List AppendFile)
    (records : List LogRecord) (done : List LogVolume) (cur : LogVolume) (f : AppendFile) : Prop where
  file : s.file = some f
  closed : List.Forall₂ (fun f v => LogVolume.Holds p s.basename f v ∧ f.flushed = f.taken.length) closed done
  current : cur.Holds p s.basename f
  opened : cur.opened = s.lastRoll
  period : s.startOfPeriod = periodOf s.lastRoll
  positive : ∀ v ∈ done ++ [cur], 0 < v.opened
  records : (done ++ [cur]).flatMap LogVolume.records = records
  ordered : (done ++ [cur]).Pairwise (fun v w => v.opened < w.opened)
  limited : ∀ v ∈ done ++ [cur], v.Limited s.rollSize
  due : Q → ∀ v ∈ done, v.Due s.rollSize

namespace LogFile
variable {p : ProcessInfo} {s s' : LogFile} {now : ℤ} {opens : Bool} {out : List AppendFile}

/-- A second that is not later than that of the last roll changes nothing. -/
theorem rollFile_cases (h : s.rollFile p now opens = .ok (s', out)) :
    (now ≤ s.lastRoll ∧ s' = s ∧ out = []) ∨
    (s.lastRoll < now ∧ out = s.file.toList.map AppendFile.close ∧ s' = { s with
      lastRoll := now, lastFlush := now, startOfPeriod := periodOf now,
      file := some ⟨getLogFileName p s.basename now, [], 0, 0⟩ }) := by
  rw [rollFile] at h
  by_cases hnow : s.lastRoll < now
  · rw [if_pos hnow] at h
    obtain ⟨file,hfile,h⟩ := Runs.bind_ok h
    obtain ⟨rfl,rfl⟩ := Prod.mk.inj (Except.ok.inj h)
    rw [AppendFile.new] at hfile
    split at hfile
    · obtain rfl := Except.ok.inj hfile
      exact Or.inr ⟨hnow, rfl, rfl⟩
    · contradiction
  · rw [if_neg hnow] at h
    obtain ⟨rfl,rfl⟩ := Prod.mk.inj (Except.ok.inj h)
    exact Or.inl ⟨by omega, rfl, rfl⟩

/-- What an append leaves: the record is in the file, and then the file is rolled, flushed or left alone. -/
theorem appendUnlocked_cases {f : AppendFile} (hf : s.file = some f) {r : LogRecord} {second : ℤ}
    (h : s.appendUnlocked p r.logline r.results r.time second opens = .ok (s', out)) :
    let f' := f.append r.logline r.results
    let s1 : LogFile := { s with file := some f' }
    (s.rollSize < f'.writtenBytes ∧ s1.rollFile p r.time opens = .ok (s', out)) ∨
    (f'.writtenBytes ≤ s.rollSize ∧ s.checkEveryN ≤ s.count+1 ∧ periodOf r.time ≠ s.startOfPeriod ∧
      ({ s1 with count := 0 } : LogFile).rollFile p second opens = .ok (s', out)) ∨
    (f'.writtenBytes ≤ s.rollSize ∧ s.checkEveryN ≤ s.count+1 ∧ periodOf r.time = s.startOfPeriod ∧
      s.flushInterval < r.time-s.lastFlush ∧ out = [] ∧
      s' = { s1 with count := 0, lastFlush := r.time, file := some f'.flush }) ∨
    (f'.writtenBytes ≤ s.rollSize ∧ s.checkEveryN ≤ s.count+1 ∧ r.time-s.lastFlush ≤ s.flushInterval ∧
      out = [] ∧ s' = { s1 with count := 0 }) ∨
    (f'.writtenBytes ≤ s.rollSize ∧ s.count+1 < s.checkEveryN ∧ out = [] ∧
      s' = { s1 with count := s.count+1 }) := by
  dsimp only
  rw [appendUnlocked, hf] at h
  dsimp only at h
  by_cases hsize : s.rollSize < ((f.append r.logline r.results).writtenBytes : ℤ)
  · rw [if_pos hsize] at h
    exact Or.inl ⟨hsize, h⟩
  rw [if_neg hsize] at h
  have hle := Int.not_lt.mp hsize
  by_cases hcheck : s.checkEveryN ≤ s.count+1
  · rw [if_pos hcheck] at h
    by_cases hperiod : periodOf r.time = s.startOfPeriod
    · rw [if_neg (not_not.mpr hperiod)] at h
      by_cases hflush : s.flushInterval < r.time-s.lastFlush
      · rw [if_pos hflush] at h
        obtain ⟨rfl,rfl⟩ := Prod.mk.inj (Except.ok.inj h)
        exact Or.inr (Or.inr (Or.inl ⟨hle, hcheck, hperiod, hflush, rfl, rfl⟩))
      · rw [if_neg hflush] at h
        obtain ⟨rfl,rfl⟩ := Prod.mk.inj (Except.ok.inj h)
        exact Or.inr (Or.inr (Or.inr (Or.inl ⟨hle, hcheck, by omega, rfl, rfl⟩)))
    · rw [if_pos hperiod] at h
      exact Or.inr (Or.inl ⟨hle, hcheck, hperiod, h⟩)
  · rw [if_neg hcheck] at h
    obtain ⟨rfl,rfl⟩ := Prod.mk.inj (Except.ok.inj h)
    exact Or.inr (Or.inr (Or.inr (Or.inr ⟨hle, by omega, rfl, rfl⟩)))

end LogFile

namespace LogVolumes
variable {p : ProcessInfo} {Q : Prop} {s s' : LogFile} {closed out : List AppendFile}
  {records : List LogRecord} {done : List LogVolume} {cur : LogVolume} {f : AppendFile}

/-- The counter and the time of the last flush are of no account, nor is how much has been flushed. -/
theorem adjust (h : LogVolumes p Q s closed records done cur f) (count lastFlush : ℤ) (flushed : ℕ) :
    LogVolumes p Q
      { s with count := count, lastFlush := lastFlush, file := some { f with flushed := flushed } }
      closed records done cur { f with flushed := flushed } :=
  ⟨rfl, h.closed, ⟨h.current.filename, h.current.taken, h.current.writtenBytes⟩, h.opened, h.period,
    h.positive, h.records, h.ordered, h.limited, h.due⟩

/-- The record goes into the open file. -/
theorem append (h : LogVolumes p Q s closed records done cur f) (hw : cur.Within s.rollSize) (r : LogRecord)
    (count : ℤ) :
    LogVolumes p Q { s with count := count, file := some (f.append r.logline r.results) } closed
      (records ++ [r]) done ⟨cur.opened, cur.records ++ [r]⟩ (f.append r.logline r.results) := by
  have hcur : cur ∈ done ++ [cur] := List.mem_append_right _ List.mem_cons_self
  refine ⟨rfl, h.closed, h.current.append r, h.opened, h.period, ?_, ?_, ?_, ?_, h.due⟩
  · intro v hv
    rcases List.mem_append.mp hv with hv | hv
    · exact h.positive v (List.mem_append_left _ hv)
    · rw [List.mem_singleton.mp hv]
      exact h.positive cur hcur
  · rw [← h.records]
    simp only [List.flatMap_append, List.flatMap_singleton, List.append_assoc]
  · have hordered := List.pairwise_append.mp h.ordered
    refine List.pairwise_append.mpr ⟨hordered.1, List.pairwise_singleton _ _, ?_⟩
    intro v hv w hw
    rw [List.mem_singleton.mp hw]
    exact hordered.2.2 v hv cur List.mem_cons_self
  · intro v hv
    rcases List.mem_append.mp hv with hv | hv
    · exact h.limited v (List.mem_append_left _ hv)
    · rw [List.mem_singleton.mp hv]
      exact (h.limited cur hcur).append hw r

/-- A file that is rolled is closed with what it has, and the next is empty. -/
theorem roll (h : LogVolumes p Q s closed records done cur f) {now : ℤ} {opens : Bool}
    (hdue : Q → cur.Due s.rollSize) (hroll : s.rollFile p now opens = .ok (s', out)) :
    (now ≤ s.lastRoll ∧ s' = s ∧ out = []) ∨
    (s'.lastFlush = now ∧ LogVolumes p Q s' (closed ++ out) records (done ++ [cur]) ⟨now, []⟩
      ⟨LogFile.getLogFileName p s.basename now, [], 0, 0⟩) := by
  rcases LogFile.rollFile_cases hroll with hrefused | ⟨hnow,rfl,rfl⟩
  · exact Or.inl hrefused
  refine Or.inr ⟨rfl, ?_⟩
  have hlater (v : LogVolume) (hv : v ∈ done ++ [cur]) : v.opened < now := by
    have hordered := (List.pairwise_append.mp h.ordered).2.2
    have hopened := h.opened
    rcases List.mem_append.mp hv with hv | hv
    · have hlt := hordered v hv cur List.mem_cons_self
      omega
    · rw [List.mem_singleton.mp hv]
      omega
  have hpositive : 0 < now := by
    have hcur : cur ∈ done ++ [cur] := List.mem_append_right _ List.mem_cons_self
    have h0 := h.positive cur hcur
    have hlt := hlater cur hcur
    omega
  refine ⟨rfl, ?_, ⟨rfl, rfl, rfl⟩, rfl, rfl, ?_, ?_, ?_, ?_, ?_⟩
  · rw [h.file]
    refine List.rel_append h.closed (List.Forall₂.cons ⟨?_, rfl⟩ List.Forall₂.nil)
    exact ⟨h.current.filename, h.current.taken, h.current.writtenBytes⟩
  · intro v hv
    rcases List.mem_append.mp hv with hv | hv
    · exact h.positive v hv
    · rw [List.mem_singleton.mp hv]
      exact hpositive
  · rw [List.flatMap_append, h.records, List.flatMap_singleton, List.append_nil]
  · refine List.pairwise_append.mpr ⟨h.ordered, List.pairwise_singleton _ _, ?_⟩
    intro v hv w hw
    rw [List.mem_singleton.mp hw]
    exact hlater v hv
  · intro v hv
    rcases List.mem_append.mp hv with hv | hv
    · exact h.limited v hv
    · rw [List.mem_singleton.mp hv]
      intro rs r r' rs' heq
      exact absurd heq.symm (List.append_ne_nil_of_right_ne_nil _ (List.cons_ne_nil _ _))
  · intro hQ v hv
    rcases List.mem_append.mp hv with hv | hv
    · exact h.due hQ v hv
    · rw [List.mem_singleton.mp hv]
      exact hdue hQ

/-- One call. -/
theorem step (h : LogVolumes p Q s closed records done cur f) (hw : cur.Within s.rollSize) {op : LogFileOp}
    (hQ : Q → ∀ now opens, op ≠ .rollFile now opens) (hstep : s.step p op = .ok (s', out)) :
    ∃ done cur f, LogVolumes p Q s' (closed ++ out) (records ++ op.records) done cur f ∧
      cur.Within s'.rollSize := by
  have hfresh (now rollSize : ℤ) : (LogVolume.mk now []).Within rollSize := by
    intro rs r heq
    exact absurd heq.symm (List.append_ne_nil_of_right_ne_nil _ (List.cons_ne_nil _ _))
  cases op with
  | append logline results first second opens =>
    obtain ⟨r,hr⟩ : ∃ r, r = LogRecord.mk logline results first := ⟨_, rfl⟩
    have hlast {rs : List LogRecord} {r' : LogRecord} (heq : cur.records ++ [r] = rs ++ [r']) : r' = r :=
      (List.singleton_inj.mp (List.append_inj_right' heq rfl)).symm
    have hopened := h.opened
    have happend := h.append hw r
    have hwritten := (h.current.append r).writtenBytes
    have hrecords : (LogFileOp.append logline results first second opens).records = [r] := by
      rw [hr]
      rfl
    have happended : s.appendUnlocked p r.logline r.results r.time second opens = .ok (s', out) := by
      rw [hr]
      exact hstep
    have hcases := LogFile.appendUnlocked_cases h.file happended
    have hstay {t : LogFile} {f' : AppendFile} (ht : LogVolumes p Q t closed (records ++ [r]) done
        ⟨cur.opened, cur.records ++ [r]⟩ f')
        (hle : ((f.append r.logline r.results).writtenBytes : ℤ) ≤ t.rollSize) :
        ∃ done cur f, LogVolumes p Q t (closed ++ []) (records ++ [r]) done cur f ∧ cur.Within t.rollSize := by
      refine ⟨_, _, _, by rw [List.append_nil]; exact ht, ?_⟩
      intro rs r' heq
      exact Or.inl (by rw [← hwritten]; exact hle)
    rw [hrecords]
    rcases hcases with ⟨hfull,hroll⟩ | ⟨hle,_,hperiod,hroll⟩ | ⟨hle,_,_,_,rfl,rfl⟩ | ⟨hle,_,_,rfl,rfl⟩ |
      ⟨hle,_,rfl,rfl⟩
    · -- the record takes the file over the size
      rcases (happend s.count).roll (fun _ => Or.inl (by rw [← hwritten]; exact hfull)) hroll with
        ⟨hnow,rfl,rfl⟩ | ⟨_,hnext⟩
      · -- the clock shows the second of the last roll or an earlier one
        refine ⟨_, _, _, by rw [List.append_nil]; exact happend s.count, ?_⟩
        intro rs r' heq
        rw [hlast heq]
        exact Or.inr (by dsimp only at hnow ⊢; omega)
      · exact ⟨_, _, _, hnext, hfresh _ _⟩
    · -- a check on another day
      have hdue : (LogVolume.mk cur.opened (cur.records ++ [r])).Due s.rollSize := by
        refine Or.inr ⟨cur.records, r, rfl, ?_⟩
        rwa [hopened, ← h.period]
      rcases (happend 0).roll (fun _ => hdue) hroll with ⟨_,rfl,rfl⟩ | ⟨_,hnext⟩
      · exact hstay (happend 0) hle
      · exact ⟨_, _, _, hnext, hfresh _ _⟩
    · -- a check that flushes, one that does not, and none
      exact hstay ((happend 0).adjust 0 r.time _) hle
    · exact hstay (happend 0) hle
    · exact hstay (happend (s.count+1)) hle
  | flush =>
    rw [LogFile.step, h.file] at hstep
    obtain ⟨rfl,rfl⟩ := Prod.mk.inj (Except.ok.inj hstep)
    refine ⟨done, cur, f.flush, ?_, hw⟩
    rw [List.append_nil, LogFileOp.records, List.append_nil]
    exact h.adjust s.count s.lastFlush _
  | rollFile now opens =>
    rw [LogFileOp.records, List.append_nil]
    rcases h.roll (fun q => absurd rfl (hQ q now opens)) hstep with ⟨_,rfl,rfl⟩ | ⟨_,hnext⟩
    · exact ⟨done, cur, f, by rw [List.append_nil]; exact h, hw⟩
    · exact ⟨_, _, _, hnext, hfresh _ _⟩

end LogVolumes

namespace LogFile
variable {p : ProcessInfo} {s s' : LogFile} {out closed : List AppendFile}

/-- What the constructor is given stays. -/
def SameSettings (s t : LogFile) : Prop := s.basename = t.basename ∧ s.rollSize = t.rollSize ∧
  s.flushInterval = t.flushInterval ∧ s.checkEveryN = t.checkEveryN

theorem step_sameSettings {op : LogFileOp} (h : s.step p op = .ok (s', out)) : s'.SameSettings s := by
  have hroll {s s' : LogFile} {now : ℤ} {opens : Bool} {out : List AppendFile}
      (h : s.rollFile p now opens = .ok (s', out)) : s'.SameSettings s := by
    rcases rollFile_cases h with ⟨_,rfl,_⟩ | ⟨_,_,rfl⟩
    · exact ⟨rfl, rfl, rfl, rfl⟩
    · exact ⟨rfl, rfl, rfl, rfl⟩
  cases op with
  | append logline results first second opens =>
    cases hf : s.file with
    | none =>
      rw [step, appendUnlocked, hf] at h
      contradiction
    | some f =>
      rcases appendUnlocked_cases (r := ⟨logline, results, first⟩) hf h with ⟨_,h⟩ | ⟨_,_,_,h⟩ |
        ⟨_,_,_,_,_,rfl⟩ | ⟨_,_,_,_,rfl⟩ | ⟨_,_,_,rfl⟩
      · have hsame := hroll h
        exact hsame
      · have hsame := hroll h
        exact hsame
      · exact ⟨rfl, rfl, rfl, rfl⟩
      · exact ⟨rfl, rfl, rfl, rfl⟩
      · exact ⟨rfl, rfl, rfl, rfl⟩
  | flush =>
    rw [step] at h
    split at h
    · contradiction
    · obtain ⟨rfl,_⟩ := Prod.mk.inj (Except.ok.inj h)
      exact ⟨rfl, rfl, rfl, rfl⟩
  | rollFile now opens => exact hroll h

/-- After the epoch the constructor opens a file. -/
theorem new_ok {basename : Bytes} {rollSize flushInterval checkEveryN now : ℤ} {opens : Bool} (h0 : 0 < now)
    (h : new p basename rollSize flushInterval checkEveryN now opens = .ok s) :
    s = ⟨basename, rollSize, flushInterval, checkEveryN, 0, periodOf now, now, now,
      some ⟨getLogFileName p basename now, [], 0, 0⟩⟩ := by
  rw [new] at h
  split at h
  · contradiction
  · obtain ⟨⟨s1,out⟩,hroll,h⟩ := Runs.bind_ok h
    obtain rfl := Except.ok.inj h
    rcases rollFile_cases hroll with ⟨hnow,_⟩ | ⟨_,_,hs1⟩
    · exact absurd h0 (Int.not_lt.mpr hnow)
    · exact hs1

/-- Calls whose files can be opened go through. -/
theorem run_opens {ops : List LogFileOp} (hf : s.file.isSome) (hopens : ∀ op ∈ ops, op.Opens) :
    ∃ r, Runs.run (step p) s ops = .ok r := by
  have hroll {s : LogFile} (hf : s.file.isSome) (now : ℤ) : ∃ s' out, s.rollFile p now true = .ok (s', out) ∧
      s'.file.isSome := by
    rw [rollFile]
    split
    · exact ⟨_, _, rfl, rfl⟩
    · exact ⟨s, [], rfl, hf⟩
  have hstep (s : LogFile) (op : LogFileOp) (_ : List LogFileOp) (_ : List AppendFile) (hf : s.file.isSome)
      (hop : op.Opens) : ∃ s' out, s.step p op = .ok (s', out) ∧ s'.file.isSome := by
    obtain ⟨f,hsome⟩ := Option.isSome_iff_exists.mp hf
    cases op with
    | append logline results first second opens =>
      obtain rfl : opens = true := hop
      rw [step, appendUnlocked, hsome]
      dsimp only
      split
      · exact hroll rfl first
      · split
        · split
          · exact hroll rfl second
          · split
            · exact ⟨_, _, rfl, rfl⟩
            · exact ⟨_, _, rfl, rfl⟩
        · exact ⟨_, _, rfl, rfl⟩
    | flush =>
      rw [step, hsome]
      exact ⟨_, _, rfl, rfl⟩
    | rollFile now opens =>
      obtain rfl : opens = true := hop
      exact hroll hf now
  obtain ⟨s',out,hrun,_⟩ := @Runs.run_along _ _ _ _ (step p) _ (fun s _ _ => s.file.isSome) hstep s ops [] hf
    (Runs.along_of_forall (fun op hop _ => hopens op hop))
  exact ⟨(s', out), hrun⟩

end LogFile

/-- A whole run. -/
theorem logVolumes_run {p : ProcessInfo} {Q : Prop} {s s' : LogFile} {closed out : List AppendFile}
    {records : List LogRecord} {done : List LogVolume} {cur : LogVolume} {f : AppendFile}
    {ops : List LogFileOp} (h : LogVolumes p Q s closed records done cur f) (hw : cur.Within s.rollSize)
    (hQ : Q → ∀ op ∈ ops, ∀ now opens, op ≠ .rollFile now opens)
    (hrun : Runs.run (LogFile.step p) s ops = .ok (s', out)) : s'.SameSettings s ∧
      ∃ done cur f, LogVolumes p Q s' (closed ++ out) (records ++ ops.flatMap LogFileOp.records) done cur f := by
  induction ops generalizing s closed out records done cur f with
  | nil =>
    obtain ⟨rfl,rfl⟩ := Prod.mk.inj (Except.ok.inj hrun)
    refine ⟨⟨rfl, rfl, rfl, rfl⟩, done, cur, f, ?_⟩
    rw [List.append_nil, List.flatMap_nil, List.append_nil]
    exact h
  | cons op ops ih =>
    obtain ⟨s1,out1,out2,hstep,hrest,rfl⟩ := Runs.run_cons_ok hrun
    obtain ⟨done1,cur1,f1,h1,hw1⟩ := h.step hw (fun q => hQ q op List.mem_cons_self) hstep
    obtain ⟨hsame,hnext⟩ := ih h1 hw1 (fun q op hop => hQ q op (List.mem_cons_of_mem _ hop)) hrest
    have hsame1 := LogFile.step_sameSettings hstep
    refine ⟨⟨hsame.1.trans hsame1.1, hsame.2.1.trans hsame1.2.1, hsame.2.2.1.trans hsame1.2.2.1,
      hsame.2.2.2.trans hsame1.2.2.2⟩, ?_⟩
    rw [List.flatMap_cons, ← List.append_assoc, ← List.append_assoc]
    exact hnext

/-- A record is written as far as `fwrite` takes it, and whole if no call but the first takes nothing. -/
theorem LogRecord.text_prefix (r : LogRecord) :
    r.text <+: r.logline ∧ ((∀ x ∈ r.results.tail, 0 < x) → r.text = r.logline) := by
  obtain ⟨first,hfirst⟩ : ∃ x, x = r.results.headD r.logline.length := ⟨_, rfl⟩
  obtain ⟨hbegin,hall⟩ := AppendFile.appendLoop_taken r.logline (min first r.logline.length) r.results.tail
  have htext : r.text = r.logline.take first ++
      (AppendFile.appendLoop ⟨[], [], 0, 0⟩ r.logline (min first r.logline.length) r.results.tail).taken := by
    rw [LogRecord.text, AppendFile.append]
    dsimp only [AppendFile.write]
    rw [AppendFile.appendLoop_eq, ← hfirst]
    dsimp only
    rw [List.nil_append]
  have hsplit : r.logline.take first ++ r.logline.drop (min first r.logline.length) = r.logline := by
    rw [List.take_eq_take_min, List.take_append_drop]
  rw [htext]
  refine ⟨?_, fun hpos => by rw [hall hpos, hsplit]⟩
  calc r.logline.take first ++ _ <+: r.logline.take first ++ r.logline.drop (min first r.logline.length) :=
        (List.prefix_append_right_inj _).mpr hbegin
    _ = r.logline := hsplit

theorem filenames_eq {p : ProcessInfo} {basename : Bytes} {fs : List AppendFile} {vs : List LogVolume}
    (h : List.Forall₂ (LogVolume.Holds p basename) fs vs) :
    fs.map AppendFile.filename = vs.map (fun v => LogFile.getLogFileName p basename v.opened) := by
  rw [← List.forall₂_eq_eq_eq, List.forall₂_map_left_iff, List.forall₂_map_right_iff]
  exact h.imp (fun _ _ hv => hv.filename)

/-- The files of a log file hold the records in the order in which these were given to it, none of them split
and none twice. Only the last record of a file goes over the size, except while the clock shows the second in which
the file was opened or an earlier one. Where nobody else rolls, a file is closed when it is over the size or a record
came on another day. The names of the files are in their order, as long as the years have four digits. -/
theorem LogFile.records_in_volumes {p : ProcessInfo} {basename : Bytes}
    {rollSize flushInterval checkEveryN now : ℤ} {opens : Bool} {s0 : LogFile} {ops : List LogFileOp}
    (h0 : 0 < now) (hnew : LogFile.new p basename rollSize flushInterval checkEveryN now opens = .ok s0) :
    ((∀ op ∈ ops, op.Opens) → ∃ r, Runs.run (LogFile.step p) s0 ops = .ok r) ∧
    ∀ s closed, Runs.run (LogFile.step p) s0 ops = .ok (s, closed) →
      ∃ done cur f, s.file = some f ∧
        List.Forall₂ (LogVolume.Holds p basename) (closed ++ [f]) (done ++ [cur]) ∧
        (done ++ [cur]).flatMap LogVolume.records = ops.flatMap LogFileOp.records ∧
        (done ++ [cur]).Pairwise (fun v w => v.opened < w.opened) ∧
        (∀ v ∈ done ++ [cur], v.Limited rollSize) ∧
        ((∀ op ∈ ops, ∀ now opens, op ≠ .rollFile now opens) → ∀ v ∈ done, v.Due rollSize) ∧
        ((∀ v ∈ done ++ [cur], v.opened < endOfYear9999) →
          ((closed ++ [f]).map AppendFile.filename).Pairwise (· < ·)) := by
  obtain rfl := LogFile.new_ok h0 hnew
  refine ⟨LogFile.run_opens rfl, ?_⟩
  intro s closed hrun
  obtain ⟨Q,hQ⟩ : ∃ Q, Q = ∀ op ∈ ops, ∀ now opens, op ≠ LogFileOp.rollFile now opens := ⟨_, rfl⟩
  have hstart : LogVolumes p Q ⟨basename, rollSize, flushInterval, checkEveryN, 0, periodOf now, now, now,
      some ⟨LogFile.getLogFileName p basename now, [], 0, 0⟩⟩ [] [] [] ⟨now, []⟩
      ⟨LogFile.getLogFileName p basename now, [], 0, 0⟩ := by
    refine ⟨rfl, List.Forall₂.nil, ⟨rfl, rfl, rfl⟩, rfl, rfl, ?_, rfl, List.pairwise_singleton _ _, ?_, ?_⟩
    · intro v hv
      rw [List.mem_singleton.mp hv]
      exact h0
    · intro v hv rs r r' rs' heq
      rw [List.mem_singleton.mp hv] at heq
      exact absurd heq.symm (List.append_ne_nil_of_right_ne_nil _ (List.cons_ne_nil _ _))
    · exact fun _ v hv => absurd hv List.not_mem_nil
  have hwithin : (LogVolume.mk now []).Within rollSize := by
    intro rs r heq
    exact absurd heq.symm (List.append_ne_nil_of_right_ne_nil _ (List.cons_ne_nil _ _))
  obtain ⟨⟨hbasename,hsize,_⟩,done,cur,f,h⟩ := logVolumes_run hstart hwithin (fun q => hQ ▸ q) hrun
  rw [List.nil_append] at h
  dsimp only at hbasename hsize
  have hclosed := h.closed
  have hcurrent := h.current
  have hlimited := h.limited
  have hdue := h.due
  rw [hbasename] at hclosed hcurrent
  rw [hsize] at hlimited hdue
  have hholds : List.Forall₂ (LogVolume.Holds p basename) (closed ++ [f]) (done ++ [cur]) :=
    List.rel_append (hclosed.imp (fun _ _ hv => hv.1)) (List.Forall₂.cons hcurrent List.Forall₂.nil)
  refine ⟨done, cur, f, h.file, hholds, h.records, h.ordered, hlimited, fun hcalls => hdue (hQ ▸ hcalls), ?_⟩
  intro hyears
  have hdigits {v : LogVolume} (hv : v ∈ done ++ [cur]) : FourDigitYear v.opened :=
    fourDigitYear_of_lt (h.positive v hv) (hyears v hv)
  rw [filenames_eq hholds, List.pairwise_map]
  apply h.ordered.imp_of_mem
  intro v w hv hw hlt
  exact (getLogFileName_lt_iff p basename (hdigits hv) (hdigits hw)).mpr hlt

/-- Three records of six bytes where files are to have eight. -/
theorem LogFile.records_in_volumes_three : ∃ s closed,
    Runs.run (LogFile.step ⟨ascii "host", 7⟩)
      ⟨ascii "log", 8, 3, 1024, 0, 86400, 100000, 100000,
        some ⟨LogFile.getLogFileName ⟨ascii "host", 7⟩ (ascii "log") 100000, [], 0, 0⟩⟩
      [.append (ascii "first\n") [4, 2] 100001 100001 true, .append (ascii "other\n") [] 100002 100002 true,
        .append (ascii "third\n") [] 100003 100003 true] = .ok (s, closed) ∧
    ∃ done cur f, s.file = some f ∧
      List.Forall₂ (LogVolume.Holds ⟨ascii "host", 7⟩ (ascii "log")) (closed ++ [f]) (done ++ [cur]) := by
  have h := @LogFile.records_in_volumes ⟨ascii "host", 7⟩ (ascii "log") 8 3 1024 100000 true _
    [.append (ascii "first\n") [4, 2] 100001 100001 true, .append (ascii "other\n") [] 100002 100002 true,
      .append (ascii "third\n") [] 100003 100003 true] (by decide) rfl
  have hopens : ∀ op ∈ [LogFileOp.append (ascii "first\n") [4, 2] 100001 100001 true,
      .append (ascii "other\n") [] 100002 100002 true, .append (ascii "third\n") [] 100003 100003 true],
      op.Opens := by
    simp only [List.forall_mem_cons, LogFileOp.Opens, true_and]
    exact fun op hop => absurd hop List.not_mem_nil
  obtain ⟨⟨s,closed⟩,hrun⟩ := h.1 hopens
  obtain ⟨done,cur,f,hf,hholds,_⟩ := h.2 s closed hrun
  exact ⟨s, closed, hrun, done, cur, f, hf, hholds⟩

end IdealServer
