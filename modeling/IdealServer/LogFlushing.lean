import IdealServer.LogVolumes

/-! What of a `LogFile` is not flushed: the records since the last check, and those of a few seconds before it. -/
namespace IdealServer

namespace LogFile
variable {p : ProcessInfo} {s s' : LogFile} {out : List AppendFile}

theorem rollFile_flushed {now : ℤ} {opens : Bool} (h : s.rollFile p now opens = .ok (s', out)) :
    ∀ g ∈ out, g.flushed = g.taken.length := by
  intro g hg
  rcases rollFile_cases h with ⟨_,_,rfl⟩ | ⟨_,rfl,_⟩
  · exact absurd hg List.not_mem_nil
  · obtain ⟨f,_,rfl⟩ := List.mem_map.mp hg
    rfl

/-- A file is flushed when it is closed. -/
theorem closed_flushed {ops : List LogFileOp} (h : Runs.run (step p) s ops = .ok (s', out)) :
    ∀ g ∈ out, g.flushed = g.taken.length := by
  have hstep (s : LogFile) (acc : List AppendFile) (op : LogFileOp) (s' : LogFile) (out : List AppendFile)
      (hacc : ∀ g ∈ acc, g.flushed = g.taken.length) (h : s.step p op = .ok (s', out)) :
      ∀ g ∈ acc ++ out, g.flushed = g.taken.length := by
    intro g hg
    rcases List.mem_append.mp hg with hg | hg
    · exact hacc g hg
    cases op with
    | append logline results first second opens =>
      cases hf : s.file with
      | none =>
        rw [step, appendUnlocked, hf] at h
        contradiction
      | some f =>
        rcases @appendUnlocked_cases p s s' opens out f hf ⟨logline, results, first⟩ second h with ⟨_,h⟩ |
          ⟨_,_,_,h⟩ | ⟨_,_,_,_,rfl,_⟩ | ⟨_,_,_,rfl,_⟩ | ⟨_,_,rfl,_⟩
        · exact rollFile_flushed h g hg
        · exact rollFile_flushed h g hg
        · exact absurd hg List.not_mem_nil
        · exact absurd hg List.not_mem_nil
        · exact absurd hg List.not_mem_nil
    | flush =>
      rw [step] at h
      split at h
      · contradiction
      · obtain ⟨_,rfl⟩ := Prod.mk.inj (Except.ok.inj h)
        exact absurd hg List.not_mem_nil
    | rollFile now opens => exact rollFile_flushed h g hg
  exact @Runs.run_invariant _ _ _ _ (step p) (fun _ out => ∀ g ∈ out, g.flushed = g.taken.length) hstep s s' ops []
    out (fun g hg => absurd hg List.not_mem_nil) h

end LogFile

/-- The last records are not flushed. The newer of these have come since the last check, and the older had come in
the last seconds at that check. No time has been later than `latest`. -/
structure Unflushed (latest : ℤ) (records : List LogRecord) (s : LogFile) (f : AppendFile)
    (older newer : List LogRecord) : Prop where
  file : s.file = some f
  suffix : older ++ newer <:+ records
  flushed : f.flushed ≤ f.taken.length
  rest : f.taken.drop f.flushed = (older ++ newer).flatMap LogRecord.text
  counted : newer.length ≤ s.count
  count : s.count < max 1 s.checkEveryN
  lastRoll : s.lastRoll ≤ s.lastFlush
  lastFlush : s.lastFlush ≤ latest
  period : s.startOfPeriod = periodOf s.lastRoll
  times : ∀ r ∈ older ++ newer, s.lastFlush ≤ r.time ∧ r.time ≤ latest
  older : ∀ r ∈ older, r.time ≤ s.lastFlush+s.flushInterval

namespace Unflushed
variable {p : ProcessInfo} {latest now : ℤ} {records older newer : List LogRecord} {s s' : LogFile}
  {f : AppendFile} {out : List AppendFile} {opens : Bool}

theorem suffix_concat {as bs : List LogRecord} (h : as <:+ bs) (r : LogRecord) : as ++ [r] <:+ bs ++ [r] := by
  obtain ⟨cs,hcs⟩ := h
  exact ⟨cs, by rw [← hcs, List.append_assoc]⟩

theorem later (h : Unflushed latest records s f older newer) (hnow : latest ≤ now) :
    Unflushed now records s f older newer :=
  ⟨h.file, h.suffix, h.flushed, h.rest, h.counted, h.count, h.lastRoll, Int.le_trans h.lastFlush hnow, h.period,
    fun r hr => ⟨(h.times r hr).1, Int.le_trans (h.times r hr).2 hnow⟩, h.older⟩

section Append
variable (h : Unflushed latest records s f older newer) {r : LogRecord} (hr : latest ≤ r.time)
include h

theorem flushed_append : (f.append r.logline r.results).flushed ≤ (f.append r.logline r.results).taken.length := by
  rw [AppendFile.append_eq]
  exact Nat.le_trans h.flushed (by rw [List.length_append]; exact Nat.le_add_right _ _)

theorem rest_append : (f.append r.logline r.results).taken.drop (f.append r.logline r.results).flushed =
    (older ++ newer ++ [r]).flatMap LogRecord.text := by
  rw [AppendFile.append_eq, List.flatMap_append, ← h.rest]
  dsimp only
  rw [List.drop_append_of_le_length h.flushed, List.flatMap_singleton]

include hr

theorem times_append : ∀ x ∈ older ++ newer ++ [r], s.lastFlush ≤ x.time ∧ x.time ≤ r.time := by
  have hlast := h.lastFlush
  intro x hx
  rcases List.mem_append.mp hx with hx | hx
  · have htime := h.times x hx
    omega
  · rw [List.mem_singleton.mp hx]
    omega

/-- A record that is only counted is one of the newer. -/
theorem count_up (hcount : s.count+1 < s.checkEveryN) : Unflushed r.time (records ++ [r])
    { s with count := s.count+1, file := some (f.append r.logline r.results) }
    (f.append r.logline r.results) older (newer ++ [r]) := by
  have hcounted := h.counted
  have hassoc : older ++ (newer ++ [r]) = older ++ newer ++ [r] := (List.append_assoc _ _ _).symm
  refine ⟨rfl, ?_, h.flushed_append, ?_, ?_, ?_, h.lastRoll, Int.le_trans h.lastFlush hr, h.period, ?_, h.older⟩
  · rw [hassoc]
    exact suffix_concat h.suffix r
  · rw [hassoc]
    exact h.rest_append
  · dsimp only
    rw [List.length_append, List.length_singleton]
    omega
  · dsimp only
    omega
  · rw [hassoc]
    exact h.times_append hr

/-- Where a check comes too early for the next flush, all that is not flushed came in the last seconds. -/
theorem check {count : ℤ} (hearly : r.time ≤ s.lastFlush+s.flushInterval) (h0 : 0 ≤ count)
    (hcount : count < max 1 s.checkEveryN) : Unflushed r.time (records ++ [r])
      { s with count := count, file := some (f.append r.logline r.results) }
      (f.append r.logline r.results) (older ++ newer ++ [r]) [] := by
  have htimes := h.times_append hr
  refine ⟨rfl, ?_, h.flushed_append, ?_, h0, hcount, h.lastRoll, Int.le_trans h.lastFlush hr, h.period, ?_, ?_⟩
  · rw [List.append_nil]
    exact suffix_concat h.suffix r
  · rw [List.append_nil]
    exact h.rest_append
  · rw [List.append_nil]
    exact htimes
  · intro x hx
    have htime := htimes x hx
    dsimp only
    omega

end Append

/-- Nothing is left behind a flush. -/
theorem flush (hfile : s.file = some f) (h0 : 0 ≤ s.count) (hcount : s.count < max 1 s.checkEveryN)
    (hroll : s.lastRoll ≤ s.lastFlush) (hlast : s.lastFlush ≤ latest) (hperiod : s.startOfPeriod = periodOf s.lastRoll)
    (hflushed : f.flushed = f.taken.length) : Unflushed latest records s f [] [] :=
  ⟨hfile, List.nil_suffix, hflushed.le, by rw [hflushed]; exact List.drop_length, h0, hcount, hroll, hlast, hperiod,
    fun r hr => absurd hr List.not_mem_nil, fun r hr => absurd hr List.not_mem_nil⟩

/-- A file that has just been opened has nothing to be flushed. -/
theorem roll (hroll : s.rollFile p now opens = .ok (s', out)) (h0 : 0 ≤ s.count)
    (hcount : s.count < max 1 s.checkEveryN) (hnow : s.lastRoll < now) : ∃ f, Unflushed now records s' f [] [] := by
  rcases LogFile.rollFile_cases hroll with ⟨hrefused,_⟩ | ⟨_,_,rfl⟩
  · omega
  · exact ⟨_, flush rfl h0 hcount (Int.le_refl _) (Int.le_refl _) rfl rfl⟩

theorem count_nonneg (h : Unflushed latest records s f older newer) : 0 ≤ s.count :=
  Int.le_trans (Int.natCast_nonneg _) h.counted

/-- One call, as long as the clock is not set back. -/
theorem step (h : Unflushed latest records s f older newer) (hinterval : 0 ≤ s.flushInterval) {op : LogFileOp}
    (hclock : (latest :: op.times).Pairwise (· ≤ ·)) (hstep : s.step p op = .ok (s', out)) :
    ∃ f older newer, Unflushed ((latest :: op.times).getLast (List.cons_ne_nil _ _)) (records ++ op.records) s' f
      older newer := by
  have h0 := h.count_nonneg
  have hcount := h.count
  have hlastRoll := h.lastRoll
  have hlastFlush := h.lastFlush
  have hzero : (0 : ℤ) < max 1 s.checkEveryN := by omega
  cases op with
  | append logline results first second opens =>
    obtain ⟨r,hr⟩ : ∃ r, r = LogRecord.mk logline results first := ⟨_, rfl⟩
    have hrtime : r.time = first := by rw [hr]
    have hrecords : (LogFileOp.append logline results first second opens).records = [r] := by
      rw [hr]
      rfl
    have happended : s.appendUnlocked p r.logline r.results r.time second opens = .ok (s', out) := by
      rw [hr]
      exact hstep
    simp only [LogFileOp.times, List.pairwise_cons, List.mem_cons, List.not_mem_nil, or_false,
      forall_eq_or_imp, forall_eq] at hclock
    have hfirst : latest ≤ r.time := by omega
    have hsecond : r.time ≤ second := by omega
    rw [hrecords]
    change ∃ f older newer, Unflushed second (records ++ [r]) s' f older newer
    rcases LogFile.appendUnlocked_cases h.file happended with ⟨_,hroll⟩ | ⟨_,_,hperiod,hroll⟩ |
      ⟨_,_,_,_,_,rfl⟩ | ⟨_,_,hearly,_,rfl⟩ | ⟨_,hfew,_,rfl⟩
    · by_cases hnow : s.lastRoll < r.time
      · obtain ⟨f',hnext⟩ := roll hroll h0 hcount hnow
        exact ⟨f', [], [], hnext.later hsecond⟩
      · -- the clock still shows the second of the last roll
        rcases LogFile.rollFile_cases hroll with ⟨_,rfl,_⟩ | ⟨hlt,_⟩
        · exact ⟨_, _, _, (h.check hfirst (by omega) h0 hcount).later hsecond⟩
        · exact absurd hlt hnow
    · have hnow : s.lastRoll < second := by
        have hne : r.time ≠ s.lastRoll := by
          intro heq
          exact hperiod (by rw [heq, h.period])
        omega
      obtain ⟨f',hnext⟩ := roll hroll (Int.le_refl 0) hzero hnow
      exact ⟨f', [], [], hnext⟩
    · refine ⟨_, [], [], flush rfl (Int.le_refl 0) hzero ?_ hsecond h.period rfl⟩
      exact Int.le_trans hlastRoll (Int.le_trans hlastFlush hfirst)
    · exact ⟨_, _, _, (h.check hfirst (by omega) (Int.le_refl 0) hzero).later hsecond⟩
    · exact ⟨_, _, _, (h.count_up hfirst hfew).later hsecond⟩
  | flush =>
    rw [LogFile.step, h.file] at hstep
    obtain ⟨rfl,_⟩ := Prod.mk.inj (Except.ok.inj hstep)
    exact ⟨_, [], [], flush rfl h0 hcount hlastRoll hlastFlush h.period rfl⟩
  | rollFile now opens =>
    have hnow : latest ≤ now := (List.pairwise_cons.mp hclock).1 now List.mem_cons_self
    rw [LogFileOp.records, List.append_nil]
    rcases LogFile.rollFile_cases hstep with ⟨_,rfl,_⟩ | ⟨hlt,_⟩
    · exact ⟨f, older, newer, h.later hnow⟩
    · obtain ⟨f',hnext⟩ := roll hstep h0 hcount hlt
      exact ⟨f', [], [], hnext⟩

end Unflushed

/-- A whole run. -/
theorem unflushed_run {p : ProcessInfo} {latest : ℤ} {records older newer : List LogRecord} {s s' : LogFile}
    {f : AppendFile} {out : List AppendFile} {ops : List LogFileOp} (h : Unflushed latest records s f older newer)
    (hinterval : 0 ≤ s.flushInterval) (hclock : (latest :: ops.flatMap LogFileOp.times).Pairwise (· ≤ ·))
    (hrun : Runs.run (LogFile.step p) s ops = .ok (s', out)) : s'.SameSettings s ∧
      ∃ latest f older newer, Unflushed latest (records ++ ops.flatMap LogFileOp.records) s' f older newer := by
  induction ops generalizing latest records older newer s f out with
  | nil =>
    obtain ⟨rfl,_⟩ := Prod.mk.inj (Except.ok.inj hrun)
    refine ⟨⟨rfl, rfl, rfl, rfl⟩, latest, f, older, newer, ?_⟩
    rw [List.flatMap_nil, List.append_nil]
    exact h
  | cons op ops ih =>
    obtain ⟨s1,out1,out2,hstep,hrest,_⟩ := Runs.run_cons_ok hrun
    have hsame1 := LogFile.step_sameSettings hstep
    rw [List.flatMap_cons, ← List.cons_append] at hclock
    have hparts := List.pairwise_append.mp hclock
    obtain ⟨f1,older1,newer1,h1⟩ := h.step hinterval hparts.1 hstep
    have hlater : ((latest :: op.times).getLast (List.cons_ne_nil _ _) ::
        ops.flatMap LogFileOp.times).Pairwise (· ≤ ·) :=
      List.pairwise_cons.mpr ⟨fun t ht => hparts.2.2 _ (List.getLast_mem _) t ht, hparts.2.1⟩
    obtain ⟨hsame,hnext⟩ := ih h1 (by rw [hsame1.2.2.1]; exact hinterval) hlater hrest
    refine ⟨⟨hsame.1.trans hsame1.1, hsame.2.1.trans hsame1.2.1, hsame.2.2.1.trans hsame1.2.2.1,
      hsame.2.2.2.trans hsame1.2.2.2⟩, ?_⟩
    rw [List.flatMap_cons, ← List.append_assoc]
    exact hnext

/-- As long as the clock is not set back, what a crash would lose is the text of the last records: fewer than
`checkEveryN` that have come since the last check, and before them records that had come within `flushInterval`
seconds of each other. The files that are closed have been flushed. -/
theorem LogFile.unflushed_records {p : ProcessInfo} {basename : Bytes}
    {rollSize flushInterval checkEveryN now : ℤ} {opens : Bool} {s0 s : LogFile} {ops : List LogFileOp}
    {closed : List AppendFile} (h0 : 0 < now) (hinterval : 0 ≤ flushInterval)
    (hnew : LogFile.new p basename rollSize flushInterval checkEveryN now opens = .ok s0)
    (hclock : (now :: ops.flatMap LogFileOp.times).Pairwise (· ≤ ·))
    (hrun : Runs.run (LogFile.step p) s0 ops = .ok (s, closed)) :
    (∀ g ∈ closed, g.flushed = g.taken.length) ∧ ∃ f older newer, s.file = some f ∧
      older ++ newer <:+ ops.flatMap LogFileOp.records ∧
      f.taken.drop f.flushed = (older ++ newer).flatMap LogRecord.text ∧
      (newer.length : ℤ) < max 1 checkEveryN ∧
      ∀ x ∈ older, ∀ y ∈ older, y.time ≤ x.time+flushInterval := by
  obtain rfl := LogFile.new_ok h0 hnew
  have hstart : Unflushed now [] ⟨basename, rollSize, flushInterval, checkEveryN, 0, periodOf now, now, now,
      some ⟨LogFile.getLogFileName p basename now, [], 0, 0⟩⟩ ⟨LogFile.getLogFileName p basename now, [], 0, 0⟩ [] [] :=
    Unflushed.flush rfl (Int.le_refl 0) (lt_max_of_lt_left Int.one_pos) (Int.le_refl _) (Int.le_refl _) rfl rfl
  obtain ⟨⟨_,_,hsettings,hcheck⟩,latest,f,older,newer,h⟩ := unflushed_run hstart hinterval hclock hrun
  rw [List.nil_append] at h
  dsimp only at hsettings hcheck
  refine ⟨LogFile.closed_flushed hrun, f, older, newer, h.file, h.suffix, h.rest, ?_, ?_⟩
  · rw [← hcheck]
    exact Int.lt_of_le_of_lt h.counted h.count
  · intro x hx y hy
    have hearliest := (h.times x (List.mem_append_left _ hx)).1
    have hlatest := h.older y hy
    omega

/-- Checks at each second record, and a flush after more than three seconds. -/
theorem LogFile.unflushed_records_five : ∃ s closed,
    Runs.run (LogFile.step ⟨ascii "host", 7⟩)
      ⟨ascii "log", 99, 3, 2, 0, 86400, 100000, 100000,
        some ⟨LogFile.getLogFileName ⟨ascii "host", 7⟩ (ascii "log") 100000, [], 0, 0⟩⟩
      ((List.range 5).map (fun i => .append (ascii "a\n") [] (100001+i) (100001+i) true)) = .ok (s, closed) ∧
    ∃ (f : AppendFile) (older newer : List LogRecord), s.file = some f ∧
      f.taken.drop f.flushed = (older ++ newer).flatMap LogRecord.text ∧ (newer.length : ℤ) < 2 := by
  have hopens : ∀ op ∈ (List.range 5).map (fun i =>
      LogFileOp.append (ascii "a\n") [] (100001+i) (100001+i) true), op.Opens := by
    intro op hop
    obtain ⟨i,_,rfl⟩ := List.mem_map.mp hop
    rfl
  obtain ⟨⟨s,closed⟩,hrun⟩ := @LogFile.run_opens ⟨ascii "host", 7⟩
    ⟨ascii "log", 99, 3, 2, 0, 86400, 100000, 100000,
      some ⟨LogFile.getLogFileName ⟨ascii "host", 7⟩ (ascii "log") 100000, [], 0, 0⟩⟩ _ rfl hopens
  obtain ⟨_,f,older,newer,hfile,_,hrest,hcount,_⟩ :=
    @LogFile.unflushed_records ⟨ascii "host", 7⟩ (ascii "log") 99 3 2 100000 true _ _ _ _ (by decide) (by decide) rfl
      (by decide) hrun
  exact ⟨s, closed, hrun, f, older, newer, hfile, hrest, hcount⟩

end IdealServer
