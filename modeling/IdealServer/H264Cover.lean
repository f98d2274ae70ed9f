import IdealServer.H264Scan
import Mathlib.Data.List.TakeDrop

/-! The frames that `H264File::readFrame` returns between the beginning of a file and the call that reports
its end. -/
namespace IdealServer

open Reading

/-- A unit that is found is in the buffer. -/
theorem lt_of_unitAt {mem : Bytes} {test : ℕ → Reading UInt8 Bool} {i : ℕ} {c : Unit}
    (h : (unitAt test i).run mem = some (some c)) : i < mem.length := by
  by_contra hout
  rw [run_eq_none (self_mem_unitAt test i) (Nat.le_of_not_lt hout)] at h
  cases h

/-- Where a frame ends. -/
theorem cutFrame_run {mem : Bytes} {bytesRead : ℕ} {count : ℤ} {bufSize : ℕ} {cut : Cut}
    (h : (cutFrame bytesRead count bufSize).run mem = some (some cut)) :
    cut.frame = mem.take (min cut.i bufSize) ∧
      ((cut.flag = false ∧ 4 ≤ cut.i ∧ cut.i < scanLimit bytesRead ∧ cut.i < mem.length) ∨
        (cut.flag = true ∧ cut.i = bytesRead ∧ 0 < count)) := by
  obtain ⟨⟨i,start⟩,hstart,h⟩ := run_bind_eq_some h
  obtain ⟨⟨i1,stop⟩,hstop,h⟩ := run_bind_eq_some h
  dsimp only at h
  split at h
  case isFalse => cases h
  case isTrue hcut =>
    obtain ⟨frame,hframe,h⟩ := run_bind_eq_some h
    rw [← Option.some.inj (Option.some.inj h)]
    dsimp only
    have hsize (m : ℕ) : (if m ≤ bufSize then m else bufSize) = min m bufSize := by split <;> omega
    rw [run_copy hframe, List.drop_zero, hsize]
    refine ⟨rfl, ?_⟩
    rw [Bool.and_eq_true] at hcut
    rw [if_pos hcut.1] at hstop
    cases stop with
    | some c =>
      have hi := break_lt hstop
      refine Or.inl ⟨by simp, ?_⟩
      simp only [Option.isNone_some, Bool.and_false, Bool.false_and, Bool.false_eq_true, if_false]
      rcases run_loop hstop with ⟨hnone,_⟩ | ⟨_,_,_,_,hunit⟩
      · cases hnone
      · have := lt_of_unitAt hunit
        omega
    | none =>
      have hflag : (start.isSome && (none : Option Unit).isNone && decide (0 < count)) = true := by
        simpa using hcut
      refine Or.inr ⟨hflag, if_pos hflag, ?_⟩
      have hlast : start.isSome = true ∧ 0 < count := by simpa using hcut.2
      exact hlast.2

namespace H264File
variable {file : Bytes} {f f' : H264File}

/-- As `open` leaves it where no file has been open, and so that the next call reads from byte 0 on. -/
structure Opened (f : H264File) : Prop where
  fp : f.fp = some 0
  count : f.count = 0
  bytesUsed : f.bytesUsed = 0

theorem opened_new (mem : Bytes) (h : mem.length < 2^31) : ((new mem h).openPath true).1.Opened := ⟨rfl, rfl, rfl⟩

theorem opened_close (h : f.fp ≠ none) : (f.close.openPath true).1.Opened := by
  obtain ⟨pos,hpos⟩ := Option.ne_none_iff_exists'.mp h
  rw [close, hpos]
  exact ⟨rfl, rfl, rfl⟩

/-- What the next call reads: the bytes of the file from `base` on, after going back to the beginning or
not. -/
theorem refill_spec {pos : ℕ} (h : (f.refill file pos).1 ≠ 0) :
    ∃ base, (f.refill file pos).1 = min f.buffer.length (file.length-base) ∧
      (f.refill file pos).2.buffer.take (f.refill file pos).1 =
        (file.drop base).take (f.refill file pos).1 ∧
      (f.refill file pos).2.fp = some (base+(f.refill file pos).1) ∧
      ((base = pos ∧ (f.refill file pos).2.count = f.count ∧ (f.refill file pos).2.bytesUsed = f.bytesUsed) ∨
        (file.length ≤ pos ∧ base = 0 ∧ (f.refill file pos).2.count = 0 ∧
          (f.refill file pos).2.bytesUsed = 0)) := by
  have htake (g : H264File) (p : ℕ) : (g.fread file p).2.buffer.take (g.fread file p).1 =
      (file.drop p).take (g.fread file p).1 := by
    apply List.take_left'
    simp only [fread, List.length_take, List.length_drop]
    omega
  have hlen := f.length_fread file pos
  rw [refill] at h ⊢
  dsimp only at h ⊢
  split
  case isFalse hread => exact ⟨pos, rfl, htake f pos, rfl, Or.inl ⟨rfl, rfl, rfl⟩⟩
  case isTrue hread =>
    rw [if_pos hread] at h
    refine ⟨0, ?_, htake _ 0, rfl, Or.inr ⟨?_, rfl, rfl, rfl⟩⟩
    · show min (f.fread file pos).2.buffer.length (file.length-0) = _
      rw [hlen]
    · have hpos : min f.buffer.length (file.length-pos) = 0 := hread
      have hzero : min (f.fread file pos).2.buffer.length (file.length-0) ≠ 0 := h
      rw [hlen] at hzero
      omega

section Seek
variable (f : H264File) (offset : ℤ)

@[simp] theorem fseek_buffer : (f.fseek offset).buffer = f.buffer := by
  rw [fseek]
  split <;> rfl

@[simp] theorem fseek_count : (f.fseek offset).count = f.count := by
  rw [fseek]
  split <;> rfl

@[simp] theorem fseek_bytesUsed : (f.fseek offset).bytesUsed = f.bytesUsed := by
  rw [fseek]
  split <;> rfl

theorem fseek_fp (h : 0 ≤ offset) : (f.fseek offset).fp = some offset.toNat := by rw [fseek, if_pos h]

end Seek

theorem conclude_ok {result : Option (Option Cut)} {r : FrameRead} (h : f.conclude result = .ok (f', r))
    (hsize : 0 < r.size) : ∃ cut, result = some (some cut) ∧ r.frame = cut.frame ∧
      r.endOfFrame = some cut.flag ∧ f'.buffer = f.buffer ∧
      (cut.flag = true → f'.Opened) ∧
      (cut.flag = false → f'.count = f.count+1 ∧ f'.bytesUsed = Int.bmod (f.bytesUsed+cut.i) (2^32) ∧
        (0 ≤ f'.bytesUsed → f'.fp = some f'.bytesUsed.toNat)) := by
  match result with
  | none => cases h
  | some none =>
    rw [← (Prod.mk.inj (Except.ok.inj h)).2] at hsize
    cases hsize
  | some (some cut) =>
    refine ⟨cut, rfl, ?_⟩
    rw [conclude] at h
    cases hflag : cut.flag with
    | true =>
      rw [if_pos hflag] at h
      obtain ⟨rfl,rfl⟩ := Prod.mk.inj (Except.ok.inj h)
      refine ⟨rfl, rfl, fseek_buffer _ 0, fun _ => ⟨fseek_fp _ 0 (Int.le_refl 0), ?_, ?_⟩, ?_⟩
      · rw [fseek_count]
      · rw [fseek_bytesUsed]
      · intro hne
        cases hne
    | false =>
      rw [if_neg (by rw [hflag]; decide)] at h
      split at h
      case isFalse => cases h
      case isTrue =>
        obtain ⟨rfl,rfl⟩ := Prod.mk.inj (Except.ok.inj h)
        refine ⟨rfl, rfl, fseek_buffer _ _, (fun hne => absurd hne Bool.false_ne_true), fun _ => ?_⟩
        rw [fseek_count, fseek_bytesUsed]
        exact ⟨rfl, rfl, fseek_fp _ _⟩

/-- A call that returns a frame has found where it ends in the bytes that it has read. -/
theorem readFrame_ok {bufSize : ℕ} {r : FrameRead} (h : f.readFrame file bufSize = .ok (f', r))
    (hsize : 0 < r.size) : ∃ pos, f.fp = some pos ∧ (f.refill file pos).1 ≠ 0 ∧
      (f.refill file pos).2.conclude ((cutFrame (f.refill file pos).1 (f.refill file pos).2.count
        bufSize).run (f.refill file pos).2.buffer) = .ok (f', r) := by
  rw [readFrame] at h
  cases hfp : f.fp with
  | none =>
    rw [hfp] at h
    rw [← (Prod.mk.inj (Except.ok.inj h)).2] at hsize
    cases hsize
  | some pos =>
    rw [hfp] at h
    refine ⟨pos, rfl, ?_⟩
    dsimp only at h
    split at h
    case isTrue =>
      rw [← (Prod.mk.inj (Except.ok.inj h)).2] at hsize
      cases hsize
    case isFalse hread => exact ⟨hread, h⟩

/-- Fewer than five bytes are searched without a fault only where the buffer is larger. -/
theorem lt_length_of_run {mem : Bytes} {bytesRead : ℕ} {count : ℤ} {bufSize : ℕ} {result : Option Cut}
    (h : (cutFrame bytesRead count bufSize).run mem = some result) (hfew : bytesRead < 5)
    (hpos : 0 < bytesRead) (hmem : bytesRead ≤ mem.length) : bytesRead < mem.length := by
  obtain ⟨x,hx,hout⟩ := exists_indices_cutFrame hfew hpos hmem count bufSize
  by_contra hfull
  rw [run_eq_none hx (by omega)] at h
  cases h

end H264File

namespace FrameRead

/-- A frame with more to come, and the last one. -/
def Continues (r : FrameRead) : Prop := 0 < r.size ∧ r.endOfFrame = some false
def Ends (r : FrameRead) : Prop := 0 < r.size ∧ r.endOfFrame = some true

end FrameRead

namespace H264File
variable {file : Bytes} {f f' : H264File}

/-- The frames so far are the bytes in front of the position, and behind it there is the start code of
another. -/
structure Covered (file : Bytes) (f : H264File) (acc : Bytes) (pos : ℕ) : Prop where
  fp : f.fp = some pos
  bytesUsed : f.bytesUsed = pos
  lt : pos < 2^31
  acc : acc = file.take pos
  more : pos = 0 ∧ f.count = 0 ∨ 0 < f.count ∧ pos+6 ≤ file.length

theorem Covered.reads {acc : Bytes} {pos : ℕ} (hc : Covered file f acc pos) {bufSize : ℕ} {r : FrameRead}
    (h : f.readFrame file bufSize = .ok (f', r)) (hsize : 0 < r.size) (hbuf : f.buffer.length ≤ bufSize)
    (hlen : 5 ≤ file.length) : ∃ i flag, r.frame = (file.drop pos).take i ∧ r.endOfFrame = some flag ∧
      f'.buffer.length = f.buffer.length ∧
      (flag = true → f'.Opened ∧ 0 < f.count ∧ i = min f.buffer.length (file.length-pos)) ∧
      (flag = false → f'.count = f.count+1 ∧ f'.bytesUsed = Int.bmod (pos+i) (2^32) ∧
        (0 ≤ f'.bytesUsed → f'.fp = some f'.bytesUsed.toNat) ∧ i < 2^31 ∧ pos+i+6 ≤ file.length) := by
  obtain ⟨pos1,hfp,hread,hconclude⟩ := readFrame_ok h hsize
  obtain rfl := Option.some.inj (hc.fp.symm.trans hfp)
  obtain ⟨cut,hrun,hframe,hend,hbuffer,hlast,hmore⟩ := conclude_ok hconclude hsize
  obtain ⟨hcut,hcases⟩ := cutFrame_run hrun
  obtain ⟨base,hn,hwindow,_,hbase⟩ := refill_spec hread
  have hsame := f.length_refill file pos
  have hlt := f.buffer_lt
  have hmorePos := hc.more
  -- the position is inside the file, so reading does not go back to the beginning
  obtain ⟨rfl,hcount,hused⟩ : base = pos ∧ (f.refill file pos).2.count = f.count ∧
      (f.refill file pos).2.bytesUsed = f.bytesUsed := by
    rcases hbase with hbase | ⟨hout,_⟩
    · exact hbase
    · omega
  generalize hr : (f.refill file base).1 = n at *
  generalize (f.refill file base).2 = g at *
  have hfive : 5 ≤ n := by
    by_contra hfew
    have := lt_length_of_run hrun (by omega) (Nat.pos_of_ne_zero hread) (by omega)
    omega
  have hlimit := scanLimit_of_le hfive (by omega)
  have hile : cut.i ≤ n := by
    rcases hcases with hcases | hcases <;> omega
  have hpiece : r.frame = (file.drop base).take cut.i := by
    calc r.frame = g.buffer.take cut.i := by
          rw [hframe, hcut, Nat.min_eq_left (by omega)]
      _ = (g.buffer.take n).take cut.i := by rw [List.take_take, Nat.min_eq_left hile]
      _ = (file.drop base).take cut.i := by rw [hwindow, List.take_take, Nat.min_eq_left hile]
  refine ⟨cut.i, cut.flag, hpiece, hend, by rw [hbuffer, hsame], ?_, ?_⟩
  · intro hflag
    rw [hflag] at hcases
    obtain ⟨_,hi,hpos⟩ : true = true ∧ cut.i = n ∧ 0 < g.count := by simpa using hcases
    exact ⟨hlast hflag, by omega, by omega⟩
  · intro hflag
    rw [hflag] at hcases
    have hi : 4 ≤ cut.i ∧ cut.i < scanLimit n ∧ cut.i < g.buffer.length := by simpa using hcases
    obtain ⟨h1,h2,h3⟩ := hmore hflag
    rw [hused, hc.bytesUsed] at h2
    exact ⟨by omega, h2, h3, by omega, by omega⟩

/-- One call of a run, with what it returns. -/
def frameStep (file : Bytes) (f : H264File) (bufSize : ℕ) : Except H264Fault (H264File × List FrameRead) :=
  (f.readFrame file bufSize).map (fun r => (r.1, [r.2]))

theorem frameStep_ok {bufSize : ℕ} {out : List FrameRead} (h : frameStep file f bufSize = .ok (f', out)) :
    ∃ r, f.readFrame file bufSize = .ok (f', r) ∧ out = [r] := by
  obtain ⟨⟨f1,r⟩,h1,h⟩ := Runs.map_ok h
  obtain ⟨rfl,rfl⟩ := Prod.mk.inj h
  exact ⟨r, h1, rfl⟩

/-- No call of the run stores a position that does not fit in `_bytesUsed`. -/
def NeverWraps (file : Bytes) (f : H264File) (sizes : List ℕ) : Prop :=
  ∀ n f1 results, Runs.run (frameStep file) f (sizes.take n) = .ok (f1, results) → 0 ≤ f1.bytesUsed

theorem Covered.step {acc : Bytes} {pos : ℕ} (hc : Covered file f acc pos) {bufSize : ℕ} {r : FrameRead}
    (h : f.readFrame file bufSize = .ok (f', r)) (hr : r.Continues) (hbuf : f.buffer.length ≤ bufSize)
    (hlen : 5 ≤ file.length) (hwrap : 0 ≤ f'.bytesUsed) :
    ∃ pos', Covered file f' (acc ++ r.frame) pos' := by
  obtain ⟨i,flag,hframe,hend,_,_,hmore⟩ := hc.reads h hr.1 hbuf hlen
  rw [hr.2] at hend
  obtain ⟨hcount,hused,hfp,hi,hnext⟩ := hmore (Option.some.inj hend).symm
  have hpos := hc.lt
  have hcounted := hc.more
  have hmod : Int.bmod ((pos:ℤ)+i) (2^32) = (pos:ℤ)+i := by
    rw [hused, Int.bmod_def] at hwrap
    rw [Int.bmod_def]
    split at hwrap <;> split <;> omega
  rw [hmod] at hused
  have hlt : pos+i < 2^31 := by
    rw [Int.bmod_def] at hmod
    split at hmod <;> omega
  refine ⟨pos+i, ?_, ?_, hlt, ?_, Or.inr ⟨by omega, hnext⟩⟩
  · rw [hfp hwrap, hused]
    rfl
  · rw [hused]
    rfl
  · rw [hc.acc, hframe, List.take_add]

/-- Every call that is not the last adds a frame, as long as the position is stored. -/
theorem covered_run {f1 : H264File} {sizes : List ℕ} {results : List FrameRead} (hlen : 5 ≤ file.length)
    {acc : Bytes} {pos : ℕ} (hc : Covered file f acc pos) (hsizes : ∀ c ∈ sizes, f.buffer.length ≤ c)
    (hrun : Runs.run (frameStep file) f sizes = .ok (f1, results)) (hmore : ∀ r ∈ results, r.Continues)
    (hwrap : NeverWraps file f sizes) :
    f1.buffer.length = f.buffer.length ∧ ∃ pos', Covered file f1 (acc ++ results.flatMap FrameRead.frame) pos' := by
  induction sizes generalizing f acc pos results with
  | nil =>
    obtain ⟨rfl,rfl⟩ := Prod.mk.inj (Except.ok.inj hrun)
    rw [List.flatMap_nil, List.append_nil]
    exact ⟨rfl, pos, hc⟩
  | cons c sizes ih =>
    obtain ⟨f2,o1,o2,hstep,hrest,rfl⟩ := Runs.run_cons_ok hrun
    obtain ⟨r,hread,rfl⟩ := frameStep_ok hstep
    have hr := hmore r (List.mem_append_left o2 List.mem_cons_self)
    have hbuf := hsizes c List.mem_cons_self
    have hstored := hwrap 1 f2 _ (Runs.run_single hstep)
    obtain ⟨pos2,hc2⟩ := hc.step hread hr hbuf hlen hstored
    obtain ⟨_,_,_,_,hsame,_⟩ := hc.reads hread hr.1 hbuf hlen
    have hall := ih hc2 (fun d hd => by rw [hsame]; exact hsizes d (List.mem_cons_of_mem c hd)) hrest
      (fun q hq => hmore q (List.mem_append_right [r] hq))
      (fun n f3 out h3 => hwrap (n+1) f3 _ (Runs.run_cons_of_ok hstep h3))
    rw [hsame, List.append_assoc] at hall
    exact hall

/-- At the beginning of a file, or at its end, from where a call goes back to the beginning. -/
def AtAnEnd (file : Bytes) (f : H264File) : Prop :=
  ∃ pos, f.fp = some pos ∧ (pos = 0 ∧ f.count = 0 ∧ f.bytesUsed = 0 ∨ file.length ≤ pos)

/-- In a file of less than five bytes no frame is taken for the last one. -/
theorem AtAnEnd.step (hf : AtAnEnd file f) (hlen : file.length < 5) {bufSize : ℕ} {r : FrameRead}
    (h : f.readFrame file bufSize = .ok (f', r)) (hsize : 0 < r.size) :
    r.endOfFrame = some false ∧ (0 ≤ f'.bytesUsed → AtAnEnd file f') := by
  obtain ⟨pos0,hfp0,hends⟩ := hf
  obtain ⟨pos,hfp,hread,hconclude⟩ := readFrame_ok h hsize
  obtain rfl := Option.some.inj (hfp0.symm.trans hfp)
  obtain ⟨cut,hrun,_,hend,_,_,hmore⟩ := conclude_ok hconclude hsize
  obtain ⟨_,hcases⟩ := cutFrame_run hrun
  obtain ⟨base,hn,_,_,hbase⟩ := refill_spec hread
  have hsame := f.length_refill file pos0
  have hlt := f.buffer_lt
  have hstart : (f.refill file pos0).2.count = 0 ∧ (f.refill file pos0).2.bytesUsed = 0 := by
    rcases hbase with ⟨rfl,hcount,hused⟩ | ⟨_,_,hcount,hused⟩
    · rcases hends with ⟨rfl,h1,h2⟩ | hout
      · rw [hcount, hused]
        exact ⟨h1, h2⟩
      · omega
    · exact ⟨hcount, hused⟩
  rcases hcases with ⟨hflag,h4,_,hmem⟩ | ⟨_,_,hpos⟩
  · rw [hend, hflag]
    refine ⟨rfl, ?_⟩
    intro hwrap
    obtain ⟨_,hused,hfp'⟩ := hmore hflag
    refine ⟨f'.bytesUsed.toNat, hfp' hwrap, Or.inr ?_⟩
    rw [hstart.2, Int.zero_add, Int.bmod_def] at hused
    split at hused <;> omega
  · omega

theorem atAnEnd_run (hf : AtAnEnd file f) (hlen : file.length < 5) {f1 : H264File} {sizes : List ℕ}
    {results : List FrameRead} (hrun : Runs.run (frameStep file) f sizes = .ok (f1, results))
    (hmore : ∀ r ∈ results, r.Continues) (hwrap : NeverWraps file f sizes) : AtAnEnd file f1 := by
  induction sizes generalizing f results with
  | nil =>
    obtain ⟨rfl,_⟩ := Prod.mk.inj (Except.ok.inj hrun)
    exact hf
  | cons c sizes ih =>
    obtain ⟨f2,o1,o2,hstep,hrest,rfl⟩ := Runs.run_cons_ok hrun
    obtain ⟨r,hread,rfl⟩ := frameStep_ok hstep
    have hr := hmore r (List.mem_append_left o2 List.mem_cons_self)
    have hf2 := (hf.step hlen hread hr.1).2 (hwrap 1 f2 _ (Runs.run_single hstep))
    exact ih hf2 hrest (fun q hq => hmore q (List.mem_append_right [r] hq))
      (fun n f3 out h3 => hwrap (n+1) f3 _ (Runs.run_cons_of_ok hstep h3))

/-- The file ends within the size of the buffer from the position on. -/
def Reaches (file : Bytes) (f : H264File) : Prop := ∀ pos, f.fp = some pos → file.length ≤ pos+f.buffer.length

/-- From a fresh open up to the first call that reports the end, and with every position stored as it is:
the frames are the whole file, and the next call starts at its first byte, exactly if the last call had the
rest of the file in its buffer. -/
theorem frames_cover_iff {f1 f2 : H264File} {sizes : List ℕ} {bufSize : ℕ} {results : List FrameRead}
    {last : FrameRead} (hopen : f.Opened) (hsizes : ∀ c ∈ sizes ++ [bufSize], f.buffer.length ≤ c)
    (hrun : Runs.run (frameStep file) f sizes = .ok (f1, results)) (hmore : ∀ r ∈ results, r.Continues)
    (hlast : f1.readFrame file bufSize = .ok (f2, last)) (hend : last.Ends)
    (hwrap : NeverWraps file f sizes) :
    ((results ++ [last]).flatMap FrameRead.frame = file ∧ f2.Opened) ↔ f1.Reaches file := by
  by_cases hlen : file.length < 5
  · -- there is no such run
    have hf : AtAnEnd file f := ⟨0, hopen.fp, Or.inl ⟨rfl, hopen.count, hopen.bytesUsed⟩⟩
    have hnot := ((atAnEnd_run hf hlen hrun hmore hwrap).step hlen hlast hend.1).1
    rw [hend.2] at hnot
    cases hnot
  · have hstart : Covered file f [] 0 :=
      ⟨hopen.fp, hopen.bytesUsed, by decide, rfl, Or.inl ⟨rfl, hopen.count⟩⟩
    have hbufs (c : ℕ) (hc : c ∈ sizes) := hsizes c (List.mem_append_left [bufSize] hc)
    have hbuf := hsizes bufSize (List.mem_append_right sizes List.mem_cons_self)
    obtain ⟨hsame,pos,hc⟩ := covered_run (Nat.le_of_not_lt hlen) hstart hbufs hrun hmore hwrap
    obtain ⟨i,flag,hframe,hflag,_,hstop,_⟩ := hc.reads hlast hend.1 (by rw [hsame]; exact hbuf)
      (Nat.le_of_not_lt hlen)
    rw [hend.2] at hflag
    obtain ⟨hopened,_,hi⟩ := hstop (Option.some.inj hflag).symm
    have hcontent : (results ++ [last]).flatMap FrameRead.frame = file.take (pos+i) := by
      calc (results ++ [last]).flatMap FrameRead.frame
          = ([] ++ results.flatMap FrameRead.frame) ++ last.frame := by simp
        _ = file.take (pos+i) := by rw [hc.acc, hframe, List.take_add]
    rw [hcontent, and_iff_left hopened, List.take_eq_self_iff]
    have hfp := hc.fp
    constructor
    · intro hall pos1 hpos1
      obtain rfl := Option.some.inj (hfp.symm.trans hpos1)
      omega
    · intro hreach
      have := hreach pos hfp
      omega

section Frames

/-- A buffer of eleven bytes, and a frame of five bytes. -/
def fresh : H264File := ((new [7,7,7,7,7,7,7,7,7,7,7] (by decide)).openPath true).1
def first : FrameRead := ⟨5, [0,0,1,0x65,0x80], some false⟩

/-- The second frame fits into the buffer. -/
def shortFile : Bytes := [0,0,1,0x65,0x80, 0,0,1,0x65,0x80,9]
def shortSecond : H264File := ⟨some 5, shortFile, by decide, 5, 1⟩
def shortEnd : H264File := ⟨some 0, [0,0,1,0x65,0x80,9,0,1,0x65,0x80,9], by decide, 0, 0⟩
def shortLast : FrameRead := ⟨6, [0,0,1,0x65,0x80,9], some true⟩

theorem frames_cover_iff_short : ([first] ++ [shortLast]).flatMap FrameRead.frame = shortFile ∧ shortEnd.Opened ↔
    shortSecond.Reaches shortFile := by
  have hfirst : Runs.run (frameStep shortFile) fresh [11] = .ok (shortSecond, [first]) := by decide
  have hlast : shortSecond.readFrame shortFile 11 = .ok (shortEnd, shortLast) := by decide
  have hwrap : NeverWraps shortFile fresh [11] := by
    intro n f1 results h
    cases n with
    | zero =>
      obtain ⟨rfl,_⟩ := Prod.mk.inj (Except.ok.inj h)
      decide
    | succ n =>
      rw [List.take_succ_cons, List.take_nil, hfirst] at h
      obtain ⟨rfl,_⟩ := Prod.mk.inj (Except.ok.inj h)
      decide
  have hmore (r : FrameRead) (hr : r ∈ [first]) : r.Continues := by
    rw [List.mem_singleton.mp hr]
    exact ⟨by decide, rfl⟩
  exact frames_cover_iff (opened_new _ (by decide)) (by decide) hfirst hmore hlast ⟨by decide, rfl⟩ hwrap

/-- The second frame is longer than the buffer. -/
def longFile : Bytes := [0,0,1,0x65,0x80, 0,0,1,0x65,0x80,9,9,9,9,9,9,9]

theorem frames_cover_fails : ∃ f1 f2 last,
    Runs.run (frameStep longFile) fresh [11] = .ok (f1, [first]) ∧ first.Continues ∧
    f1.readFrame longFile 11 = .ok (f2, last) ∧ last.Ends ∧
    ¬(([first] ++ [last]).flatMap FrameRead.frame = longFile ∧ f2.Opened) := by
  refine ⟨⟨some 5, longFile.take 11, by decide, 5, 1⟩, ⟨some 0, (longFile.drop 5).take 11, by decide, 0, 0⟩,
    ⟨11, (longFile.drop 5).take 11, some true⟩, by decide, ⟨by decide, rfl⟩, by decide, ⟨by decide, rfl⟩, ?_⟩
  intro h
  exact absurd h.1 (by decide)

end Frames

end H264File

end IdealServer
