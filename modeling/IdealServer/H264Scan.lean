import IdealServer.H264File

/-! Which bytes of `_buffer` are read by `H264File::readFrame`. -/
namespace IdealServer

open Reading

section Scan
variable {mem : Bytes} {n : ℕ}

theorem below_byteIs {i : ℕ} (h : i < n) (value : UInt8) : Below mem n (byteIs i value) :=
  below_bind (below_get h) (fun _ _ => below_pure _)

theorem below_maskedIs {i : ℕ} (h : i < n) (mask value : UInt8) : Below mem n (maskedIs i mask value) :=
  below_bind (below_get h) (fun _ _ => below_pure _)

theorem startCode_length {i k : ℕ} (h : (startCode i).run mem = some (some k)) : k = 3 ∨ k = 4 := by
  obtain ⟨b3,_,h⟩ := run_bind_eq_some h
  cases b3 with
  | true => exact Or.inl (Option.some.inj (Option.some.inj h)).symm
  | false =>
    obtain ⟨b4,_,h⟩ := run_bind_eq_some h
    cases b4 with
    | true => exact Or.inr (Option.some.inj (Option.some.inj h)).symm
    | false => cases h

theorem below_startCode {i : ℕ} (h : i+3 < n) : Below mem n (startCode i) := by
  apply below_bind
  · apply below_and (below_byteIs (by omega) _)
    exact below_and (below_byteIs (by omega) _) (below_byteIs (by omega) _)
  · intro b3 _
    cases b3 with
    | true => exact below_pure _
    | false =>
      apply below_bind
      · apply below_and (below_byteIs (by omega) _)
        apply below_and (below_byteIs (by omega) _)
        exact below_and (below_byteIs (by omega) _) (below_byteIs (by omega) _)
      · intro b4 _
        cases b4 with
        | true => exact below_pure _
        | false => exact below_pure _

theorem below_isFirstSlice {nal : ℕ} (h : nal+1 < n) : Below mem n (isFirstSlice nal) := by
  apply below_and _ (below_maskedIs h _ _)
  exact below_or (below_maskedIs (by omega) _ _) (below_maskedIs (by omega) _ _)

theorem below_isNextFrame {nal : ℕ} (h : nal+1 < n) : Below mem n (isNextFrame nal) := by
  apply below_or (below_maskedIs (by omega) _ _)
  apply below_or (below_maskedIs (by omega) _ _)
  exact below_or (below_maskedIs (by omega) _ _) (below_isFirstSlice h)

/-- A pass looks five bytes ahead. -/
theorem below_unitAt {test : ℕ → Reading UInt8 Bool} (htest : ∀ nal, nal+1 < n → Below mem n (test nal))
    {i : ℕ} (h : i+5 < n) : Below mem n (unitAt test i) := by
  apply below_bind (below_startCode (by omega))
  intro found hfound
  cases found with
  | none => exact below_pure none
  | some k =>
    have hk := startCode_length hfound
    apply below_bind (htest (i+k) (by omega))
    intro b _
    cases b with
    | true => exact below_pure _
    | false => exact below_pure _

theorem scanLimit_of_le {bytesRead : ℕ} (h : 5 ≤ bytesRead) (hlt : bytesRead < 2^31) :
    scanLimit bytesRead = bytesRead-5 := by
  rw [scanLimit]
  omega

/-- A loop up to `limit` that is left with `break`. -/
theorem break_lt {γ : Type} {body : ℕ → Reading UInt8 (Option γ)} {limit i i' : ℕ} {c : γ}
    (h : (loop body (limit-i) i).run mem = some (i', some c)) : i ≤ i' ∧ i' < limit := by
  rcases run_loop h with ⟨hnone,_⟩ | ⟨_,_,hle,hlt,_⟩
  · cases hnone
  · omega

/-- Of five bytes or more only those that have been read are looked at. -/
theorem below_cutFrame {bytesRead : ℕ} (h : 5 ≤ bytesRead) (hlt : bytesRead < 2^31) (count : ℤ)
    (bufSize : ℕ) : Below mem bytesRead (cutFrame bytesRead count bufSize) := by
  have hlimit := scanLimit_of_le h hlt
  apply below_bind
  · apply below_loop
    intro j _ hj
    exact below_unitAt (fun _ => below_isFirstSlice) (by omega)
  · intro ⟨i,start⟩ _
    dsimp only
    apply below_bind
    · apply below_loop
      intro j _ hj
      exact below_unitAt (fun _ => below_isNextFrame) (by omega)
    · intro ⟨i1,stop⟩ hstop
      dsimp only
      split
      case isFalse => exact below_pure none
      case isTrue hcut =>
        apply below_bind _ (fun _ _ => below_pure _)
        apply below_copy
        -- what is copied ends at the start code that has been found or with the bytes
        have hend : (if (start.isSome && stop.isNone && decide (0 < count)) = true then bytesRead else i1) ≤
            bytesRead := by
          split
          case isTrue => exact Nat.le_refl bytesRead
          case isFalse hflag =>
            cases stop with
            | none => simp_all
            | some c =>
              have := break_lt hstop
              omega
        have hcopied (m : ℕ) : (if m ≤ bufSize then m else bufSize) ≤ m := by split <;> omega
        rw [Nat.zero_add]
        exact Nat.le_trans (hcopied _) hend

/-- In fewer bytes a first slice is found with an index from four on. -/
theorem exists_four_le {i : ℕ} {c : Unit} (h : (unitAt isFirstSlice i).run mem = some (some c)) :
    ∃ x ∈ (unitAt isFirstSlice i).indices mem, 4 ≤ x := by
  obtain ⟨found,hfound,h⟩ := run_bind_eq_some h
  cases found with
  | none => cases h
  | some k =>
    have hk := startCode_length hfound
    obtain ⟨b,hb,h⟩ := run_bind_eq_some h
    cases b with
    | false => cases h
    | true =>
      have hslice := run_and_eq_true hb
      refine ⟨i+k+1, ?_, by omega⟩
      apply mem_indices_bind.mpr
      refine Or.inr ⟨some k, hfound, ?_⟩
      apply mem_indices_bind.mpr
      refine Or.inl (mem_indices_bind.mpr (Or.inr ⟨true, hslice.1, ?_⟩))
      apply mem_indices_bind.mpr
      rw [indices_get]
      exact Or.inl (List.mem_singleton.mpr rfl)

theorem self_mem_unitAt (test : ℕ → Reading UInt8 Bool) (i : ℕ) : i ∈ (unitAt test i).indices mem := by
  have hfirst : i ∈ (byteIs i 0).indices mem := by
    apply mem_indices_bind.mpr
    rw [indices_get]
    exact Or.inl (List.mem_singleton.mpr rfl)
  have hcode3 : i ∈ (isStartCode3 i).indices mem := mem_indices_bind.mpr (Or.inl hfirst)
  have hcode : i ∈ (startCode i).indices mem := mem_indices_bind.mpr (Or.inl hcode3)
  exact mem_indices_bind.mpr (Or.inl hcode)

/-- The limit wraps, and the first loop leaves the bytes that have been read. -/
theorem exists_indices_cutFrame {bytesRead : ℕ} (h : bytesRead < 5) (hpos : 0 < bytesRead)
    (hmem : bytesRead ≤ mem.length) (count : ℤ) (bufSize : ℕ) :
    ∃ x ∈ (cutFrame bytesRead count bufSize).indices mem, bytesRead ≤ x := by
  have hlimit : bytesRead < 0+scanLimit bytesRead := by
    rw [scanLimit]
    omega
  have hbreak (j : ℕ) (c : Unit) (hc : (unitAt isFirstSlice j).run mem = some (some c)) :
      ∃ x ∈ (unitAt isFirstSlice j).indices mem, bytesRead ≤ x := by
    obtain ⟨x,hx,h4⟩ := exists_four_le hc
    exact ⟨x, hx, by omega⟩
  obtain ⟨x,hx,hout⟩ := exists_indices_loop (Nat.zero_le bytesRead) hlimit hmem (self_mem_unitAt _) hbreak
  exact ⟨x, mem_indices_bind.mpr (Or.inl hx), hout⟩

end Scan

namespace H264File
variable (file : Bytes) (f : H264File)

/-- How many bytes there are to read at `pos`. -/
def available (pos : ℕ) : ℕ := min f.buffer.length (file.length-pos)

/-- The number of bytes that the last `fread` of a call returns, where a call reads. -/
def lastRead : ℕ :=
  match f.fp with
  | none => 0
  | some pos => if f.available file pos = 0 then f.available file 0 else f.available file pos

theorem length_fread (pos : ℕ) : (f.fread file pos).2.buffer.length = f.buffer.length := by
  simp only [fread, List.length_append, List.length_take, List.length_drop]
  omega

theorem length_refill (pos : ℕ) : (f.refill file pos).2.buffer.length = f.buffer.length := by
  have hlen := f.length_fread file pos
  simp only [refill]
  split
  · rw [length_fread]
    exact hlen
  · exact hlen

theorem refill_fst {pos : ℕ} (h : f.fp = some pos) : (f.refill file pos).1 = f.lastRead file := by
  have hlen := f.length_fread file pos
  have hfst : (f.fread file pos).1 = f.available file pos := rfl
  rw [lastRead, h, refill]
  dsimp only
  rw [hfst]
  split
  · show min (f.fread file pos).2.buffer.length (file.length-0) = _
    rw [hlen]
    rfl
  · rfl

theorem lastRead_le : f.lastRead file ≤ f.buffer.length := by
  rw [lastRead]
  cases f.fp with
  | none => exact Nat.zero_le _
  | some pos =>
    have hle (p : ℕ) : f.available file p ≤ f.buffer.length := Nat.min_le_left _ _
    dsimp only
    split
    · exact hle 0
    · exact hle pos

/-- For every file, every size of the buffers and every state, the indices stay below what the last `fread`
has returned unless that is between one and four bytes. -/
theorem readIndices_lt_iff (bufSize : ℕ) : (∀ i ∈ f.readIndices file bufSize, i < f.lastRead file) ↔
    f.lastRead file = 0 ∨ 5 ≤ f.lastRead file := by
  have hbound := f.lastRead_le file
  have hlt := f.buffer_lt
  cases hfp : f.fp with
  | none =>
    have hnone : f.lastRead file = 0 := by rw [lastRead, hfp]
    rw [readIndices, hfp]
    exact iff_of_true (fun i hi => (List.not_mem_nil hi).elim) (Or.inl hnone)
  | some pos =>
    have hread := f.refill_fst file hfp
    have hlen := f.length_refill file pos
    rw [readIndices, hfp]
    dsimp only
    rw [hread]
    by_cases hzero : f.lastRead file = 0
    · rw [if_pos hzero]
      exact iff_of_true (fun i hi => (List.not_mem_nil hi).elim) (Or.inl hzero)
    · rw [if_neg hzero]
      constructor
      · intro hall
        by_contra hsmall
        have hfew : f.lastRead file < 5 := by omega
        have hmem : f.lastRead file ≤ (f.refill file pos).2.buffer.length := by omega
        obtain ⟨x,hx,hout⟩ := exists_indices_cutFrame hfew (Nat.pos_of_ne_zero hzero) hmem
          (f.refill file pos).2.count bufSize
        exact absurd (hall x hx) (by omega)
      · intro hcases
        exact below_cutFrame (by omega) (by omega) _ _

/-- A file of one byte, and a buffer for five. -/
theorem readIndices_fail : ¬∀ i ∈ (((new [7,7,7,7,7] (by decide)).openPath true).1.readIndices [0] 5),
    i < ((new [7,7,7,7,7] (by decide)).openPath true).1.lastRead [0] := by
  decide

end H264File

end IdealServer
