import IdealServer.Basics
import IdealServer.Search
import Mathlib.Tactic.Common

/-! `Buffer`: a vector with a read index and a write index. What it stands for is the string of
its readable bytes. -/
namespace IdealServer

def kCheapPrepend : ℕ := 8
def kInitialSize : ℕ := 1024

structure Buffer where
  buffer : Bytes
  readerIndex : ℕ
  writerIndex : ℕ
  size_gt : kCheapPrepend < buffer.length
  reader_lt : readerIndex < buffer.length
  reader_le : readerIndex ≤ writerIndex
  writer_le : writerIndex ≤ buffer.length

namespace Buffer

def new : Buffer where
  buffer := List.replicate (kCheapPrepend+kInitialSize) 0
  readerIndex := kCheapPrepend
  writerIndex := kCheapPrepend
  size_gt := by rw [List.length_replicate]; decide
  reader_lt := by rw [List.length_replicate]; decide
  reader_le := le_rfl
  writer_le := by rw [List.length_replicate]; decide

def readableBytes (b : Buffer) : ℕ := b.writerIndex-b.readerIndex
def writableBytes (b : Buffer) : ℕ := b.buffer.length-b.writerIndex
def prependableBytes (b : Buffer) : ℕ := b.readerIndex

/-- The bytes from `peek()` to `beginWrite()`. -/
def readable (b : Buffer) : Bytes := (b.buffer.drop b.readerIndex).take b.readableBytes

/-- `peek()[i]`, which looks into the vector whether or not the byte is readable. -/
def peekAt (b : Buffer) (i : ℕ) : Except Fault UInt8 :=
  match b.buffer[b.readerIndex+i]? with
  | some x => .ok x
  | none => .error .outOfBounds

/-- Positions are counted from `peek()`. -/
def findCRLF (b : Buffer) : Option ℕ := Search.search kCRLF b.readable

def findLastCRLF (b : Buffer) : Option ℕ := Search.findEnd kCRLF b.readable

def retrieveAll (b : Buffer) : Buffer :=
  { b with
    readerIndex := kCheapPrepend
    writerIndex := kCheapPrepend
    reader_lt := b.size_gt
    reader_le := le_rfl
    writer_le := b.size_gt.le }

def retrieve (b : Buffer) (len : ℕ) : Except Fault Buffer :=
  if _h : len ≤ b.readableBytes then
    if h' : len < b.readableBytes then
      .ok { b with
        readerIndex := b.readerIndex+len
        reader_lt := by have := b.writer_le; simp only [readableBytes] at h'; omega
        reader_le := by simp only [readableBytes] at h'; omega }
    else .ok b.retrieveAll
  else .error .assertFailed

/-- `retrieveUntil(peek()+pos)` -/
def retrieveUntil (b : Buffer) (pos : ℕ) : Except Fault Buffer :=
  if pos ≤ b.readableBytes then b.retrieve pos else .error .assertFailed

/-- Private in the source and reached only where the room is too small. -/
def makeSpace (b : Buffer) (len : ℕ) (room : b.writableBytes < len) : Except Fault Buffer :=
  if b.writableBytes+b.prependableBytes < len+kCheapPrepend then
    let buffer := b.buffer.take (b.writerIndex+len) ++
      List.replicate (b.writerIndex+len-b.buffer.length) 0
    .ok { b with
      buffer := buffer
      size_gt := by
        have := b.size_gt
        simp only [writableBytes] at room
        simp only [buffer, List.length_append, List.length_take, List.length_replicate]
        omega
      reader_lt := by
        have := b.reader_lt
        simp only [writableBytes] at room
        simp only [buffer, List.length_append, List.length_take, List.length_replicate]
        omega
      writer_le := by
        have := b.writer_le
        simp only [buffer, List.length_append, List.length_take, List.length_replicate]
        omega }
  else if h : kCheapPrepend < b.readerIndex then
    let readable := b.readable
    let buffer := b.buffer.take kCheapPrepend ++ readable ++
      b.buffer.drop (kCheapPrepend+readable.length)
    .ok {
      buffer := buffer
      readerIndex := kCheapPrepend
      writerIndex := kCheapPrepend+readable.length
      size_gt := by
        have := b.size_gt
        have := b.writer_le
        simp only [buffer, List.length_append, List.length_take, List.length_drop]
        omega
      reader_lt := by
        have := b.size_gt
        simp only [buffer, List.length_append, List.length_take, List.length_drop]
        omega
      reader_le := Nat.le_add_right _ _
      writer_le := by
        have := b.size_gt
        simp only [buffer, List.length_append, List.length_take, List.length_drop]
        omega }
  else .error .assertFailed

def ensureWritableBytes (b : Buffer) (len : ℕ) : Except Fault Buffer := do
  let b ← if room : b.writableBytes < len then b.makeSpace len room else .ok b
  if len ≤ b.writableBytes then .ok b else .error .assertFailed

/-- The copy to `beginWrite()` and `hasWritten`. -/
def append (b : Buffer) (data : Bytes) : Except Fault Buffer := do
  let b ← b.ensureWritableBytes data.length
  if h : data.length ≤ b.writableBytes then
    let buffer := b.buffer.take b.writerIndex ++ data ++ b.buffer.drop (b.writerIndex+data.length)
    .ok { b with
      buffer := buffer
      writerIndex := b.writerIndex+data.length
      size_gt := by
        have := b.size_gt
        have := b.writer_le
        simp only [buffer, List.length_append, List.length_take, List.length_drop]
        omega
      reader_lt := by
        have := b.reader_lt
        have := b.writer_le
        simp only [buffer, List.length_append, List.length_take, List.length_drop]
        omega
      reader_le := Nat.le_trans b.reader_le (Nat.le_add_right _ _)
      writer_le := by
        have := b.writer_le
        simp only [buffer, List.length_append, List.length_take, List.length_drop]
        omega }
  else .error .assertFailed

section Lemmas
variable (b : Buffer)

@[simp] theorem length_readable : b.readable.length = b.readableBytes := by
  have := b.writer_le
  rw [readable, List.length_take, List.length_drop, readableBytes]
  omega

@[simp] theorem readable_new : new.readable = [] := rfl

@[simp] theorem readable_retrieveAll : b.retrieveAll.readable = [] := by
  simp [readable, readableBytes, retrieveAll]

/-- A byte that is readable is seen at its place. -/
theorem peekAt_readable {i : ℕ} {x : UInt8} (h : b.readable[i]? = some x) :
    b.peekAt i = .ok x := by
  have hi : i < b.readableBytes := by
    rw [← length_readable]
    exact (List.getElem?_eq_some_iff.mp h).1
  rw [readable, List.getElem?_take_of_lt hi, List.getElem?_drop] at h
  simp only [peekAt, h]

/-- `peek()[0]` is defined, also where nothing is readable. -/
theorem peekAt_zero_ok : ∃ x, b.peekAt 0 = .ok x := by
  have h : b.readerIndex+0 < b.buffer.length := b.reader_lt
  exact ⟨_, by rw [peekAt, List.getElem?_eq_getElem h]⟩

theorem retrieve_ok {len : ℕ} (h : len ≤ b.readableBytes) :
    ∃ b', b.retrieve len = .ok b' ∧ b'.readable = b.readable.drop len := by
  rw [retrieve, dif_pos h]
  by_cases hlt : len < b.readableBytes
  · rw [dif_pos hlt]
    refine ⟨_, rfl, ?_⟩
    simp only [readable, readableBytes, List.drop_take, List.drop_drop]
    congr 1
    omega
  · rw [dif_neg hlt]
    refine ⟨_, rfl, ?_⟩
    rw [readable_retrieveAll, List.drop_of_length_le (by rw [length_readable]; omega)]

theorem retrieveUntil_ok {pos : ℕ} (h : pos ≤ b.readableBytes) :
    ∃ b', b.retrieveUntil pos = .ok b' ∧ b'.readable = b.readable.drop pos := by
  rw [retrieveUntil, if_pos h]
  exact b.retrieve_ok h

/-- Making space keeps the content and makes room. -/
theorem makeSpace_ok {len : ℕ} (h : b.writableBytes < len) :
    ∃ b', b.makeSpace len h = .ok b' ∧ b'.readable = b.readable ∧ len ≤ b'.writableBytes := by
  have hr := b.reader_le
  have hw := b.writer_le
  have hs := b.size_gt
  unfold makeSpace
  by_cases hsmall : b.writableBytes+b.prependableBytes < len+kCheapPrepend
  · rw [if_pos hsmall]
    have htake : b.buffer.take (b.writerIndex+len) = b.buffer := by
      apply List.take_of_length_le
      simp only [writableBytes] at h
      omega
    refine ⟨_, rfl, ?_, ?_⟩
    · simp only [readable, readableBytes, htake]
      rw [List.drop_append_of_le_length (by omega),
        List.take_append_of_le_length (by rw [List.length_drop]; omega)]
    · simp only [writableBytes, htake, List.length_append, List.length_replicate]
      omega
  · have hlarge : kCheapPrepend < b.readerIndex := by
      simp only [writableBytes, prependableBytes] at h hsmall
      omega
    rw [if_neg hsmall, dif_pos hlarge]
    have hk : (b.buffer.take kCheapPrepend).length = kCheapPrepend := by
      rw [List.length_take]
      omega
    refine ⟨_, rfl, ?_, ?_⟩
    · simp only [readable, readableBytes]
      rw [List.append_assoc, List.drop_append_of_le_length hk.ge, List.drop_of_length_le hk.le,
        List.nil_append, Nat.add_sub_cancel_left, List.take_left]
    · simp only [writableBytes, prependableBytes, length_readable, readableBytes,
        List.length_append, List.length_take, List.length_drop] at h hsmall ⊢
      omega

theorem ensureWritableBytes_ok (len : ℕ) :
    ∃ b', b.ensureWritableBytes len = .ok b' ∧ b'.readable = b.readable ∧
      len ≤ b'.writableBytes := by
  unfold ensureWritableBytes
  by_cases h : b.writableBytes < len
  · obtain ⟨b1,h1,h2,h3⟩ := b.makeSpace_ok h
    refine ⟨b1, ?_, h2, h3⟩
    simp only [dif_pos h, h1, bind, Except.bind, if_pos h3]
  · refine ⟨b, ?_, rfl, by omega⟩
    simp only [dif_neg h, bind, Except.bind, if_pos (Nat.le_of_not_lt h)]

/-- Appending always succeeds and puts the data behind what is there. -/
theorem append_ok (data : Bytes) :
    ∃ b', b.append data = .ok b' ∧ b'.readable = b.readable ++ data := by
  obtain ⟨b1,h1,h2,h3⟩ := b.ensureWritableBytes_ok data.length
  have hr := b1.reader_le
  have hw := b1.writer_le
  simp only [append, h1, bind, Except.bind, dif_pos h3]
  refine ⟨_, rfl, ?_⟩
  have ht : (b1.buffer.take b1.writerIndex).length = b1.writerIndex := by
    rw [List.length_take]
    omega
  rw [← h2]
  simp only [readable, readableBytes]
  rw [List.append_assoc, List.drop_append_of_le_length (by omega), ← List.append_assoc,
    List.drop_take, List.take_append_of_le_length
      (by simp only [List.length_append, List.length_take, List.length_drop]; omega)]
  apply List.take_of_length_le
  simp only [List.length_append, List.length_take, List.length_drop]
  omega

end Lemmas

end Buffer

end IdealServer
