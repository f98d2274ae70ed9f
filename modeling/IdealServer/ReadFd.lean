import IdealServer.ByteQueue
import Mathlib.Algebra.GroupWithZero.Nat

/-! `Buffer::readFd`: bytes that arrive partly in the vector and partly in an array on the stack. -/
namespace IdealServer

namespace Buffer

/-- `sizeof extrabuf` -/
def extraSize : ℕ := 65536

/-- The lengths of the regions that `readv` is given: the writable part of the vector and, where that is
the shorter one, the array. -/
def regions (b : Buffer) : List ℕ :=
  if b.writableBytes < extraSize then [b.writableBytes, extraSize] else [b.writableBytes]

theorem length_stored (b : Buffer) (data : Bytes) (h : data.length ≤ b.writableBytes) :
    (b.buffer.take b.writerIndex ++ data ++ b.buffer.drop (b.writerIndex+data.length)).length =
      b.buffer.length := by
  have hwriter := b.writer_le
  simp only [writableBytes] at h
  simp only [List.length_append, List.length_take, List.length_drop]
  omega

/-- The vector after bytes have been stored from `beginWrite()` on. -/
def stored (b : Buffer) (data : Bytes) (h : data.length ≤ b.writableBytes) : Buffer :=
  { b with
    buffer := b.buffer.take b.writerIndex ++ data ++ b.buffer.drop (b.writerIndex+data.length)
    size_gt := (length_stored b data h).symm ▸ b.size_gt
    reader_lt := (length_stored b data h).symm ▸ b.reader_lt
    writer_le := (length_stored b data h).symm ▸ b.writer_le }

/-- `_writerIndex += n` -/
def advance (b : Buffer) (n : ℕ) (h : n ≤ b.writableBytes) : Buffer :=
  { b with
    writerIndex := b.writerIndex+n
    reader_le := Nat.le_trans b.reader_le (Nat.le_add_right _ _)
    writer_le := Nat.add_le_of_le_sub' b.writer_le h }

/-- `_writerIndex = _buffer.size()` -/
def fill (b : Buffer) : Buffer :=
  { b with
    writerIndex := b.buffer.length
    reader_le := b.reader_lt.le
    writer_le := le_rfl }

/-- `readv` gets the lengths of the regions and gives an error number or the bytes that it has stored, the
first region being filled before the second one. The result is the buffer, the number that is returned
and what is put into `*savedErrno`. -/
def readFd (b : Buffer) (readv : List ℕ → Except ℕ Bytes) :
    Except Fault (Buffer × ℤ × Option ℕ) :=
  match readv b.regions with
  | .error errno => .ok (b, -1, some errno)
  | .ok data =>
    -- memory behind the regions would be overwritten
    if b.regions.sum < data.length then .error .outOfBounds
    else if h : data.length ≤ b.writableBytes then
      let b := (b.stored data h).advance data.length
        (by rw [writableBytes, stored, length_stored b data h]; exact h)
      .ok (b, data.length, none)
    else do
      let full := (b.stored (data.take b.writableBytes) (List.length_take_le _ _)).fill
      let b ← full.append (data.drop b.writableBytes)
      return (b, data.length, none)

section Lemmas
variable (b : Buffer)

theorem readable_advance_stored {data : Bytes} (h : data.length ≤ b.writableBytes)
    (h' : data.length ≤ (b.stored data h).writableBytes) :
    ((b.stored data h).advance data.length h').readable = b.readable ++ data := by
  obtain ⟨b',hok,hreadable⟩ := b.hasWritten_ok h
  rw [hasWritten, dif_pos h] at hok
  rw [← hreadable, ← Except.ok.inj hok]
  rfl

/-- The vector is full: the writable part has been filled. -/
theorem readable_fill_stored {data : Bytes} (h : data.length = b.writableBytes) :
    (b.stored data h.le).fill.readable = b.readable ++ data := by
  have hwriter := b.writer_le
  have hlen := length_stored b data h.le
  have hroom : data.length ≤ (b.stored data h.le).writableBytes := by
    rw [writableBytes, stored, hlen]
    exact h.le
  rw [← b.readable_advance_stored h.le hroom]
  have hindex : (b.stored data h.le).buffer.length = (b.stored data h.le).writerIndex+data.length := by
    simp only [stored, hlen]
    rw [h, writableBytes]
    omega
  simp only [readable, readableBytes, fill, advance, hindex]

theorem readFd_error {readv : List ℕ → Except ℕ Bytes} {errno : ℕ}
    (h : readv b.regions = .error errno) : b.readFd readv = .ok (b, -1, some errno) := by
  rw [readFd, h]

/-- However the bytes are spread, they are behind the old ones. -/
theorem readFd_ok {readv : List ℕ → Except ℕ Bytes} {data : Bytes} (h : readv b.regions = .ok data)
    (hfits : data.length ≤ b.regions.sum) :
    ∃ b', b.readFd readv = .ok (b', data.length, none) ∧ b'.readable = b.readable ++ data := by
  have hsum : ¬b.regions.sum < data.length := by omega
  by_cases hroom : data.length ≤ b.writableBytes
  · refine ⟨_, ?_, b.readable_advance_stored hroom ?_⟩
    · simp only [readFd, h, if_neg hsum, dif_pos hroom]
    · rw [writableBytes, stored, length_stored b data hroom]
      exact hroom
  · -- the first region is filled, and the rest comes from the array
    have hfirst : (data.take b.writableBytes).length = b.writableBytes := by
      rw [List.length_take]
      omega
    obtain ⟨b',happend,hreadable⟩ :=
      (b.stored (data.take b.writableBytes) hfirst.le).fill.append_ok (data.drop b.writableBytes)
    refine ⟨b', ?_, ?_⟩
    · simp only [readFd, h, if_neg hsum, dif_neg hroom, happend, bind, Except.bind]
      rfl
    · rw [hreadable, b.readable_fill_stored hfirst, List.append_assoc, List.take_append_drop]

end Lemmas

/-- Whatever the kernel does on the regions, the bytes that it delivers are appended and counted, and an
error changes nothing. -/
theorem readFd_appends (b : Buffer) (readv : List ℕ → Except ℕ Bytes)
    (h : ∀ regions data, readv regions = .ok data → data.length ≤ regions.sum) :
    ∃ b' n saved, b.readFd readv = .ok (b', n, saved) ∧
      b'.readerIndex ≤ b'.writerIndex ∧ b'.writerIndex ≤ b'.buffer.length ∧
      (∀ data, readv b.regions = .ok data →
        b'.readable = b.readable ++ data ∧ n = data.length ∧ saved = none) ∧
      ∀ errno, readv b.regions = .error errno → b' = b ∧ n = -1 ∧ saved = some errno := by
  cases hkernel : readv b.regions with
  | error errno =>
    refine ⟨b, -1, some errno, b.readFd_error hkernel, b.reader_le, b.writer_le, ?_, ?_⟩
    · intro data hdata
      cases hdata
    · intro e he
      exact ⟨rfl, rfl, congrArg some (Except.error.inj he)⟩
  | ok data =>
    obtain ⟨b',hok,hreadable⟩ := b.readFd_ok hkernel (h _ _ hkernel)
    refine ⟨b', data.length, none, hok, b'.reader_le, b'.writer_le, ?_, ?_⟩
    · intro data' hdata
      rw [← Except.ok.inj hdata]
      exact ⟨hreadable, rfl, rfl⟩
    · intro errno herrno
      cases herrno

/-- A new buffer has room for 1024 bytes, so 76 of these are appended from the array. -/
theorem readFd_appends_overflow : ∃ b' n saved,
    Buffer.new.readFd (fun regions => .ok ((List.replicate 1100 7).take regions.sum)) =
      .ok (b', n, saved) ∧
    b'.readable = List.replicate 1100 7 ∧ n = 1100 := by
  obtain ⟨b',n,saved,hok,_,_,hdata,_⟩ := readFd_appends Buffer.new
    (fun regions => .ok ((List.replicate 1100 7).take regions.sum)) (by
      intro regions data hdata
      rw [← Except.ok.inj hdata]
      exact List.length_take_le _ _)
  have hall : (List.replicate 1100 (7:UInt8)).take Buffer.new.regions.sum = List.replicate 1100 7 := by
    apply List.take_of_length_le
    rw [List.length_replicate]
    have hsum : Buffer.new.regions.sum = 1024+65536 := by
      have hroom : Buffer.new.writableBytes = 1024 := by
        rw [writableBytes, new, List.length_replicate]
        rfl
      rw [regions, hroom, extraSize]
      rfl
    omega
  obtain ⟨hreadable,hn,_⟩ := hdata _ rfl
  rw [hall] at hreadable hn
  refine ⟨b', n, saved, hok, hreadable, ?_⟩
  rw [hn, List.length_replicate]
  rfl

end Buffer

end IdealServer
