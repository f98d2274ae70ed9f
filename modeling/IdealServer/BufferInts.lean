import IdealServer.ByteQueue

/-! Integers in front of the readable bytes: the four `prependInt` and the four `readInt` of a
`Buffer`. -/
namespace IdealServer

namespace Buffer

/-- The value is put into network order in `w` bytes and stored in an object of `object` bytes, which is
copied as a whole. -/
def prependInt (b : Buffer) (object w : ℕ) (x : BitVec (8*w)) : Except Fault Buffer :=
  b.prepend (ByteOrder.toLE object (ByteOrder.swap w x.toNat))

def prependInt64 (b : Buffer) (x : BitVec 64) : Except Fault Buffer := b.prependInt 8 8 x

/-- The variable that is copied is an `int64_t` here too. -/
def prependInt32 (b : Buffer) (x : BitVec 32) : Except Fault Buffer := b.prependInt 8 4 x

def prependInt16 (b : Buffer) (x : BitVec 16) : Except Fault Buffer := b.prependInt 8 2 x

def prependInt8 (b : Buffer) (x : BitVec 8) : Except Fault Buffer :=
  b.prepend (ByteOrder.toLE 1 x.toNat)

/-- The assertion asks for `w` bytes, and `object` bytes are copied from `peek()`. -/
def peekInt (b : Buffer) (object w : ℕ) : Except Fault (BitVec (8*w)) :=
  if w ≤ b.readableBytes then
    if b.readerIndex+object ≤ b.buffer.length then
      .ok (BitVec.ofNat (8*w) (ByteOrder.swap w
        (ByteOrder.ofLE ((b.buffer.drop b.readerIndex).take object))))
    else .error .outOfBounds
  else .error .assertFailed

def peekInt64 (b : Buffer) : Except Fault (BitVec 64) := b.peekInt 8 8
def peekInt32 (b : Buffer) : Except Fault (BitVec 32) := b.peekInt 8 4
def peekInt16 (b : Buffer) : Except Fault (BitVec 16) := b.peekInt 8 2

def peekInt8 (b : Buffer) : Except Fault (BitVec 8) :=
  if 1 ≤ b.readableBytes then (b.peekAt 0).map (fun x => x.toBitVec) else .error .assertFailed

def retrieveInt64 (b : Buffer) : Except Fault Buffer := b.retrieve 8
def retrieveInt32 (b : Buffer) : Except Fault Buffer := b.retrieve 4
def retrieveInt16 (b : Buffer) : Except Fault Buffer := b.retrieve 2
def retrieveInt8 (b : Buffer) : Except Fault Buffer := b.retrieve 1

def readInt64 (b : Buffer) : Except Fault (Buffer × BitVec 64) := do
  let result ← b.peekInt64
  let b ← b.retrieveInt64
  return (b, result)

def readInt32 (b : Buffer) : Except Fault (Buffer × BitVec 32) := do
  let result ← b.peekInt32
  let b ← b.retrieveInt32
  return (b, result)

def readInt16 (b : Buffer) : Except Fault (Buffer × BitVec 16) := do
  let result ← b.peekInt16
  let b ← b.retrieveInt16
  return (b, result)

def readInt8 (b : Buffer) : Except Fault (Buffer × BitVec 8) := do
  let result ← b.peekInt8
  let b ← b.retrieveInt8
  return (b, result)

end Buffer

inductive IntWidth
  | int8 | int16 | int32 | int64
deriving DecidableEq, Repr

namespace IntWidth

def bytes : IntWidth → ℕ
  | .int8 => 1
  | .int16 => 2
  | .int32 => 4
  | .int64 => 8

/-- `sizeof` of the variable that holds the converted value. -/
def object : IntWidth → ℕ
  | .int8 => 1
  | .int16 | .int32 | .int64 => 8

def prepend (b : Buffer) : (n : IntWidth) → BitVec (8*n.bytes) → Except Fault Buffer
  | .int8, x => b.prependInt8 x
  | .int16, x => b.prependInt16 x
  | .int32, x => b.prependInt32 x
  | .int64, x => b.prependInt64 x

def read (b : Buffer) : (n : IntWidth) → Except Fault (Buffer × BitVec (8*n.bytes))
  | .int8 => b.readInt8
  | .int16 => b.readInt16
  | .int32 => b.readInt32
  | .int64 => b.readInt64

end IntWidth

namespace Buffer
variable (b : Buffer)

/-- The wire image is followed by the zeros that fill the object. -/
theorem prependInt_ok {object w : ℕ} (x : BitVec (8*w)) (hw : w ≤ object)
    (h : object ≤ b.prependableBytes) : ∃ b', b.prependInt object w x = .ok b' ∧
      b'.readable = ByteOrder.toBE w x.toNat ++ (List.replicate (object-w) 0 ++ b.readable) := by
  have himage : ByteOrder.toLE object (ByteOrder.swap w x.toNat) =
      ByteOrder.toBE w x.toNat ++ List.replicate (object-w) 0 := by
    have hsmall := ByteOrder.swap_lt w x.toNat
    calc
      _ = ByteOrder.toLE (w+(object-w)) (ByteOrder.swap w x.toNat) := by rw [Nat.add_sub_cancel' hw]
      _ = _ := by
        rw [ByteOrder.toLE_add, ByteOrder.toLE_swap, Nat.div_eq_of_lt hsmall, ByteOrder.toLE_zero]
  have hlen : (ByteOrder.toLE object (ByteOrder.swap w x.toNat)).length ≤ b.prependableBytes := by
    rw [ByteOrder.length_toLE]
    exact h
  obtain ⟨b',hok,hreadable⟩ := b.prepend_ok hlen
  refine ⟨b', hok, ?_⟩
  rw [hreadable, himage, List.append_assoc]

/-- The assertion of `prepend` is about the object. -/
theorem prependInt_of_lt {object w : ℕ} (x : BitVec (8*w)) (h : b.prependableBytes < object) :
    b.prependInt object w x = .error .assertFailed := by
  rw [prependInt, prepend, dif_neg]
  rw [ByteOrder.length_toLE]
  omega

theorem prependInt8_eq (x : BitVec 8) : b.prependInt8 x = b.prependInt 1 1 x := by
  rw [prependInt8, prependInt, ByteOrder.toLE_swap]
  rfl

/-- Where the object lies in the readable bytes, the integer at their front is seen. -/
theorem peekInt_ok {object w : ℕ} {x : BitVec (8*w)} {rest : Bytes} (hw : w ≤ object)
    (hreadable : b.readable = ByteOrder.toBE w x.toNat ++ rest) (h : object ≤ b.readableBytes) :
    b.peekInt object w = .ok x := by
  have hr := b.reader_le
  have hwriter := b.writer_le
  have hfront : (b.buffer.drop b.readerIndex).take object =
      ByteOrder.toBE w x.toNat ++ rest.take (object-w) := by
    calc
      _ = b.readable.take object := by rw [readable, List.take_take, Nat.min_eq_left h]
      _ = _ := by
        rw [hreadable, List.take_append, ByteOrder.length_toBE,
          List.take_of_length_le (by rw [ByteOrder.length_toBE]; exact hw)]
  have hfits : x.toNat < 256^w := by
    have hlt := x.isLt
    rwa [Nat.pow_mul] at hlt
  rw [peekInt, if_pos (Nat.le_trans hw h), if_pos (by simp only [readableBytes] at h; omega), hfront,
    ByteOrder.swap_ofLE_append, Nat.mod_eq_of_lt hfits, BitVec.ofNat_toNat, BitVec.setWidth_eq]

theorem peekInt8_eq (h : 1 ≤ b.readableBytes) : b.peekInt8 = b.peekInt 1 1 := by
  have hr := b.reader_le
  have hwriter := b.writer_le
  have hlt : b.readerIndex < b.buffer.length := b.reader_lt
  have hone : (b.buffer.drop b.readerIndex).take 1 = [b.buffer[b.readerIndex]] := by
    rw [List.drop_eq_getElem_cons hlt]
    rfl
  rw [peekInt8, peekInt, if_pos h, if_pos h,
    if_pos (show b.readerIndex+1 ≤ b.buffer.length from hlt), hone, peekAt,
    List.getElem?_eq_getElem (show b.readerIndex+0 < b.buffer.length from hlt)]
  simp only [Except.map, Nat.add_zero, ByteOrder.swap, ByteOrder.toBE, ByteOrder.toLE, ByteOrder.ofLE,
    List.reverse_cons, List.reverse_nil, List.nil_append]
  congr 1
  apply BitVec.eq_of_toNat_eq
  have hbyte := (b.buffer[b.readerIndex]).toNat_lt
  simp only [BitVec.toNat_ofNat, UInt8.toNat_ofNat', UInt8.toNat_toBitVec]
  omega

end Buffer

namespace IntWidth
variable (b : Buffer) (n : IntWidth)

theorem bytes_le_object : n.bytes ≤ n.object := by
  cases n <;> decide

theorem prepend_eq (x : BitVec (8*n.bytes)) : n.prepend b x = b.prependInt n.object n.bytes x := by
  cases n with
  | int8 => exact b.prependInt8_eq x
  | int16 | int32 | int64 => rfl

/-- What is read is in front, and what is left begins `n.bytes` further. -/
theorem read_ok {x : BitVec (8*n.bytes)} {rest : Bytes}
    (hreadable : b.readable = ByteOrder.toBE n.bytes x.toNat ++ rest)
    (h : n.object ≤ b.readableBytes) : ∃ b', n.read b = .ok (b', x) ∧ b'.readable = rest := by
  have hpeek : b.peekInt n.object n.bytes = .ok x := b.peekInt_ok n.bytes_le_object hreadable h
  obtain ⟨b',hretrieve,hrest⟩ := b.retrieve_ok (Nat.le_trans n.bytes_le_object h)
  refine ⟨b', ?_, ?_⟩
  · cases n with
    | int8 =>
      have hone : b.peekInt8 = .ok x := (b.peekInt8_eq h).trans hpeek
      simp only [read, Buffer.readInt8, hone, bind, Except.bind]
      rw [Buffer.retrieveInt8, show b.retrieve 1 = .ok b' from hretrieve]
      rfl
    | int16 =>
      simp only [read, Buffer.readInt16, show b.peekInt16 = .ok x from hpeek, bind, Except.bind]
      rw [Buffer.retrieveInt16, show b.retrieve 2 = .ok b' from hretrieve]
      rfl
    | int32 =>
      simp only [read, Buffer.readInt32, show b.peekInt32 = .ok x from hpeek, bind, Except.bind]
      rw [Buffer.retrieveInt32, show b.retrieve 4 = .ok b' from hretrieve]
      rfl
    | int64 =>
      simp only [read, Buffer.readInt64, show b.peekInt64 = .ok x from hpeek, bind, Except.bind]
      rw [Buffer.retrieveInt64, show b.retrieve 8 = .ok b' from hretrieve]
      rfl
  · rw [hrest, hreadable]
    exact List.drop_left' (ByteOrder.length_toBE _ _)

/-- With room for the object the value is read back, and the rest of the object stays in front. -/
theorem read_prepend {x : BitVec (8*n.bytes)} (h : n.object ≤ b.prependableBytes) :
    ∃ b1 b2, n.prepend b x = .ok b1 ∧ b1.readableBytes = b.readableBytes+n.object ∧
      n.read b1 = .ok (b2, x) ∧
      b2.readable = List.replicate (n.object-n.bytes) 0 ++ b.readable := by
  have hle := n.bytes_le_object
  obtain ⟨b1,hok,hreadable⟩ := b.prependInt_ok x hle h
  have hlen : b1.readableBytes = b.readableBytes+n.object := by
    rw [← b1.length_readable, hreadable]
    simp only [List.length_append, ByteOrder.length_toBE, List.length_replicate, b.length_readable]
    omega
  obtain ⟨b2,hread,hrest⟩ := n.read_ok b1 hreadable (by omega)
  exact ⟨b1, b2, (n.prepend_eq b x).trans hok, hlen, hread, hrest⟩

/-- Where the width is prependable, the bytes in front are as many as the width and reading takes them
away again. -/
def UndoneByRead (x : BitVec (8*n.bytes)) : Prop :=
  n.bytes ≤ b.prependableBytes → ∃ b1, n.prepend b x = .ok b1 ∧
    b1.readableBytes = b.readableBytes+n.bytes ∧
    ∃ b2, n.read b1 = .ok (b2, x) ∧ b2.readable = b.readable

theorem undoneByRead_of_object {x : BitVec (8*n.bytes)} (h : n.object = n.bytes) :
    UndoneByRead b n x := by
  intro hroom
  obtain ⟨b1,b2,hok,hlen,hread,hrest⟩ := n.read_prepend b (x := x) (by omega)
  rw [h] at hlen hrest
  rw [Nat.sub_self, List.replicate_zero, List.nil_append] at hrest
  exact ⟨b1, hok, hlen, b2, hread, hrest⟩

theorem not_undoneByRead {x : BitVec (8*n.bytes)} (hroom : n.bytes ≤ b.prependableBytes)
    (h : n.object ≠ n.bytes) : ¬UndoneByRead b n x := by
  intro hundone
  obtain ⟨b1,hok,hlen,_⟩ := hundone hroom
  -- either the assertion of `prepend` fails or the object is too long
  by_cases hobject : n.object ≤ b.prependableBytes
  · obtain ⟨b1',_,hok',hlen',_⟩ := n.read_prepend b (x := x) hobject
    have hsame := Except.ok.inj (hok.symm.trans hok')
    rw [hsame] at hlen
    omega
  · rw [prepend_eq, b.prependInt_of_lt x (by omega)] at hok
    cases hok

/-- Reading undoes prepending for the widths 8 and 64 and for no other. -/
theorem prepend_undone_iff (x : BitVec (8*n.bytes)) :
    UndoneByRead b n x ↔ n = .int8 ∨ n = .int64 ∨ b.prependableBytes < n.bytes := by
  constructor
  · intro hundone
    by_cases hroom : n.bytes ≤ b.prependableBytes
    · by_cases hobject : n.object = n.bytes
      · cases n with
        | int8 => exact .inl rfl
        | int64 => exact .inr (.inl rfl)
        | int16 => exact absurd hobject (by decide)
        | int32 => exact absurd hobject (by decide)
      · exact absurd hundone (n.not_undoneByRead b hroom hobject)
    · exact .inr (.inr (by omega))
  · rintro (rfl | rfl | hroom)
    · exact undoneByRead_of_object b .int8 rfl
    · exact undoneByRead_of_object b .int64 rfl
    · intro hle
      omega

/-- The length of a message in front of it: eight bytes where four are meant. -/
theorem prepend_undone_fails : ¬UndoneByRead Buffer.new .int32 5 :=
  not_undoneByRead Buffer.new .int32 (by decide) (by decide)

end IntWidth

end IdealServer
