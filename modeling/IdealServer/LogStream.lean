import IdealServer.BoundedText
import IdealServer.ByteQueue
import IdealServer.Convert
import IdealServer.Scanf

/-! `LogStream`: values of all kinds are printed into a buffer of 4000 bytes. -/
namespace IdealServer

def kSmallBuffer : ℕ := 4000
def kMaxNumericSize : ℕ := 32

/-- An array of characters and a position in it. -/
structure FixedBuffer where
  data : Bytes
  cur : ℕ
deriving DecidableEq, Repr

namespace FixedBuffer

def avail (b : FixedBuffer) : ℤ := b.data.length-b.cur

/-- The room is converted to `size_t` for the comparison. -/
def append (b : FixedBuffer) (buf : Bytes) (len : ℕ) : Except Fault FixedBuffer :=
  if (b.avail%2^64).toNat > len then do
    let text ← readBytes buf 0 len
    let data ← CharArray.copyTo b.data b.cur text
    return ⟨data, b.cur+len⟩
  else return b

/-- `toString` -/
def content (b : FixedBuffer) : Bytes := b.data.take b.cur

def toStringPiece (b : FixedBuffer) : Buffer.StringPiece := ⟨b.data, b.cur⟩

end FixedBuffer

/-- A pointer that has as many bytes as its length says. -/
structure Buffer.StringPiece.Valid (p : Buffer.StringPiece) : Prop where
  low : -(2^31) ≤ p.length
  high : p.length < 2^31
  held : p.length ≤ p.data.length

/-- The floating-point types of the platform, and what `%.12g` prints. -/
structure FloatFormat where
  float : Type
  double : Type
  toDouble : float → double
  print : double → Bytes

inductive IntegerKind
  | short
  | unsignedShort
  | int
  | unsignedInt
  | long
  | unsignedLong
  | longLong
  | unsignedLongLong
deriving DecidableEq, Repr

namespace IntegerKind

def bits : IntegerKind → ℕ
  | .short | .unsignedShort => 16
  | .int | .unsignedInt => 32
  | .long | .unsignedLong | .longLong | .unsignedLongLong => 64

def signed : IntegerKind → Bool
  | .short | .int | .long | .longLong => true
  | .unsignedShort | .unsignedInt | .unsignedLong | .unsignedLongLong => false

def value (k : IntegerKind) (v : BitVec k.bits) : ℤ := if k.signed then v.toInt else v.toNat

end IntegerKind

/-- A value that is put into a stream. Pointers to text may be null. -/
inductive Token (F : FloatFormat)
  | bool (v : Bool)
  | integer (k : IntegerKind) (v : BitVec k.bits)
  | float (v : F.float)
  | double (v : F.double)
  | char (v : UInt8)
  | cstring (str : Option Bytes)
  | unsignedCstring (str : Option Bytes)
  | pointer (p : BitVec 64)
  | string (str : Bytes)
  | piece (str : Buffer.StringPiece)
  | buffer (buf : FixedBuffer)

structure LogStream where
  buffer : FixedBuffer
deriving DecidableEq, Repr

namespace LogStream

def append (s : LogStream) (data : Bytes) (len : ℕ) : Except Fault LogStream := do
  return ⟨← s.buffer.append data len⟩

def formatInteger (s : LogStream) (v : ℤ) : Except Fault LogStream :=
  if s.buffer.avail ≥ kMaxNumericSize then do
    let r ← convert s.buffer.data s.buffer.cur v
    return ⟨⟨r.1, s.buffer.cur+r.2⟩⟩
  else return s

def insertInt (s : LogStream) (v : BitVec 32) : Except Fault LogStream := s.formatInteger v.toInt

def insertUnsignedInt (s : LogStream) (v : BitVec 32) : Except Fault LogStream := s.formatInteger v.toNat

/-- The integers. The short ones are widened first. -/
def insertInteger (s : LogStream) : (k : IntegerKind) → BitVec k.bits → Except Fault LogStream
  | .short, v => s.insertInt (v.signExtend 32)
  | .unsignedShort, v => s.insertUnsignedInt (v.setWidth 32)
  | .int, v => s.insertInt v
  | .unsignedInt, v => s.insertUnsignedInt v
  | .long, v | .longLong, v => s.formatInteger v.toInt
  | .unsignedLong, v | .unsignedLongLong, v => s.formatInteger v.toNat

/-- `snprintf` writes at most 31 characters and a terminator, and returns the length of the whole text. -/
def insertDouble {F : FloatFormat} (s : LogStream) (v : F.double) : Except Fault LogStream :=
  if s.buffer.avail ≥ kMaxNumericSize then do
    let text := F.print v
    let data ← CharArray.copyTo s.buffer.data s.buffer.cur (text.take (kMaxNumericSize-1) ++ [0])
    return ⟨⟨data, s.buffer.cur+text.length⟩⟩
  else return s

/-- Bytes behind a pointer, up to the first zero. -/
def insertCstring (s : LogStream) : Option Bytes → Except Fault LogStream
  | some str => s.append str (Scanf.cString str).length
  | none => s.append (ascii "(null)") 6

def insertPointer (s : LogStream) (p : BitVec 64) : Except Fault LogStream :=
  if s.buffer.avail ≥ kMaxNumericSize then do
    let data ← CharArray.store s.buffer.data s.buffer.cur 48
    let data ← CharArray.store data (s.buffer.cur+1) 120
    let r ← convertHex data (s.buffer.cur+2) p
    return ⟨⟨r.1, s.buffer.cur+(r.2+2)⟩⟩
  else return s

def insertPiece (s : LogStream) (str : Buffer.StringPiece) : Except Fault LogStream :=
  s.append str.data str.size

/-- `operator<<` -/
def insert {F : FloatFormat} (s : LogStream) : Token F → Except Fault LogStream
  | .bool v => s.append (if v then ascii "1" else ascii "0") 1
  | .integer k v => s.insertInteger k v
  | .float v => s.insertDouble (F.toDouble v)
  | .double v => s.insertDouble v
  | .char v => s.append [v] 1
  | .cstring str => s.insertCstring str
  | .unsignedCstring str => s.insertCstring str
  | .pointer p => s.insertPointer p
  | .string str => s.append str str.length
  | .piece str => s.insertPiece str
  | .buffer buf => s.insertPiece buf.toStringPiece

/-- Values that are put in one after the other. -/
def insertAll {F : FloatFormat} : LogStream → List (Token F) → Except Fault LogStream
  | s, [] => .ok s
  | s, t :: ts => do insertAll (← s.insert t) ts

end LogStream

namespace Token
variable {F : FloatFormat}

/-- Text of at most 31 characters where a number is printed, and memory behind the pointers. -/
def Legal : Token F → Prop
  | .float v => (F.print (F.toDouble v)).length ≤ 31
  | .double v => (F.print v).length ≤ 31
  | .piece str => str.Valid
  | .buffer buf => buf.data.length = kSmallBuffer ∧ buf.cur ≤ kSmallBuffer
  | _ => True

def cstringText : Option Bytes → Bytes
  | some str => Scanf.cString str
  | none => ascii "(null)"

/-- The full text of a value. -/
def text : Token F → Bytes
  | .bool v => if v then ascii "1" else ascii "0"
  | .integer k v => decimalText (k.value v)
  | .float v => F.print (F.toDouble v)
  | .double v => F.print v
  | .char v => [v]
  | .cstring str => cstringText str
  | .unsignedCstring str => cstringText str
  | .pointer p => ascii "0x" ++ hexDigits.numeral p.toNat
  | .string str => str
  | .piece str => str.data.take str.length.toNat
  | .buffer buf => buf.content

/-- The room that is asked for. -/
def need : Token F → ℕ
  | .integer .. | .float _ | .double _ | .pointer _ => kMaxNumericSize
  | t => t.text.length+1

end Token

namespace IntegerKind

theorem bits_le (k : IntegerKind) : k.bits ≤ 64 := by cases k <;> decide

theorem value_range (k : IntegerKind) (v : BitVec k.bits) : -(2^63) ≤ k.value v ∧ k.value v < 2^64 := by
  have hbits := k.bits_le
  have hnat : v.toNat < 2^64 := Nat.lt_of_lt_of_le v.isLt (Nat.pow_le_pow_right (by decide) hbits)
  have hpow : 2^(k.bits-1) ≤ 2^63 := Nat.pow_le_pow_right (by decide) (by omega)
  have hint : (2:ℤ)^(k.bits-1) ≤ 2^63 := by exact_mod_cast hpow
  have hlow := BitVec.le_toInt v
  have hhigh := BitVec.toInt_lt (x := v)
  rw [value]
  split <;> omega

end IntegerKind

/-- Widening keeps the value. -/
theorem LogStream.insertInteger_eq (s : LogStream) (k : IntegerKind) (v : BitVec k.bits) :
    s.insertInteger k v = s.formatInteger (k.value v) := by
  cases k with
  | short =>
    rw [insertInteger, insertInt, BitVec.toInt_signExtend_of_le (by decide)]
    rfl
  | unsignedShort =>
    rw [insertInteger, insertUnsignedInt, BitVec.toNat_setWidth_of_le (by decide)]
    rfl
  | int | unsignedInt | long | unsignedLong | longLong | unsignedLongLong => rfl

namespace Token
variable {F : FloatFormat}

theorem length_pointer (p : BitVec 64) : (pointer p : Token F).text.length ≤ 18 := by
  have hlen := length_hex_le p
  simp only [text, List.length_append, show (ascii "0x").length = 2 by simp [ascii]]
  omega

/-- A legal value asks for more room than its text takes. -/
theorem text_lt {t : Token F} (h : t.Legal) : t.text.length < t.need := by
  cases t with
  | integer k v =>
    obtain ⟨hlow,hhigh⟩ := k.value_range v
    have hlen := length_decimalText_le hlow hhigh
    simp only [text, need, kMaxNumericSize]
    omega
  | float v | double v =>
    simp only [Legal] at h
    simp only [text, need, kMaxNumericSize]
    omega
  | pointer p =>
    have hlen := length_pointer (F := F) p
    simp only [need, kMaxNumericSize]
    omega
  | bool | char | cstring | unsignedCstring | string | piece | buffer => exact Nat.lt_succ_self _

def pieces (F : FloatFormat) : BoundedText.Pieces {t : Token F // t.Legal} UInt8 where
  text := fun t => t.1.text
  need := fun t => t.1.need
  text_lt := fun t => text_lt t.2

end Token

namespace LogStream
variable {F : FloatFormat} {s : LogStream} {t : BoundedText.Text UInt8 kSmallBuffer}

/-- What the array shows in front of the position, which is inside it. -/
structure Holds (s : LogStream) (t : BoundedText.Text UInt8 kSmallBuffer) : Prop where
  size : s.buffer.data.length = kSmallBuffer
  cur : s.buffer.cur = t.content.length
  content : s.buffer.content = t.content

theorem Holds.cur_lt (h : s.Holds t) : s.buffer.cur < s.buffer.data.length := by
  rw [h.cur, h.size]
  exact t.lt

/-- A text is written behind the content, and perhaps something behind it that does not count. -/
theorem Holds.write (h : s.Holds t) {i : {t : Token F // t.Legal}}
    (hroom : t.content.length+i.1.need ≤ kSmallBuffer) {pad : Bytes}
    (hpad : (i.1.text ++ pad).length ≤ i.1.need) :
    Holds ⟨⟨CharArray.overwrite s.buffer.data s.buffer.cur (i.1.text ++ pad),
      s.buffer.cur+i.1.text.length⟩⟩ ((Token.pieces F).add t i) := by
  have hcur := h.cur
  have hsize := h.size
  have hcontent : ((Token.pieces F).add t i).content = t.content ++ i.1.text :=
    BoundedText.Pieces.content_add_of_le hroom
  refine ⟨?_, ?_, ?_⟩
  · dsimp only
    rw [CharArray.length_overwrite (by omega), hsize]
  · dsimp only
    rw [hcontent, List.length_append, hcur]
  · have htake := CharArray.take_overwrite i.1.text pad h.cur_lt.le
    rw [hcontent, ← h.content]
    exact htake

/-- A text that is copied if the room is greater than its length. -/
theorem Holds.append (h : s.Holds t) {i : {t : Token F // t.Legal}}
    (hneed : i.1.need = i.1.text.length+1) {buf : Bytes} {len : ℕ} (hlen : len ≤ buf.length)
    (htext : buf.take len = i.1.text) :
    ∃ s', s.append buf len = .ok s' ∧ s'.Holds ((Token.pieces F).add t i) := by
  have hcur := h.cur
  have hsize := h.size
  have hlt := h.cur_lt
  have hlength : i.1.text.length = len := by rw [← htext, List.length_take_of_le hlen]
  have havail : (s.buffer.avail%2^64).toNat = kSmallBuffer-t.content.length := by
    have hsmall : kSmallBuffer = 4000 := rfl
    rw [hsize, hcur] at hlt
    rw [FixedBuffer.avail, hsize, hcur]
    omega
  rw [LogStream.append, FixedBuffer.append, havail]
  by_cases hroom : t.content.length+i.1.need ≤ kSmallBuffer
  · have hwrite := h.write hroom (show (i.1.text ++ []).length ≤ i.1.need by rw [List.append_nil]; omega)
    rw [List.append_nil, hlength] at hwrite
    have hcopy := CharArray.copyTo_eq (show s.buffer.cur+i.1.text.length ≤ s.buffer.data.length by omega)
    rw [if_pos (by omega), readBytes_eq _ _ _ (by omega), List.drop_zero, htext]
    simp only [bind, Except.bind, hcopy]
    exact ⟨_, rfl, hwrite⟩
  · rw [if_neg (by omega), BoundedText.Pieces.add_of_not_le hroom]
    exact ⟨s, rfl, h⟩

/-- A number that is printed with its terminator if the room is at least 32. -/
theorem Holds.number (h : s.Holds t) {i : {t : Token F // t.Legal}} (hneed : i.1.need = kMaxNumericSize)
    {x : Except Fault LogStream}
    (hx : s.buffer.cur+kMaxNumericSize ≤ s.buffer.data.length →
      x = .ok ⟨⟨CharArray.overwrite s.buffer.data s.buffer.cur (i.1.text ++ [0]),
        s.buffer.cur+i.1.text.length⟩⟩) :
    ∃ s', (if s.buffer.avail ≥ kMaxNumericSize then x else .ok s) = .ok s' ∧
      s'.Holds ((Token.pieces F).add t i) := by
  have hcur := h.cur
  have hsize := h.size
  have hlt := Token.text_lt i.2
  have havail : s.buffer.avail ≥ kMaxNumericSize ↔ t.content.length+i.1.need ≤ kSmallBuffer := by
    rw [FixedBuffer.avail, hsize, hcur, hneed]
    omega
  by_cases hroom : t.content.length+i.1.need ≤ kSmallBuffer
  · have hwrite := h.write hroom (show (i.1.text ++ [0]).length ≤ i.1.need by
      rw [List.length_append, List.length_singleton]
      omega)
    rw [if_pos (havail.mpr hroom), hx (by omega)]
    exact ⟨_, rfl, hwrite⟩
  · rw [if_neg (fun hge => hroom (havail.mp hge)), BoundedText.Pieces.add_of_not_le hroom]
    exact ⟨s, rfl, h⟩

end LogStream

end IdealServer
