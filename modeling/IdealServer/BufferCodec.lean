import IdealServer.BufferInts

/-! Integers of mixed widths that are appended to a `Buffer` and read from it again. -/
namespace IdealServer

namespace Buffer

def appendInt64 (b : Buffer) (x : BitVec 64) : Except Fault Buffer := b.appendInt 8 x.toNat
def appendInt32 (b : Buffer) (x : BitVec 32) : Except Fault Buffer := b.appendInt 4 x.toNat
def appendInt16 (b : Buffer) (x : BitVec 16) : Except Fault Buffer := b.appendInt 2 x.toNat

/-- One byte, which is not converted. -/
def appendInt8 (b : Buffer) (x : BitVec 8) : Except Fault Buffer :=
  b.append (ByteOrder.toLE 1 x.toNat)

theorem appendInt8_eq (b : Buffer) (x : BitVec 8) : b.appendInt8 x = b.appendInt 1 x.toNat := rfl

end Buffer

/-- An integer of one of the four widths. -/
structure WireInt where
  width : IntWidth
  value : BitVec (8*width.bytes)

namespace IntWidth

def append (b : Buffer) : (n : IntWidth) → BitVec (8*n.bytes) → Except Fault Buffer
  | .int8, x => b.appendInt8 x
  | .int16, x => b.appendInt16 x
  | .int32, x => b.appendInt32 x
  | .int64, x => b.appendInt64 x

def peek (b : Buffer) : (n : IntWidth) → Except Fault (BitVec (8*n.bytes))
  | .int8 => b.peekInt8
  | .int16 => b.peekInt16
  | .int32 => b.peekInt32
  | .int64 => b.peekInt64

/-- The positions of the vector that are copied when an integer is peeked at. -/
def copied (b : Buffer) (n : IntWidth) : List ℕ := List.range' b.readerIndex n.object

/-- Where the integer is readable, only readable bytes are copied. -/
def CopiesReadable (b : Buffer) (n : IntWidth) : Prop :=
  n.bytes ≤ b.readableBytes → ∀ i ∈ n.copied b, b.readerIndex ≤ i ∧ i < b.writerIndex

def readStep (b : Buffer) (n : IntWidth) : Except Fault (Buffer × List WireInt) :=
  (n.read b).map (fun r => (r.1, [⟨n, r.2⟩]))

variable (b : Buffer) (n : IntWidth)

theorem append_eq (x : BitVec (8*n.bytes)) : n.append b x = b.append (ByteOrder.toBE n.bytes x.toNat) := by
  cases n with
  | int8 => exact b.appendInt8_eq x
  | int16 | int32 | int64 => rfl

theorem peek_eq : n.peek b = if n.bytes ≤ b.readableBytes then b.peekInt n.object n.bytes
    else .error .assertFailed := by
  by_cases h : n.bytes ≤ b.readableBytes
  · rw [if_pos h]
    cases n with
    | int8 => exact b.peekInt8_eq h
    | int16 | int32 | int64 => rfl
  · rw [if_neg h]
    cases n with
    | int8 => exact if_neg h
    | int16 | int32 | int64 => exact if_neg h

/-- Peeking leaves the vector exactly when a position that it copies is not one of the vector. -/
theorem peek_outOfBounds_iff : n.peek b = .error .outOfBounds ↔
    n.bytes ≤ b.readableBytes ∧ ∃ i ∈ n.copied b, b.buffer.length ≤ i := by
  have hpositive : 0 < n.object := by cases n <;> decide
  have hlast : (∃ i ∈ n.copied b, b.buffer.length ≤ i) ↔
      ¬b.readerIndex+n.object ≤ b.buffer.length := by
    simp only [copied, List.mem_range'_1]
    constructor
    · intro ⟨i,hi,hlen⟩
      omega
    · intro hlen
      exact ⟨b.readerIndex+n.object-1, by omega, by omega⟩
  rw [peek_eq, hlast, Buffer.peekInt]
  by_cases h : n.bytes ≤ b.readableBytes
  · rw [if_pos h, if_pos h]
    by_cases hobject : b.readerIndex+n.object ≤ b.buffer.length
    · rw [if_pos hobject]
      constructor
      · intro he
        cases he
      · exact fun hout => absurd hobject hout.2
    · rw [if_neg hobject]
      exact ⟨fun _ => ⟨h, hobject⟩, fun _ => rfl⟩
  · rw [if_neg h]
    constructor
    · intro he
      cases he
    · exact fun hout => absurd hout.1 h

theorem copiesReadable_iff_object :
    n.CopiesReadable b ↔ (n.bytes ≤ b.readableBytes → n.object ≤ b.readableBytes) := by
  have hr := b.reader_le
  have hpositive : 0 < n.object := by cases n <;> decide
  simp only [CopiesReadable, copied, List.mem_range'_1, Buffer.readableBytes]
  constructor
  · intro h hreadable
    -- the last position that is copied lies in front of the writer
    have hlast := h hreadable (b.readerIndex+n.object-1) (by omega)
    omega
  · intro h hreadable i hi
    have hobject := h hreadable
    omega

theorem copiesReadable_iff : n.CopiesReadable b ↔
    n = .int8 ∨ n = .int64 ∨ b.readableBytes < n.bytes ∨ 8 ≤ b.readableBytes := by
  rw [copiesReadable_iff_object]
  cases n with
  | int8 => exact ⟨fun _ => .inl rfl, fun _ h => h⟩
  | int64 => exact ⟨fun _ => .inr (.inl rfl), fun _ h => h⟩
  | int16 | int32 => simp only [bytes, object, reduceCtorEq, false_or]; omega

end IntWidth

namespace WireInt

def wire (v : WireInt) : Bytes := ByteOrder.toBE v.width.bytes v.value.toNat

@[simp] theorem length_wire (v : WireInt) : v.wire.length = v.width.bytes := ByteOrder.length_toBE _ _

def appendStep (b : Buffer) (v : WireInt) : Except Fault (Buffer × List Unit) :=
  (v.width.append b v.value).map (fun b' => (b', []))

def encode (vs : List WireInt) : Bytes := (vs.map wire).flatten

/-- `values` are appended and `more` behind them, what was readable before is retrieved, and the values
are read again. They come back in order, `more` is left, and every read copies readable bytes only. -/
def ReadsBack (b : Buffer) (values : List WireInt) (more : Bytes) : Prop :=
  ∃ b1 b2 b3 b4, Runs.run appendStep b values = .ok (b1, []) ∧ b1.append more = .ok b2 ∧
    b2.retrieve b.readableBytes = .ok b3 ∧
    Runs.run IntWidth.readStep b3 (values.map width) = .ok (b4, values) ∧ b4.readable = more ∧
    Runs.Along IntWidth.readStep (fun b n => n.CopiesReadable b) b3 (values.map width)

/-- Every value of 16 or 32 bits begins eight bytes or more before the end of what is appended. -/
def Padded (more : Bytes) : List WireInt → Prop
  | [] => True
  | v :: vs => (v.width = .int16 ∨ v.width = .int32 → 8 ≤ (encode (v :: vs) ++ more).length) ∧
      Padded more vs

theorem append_values (b : Buffer) (vs : List WireInt) :
    ∃ b', Runs.run appendStep b vs = .ok (b', []) ∧ b'.readable = b.readable ++ encode vs := by
  induction vs generalizing b with
  | nil => exact ⟨b, rfl, (List.append_nil _).symm⟩
  | cons v vs ih =>
    obtain ⟨b1,hok,hreadable⟩ := b.append_ok v.wire
    have hstep : appendStep b v = .ok (b1, []) := by
      rw [appendStep, IntWidth.append_eq, show b.append (ByteOrder.toBE v.width.bytes v.value.toNat) =
        .ok b1 from hok]
      rfl
    obtain ⟨b2,hrun,hrest⟩ := ih b1
    refine ⟨b2, Runs.run_cons_of_ok hstep hrun, ?_⟩
    rw [hrest, hreadable, List.append_assoc]
    rfl

theorem padded_head {b : Buffer} {v : WireInt} {vs : List WireInt} {more : Bytes}
    (hreadable : b.readable = encode (v :: vs) ++ more) : v.width.CopiesReadable b ↔
      (v.width = .int16 ∨ v.width = .int32 → 8 ≤ (encode (v :: vs) ++ more).length) := by
  have hlen : v.width.bytes ≤ b.readableBytes := by
    rw [← b.length_readable, hreadable, encode, List.map_cons, List.flatten_cons]
    simp only [List.length_append, length_wire]
    omega
  rw [IntWidth.copiesReadable_iff, ← hreadable, b.length_readable]
  generalize v.width = n at hlen ⊢
  cases n with
  | int8 | int64 => simp only [reduceCtorEq, true_or, or_true, or_self, false_imp_iff]
  | int16 | int32 => simp only [reduceCtorEq, false_or, true_or, or_true, forall_const]; omega

/-- One value is read where it is in front and its read copies readable bytes only. -/
theorem readStep_ok {b : Buffer} {v : WireInt} {vs : List WireInt} {more : Bytes}
    (hreadable : b.readable = encode (v :: vs) ++ more) (h : v.width.CopiesReadable b) :
    ∃ b', IntWidth.readStep b v.width = .ok (b', [v]) ∧ b'.readable = encode vs ++ more := by
  have hfront : b.readable = ByteOrder.toBE v.width.bytes v.value.toNat ++ (encode vs ++ more) := by
    rw [hreadable, ← List.append_assoc]
    rfl
  have hlen : v.width.bytes ≤ b.readableBytes := by
    rw [← b.length_readable, hfront, List.length_append, ByteOrder.length_toBE]
    omega
  have hobject := (v.width.copiesReadable_iff_object b).mp h hlen
  obtain ⟨b',hread,hrest⟩ := v.width.read_ok b hfront hobject
  exact ⟨b', by rw [IntWidth.readStep, hread]; rfl, hrest⟩

/-- The run of the reads, where every value is padded. -/
theorem read_values {b : Buffer} {vs : List WireInt} {more : Bytes} (h : Padded more vs)
    (hreadable : b.readable = encode vs ++ more) :
    ∃ b', Runs.run IntWidth.readStep b (vs.map width) = .ok (b', vs) ∧ b'.readable = more ∧
      Runs.Along IntWidth.readStep (fun b n => n.CopiesReadable b) b (vs.map width) := by
  induction vs generalizing b with
  | nil => exact ⟨b, rfl, hreadable, trivial⟩
  | cons v vs ih =>
    have hcopies := (padded_head hreadable).mpr h.1
    obtain ⟨b1,hstep,hrest⟩ := readStep_ok hreadable hcopies
    obtain ⟨b2,hrun,hmore,halong⟩ := ih h.2 hrest
    exact ⟨b2, Runs.run_cons_of_ok hstep hrun, hmore, Runs.along_cons hcopies hstep halong⟩

theorem padded_of_along {b : Buffer} {vs : List WireInt} {more : Bytes}
    (hreadable : b.readable = encode vs ++ more)
    (h : Runs.Along IntWidth.readStep (fun b n => n.CopiesReadable b) b (vs.map width)) :
    Padded more vs := by
  induction vs generalizing b with
  | nil => trivial
  | cons v vs ih =>
    obtain ⟨b1,hstep,hrest⟩ := readStep_ok hreadable h.1
    exact ⟨(padded_head hreadable).mp h.1, ih hrest (h.2 b1 _ hstep)⟩

/-- Up to the reads nothing can fail. -/
theorem ready (b : Buffer) (values : List WireInt) (more : Bytes) :
    ∃ b1 b2 b3, Runs.run appendStep b values = .ok (b1, []) ∧ b1.append more = .ok b2 ∧
      b2.retrieve b.readableBytes = .ok b3 ∧ b3.readable = encode values ++ more := by
  obtain ⟨b1,hrun,hvalues⟩ := append_values b values
  obtain ⟨b2,happend,hmore⟩ := b1.append_ok more
  rw [hvalues, List.append_assoc] at hmore
  have hlen : b.readableBytes ≤ b2.readableBytes := by
    rw [← b.length_readable, ← b2.length_readable, hmore, List.length_append]
    omega
  obtain ⟨b3,hretrieve,hrest⟩ := b2.retrieve_ok hlen
  refine ⟨b1, b2, b3, hrun, happend, hretrieve, ?_⟩
  rw [hrest, hmore]
  exact List.drop_left' b.length_readable

theorem padded_of_readsBack {b : Buffer} {values : List WireInt} {more : Bytes}
    (h : ReadsBack b values more) : Padded more values := by
  obtain ⟨b1,b2,b3,_,hrun,happend,hretrieve,_,_,halong⟩ := h
  obtain ⟨c1,c2,c3,hrun',happend',hretrieve',hreadable⟩ := ready b values more
  obtain ⟨rfl,_⟩ := Prod.mk.inj (Except.ok.inj (hrun.symm.trans hrun'))
  obtain rfl := Except.ok.inj (happend.symm.trans happend')
  obtain rfl := Except.ok.inj (hretrieve.symm.trans hretrieve')
  exact padded_of_along hreadable halong

/-- A peek stays within the readable bytes for the widths 8 and 64, and for the others where eight bytes
are readable; mixed values are read back so exactly when those of 16 and 32 bits are padded. -/
theorem codec_iff (b : Buffer) : (∀ n : IntWidth, n.CopiesReadable b ↔
      n = .int8 ∨ n = .int64 ∨ b.readableBytes < n.bytes ∨ 8 ≤ b.readableBytes) ∧
    ∀ values more, ReadsBack b values more ↔ Padded more values := by
  refine ⟨fun n => n.copiesReadable_iff b, ?_⟩
  intro values more
  constructor
  · exact padded_of_readsBack
  · intro hpadded
    obtain ⟨b1,b2,b3,hrun,happend,hretrieve,hreadable⟩ := ready b values more
    obtain ⟨b4,hread,hmore,halong⟩ := read_values hpadded hreadable
    exact ⟨b1, b2, b3, b4, hrun, happend, hretrieve, hread, hmore, halong⟩

/-- One 32-bit number and nothing behind it: its read copies four bytes that are not readable. -/
theorem codec_fails : ¬ReadsBack Buffer.new [⟨.int32, 5⟩] [] := by
  intro h
  have hpadded := (padded_of_readsBack h).1 (.inr rfl)
  simp only [encode, List.map_cons, List.map_nil, List.flatten_cons, List.flatten_nil, List.append_nil,
    length_wire, IntWidth.bytes] at hpadded
  omega

end WireInt

end IdealServer
