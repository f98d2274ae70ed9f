import IdealServer.LogStream

/-! What a stream shows after any values were put into it: the full texts of those that found room. -/
namespace IdealServer
namespace LogStream
variable {F : FloatFormat} {s : LogStream} {t : BoundedText.Text UInt8 kSmallBuffer}

theorem formatInteger_holds (h : s.Holds t) {i : {t : Token F // t.Legal}} {v : ℤ}
    (hneed : i.1.need = kMaxNumericSize) (htext : i.1.text = decimalText v) :
    ∃ s', s.formatInteger v = .ok s' ∧ s'.Holds ((Token.pieces F).add t i) := by
  rw [formatInteger]
  apply h.number hneed
  intro hroom
  have hlt := Token.text_lt i.2
  rw [hneed, htext] at hlt
  have hconvert := convert_eq (show s.buffer.cur+(decimalText v).length < s.buffer.data.length by omega)
  rw [hconvert, htext]
  rfl

theorem insertDouble_holds (h : s.Holds t) {i : {t : Token F // t.Legal}} {v : F.double}
    (hneed : i.1.need = kMaxNumericSize) (htext : i.1.text = F.print v) :
    ∃ s', s.insertDouble v = .ok s' ∧ s'.Holds ((Token.pieces F).add t i) := by
  rw [insertDouble]
  apply h.number hneed
  intro hroom
  have hlt := Token.text_lt i.2
  rw [hneed, htext] at hlt
  have hshort : (F.print v).take (kMaxNumericSize-1) = F.print v :=
    List.take_of_length_le (Nat.le_sub_one_of_lt hlt)
  have hfit : s.buffer.cur+(F.print v ++ [0]).length ≤ s.buffer.data.length := by
    rw [List.length_append, List.length_singleton]
    omega
  dsimp only
  rw [hshort, CharArray.copyTo_eq hfit, htext]
  rfl

theorem insertPointer_holds (h : s.Holds t) {p : BitVec 64} {i : {t : Token F // t.Legal}}
    (hi : i.1 = .pointer p) :
    ∃ s', s.insertPointer p = .ok s' ∧ s'.Holds ((Token.pieces F).add t i) := by
  have htext : i.1.text = [48] ++ ([120] ++ hexDigits.numeral p.toNat) := by
    rw [hi]
    rfl
  have hneed : i.1.need = kMaxNumericSize := by
    rw [hi]
    rfl
  rw [insertPointer]
  apply h.number hneed
  intro hroom
  have hlen := length_hex_le p
  have hmax : kMaxNumericSize = 32 := rfl
  have hstore := CharArray.store_eq h.cur_lt 48
  have hlen0 : (CharArray.overwrite s.buffer.data s.buffer.cur [48]).length = s.buffer.data.length :=
    CharArray.length_overwrite h.cur_lt
  have hstore1 := CharArray.store_eq (p := s.buffer.cur+1)
    (show _ < (CharArray.overwrite s.buffer.data s.buffer.cur [48]).length by omega) 120
  have hboth := CharArray.overwrite_overwrite [48] [120] h.cur_lt.le
  rw [List.length_singleton] at hboth
  rw [hboth] at hstore1
  have hlen1 : (CharArray.overwrite s.buffer.data s.buffer.cur ([48] ++ [120])).length =
      s.buffer.data.length := by
    apply CharArray.length_overwrite
    simp only [List.length_append, List.length_singleton]
    omega
  have hhex := convertHex_eq (show s.buffer.cur+2+(hexDigits.numeral p.toNat).length <
    (CharArray.overwrite s.buffer.data s.buffer.cur ([48] ++ [120])).length by omega)
  have hall := CharArray.overwrite_overwrite ([48] ++ [120]) (hexDigits.numeral p.toNat ++ [0]) h.cur_lt.le
  rw [show ([48] ++ [120] : Bytes).length = 2 from rfl] at hall
  rw [hall] at hhex
  simp only [bind, Except.bind, hstore, hstore1, hhex, htext]
  simp only [pure, Except.pure, List.length_append, List.length_singleton, List.append_assoc]
  rw [Nat.add_comm (hexDigits.numeral p.toNat).length 2, ← Nat.add_assoc 1 1]

theorem insertCstring_holds (h : s.Holds t) {i : {t : Token F // t.Legal}} {str : Option Bytes}
    (hneed : i.1.need = i.1.text.length+1) (htext : i.1.text = Token.cstringText str) :
    ∃ s', s.insertCstring str = .ok s' ∧ s'.Holds ((Token.pieces F).add t i) := by
  cases str with
  | none =>
    have hlen : (ascii "(null)").length = 6 := by simp [ascii]
    apply h.append hneed hlen.ge
    rw [htext]
    exact List.take_of_length_le hlen.le
  | some str =>
    have hprefix : Scanf.cString str <+: str := List.takeWhile_prefix _
    apply h.append hneed hprefix.length_le
    rw [htext]
    exact (List.prefix_iff_eq_take.mp hprefix).symm

/-- A piece whose length is negative seems too long for any room. -/
theorem insertPiece_holds (h : s.Holds t) {i : {t : Token F // t.Legal}} {str : Buffer.StringPiece}
    (hvalid : str.Valid) (hneed : i.1.need = i.1.text.length+1)
    (htext : i.1.text = str.data.take str.length.toNat) :
    ∃ s', s.insertPiece str = .ok s' ∧ s'.Holds ((Token.pieces F).add t i) := by
  obtain ⟨hlow,hhigh,hheld⟩ := hvalid
  rw [insertPiece]
  by_cases hneg : str.length < 0
  · have hcur := h.cur_lt
    have hsize := h.size
    have hsmall : kSmallBuffer = 4000 := rfl
    have hfull : ¬(s.buffer.avail%2^64).toNat > str.size := by
      rw [FixedBuffer.avail, Buffer.StringPiece.size]
      omega
    have hempty : i.1.text = [] := by
      rw [htext, Int.toNat_eq_zero.mpr hneg.le, List.take_zero]
    have hsame : ((Token.pieces F).add t i).content = t.content := by
      by_cases hroom : t.content.length+i.1.need ≤ kSmallBuffer
      · rw [BoundedText.Pieces.content_add_of_le hroom]
        show t.content ++ i.1.text = t.content
        rw [hempty, List.append_nil]
      · rw [BoundedText.Pieces.add_of_not_le hroom]
    refine ⟨s, ?_, h.size, ?_, ?_⟩
    · rw [append, FixedBuffer.append, if_neg hfull]
      rfl
    · rw [hsame, h.cur]
    · rw [hsame, h.content]
  · have hsize : str.size = str.length.toNat := by
      rw [Buffer.StringPiece.size]
      omega
    rw [hsize]
    exact h.append hneed (by omega) htext.symm

/-- Each value is written as a whole or not at all, and never outside the array. -/
theorem insert_holds (h : s.Holds t) (i : {t : Token F // t.Legal}) :
    ∃ s', s.insert i.1 = .ok s' ∧ s'.Holds ((Token.pieces F).add t i) := by
  obtain ⟨tok,hlegal⟩ := i
  cases tok with
  | bool v => cases v <;> exact h.append rfl (by decide) rfl
  | integer k v =>
    rw [insert, insertInteger_eq]
    exact formatInteger_holds h rfl rfl
  | float v | double v => exact insertDouble_holds h rfl rfl
  | char v => exact h.append rfl (Nat.le_refl _) rfl
  | cstring str | unsignedCstring str => exact insertCstring_holds h rfl rfl
  | pointer p => exact insertPointer_holds h rfl
  | string str => exact h.append rfl (Nat.le_refl _) List.take_length
  | piece str => exact insertPiece_holds h hlegal rfl rfl
  | buffer buf =>
    obtain ⟨hlen,hcur⟩ := hlegal
    have hsmall : kSmallBuffer = 4000 := rfl
    refine insertPiece_holds h ⟨?_, ?_, ?_⟩ rfl rfl
    · simp only [FixedBuffer.toStringPiece]
      omega
    · simp only [FixedBuffer.toStringPiece]
      omega
    · simp only [FixedBuffer.toStringPiece]
      omega

variable (F) in
theorem append_holds (h : s.Holds t) (text : Bytes) : ∃ s', s.append text text.length = .ok s' ∧
    s'.Holds ((Token.pieces F).add t ⟨.string text, trivial⟩) :=
  insert_holds h (⟨.string text, trivial⟩ : {t : Token F // t.Legal})

theorem insertAll_holds (h : s.Holds t) (is : List {t : Token F // t.Legal}) :
    ∃ s', s.insertAll (is.map Subtype.val) = .ok s' ∧ s'.Holds (is.foldl (Token.pieces F).add t) := by
  induction is generalizing s t with
  | nil => exact ⟨s, rfl, h⟩
  | cons i is ih =>
    obtain ⟨s1,h1,hholds⟩ := insert_holds h i
    obtain ⟨s2,h2,hholds2⟩ := ih hholds
    refine ⟨s2, ?_, hholds2⟩
    simp only [List.map_cons, insertAll, h1, bind, Except.bind]
    exact h2

/-- A stream to which nothing was written. The array has not been initialized. -/
def new (data : Bytes) : LogStream := ⟨⟨data, 0⟩⟩

def emptyText : BoundedText.Text UInt8 kSmallBuffer := ⟨[], by decide⟩

theorem new_holds {data : Bytes} (h : data.length = kSmallBuffer) : (new data).Holds emptyText := ⟨h, rfl, rfl⟩

/-- Whatever is put into a stream, no write leaves the array, the position stays in front of its end, and
the content is made of the full texts of some of the values, in their order. -/
theorem tokens_whole (data : Bytes) (hdata : data.length = kSmallBuffer) (tokens : List (Token F))
    (hlegal : ∀ t ∈ tokens, t.Legal) :
    ∃ s, (new data).insertAll tokens = .ok s ∧ s.buffer.data.length = kSmallBuffer ∧
      s.buffer.cur < kSmallBuffer ∧
      ∃ kept : List (Token F), kept.Sublist tokens ∧ s.buffer.content = kept.flatMap Token.text := by
  have hmap : (tokens.attachWith Token.Legal hlegal).map Subtype.val = tokens :=
    List.attachWith_map_subtype_val hlegal
  obtain ⟨s,hs,hholds⟩ := insertAll_holds (new_holds hdata) (tokens.attachWith Token.Legal hlegal)
  rw [hmap] at hs
  have hsub := (Token.pieces F).kept_sublist emptyText (tokens.attachWith Token.Legal hlegal)
  have hcontent := (Token.pieces F).content_foldl emptyText (tokens.attachWith Token.Legal hlegal)
  have hcur := hholds.cur_lt
  rw [hholds.size] at hcur
  refine ⟨s, hs, hholds.size, hcur, _, hmap ▸ hsub.map Subtype.val, ?_⟩
  rw [hholds.content, hcontent, List.flatMap_map]
  rfl

/-- Doubles of whole numbers of at most 12 digits, which `%.12g` prints as such. -/
def wholeDoubles : FloatFormat := ⟨ℤ, ℤ, id, decimalText⟩

theorem tokens_whole_pointer : ∃ s, (new (List.replicate 4000 0)).insertAll
      [.double (-5 : ℤ), .string (List.replicate 3990 97), (.pointer 255#64 : Token wholeDoubles)] = .ok s ∧
    s.buffer.data.length = kSmallBuffer ∧ s.buffer.cur < kSmallBuffer ∧
    ∃ kept : List (Token wholeDoubles), kept.Sublist
        [.double (-5 : ℤ), .string (List.replicate 3990 97), .pointer 255#64] ∧
      s.buffer.content = kept.flatMap Token.text := by
  apply tokens_whole _ List.length_replicate
  intro t ht
  simp only [List.mem_cons, List.not_mem_nil, or_false] at ht
  rcases ht with rfl | rfl | rfl
  · have hlen := length_decimalText_le (v := -5) (by decide) (by decide)
    simp only [Token.Legal, wholeDoubles]
    omega
  · trivial
  · trivial

/-- Every value of every integer type is printed as its canonical decimal numeral with a terminator, by
`convert` wherever there is room and by the stream if there are 32 bytes, and 64-bit values as canonical
hexadecimal numerals. -/
theorem integers_printed :
    (∀ (k : IntegerKind) (v : BitVec k.bits), ∃ text, IsDecimal text (k.value v) ∧ text.length ≤ 20 ∧
      readDecimal text = k.value v ∧
      (∀ (data : Bytes) (buf : ℕ), buf+text.length < data.length → convert data buf (k.value v) =
        .ok (CharArray.overwrite data buf (text ++ [0]), text.length)) ∧
      ∀ (data : Bytes) (cur : ℕ), cur+32 ≤ data.length → insertInteger ⟨⟨data, cur⟩⟩ k v =
        .ok ⟨⟨CharArray.overwrite data cur (text ++ [0]), cur+text.length⟩⟩) ∧
    ∀ v : BitVec 64, ∃ text, hexDigits.Canonical text v.toNat ∧ text.length ≤ 16 ∧
      ∀ (data : Bytes) (buf : ℕ), buf+text.length < data.length → convertHex data buf v =
        .ok (CharArray.overwrite data buf (text ++ [0]), text.length) := by
  refine ⟨?_, ?_⟩
  · intro k v
    obtain ⟨hlow,hhigh⟩ := k.value_range v
    have hdecimal := decimalText_isDecimal (k.value v)
    have hlen := length_decimalText_le hlow hhigh
    refine ⟨_, hdecimal, hlen, hdecimal.read, fun _ _ => convert_eq, ?_⟩
    intro data cur hroom
    have havail : (FixedBuffer.mk data cur).avail ≥ kMaxNumericSize := by
      simp only [FixedBuffer.avail, kMaxNumericSize]
      omega
    have hconvert := convert_eq (show cur+(decimalText (k.value v)).length < data.length by omega)
    rw [insertInteger_eq, formatInteger, if_pos havail, hconvert]
    rfl
  · intro v
    exact ⟨_, hexDigits.numeral_canonical v.toNat, length_hex_le v, fun _ _ => convertHex_eq⟩

/-- The least 64-bit integer, whose negation overflows, and a pointer. -/
theorem integers_printed_limits :
    (∃ text, IsDecimal text (-9223372036854775808) ∧ convert (List.replicate 21 7) 0 (-9223372036854775808) =
      .ok (CharArray.overwrite (List.replicate 21 7) 0 (text ++ [0]), text.length)) ∧
    ∃ text, hexDigits.Canonical text 48879 ∧ convertHex (List.replicate 17 7) 0 48879#64 =
      .ok (CharArray.overwrite (List.replicate 17 7) 0 (text ++ [0]), text.length) := by
  have hvalue : IntegerKind.long.value (BitVec.intMin 64) = -9223372036854775808 := by decide
  refine ⟨?_, ?_⟩
  · obtain ⟨text,hdecimal,hlen,_,hconvert,_⟩ := integers_printed.1 .long (BitVec.intMin 64)
    have hroom : 0+text.length < (List.replicate 21 (7 : UInt8)).length := by
      rw [List.length_replicate]
      omega
    rw [hvalue] at hdecimal hconvert
    exact ⟨text, hdecimal, hconvert _ 0 hroom⟩
  · obtain ⟨text,hhex,hlen,hconvert⟩ := integers_printed.2 48879#64
    have hroom : 0+text.length < (List.replicate 17 (7 : UInt8)).length := by
      rw [List.length_replicate]
      omega
    exact ⟨text, hhex, hconvert _ 0 hroom⟩

end LogStream
end IdealServer
