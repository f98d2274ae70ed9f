import IdealServer.CharArray
import IdealServer.Radix

/-! `convert` and `convertHex`: the digits of an integer are written in reverse and then turned around. -/
namespace IdealServer

/-- An array of digits with its terminator, and where the zero stands in it. -/
structure DigitTable where
  base : ℕ
  array : Bytes
  zero : ℕ
  two_le : 2 ≤ base

/-- `zero[lsd]` -/
def DigitTable.get (T : DigitTable) (lsd : ℤ) : Except Fault UInt8 :=
  if T.zero+lsd < 0 then .error .outOfBounds
  else match T.array[(T.zero+lsd).toNat]? with
    | some c => .ok c
    | none => .error .outOfBounds

def digits : DigitTable := ⟨10, ascii "9876543210123456789" ++ [0], 9, by decide⟩

def digitsHex : DigitTable := ⟨16, ascii "0123456789ABCDEF" ++ [0], 0, by decide⟩

theorem natAbs_tdiv_lt {base : ℕ} (hbase : 2 ≤ base) {i : ℤ} (h : i.tdiv base ≠ 0) :
    (i.tdiv base).natAbs < i.natAbs := by
  have hpos : i.natAbs ≠ 0 := by
    intro hzero
    rw [Int.natAbs_eq_zero.mp hzero, Int.zero_tdiv] at h
    exact h rfl
  rw [Int.natAbs_tdiv, Int.natAbs_natCast]
  exact Nat.div_lt_self (Nat.pos_of_ne_zero hpos) hbase

/-- The loop that `convert` and `convertHex` share. The division is that of C++, which rounds towards 0. -/
def digitLoop (T : DigitTable) (data : Bytes) (p : ℕ) (i : ℤ) : Except Fault (Bytes × ℕ) := do
  let c ← T.get (i.tmod T.base)
  let data ← CharArray.store data p c
  if h : i.tdiv T.base ≠ 0 then digitLoop T data (p+1) (i.tdiv T.base)
  else return (data, p+1)
termination_by i.natAbs
decreasing_by exact natAbs_tdiv_lt T.two_le h

/-- `convert` for a value of any integer type. -/
def convert (data : Bytes) (buf : ℕ) (value : ℤ) : Except Fault (Bytes × ℕ) := do
  let r ← digitLoop digits data buf value
  let r ← (if value < 0 then (do
      let data ← CharArray.store r.1 r.2 45
      return (data, r.2+1))
    else pure r : Except Fault (Bytes × ℕ))
  let data ← CharArray.store r.1 r.2 0
  return (CharArray.reverse data buf r.2, r.2-buf)

def convertHex (data : Bytes) (buf : ℕ) (value : BitVec 64) : Except Fault (Bytes × ℕ) := do
  let r ← digitLoop digitsHex data buf value.toNat
  let data ← CharArray.store r.1 r.2 0
  return (CharArray.reverse data buf r.2, r.2-buf)

/-- The digits `0` to `9`. -/
def decimalDigits : Radix.Alphabet UInt8 where
  base := 10
  symbol := fun d => UInt8.ofNat (48+d)
  value := fun c => c.toNat-48
  two_le := by decide
  value_symbol := by decide

/-- The digits `0` to `9` and `A` to `F`. -/
def hexDigits : Radix.Alphabet UInt8 where
  base := 16
  symbol := fun d => UInt8.ofNat (if d < 10 then 48+d else 55+d)
  value := fun c => if c.toNat < 65 then c.toNat-48 else c.toNat-55
  two_le := by decide
  value_symbol := by decide

/-- The decimal numeral of an integer. -/
def decimalText (v : ℤ) : Bytes :=
  if v < 0 then 45 :: decimalDigits.numeral v.natAbs else decimalDigits.numeral v.natAbs

/-- A minus sign exactly in front of negative numbers, and then a numeral without leading zeros. -/
structure IsDecimal (text : Bytes) (v : ℤ) : Prop where
  minus : text.head? = some 45 ↔ v < 0
  canonical : decimalDigits.Canonical (if v < 0 then text.tail else text) v.natAbs

/-- The integer that a text with or without a minus sign denotes. -/
def readDecimal (text : Bytes) : ℤ :=
  if text.head? = some 45 then -(decimalDigits.read text.tail : ℤ) else decimalDigits.read text

theorem IsDecimal.read {text : Bytes} {v : ℤ} (h : IsDecimal text v) : readDecimal text = v := by
  have hread := h.canonical.read
  by_cases hneg : v < 0
  · rw [if_pos hneg] at hread
    rw [readDecimal, if_pos (h.minus.mpr hneg), hread]
    omega
  · rw [if_neg hneg] at hread
    rw [readDecimal, if_neg (fun hminus => hneg (h.minus.mp hminus)), hread]
    omega

theorem not_isDigit_minus : ¬decimalDigits.IsDigit 45 := by
  intro ⟨d,hd,hsymbol⟩
  have hne : ∀ d < 10, UInt8.ofNat (48+d) ≠ 45 := by decide
  exact hne d hd hsymbol

theorem decimalText_isDecimal (v : ℤ) : IsDecimal (decimalText v) v := by
  have hcanonical := decimalDigits.numeral_canonical v.natAbs
  rw [decimalText]
  by_cases hneg : v < 0
  · rw [if_pos hneg]
    refine ⟨iff_of_true rfl hneg, ?_⟩
    rw [if_pos hneg]
    exact hcanonical
  · rw [if_neg hneg]
    refine ⟨iff_of_false ?_ hneg, ?_⟩
    · intro hminus
      exact not_isDigit_minus (hcanonical.digits 45 (List.mem_of_mem_head? hminus))
    · rw [if_neg hneg]
      exact hcanonical

example : decimalText (-2147483648) = ascii "-2147483648" := by decide

theorem length_decimalText_le {v : ℤ} (hlow : -(2^63) ≤ v) (hhigh : v < 2^64) :
    (decimalText v).length ≤ 20 := by
  rw [decimalText]
  by_cases hneg : v < 0
  · have hlen := decimalDigits.length_numeral_le (n := v.natAbs) (k := 19) (by decide)
      (by rw [show decimalDigits.base = 10 from rfl]; omega)
    rw [if_pos hneg, List.length_cons]
    omega
  · have hlen := decimalDigits.length_numeral_le (n := v.natAbs) (k := 20) (by decide)
      (by rw [show decimalDigits.base = 10 from rfl]; omega)
    rwa [if_neg hneg]

theorem length_hex_le (v : BitVec 64) : (hexDigits.numeral v.toNat).length ≤ 16 := by
  have hlt := v.isLt
  exact hexDigits.length_numeral_le (by decide) (by rw [show hexDigits.base = 16 from rfl]; omega)

section Loop
variable {T : DigitTable} {A : Radix.Alphabet UInt8} (hbase : T.base = A.base) {s : ℤ}
  (hget : ∀ d < A.base, T.get (s*d) = .ok (A.symbol d)) (hs : s = 1 ∨ s = -1)
include hbase hget hs

/-- The loop writes the numeral in reverse, for negative numbers too. -/
theorem digitLoop_eq (n : ℕ) {data : Bytes} {p : ℕ} (hroom : p+(A.numeral n).length ≤ data.length) :
    digitLoop T data p (s*n) =
      .ok (CharArray.overwrite data p (A.numeral n).reverse, p+(A.numeral n).length) := by
  induction n using Nat.strong_induction_on generalizing data p with
  | _ n ih =>
    have hmod : (s*n : ℤ).tmod T.base = s*(n%A.base : ℕ) := by
      rw [hbase]
      rcases hs with rfl | rfl
      · rw [Int.one_mul, Int.one_mul]
        exact (Int.ofNat_tmod n A.base).symm
      · rw [Int.neg_one_mul, Int.neg_one_mul, Int.neg_tmod, ← Int.ofNat_tmod]
    have hdiv : (s*n : ℤ).tdiv T.base = s*(n/A.base : ℕ) := by
      rw [hbase]
      rcases hs with rfl | rfl
      · rw [Int.one_mul, Int.one_mul]
        exact (Int.ofNat_tdiv n A.base).symm
      · rw [Int.neg_one_mul, Int.neg_one_mul, Int.neg_tdiv, ← Int.ofNat_tdiv]
    have hsymbol := hget _ (Nat.mod_lt n A.base_pos)
    by_cases h : n < A.base
    · -- the last round
      rw [A.numeral_of_lt h] at hroom ⊢
      rw [List.length_singleton] at hroom
      have hdone : ¬(s*n : ℤ).tdiv T.base ≠ 0 := by
        rw [hdiv, Nat.div_eq_of_lt h]
        omega
      have hstore := CharArray.store_eq (show p < data.length by omega) (A.symbol n)
      rw [digitLoop, hmod, hsymbol, Nat.mod_eq_of_lt h]
      simp only [bind, Except.bind, hstore, dif_neg hdone]
      rfl
    · have hle : A.base ≤ n := by omega
      have hpos : 0 < n/A.base := Nat.div_pos hle A.base_pos
      rw [A.numeral_of_le hle] at hroom ⊢
      rw [List.length_append, List.length_singleton] at hroom
      have hmore : (s*n : ℤ).tdiv T.base ≠ 0 := by
        rw [hdiv]
        rcases hs with rfl | rfl <;> omega
      have hstore := CharArray.store_eq (show p < data.length by omega) (A.symbol (n%A.base))
      have hlen : (CharArray.overwrite data p [A.symbol (n%A.base)]).length = data.length :=
        CharArray.length_overwrite (by rw [List.length_singleton]; omega)
      have hfit : p+1+(A.numeral (n/A.base)).length ≤
          (CharArray.overwrite data p [A.symbol (n%A.base)]).length := by
        rw [hlen]
        omega
      have hrest := ih (n/A.base) (Nat.div_lt_self (Nat.lt_of_lt_of_le A.base_pos hle) A.two_le) hfit
      have hboth := CharArray.overwrite_overwrite [A.symbol (n%A.base)] (A.numeral (n/A.base)).reverse
        (show p ≤ data.length by omega)
      rw [List.length_singleton] at hboth
      rw [digitLoop, hmod, hsymbol]
      simp only [bind, Except.bind, hstore, dif_pos hmore]
      rw [hdiv, hrest, hboth, List.reverse_append, List.reverse_singleton, List.length_append,
        List.length_singleton, Nat.add_assoc, Nat.add_comm 1]

end Loop

/-- The table is read around its middle. -/
theorem digits_get {s : ℤ} (hs : s = 1 ∨ s = -1) :
    ∀ d < decimalDigits.base, digits.get (s*d) = .ok (decimalDigits.symbol d) := by
  rcases hs with rfl | rfl
  · decide
  · decide

theorem digitsHex_get : ∀ d < hexDigits.base, digitsHex.get (1*d) = .ok (hexDigits.symbol d) := by
  decide

section Spec
variable {data : Bytes} {buf : ℕ}

/-- The digits and the terminator are written, and then the digits are turned around. -/
theorem store_reverse {text : Bytes} (hroom : buf+text.length < data.length) :
    (do let data ← CharArray.store (CharArray.overwrite data buf text.reverse) (buf+text.length) 0
        return (CharArray.reverse data buf (buf+text.length), buf+text.length-buf)) =
      (.ok (CharArray.overwrite data buf (text ++ [0]), text.length) : Except Fault (Bytes × ℕ)) := by
  have hbuf : buf ≤ data.length := by omega
  have hlen : (CharArray.overwrite data buf text.reverse).length = data.length :=
    CharArray.length_overwrite (by rw [List.length_reverse]; omega)
  have hstore := CharArray.store_eq (p := buf+text.length) (by rwa [hlen]) 0
  have hboth := CharArray.overwrite_overwrite text.reverse [0] hbuf
  have hturned := CharArray.reverse_overwrite text.reverse [0] hbuf
  rw [List.length_reverse] at hboth hturned
  rw [List.reverse_reverse] at hturned
  simp only [hstore, bind, Except.bind, hboth, hturned, Nat.add_sub_cancel_left]
  rfl

/-- `convert` writes the numeral and a terminator wherever there is room for them. -/
theorem convert_eq {v : ℤ} (hroom : buf+(decimalText v).length < data.length) :
    convert data buf v =
      .ok (CharArray.overwrite data buf (decimalText v ++ [0]), (decimalText v).length) := by
  by_cases hneg : v < 0
  · have hv : -1*(v.natAbs : ℤ) = v := by omega
    have htext : decimalText v = 45 :: decimalDigits.numeral v.natAbs := if_pos hneg
    have hreverse : (decimalText v).reverse = (decimalDigits.numeral v.natAbs).reverse ++ [45] := by
      rw [htext, List.reverse_cons]
    have hlen : (decimalText v).length = (decimalDigits.numeral v.natAbs).length+1 := by
      rw [htext, List.length_cons]
    have hfit : buf+(decimalDigits.numeral v.natAbs).length ≤ data.length := by omega
    have hloop := digitLoop_eq (T := digits) rfl (digits_get (.inr rfl)) (.inr rfl) v.natAbs hfit
    rw [hv] at hloop
    have hdata : (CharArray.overwrite data buf (decimalDigits.numeral v.natAbs).reverse).length =
        data.length := CharArray.length_overwrite (by rw [List.length_reverse]; omega)
    have hstore := CharArray.store_eq (p := buf+(decimalDigits.numeral v.natAbs).length)
      (show _ < _ by rw [hdata]; omega) 45
    have hsigned := CharArray.overwrite_overwrite (decimalDigits.numeral v.natAbs).reverse [45]
      (show buf ≤ data.length by omega)
    rw [List.length_reverse, ← hreverse] at hsigned
    rw [hsigned] at hstore
    have hspec := store_reverse hroom
    rw [hlen, ← Nat.add_assoc] at hspec
    rw [convert, hloop]
    simp only [bind, Except.bind, pure, Except.pure, if_pos hneg, hstore] at hspec ⊢
    rw [hspec, hlen]
  · have hv : 1*(v.natAbs : ℤ) = v := by omega
    have htext : decimalText v = decimalDigits.numeral v.natAbs := if_neg hneg
    rw [htext] at hroom
    have hloop := digitLoop_eq (T := digits) rfl (digits_get (.inl rfl)) (.inl rfl) v.natAbs hroom.le
    rw [hv] at hloop
    have hspec := store_reverse hroom
    rw [convert, hloop, htext]
    simp only [bind, Except.bind, pure, Except.pure, if_neg hneg] at hspec ⊢
    exact hspec

theorem convertHex_eq {v : BitVec 64} (hroom : buf+(hexDigits.numeral v.toNat).length < data.length) :
    convertHex data buf v =
      .ok (CharArray.overwrite data buf (hexDigits.numeral v.toNat ++ [0]),
        (hexDigits.numeral v.toNat).length) := by
  have hloop := digitLoop_eq (T := digitsHex) rfl digitsHex_get (.inl rfl) v.toNat hroom.le
  rw [Int.one_mul] at hloop
  have hspec := store_reverse hroom
  rw [convertHex, hloop]
  simp only [bind, Except.bind, pure, Except.pure] at hspec ⊢
  exact hspec

end Spec

end IdealServer
