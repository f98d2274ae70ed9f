import IdealServer.ByteQueue
import IdealServer.Lexicographic
import Mathlib.Data.List.Lex

/-! The comparisons of `StringPiece`, and the lexicographic order of unsigned bytes. -/
namespace IdealServer

/-- The bytes as the numbers that they are compared by. -/
def unsigned (x : Bytes) : List ℕ := x.map UInt8.toNat

theorem unsigned_inj {x y : Bytes} : unsigned x = unsigned y ↔ x = y :=
  List.map_inj_right (fun _ _ => UInt8.toNat_inj.mp)

theorem unsigned_le_iff {x y : Bytes} : unsigned x ≤ unsigned y ↔ unsigned x < unsigned y ∨ x = y := by
  rw [le_iff_lt_or_eq, unsigned_inj]

/-- A `memcmp`: only the sign of what it returns for two arrays of one size is known. -/
structure Memcmp where
  cmp : Bytes → Bytes → ℤ
  neg_iff : ∀ a b, a.length = b.length → (cmp a b < 0 ↔ unsigned a < unsigned b)
  zero_iff : ∀ a b, a.length = b.length → (cmp a b = 0 ↔ a = b)

namespace Memcmp

theorem pos_iff (M : Memcmp) {a b : Bytes} (h : a.length = b.length) :
    0 < M.cmp a b ↔ unsigned b < unsigned a := by
  have hneg := M.neg_iff a b h
  have hzero := M.zero_iff a b h
  rw [← unsigned_inj] at hzero
  have hcases := lt_trichotomy (unsigned a) (unsigned b)
  constructor
  · intro hpos
    rcases hcases with hlt | heq | hgt
    · have := hneg.mpr hlt
      omega
    · have := hzero.mpr heq
      omega
    · exact hgt
  · intro hgt
    have hnot : ¬M.cmp a b < 0 := fun hlt => lt_asymm hgt (hneg.mp hlt)
    have hne : M.cmp a b ≠ 0 := fun h0 => ne_of_gt hgt (hzero.mp h0)
    omega

/-- The call on two pointers. -/
def call (M : Memcmp) (p q : Bytes) (n : ℕ) : Except Fault ℤ := do
  let a ← readBytes p 0 n
  let b ← readBytes q 0 n
  return M.cmp a b

theorem call_eq (M : Memcmp) {x y : Bytes} {n : ℕ} (hx : n ≤ x.length) (hy : n ≤ y.length) :
    M.call x y n = .ok (M.cmp (x.take n) (y.take n)) := by
  rw [call, readBytes_eq x 0 n (by omega), readBytes_eq y 0 n (by omega), List.drop_zero, List.drop_zero]
  rfl

/-- What is in front of the first difference does not matter. -/
def firstDifference : Bytes → Bytes → ℤ
  | a :: as, b :: bs => if a = b then firstDifference as bs else (a.toNat:ℤ)-b.toNat
  | _, _ => 0

theorem firstDifference_neg_iff (a b : Bytes) (h : a.length = b.length) :
    firstDifference a b < 0 ↔ unsigned a < unsigned b := by
  induction a generalizing b with
  | nil =>
    rw [List.length_eq_zero_iff.mp h.symm]
    exact iff_of_false (Int.lt_irrefl 0) (lt_irrefl _)
  | cons c a ih =>
    cases b with
    | nil => cases h
    | cons d b =>
      have htail := ih b (Nat.succ.inj h)
      have hcons : unsigned (c :: a) < unsigned (d :: b) ↔
          c.toNat < d.toNat ∨ c.toNat = d.toNat ∧ unsigned a < unsigned b := List.cons_lt_cons_iff
      rw [hcons, firstDifference]
      by_cases hcd : c = d
      · rw [if_pos hcd, htail, hcd]
        simp
      · have hne : c.toNat ≠ d.toNat := fun he => hcd (UInt8.toNat_inj.mp he)
        rw [if_neg hcd]
        omega

theorem firstDifference_zero_iff (a b : Bytes) (h : a.length = b.length) :
    firstDifference a b = 0 ↔ a = b := by
  induction a generalizing b with
  | nil => exact iff_of_true rfl (List.length_eq_zero_iff.mp h.symm).symm
  | cons c a ih =>
    cases b with
    | nil => cases h
    | cons d b =>
      rw [firstDifference, List.cons.injEq]
      by_cases hcd : c = d
      · rw [if_pos hcd, ih b (Nat.succ.inj h), iff_true_intro hcd, true_and]
      · have hne : c.toNat ≠ d.toNat := fun he => hcd (UInt8.toNat_inj.mp he)
        rw [if_neg hcd, iff_false_intro hcd, false_and]
        apply iff_of_false _ id
        omega

/-- The one that subtracts the first bytes that differ. -/
def subtracting : Memcmp := ⟨firstDifference, firstDifference_neg_iff, firstDifference_zero_iff⟩

end Memcmp

namespace Buffer.StringPiece
variable (M : Memcmp) (p q : StringPiece)

/-- `memcmp` of the first `n` bytes, an `int`. -/
def memcmp (n : ℤ) : Except Fault ℤ := M.call p.data q.data (n%2^64).toNat

/-- `operator==` -/
def equal : Except Fault Bool :=
  if p.length = q.length then (memcmp M p q p.length).map (fun ret => decide (ret = 0)) else .ok false

/-- `operator!=` -/
def notEqual : Except Fault Bool := (equal M p q).map (!·)

/-- As far as both pieces go. -/
def memcmpShorter : Except Fault ℤ := memcmp M p q (if p.length < q.length then p.length else q.length)

/-- `STRINGPIECE_BINARY_PREDICATE` -/
def binaryPredicate (cmp auxcmp : ℤ → ℤ → Bool) : Except Fault Bool :=
  (memcmpShorter M p q).map (fun ret => auxcmp ret 0 || ret = 0 && cmp p.length q.length)

def less : Except Fault Bool := binaryPredicate M p q (fun a b => a < b) (fun a b => a < b)
def lessEqual : Except Fault Bool := binaryPredicate M p q (fun a b => a ≤ b) (fun a b => a < b)
def greater : Except Fault Bool := binaryPredicate M p q (fun a b => a > b) (fun a b => a > b)
def greaterEqual : Except Fault Bool := binaryPredicate M p q (fun a b => a ≥ b) (fun a b => a > b)

def compare : Except Fault ℤ :=
  (memcmpShorter M p q).map (fun ret =>
    if ret = 0 then
      if p.length < q.length then -1
      else if p.length > q.length then 1
      else ret
    else ret)

/-- The result of `memcmp` is taken for a truth value. -/
def isStartWith : Except Fault Bool :=
  if p.length ≥ q.length then (memcmp M p q q.length).map (fun ret => decide (ret ≠ 0)) else .ok false

/-- A predicate of the source says whether `P` holds. -/
def Decides (result : Except Fault Bool) (P : Prop) : Prop := ∃ b, result = .ok b ∧ (b = true ↔ P)

section Comparisons
variable {x y : Bytes}

theorem length_ofBytes (hx : x.length < 2^31) : (ofBytes x).length = x.length := by
  have hmod : Int.bmod x.length (2^32) = x.length := by
    rw [Int.bmod_def]
    omega
  rw [ofBytes, hmod]

theorem memcmp_ofBytes {n : ℕ} (hn : n < 2^31) (hx : n ≤ x.length) (hy : n ≤ y.length) :
    memcmp M (ofBytes x) (ofBytes y) n = .ok (M.cmp (x.take n) (y.take n)) := by
  have hsize : ((n:ℤ)%2^64).toNat = n := by omega
  rw [memcmp, hsize]
  exact M.call_eq hx hy

/-- What `memcmp` says of the two as far as both go. -/
def shorter (x y : Bytes) : ℤ := M.cmp (x.take (min x.length y.length)) (y.take (min x.length y.length))

variable (hx : x.length < 2^31) (hy : y.length < 2^31)
include hx hy

theorem memcmpShorter_ofBytes : memcmpShorter M (ofBytes x) (ofBytes y) = .ok (shorter M x y) := by
  have hmin : (if (x.length:ℤ) < y.length then (x.length:ℤ) else y.length) = (min x.length y.length : ℕ) := by
    split <;> omega
  rw [memcmpShorter, length_ofBytes hx, length_ofBytes hy, hmin]
  exact memcmp_ofBytes M (by omega) (Nat.min_le_left _ _) (Nat.min_le_right _ _)

omit hx hy in
/-- The order of the two, by what `memcmp` says and by the lengths. -/
theorem order_of_shorter : (shorter M x y < 0 ∨ shorter M x y = 0 ∧ x.length < y.length ↔
      unsigned x < unsigned y) ∧
    (shorter M x y = 0 ∧ x.length = y.length ↔ x = y) ∧
    (0 < shorter M x y ∨ shorter M x y = 0 ∧ y.length < x.length ↔ unsigned y < unsigned x) := by
  have hlen : (x.take (min x.length y.length)).length = (y.take (min x.length y.length)).length := by
    rw [List.length_take, List.length_take]
    omega
  have hsize (z : Bytes) : (unsigned z).length = z.length := List.length_map _
  have htake (n : ℕ) (z : Bytes) : (unsigned z).take n = unsigned (z.take n) := List.map_take.symm
  have hlt := Lexicographic.lt_iff_take (unsigned x) (unsigned y)
  have hgt := Lexicographic.lt_iff_take (unsigned y) (unsigned x)
  rw [hsize, hsize, htake, htake, unsigned_inj] at hlt hgt
  rw [Nat.min_comm] at hgt
  refine ⟨?_, ?_, ?_⟩
  · rw [hlt, shorter, M.neg_iff _ _ hlen, M.zero_iff _ _ hlen]
  · rw [Lexicographic.eq_iff_take x y, shorter, M.zero_iff _ _ hlen]
  · rw [hgt, shorter, M.pos_iff hlen, M.zero_iff _ _ hlen, eq_comm]

theorem binaryPredicate_decides (cmp auxcmp : ℤ → ℤ → Bool) :
    Decides (binaryPredicate M (ofBytes x) (ofBytes y) cmp auxcmp)
      (auxcmp (shorter M x y) 0 = true ∨ shorter M x y = 0 ∧ cmp x.length y.length = true) := by
  rw [binaryPredicate, memcmpShorter_ofBytes M hx hy, length_ofBytes hx, length_ofBytes hy]
  refine ⟨_, rfl, ?_⟩
  rw [Bool.or_eq_true, Bool.and_eq_true, decide_eq_true_iff]

theorem equal_decides : Decides (equal M (ofBytes x) (ofBytes y)) (x = y) := by
  rw [equal, length_ofBytes hx, length_ofBytes hy]
  by_cases hlen : x.length = y.length
  · have hcall := memcmp_ofBytes M hx (Nat.le_refl x.length) hlen.le
    rw [List.take_length, hlen, List.take_length] at hcall
    rw [if_pos (by rw [hlen])]
    refine ⟨decide (M.cmp x y = 0), ?_, ?_⟩
    · rw [hlen]
      exact congrArg (Except.map _) hcall
    · rw [decide_eq_true_iff, M.zero_iff x y hlen]
  · rw [if_neg (by omega)]
    refine ⟨false, rfl, iff_of_false Bool.false_ne_true ?_⟩
    rintro rfl
    exact hlen rfl

theorem notEqual_decides : Decides (notEqual M (ofBytes x) (ofBytes y)) (x ≠ y) := by
  obtain ⟨b,hb,hiff⟩ := equal_decides M hx hy
  rw [notEqual, hb]
  refine ⟨!b, rfl, ?_⟩
  rw [Ne, ← hiff, Bool.not_eq_true', Bool.not_eq_true]

theorem less_decides : Decides (less M (ofBytes x) (ofBytes y)) (unsigned x < unsigned y) := by
  obtain ⟨b,hb,hiff⟩ := binaryPredicate_decides M hx hy (fun a b => a < b) (fun a b => a < b)
  refine ⟨b, hb, hiff.trans ?_⟩
  simp only [decide_eq_true_iff, Int.ofNat_lt]
  exact (order_of_shorter M).1

theorem lessEqual_decides : Decides (lessEqual M (ofBytes x) (ofBytes y)) (unsigned x ≤ unsigned y) := by
  obtain ⟨b,hb,hiff⟩ := binaryPredicate_decides M hx hy (fun a b => a ≤ b) (fun a b => a < b)
  refine ⟨b, hb, hiff.trans ?_⟩
  obtain ⟨hlt,heq,_⟩ := order_of_shorter M (x := x) (y := y)
  rw [unsigned_le_iff, ← hlt, ← heq]
  simp only [decide_eq_true_iff, Int.ofNat_le]
  omega

theorem greater_decides : Decides (greater M (ofBytes x) (ofBytes y)) (unsigned y < unsigned x) := by
  obtain ⟨b,hb,hiff⟩ := binaryPredicate_decides M hx hy (fun a b => a > b) (fun a b => a > b)
  refine ⟨b, hb, hiff.trans ?_⟩
  simp only [decide_eq_true_iff, gt_iff_lt, Int.ofNat_lt]
  exact (order_of_shorter M).2.2

theorem greaterEqual_decides : Decides (greaterEqual M (ofBytes x) (ofBytes y)) (unsigned y ≤ unsigned x) := by
  obtain ⟨b,hb,hiff⟩ := binaryPredicate_decides M hx hy (fun a b => a ≥ b) (fun a b => a > b)
  refine ⟨b, hb, hiff.trans ?_⟩
  obtain ⟨_,heq,hgt⟩ := order_of_shorter M (x := x) (y := y)
  rw [unsigned_le_iff, eq_comm (a := y), ← hgt, ← heq]
  simp only [decide_eq_true_iff, ge_iff_le, gt_iff_lt, Int.ofNat_le]
  omega

theorem compare_sign : ∃ ret, compare M (ofBytes x) (ofBytes y) = .ok ret ∧
    (ret < 0 ↔ unsigned x < unsigned y) ∧ (ret = 0 ↔ x = y) ∧ (0 < ret ↔ unsigned y < unsigned x) := by
  obtain ⟨hlt,heq,hgt⟩ := order_of_shorter M (x := x) (y := y)
  rw [compare, memcmpShorter_ofBytes M hx hy, length_ofBytes hx, length_ofBytes hy]
  refine ⟨_, rfl, ?_⟩
  dsimp only
  rw [← hlt, ← heq, ← hgt]
  by_cases hzero : shorter M x y = 0
  · rw [if_pos hzero, hzero]
    by_cases hless : (x.length:ℤ) < y.length
    · rw [if_pos hless]
      omega
    · rw [if_neg hless]
      split <;> omega
  · rw [if_neg hzero]
    omega

theorem isStartWith_decides : Decides (isStartWith M (ofBytes x) (ofBytes y))
    (y.length ≤ x.length ∧ ¬y <+: x) := by
  rw [isStartWith, length_ofBytes hx, length_ofBytes hy]
  by_cases hle : y.length ≤ x.length
  · have hcall := memcmp_ofBytes M hy hle (Nat.le_refl y.length)
    have hlen : (x.take y.length).length = y.length := List.length_take_of_le hle
    rw [List.take_length] at hcall
    rw [if_pos (Int.ofNat_le.mpr hle), hcall]
    refine ⟨_, rfl, ?_⟩
    rw [decide_eq_true_iff, Ne, M.zero_iff _ _ hlen, List.prefix_iff_eq_take, eq_comm]
    exact (and_iff_right hle).symm
  · rw [if_neg (fun h => hle (Int.ofNat_le.mp h))]
    exact ⟨false, rfl, iff_of_false Bool.false_ne_true (fun h => hle h.1)⟩

/-- The six operators and `compare` go by one order, that of the unsigned bytes. -/
structure InOrder (x y : Bytes) : Prop where
  equal : Decides (equal M (ofBytes x) (ofBytes y)) (x = y)
  notEqual : Decides (notEqual M (ofBytes x) (ofBytes y)) (x ≠ y)
  less : Decides (less M (ofBytes x) (ofBytes y)) (unsigned x < unsigned y)
  lessEqual : Decides (lessEqual M (ofBytes x) (ofBytes y)) (unsigned x ≤ unsigned y)
  greater : Decides (greater M (ofBytes x) (ofBytes y)) (unsigned y < unsigned x)
  greaterEqual : Decides (greaterEqual M (ofBytes x) (ofBytes y)) (unsigned y ≤ unsigned x)
  compare : ∃ ret, compare M (ofBytes x) (ofBytes y) = .ok ret ∧
    (ret < 0 ↔ unsigned x < unsigned y) ∧ (ret = 0 ↔ x = y) ∧ (0 < ret ↔ unsigned y < unsigned x)

theorem inOrder : InOrder M x y where
  equal := equal_decides M hx hy
  notEqual := notEqual_decides M hx hy
  less := less_decides M hx hy
  lessEqual := lessEqual_decides M hx hy
  greater := greater_decides M hx hy
  greaterEqual := greaterEqual_decides M hx hy
  compare := compare_sign M hx hy

/-- `isStartWith` says whether `y` is a prefix only where `y` is the longer piece. -/
theorem comparisons_iff : InOrder M x y ∧ Decides (isStartWith M (ofBytes x) (ofBytes y)) (y <+: x) ↔
    x.length < y.length := by
  obtain ⟨b,hb,hiff⟩ := isStartWith_decides M hx hy
  constructor
  · intro ⟨_,b1,hb1,hstart⟩
    rw [Except.ok.inj (hb1.symm.trans hb), hiff] at hstart
    by_contra hle
    -- of two pieces with the second not longer it is said that one starts with the other if it does not
    rw [and_iff_right (by omega)] at hstart
    exact not_iff_self hstart
  · intro hlt
    refine ⟨inOrder M hx hy, b, hb, hiff.trans ?_⟩
    constructor
    · intro h
      omega
    · intro h
      have := h.length_le
      omega

omit hx hy in
theorem comparisons_iff_longer : InOrder .subtracting (ascii "GE") (ascii "GET") ∧
    Decides (isStartWith .subtracting (ofBytes (ascii "GE")) (ofBytes (ascii "GET")))
      (ascii "GET" <+: ascii "GE") ↔ (ascii "GE").length < (ascii "GET").length :=
  comparisons_iff .subtracting (by decide) (by decide)

omit hx hy in
/-- A piece that starts with the other. -/
theorem comparisons_fail : ¬(InOrder .subtracting (ascii "GET /") (ascii "GET") ∧
    Decides (isStartWith .subtracting (ofBytes (ascii "GET /")) (ofBytes (ascii "GET")))
      (ascii "GET" <+: ascii "GET /")) := by
  intro ⟨_,b,hb,hiff⟩
  have hfalse : isStartWith .subtracting (ofBytes (ascii "GET /")) (ofBytes (ascii "GET")) = .ok false := by
    decide
  have htrue : b = true := hiff.mpr (by decide)
  rw [htrue, hfalse] at hb
  cases hb

end Comparisons

end Buffer.StringPiece

end IdealServer
