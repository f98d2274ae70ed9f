import IdealServer.Lexicographic
import Mathlib.Data.Nat.Digits.Lemmas

/-! Numerals in any base as texts over an alphabet of digits: without leading zeros, and of a fixed width. -/
namespace Radix

/-- The digits of a base, and what each of them stands for. -/
structure Alphabet (α : Type*) where
  base : ℕ
  symbol : ℕ → α
  value : α → ℕ
  two_le : 2 ≤ base
  value_symbol : ∀ d < base, value (symbol d) = d

variable {α : Type*}

namespace Alphabet
variable (A : Alphabet α)

def IsDigit (c : α) : Prop := ∃ d < A.base, A.symbol d = c

def read (text : List α) : ℕ := text.foldl (fun v c => A.base*v+A.value c) 0

/-- The digits of a number, the last one first. There is at least one. -/
def lastFirst (n : ℕ) : List ℕ := n%A.base :: Nat.digits A.base (n/A.base)

def numeral (n : ℕ) : List α := ((A.lastFirst n).map A.symbol).reverse

/-- A numeral without a leading zero, read as the number. -/
structure Canonical (text : List α) (n : ℕ) : Prop where
  ne_nil : text ≠ []
  digits : ∀ c ∈ text, A.IsDigit c
  leading : text.head? = some (A.symbol 0) → text.length = 1
  read : A.read text = n

/-- The last `w` digits. -/
def fixed : ℕ → ℕ → List α
  | 0, _ => []
  | w+1, n => fixed w (n/A.base) ++ [A.symbol (n%A.base)]

/-- The numeral behind as many zeros as the width asks for. -/
def padded (w n : ℕ) : List α := List.replicate (w-(A.numeral n).length) (A.symbol 0) ++ A.numeral n

/-- Numbers of fixed widths, each behind the text that separates it from the one before. -/
def fields : List (List α × ℕ) → List ℕ → List α
  | (sep,w) :: fs, n :: ns => sep ++ fixed A w n ++ fields fs ns
  | _, _ => []

def Fit (fs : List (List α × ℕ)) (ns : List ℕ) : Prop := List.Forall₂ (fun f n => n < A.base^f.2) fs ns

theorem base_pos : 0 < A.base := Nat.lt_of_lt_of_le (by decide) A.two_le

theorem numeral_of_lt {n : ℕ} (h : n < A.base) : A.numeral n = [A.symbol n] := by
  rw [numeral, lastFirst, Nat.mod_eq_of_lt h, Nat.div_eq_of_lt h, Nat.digits_zero]
  rfl

theorem numeral_of_le {n : ℕ} (h : A.base ≤ n) :
    A.numeral n = A.numeral (n/A.base) ++ [A.symbol (n%A.base)] := by
  have hpos : 0 < n/A.base := Nat.div_pos h A.base_pos
  rw [numeral, lastFirst, Nat.digits_def' A.two_le hpos, List.map_cons, List.reverse_cons]
  rfl

theorem read_concat (text : List α) (c : α) : A.read (text ++ [c]) = A.base*A.read text+A.value c := by
  simp only [read, List.foldl_append, List.foldl_cons, List.foldl_nil]

theorem numeral_canonical (n : ℕ) : A.Canonical (A.numeral n) n := by
  induction n using Nat.strong_induction_on with
  | _ n ih =>
    by_cases h : n < A.base
    · rw [A.numeral_of_lt h]
      refine ⟨List.cons_ne_nil _ _, ?_, fun _ => rfl, ?_⟩
      · intro c hc
        exact ⟨n, h, (List.mem_singleton.mp hc).symm⟩
      · have hread := A.read_concat [] (A.symbol n)
        rw [List.nil_append, A.value_symbol n h] at hread
        rw [hread]
        exact Nat.zero_add n
    · have hle : A.base ≤ n := by omega
      have hmod := Nat.mod_lt n A.base_pos
      have hpre := ih (n/A.base) (Nat.div_lt_self (Nat.lt_of_lt_of_le A.base_pos hle) A.two_le)
      rw [A.numeral_of_le hle]
      refine ⟨List.append_ne_nil_of_right_ne_nil _ (List.cons_ne_nil _ _), ?_, ?_, ?_⟩
      · intro c hc
        rcases List.mem_append.mp hc with hc | hc
        · exact hpre.digits c hc
        · exact ⟨n%A.base, hmod, (List.mem_singleton.mp hc).symm⟩
      · -- a zero in front would be the whole numeral of the quotient
        intro hzero
        rw [List.head?_append_of_ne_nil _ hpre.ne_nil] at hzero
        obtain ⟨c,hc⟩ := List.length_eq_one_iff.mp (hpre.leading hzero)
        have hread := A.read_concat [] c
        rw [hc, List.head?_cons, Option.some_inj] at hzero
        rw [hzero, List.nil_append, ← hzero, ← hc, hpre.read, hzero, A.value_symbol 0 A.base_pos] at hread
        have hpos : 0 < n/A.base := Nat.div_pos hle A.base_pos
        have hread0 : A.read [] = 0 := rfl
        rw [hread0] at hread
        omega
      · rw [A.read_concat, hpre.read, A.value_symbol _ hmod]
        exact Nat.div_add_mod n A.base

theorem length_numeral_le_iff {n k : ℕ} (hk : 0 < k) : (A.numeral n).length ≤ k ↔ n < A.base^k := by
  obtain ⟨j,rfl⟩ : ∃ j, k = j+1 := ⟨k-1, by omega⟩
  have hdigits := Nat.digits_length_le_iff (k := j) A.two_le (n/A.base)
  rw [numeral, List.length_reverse, List.length_map, lastFirst, List.length_cons, Nat.add_le_add_iff_right,
    hdigits, Nat.div_lt_iff_lt_mul A.base_pos, Nat.pow_succ]

theorem length_numeral_le {n k : ℕ} (hk : 0 < k) (hn : n < A.base^k) : (A.numeral n).length ≤ k :=
  (A.length_numeral_le_iff hk).mpr hn

@[simp] theorem length_fixed (w n : ℕ) : (A.fixed w n).length = w := by
  induction w generalizing n with
  | zero => rfl
  | succ w ih => rw [fixed, List.length_append, ih, List.length_singleton]

theorem read_fixed {w n : ℕ} (h : n < A.base^w) : A.read (A.fixed w n) = n := by
  induction w generalizing n with
  | zero =>
    rw [Nat.pow_zero, Nat.lt_one_iff] at h
    rw [h]
    rfl
  | succ w ih =>
    have hquot : n/A.base < A.base^w := Nat.div_lt_of_lt_mul (by rwa [← Nat.pow_succ'])
    rw [fixed, read_concat, ih hquot, A.value_symbol _ (Nat.mod_lt n A.base_pos)]
    exact Nat.div_add_mod n A.base

theorem fixed_inj_iff {w n m : ℕ} (hn : n < A.base^w) (hm : m < A.base^w) :
    A.fixed w n = A.fixed w m ↔ n = m := by
  refine ⟨?_, congrArg _⟩
  intro h
  rw [← A.read_fixed hn, h, A.read_fixed hm]

theorem fixed_zero (w : ℕ) : A.fixed w 0 = List.replicate w (A.symbol 0) := by
  induction w with
  | zero => rfl
  | succ w ih => rw [fixed, Nat.zero_div, Nat.zero_mod, ih, List.replicate_succ']

/-- Where the number fits, filling up with zeros yields the fixed width. -/
theorem read_padded (w n : ℕ) : A.read (A.padded w n) = n := by
  have hzeros (k : ℕ) (text : List α) : A.read (List.replicate k (A.symbol 0) ++ text) = A.read text := by
    induction k with
    | zero => rfl
    | succ k ih =>
      have hzero : A.base*0+A.value (A.symbol 0) = 0 := by rw [A.value_symbol 0 A.base_pos, Nat.mul_zero]
      rw [← ih, List.replicate_succ, List.cons_append, read, List.foldl_cons, hzero]
      rfl
  rw [padded, hzeros, (A.numeral_canonical n).read]

theorem padded_eq_fixed {w n : ℕ} (hw : 0 < w) (hn : n < A.base^w) : A.padded w n = A.fixed w n := by
  induction w generalizing n with
  | zero => omega
  | succ w ih =>
    rw [padded, fixed]
    by_cases h : n < A.base
    · rw [A.numeral_of_lt h, Nat.div_eq_of_lt h, Nat.mod_eq_of_lt h, fixed_zero, List.length_singleton,
        Nat.add_sub_cancel]
    · have hle : A.base ≤ n := by omega
      have hpos : 0 < w := by
        rcases Nat.eq_zero_or_pos w with hzero | hpos
        · rw [hzero, Nat.zero_add, Nat.pow_one] at hn
          omega
        · exact hpos
      have hquot : n/A.base < A.base^w := Nat.div_lt_of_lt_mul (by rwa [← Nat.pow_succ'])
      rw [← ih hpos hquot, padded, A.numeral_of_le hle, List.length_append, List.length_singleton,
        Nat.add_sub_add_right, List.append_assoc]

end Alphabet

section Lex
variable [LT α] [Std.Irrefl (fun a b : α => a < b)]

variable (A : Alphabet α) (horder : ∀ d < A.base, ∀ e < A.base, (A.symbol d < A.symbol e ↔ d < e))
include horder

/-- Numerals of one width are in the order of their numbers. -/
theorem fixed_lt_iff {w n m : ℕ} (hn : n < A.base^w) (hm : m < A.base^w) :
    A.fixed w n < A.fixed w m ↔ n < m := by
  induction w generalizing n m with
  | zero =>
    rw [Nat.pow_zero] at hn hm
    have hirrefl : ¬([] : List α) < [] := List.lt_irrefl []
    have hnot : ¬n < m := by omega
    rw [Alphabet.fixed, Alphabet.fixed]
    exact iff_of_false hirrefl hnot
  | succ w ih =>
    have hquot {k : ℕ} (hk : k < A.base^(w+1)) : k/A.base < A.base^w :=
      Nat.div_lt_of_lt_mul (by rwa [← Nat.pow_succ'])
    have hn' := Nat.div_add_mod n A.base
    have hm' := Nat.div_add_mod m A.base
    have hrn := Nat.mod_lt n A.base_pos
    have hrm := Nat.mod_lt m A.base_pos
    have hlast : [A.symbol (n%A.base)] < [A.symbol (m%A.base)] ↔ n%A.base < m%A.base := by
      rw [Lexicographic.singleton_lt_iff, horder _ hrn _ hrm]
    rw [Alphabet.fixed, Alphabet.fixed,
      Lexicographic.append_lt_append_iff (by rw [A.length_fixed, A.length_fixed]),
      ih (hquot hn) (hquot hm), A.fixed_inj_iff (hquot hn) (hquot hm), hlast]
    constructor
    · rintro (hlt | ⟨heq,hlt⟩)
      · exact Nat.lt_of_div_lt_div hlt
      · rw [heq] at hn'
        omega
    · intro hlt
      rcases Nat.lt_or_eq_of_le (Nat.div_le_div_right (c := A.base) hlt.le) with hdiv | heq
      · exact Or.inl hdiv
      · rw [heq] at hn'
        exact Or.inr ⟨heq, by omega⟩

/-- Texts of the same fields are in the order of the numbers, the first field first. -/
theorem fields_lt_iff {fs : List (List α × ℕ)} {ns ms : List ℕ} (hns : A.Fit fs ns) (hms : A.Fit fs ms) :
    A.fields fs ns < A.fields fs ms ↔ ns < ms := by
  induction hns generalizing ms with
  | nil =>
    cases hms
    exact iff_of_false (List.lt_irrefl _) (List.lt_irrefl _)
  | cons hn _ ih =>
    cases hms with
    | cons hm hms =>
      have hirrefl (s : List α) : ¬s < s := List.lt_irrefl s
      rw [Alphabet.fields, Alphabet.fields, List.append_assoc, List.append_assoc,
        Lexicographic.append_lt_append_iff rfl,
        Lexicographic.append_lt_append_iff (by rw [A.length_fixed, A.length_fixed]),
        fixed_lt_iff A horder hn hm, A.fixed_inj_iff hn hm, ih hms, List.cons_lt_cons_iff,
        iff_false_intro (hirrefl _), false_or, eq_self_iff_true, true_and]

end Lex

end Radix
