import Mathlib.Algebra.Group.Nat.Defs
import Mathlib.Data.List.Basic
import Mathlib.Data.Nat.Notation

/-! Decimal numerals as ASCII text. -/
namespace Numeral

def isDigit (b : UInt8) : Bool := 48 ≤ b && b ≤ 57

/-- What `%u` prints. -/
def decimal (n : ℕ) : List UInt8 := (Nat.toDigits 10 n).map (fun c => UInt8.ofNat c.toNat)

/-- The number that a string of digits denotes. -/
def value (ds : List UInt8) : ℕ := ds.foldl (fun v b => 10*v+(b.toNat-48)) 0

theorem toNat_of_isDigit {c : Char} (h : c.isDigit = true) :
    48 ≤ c.toNat ∧ c.toNat ≤ 57 ∧ (UInt8.ofNat c.toNat).toNat = c.toNat := by
  obtain ⟨h1,h2⟩ := Bool.and_eq_true_iff.mp h
  have hlo : 48 ≤ c.toNat := UInt32.le_iff_toNat_le.mp (of_decide_eq_true h1)
  have hhi : c.toNat ≤ 57 := UInt32.le_iff_toNat_le.mp (of_decide_eq_true h2)
  refine ⟨hlo, hhi, ?_⟩
  rw [UInt8.toNat_ofNat']
  omega

theorem isDigit_of_mem_decimal {n : ℕ} {b : UInt8} (h : b ∈ decimal n) : isDigit b = true := by
  obtain ⟨c,hc,rfl⟩ := List.mem_map.mp h
  have hd := Nat.isDigit_of_mem_toDigits (by decide) (by decide) hc
  obtain ⟨hlo,hhi,hn⟩ := toNat_of_isDigit hd
  rw [isDigit, Bool.and_eq_true_iff, decide_eq_true_iff, decide_eq_true_iff,
    UInt8.le_iff_toNat_le, UInt8.le_iff_toNat_le, hn]
  exact ⟨hlo, hhi⟩

theorem decimal_ne_nil (n : ℕ) : decimal n ≠ [] := by
  intro h
  exact Nat.toDigits_ne_nil (List.map_eq_nil_iff.mp h)

/-- A number below `10^k` has at most `k` digits. -/
theorem length_decimal_le {n k : ℕ} (hk : 0 < k) (hn : n < 10^k) : (decimal n).length ≤ k := by
  rw [decimal, List.length_map]
  exact (Nat.length_toDigits_le_iff (by decide) hk).mpr hn

theorem value_decimal (n : ℕ) : value (decimal n) = n := by
  have hfold (cs : List Char) (hcs : ∀ c ∈ cs, c.isDigit = true) (v : ℕ) :
      (cs.map (fun c => UInt8.ofNat c.toNat)).foldl (fun v b => 10*v+(b.toNat-48)) v =
        Nat.ofDigitChars 10 cs v := by
    induction cs generalizing v with
    | nil => rfl
    | cons c cs ih =>
      obtain ⟨_,_,hc⟩ := toNat_of_isDigit (hcs c List.mem_cons_self)
      rw [List.map_cons, List.foldl_cons, Nat.ofDigitChars_cons, hc]
      exact ih (fun d hd => hcs d (List.mem_cons_of_mem _ hd)) _
  rw [value, decimal, hfold _ (fun c hc => Nat.isDigit_of_mem_toDigits (by decide) (by decide) hc)]
  exact Nat.ofDigitChars_ten_toDigits

/-- A run of symbols of one kind ends where a symbol of another kind stands. -/
theorem takeWhile_exact {p : UInt8 → Bool} {tok rest : List UInt8} (hin : ∀ b ∈ tok, p b = true)
    (hout : ∀ b ∈ rest.head?, p b = false) :
    (tok ++ rest).takeWhile p = tok ∧ (tok ++ rest).dropWhile p = rest := by
  rw [List.takeWhile_append_of_pos hin, List.dropWhile_append_of_pos hin]
  cases rest with
  | nil => simp
  | cons b rest =>
    have hb := hout b rfl
    rw [List.takeWhile_cons_of_neg (by rw [hb]; decide),
      List.dropWhile_cons_of_neg (by rw [hb]; decide), List.append_nil]
    exact ⟨rfl, rfl⟩

/-- A numeral is read up to the first symbol that is no digit. -/
theorem takeWhile_decimal (n : ℕ) (rest : List UInt8) (h : ∀ b ∈ rest.head?, isDigit b = false) :
    (decimal n ++ rest).takeWhile isDigit = decimal n ∧
      (decimal n ++ rest).dropWhile isDigit = rest :=
  takeWhile_exact (fun _ => isDigit_of_mem_decimal) h

end Numeral
