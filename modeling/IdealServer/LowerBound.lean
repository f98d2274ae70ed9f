import Mathlib.Data.List.Basic
import Mathlib.Order.Lattice

/-! Binary search for the first element that is not below a key, in lists that need not be in order, and
the last element up to a key in those that are. -/
namespace LowerBound

variable {α : Type*}

/-- Half of the `len` elements from `first` on is cut off in every round. -/
def search (below : α → Bool) (xs : List α) : ℕ → ℕ → ℕ → ℕ
  | 0, first, _ => first
  | fuel+1, first, len =>
    if len = 0 then first
    else match xs[first+len/2]? with
      | some x =>
        if below x then search below xs fuel (first+len/2+1) (len-len/2-1)
        else search below xs fuel first (len/2)
      | none => first

def lowerBound (below : α → Bool) (xs : List α) : ℕ := search below xs xs.length 0 xs.length

/-- What the search has seen next to its result, in any list. -/
theorem search_spec (below : α → Bool) (xs : List α) {fuel first len : ℕ} (hfuel : len ≤ fuel)
    (hlen : first+len ≤ xs.length) :
    first ≤ search below xs fuel first len ∧ search below xs fuel first len ≤ first+len ∧
    (first < search below xs fuel first len →
      ∃ x, xs[search below xs fuel first len-1]? = some x ∧ below x = true) ∧
    (search below xs fuel first len < first+len →
      ∃ x, xs[search below xs fuel first len]? = some x ∧ below x = false) := by
  induction fuel generalizing first len with
  | zero =>
    rw [search]
    refine ⟨Nat.le_refl _, by omega, ?_, ?_⟩
    · intro h
      omega
    · intro h
      omega
  | succ fuel ih =>
    rw [search]
    by_cases hempty : len = 0
    · rw [if_pos hempty]
      refine ⟨Nat.le_refl _, by omega, ?_, ?_⟩
      · intro h
        omega
      · intro h
        omega
    · have hmiddle : first+len/2 < xs.length := by omega
      rw [if_neg hempty, List.getElem?_eq_getElem hmiddle]
      dsimp only
      by_cases hbelow : below xs[first+len/2] = true
      · rw [if_pos hbelow]
        obtain ⟨hge,hle,hbefore,hafter⟩ := ih (show len-len/2-1 ≤ fuel by omega)
          (show first+len/2+1+(len-len/2-1) ≤ xs.length by omega)
        refine ⟨by omega, by omega, ?_, ?_⟩
        · intro _
          -- the result is next to the middle, or the rest of the search has moved it
          by_cases hmoved : first+len/2+1 < search below xs fuel (first+len/2+1) (len-len/2-1)
          · exact hbefore hmoved
          · have hsame : search below xs fuel (first+len/2+1) (len-len/2-1) = first+len/2+1 := by omega
            rw [hsame, Nat.add_sub_cancel]
            exact ⟨_, List.getElem?_eq_getElem hmiddle, hbelow⟩
        · intro h
          exact hafter (by omega)
      · rw [if_neg hbelow]
        obtain ⟨hge,hle,hbefore,hafter⟩ := ih (show len/2 ≤ fuel by omega)
          (show first+len/2 ≤ xs.length by omega)
        refine ⟨hge, by omega, hbefore, ?_⟩
        intro h
        by_cases hmoved : search below xs fuel first (len/2) < first+len/2
        · exact hafter hmoved
        · have hsame : search below xs fuel first (len/2) = first+len/2 := by omega
          rw [hsame]
          exact ⟨_, List.getElem?_eq_getElem hmiddle, Bool.not_eq_true _ ▸ hbelow⟩

theorem lowerBound_le (below : α → Bool) (xs : List α) : lowerBound below xs ≤ xs.length := by
  have hspec := search_spec below xs (Nat.le_refl xs.length) (Nat.le_of_eq (Nat.zero_add _))
  rw [lowerBound]
  omega

/-- In front of the result is an element below the key. -/
theorem below_of_pos {below : α → Bool} {xs : List α} (h : 0 < lowerBound below xs) :
    ∃ x, xs[lowerBound below xs-1]? = some x ∧ below x = true :=
  (search_spec below xs (Nat.le_refl xs.length) (Nat.le_of_eq (Nat.zero_add _))).2.2.1 h

/-- The element at the result is not below the key. -/
theorem not_below_of_getElem? {below : α → Bool} {xs : List α} {x : α}
    (h : xs[lowerBound below xs]? = some x) : below x = false := by
  have hlt : lowerBound below xs < xs.length := (List.getElem?_eq_some_iff.mp h).1
  obtain ⟨y,hy,hfalse⟩ := (search_spec below xs (Nat.le_refl xs.length)
    (Nat.le_of_eq (Nat.zero_add _))).2.2.2 (by rw [← lowerBound]; omega)
  rw [Option.some.inj (h.symm.trans hy)]
  exact hfalse

section Sorted
variable {β : Type*} [LinearOrder β] (key : α → β) (x : β)

/-- The last element whose key is at most `x`. -/
def lastUpTo (xs : List α) : Option α := (xs.filter (fun a => decide (key a ≤ x))).getLast?

variable {key x} {xs : List α}

theorem lastUpTo_mem {a : α} (h : lastUpTo key x xs = some a) : a ∈ xs ∧ key a ≤ x := by
  have hmem := List.mem_of_getLast? h
  rw [List.mem_filter] at hmem
  exact ⟨hmem.1, of_decide_eq_true hmem.2⟩

/-- Sorted lists are cut in two by the key. -/
theorem lastUpTo_eq (hsorted : xs.Pairwise (fun a b => key a < key b)) {r : ℕ} (hr : r ≤ xs.length)
    (hbelow : ∀ a, 0 < r → xs[r-1]? = some a → key a ≤ x) (habove : ∀ a, xs[r]? = some a → x < key a) :
    lastUpTo key x xs = (xs.take r).getLast? := by
  have htake : (xs.take r).filter (fun a => decide (key a ≤ x)) = xs.take r := by
    apply List.filter_eq_self.mpr
    intro a ha
    apply decide_eq_true
    obtain ⟨i,hi,rfl⟩ := List.mem_take_iff_getElem.mp ha
    have hlast := hbelow xs[r-1] (by omega) (List.getElem?_eq_getElem (by omega))
    by_cases hsame : i = r-1
    · simpa only [hsame] using hlast
    · have hlt := List.pairwise_iff_getElem.mp hsorted i (r-1) (by omega) (by omega) (by omega)
      exact le_trans (le_of_lt hlt) hlast
  have hdrop : (xs.drop r).filter (fun a => decide (key a ≤ x)) = [] := by
    apply List.filter_eq_nil_iff.mpr
    intro a ha hle
    have hle : key a ≤ x := of_decide_eq_true hle
    obtain ⟨i,hi,rfl⟩ := List.mem_drop_iff_getElem.mp ha
    have hfirst := habove xs[r] (List.getElem?_eq_getElem (by omega))
    by_cases hsame : i = 0
    · simp only [hsame, Nat.add_zero] at hle
      exact absurd hfirst (not_lt_of_ge hle)
    · have hlt := List.pairwise_iff_getElem.mp hsorted r (r+i) (by omega) (by omega) (by omega)
      exact absurd (lt_trans hfirst hlt) (not_lt_of_ge hle)
  calc
    _ = ((xs.take r ++ xs.drop r).filter (fun a => decide (key a ≤ x))).getLast? := by
      rw [List.take_append_drop, lastUpTo]
    _ = _ := by rw [List.filter_append, htake, hdrop, List.append_nil]

/-- Before the first key nothing is found. -/
theorem lastUpTo_eq_none (hsorted : xs.Pairwise (fun a b => key a < key b)) {a : α}
    (h : xs[0]? = some a) (hlt : x < key a) : lastUpTo key x xs = none := by
  have hcut := lastUpTo_eq (x := x) hsorted (Nat.zero_le _) (fun b hpos => absurd hpos (Nat.lt_irrefl 0))
    (by
      intro b hb
      rw [← Option.some.inj (h.symm.trans hb)]
      exact hlt)
  rwa [List.take_zero] at hcut

/-- The element at position `i` is the last one, where the next one has a greater key. -/
theorem lastUpTo_eq_some (hsorted : xs.Pairwise (fun a b => key a < key b)) {i : ℕ} {a : α}
    (h : xs[i]? = some a) (hle : key a ≤ x) (habove : ∀ b, xs[i+1]? = some b → x < key b) :
    lastUpTo key x xs = some a := by
  have hi : i < xs.length := (List.getElem?_eq_some_iff.mp h).1
  have hcut := lastUpTo_eq (x := x) (r := i+1) hsorted hi
    (by
      intro b _ hb
      rw [Nat.add_sub_cancel] at hb
      rw [← Option.some.inj (h.symm.trans hb)]
      exact hle) habove
  rw [hcut, List.getLast?_take, if_neg (Nat.succ_ne_zero i), Nat.add_sub_cancel, h]
  rfl

/-- No element up to the key is behind the last one. -/
theorem exists_lastUpTo (hsorted : xs.Pairwise (fun a b => key a < key b)) {a : α} (ha : a ∈ xs)
    (hle : key a ≤ x) : ∃ b, lastUpTo key x xs = some b ∧ key a ≤ key b := by
  have hmem : a ∈ xs.filter (fun a => decide (key a ≤ x)) := List.mem_filter.mpr ⟨ha, decide_eq_true hle⟩
  have hne := List.ne_nil_of_mem hmem
  refine ⟨_, List.getLast?_eq_some_getLast hne, ?_⟩
  obtain ⟨i,hi,rfl⟩ := List.getElem_of_mem hmem
  rw [List.getLast_eq_getElem]
  by_cases hlast : i = (xs.filter (fun a => decide (key a ≤ x))).length-1
  · simp only [← hlast, le_refl]
  · have hfiltered := hsorted.filter (fun a => decide (key a ≤ x))
    exact le_of_lt (List.pairwise_iff_getElem.mp hfiltered i _ hi (by omega) (by omega))

end Sorted

end LowerBound
