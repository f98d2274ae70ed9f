import Mathlib.Data.List.Basic
import Mathlib.Order.Lattice

/-! Maps that are kept in the order of their keys, with the operations of `std::map`. The keys are compared
by what an injective function makes of them. -/

structure SortedMap {K κ : Type*} [LinearOrder κ] (key : K → κ) (V : Type*) where
  toList : List (K × V)
  sorted : toList.Pairwise (fun a b => key a.1 < key b.1)

namespace SortedMap
variable {K κ V : Type*} [LinearOrder κ] {key : K → κ} (m : SortedMap key V) {k l : K} {v : V}

@[ext] theorem ext {m n : SortedMap key V} (h : m.toList = n.toList) : m = n := by
  cases m
  cases n
  congr

def empty : SortedMap key V := ⟨[], List.Pairwise.nil⟩

/-- `find(k)` -/
def find (k : K) : Option V := (m.toList.find? (fun e => decide (key e.1 = key k))).map Prod.snd

/-- The entries on one side of `k`. -/
def below (k : K) : List (K × V) := m.toList.filter (fun e => decide (key e.1 < key k))
def above (k : K) : List (K × V) := m.toList.filter (fun e => decide (key k < key e.1))

/-- `m[k] = v` -/
def assign (k : K) (v : V) : SortedMap key V where
  toList := m.below k ++ (k, v) :: m.above k
  sorted := by
    have hbelow : ∀ e ∈ m.below k, key e.1 < key k := fun e he => of_decide_eq_true (List.mem_filter.mp he).2
    have habove : ∀ e ∈ m.above k, key k < key e.1 := fun e he => of_decide_eq_true (List.mem_filter.mp he).2
    apply List.pairwise_append.mpr
    refine ⟨m.sorted.filter _, List.pairwise_cons.mpr ⟨habove, m.sorted.filter _⟩, ?_⟩
    intro a ha b hb
    rcases List.mem_cons.mp hb with rfl | hb
    · exact hbelow a ha
    · exact lt_trans (hbelow a ha) (habove b hb)

theorem find_assign (k : K) (v : V) : (m.assign k v).find k = some v := by
  have hbelow : (m.below k).find? (fun e => decide (key e.1 = key k)) = none := by
    apply List.find?_eq_none.mpr
    intro e he
    rw [decide_eq_true_iff]
    exact ne_of_lt (of_decide_eq_true (List.mem_filter.mp he).2)
  have hhere : ((k, v) :: m.above k).find? (fun e => decide (key e.1 = key k)) = some (k, v) :=
    List.find?_cons_of_pos (decide_eq_true rfl)
  rw [find, assign, List.find?_append, hbelow, Option.none_or, hhere]
  rfl

theorem find_assign_of_ne (h : key l ≠ key k) : (m.assign k v).find l = m.find l := by
  have hside (p : K × V → Bool) (hp : ∀ e, key e.1 = key l → p e = true) :
      (m.toList.filter p).find? (fun e => decide (key e.1 = key l)) =
        m.toList.find? (fun e => decide (key e.1 = key l)) := by
    rw [List.find?_filter]
    congr 1
    funext e
    simp only [decide_eq_true_iff, decide_eq_decide]
    exact and_iff_right_of_imp (hp e)
  have hother (p : K × V → Bool) (hp : ∀ e, p e = true → key e.1 ≠ key l) :
      (m.toList.filter p).find? (fun e => decide (key e.1 = key l)) = none := by
    apply List.find?_eq_none.mpr
    intro e he
    rw [decide_eq_true_iff]
    exact hp e (List.mem_filter.mp he).2
  rw [find, find, assign, List.find?_append, List.find?_cons_of_neg (by simpa using h.symm)]
  rcases lt_or_gt_of_ne h with hlt | hgt
  · rw [below, hside _ (fun e he => decide_eq_true (he ▸ hlt)), above, hother _ (fun e he heq => ?_),
      Option.or_none]
    exact lt_asymm hlt (heq ▸ of_decide_eq_true he)
  · rw [below, hother _ (fun e he heq => ?_), Option.none_or, above,
      hside _ (fun e he => decide_eq_true (he ▸ hgt))]
    exact lt_asymm hgt (heq ▸ of_decide_eq_true he)

end SortedMap
