import Mathlib.Data.List.Sort
import Mathlib.Data.List.TakeWhile

/-! Sets that are kept in order, with the operations of `std::set`. -/

structure OrderedSet (α : Type*) [LinearOrder α] where
  toList : List α
  sorted : toList.Pairwise (· < ·)

namespace OrderedSet
variable {α : Type*} [LinearOrder α] {s : OrderedSet α} {a b : α}

def empty : OrderedSet α := ⟨[], List.Pairwise.nil⟩

instance : Membership α (OrderedSet α) := ⟨fun s a => a ∈ s.toList⟩

instance (a : α) (s : OrderedSet α) : Decidable (a ∈ s) := inferInstanceAs (Decidable (a ∈ s.toList))

def size (s : OrderedSet α) : ℕ := s.toList.length

/-- `*begin()` of a set that is not empty. -/
def first (s : OrderedSet α) : Option α := s.toList.head?

/-- The elements in front of `upper_bound(a)`. -/
def upTo (s : OrderedSet α) (a : α) : List α := s.toList.takeWhile (fun b => decide (b ≤ a))

/-- The set without them. -/
def above (s : OrderedSet α) (a : α) : OrderedSet α :=
  ⟨s.toList.dropWhile (fun b => decide (b ≤ a)), s.sorted.sublist (List.dropWhile_sublist _)⟩

theorem sorted_orderedInsert (h : a ∉ s) : (s.toList.orderedInsert (· ≤ ·) a).Pairwise (· < ·) := by
  have hle : (s.toList.orderedInsert (· ≤ ·) a).Pairwise (· ≤ ·) :=
    List.Pairwise.orderedInsert a s.toList (s.sorted.imp le_of_lt)
  have hnodup : (s.toList.orderedInsert (· ≤ ·) a).Nodup := by
    rw [(List.perm_orderedInsert (· ≤ ·) a s.toList).nodup_iff, List.nodup_cons]
    exact ⟨h, s.sorted.imp ne_of_lt⟩
  apply (hle.and hnodup).imp
  intro b c hbc
  exact lt_of_le_of_ne hbc.1 hbc.2

/-- The set, and whether the element is new. -/
def insert (s : OrderedSet α) (a : α) : OrderedSet α × Bool :=
  if h : a ∈ s then (s, false)
  else (⟨s.toList.orderedInsert (· ≤ ·) a, sorted_orderedInsert h⟩, true)

/-- The set, and how many elements have been removed. -/
def erase (s : OrderedSet α) (a : α) : OrderedSet α × ℕ :=
  (⟨s.toList.erase a, s.sorted.sublist List.erase_sublist⟩, if a ∈ s then 1 else 0)

theorem nodup (s : OrderedSet α) : s.toList.Nodup := s.sorted.imp ne_of_lt

@[simp] theorem not_mem_empty : a ∉ (empty : OrderedSet α) := List.not_mem_nil

theorem mem_insert : b ∈ (s.insert a).1 ↔ b = a ∨ b ∈ s := by
  unfold insert
  split
  case isTrue h => exact ⟨Or.inr, fun hb => hb.elim (fun hba => hba ▸ h) id⟩
  case isFalse h => exact List.mem_orderedInsert _

theorem insert_new (h : a ∉ s) : (s.insert a).2 = true ∧ (s.insert a).1.size = s.size+1 := by
  unfold insert
  rw [dif_neg h]
  exact ⟨rfl, List.orderedInsert_length _ _ _⟩

theorem mem_erase : b ∈ (s.erase a).1 ↔ b ≠ a ∧ b ∈ s := s.nodup.mem_erase_iff

theorem erase_mem (h : a ∈ s) : (s.erase a).2 = 1 ∧ (s.erase a).1.size+1 = s.size := by
  refine ⟨if_pos h, ?_⟩
  have hlength : (s.toList.erase a).length+1 = s.toList.length := List.length_erase_add_one h
  exact hlength

theorem first_eq_none : s.first = none ↔ ∀ a, a ∉ s := by
  unfold first
  rw [List.head?_eq_none_iff]
  exact List.eq_nil_iff_forall_not_mem

theorem first_mem (h : s.first = some a) : a ∈ s := List.mem_of_mem_head? h

theorem first_le (h : s.first = some a) (hb : b ∈ s) : a ≤ b := by
  obtain ⟨l,hl⟩ : ∃ l, s.toList = a :: l := by
    cases hlist : s.toList with
    | nil =>
      rw [first, hlist] at h
      cases h
    | cons c l =>
      rw [first, hlist] at h
      exact ⟨l, by rw [Option.some.inj h]⟩
  have hsorted := s.sorted
  rw [hl, List.pairwise_cons] at hsorted
  have hmem : b ∈ s.toList := hb
  rw [hl] at hmem
  rcases List.mem_cons.mp hmem with rfl | hmem
  · exact le_refl b
  · exact le_of_lt (hsorted.1 b hmem)

theorem upTo_append_above (s : OrderedSet α) (a : α) : s.upTo a ++ (s.above a).toList = s.toList :=
  List.takeWhile_append_dropWhile

theorem size_above (s : OrderedSet α) (a : α) : (s.upTo a).length+(s.above a).size = s.size := by
  have h := congrArg List.length (s.upTo_append_above a)
  rw [List.length_append] at h
  exact h

theorem sorted_upTo (s : OrderedSet α) (a : α) : (s.upTo a).Pairwise (· < ·) :=
  s.sorted.sublist (List.takeWhile_sublist _)

theorem le_of_mem_upTo (h : b ∈ s.upTo a) : b ≤ a := by
  have hb : decide (b ≤ a) = true := by
    unfold upTo at h
    exact List.mem_takeWhile_imp (p := fun b => decide (b ≤ a)) h
  exact of_decide_eq_true hb

/-- What comes after `upper_bound` is greater, because the set is sorted. -/
theorem lt_of_mem_above (h : b ∈ s.above a) : a < b := by
  cases hrest : (s.above a).toList with
  | nil =>
    have hmem : b ∈ (s.above a).toList := h
    rw [hrest] at hmem
    cases hmem
  | cons c l =>
    have hc : a < c := by
      have hhead := List.head?_dropWhile_not (fun b => decide (b ≤ a)) s.toList
      have hfirst : (s.toList.dropWhile (fun b => decide (b ≤ a))).head? = some c := by
        show (s.above a).toList.head? = some c
        rw [hrest]
        rfl
      rw [hfirst] at hhead
      exact not_le.mp (of_decide_eq_false hhead)
    exact lt_of_lt_of_le hc (first_le (show (s.above a).first = some c by rw [first, hrest]; rfl) h)

theorem mem_upTo : b ∈ s.upTo a ↔ b ∈ s ∧ b ≤ a := by
  constructor
  · intro h
    exact ⟨(List.takeWhile_sublist _).subset h, le_of_mem_upTo h⟩
  · rintro ⟨hb,hle⟩
    have hmem : b ∈ s.toList := hb
    rw [← s.upTo_append_above a] at hmem
    rcases List.mem_append.mp hmem with h | h
    · exact h
    · exact absurd hle (not_le.mpr (lt_of_mem_above h))

theorem mem_above : b ∈ s.above a ↔ b ∈ s ∧ a < b := by
  constructor
  · intro h
    exact ⟨(List.dropWhile_sublist _).subset h, lt_of_mem_above h⟩
  · rintro ⟨hb,hlt⟩
    have hmem : b ∈ s.toList := hb
    rw [← s.upTo_append_above a] at hmem
    rcases List.mem_append.mp hmem with h | h
    · exact absurd hlt (not_lt.mpr (le_of_mem_upTo h))
    · exact h

end OrderedSet
