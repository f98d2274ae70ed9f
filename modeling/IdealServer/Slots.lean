import Mathlib.Data.List.Count
import Mathlib.Data.List.Basic

/-! Tables of slots with owners. A new owner gets the lowest slot that is free. -/
namespace Slots

variable {α : Type*}

/-- A slot outside the table has no owner. -/
def owner (t : List (Option α)) (i : ℕ) : Option α := t[i]?.join

def release (t : List (Option α)) (i : ℕ) : List (Option α) := t.set i none

/-- The slot gets another owner. -/
def transfer (t : List (Option α)) (i : ℕ) (a : α) : List (Option α) := t.set i (some a)

theorem lt_of_owner {t : List (Option α)} {i : ℕ} {a : α} (h : owner t i = some a) : ∃ hlt : i < t.length,
    t[i] = some a := by
  by_cases hlt : i < t.length
  · rw [owner, List.getElem?_eq_getElem hlt] at h
    exact ⟨hlt, h⟩
  · rw [owner, List.getElem?_eq_none (by omega)] at h
    cases h

theorem owner_release (t : List (Option α)) (i j : ℕ) :
    owner (release t i) j = if j = i then none else owner t j := by
  rw [owner, owner, release, List.getElem?_set]
  by_cases hj : i = j
  · rw [if_pos hj, if_pos hj.symm]
    split
    · rfl
    · rfl
  · rw [if_neg hj, if_neg (Ne.symm hj)]

theorem owner_transfer {t : List (Option α)} {i : ℕ} {b : α} (h : owner t i = some b) (a : α) (j : ℕ) :
    owner (transfer t i a) j = if j = i then some a else owner t j := by
  obtain ⟨hlt,_⟩ := lt_of_owner h
  rw [owner, owner, transfer, List.getElem?_set]
  by_cases hj : i = j
  · rw [if_pos hj, if_pos (hj ▸ hlt), if_pos hj.symm]
    rfl
  · rw [if_neg hj, if_neg (Ne.symm hj)]

variable [DecidableEq α]

def allocate (t : List (Option α)) (a : α) : Option (ℕ × List (Option α)) :=
  if none ∈ t then some (t.idxOf none, t.set (t.idxOf none) (some a)) else none

def free (t : List (Option α)) : ℕ := t.count none

variable {t t' : List (Option α)} {a b : α} {i : ℕ}

theorem allocate_eq_none : allocate t a = none ↔ free t = 0 := by
  rw [allocate, free, List.count_eq_zero]
  split
  case isTrue h => exact iff_of_false (by simp only [reduceCtorEq, not_false_eq_true]) (not_not.mpr h)
  case isFalse h => exact iff_of_true rfl h

theorem exists_allocate (a : α) (h : 0 < free t) : ∃ i t', allocate t a = some (i, t') := by
  cases hr : allocate t a with
  | none =>
    rw [allocate_eq_none] at hr
    omega
  | some r => exact ⟨r.1, r.2, rfl⟩

/-- The slot was free, and nothing else changes. -/
theorem allocate_owner (h : allocate t a = some (i, t')) :
    owner t i = none ∧ ∀ j, owner t' j = if j = i then some a else owner t j := by
  rw [allocate] at h
  split at h
  case isTrue hm =>
    obtain ⟨rfl,rfl⟩ := Prod.mk.inj (Option.some.inj h)
    have hlt : t.idxOf none < t.length := List.idxOf_lt_length_of_mem hm
    refine ⟨?_, ?_⟩
    · rw [owner, List.getElem?_eq_getElem hlt, List.getElem_idxOf hlt]
      rfl
    · intro j
      rw [owner, owner, List.getElem?_set]
      by_cases hj : t.idxOf none = j
      · rw [if_pos hj, if_pos (hj ▸ hlt), if_pos hj.symm]
        rfl
      · rw [if_neg hj, if_neg (Ne.symm hj)]
  case isFalse => contradiction

theorem allocate_free (h : allocate t a = some (i, t')) : free t' + 1 = free t := by
  rw [allocate] at h
  split at h
  case isTrue hm =>
    obtain ⟨rfl,rfl⟩ := Prod.mk.inj (Option.some.inj h)
    have hlt : t.idxOf none < t.length := List.idxOf_lt_length_of_mem hm
    have hpos : 0 < t.count none := List.count_pos_iff.mpr hm
    rw [free, free, List.count_set hlt, List.getElem_idxOf hlt]
    simp only [BEq.rfl, if_true, reduceCtorEq, beq_iff_eq, if_false]
    omega
  case isFalse => contradiction

theorem free_release (h : owner t i = some a) : free (release t i) = free t+1 := by
  obtain ⟨hlt,hi⟩ := lt_of_owner h
  rw [free, free, release, List.count_set hlt, hi]
  simp only [reduceCtorEq, beq_iff_eq, if_false, if_true, BEq.rfl, Nat.sub_zero]

theorem free_le_free_release (t : List (Option α)) (i : ℕ) : free t ≤ free (release t i) := by
  cases ho : owner t i with
  | some a =>
    rw [free_release ho]
    exact Nat.le_succ _
  | none =>
    by_cases hlt : i < t.length
    · rw [free, free, release, List.count_set hlt]
      simp only [BEq.rfl, if_true]
      split
      · omega
      · omega
    · exact Nat.le_of_eq (by rw [release, List.set_eq_of_length_le (by omega)])

theorem free_transfer (h : owner t i = some b) (a : α) : free (transfer t i a) = free t := by
  obtain ⟨hlt,hi⟩ := lt_of_owner h
  rw [free, free, transfer, List.count_set hlt, hi]
  simp only [reduceCtorEq, beq_iff_eq, if_false, Nat.sub_zero, Nat.add_zero]

end Slots
