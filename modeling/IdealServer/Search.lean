import Mathlib.Data.List.Infix
import Mathlib.Data.Nat.Notation
import Mathlib.Tactic.Common

/-! Positions of a pattern in a list: the first occurrence and the last one. -/
namespace Search

variable {α : Type*} [DecidableEq α]

/-- Where the pattern first occurs. -/
def search (pat : List α) : List α → Option ℕ
  | [] => if pat = [] then some 0 else none
  | x :: xs => if pat <+: x :: xs then some 0 else (search pat xs).map (·+1)

/-- Where the pattern last occurs. -/
def findEnd (pat : List α) : List α → Option ℕ
  | [] => if pat = [] then some 0 else none
  | x :: xs =>
    match findEnd pat xs with
    | some n => some (n+1)
    | none => if pat <+: x :: xs then some 0 else none

section Positions
variable {pat xs ys : List α} {n : ℕ}

theorem search_eq_some (h : search pat xs = some n) : pat <+: xs.drop n := by
  induction xs generalizing n with
  | nil =>
    rw [search] at h
    split at h
    case isTrue hp =>
      rw [hp]
      exact List.nil_prefix
    case isFalse => contradiction
  | cons x xs ih =>
    rw [search] at h
    split at h
    case isTrue hp =>
      obtain rfl := Option.some.inj h
      exact hp
    case isFalse =>
      obtain ⟨m,hm,rfl⟩ := Option.map_eq_some_iff.mp h
      exact ih hm

theorem findEnd_eq_some (h : findEnd pat xs = some n) : pat <+: xs.drop n := by
  induction xs generalizing n with
  | nil =>
    rw [findEnd] at h
    split at h
    case isTrue hp =>
      rw [hp]
      exact List.nil_prefix
    case isFalse => contradiction
  | cons x xs ih =>
    rw [findEnd] at h
    split at h
    case h_1 m hm =>
      obtain rfl := Option.some.inj h
      exact ih hm
    case h_2 =>
      split at h
      case isTrue hp =>
        obtain rfl := Option.some.inj h
        exact hp
      case isFalse => contradiction

theorem search_eq_none : search pat xs = none ↔ ¬ pat <:+: xs := by
  induction xs with
  | nil =>
    rw [search, List.infix_nil]
    split
    case isTrue hp => exact ⟨fun h => by contradiction, fun h => absurd hp h⟩
    case isFalse hp => exact ⟨fun _ => hp, fun _ => rfl⟩
  | cons x xs ih =>
    rw [search, List.infix_cons_iff, not_or]
    split
    case isTrue hp => exact ⟨fun h => by contradiction, fun h => absurd hp h.1⟩
    case isFalse hp =>
      rw [Option.map_eq_none_iff, ih]
      exact ⟨fun h => ⟨hp, h⟩, fun h => h.2⟩

theorem findEnd_eq_none : findEnd pat xs = none ↔ ¬ pat <:+: xs := by
  induction xs with
  | nil =>
    rw [findEnd, List.infix_nil]
    split
    case isTrue hp => exact ⟨fun h => by contradiction, fun h => absurd hp h⟩
    case isFalse hp => exact ⟨fun _ => hp, fun _ => rfl⟩
  | cons x xs ih =>
    rw [findEnd, List.infix_cons_iff, not_or]
    split
    case h_1 m hm =>
      constructor
      · intro h
        contradiction
      · intro h
        rw [ih.mpr h.2] at hm
        contradiction
    case h_2 hn =>
      split
      case isTrue hp => exact ⟨fun h => by contradiction, fun h => absurd hp h.1⟩
      case isFalse hp => exact ⟨fun _ => ⟨hp, ih.mp hn⟩, fun _ => rfl⟩

/-- Symbols at which the pattern does not begin are skipped. -/
theorem search_append (h : ∀ m < xs.length, ¬ pat <+: (xs ++ ys).drop m) :
    search pat (xs ++ ys) = (search pat ys).map (·+xs.length) := by
  induction xs with
  | nil => simp
  | cons x xs ih =>
    have h0 : ¬ pat <+: x :: (xs ++ ys) := h 0 (by simp)
    have hrest : ∀ m < xs.length, ¬ pat <+: (xs ++ ys).drop m := by
      intro m hm
      have hs := h (m+1) (by simpa using hm)
      rwa [List.cons_append, List.drop_succ_cons] at hs
    rw [List.cons_append, search, if_neg h0, ih hrest, Option.map_map]
    rfl

theorem search_here (h : pat <+: xs) : search pat xs = some 0 := by
  cases xs with
  | nil => rw [search, if_pos (List.prefix_nil.mp h)]
  | cons x xs => rw [search, if_pos h]

/-- The first occurrence is the one in front of which there is none. -/
theorem search_eq (h : pat <+: xs.drop n) (hn : n ≤ xs.length)
    (hm : ∀ m < n, ¬ pat <+: xs.drop m) : search pat xs = some n := by
  have hsplit : search pat (xs.take n ++ xs.drop n) =
      (search pat (xs.drop n)).map (·+(xs.take n).length) := by
    apply search_append
    intro m hlt
    rw [List.take_append_drop]
    rw [List.length_take] at hlt
    exact hm m (by omega)
  rw [List.take_append_drop, search_here h, Option.map_some, List.length_take,
    Nat.min_eq_left hn, Nat.zero_add] at hsplit
  exact hsplit

/-- What follows does not move the first occurrence. -/
theorem search_append_some (h : search pat xs = some n) : search pat (xs ++ ys) = some n := by
  induction xs generalizing n with
  | nil =>
    rw [search] at h
    split at h
    case isTrue hp =>
      rw [hp, search_here List.nil_prefix]
      exact h
    case isFalse => contradiction
  | cons x xs ih =>
    rw [search] at h
    split at h
    case isTrue hp =>
      rw [search_here (hp.trans (List.prefix_append _ _))]
      exact h
    case isFalse hp =>
      obtain ⟨m,hm,rfl⟩ := Option.map_eq_some_iff.mp h
      -- an occurrence further on fits into the list, so one in front of it would fit as well
      have hfits : pat.length ≤ (x :: xs).length := by
        have hlen := (search_eq_some hm).length_le
        rw [List.length_drop] at hlen
        rw [List.length_cons]
        omega
      have hhere : ¬ pat <+: x :: (xs ++ ys) := by
        intro hpre
        exact hp (List.prefix_of_prefix_length_le hpre (List.prefix_append (x :: xs) ys) hfits)
      rw [List.cons_append, search, if_neg hhere, ih hm]
      rfl

/-- Behind its last occurrence the pattern does not occur. -/
theorem findEnd_append {n : ℕ} (h : findEnd pat ys = some n) :
    findEnd pat (xs ++ ys) = some (xs.length+n) := by
  induction xs with
  | nil => simpa using h
  | cons x xs ih =>
    have hlen : xs.length+n+1 = (x :: xs).length+n := by
      rw [List.length_cons]
      omega
    rw [List.cons_append, findEnd, ih, ← hlen]

end Positions

end Search
