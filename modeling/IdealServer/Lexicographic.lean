import Mathlib.Data.List.Infix
import Mathlib.Tactic.Common

/-! The lexicographic order of lists, and what the parts in front say about it. -/
namespace Lexicographic

variable {α : Type*}

theorem eq_iff_take (x y : List α) : x = y ↔
    x.take (min x.length y.length) = y.take (min x.length y.length) ∧ x.length = y.length := by
  constructor
  · rintro rfl
    exact ⟨rfl, rfl⟩
  · intro ⟨htake,hlen⟩
    rwa [← hlen, Nat.min_self, List.take_length, hlen, List.take_length] at htake

variable [LT α]

/-- Behind the length of the shorter text only the lengths are left to compare. -/
theorem drop_lt_drop_iff (x y : List α) : x.drop (min x.length y.length) < y.drop (min x.length y.length) ↔
    x.length < y.length := by
  rcases Nat.lt_or_ge x.length y.length with hlt | hle
  · have hx : x.drop (min x.length y.length) = [] := List.drop_of_length_le (by omega)
    have hy : y.drop (min x.length y.length) ≠ [] := by
      rw [Ne, List.drop_eq_nil_iff]
      omega
    obtain ⟨c,t,ht⟩ := List.exists_cons_of_ne_nil hy
    rw [hx, ht]
    exact iff_of_true (List.nil_lt_cons c t) hlt
  · have hy : y.drop (min x.length y.length) = [] := List.drop_of_length_le (by omega)
    rw [hy]
    exact iff_of_false (List.not_lt_nil _) (Nat.not_lt.mpr hle)

variable [Std.Irrefl (fun a b : α => a < b)]

/-- Texts that begin with parts of one length are compared part by part. -/
theorem append_lt_append_iff {a b x y : List α} (h : a.length = b.length) :
    a ++ x < b ++ y ↔ a < b ∨ a = b ∧ x < y := by
  induction a generalizing b with
  | nil =>
    rw [List.length_eq_zero_iff.mp h.symm]
    simp only [List.nil_append, true_and, List.lt_irrefl, false_or]
  | cons c a ih =>
    cases b with
    | nil => cases h
    | cons d b =>
      have htail := ih (Nat.succ.inj h)
      simp only [List.cons_append, List.cons_lt_cons_iff, htail, List.cons.injEq]
      tauto

theorem singleton_lt_iff {a b : α} : [a] < [b] ↔ a < b := by
  have hirrefl : ¬([] : List α) < [] := List.lt_irrefl []
  rw [List.cons_lt_cons_iff, iff_false_intro hirrefl, and_false, or_false]

/-- Two texts are compared as far as both go, and then by their lengths. -/
theorem lt_iff_take (x y : List α) : x < y ↔
    x.take (min x.length y.length) < y.take (min x.length y.length) ∨
      x.take (min x.length y.length) = y.take (min x.length y.length) ∧ x.length < y.length := by
  have hlen : (x.take (min x.length y.length)).length = (y.take (min x.length y.length)).length := by
    rw [List.length_take, List.length_take]
    omega
  have happend := append_lt_append_iff (x := x.drop (min x.length y.length))
    (y := y.drop (min x.length y.length)) hlen
  rwa [List.take_append_drop, List.take_append_drop, drop_lt_drop_iff] at happend

end Lexicographic
