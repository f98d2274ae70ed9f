import Mathlib.Data.List.Basic
import Mathlib.Data.Nat.Notation

/-! Texts put one behind the other into a bounded room. Each asks for more room than it takes, and is left
out where there is less. -/
namespace BoundedText

/-- What kinds of insertions there are. -/
structure Pieces (ι α : Type*) where
  text : ι → List α
  need : ι → ℕ
  text_lt : ∀ i, (text i).length < need i

/-- A text that does not fill its room. -/
structure Text (α : Type*) (n : ℕ) where
  content : List α
  lt : content.length < n

variable {ι α : Type*} {n : ℕ}

theorem length_append_lt {s t : List α} {need : ℕ} (ht : t.length < need) (h : s.length+need ≤ n) :
    (s ++ t).length < n := by
  rw [List.length_append]
  omega

namespace Pieces
variable (P : Pieces ι α)

def add (t : Text α n) (i : ι) : Text α n :=
  if h : t.content.length+P.need i ≤ n then ⟨t.content ++ P.text i, length_append_lt (P.text_lt i) h⟩
  else t

/-- The insertions that find room. -/
def kept : Text α n → List ι → List ι
  | _, [] => []
  | t, i :: is =>
    if t.content.length+P.need i ≤ n then i :: kept (P.add t i) is else kept (P.add t i) is

variable {P} {t : Text α n}

theorem content_add_of_le {i : ι} (h : t.content.length+P.need i ≤ n) :
    (P.add t i).content = t.content ++ P.text i := by rw [add, dif_pos h]

theorem add_of_not_le {i : ι} (h : ¬t.content.length+P.need i ≤ n) : P.add t i = t := dif_neg h

variable (P) in
theorem kept_sublist (t : Text α n) (is : List ι) : (P.kept t is).Sublist is := by
  induction is generalizing t with
  | nil => exact .slnil
  | cons i is ih =>
    rw [kept]
    split
    · exact (ih _).cons_cons i
    · exact (ih _).cons i

variable (P) in
/-- The text is made of the insertions that found room, in their order. -/
theorem content_foldl (t : Text α n) (is : List ι) :
    (is.foldl P.add t).content = t.content ++ (P.kept t is).flatMap P.text := by
  induction is generalizing t with
  | nil => exact (List.append_nil _).symm
  | cons i is ih =>
    rw [List.foldl_cons, ih, kept]
    by_cases h : t.content.length+P.need i ≤ n
    · rw [if_pos h, content_add_of_le h, List.flatMap_cons, List.append_assoc]
    · rw [if_neg h, add_of_not_le h]

/-- How long the text is after one more insertion. -/
def level (P : Pieces ι α) (n len : ℕ) (i : ι) : ℕ := if len+P.need i ≤ n then len+(P.text i).length else len

variable (P) in
theorem length_foldl (t : Text α n) (is : List ι) :
    (is.foldl P.add t).content.length = is.foldl (level P n) t.content.length := by
  induction is generalizing t with
  | nil => rfl
  | cons i is ih =>
    rw [List.foldl_cons, List.foldl_cons, ih, level]
    by_cases h : t.content.length+P.need i ≤ n
    · rw [if_pos h, content_add_of_le h, List.length_append]
    · rw [if_neg h, add_of_not_le h]

/-- Every symbol of the text is one of an insertion or was there before. -/
theorem mem_content_foldl {is : List ι} {x : α} (h : x ∈ (is.foldl P.add t).content) :
    x ∈ t.content ∨ ∃ i ∈ is, x ∈ P.text i := by
  rw [content_foldl] at h
  rcases List.mem_append.mp h with h | h
  · exact Or.inl h
  · obtain ⟨i,hi,hx⟩ := List.mem_flatMap.mp h
    exact Or.inr ⟨i, (P.kept_sublist t is).mem hi, hx⟩

end Pieces
end BoundedText
