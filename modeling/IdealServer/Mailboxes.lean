import Mathlib.Data.List.Count
import Mathlib.Data.List.Pairwise
import Mathlib.Logic.Function.Basic

/-! Mailboxes of several receivers, and how many copies of a message wait in the mailbox to which it
belongs. -/
namespace Mailboxes

variable {ι μ : Type*} [DecidableEq ι]

/-- A message at the end of a mailbox. -/
def post (q : ι → List μ) (l : ι) (f : μ) : ι → List μ := Function.update q l (q l ++ [f])

/-- A message at the front of a mailbox. -/
def putBack (q : ι → List μ) (l : ι) (f : μ) : ι → List μ := Function.update q l (f :: q l)

def waiting [DecidableEq μ] (home : μ → ι) (q : ι → List μ) (f : μ) : ℕ := (q (home f)).count f

/-- A later message never stands before an earlier one. -/
def InOrder (before : μ → μ → Prop) (q : ι → List μ) : Prop := ∀ l, (q l).Pairwise before

section Membership
variable {q : ι → List μ} {l m : ι} {f g : μ}

theorem mem_post (h : g ∈ post q l f m) : g ∈ q m ∨ (m = l ∧ g = f) := by
  unfold post at h
  by_cases hm : m = l
  · rw [hm, Function.update_self, List.mem_append, List.mem_singleton] at h
    rw [hm]
    exact h.imp_right (fun hg => ⟨rfl, hg⟩)
  · rw [Function.update_of_ne hm] at h
    exact Or.inl h

theorem mem_putBack (h : g ∈ putBack q l f m) : g ∈ q m ∨ (m = l ∧ g = f) := by
  unfold putBack at h
  by_cases hm : m = l
  · rw [hm, Function.update_self, List.mem_cons] at h
    rw [hm]
    exact h.symm.imp_right (fun hg => ⟨rfl, hg⟩)
  · rw [Function.update_of_ne hm] at h
    exact Or.inl h

theorem mem_putBack_self : f ∈ putBack q l f l := by
  rw [putBack, Function.update_self]
  exact List.mem_cons_self

theorem mem_putBack_of_mem (h : g ∈ q m) : g ∈ putBack q l f m := by
  unfold putBack
  by_cases hm : m = l
  · rw [hm] at h
    rw [hm, Function.update_self]
    exact List.mem_cons_of_mem f h
  · rwa [Function.update_of_ne hm]

end Membership

section Counts
variable [DecidableEq μ] (home : μ → ι) (q : ι → List μ) (f g : μ)

theorem waiting_post : waiting home (post q (home f) f) g =
    waiting home q g + if f = g then 1 else 0 := by
  unfold waiting post
  by_cases hm : home g = home f
  · rw [hm, Function.update_self, List.count_append, List.count_singleton]
    simp only [beq_iff_eq]
  · have hne : f ≠ g := fun h => hm (congrArg home h.symm)
    rw [Function.update_of_ne hm, if_neg hne, Nat.add_zero]

theorem waiting_putBack : waiting home (putBack q (home f) f) g =
    waiting home q g + if f = g then 1 else 0 := by
  unfold waiting putBack
  by_cases hm : home g = home f
  · rw [hm, Function.update_self, List.count_cons]
    simp only [beq_iff_eq]
  · have hne : f ≠ g := fun h => hm (congrArg home h.symm)
    rw [Function.update_of_ne hm, if_neg hne, Nat.add_zero]

end Counts

section Order
variable {before : μ → μ → Prop} {q : ι → List μ} {l : ι} {f : μ}

theorem InOrder.post (h : InOrder before q) (hf : ∀ g ∈ q l, before g f) :
    InOrder before (post q l f) := by
  intro m
  unfold Mailboxes.post
  by_cases hm : m = l
  · rw [hm, Function.update_self, List.pairwise_append]
    refine ⟨h l, List.pairwise_singleton before f, ?_⟩
    intro g hg g' hg'
    rw [List.mem_singleton.mp hg']
    exact hf g hg
  · rw [Function.update_of_ne hm]
    exact h m

theorem InOrder.putBack (h : InOrder before q) (hf : ∀ g ∈ q l, before f g) :
    InOrder before (putBack q l f) := by
  intro m
  unfold Mailboxes.putBack
  by_cases hm : m = l
  · rw [hm, Function.update_self, List.pairwise_cons]
    exact ⟨hf, h l⟩
  · rw [Function.update_of_ne hm]
    exact h m

/-- A mailbox without its first message. -/
theorem InOrder.of_putBack (h : InOrder before (Mailboxes.putBack q l f)) :
    InOrder before q ∧ ∀ g ∈ q l, before f g := by
  have hl := h l
  rw [Mailboxes.putBack, Function.update_self, List.pairwise_cons] at hl
  refine ⟨?_, hl.1⟩
  intro m
  by_cases hm : m = l
  · rw [hm]
    exact hl.2
  · have hother := h m
    rwa [Mailboxes.putBack, Function.update_of_ne hm] at hother

end Order

end Mailboxes
