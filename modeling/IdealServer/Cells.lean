import Mathlib.Data.List.Nodup
import Mathlib.Logic.Function.Basic

/-! Memory that is allocated cell by cell, and programs that keep to a cell of their own. -/

/-- Every address has a content; those below `next` are allocated. -/
structure Cells (α : Type*) where
  mem : ℕ → α
  next : ℕ

namespace Cells

variable {α β ε ι : Type*}

/-- What is in the new cell is what was there before. -/
def alloc (h : Cells α) : ℕ × Cells α := (h.next, { h with next := h.next+1 })

def store (h : Cells α) (a : ℕ) (x : α) : Cells α := { h with mem := Function.update h.mem a x }

section Store
variable (h : Cells α) (a b : ℕ) (x : α)

@[simp] theorem store_next : (h.store a x).next = h.next := rfl

@[simp] theorem store_mem : (h.store a x).mem a = x := Function.update_self ..

theorem store_mem_of_ne (hne : b ≠ a) : (h.store a x).mem b = h.mem b := Function.update_of_ne hne ..

end Store

/-- The program looks at one cell and writes no other. -/
structure ActsOn (a : ℕ) (P : Cells α → Except ε (β × Cells α)) (V : α → Except ε β) : Prop where
  result : ∀ h, (P h).map Prod.fst = V (h.mem a)
  frame : ∀ h r h', P h = .ok (r, h') → ∀ b, b ≠ a → h'.mem b = h.mem b

def runAll (P : ι → Cells α → Except ε (β × Cells α)) :
    List ι → Cells α → Except ε (List β × Cells α)
  | [], h => .ok ([], h)
  | i :: is, h => (P i h).bind (fun r => (runAll P is r.2).map (fun q => (r.1 :: q.1, q.2)))

/-- The results of the programs on private contents. -/
def results (V : ι → Except ε β) : List ι → Except ε (List β)
  | [] => .ok []
  | i :: is => (V i).bind (fun r => (results V is).map (r :: ·))

theorem results_congr {V W : ι → Except ε β} {is : List ι} (h : ∀ i ∈ is, V i = W i) :
    results V is = results W is := by
  induction is with
  | nil => rfl
  | cons i is ih =>
    unfold results
    rw [h i List.mem_cons_self, ih (fun j hj => h j (List.mem_cons_of_mem _ hj))]

/-- Programs on different cells run one after another as if each had the memory to itself. -/
theorem runAll_eq {addr : ι → ℕ} {P : ι → Cells α → Except ε (β × Cells α)}
    {V : ι → α → Except ε β} (hP : ∀ i, ActsOn (addr i) (P i) (V i)) {is : List ι} (h : Cells α)
    (hnodup : (is.map addr).Nodup) :
    (runAll P is h).map Prod.fst = results (fun i => V i (h.mem (addr i))) is := by
  induction is generalizing h with
  | nil => rfl
  | cons i is ih =>
    rw [List.map_cons, List.nodup_cons] at hnodup
    have hfirst := (hP i).result h
    unfold runAll results
    cases hr : P i h with
    | error e =>
      rw [hr] at hfirst
      rw [← hfirst]
      rfl
    | ok r =>
      obtain ⟨r,h1⟩ := r
      rw [hr] at hfirst
      have hsame : results (fun j => V j (h1.mem (addr j))) is =
          results (fun j => V j (h.mem (addr j))) is := by
        apply results_congr
        intro j hj
        have hne : addr j ≠ addr i := by
          intro heq
          exact hnodup.1 (heq ▸ List.mem_map_of_mem hj)
        rw [(hP i).frame h r h1 hr _ hne]
      rw [← hfirst, ← hsame, ← ih h1 hnodup.2]
      show ((runAll P is h1).map (fun q => (r :: q.1, q.2))).map Prod.fst = _
      cases runAll P is h1 <;> rfl

end Cells
