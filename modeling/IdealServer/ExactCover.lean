import Mathlib.Data.List.Perm.Basic
import Mathlib.Data.List.Nodup
import Mathlib.Tactic.Common

/-! Exact covers: rows of a matrix that together meet every column once. A row is known by any of its
entries, and the columns that some chosen rows have met are taken away one by one. -/
namespace ExactCover

structure Matrix (α : Type*) where
  columns : List α
  /-- The entries of a column. -/
  column : α → List α
  /-- The other entries of a row. -/
  mates : α → List α
  col : α → α
  columns_nodup : columns.Nodup
  column_nodup : ∀ c ∈ columns, (column c).Nodup
  col_eq : ∀ c ∈ columns, ∀ x ∈ column c, col x = c
  mates_mem : ∀ c ∈ columns, ∀ x ∈ column c, ∀ m ∈ mates x, col m ∈ columns ∧ m ∈ column (col m)
  row_eq : ∀ c ∈ columns, ∀ x ∈ column c, ∀ m ∈ mates x, ∀ y, y ∈ m :: mates m ↔ y ∈ x :: mates x
  row_nodup : ∀ c ∈ columns, ∀ x ∈ column c, ((x :: mates x).map col).Nodup

namespace Matrix
variable {α : Type*} (M : Matrix α)

def row (x : α) : List α := x :: M.mates x

def Entry (x : α) : Prop := M.col x ∈ M.columns ∧ x ∈ M.column (M.col x)

/-- No column of the row has been taken away. -/
def Free (D : List α) (x : α) : Prop := ∀ m ∈ M.row x, M.col m ∉ D

variable {M} {D D' : List α} {c k x y m : α} {sel : List α}

theorem entry_of_mem (hc : c ∈ M.columns) (hx : x ∈ M.column c) : M.Entry x := by
  have hcol := M.col_eq c hc x hx
  rw [← hcol] at hc hx
  exact ⟨hc, hx⟩

theorem Entry.of_row (hx : M.Entry x) (hm : m ∈ M.row x) : M.Entry m := by
  rcases List.mem_cons.mp hm with rfl | hm
  · exact hx
  · exact M.mates_mem _ hx.1 x hx.2 m hm

theorem Entry.mem_row (hx : M.Entry x) (hm : m ∈ M.row x) : y ∈ M.row m ↔ y ∈ M.row x := by
  rcases List.mem_cons.mp hm with rfl | hm
  · rfl
  · exact M.row_eq _ hx.1 x hx.2 m hm y

theorem Entry.nodup (hx : M.Entry x) : ((M.row x).map M.col).Nodup := M.row_nodup _ hx.1 x hx.2

theorem Entry.free_iff (hx : M.Entry x) (hm : m ∈ M.row x) : M.Free D m ↔ M.Free D x := by
  unfold Free
  constructor
  · intro h y hy
    exact h y ((hx.mem_row hm).mpr hy)
  · intro h y hy
    exact h y ((hx.mem_row hm).mp hy)

theorem free_of_subset (hD : ∀ k ∈ D, k ∈ D') (h : M.Free D' x) : M.Free D x :=
  fun m hm hin => h m hm (hD _ hin)

section Taken
variable [DecidableEq α]

instance : Decidable (M.Free D x) := by
  unfold Free
  infer_instance

variable (M D) in
/-- The columns that are left, and what is left of them. -/
def opened : List α := M.columns.filter (fun c => c ∉ D)

variable (M D) in
def left (c : α) : List α := (M.column c).filter (fun x => M.Free D x)

theorem mem_opened : c ∈ M.opened D ↔ c ∈ M.columns ∧ c ∉ D := by
  rw [opened, List.mem_filter, decide_eq_true_iff]

theorem mem_left : x ∈ M.left D c ↔ x ∈ M.column c ∧ M.Free D x := by
  rw [left, List.mem_filter, decide_eq_true_iff]

theorem opened_nodup : (M.opened D).Nodup := M.columns_nodup.filter _

variable (M D) in
/-- The rows of the chosen entries meet every column that is left once. -/
def Covers (sel : List α) : Prop :=
  (∀ s ∈ sel, M.Entry s ∧ M.Free D s) ∧ ((sel.flatMap M.row).map M.col).Perm (M.opened D)

theorem covers_nil (h : M.opened D = []) : M.Covers D [] := by
  refine ⟨fun s hs => absurd hs List.not_mem_nil, ?_⟩
  rw [h]
  exact List.Perm.refl _

/-- A row and a cover of what it leaves. -/
theorem covers_cons (hx : M.Entry x) (hfree : M.Free D x)
    (hD : ∀ k, k ∈ D' ↔ k ∈ (M.row x).map M.col ∨ k ∈ D) (h : M.Covers D' sel) : M.Covers D (x :: sel) := by
  obtain ⟨hsel,hperm⟩ := h
  refine ⟨?_, ?_⟩
  · intro s hs
    rcases List.mem_cons.mp hs with rfl | hs
    · exact ⟨hx, hfree⟩
    · exact ⟨(hsel s hs).1, free_of_subset (fun k hk => (hD k).mpr (Or.inr hk)) (hsel s hs).2⟩
  · have hrow {k : α} (hk : k ∈ (M.row x).map M.col) : k ∈ M.columns ∧ k ∉ D := by
      obtain ⟨m,hm,rfl⟩ := List.mem_map.mp hk
      exact ⟨(hx.of_row hm).1, hfree m hm⟩
    rw [List.flatMap_cons, List.map_append]
    have hnodup : ((M.row x).map M.col ++ M.opened D').Nodup := by
      apply List.Nodup.append hx.nodup opened_nodup
      intro k hk hopen
      exact (mem_opened.mp hopen).2 ((hD k).mpr (Or.inl hk))
    apply (hperm.append_left _).trans
    apply (List.perm_ext_iff_of_nodup hnodup opened_nodup).mpr
    intro k
    rw [List.mem_append, mem_opened, mem_opened, hD]
    constructor
    · rintro (hk | ⟨hk,hno⟩)
      · exact hrow hk
      · exact ⟨hk, fun hin => hno (Or.inr hin)⟩
    · rintro ⟨hk,hno⟩
      by_cases hin : k ∈ (M.row x).map M.col
      · exact Or.inl hin
      · exact Or.inr ⟨hk, fun h => h.elim hin hno⟩

/-- Every cover meets a column that is left by some entry of it, and the rest covers what that leaves. -/
theorem exists_of_covers (hc : c ∈ M.opened D) (h : M.Covers D sel) : ∃ x ∈ M.left D c, ∀ D',
    (∀ k, k ∈ D' ↔ k ∈ (M.row x).map M.col ∨ k ∈ D) → ∃ rest, M.Covers D' rest := by
  obtain ⟨hsel,hperm⟩ := h
  obtain ⟨x,hx,rfl⟩ := List.mem_map.mp (hperm.mem_iff.mpr hc)
  obtain ⟨s,hs,hxs⟩ := List.mem_flatMap.mp hx
  obtain ⟨hentry,hfree⟩ := hsel s hs
  have hxentry := hentry.of_row hxs
  refine ⟨x, mem_left.mpr ⟨hxentry.2, (hentry.free_iff hxs).mpr hfree⟩, ?_⟩
  intro D' hD
  have hDs (k : α) : k ∈ D' ↔ k ∈ (M.row s).map M.col ∨ k ∈ D := by
    rw [hD, List.mem_map, List.mem_map]
    simp only [hentry.mem_row hxs]
  obtain ⟨us,vs,rfl⟩ := List.append_of_mem hs
  have hfront : (((us ++ s :: vs).flatMap M.row).map M.col).Perm
      ((M.row s).map M.col ++ ((us ++ vs).flatMap M.row).map M.col) := by
    rw [← List.map_append, ← List.flatMap_cons]
    exact (List.perm_middle.flatMap_right M.row).map M.col
  have hrest := hfront.symm.trans hperm
  have hnodup := hrest.nodup_iff.mpr opened_nodup
  obtain ⟨_,hnodup',hdisjoint⟩ := List.nodup_append.mp hnodup
  refine ⟨us ++ vs, ?_, ?_⟩
  · intro r hr
    obtain ⟨hr1,hr2⟩ := hsel r (List.perm_middle.mem_iff.mpr (List.mem_cons_of_mem s hr))
    refine ⟨hr1, ?_⟩
    intro m hm hin
    rcases (hDs _).mp hin with hin | hin
    · exact hdisjoint _ hin _ (List.mem_map_of_mem (List.mem_flatMap_of_mem hr hm)) rfl
    · exact hr2 m hm hin
  · apply (List.perm_ext_iff_of_nodup hnodup' opened_nodup).mpr
    intro k
    have hk := hrest.mem_iff (a := k)
    rw [List.mem_append, mem_opened] at hk
    rw [mem_opened, hDs, not_or]
    constructor
    · intro hin
      obtain ⟨h1,h2⟩ := hk.mp (Or.inr hin)
      exact ⟨h1, fun hrow => hdisjoint k hrow k hin rfl, h2⟩
    · rintro ⟨h1,hrow,h2⟩
      exact (hk.mpr ⟨h1, h2⟩).resolve_left hrow

end Taken

end Matrix

end ExactCover
