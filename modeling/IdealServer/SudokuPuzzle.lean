import IdealServer.SudokuNodes
import Mathlib.Data.List.Flatten

/-! The columns and rows of a puzzle, and what the solver is for: to fill the empty cells so that every row,
column and box has all digits. -/
namespace IdealServer
open Circular ExactCover SudokuSolver

/-- The kinds of units, each with the number from which the names of its columns are counted. -/
def units : List ((ℕ → ℕ) × ℕ) := [(rowOf, kRow), (colOf, kCol), (boxOf, kBox)]

section Names
variable {board : List ℕ} {u u' : (ℕ → ℕ) × ℕ} {i i' n v v' : ℕ}

theorem optionCodes_eq (r : ℕ × ℕ) : optionCodes r = r.1 :: units.map (fun u => u.2+u.1 r.1*10+r.2) := rfl

theorem mem_units : u ∈ units ↔ u = (rowOf, kRow) ∨ u = (colOf, kCol) ∨ u = (boxOf, kBox) := by
  simp only [units, List.mem_cons, List.not_mem_nil, or_false]

theorem unit_lt (hu : u ∈ units) (hi : i < kCells) : u.1 i < 9 := by
  rw [kCells] at hi
  rcases mem_units.mp hu with rfl | rfl | rfl
  · change i/9 < 9
    omega
  · change i%9 < 9
    omega
  · change i/9/3*3+i%9/3 < 9
    omega

theorem unit_base (hu : u ∈ units) : u.2 = 100 ∨ u.2 = 200 ∨ u.2 = 300 := by
  rcases mem_units.mp hu with rfl | rfl | rfl
  · exact Or.inl rfl
  · exact Or.inr (Or.inl rfl)
  · exact Or.inr (Or.inr rfl)

/-- A name tells its unit and its value. -/
theorem unit_name (hu : u ∈ units) (hu' : u' ∈ units) (hi : i < 9) (hi' : i' < 9) (hv : v ≤ 9) (hv' : v' ≤ 9)
    (h : u.2+i*10+v = u'.2+i'*10+v') : u = u' ∧ i = i' ∧ v = v' := by
  have hbase := unit_base hu
  have hbase' := unit_base hu'
  have hsame : u.2 = u'.2 := by omega
  refine ⟨?_, by omega, by omega⟩
  rcases mem_units.mp hu with rfl | rfl | rfl <;> rcases mem_units.mp hu' with rfl | rfl | rfl
  all_goals first | rfl | exact absurd hsame (by decide)

theorem marked_iff (unit : ℕ → ℕ) (board : List ℕ) (i v : ℕ) :
    marked unit board i v = true ↔ ∃ j < kCells, unit j = i ∧ board.getD j 0 = v := by
  rw [marked, List.any_eq_true]
  simp only [List.mem_range, Bool.and_eq_true, decide_eq_true_iff]

theorem mem_columnNames : n ∈ columnNames board ↔ (n < kCells ∧ board.getD n 0 = 0) ∨
    ∃ u ∈ units, ∃ i < 9, ∃ v, 1 ≤ v ∧ v ≤ 9 ∧ ¬ marked u.1 board i v ∧ n = u.2+i*10+v := by
  have hif (b : Bool) (m : ℕ) : n ∈ (if b then [] else [m]) ↔ ¬ b ∧ n = m := by
    cases b with
    | true => exact ⟨fun h => absurd h List.not_mem_nil, fun h => absurd rfl h.1⟩
    | false => exact ⟨fun h => ⟨Bool.false_ne_true, List.mem_singleton.mp h⟩, fun h => List.mem_singleton.mpr h.2⟩
  have hrange (v : ℕ) : v ∈ List.range' 1 9 ↔ 1 ≤ v ∧ v ≤ 9 := by
    rw [List.mem_range'_1]
    omega
  rw [columnNames, List.mem_append, List.mem_filter, List.mem_range, decide_eq_true_iff]
  apply or_congr Iff.rfl
  simp only [List.mem_flatMap, List.mem_range, List.mem_append, hif, hrange]
  constructor
  · rintro ⟨i,hi,v,⟨hv,hv'⟩,(⟨hno,rfl⟩ | ⟨hno,rfl⟩) | ⟨hno,rfl⟩⟩
    · exact ⟨_, mem_units.mpr (Or.inl rfl), i, hi, v, hv, hv', hno, rfl⟩
    · exact ⟨_, mem_units.mpr (Or.inr (Or.inl rfl)), i, hi, v, hv, hv', hno, rfl⟩
    · exact ⟨_, mem_units.mpr (Or.inr (Or.inr rfl)), i, hi, v, hv, hv', hno, rfl⟩
  · rintro ⟨u,hu,i,hi,v,hv,hv',hno,rfl⟩
    refine ⟨i, hi, v, ⟨hv, hv'⟩, ?_⟩
    rcases mem_units.mp hu with rfl | rfl | rfl
    · exact Or.inl (Or.inl ⟨hno, rfl⟩)
    · exact Or.inl (Or.inr ⟨hno, rfl⟩)
    · exact Or.inr ⟨hno, rfl⟩

theorem mem_rowChoices {r : ℕ × ℕ} : r ∈ rowChoices board ↔ r.1 < kCells ∧ board.getD r.1 0 = 0 ∧ 1 ≤ r.2 ∧
    r.2 ≤ 9 ∧ ∀ u ∈ units, ¬ marked u.1 board (u.1 r.1) r.2 := by
  have hunits : (∀ u ∈ units, ¬ marked u.1 board (u.1 r.1) r.2) ↔ ¬ marked rowOf board (rowOf r.1) r.2 ∧
      ¬ marked colOf board (colOf r.1) r.2 ∧ ¬ marked boxOf board (boxOf r.1) r.2 := by
    constructor
    · intro h
      exact ⟨h _ (mem_units.mpr (Or.inl rfl)), h _ (mem_units.mpr (Or.inr (Or.inl rfl))),
        h _ (mem_units.mpr (Or.inr (Or.inr rfl)))⟩
    · rintro ⟨hrow,hcol,hbox⟩ u hu
      rcases mem_units.mp hu with rfl | rfl | rfl
      · exact hrow
      · exact hcol
      · exact hbox
  rw [hunits]
  simp only [rowChoices, List.mem_flatMap, List.mem_map, List.mem_filter, List.mem_range, List.mem_range'_1,
    decide_eq_true_iff, Bool.not_eq_true', Bool.or_eq_false_iff, Bool.not_eq_true, and_assoc]
  constructor
  · rintro ⟨i,hi,hempty,v,hv,hv',hrow,hcol,hbox,rfl⟩
    exact ⟨hi, hempty, hv, by omega, hrow, hcol, hbox⟩
  · rintro ⟨hi,hempty,hv,hv',hrow,hcol,hbox⟩
    exact ⟨r.1, hi, hempty, r.2, hv, by omega, hrow, hcol, hbox, rfl⟩

/-- Every node has a column. -/
theorem optionCodes_mem {r : ℕ × ℕ} (hr : r ∈ rowChoices board) : ∀ m ∈ optionCodes r, m ∈ columnNames board := by
  obtain ⟨hi,hempty,hv,hv',hno⟩ := mem_rowChoices.mp hr
  intro m hm
  rw [optionCodes_eq, List.mem_cons, List.mem_map] at hm
  rcases hm with rfl | ⟨u,hu,rfl⟩
  · exact mem_columnNames.mpr (Or.inl ⟨hi, hempty⟩)
  · exact mem_columnNames.mpr (Or.inr ⟨u, hu, u.1 r.1, unit_lt hu hi, r.2, hv, hv', hno u hu, rfl⟩)

/-- The names of all columns that a puzzle can have. -/
def allNames : List ℕ :=
  List.range kCells ++ (List.range 9).flatMap (fun i => (List.range' 1 9).flatMap (fun v =>
    [getRowCol i v] ++ [getColCol i v] ++ [getBoxCol i v]))

theorem columnNames_sublist (board : List ℕ) : (columnNames board).Sublist allNames := by
  have hif (b : Bool) (m : ℕ) : (if b then [] else [m]).Sublist [m] := by
    cases b with
    | true => exact List.nil_sublist _
    | false => exact List.Sublist.refl _
  apply List.filter_sublist.append
  apply List.Sublist.flatMap_right
  intro i _
  apply List.Sublist.flatMap_right
  intro v _
  exact ((hif _ _).append (hif _ _)).append (hif _ _)

theorem columnNames_nodup (board : List ℕ) : (columnNames board).Nodup := by
  -- cells first, then digit by digit: in this order the names increase
  have hincreasing : (allNames.map (fun n => if n < 100 then n else 1000+n%100*3+n/100)).IsChain (· < ·) := by
    decide +kernel
  have hnodup := (List.isChain_iff_pairwise.mp hincreasing).imp (fun h => Nat.ne_of_lt h)
  exact (List.Nodup.of_map _ hnodup).sublist (columnNames_sublist board)

theorem columnNames_length (board : List ℕ) : (columnNames board).length ≤ 81*4 := by
  have hall : allNames.length = 81*4 := by decide +kernel
  rw [← hall]
  exact (columnNames_sublist board).length_le

theorem rowChoices_length (board : List ℕ) : (rowChoices board).length ≤ 9*9*9 := by
  let all : List (ℕ × ℕ) := (List.range kCells).flatMap (fun i => (List.range' 1 9).map (fun v => (i, v)))
  have hall : all.length = 9*9*9 := by decide +kernel
  have hsub : (rowChoices board).Sublist all := by
    refine (List.Sublist.flatMap_right _ ?_).trans (List.filter_sublist.flatMap _)
    intro i _
    exact List.filter_sublist.map _
  rw [← hall]
  exact hsub.length_le

end Names

section Build
variable (board : List ℕ)

/-- The names of all nodes, row by row. -/
def nodeNames : List ℕ := (rowChoices board).flatMap optionCodes

theorem length_flatMap_codes (rs : List (ℕ × ℕ)) : (rs.flatMap optionCodes).length = 4*rs.length := by
  induction rs with
  | nil => rfl
  | cons r rs ih =>
    rw [List.flatMap_cons, List.length_append, ih, List.length_cons]
    change 4+4*rs.length = _
    omega

theorem getD_flatMap_codes {rs : List (ℕ × ℕ)} {p : ℕ} (hp : p < 4*rs.length) :
    (rs.flatMap optionCodes).getD p 0 = (optionCodes (rs.getD (p/4) (0, 0))).getD (p%4) 0 := by
  induction rs generalizing p with
  | nil => exact absurd hp (Nat.not_lt_zero p)
  | cons r rs ih =>
    rw [List.length_cons] at hp
    rw [List.flatMap_cons]
    rcases Nat.lt_or_ge p 4 with hlt | hge
    · have hdiv : p/4 = 0 := by omega
      have hmod : p%4 = p := by omega
      rw [List.getD_append _ _ _ _ hlt, hdiv, hmod]
      rfl
    · have hdiv : p/4 = (p-4)/4+1 := by omega
      have hmod : p%4 = (p-4)%4 := by omega
      rw [List.getD_append_right _ _ _ _ hge, hdiv, hmod, List.getD_cons_succ]
      exact ih (show p-4 < 4*rs.length by omega)

theorem optionCodes_nodup {r : ℕ × ℕ} (hr : r ∈ rowChoices board) : (optionCodes r).Nodup := by
  obtain ⟨hi,_,_,hv,_⟩ := mem_rowChoices.mp hr
  have hrow : rowOf r.1 < 9 := unit_lt (mem_units.mpr (Or.inl rfl)) hi
  have hcol : colOf r.1 < 9 := unit_lt (mem_units.mpr (Or.inr (Or.inl rfl))) hi
  have hbox : boxOf r.1 < 9 := unit_lt (mem_units.mpr (Or.inr (Or.inr rfl))) hi
  rw [kCells] at hi
  simp only [optionCodes, List.nodup_cons, List.mem_cons, List.not_mem_nil, List.nodup_nil, or_false, not_or,
    not_false_eq_true, and_true, getRowCol, getColCol, getBoxCol, kRow, kCol, kBox]
  omega

theorem getD_mem {α : Type*} {l : List α} {d : α} {p : ℕ} (hp : p < l.length) : l.getD p d ∈ l := by
  rw [List.getD_eq_getElem _ _ hp]
  exact List.getElem_mem hp

theorem blocks : Blocks (columnNames board) (nodeNames board) where
  names_nodup := columnNames_nodup board
  mem := by
    intro p hp
    obtain ⟨r,hr,hm⟩ := List.mem_flatMap.mp (getD_mem (d := 0) hp)
    exact optionCodes_mem hr _ hm
  length := ⟨_, length_flatMap_codes _⟩
  distinct := by
    intro p hp q hq hpq hcodes
    rw [nodeNames, length_flatMap_codes] at hp hq
    rw [nodeNames, getD_flatMap_codes hp, getD_flatMap_codes hq, hpq] at hcodes
    have hr : (rowChoices board).getD (q/4) (0, 0) ∈ rowChoices board := getD_mem (by omega)
    have hp4 : p%4 < 4 := Nat.mod_lt _ (by decide)
    have hq4 : q%4 < 4 := Nat.mod_lt _ (by decide)
    rw [List.getD_eq_getElem (optionCodes _) 0 hp4, List.getD_eq_getElem (optionCodes _) 0 hq4] at hcodes
    have hmod := (optionCodes_nodup board hr).getElem_inj_iff.mp hcodes
    omega

/-- No assertion of the constructor fails, and its nodes are linked as the matrix of the puzzle. -/
theorem new_spec : ∃ s, SudokuSolver.new board = .ok s ∧ Built board (columnNames board) (nodeNames board) s ∧
    Rowed (columnNames board) (nodeNames board) s.nodes := by
  obtain ⟨s0,hroot,hzero,hs0⟩ := newColumn_root board
  have hsame : { s0 with root := 0 } = s0 := by
    cases s0
    cases hzero
    rfl
  -- the columns
  obtain ⟨s1,hcolumns,hs1⟩ := foldlM_ok (f := appendColumn) (l := columnNames board)
    (I := fun ns s => Built board ns [] s) hs0 (by
      intro ns n s hns hs
      have hlen := hns.length_le
      have hmax := columnNames_length board
      rw [List.length_append, List.length_singleton] at hlen
      apply appendColumn_spec hs
      · intro hin
        have hnodup := (columnNames_nodup board).sublist hns.sublist
        exact (List.nodup_append.mp hnodup).2.2 n hin n List.mem_cons_self rfl
      · rw [kMaxNodes]
        omega)
  -- the rows
  obtain ⟨s2,hrows,hs2⟩ := foldlM_ok (f := fun s (r : ℕ × ℕ) => s.appendRow r.1 r.2) (l := rowChoices board)
    (I := fun rs s => Built board (columnNames board) (rs.flatMap optionCodes) s ∧
      Rowed (columnNames board) (rs.flatMap optionCodes) s.nodes)
    ⟨hs1, fun t ht => absurd ht (Nat.not_lt_zero _)⟩ (by
      intro rs r s hrs ⟨hs,hrow⟩
      have hlen := hrs.length_le
      have hmax := rowChoices_length board
      have hnames := columnNames_length board
      rw [List.length_append, List.length_singleton] at hlen
      rw [List.flatMap_append, List.flatMap_singleton]
      apply appendRow_spec hs hrow
      · exact optionCodes_mem (hrs.subset (List.mem_append_right _ List.mem_cons_self))
      · exact ⟨_, length_flatMap_codes rs⟩
      · rw [length_flatMap_codes, place, kMaxNodes]
        omega)
  refine ⟨s2, ?_, hs2⟩
  rw [SudokuSolver.new, hroot]
  change Except.bind ((columnNames board).foldlM appendColumn { s0 with root := 0 }) _ = _
  rw [hsame, hcolumns]
  exact hrows

/-- The cell and the value of the row that a node is in. -/
def optionOf (x : ℕ) : ℕ × ℕ := (rowChoices board).getD ((x-((columnNames board).length+1))/4) (0, 0)

theorem optionOf_place (p : ℕ) : optionOf board (place (columnNames board) p) =
    (rowChoices board).getD (p/4) (0, 0) := by
  rw [optionOf, place, Nat.add_sub_cancel_left]

theorem optionOf_mem {p : ℕ} (hp : p < (nodeNames board).length) :
    optionOf board (place (columnNames board) p) ∈ rowChoices board := by
  rw [nodeNames, length_flatMap_codes] at hp
  rw [optionOf_place]
  exact getD_mem (by omega)

end Build

section Read
variable {h : Nodes} {n c v f : ℕ}

theorem readRow_cell (hn : h.name n < 100) (val : Option ℕ) :
    h.readRow (f+1) n none val = h.readRow f (h.right n) (some (h.name n)) val := by
  cases val <;> exact if_pos hn

theorem readRow_value (hn : ¬ h.name n < 100) (val : Option ℕ) :
    h.readRow (f+1) n none val = h.readRow f (h.right n) none (some (h.name n%10)) := by
  cases val <;> exact if_neg hn

theorem readRow_value' (hn : ¬ h.name n < 100) :
    h.readRow (f+1) n (some c) none = h.readRow f (h.right n) (some c) (some (h.name n%10)) := if_neg hn

section Around
variable {n0 n1 n2 n3 : ℕ} (hring : Ring h.right h.left n0 [n1, n2, n3]) (hcell : h.name n0 = c) (hc : c < 100)
  (h1 : ¬ h.name n1 < 100 ∧ h.name n1%10 = v) (h2 : ¬ h.name n2 < 100 ∧ h.name n2%10 = v)
  (h3 : ¬ h.name n3 < 100 ∧ h.name n3%10 = v)
include hring hcell hc h1

theorem readRow_first : h.readRow (f+3) n0 none none = some (c, v) := by
  rw [readRow_cell (by rw [hcell]; exact hc), hring.1.1, readRow_value' h1.1, hcell, h1.2]
  rfl

omit hring h1 in
theorem readRow_back (v : ℕ) : h.readRow (f+2) n0 none (some v) = some (c, v) := by
  rw [readRow_cell (by rw [hcell]; exact hc), hcell]
  rfl

omit h1
include h3

theorem readRow_fourth (val : Option ℕ) : h.readRow (f+3) n3 none val = some (c, v) := by
  rw [readRow_value h3.1, hring.2.2.2.1, h3.2]
  exact readRow_back hcell hc v

include h2

theorem readRow_third (val : Option ℕ) : h.readRow (f+4) n2 none val = some (c, v) := by
  rw [readRow_value h2.1, hring.2.2.1.1]
  exact readRow_fourth hring hcell hc h3 _

include h1

theorem readRow_second : h.readRow (f+5) n1 none none = some (c, v) := by
  rw [readRow_value h1.1, hring.2.1.1]
  exact readRow_third hring hcell hc h2 h3 _

end Around

/-- A row can be read from each of its nodes. -/
theorem reads (board : List ℕ) {name : ℕ → ℕ}
    (hname : ∀ p < (nodeNames board).length, name (place (columnNames board) p) = (nodeNames board).getD p 0) :
    Reads (matrix (blocks board)) 0 name (optionOf board) := by
  intro h D x hR hh hx
  subst hh
  obtain ⟨p,hp,rfl⟩ := (entry_iff _).mp hx
  obtain ⟨t,hrow⟩ : ∃ t, p = 4*t ∨ p = 4*t+1 ∨ p = 4*t+2 ∨ p = 4*t+3 := ⟨p/4, by omega⟩
  have hlen : (nodeNames board).length = 4*(rowChoices board).length := length_flatMap_codes _
  obtain ⟨r,hr⟩ : ∃ r, (rowChoices board).getD t (0, 0) = r := ⟨_, rfl⟩
  have hopt : optionOf board (place (columnNames board) p) = r := by
    have ht : p/4 = t := by omega
    rw [optionOf_place, ht, hr]
  have hmem : r ∈ rowChoices board := hr ▸ getD_mem (by omega)
  obtain ⟨hi,_,_,hv,_⟩ := mem_rowChoices.mp hmem
  -- the four names
  have hlabel {j : ℕ} (hj : j < 4) : h.name (place (columnNames board) (4*t+j)) = (optionCodes r).getD j 0 := by
    have hdiv : (4*t+j)/4 = t := by omega
    have hmod : (4*t+j)%4 = j := by omega
    rw [hname _ (by omega), nodeNames, getD_flatMap_codes (by omega), hdiv, hmod, hr]
  have hcell : h.name (place (columnNames board) (4*t)) = r.1 := hlabel (j := 0) (by omega)
  have hc : r.1 < 100 := Nat.lt_trans hi (by decide)
  have hunit {n k u : ℕ} (hn : n = k*100+u*10+r.2) (hk : 0 < k) : ¬ n < 100 ∧ n%10 = r.2 := by omega
  have h1 := hunit (k := 1) (hlabel (j := 1) (by omega)) (by omega)
  have h2 := hunit (k := 2) (hlabel (j := 2) (by omega)) (by omega)
  have h3 := hunit (k := 3) (hlabel (j := 3) (by omega)) (by omega)
  have hring := hR.rows (place (columnNames board) (4*t)) ((entry_iff _).mpr ⟨4*t, by omega, rfl⟩)
  change Ring h.right h.left _ (matesOf (columnNames board) (place (columnNames board) (4*t))) at hring
  rw [matesOf_first] at hring
  rw [hopt]
  rcases hrow with rfl | rfl | rfl | rfl
  · exact readRow_first (f := 3238) hring hcell hc h1
  · exact readRow_second (f := 3236) hring hcell hc h1 h2 h3
  · exact readRow_third (f := 3237) hring hcell hc h2 h3 none
  · exact readRow_fourth (f := 3238) hring hcell hc h3 none

end Read

end IdealServer
