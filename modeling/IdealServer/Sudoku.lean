import IdealServer.SudokuPuzzle

/-! What `solveSudoku` answers. A cover takes every name of a column once, and this is to fill the empty cells
such that no unit has a value twice. -/
namespace IdealServer
open Circular ExactCover SudokuSolver

/-- All cells are filled, the given ones as they were, and no row, column or box has a value twice. -/
structure Completes (board b : List ℕ) : Prop where
  length : b.length = kCells
  given : ∀ i < kCells, board.getD i 0 ≠ 0 → b.getD i 0 = board.getD i 0
  digits : ∀ i < kCells, 1 ≤ b.getD i 0 ∧ b.getD i 0 ≤ 9
  once : ∀ i < kCells, ∀ j < kCells, i ≠ j →
    rowOf i = rowOf j ∨ colOf i = colOf j ∨ boxOf i = boxOf j → b.getD i 0 ≠ b.getD j 0

section Units
variable {u : (ℕ → ℕ) × ℕ} {f : ℕ → ℕ} {k : ℕ}

theorem Completes.unit {board b : List ℕ} (hb : Completes board b) (hu : u ∈ units) {i j : ℕ} (hi : i < kCells)
    (hj : j < kCells) (huij : u.1 i = u.1 j) (hv : b.getD i 0 = b.getD j 0) : i = j := by
  by_contra hne
  refine hb.once i hi j hj hne ?_ hv
  rcases mem_units.mp hu with rfl | rfl | rfl
  · exact Or.inl huij
  · exact Or.inr (Or.inl huij)
  · exact Or.inr (Or.inr huij)

/-- The cells of a unit. -/
def unitCells (unit : ℕ → ℕ) (k : ℕ) : List ℕ := (List.range kCells).filter (fun i => unit i = k)

theorem mem_unitCells {unit : ℕ → ℕ} {i : ℕ} : i ∈ unitCells unit k ↔ i < kCells ∧ unit i = k := by
  rw [unitCells, List.mem_filter, List.mem_range, decide_eq_true_iff]

theorem unitCells_length (hu : u ∈ units) (hk : k < 9) : (unitCells u.1 k).length = 9 := by
  have hall : ∀ k < 9, (unitCells rowOf k).length = 9 ∧ (unitCells colOf k).length = 9 ∧
      (unitCells boxOf k).length = 9 := by decide +kernel
  obtain ⟨hrow,hcol,hbox⟩ := hall k hk
  rcases mem_units.mp hu with rfl | rfl | rfl
  · exact hrow
  · exact hcol
  · exact hbox

theorem mem_range'_digits {v : ℕ} : v ∈ List.range' 1 9 ↔ 1 ≤ v ∧ v ≤ 9 := by
  rw [List.mem_range'_1]
  omega

/-- Nine cells that have all nine values have none of them twice. -/
theorem once_of_onto (hu : u ∈ units) (hk : k < 9) (honto : ∀ v, 1 ≤ v → v ≤ 9 → ∃ i < kCells, u.1 i = k ∧ f i = v)
    {i j : ℕ} (hi : i < kCells) (hj : j < kCells) (hik : u.1 i = k) (hjk : u.1 j = k) (hij : f i = f j) : i = j := by
  have hsub : List.range' 1 9 ⊆ (unitCells u.1 k).map f := by
    intro v hv
    obtain ⟨hlo,hhi⟩ := mem_range'_digits.mp hv
    obtain ⟨i,hi,hik,rfl⟩ := honto v hlo hhi
    exact List.mem_map_of_mem (mem_unitCells.mpr ⟨hi, hik⟩)
  have hlen : ((unitCells u.1 k).map f).length ≤ (List.range' 1 9).length := by
    rw [List.length_map, unitCells_length hu hk]
    exact Nat.le_refl 9
  have hperm := (List.subperm_of_subset List.nodup_range' hsub).perm_of_length_le hlen
  have hnodup : ((unitCells u.1 k).map f).Nodup := hperm.nodup_iff.mp List.nodup_range'
  exact List.inj_on_of_nodup_map hnodup (mem_unitCells.mpr ⟨hi, hik⟩) (mem_unitCells.mpr ⟨hj, hjk⟩) hij

/-- And if none is there twice, each of them is there. -/
theorem onto_of_once (hu : u ∈ units) (hk : k < 9) (hdigits : ∀ i < kCells, 1 ≤ f i ∧ f i ≤ 9)
    (honce : ∀ i < kCells, ∀ j < kCells, u.1 i = u.1 j → f i = f j → i = j) {v : ℕ} (hlo : 1 ≤ v) (hhi : v ≤ 9) :
    ∃ i < kCells, u.1 i = k ∧ f i = v := by
  have hnodup : ((unitCells u.1 k).map f).Nodup := by
    apply List.Nodup.map_on _ (List.nodup_range.filter _)
    intro i hi j hj hij
    obtain ⟨hi,hik⟩ := mem_unitCells.mp hi
    obtain ⟨hj,hjk⟩ := mem_unitCells.mp hj
    exact honce i hi j hj (hik.trans hjk.symm) hij
  have hsub : (unitCells u.1 k).map f ⊆ List.range' 1 9 := by
    intro v hv
    obtain ⟨i,hi,rfl⟩ := List.mem_map.mp hv
    exact mem_range'_digits.mpr (hdigits i (mem_unitCells.mp hi).1)
  have hlen : (List.range' 1 9).length ≤ ((unitCells u.1 k).map f).length := by
    rw [List.length_map, unitCells_length hu hk]
    exact Nat.le_refl 9
  have hperm := (List.subperm_of_subset hnodup hsub).perm_of_length_le hlen
  obtain ⟨i,hi,rfl⟩ := List.mem_map.mp (hperm.mem_iff.mpr (mem_range'_digits.mpr ⟨hlo, hhi⟩))
  obtain ⟨hi,hik⟩ := mem_unitCells.mp hi
  exact ⟨i, hi, hik, rfl⟩

end Units

/-- The options have every name of a column once. -/
structure Fills (board : List ℕ) (rs : List (ℕ × ℕ)) : Prop where
  options : ∀ r ∈ rs, r ∈ rowChoices board
  nodup : (rs.flatMap optionCodes).Nodup
  all : ∀ n ∈ columnNames board, n ∈ rs.flatMap optionCodes

def fill (board : List ℕ) (rs : List (ℕ × ℕ)) : List ℕ := rs.foldl (fun b r => b.set r.1 r.2) board

section Filled
variable {board b : List ℕ} {rs : List (ℕ × ℕ)} {r : ℕ × ℕ} {i v : ℕ}

theorem fill_length (board : List ℕ) (rs : List (ℕ × ℕ)) : (fill board rs).length = board.length := by
  induction rs generalizing board with
  | nil => rfl
  | cons r rs ih =>
    rw [fill, List.foldl_cons]
    exact (ih _).trans (List.length_set ..)

theorem fill_other (hi : i ∉ rs.map Prod.fst) : (fill board rs).getD i 0 = board.getD i 0 := by
  induction rs generalizing board with
  | nil => rfl
  | cons r rs ih =>
    rw [List.map_cons, List.mem_cons, not_or] at hi
    rw [fill, List.foldl_cons]
    apply (ih hi.2).trans
    rw [List.getD_eq_getElem?_getD, List.getD_eq_getElem?_getD, List.getElem?_set_ne (Ne.symm hi.1)]

theorem fill_cell (hnodup : (rs.map Prod.fst).Nodup) (hr : r ∈ rs) (hlt : r.1 < board.length) :
    (fill board rs).getD r.1 0 = r.2 := by
  induction rs generalizing board with
  | nil => exact absurd hr List.not_mem_nil
  | cons s rs ih =>
    rw [List.map_cons, List.nodup_cons] at hnodup
    rw [fill, List.foldl_cons]
    rcases List.mem_cons.mp hr with rfl | hr
    · apply (fill_other hnodup.1).trans
      rw [List.getD_eq_getElem?_getD, List.getElem?_set_self hlt, Option.getD_some]
    · exact ih hnodup.2 hr (by rw [List.length_set]; exact hlt)

theorem fst_nodup (h : (rs.flatMap optionCodes).Nodup) : (rs.map Prod.fst).Nodup := by
  have hsub : (rs.map Prod.fst).Sublist (rs.flatMap optionCodes) := by
    rw [← List.flatMap_singleton' (rs.map Prod.fst), List.flatMap_map]
    apply List.Sublist.flatMap_right
    intro r _
    exact List.Sublist.cons_cons _ (List.nil_sublist _)
  exact h.sublist hsub

/-- A name that some option has. -/
theorem mem_optionCodes_cell (hi : i < kCells) : i ∈ optionCodes r ↔ r.1 = i := by
  rw [optionCodes_eq, List.mem_cons, List.mem_map]
  constructor
  · rintro (rfl | ⟨u,hu,rfl⟩)
    · rfl
    · have hbase := unit_base hu
      rw [kCells] at hi
      omega
  · intro he
    exact Or.inl he.symm

theorem mem_optionCodes_unit {u : (ℕ → ℕ) × ℕ} (hu : u ∈ units) (hr : r ∈ rowChoices board) (hi : i < 9)
    (hv : v ≤ 9) : u.2+i*10+v ∈ optionCodes r ↔ u.1 r.1 = i ∧ r.2 = v := by
  obtain ⟨hlt,_,_,hv',_⟩ := mem_rowChoices.mp hr
  rw [optionCodes_eq, List.mem_cons, List.mem_map]
  constructor
  · rintro (he | ⟨u',hu',he⟩)
    · have hbase := unit_base hu
      rw [kCells] at hlt
      omega
    · obtain ⟨rfl,hi',hv''⟩ := unit_name hu' hu (unit_lt hu' hlt) hi hv' hv he
      exact ⟨hi', hv''⟩
  · rintro ⟨rfl,rfl⟩
    exact Or.inr ⟨u, hu, rfl⟩

/-- Filling by such options solves the puzzle. That every unit has all its values excludes that it has one of
them twice, also among the cells that were given. -/
theorem Fills.completes (h : Fills board rs) (hlen : board.length = kCells)
    (hdigits : ∀ i < kCells, board.getD i 0 ≤ 9) : Completes board (fill board rs) := by
  have hnodup := fst_nodup h.nodup
  have hcell {r : ℕ × ℕ} (hr : r ∈ rs) : (fill board rs).getD r.1 0 = r.2 := by
    apply fill_cell hnodup hr
    rw [hlen]
    exact (mem_rowChoices.mp (h.options r hr)).1
  have hgiven (i : ℕ) (hi : board.getD i 0 ≠ 0) : (fill board rs).getD i 0 = board.getD i 0 := by
    apply fill_other
    intro hin
    obtain ⟨r,hr,rfl⟩ := List.mem_map.mp hin
    exact hi (mem_rowChoices.mp (h.options r hr)).2.1
  -- every unit has every value
  have honto {u : (ℕ → ℕ) × ℕ} (hu : u ∈ units) {k : ℕ} (hk : k < 9) (v : ℕ) (hlo : 1 ≤ v) (hhi : v ≤ 9) :
      ∃ i < kCells, u.1 i = k ∧ (fill board rs).getD i 0 = v := by
    by_cases hmarked : marked u.1 board k v
    · obtain ⟨i,hi,hik,hiv⟩ := (marked_iff ..).mp hmarked
      refine ⟨i, hi, hik, (hgiven i ?_).trans hiv⟩
      omega
    · have hname := h.all _ (mem_columnNames.mpr (Or.inr ⟨u, hu, k, hk, v, hlo, hhi, hmarked, rfl⟩))
      obtain ⟨r,hr,hmem⟩ := List.mem_flatMap.mp hname
      have hopt := h.options r hr
      obtain ⟨hik,hiv⟩ := (mem_optionCodes_unit hu hopt hk hhi).mp hmem
      exact ⟨r.1, (mem_rowChoices.mp hopt).1, hik, (hcell hr).trans hiv⟩
  have hunit {u : (ℕ → ℕ) × ℕ} (hu : u ∈ units) {i j : ℕ} (hi : i < kCells) (hj : j < kCells)
      (hij : u.1 i = u.1 j) (hv : (fill board rs).getD i 0 = (fill board rs).getD j 0) : i = j :=
    once_of_onto hu (unit_lt hu hj) (honto hu (unit_lt hu hj)) hi hj hij rfl hv
  constructor
  · exact (fill_length board rs).trans hlen
  · exact fun i _ => hgiven i
  · intro i hi
    by_cases hempty : board.getD i 0 = 0
    · obtain ⟨r,hr,hmem⟩ := List.mem_flatMap.mp (h.all i (mem_columnNames.mpr (Or.inl ⟨hi, hempty⟩)))
      have he := (mem_optionCodes_cell hi).mp hmem
      obtain ⟨_,_,hlo,hhi,_⟩ := mem_rowChoices.mp (h.options r hr)
      rw [← he, hcell hr]
      exact ⟨hlo, hhi⟩
    · rw [hgiven i hempty]
      exact ⟨Nat.pos_of_ne_zero hempty, hdigits i hi⟩
  · intro i hi j hj hne hshare hv
    rcases hshare with hij | hij | hij
    · exact hne (hunit (mem_units.mpr (Or.inl rfl)) hi hj hij hv)
    · exact hne (hunit (mem_units.mpr (Or.inr (Or.inl rfl))) hi hj hij hv)
    · exact hne (hunit (mem_units.mpr (Or.inr (Or.inr rfl))) hi hj hij hv)

/-- The options that fill the empty cells as in `b`. -/
def chosen (board b : List ℕ) : List (ℕ × ℕ) :=
  ((List.range kCells).filter (fun i => board.getD i 0 = 0)).map (fun i => (i, b.getD i 0))

theorem mem_chosen : r ∈ chosen board b ↔ r.1 < kCells ∧ board.getD r.1 0 = 0 ∧ r.2 = b.getD r.1 0 := by
  rw [chosen, List.mem_map]
  simp only [List.mem_filter, List.mem_range, decide_eq_true_iff]
  constructor
  · rintro ⟨i,⟨hi,hempty⟩,rfl⟩
    exact ⟨hi, hempty, rfl⟩
  · rintro ⟨hi,hempty,hv⟩
    exact ⟨r.1, ⟨hi, hempty⟩, Prod.ext rfl hv.symm⟩

theorem Completes.options (hb : Completes board b) (hr : r ∈ chosen board b) : r ∈ rowChoices board := by
  obtain ⟨hi,hempty,hv⟩ := mem_chosen.mp hr
  obtain ⟨hlo,hhi⟩ := hb.digits r.1 hi
  rw [← hv] at hlo hhi
  refine mem_rowChoices.mpr ⟨hi, hempty, hlo, hhi, ?_⟩
  intro u hu hmarked
  obtain ⟨j,hj,hju,hjv⟩ := (marked_iff ..).mp hmarked
  have hgiven : board.getD j 0 ≠ 0 := by omega
  have hsame : b.getD j 0 = b.getD r.1 0 := by rw [hb.given j hj hgiven, hjv, hv]
  have hjr := hb.unit hu hj hi hju hsame
  rw [hjr] at hgiven
  exact hgiven hempty

theorem Completes.fills (hb : Completes board b) : Fills board (chosen board b) := by
  constructor
  · exact fun r hr => hb.options hr
  · apply List.nodup_flatMap.mpr ⟨fun r hr => optionCodes_nodup board (hb.options hr), ?_⟩
    have hcells : (chosen board b).Nodup :=
      (List.nodup_range.filter _).map (fun i j hij => (Prod.ext_iff.mp hij).1)
    apply List.Pairwise.imp_of_mem _ hcells
    intro r r' hr hr' hne n hn hn'
    obtain ⟨hi,_,hv⟩ := mem_chosen.mp hr
    obtain ⟨hi',_,hv'⟩ := mem_chosen.mp hr'
    have hopt := mem_rowChoices.mp (hb.options hr)
    change n ∈ optionCodes r at hn
    change n ∈ optionCodes r' at hn'
    rw [optionCodes_eq, List.mem_cons, List.mem_map] at hn
    -- a name of both
    have hcell : r.1 = r'.1 := by
      rcases hn with rfl | ⟨u,hu,rfl⟩
      · exact ((mem_optionCodes_cell hi).mp hn').symm
      · obtain ⟨hunit,hval⟩ := (mem_optionCodes_unit hu (hb.options hr') (unit_lt hu hi) hopt.2.2.2.1).mp hn'
        exact hb.unit hu hi hi' hunit.symm (by rw [← hv, ← hv', hval])
    exact hne (Prod.ext hcell (by rw [hv, hv', hcell]))
  · intro n hn
    rcases mem_columnNames.mp hn with ⟨hi,hempty⟩ | ⟨u,hu,k,hk,v,hlo,hhi,hno,rfl⟩
    · have hr : (n, b.getD n 0) ∈ chosen board b := mem_chosen.mpr ⟨hi, hempty, rfl⟩
      exact List.mem_flatMap.mpr ⟨_, hr, List.mem_cons_self⟩
    · obtain ⟨i,hi,hik,hiv⟩ := onto_of_once hu hk hb.digits (fun i hi j hj => hb.unit hu hi hj) hlo hhi
      have hempty : board.getD i 0 = 0 := by
        by_contra hgiven
        exact hno ((marked_iff ..).mpr ⟨i, hi, hik, (hb.given i hi hgiven).symm.trans hiv⟩)
      have hr : (i, b.getD i 0) ∈ chosen board b := mem_chosen.mpr ⟨hi, hempty, rfl⟩
      exact List.mem_flatMap.mpr ⟨_, hr, (mem_optionCodes_unit hu (hb.options hr) hk hhi).mpr ⟨hik, hiv⟩⟩

end Filled

section Covers
variable {board : List ℕ} {sel : List ℕ} {x : ℕ}

/-- The columns that a row meets are those of the four names. -/
theorem row_perm (hx : (matrix (blocks board)).Entry x) : (((matrix (blocks board)).row x).map
    (matrix (blocks board)).col).Perm ((optionCodes (optionOf board x)).map (headerOf (columnNames board))) := by
  obtain ⟨p,hp,rfl⟩ := (entry_iff _).mp hx
  have hr := optionOf_mem board hp
  have hlen : (nodeNames board).length = 4*(rowChoices board).length := length_flatMap_codes _
  have hcol {q : ℕ} (hq : q/4 = p/4) : (matrix (blocks board)).col (place (columnNames board) q) =
      headerOf (columnNames board) ((optionCodes (optionOf board (place (columnNames board) p))).getD (q%4) 0) := by
    change headerOf _ ((nodeNames board).getD (place (columnNames board) q-((columnNames board).length+1)) 0) = _
    rw [place, Nat.add_sub_cancel_left, nodeNames, getD_flatMap_codes (by omega), optionOf_place, hq]
  have hnodup : ((optionCodes (optionOf board (place (columnNames board) p))).map
      (headerOf (columnNames board))).Nodup := by
    apply List.Nodup.map_on _ (optionCodes_nodup board hr)
    intro n hn m _ he
    exact headerOf_inj (optionCodes_mem hr n hn) he
  apply (List.perm_ext_iff_of_nodup hx.nodup hnodup).mpr
  intro c
  rw [List.mem_map, List.mem_map]
  constructor
  · rintro ⟨m,hm,rfl⟩
    obtain ⟨q,hq,rfl⟩ := (mem_row p).mp hm
    exact ⟨_, getD_mem (Nat.mod_lt q (by decide : 4 > 0)), (hcol hq).symm⟩
  · rintro ⟨n,hn,rfl⟩
    obtain ⟨j,hj,rfl⟩ := List.mem_iff_getElem.mp hn
    have hj4 : j < 4 := hj
    have hmod : (4*(p/4)+j)%4 = j := by omega
    refine ⟨place (columnNames board) (4*(p/4)+j), (mem_row p).mpr ⟨_, by omega, rfl⟩, ?_⟩
    rw [hcol (by omega), hmod, List.getD_eq_getElem _ _ hj]

theorem headers_eq (board : List ℕ) : headers (columnNames board) =
    (columnNames board).map (headerOf (columnNames board)) := by
  apply List.ext_getElem
  · rw [headers, List.length_map, List.length_map, List.length_range]
  · intro j hj hj'
    simp only [headers, headerOf, List.getElem_map, List.getElem_range, (columnNames_nodup board).idxOf_getElem]

theorem covers_iff : (matrix (blocks board)).Covers [] sel ↔
    (∀ s ∈ sel, (matrix (blocks board)).Entry s) ∧ Fills board (sel.map (optionOf board)) := by
  have hopened : (matrix (blocks board)).opened [] = (columnNames board).map (headerOf (columnNames board)) := by
    rw [← headers_eq]
    exact List.filter_eq_self.mpr (fun k _ => decide_eq_true List.not_mem_nil)
  have hfree (x : ℕ) : (matrix (blocks board)).Free [] x := fun m _ => List.not_mem_nil
  have hperm (hsel : ∀ s ∈ sel, (matrix (blocks board)).Entry s) :
      ((sel.flatMap (matrix (blocks board)).row).map (matrix (blocks board)).col).Perm
        (((sel.map (optionOf board)).flatMap optionCodes).map (headerOf (columnNames board))) := by
    rw [List.map_flatMap, List.flatMap_map, List.map_flatMap]
    exact List.Perm.flatMap_left _ (fun s hs => row_perm (hsel s hs))
  have hopt (hsel : ∀ s ∈ sel, (matrix (blocks board)).Entry s) : ∀ r ∈ sel.map (optionOf board),
      r ∈ rowChoices board := by
    intro r hr
    obtain ⟨s,hs,rfl⟩ := List.mem_map.mp hr
    obtain ⟨p,hp,rfl⟩ := (entry_iff _).mp (hsel s hs)
    exact optionOf_mem board hp
  have hmem (hsel : ∀ s ∈ sel, (matrix (blocks board)).Entry s) : ∀ n ∈ (sel.map (optionOf board)).flatMap optionCodes,
      n ∈ columnNames board := by
    intro n hn
    obtain ⟨r,hr,hn⟩ := List.mem_flatMap.mp hn
    exact optionCodes_mem (hopt hsel r hr) n hn
  constructor
  · rintro ⟨hsel,hcover⟩
    have hsel' (s : ℕ) (hs : s ∈ sel) : (matrix (blocks board)).Entry s := (hsel s hs).1
    have hnames := (hperm hsel').symm.trans (hopened ▸ hcover)
    refine ⟨hsel', hopt hsel', ?_, ?_⟩
    · apply List.Nodup.of_map (headerOf (columnNames board))
      rw [hnames.nodup_iff, ← headers_eq]
      exact headers_nodup
    · intro n hn
      obtain ⟨m,hm,he⟩ := List.mem_map.mp (hnames.mem_iff.mpr (List.mem_map_of_mem hn))
      rw [← headerOf_inj (hmem hsel' m hm) he]
      exact hm
  · rintro ⟨hsel,hfills⟩
    refine ⟨fun s hs => ⟨hsel s hs, hfree s⟩, ?_⟩
    rw [hopened]
    apply (hperm hsel).trans
    apply List.Perm.map
    apply (List.perm_ext_iff_of_nodup hfills.nodup (columnNames_nodup board)).mpr
    exact fun n => ⟨hmem hsel n, hfills.all n⟩

/-- Every list of options is read from some nodes. -/
theorem exists_entries {rs : List (ℕ × ℕ)} (hrs : ∀ r ∈ rs, r ∈ rowChoices board) :
    ∃ sel : List ℕ, (∀ s ∈ sel, (matrix (blocks board)).Entry s) ∧ sel.map (optionOf board) = rs := by
  induction rs with
  | nil => exact ⟨[], fun s hs => absurd hs List.not_mem_nil, rfl⟩
  | cons r rs ih =>
    obtain ⟨sel,hsel,rfl⟩ := ih (fun r hr => hrs r (List.mem_cons_of_mem _ hr))
    obtain ⟨t,ht,rfl⟩ := List.mem_iff_getElem.mp (hrs r List.mem_cons_self)
    have hlen : (nodeNames board).length = 4*(rowChoices board).length := length_flatMap_codes _
    have hdiv : 4*t/4 = t := by omega
    refine ⟨place (columnNames board) (4*t) :: sel, ?_, ?_⟩
    · intro s hs
      rcases List.mem_cons.mp hs with rfl | hs
      · exact (entry_iff _).mpr ⟨4*t, by omega, rfl⟩
      · exact hsel s hs
    · rw [List.map_cons, optionOf_place, hdiv, List.getD_eq_getElem _ _ ht]

theorem put_eq (board inout sel : List ℕ) : put (optionOf board) inout sel = fill inout (sel.map (optionOf board)) := by
  rw [put, fill, List.foldl_map]

theorem puzzleLayout (board : List ℕ) : Layout (matrix (blocks board)) 0 := by
  apply layout (blocks board) (columnNames_length board)
  have hmax := rowChoices_length board
  rw [nodeNames, length_flatMap_codes]
  omega

/-- The search ends within its bound. It finds a solution exactly if there is one. -/
theorem solve_new (hlen : board.length = kCells) (hdigits : ∀ i < kCells, board.getD i 0 ≤ 9) :
    ∃ s s' found, SudokuSolver.new board = .ok s ∧ s.solve kMaxNodes = some (found, s') ∧
      if found then Completes board s'.inout else ∀ b, ¬ Completes board b := by
  obtain ⟨s,hnew,hs,hrows⟩ := new_spec board
  have L := puzzleLayout board
  have hstack : ∀ x ∈ s.stack, (matrix (blocks board)).Entry x := by
    rw [hs.stack]
    exact fun x hx => absurd hx List.not_mem_nil
  have hbound : ((matrix (blocks board)).opened []).length < kMaxNodes :=
    Nat.lt_of_le_of_lt (List.length_filter_le _ _) L.columns_lt
  rcases solve_spec L (reads board hs.labels) kMaxNodes [] s hs.root (hs.represents _ hrows) rfl hstack hbound with
    ⟨s',hsolve,sel,hsel,hput⟩ | ⟨hsolve,hnone⟩
  · refine ⟨s, s', true, hnew, hsolve, ?_⟩
    rw [hs.inout, hs.stack, List.nil_append, put_eq] at hput
    rw [if_pos rfl, hput]
    exact (covers_iff.mp hsel).2.completes hlen hdigits
  · refine ⟨s, s, false, hnew, hsolve, ?_⟩
    rw [if_neg Bool.false_ne_true]
    intro b hb
    obtain ⟨sel,hsel,hmap⟩ := exists_entries (fun r hr => hb.options hr)
    apply hnone sel
    rw [covers_iff, hmap]
    exact ⟨hsel, hb.fills⟩

end Covers

/-- Columns are covered one after the other. -/
def coverAll (cs : List ℕ) (h : Nodes) : Option Nodes := cs.foldlM (fun h c => (h.cover c).map Prod.snd) h

def uncoverAll (cs : List ℕ) (h : Nodes) : Option Nodes := cs.foldlM (fun h c => (h.uncover c).map Prod.snd) h

theorem coverAll_spec {M : Matrix ℕ} {root : ℕ} (L : Layout M root) {cs D : List ℕ} {h : Nodes}
    (hR : Represents M root h D) (hcs : cs.Nodup) (hopen : ∀ c ∈ cs, c ∈ M.opened D) :
    ∃ h', coverAll cs h = some h' ∧ Represents M root h' (cs.reverse ++ D) ∧ h'.name = h.name ∧
      uncoverAll cs.reverse h' = some h := by
  induction cs generalizing D h with
  | nil => exact ⟨h, rfl, hR, rfl, rfl⟩
  | cons c cs ih =>
    obtain ⟨hc,hcs'⟩ := List.nodup_cons.mp hcs
    have hopenc := hopen c List.mem_cons_self
    have hcover := cover_eq L hR hopenc
    have huncover := uncover_eq L hR hopenc
    obtain ⟨hR1,_⟩ := represents_cover L hR hopenc
    have hname1 := foldl_hide_name (hidden M D c) (h.removeHeader c)
    generalize (hidden M D c).foldl Nodes.hide (h.removeHeader c) = h1 at hcover huncover hR1 hname1
    have hopen' : ∀ k ∈ cs, k ∈ M.opened (c :: D) := by
      intro k hk
      obtain ⟨hk1,hk2⟩ := Matrix.mem_opened.mp (hopen k (List.mem_cons_of_mem c hk))
      refine Matrix.mem_opened.mpr ⟨hk1, ?_⟩
      rw [List.mem_cons, not_or]
      exact ⟨ne_of_mem_of_not_mem hk hc, hk2⟩
    obtain ⟨h',hcovers,hR',hname',huncovers⟩ := ih hR1 hcs' hopen'
    refine ⟨h', ?_, ?_, ?_, ?_⟩
    · rw [coverAll, List.foldlM_cons, hcover]
      exact hcovers
    · rw [List.reverse_cons, List.append_assoc]
      exact hR'
    · exact hname'.trans hname1
    · rw [uncoverAll] at huncovers ⊢
      rw [List.reverse_cons, List.foldlM_append, huncovers]
      change (h1.uncover c).map Prod.snd >>= pure = _
      rw [huncover]
      rfl

/-- However columns are covered, what is left is linked as the rest of the puzzle, a search in it that fails
leaves every field of every node as it was, and uncovering backwards restores what the constructor has built. -/
theorem coverAll_undone (board : List ℕ) (cs : List ℕ) (hcs : cs.Nodup)
    (hcolumns : ∀ c ∈ cs, c ∈ headers (columnNames board)) : ∃ s h, SudokuSolver.new board = .ok s ∧
      coverAll cs s.nodes = some h ∧ Represents (matrix (blocks board)) 0 h cs.reverse ∧
      Outcome (matrix (blocks board)) (optionOf board) cs.reverse { s with nodes := h }
        (SudokuSolver.solve kMaxNodes { s with nodes := h }) ∧
      uncoverAll cs.reverse h = some s.nodes := by
  obtain ⟨s,hnew,hs,hrows⟩ := new_spec board
  have L := puzzleLayout board
  have hopen : ∀ c ∈ cs, c ∈ (matrix (blocks board)).opened [] := by
    intro c hc
    exact Matrix.mem_opened.mpr ⟨hcolumns c hc, List.not_mem_nil⟩
  obtain ⟨h,hcover,hR,hname,huncover⟩ := coverAll_spec L (hs.represents _ hrows) hcs hopen
  rw [List.append_nil] at hR
  have hstack : ∀ x ∈ s.stack, (matrix (blocks board)).Entry x := by
    rw [hs.stack]
    exact fun x hx => absurd hx List.not_mem_nil
  have hbound : ((matrix (blocks board)).opened cs.reverse).length < kMaxNodes :=
    Nat.lt_of_le_of_lt (List.length_filter_le _ _) L.columns_lt
  refine ⟨s, h, hnew, hcover, hR, ?_, huncover⟩
  exact solve_spec L (reads board hs.labels) kMaxNodes cs.reverse { s with nodes := h } hs.root hR hname hstack hbound

theorem coverAll_undone_empty : ∃ s h, SudokuSolver.new (List.replicate kCells 0) = .ok s ∧
    coverAll [5, 2] s.nodes = some h ∧ uncoverAll [2, 5] h = some s.nodes := by
  have hlen : 5 ≤ (columnNames (List.replicate kCells 0)).length := by decide +kernel
  obtain ⟨s,h,hnew,hcover,_,_,huncover⟩ := coverAll_undone (List.replicate kCells 0) [5, 2] (by decide) (by
    intro c hc
    rw [mem_headers]
    simp only [List.mem_cons, List.not_mem_nil, or_false] at hc
    omega)
  exact ⟨s, h, hnew, hcover, huncover⟩

section Texts

def digitsOf (text : Bytes) : List ℕ := text.map (fun c => c.toNat-48)

def textOf (b : List ℕ) : Bytes := b.map (fun v => UInt8.ofNat (v+48))

theorem digitsOf_le {puzzle : Bytes} (hdigits : puzzle.all Numeral.isDigit) {i : ℕ} (hi : i < puzzle.length) :
    (digitsOf puzzle).getD i 0 ≤ 9 := by
  have hi' : i < (digitsOf puzzle).length := by rw [digitsOf, List.length_map]; exact hi
  rw [List.getD_eq_getElem _ _ hi']
  simp only [digitsOf, List.getElem_map]
  have hc := List.all_eq_true.mp hdigits puzzle[i] (List.getElem_mem hi)
  rw [Numeral.isDigit, Bool.and_eq_true, decide_eq_true_iff, decide_eq_true_iff] at hc
  have hle : puzzle[i].toNat ≤ 57 := hc.2
  omega

/-- A completion of the puzzle if there is one, and `kNoSolution` if there is none. -/
def IsAnswer (puzzle text : Bytes) : Prop :=
  (∃ b, puzzle.all Numeral.isDigit ∧ Completes (digitsOf puzzle) b ∧ text = textOf b) ∨
    (text = kNoSolution ∧ ∀ b, ¬ (puzzle.all Numeral.isDigit ∧ Completes (digitsOf puzzle) b))

theorem solveSudoku_ok {puzzle : Bytes} (hlen : puzzle.length = kCells) :
    ∃ text, solveSudoku puzzle = .ok (some text) ∧ IsAnswer puzzle text := by
  by_cases hdigits : puzzle.all Numeral.isDigit
  · have hboard : (digitsOf puzzle).length = kCells := (List.length_map _).trans hlen
    obtain ⟨s,s',found,hnew,hsolve,hend⟩ := solve_new hboard (fun i hi => digitsOf_le hdigits (hlen ▸ hi))
    refine ⟨if found then textOf s'.inout else kNoSolution, ?_, ?_⟩
    · rw [solveSudoku, if_pos hlen, if_pos hdigits]
      change Except.bind (SudokuSolver.new (digitsOf puzzle)) _ = _
      rw [hnew]
      change Except.ok ((s.solve kMaxNodes).map _) = _
      rw [hsolve]
      rfl
    · cases found with
      | true => exact Or.inl ⟨s'.inout, hdigits, hend, rfl⟩
      | false => exact Or.inr ⟨rfl, fun b hb => hend b hb.2⟩
  · refine ⟨kNoSolution, ?_, Or.inr ⟨rfl, fun b hb => hdigits hb.1⟩⟩
    rw [solveSudoku, if_pos hlen, if_neg hdigits]

theorem IsAnswer.digits {puzzle text : Bytes} (h : IsAnswer puzzle text) (hne : text ≠ kNoSolution) :
    text.length = kCells ∧ ∀ c ∈ text, 49 ≤ c.toNat ∧ c.toNat ≤ 57 := by
  rcases h with ⟨b,_,hb,rfl⟩ | ⟨htext,_⟩
  · refine ⟨(List.length_map _).trans hb.length, ?_⟩
    intro c hc
    obtain ⟨v,hv,rfl⟩ := List.mem_map.mp hc
    obtain ⟨i,hi,rfl⟩ := List.mem_iff_getElem.mp hv
    have hdigit := hb.digits i (hb.length ▸ hi)
    rw [List.getD_eq_getElem _ _ hi] at hdigit
    rw [UInt8.toNat_ofNat', Nat.mod_eq_of_lt (by omega)]
    omega
  · exact absurd htext hne

/-- Every text of 81 characters gets an answer, and an answer that is not `kNoSolution` is 81 digits. -/
theorem solveSudoku_answers (puzzle : Bytes) : if puzzle.length = kCells then
    ∃ text, solveSudoku puzzle = .ok (some text) ∧ IsAnswer puzzle text ∧
      (text ≠ kNoSolution → text.length = kCells ∧ ∀ c ∈ text, 49 ≤ c.toNat ∧ c.toNat ≤ 57)
    else solveSudoku puzzle = .error .assertFailed := by
  split
  case isFalse hlen => exact if_neg hlen
  case isTrue hlen =>
    obtain ⟨text,hsolve,hanswer⟩ := solveSudoku_ok hlen
    exact ⟨text, hsolve, hanswer, hanswer.digits⟩

end Texts

end IdealServer
