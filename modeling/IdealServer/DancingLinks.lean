import IdealServer.ExactCover
import IdealServer.SudokuSolver
import Mathlib.Data.List.Induction

/-! The linked nodes of a `SudokuSolver` as a matrix from which columns have been taken. `cover` takes a
column, `uncover` gives it back, and `solve` finds a cover of what is left or leaves everything as it was. -/
namespace IdealServer
open Circular ExactCover

/-- Where the nodes of a matrix are, and how many. -/
structure Layout (M : Matrix ℕ) (root : ℕ) : Prop where
  root_free : root ∉ M.columns ∧ ¬ M.Entry root
  headers_free : ∀ c ∈ M.columns, ¬ M.Entry c
  columns_lt : M.columns.length < kMaxNodes
  column_lt : ∀ c ∈ M.columns, (M.column c).length < kMaxNodes
  row_lt : ∀ x, M.Entry x → (M.mates x).length < kMaxNodes

/-- The nodes are linked as what is left of the matrix. -/
structure Represents (M : Matrix ℕ) (root : ℕ) (h : Nodes) (D : List ℕ) : Prop where
  header : Ring h.right h.left root (M.opened D)
  rows : ∀ x, M.Entry x → Ring h.right h.left x (M.mates x)
  columns : ∀ c ∈ M.opened D, Ring h.down h.up c (M.left D c)
  sizes : ∀ c ∈ M.opened D, h.size c = (M.left D c).length
  col : ∀ x, M.Entry x → h.col x = M.col x

namespace Nodes

theorem hide_eq (h : Nodes) (j : ℕ) : h.hide j = { h with
    up := skipPrev h.down h.up j
    down := skipNext h.down h.up j
    size := Function.update h.size (h.col j) (h.size (h.col j)-1) } := by
  have hj : skipPrev h.down h.up j j = h.up j := by
    rw [skipPrev, Function.update_apply]
    split <;> rfl
  change { h with
    up := skipPrev h.down h.up j
    down := Function.update h.down (skipPrev h.down h.up j j) (h.down j)
    size := Function.update h.size (h.col j) (h.size (h.col j)-1) } = _
  rw [hj]
  rfl

theorem removeHeader_eq (h : Nodes) (c : ℕ) : h.removeHeader c = { h with
    left := skipPrev h.right h.left c
    right := skipNext h.right h.left c } := by
  have hc : skipPrev h.right h.left c c = h.left c := by
    rw [skipPrev, Function.update_apply]
    split <;> rfl
  change { h with
    left := skipPrev h.right h.left c
    right := Function.update h.right (skipPrev h.right h.left c c) (h.right c) } = _
  rw [hc]
  rfl

/-- A node that its neighbours know comes back to its place. -/
theorem unhide_hide {h : Nodes} {j : ℕ} (hup : h.down (h.up j) = j) (hdown : h.up (h.down j) = j)
    (hne : h.down j ≠ j) : (h.hide j).unhide j = h := by
  obtain ⟨hj,hups,hdowns⟩ := unskip hup hdown hne
  have hself : Function.update (skipPrev h.down h.up j) (h.down j) j j = h.up j := congrFun hups j
  have hsize : Function.update (Function.update h.size (h.col j) (h.size (h.col j)-1)) (h.col j)
      (Function.update h.size (h.col j) (h.size (h.col j)-1) (h.col j)+1) = h.size := by
    rw [Function.update_self, Int.sub_add_cancel, Function.update_idem, Function.update_eq_self]
  rw [hide_eq]
  change { h with
    up := Function.update (skipPrev h.down h.up j) (skipNext h.down h.up j j) j
    down := Function.update (skipNext h.down h.up j)
      (Function.update (skipPrev h.down h.up j) (skipNext h.down h.up j j) j j) j
    size := _ } = h
  rw [hj, hself, hups, hdowns, hsize]

theorem restoreHeader_removeHeader {h : Nodes} {c : ℕ} (hleft : h.right (h.left c) = c)
    (hright : h.left (h.right c) = c) (hne : h.right c ≠ c) : (h.removeHeader c).restoreHeader c = h := by
  obtain ⟨hc,hlefts,hrights⟩ := unskip hleft hright hne
  have hself : Function.update (skipPrev h.right h.left c) (h.right c) c c = h.left c := congrFun hlefts c
  rw [removeHeader_eq]
  change { h with
    left := Function.update (skipPrev h.right h.left c) (skipNext h.right h.left c c) c
    right := Function.update (skipNext h.right h.left c)
      (Function.update (skipPrev h.right h.left c) (skipNext h.right h.left c c) c c) c } = h
  rw [hc, hself, hlefts, hrights]

end Nodes

section Rings
variable {M : Matrix ℕ} {root : ℕ} {D : List ℕ} {c k k' x z : ℕ} (L : Layout M root)
include L

theorem Layout.column_nodup (hk : k ∈ M.columns) : (k :: M.column k).Nodup := by
  apply List.nodup_cons.mpr ⟨_, M.column_nodup k hk⟩
  intro hin
  exact L.headers_free k hk (Matrix.entry_of_mem hk hin)

/-- The rings of two columns have no node in common. -/
theorem Layout.disjoint (hk : k ∈ M.columns) (hk' : k' ∈ M.columns) (hne : k ≠ k') (hz : z ∈ k :: M.column k) :
    z ∉ k' :: M.column k' := by
  intro hz'
  rcases List.mem_cons.mp hz with rfl | hz
  · rcases List.mem_cons.mp hz' with rfl | hz'
    · exact hne rfl
    · exact L.headers_free z hk (Matrix.entry_of_mem hk' hz')
  · rcases List.mem_cons.mp hz' with rfl | hz'
    · exact L.headers_free z hk' (Matrix.entry_of_mem hk hz)
    · exact hne ((M.col_eq k hk z hz).symm.trans (M.col_eq k' hk' z hz'))

theorem Layout.left_lt (hk : k ∈ M.columns) : (M.left D k).length < kMaxNodes :=
  Nat.lt_of_le_of_lt (List.length_filter_le _ _) (L.column_lt k hk)

theorem Layout.left_nodup (hk : k ∈ M.columns) : (k :: M.left D k).Nodup :=
  (L.column_nodup hk).sublist (List.filter_sublist.cons_cons k)

theorem Layout.opened_nodup : (root :: M.opened D).Nodup := by
  apply List.nodup_cons.mpr ⟨_, Matrix.opened_nodup⟩
  intro hin
  exact L.root_free.1 (Matrix.mem_opened.mp hin).1

end Rings

theorem length_filter_ne {l : List ℕ} {j : ℕ} (hl : l.Nodup) (hj : j ∈ l) :
    (l.filter (fun x => x ≠ j)).length = l.length-1 := by
  have herase : l.filter (fun x => x ≠ j) = l.erase j := by
    rw [hl.erase_eq_filter]
    congr 1
    funext x
    exact Bool.eq_iff_iff.mpr (by simp)
  rw [herase, List.length_erase_of_mem hj]

/-- While `cover` takes the column `c`, the nodes `done` are hidden already. -/
structure Hiding (M : Matrix ℕ) (root : ℕ) (D : List ℕ) (c : ℕ) (h : Nodes) (done : List ℕ) : Prop where
  header : Ring h.right h.left root (M.opened (c :: D))
  rows : ∀ x, M.Entry x → Ring h.right h.left x (M.mates x)
  own : Ring h.down h.up c (M.left D c)
  columns : ∀ k ∈ M.opened (c :: D), Ring h.down h.up k ((M.left D k).filter (fun x => x ∉ done))
  sizes : ∀ k ∈ M.opened (c :: D), h.size k = ((M.left D k).filter (fun x => x ∉ done)).length
  col : ∀ x, M.Entry x → h.col x = M.col x

section Hide
variable {M : Matrix ℕ} {root : ℕ} {D done : List ℕ} {c j : ℕ} {h : Nodes} (L : Layout M root)
  (hc : c ∈ M.opened D) (hH : Hiding M root D c h done) (hj : M.Entry j) (hk : M.col j ∈ M.opened (c :: D))
  (hfree : M.Free D j) (hdone : j ∉ done)
include L hH hj hk hfree hdone

/-- A node that is not hidden is in its place. -/
theorem Hiding.linked : h.down j ∈ M.col j :: M.column (M.col j) ∧ h.up j ∈ M.col j :: M.column (M.col j) ∧
    h.down (h.up j) = j ∧ h.up (h.down j) = j ∧ h.down j ≠ j := by
  have hin : j ∈ (M.left D (M.col j)).filter (fun x => x ∉ done) :=
    List.mem_filter.mpr ⟨Matrix.mem_left.mpr ⟨hj.2, hfree⟩, decide_eq_true hdone⟩
  have hsub : (M.col j :: (M.left D (M.col j)).filter (fun x => x ∉ done)).Sublist
      (M.col j :: M.column (M.col j)) := (List.filter_sublist.trans List.filter_sublist).cons_cons _
  obtain ⟨hdown,hup,hnext,hprev⟩ := ring_mem (hH.columns _ hk) hin
  refine ⟨hsub.subset hdown, hsub.subset hup, hnext, hprev, ?_⟩
  exact ring_next_ne (hH.columns _ hk) ((L.column_nodup hj.1).sublist hsub) hin

theorem Hiding.unhide : (h.hide j).unhide j = h := by
  obtain ⟨_,_,hup,hdown,hne⟩ := hH.linked L hj hk hfree hdone
  exact Nodes.unhide_hide hup hdown hne

include hc

theorem Hiding.hide : Hiding M root D c (h.hide j) (j :: done) := by
  have hin : j ∈ (M.left D (M.col j)).filter (fun x => x ∉ done) :=
    List.mem_filter.mpr ⟨Matrix.mem_left.mpr ⟨hj.2, hfree⟩, decide_eq_true hdone⟩
  obtain ⟨hdown,hup,_⟩ := hH.linked L hj hk hfree hdone
  have hc' := (Matrix.mem_opened.mp hc).1
  have hk' := Matrix.mem_opened.mp hk
  have hjc : M.col j ≠ c := fun he => hk'.2 (List.mem_cons.mpr (Or.inl he))
  have hfilter (l : List ℕ) : l.filter (fun x => x ∉ j :: done) =
      (l.filter (fun x => x ∉ done)).filter (fun x => x ≠ j) := by
    rw [List.filter_filter]
    congr 1
    funext x
    simp [not_or]
  -- the ring of another column
  have hother {k : ℕ} {l : List ℕ} (hkc : k ∈ M.columns) (hne : M.col j ≠ k) (hl : l.Sublist (M.column k))
      (hring : Ring h.down h.up k l) : Ring (h.hide j).down (h.hide j).up k l := by
    rw [Nodes.hide_eq]
    apply ring_skip_other hring
    · intro hmem
      exact L.disjoint hk'.1 hkc hne hdown ((hl.cons_cons k).subset hmem)
    · intro hmem
      exact L.disjoint hk'.1 hkc hne hup ((hl.cons_cons k).subset hmem)
  -- and what is left of it
  have hsame {k : ℕ} (hkc : k ∈ M.columns) (hne : M.col j ≠ k) :
      ((M.left D k).filter (fun x => x ∉ done)).filter (fun x => x ≠ j) =
        (M.left D k).filter (fun x => x ∉ done) := by
    apply List.filter_eq_self.mpr
    intro z hz
    apply decide_eq_true
    rintro rfl
    exact hne (M.col_eq k hkc z (Matrix.mem_left.mp (List.mem_filter.mp hz).1).1)
  have hnodup : ((M.left D (M.col j)).filter (fun x => x ∉ done)).Nodup :=
    ((List.nodup_cons.mp (L.left_nodup hk'.1)).2).filter _
  refine ⟨?_, ?_, ?_, ?_, ?_, ?_⟩
  · rw [Nodes.hide_eq]
    exact hH.header
  · rw [Nodes.hide_eq]
    exact hH.rows
  · exact hother hc' hjc List.filter_sublist hH.own
  · intro k hkin
    have hkmem := (Matrix.mem_opened.mp hkin).1
    rw [hfilter]
    by_cases hne : M.col j = k
    · subst hne
      rw [Nodes.hide_eq]
      apply ring_skip (hH.columns _ hk) _ hin
      exact (L.left_nodup hkmem).sublist (List.filter_sublist.cons_cons _)
    · rw [hsame hkmem hne]
      exact hother hkmem hne (List.filter_sublist.trans List.filter_sublist) (hH.columns k hkin)
  · intro k hkin
    have hkmem := (Matrix.mem_opened.mp hkin).1
    have hsize := hH.sizes k hkin
    rw [hfilter, Nodes.hide_eq]
    change Function.update h.size (h.col j) (h.size (h.col j)-1) k = _
    rw [hH.col j hj]
    by_cases hne : M.col j = k
    · subst hne
      rw [Function.update_self, hsize, length_filter_ne hnodup hin]
      have hpos := List.length_pos_of_mem hin
      omega
    · rw [Function.update_of_ne (Ne.symm hne), hsize, hsame hkmem hne]
  · rw [Nodes.hide_eq]
    exact hH.col

end Hide

section Cover
variable {M : Matrix ℕ} {root : ℕ} {D us : List ℕ} {c k x y m j : ℕ} {h : Nodes}

/-- What `cover` hides, in its order. -/
def hidden (M : Matrix ℕ) (D : List ℕ) (c : ℕ) : List ℕ := (M.left D c).flatMap M.mates

/-- The other nodes of a row that is left in the column. -/
theorem left_mate (hc : c ∈ M.opened D) (hx : x ∈ M.left D c) (hm : m ∈ M.mates x) :
    M.Entry m ∧ M.col m ∈ M.opened (c :: D) ∧ M.Free D m := by
  have hc' := (Matrix.mem_opened.mp hc).1
  obtain ⟨hx',hfree⟩ := Matrix.mem_left.mp hx
  have hentry := Matrix.entry_of_mem hc' hx'
  have hrow : m ∈ M.row x := List.mem_cons_of_mem x hm
  refine ⟨hentry.of_row hrow, Matrix.mem_opened.mpr ⟨(hentry.of_row hrow).1, ?_⟩, (hentry.free_iff hrow).mpr hfree⟩
  intro hin
  rcases List.mem_cons.mp hin with he | hin
  · have hnodup := hentry.nodup
    rw [ExactCover.Matrix.row, List.map_cons, M.col_eq c hc' x hx'] at hnodup
    exact (List.nodup_cons.mp hnodup).1 (he ▸ List.mem_map_of_mem hm)
  · exact hfree m hrow hin

theorem mem_hidden (hc : c ∈ M.opened D) (hj : j ∈ hidden M D c) :
    M.Entry j ∧ M.col j ∈ M.opened (c :: D) ∧ M.Free D j := by
  obtain ⟨x,hx,hm⟩ := List.mem_flatMap.mp hj
  exact left_mate hc hx hm

theorem hidden_nodup (hc : c ∈ M.opened D) : (hidden M D c).Nodup := by
  have hc' := (Matrix.mem_opened.mp hc).1
  have hentry {x : ℕ} (hx : x ∈ M.left D c) : M.Entry x :=
    Matrix.entry_of_mem hc' (Matrix.mem_left.mp hx).1
  apply List.nodup_flatMap.mpr
  refine ⟨?_, ?_⟩
  · intro x hx
    exact (List.nodup_cons.mp (List.Nodup.of_map _ (hentry hx).nodup)).2
  · apply List.Pairwise.imp_of_mem _ ((M.column_nodup c hc').filter _)
    intro x y hx hy hne m hmx hmy
    have hyx : y ∈ M.row x := by
      rw [← (hentry hx).mem_row (List.mem_cons_of_mem x hmx),
        (hentry hy).mem_row (List.mem_cons_of_mem y hmy)]
      exact List.mem_cons_self
    have hcol : M.col x = M.col y :=
      (M.col_eq c hc' x (Matrix.mem_left.mp hx).1).trans (M.col_eq c hc' y (Matrix.mem_left.mp hy).1).symm
    exact hne (List.inj_on_of_nodup_map (hentry hx).nodup List.mem_cons_self hyx hcol)

/-- The next node is not hidden before. -/
theorem hidden_prefix (hc : c ∈ M.opened D) (hus : us ++ [j] <+: hidden M D c) :
    M.Entry j ∧ M.col j ∈ M.opened (c :: D) ∧ M.Free D j ∧ j ∉ us.reverse := by
  have hin : j ∈ hidden M D c := hus.subset (List.mem_append_right us List.mem_cons_self)
  obtain ⟨hj,hk,hfree⟩ := mem_hidden hc hin
  refine ⟨hj, hk, hfree, ?_⟩
  rw [List.mem_reverse]
  intro hmem
  have hnodup := (hidden_nodup hc).sublist hus.sublist
  exact (List.nodup_append.mp hnodup).2.2 j hmem j List.mem_cons_self rfl

/-- Of the other columns the rows that meet `c` are hidden. -/
theorem filter_hidden (hc : c ∈ M.opened D) (hk : k ∈ M.opened (c :: D)) :
    (M.left D k).filter (fun x => x ∉ hidden M D c) = M.left (c :: D) k := by
  have hc' := (Matrix.mem_opened.mp hc).1
  obtain ⟨hk',hkc⟩ := Matrix.mem_opened.mp hk
  rw [Matrix.left, Matrix.left, List.filter_filter]
  apply List.filter_congr
  intro z hz
  have hentry := Matrix.entry_of_mem hk' hz
  rw [← Bool.decide_and]
  apply decide_eq_decide.mpr
  constructor
  · rintro ⟨hnot,hfree⟩ m hm hin
    rcases List.mem_cons.mp hin with he | hin
    · apply hnot
      have hm' := hentry.of_row hm
      have hleft : m ∈ M.left D c := by
        rw [← he]
        exact Matrix.mem_left.mpr ⟨hm'.2, (hentry.free_iff hm).mpr hfree⟩
      have hback : z ∈ M.row m := (hentry.mem_row hm).mpr List.mem_cons_self
      rcases List.mem_cons.mp hback with rfl | hback
      · exact absurd (List.mem_cons.mpr (Or.inl ((M.col_eq k hk' z hz).symm.trans he))) hkc
      · exact List.mem_flatMap.mpr ⟨m, hleft, hback⟩
    · exact hfree m hm hin
  · intro hfree
    refine ⟨?_, Matrix.free_of_subset (fun k hk => List.mem_cons_of_mem c hk) hfree⟩
    intro hin
    obtain ⟨x,hx,hm⟩ := List.mem_flatMap.mp hin
    have hx' := (Matrix.mem_left.mp hx).1
    have hxentry := Matrix.entry_of_mem hc' hx'
    have hxz : x ∈ M.row z := (hxentry.mem_row (List.mem_cons_of_mem x hm)).mpr List.mem_cons_self
    exact hfree x hxz (List.mem_cons.mpr (Or.inl (M.col_eq c hc' x hx')))

variable (L : Layout M root)
include L

/-- The header is out, and nothing is hidden yet. -/
theorem Represents.removeHeader (hR : Represents M root h D) (hc : c ∈ M.opened D) :
    Hiding M root D c (h.removeHeader c) [] ∧ (h.removeHeader c).restoreHeader c = h := by
  have hc' := (Matrix.mem_opened.mp hc).1
  obtain ⟨hnext,hprev,hleft,hright⟩ := ring_mem hR.header hc
  have hopened : M.opened (c :: D) = (M.opened D).filter (fun z => z ≠ c) := by
    rw [Matrix.opened, Matrix.opened, List.filter_filter]
    congr 1
    funext z
    simp [not_or]
  have hnone (l : List ℕ) : l.filter (fun x => x ∉ ([] : List ℕ)) = l :=
    List.filter_eq_self.mpr (fun x _ => decide_eq_true List.not_mem_nil)
  -- a row has no header in it
  have hrow {x z : ℕ} (hx : M.Entry x) (hz : z ∈ root :: M.opened D) : z ∉ x :: M.mates x := by
    intro hin
    have hzentry := hx.of_row hin
    rcases List.mem_cons.mp hz with rfl | hz
    · exact L.root_free.2 hzentry
    · exact L.headers_free z (Matrix.mem_opened.mp hz).1 hzentry
  refine ⟨⟨?_, ?_, ?_, ?_, ?_, ?_⟩, ?_⟩
  · rw [Nodes.removeHeader_eq, hopened]
    exact ring_skip hR.header L.opened_nodup hc
  · intro x hx
    rw [Nodes.removeHeader_eq]
    exact ring_skip_other (hR.rows x hx) (hrow hx hnext) (hrow hx hprev)
  · rw [Nodes.removeHeader_eq]
    exact hR.columns c hc
  · intro k hk
    rw [Nodes.removeHeader_eq, hnone]
    rw [hopened, List.mem_filter] at hk
    exact hR.columns k hk.1
  · intro k hk
    rw [Nodes.removeHeader_eq, hnone]
    rw [hopened, List.mem_filter] at hk
    exact hR.sizes k hk.1
  · rw [Nodes.removeHeader_eq]
    exact hR.col
  · exact Nodes.restoreHeader_removeHeader hleft hright (ring_next_ne hR.header L.opened_nodup hc)

/-- The nodes are hidden one by one, and each could be shown again. -/
theorem Hiding.foldl (hc : c ∈ M.opened D) (hH : Hiding M root D c h []) (hus : us <+: hidden M D c) :
    Hiding M root D c (us.foldl Nodes.hide h) us.reverse := by
  induction us using List.reverseRecOn with
  | nil => exact hH
  | append_singleton us j ih =>
    obtain ⟨hj,hk,hfree,hnew⟩ := hidden_prefix hc hus
    rw [List.foldl_append, List.reverse_append]
    exact (ih ((List.prefix_append us [j]).trans hus)).hide L hc hj hk hfree hnew

theorem Hiding.foldl_unhide (hc : c ∈ M.opened D) (hH : Hiding M root D c h []) (hus : us ++ [j] <+: hidden M D c) :
    ((us ++ [j]).foldl Nodes.hide h).unhide j = us.foldl Nodes.hide h := by
  obtain ⟨hj,hk,hfree,hnew⟩ := hidden_prefix hc hus
  rw [List.foldl_append]
  exact (hH.foldl L hc ((List.prefix_append us [j]).trans hus)).unhide L hj hk hfree hnew

omit L in
theorem foldl_hide_concat (us : List ℕ) (j : ℕ) (h : Nodes) :
    (us ++ [j]).foldl Nodes.hide h = (us.foldl Nodes.hide h).hide j := List.foldl_append

omit L in
theorem foldl_hide_right (us : List ℕ) (h : Nodes) : (us.foldl Nodes.hide h).right = h.right := by
  induction us generalizing h with
  | nil => rfl
  | cons j us ih => exact ih (h.hide j)

omit L in
theorem foldl_hide_left (us : List ℕ) (h : Nodes) : (us.foldl Nodes.hide h).left = h.left := by
  induction us generalizing h with
  | nil => rfl
  | cons j us ih => exact ih (h.hide j)

omit L in
theorem mates_begin {zs : List ℕ} (hleft : M.left D c = us ++ zs) : us.flatMap M.mates <+: hidden M D c := by
  rw [hidden, hleft, List.flatMap_append]
  exact List.prefix_append _ _

omit L in
theorem flatMap_row_prefix {zs ws ys : List ℕ} (hleft : M.left D c = us ++ x :: zs) (hrow : M.mates x = ws ++ ys) :
    us.flatMap M.mates ++ ws <+: hidden M D c := by
  rw [hidden, hleft, List.flatMap_append, List.flatMap_cons, hrow, List.append_assoc]
  exact (List.prefix_append_right_inj _).mpr (List.prefix_append _ _)

section Rows
variable {zs : List ℕ} (hR : Represents M root h D) (hc : c ∈ M.opened D) (hleft : M.left D c = us ++ x :: zs)
include hR hc hleft

omit L hR in
theorem row_entry : M.Entry x := by
  have hin : x ∈ M.left D c := by
    rw [hleft]
    exact List.mem_append_right us List.mem_cons_self
  exact Matrix.entry_of_mem (Matrix.mem_opened.mp hc).1 (Matrix.mem_left.mp hin).1

/-- The inner loop of `cover`. -/
theorem hide_row : walk Nodes.right (fun j h => some (false, h.hide j)) x kMaxNodes
      (((us.flatMap M.mates).foldl Nodes.hide (h.removeHeader c)).right x)
      ((us.flatMap M.mates).foldl Nodes.hide (h.removeHeader c)) =
    some (false, ((us ++ [x]).flatMap M.mates).foldl Nodes.hide (h.removeHeader c)) := by
  have hx := row_entry hc hleft
  have hring := (((hR.removeHeader L hc).1.foldl L hc (mates_begin hleft)).rows x hx)
  have hnot : x ∉ M.mates x := (List.nodup_cons.mp (List.Nodup.of_map _ hx.nodup)).1
  let I (ys : List ℕ) (s : Nodes) : Prop := ∃ ws, M.mates x = ws ++ ys ∧
    s = (us.flatMap M.mates ++ ws).foldl Nodes.hide (h.removeHeader c)
  have hstart : I (M.mates x) ((us.flatMap M.mates).foldl Nodes.hide (h.removeHeader c)) :=
    ⟨[], rfl, by rw [List.append_nil]⟩
  have hlink (ys : List ℕ) (s : Nodes) (hI : I ys s) (z : ℕ) (_ : z ∈ x :: M.mates x) :
      s.right z = ((us.flatMap M.mates).foldl Nodes.hide (h.removeHeader c)).right z := by
    obtain ⟨ws,_,rfl⟩ := hI
    rw [foldl_hide_right, foldl_hide_right]
  have hbody (y : ℕ) (ys : List ℕ) (s : Nodes) (hI : I (y :: ys) s) :
      ∃ s', some (false, s.hide y) = some (false, s') ∧ I ys s' := by
    obtain ⟨ws,hws,rfl⟩ := hI
    refine ⟨_, rfl, ws ++ [y], ?_, ?_⟩
    · rw [hws, List.append_assoc]
      rfl
    · rw [← List.append_assoc, foldl_hide_concat]
  obtain ⟨s',hwalk,ws,hws,rfl⟩ := walk_all hring hnot (L.row_lt x hx) hstart hlink hbody
  rw [hwalk, List.flatMap_append, List.flatMap_singleton, hws, List.append_nil]

/-- The inner loop of `uncover` takes it back. -/
theorem unhide_row : walk Nodes.left (fun j h => some (false, h.unhide j)) x kMaxNodes
      ((((us ++ [x]).flatMap M.mates).foldl Nodes.hide (h.removeHeader c)).left x)
      (((us ++ [x]).flatMap M.mates).foldl Nodes.hide (h.removeHeader c)) =
    some (false, (us.flatMap M.mates).foldl Nodes.hide (h.removeHeader c)) := by
  have hx := row_entry hc hleft
  have hH := (hR.removeHeader L hc).1
  have hleft' : M.left D c = (us ++ [x]) ++ zs := by rw [hleft, List.append_assoc, List.singleton_append]
  have hring := ring_reverse ((hH.foldl L hc (mates_begin hleft')).rows x hx)
  have hnot : x ∉ (M.mates x).reverse := by
    rw [List.mem_reverse]
    exact (List.nodup_cons.mp (List.Nodup.of_map _ hx.nodup)).1
  have hlen : (M.mates x).reverse.length < kMaxNodes := by
    rw [List.length_reverse]
    exact L.row_lt x hx
  let I (ys : List ℕ) (s : Nodes) : Prop := ∃ ws, M.mates x = ys.reverse ++ ws ∧
    s = (us.flatMap M.mates ++ ys.reverse).foldl Nodes.hide (h.removeHeader c)
  have hstart : I (M.mates x).reverse (((us ++ [x]).flatMap M.mates).foldl Nodes.hide (h.removeHeader c)) := by
    refine ⟨[], ?_, ?_⟩
    · rw [List.reverse_reverse, List.append_nil]
    · rw [List.reverse_reverse, List.flatMap_append, List.flatMap_singleton]
  have hlink (ys : List ℕ) (s : Nodes) (hI : I ys s) (z : ℕ) (_ : z ∈ x :: (M.mates x).reverse) :
      s.left z = (((us ++ [x]).flatMap M.mates).foldl Nodes.hide (h.removeHeader c)).left z := by
    obtain ⟨ws,_,rfl⟩ := hI
    rw [foldl_hide_left, foldl_hide_left]
  have hbody (y : ℕ) (ys : List ℕ) (s : Nodes) (hI : I (y :: ys) s) :
      ∃ s', some (false, s.unhide y) = some (false, s') ∧ I ys s' := by
    obtain ⟨ws,hws,rfl⟩ := hI
    rw [List.reverse_cons] at hws
    have hprefix := flatMap_row_prefix hleft hws
    rw [← List.append_assoc] at hprefix
    refine ⟨_, rfl, y :: ws, ?_, ?_⟩
    · rw [hws, List.append_assoc]
      rfl
    · rw [List.reverse_cons, ← List.append_assoc]
      exact hH.foldl_unhide L hc hprefix
  obtain ⟨s',hwalk,ws,_,rfl⟩ := walk_all hring hnot hlen hstart hlink hbody
  rw [hwalk, List.reverse_nil, List.append_nil]

end Rows

variable (hR : Represents M root h D) (hc : c ∈ M.opened D)
include hR hc

theorem cover_eq : h.cover c = some (false, (hidden M D c).foldl Nodes.hide (h.removeHeader c)) := by
  have hc' := (Matrix.mem_opened.mp hc).1
  have hH := (hR.removeHeader L hc).1
  -- the rows that are done come first
  let I (zs : List ℕ) (s : Nodes) : Prop := ∃ us, M.left D c = us ++ zs ∧
    s = (us.flatMap M.mates).foldl Nodes.hide (h.removeHeader c)
  have hlink (zs : List ℕ) (s : Nodes) (hI : I zs s) (z : ℕ) (hz : z ∈ c :: M.left D c) :
      s.down z = (h.removeHeader c).down z := by
    obtain ⟨us,hleft,rfl⟩ := hI
    exact path_next_eq (hH.foldl L hc (mates_begin hleft)).own hH.own hz
  have hbody (z : ℕ) (zs : List ℕ) (s : Nodes) (hI : I (z :: zs) s) : ∃ s',
      walk Nodes.right (fun j h => some (false, h.hide j)) z kMaxNodes (s.right z) s = some (false, s') ∧
        I zs s' := by
    obtain ⟨us,hleft,rfl⟩ := hI
    refine ⟨_, hide_row L hR hc hleft, us ++ [z], ?_, rfl⟩
    rw [hleft, List.append_assoc, List.singleton_append]
  obtain ⟨s',hwalk,us,hus,rfl⟩ := walk_all (I := I) hH.own (List.nodup_cons.mp (L.left_nodup hc')).1
    (L.left_lt hc') ⟨[], rfl, rfl⟩ hlink hbody
  rw [List.append_nil] at hus
  rw [Nodes.cover, hidden, hus]
  exact hwalk

/-- The nodes are then linked as the matrix without the column, whose own ring stays as it is. -/
theorem represents_cover :
    Represents M root ((hidden M D c).foldl Nodes.hide (h.removeHeader c)) (c :: D) ∧
      Ring ((hidden M D c).foldl Nodes.hide (h.removeHeader c)).down
        ((hidden M D c).foldl Nodes.hide (h.removeHeader c)).up c (M.left D c) := by
  have hH := (hR.removeHeader L hc).1.foldl L hc (List.prefix_refl (hidden M D c))
  have hreverse (l : List ℕ) : l.filter (fun x => x ∉ (hidden M D c).reverse) =
      l.filter (fun x => x ∉ hidden M D c) := by
    simp only [List.mem_reverse]
  refine ⟨⟨hH.header, hH.rows, ?_, ?_, hH.col⟩, hH.own⟩
  · intro k hk
    rw [← filter_hidden hc hk, ← hreverse]
    exact hH.columns k hk
  · intro k hk
    rw [← filter_hidden hc hk, ← hreverse]
    exact hH.sizes k hk

/-- `uncover` leaves everything as it was before. -/
theorem uncover_eq :
    ((hidden M D c).foldl Nodes.hide (h.removeHeader c)).uncover c = some (false, h) := by
  have hc' := (Matrix.mem_opened.mp hc).1
  obtain ⟨hH,hrestore⟩ := hR.removeHeader L hc
  have hown := ring_reverse (represents_cover L hR hc).2
  have hnot : c ∉ (M.left D c).reverse := by
    rw [List.mem_reverse]
    exact (List.nodup_cons.mp (L.left_nodup hc')).1
  have hlen : (M.left D c).reverse.length < kMaxNodes := by
    rw [List.length_reverse]
    exact L.left_lt hc'
  -- the rows that are still hidden come first
  let I (zs : List ℕ) (s : Nodes) : Prop := ∃ ws, M.left D c = zs.reverse ++ ws ∧
    s = (zs.reverse.flatMap M.mates).foldl Nodes.hide (h.removeHeader c)
  have hstart : I (M.left D c).reverse ((hidden M D c).foldl Nodes.hide (h.removeHeader c)) := by
    refine ⟨[], ?_, ?_⟩
    · rw [List.reverse_reverse, List.append_nil]
    · rw [List.reverse_reverse]
      rfl
  have hlink (zs : List ℕ) (s : Nodes) (hI : I zs s) (z : ℕ) (hz : z ∈ c :: (M.left D c).reverse) :
      s.up z = ((hidden M D c).foldl Nodes.hide (h.removeHeader c)).up z := by
    obtain ⟨ws,hleft,rfl⟩ := hI
    exact path_next_eq (ring_reverse (hH.foldl L hc (mates_begin hleft)).own) hown hz
  have hbody (z : ℕ) (zs : List ℕ) (s : Nodes) (hI : I (z :: zs) s) : ∃ s',
      walk Nodes.left (fun j h => some (false, h.unhide j)) z kMaxNodes (s.left z) s = some (false, s') ∧
        I zs s' := by
    obtain ⟨ws,hleft,rfl⟩ := hI
    rw [List.reverse_cons, List.append_assoc, List.singleton_append] at hleft
    rw [List.reverse_cons]
    exact ⟨_, unhide_row L hR hc hleft, z :: ws, hleft, rfl⟩
  obtain ⟨s',hwalk,ws,_,rfl⟩ := walk_all hown hnot hlen hstart hlink hbody
  rw [Nodes.uncover, hwalk]
  exact congrArg (fun h => some (false, h)) hrestore

end Cover

/-- The nodes after columns have been taken, the last one first. -/
def taken (M : Matrix ℕ) (D : List ℕ) (h : Nodes) : List ℕ → Nodes
  | [] => h
  | c :: cs => (hidden M (cs ++ D) c).foldl Nodes.hide ((taken M D h cs).removeHeader c)

theorem foldl_hide_name (us : List ℕ) (h : Nodes) : (us.foldl Nodes.hide h).name = h.name := by
  induction us generalizing h with
  | nil => rfl
  | cons j us ih => exact ih (h.hide j)

theorem taken_name (M : Matrix ℕ) (D : List ℕ) (h : Nodes) (cs : List ℕ) : (taken M D h cs).name = h.name := by
  induction cs with
  | nil => rfl
  | cons c cs ih =>
    rw [taken, foldl_hide_name]
    exact ih

section Take
variable {M : Matrix ℕ} {root : ℕ} {D ws ys : List ℕ} {c x y : ℕ} {h : Nodes} (L : Layout M root)

/-- The columns of a row that is left are left, one after the other. -/
theorem row_opened (hc : c ∈ M.opened D) (hx : x ∈ M.left D c) (hrow : M.mates x = ws ++ y :: ys) :
    M.col y ∈ M.opened ((ws.map M.col).reverse ++ c :: D) := by
  have hc' := (Matrix.mem_opened.mp hc).1
  have hy : y ∈ M.mates x := by
    rw [hrow]
    exact List.mem_append_right ws List.mem_cons_self
  obtain ⟨hentry,hopen,_⟩ := left_mate hc hx hy
  obtain ⟨hy1,hy2⟩ := Matrix.mem_opened.mp hopen
  refine Matrix.mem_opened.mpr ⟨hy1, ?_⟩
  rw [List.mem_append, List.mem_reverse, not_or]
  refine ⟨?_, hy2⟩
  have hnodup := (Matrix.entry_of_mem hc' (Matrix.mem_left.mp hx).1).nodup
  rw [ExactCover.Matrix.row, List.map_cons, hrow, List.map_append, List.map_cons] at hnodup
  intro hin
  exact (List.nodup_append.mp (List.nodup_cons.mp hnodup).2).2.2 _ hin _ List.mem_cons_self rfl

include L

theorem represents_taken (hR : Represents M root h (c :: D)) (hc : c ∈ M.opened D) (hx : x ∈ M.left D c)
    (hrow : M.mates x = ws ++ ys) :
    Represents M root (taken M (c :: D) h (ws.map M.col).reverse) ((ws.map M.col).reverse ++ c :: D) := by
  induction ws using List.reverseRecOn generalizing ys with
  | nil => exact hR
  | append_singleton ws y ih =>
    rw [List.append_assoc, List.singleton_append] at hrow
    rw [List.map_append, List.reverse_append]
    exact (represents_cover L (ih hrow) (row_opened hc hx hrow)).1

variable (hR : Represents M root h (c :: D)) (hc : c ∈ M.opened D) (hx : x ∈ M.left D c)
include hR hc hx

/-- The first loop over a row in `solve`. -/
theorem take_row : walk Nodes.right (fun j h => h.cover (h.col j)) x kMaxNodes (h.right x) h =
    some (false, taken M (c :: D) h ((M.mates x).map M.col).reverse) := by
  have hentry := Matrix.entry_of_mem (Matrix.mem_opened.mp hc).1 (Matrix.mem_left.mp hx).1
  have hnot : x ∉ M.mates x := (List.nodup_cons.mp (List.Nodup.of_map _ hentry.nodup)).1
  let I (ys : List ℕ) (s : Nodes) : Prop := ∃ ws, M.mates x = ws ++ ys ∧
    s = taken M (c :: D) h (ws.map M.col).reverse
  have hlink (ys : List ℕ) (s : Nodes) (hI : I ys s) (z : ℕ) (hz : z ∈ x :: M.mates x) :
      s.right z = h.right z := by
    obtain ⟨ws,hrow,rfl⟩ := hI
    exact path_next_eq ((represents_taken L hR hc hx hrow).rows x hentry) (hR.rows x hentry) hz
  have hbody (y : ℕ) (ys : List ℕ) (s : Nodes) (hI : I (y :: ys) s) :
      ∃ s', s.cover (s.col y) = some (false, s') ∧ I ys s' := by
    obtain ⟨ws,hrow,rfl⟩ := hI
    have hy : M.Entry y := by
      apply (left_mate hc hx _).1
      rw [hrow]
      exact List.mem_append_right ws List.mem_cons_self
    have hR' := represents_taken L hR hc hx hrow
    rw [hR'.col y hy, cover_eq L hR' (row_opened hc hx hrow)]
    refine ⟨_, rfl, ws ++ [y], ?_, ?_⟩
    · rw [hrow, List.append_assoc, List.singleton_append]
    · rw [List.map_append, List.reverse_append]
      rfl
  have hstart : I (M.mates x) h := ⟨[], rfl, rfl⟩
  obtain ⟨s',hwalk,ws,hrow,rfl⟩ := walk_all (hR.rows x hentry) hnot (L.row_lt x hentry) hstart hlink hbody
  rw [List.append_nil] at hrow
  rw [hwalk, hrow]

/-- The second one undoes it. -/
theorem give_row :
    walk Nodes.left (fun j h => h.uncover (h.col j)) x kMaxNodes
        ((taken M (c :: D) h ((M.mates x).map M.col).reverse).left x)
        (taken M (c :: D) h ((M.mates x).map M.col).reverse) =
      some (false, h) := by
  have hentry := Matrix.entry_of_mem (Matrix.mem_opened.mp hc).1 (Matrix.mem_left.mp hx).1
  have hnot : x ∉ (M.mates x).reverse := by
    rw [List.mem_reverse]
    exact (List.nodup_cons.mp (List.Nodup.of_map _ hentry.nodup)).1
  have hlen : (M.mates x).reverse.length < kMaxNodes := by
    rw [List.length_reverse]
    exact L.row_lt x hentry
  have hring := ring_reverse ((represents_taken L hR hc hx (List.append_nil _).symm).rows x hentry)
  let I (ys : List ℕ) (s : Nodes) : Prop := ∃ zs, M.mates x = ys.reverse ++ zs ∧
    s = taken M (c :: D) h (ys.reverse.map M.col).reverse
  have hstart : I (M.mates x).reverse (taken M (c :: D) h ((M.mates x).map M.col).reverse) := by
    refine ⟨[], ?_, ?_⟩
    · rw [List.reverse_reverse, List.append_nil]
    · rw [List.reverse_reverse]
  have hlink (ys : List ℕ) (s : Nodes) (hI : I ys s) (z : ℕ) (hz : z ∈ x :: (M.mates x).reverse) :
      s.left z = (taken M (c :: D) h ((M.mates x).map M.col).reverse).left z := by
    obtain ⟨zs,hrow,rfl⟩ := hI
    exact path_next_eq (ring_reverse ((represents_taken L hR hc hx hrow).rows x hentry)) hring hz
  have hbody (y : ℕ) (ys : List ℕ) (s : Nodes) (hI : I (y :: ys) s) :
      ∃ s', s.uncover (s.col y) = some (false, s') ∧ I ys s' := by
    obtain ⟨zs,hrow,rfl⟩ := hI
    have hrow' : M.mates x = ys.reverse ++ y :: zs := by
      rw [hrow, List.reverse_cons, List.append_assoc, List.singleton_append]
    have hy : M.Entry y := by
      apply (left_mate hc hx _).1
      rw [hrow']
      exact List.mem_append_right _ List.mem_cons_self
    rw [(represents_taken L hR hc hx hrow).col y hy, List.reverse_cons, List.map_append, List.reverse_append]
    have hback := uncover_eq L (represents_taken L hR hc hx hrow') (row_opened hc hx hrow')
    exact ⟨_, hback, y :: zs, hrow', rfl⟩
  obtain ⟨s',hwalk,zs,_,rfl⟩ := walk_all hring hnot hlen hstart hlink hbody
  exact hwalk

end Take

section Solve
variable {M : Matrix ℕ} {root : ℕ} {D : List ℕ} {c x : ℕ} {h : Nodes} (L : Layout M root)

/-- Taking a column leaves fewer of them. -/
theorem opened_lt (hc : c ∈ M.opened D) (cs : List ℕ) : (M.opened (cs ++ c :: D)).length < (M.opened D).length := by
  have hopened : M.opened (cs ++ c :: D) = (M.opened D).filter (fun z => z ∉ cs ++ c :: D) := by
    rw [Matrix.opened, Matrix.opened, List.filter_filter]
    congr 1
    funext z
    simp only [List.mem_append, List.mem_cons, ← Bool.decide_and]
    apply decide_eq_decide.mpr
    tauto
  rw [hopened, List.length_filter_lt_length_iff_exists]
  refine ⟨c, hc, ?_⟩
  rw [decide_eq_true_iff, not_not]
  exact List.mem_append_right cs List.mem_cons_self

include L

theorem left_eq_root_iff (hR : Represents M root h D) : h.left root = root ↔ M.opened D = [] := by
  constructor
  · intro he
    by_contra hne
    have hin := ring_prev_mem hR.header hne
    rw [he] at hin
    exact (List.nodup_cons.mp L.opened_nodup).1 hin
  · intro hnil
    have hring := hR.header
    rw [hnil] at hring
    exact hring.2

/-- It is one of the columns that are left. -/
theorem getMinColumn_spec (hR : Represents M root h D) (hne : M.opened D ≠ []) :
    ∃ c ∈ M.opened D, h.getMinColumn root = some c := by
  have hfirst := ring_next_mem hR.header hne
  have hring := hR.header
  unfold Nodes.getMinColumn
  dsimp only
  split
  case isFalse => exact ⟨_, hfirst, rfl⟩
  case isTrue =>
    have hnodup := L.opened_nodup (D := D)
    have hlen : (M.opened D).length < kMaxNodes := Nat.lt_of_le_of_lt (List.length_filter_le _ _) L.columns_lt
    cases hopen : M.opened D with
    | nil => exact absurd hopen hne
    | cons c cs =>
      rw [hopen] at hring hnodup hlen
      obtain ⟨hc,hpath⟩ := hring
      have hnot : root ∉ cs := fun hin => (List.nodup_cons.mp hnodup).1 (List.mem_cons_of_mem c hin)
      let I (zs : List ℕ) (best : ℕ × ℤ) : Prop := best.1 ∈ c :: cs ∧ ∀ z ∈ zs, z ∈ cs
      have hbody (z : ℕ) (zs : List ℕ) (best : ℕ × ℤ) (hI : I (z :: zs) best) : ∃ found best',
          h.smaller z best = some (found, best') ∧ if found then best'.1 ∈ c :: cs else I zs best' := by
        have hzs : ∀ w ∈ zs, w ∈ cs := fun w hw => hI.2 w (List.mem_cons_of_mem z hw)
        unfold Nodes.smaller
        split
        case isTrue =>
          have hz : z ∈ c :: cs := List.mem_cons_of_mem c (hI.2 z List.mem_cons_self)
          refine ⟨_, _, rfl, ?_⟩
          split
          · exact hz
          · exact ⟨hz, hzs⟩
        case isFalse => exact ⟨false, best, rfl, hI.1, hzs⟩
      have hlink (zs : List ℕ) (best : ℕ × ℤ) (_ : I zs best) (z : ℕ) (_ : z ∈ c :: cs) :
          (fun _ cc => h.right cc : ℕ × ℤ → ℕ → ℕ) best z = h.right z := rfl
      obtain ⟨found,best,hwalk,hend⟩ := walk_spec hpath hnot (Nat.lt_of_succ_lt hlen)
        (s := (c, h.size c)) ⟨List.mem_cons_self, fun z hz => hz⟩ hlink hbody
      refine ⟨best.1, ?_, ?_⟩
      · cases found with
        | true => exact hend
        | false => exact hend.1
      · rw [hc.1, hwalk]
        rfl

omit L

/-- The values of the rows that the entries stand for. -/
def put (read : ℕ → ℕ × ℕ) (inout : List ℕ) (sel : List ℕ) : List ℕ :=
  sel.foldl (fun inout x => inout.set (read x).1 (read x).2) inout

/-- Going around the row of an entry gives its cell and its value. -/
def Reads (M : Matrix ℕ) (root : ℕ) (name : ℕ → ℕ) (read : ℕ → ℕ × ℕ) : Prop :=
  ∀ h D x, Represents M root h D → h.name = name → M.Entry x → h.readRow kMaxNodes x none none = some (read x)

theorem writeBack_eq {name : ℕ → ℕ} {read : ℕ → ℕ × ℕ} (hread : Reads M root name read)
    (hR : Represents M root h D) (hname : h.name = name) {stack : List ℕ} (hstack : ∀ x ∈ stack, M.Entry x)
    (inout : List ℕ) : SudokuSolver.writeBack h stack inout = some (put read inout stack) := by
  induction stack generalizing inout with
  | nil => rfl
  | cons x stack ih =>
    have hx := hread h D x hR hname (hstack x List.mem_cons_self)
    have hrest := ih (fun y hy => hstack y (List.mem_cons_of_mem x hy)) (inout.set (read x).1 (read x).2)
    rw [SudokuSolver.writeBack, List.foldlM_cons, hx]
    exact hrest

/-- The columns that are taken when the row of `x` is tried. -/
def rowTaken (M : Matrix ℕ) (D : List ℕ) (c x : ℕ) : List ℕ := ((M.mates x).map M.col).reverse ++ c :: D

theorem mem_rowTaken (hc : c ∈ M.opened D) (hx : x ∈ M.left D c) (k : ℕ) :
    k ∈ rowTaken M D c x ↔ k ∈ (M.row x).map M.col ∨ k ∈ D := by
  have hcol := M.col_eq c (Matrix.mem_opened.mp hc).1 x (Matrix.mem_left.mp hx).1
  rw [rowTaken, ExactCover.Matrix.row, List.map_cons, hcol]
  simp only [List.mem_append, List.mem_reverse, List.mem_cons]
  tauto

include L

section TryRow
variable {again : SudokuSolver → Option (Bool × SudokuSolver)} {s s' : SudokuSolver}
  (hR : Represents M root s.nodes (c :: D)) (hc : c ∈ M.opened D) (hx : x ∈ M.left D c)
include hR hc hx

theorem tryRow_found
    (h : again { s with
      stack := s.stack ++ [x]
      nodes := taken M (c :: D) s.nodes ((M.mates x).map M.col).reverse } = some (true, s')) :
    SudokuSolver.tryRow again x s = some (true, s') := by
  simp only [SudokuSolver.tryRow, take_row L hR hc hx, bind, Option.bind, h, if_true, pure]

theorem tryRow_failed
    (h : again { s with
      stack := s.stack ++ [x]
      nodes := taken M (c :: D) s.nodes ((M.mates x).map M.col).reverse } = some (false, { s with
        stack := s.stack ++ [x]
        nodes := taken M (c :: D) s.nodes ((M.mates x).map M.col).reverse })) :
    SudokuSolver.tryRow again x s = some (false, s) := by
  simp only [SudokuSolver.tryRow, take_row L hR hc hx, bind, Option.bind, h, Bool.false_eq_true, if_false, pure,
    give_row L hR hc hx, List.dropLast_concat]

end TryRow

/-- The search finds a cover of what is left. Where there is none, it leaves everything as it was. -/
def Outcome (M : Matrix ℕ) (read : ℕ → ℕ × ℕ) (D : List ℕ) (s : SudokuSolver)
    (r : Option (Bool × SudokuSolver)) : Prop :=
  (∃ s', r = some (true, s') ∧ ∃ sel, M.Covers D sel ∧ s'.inout = put read s.inout (s.stack ++ sel)) ∨
    (r = some (false, s) ∧ ∀ sel, ¬ M.Covers D sel)

/-- It does so where fewer than `n` columns are left. -/
def Searches (M : Matrix ℕ) (root : ℕ) (name : ℕ → ℕ) (read : ℕ → ℕ × ℕ)
    (again : SudokuSolver → Option (Bool × SudokuSolver)) (n : ℕ) : Prop :=
  ∀ D s, s.root = root → Represents M root s.nodes D → s.nodes.name = name → (∀ x ∈ s.stack, M.Entry x) →
    (M.opened D).length < n → Outcome M read D s (again s)

variable {name : ℕ → ℕ} {read : ℕ → ℕ × ℕ} {n : ℕ}

/-- The rest of the search, from one row of the column. -/
theorem tryRow_spec {again : SudokuSolver → Option (Bool × SudokuSolver)} {s : SudokuSolver}
    (hagain : Searches M root name read again n) (hroot : s.root = root)
    (hR : Represents M root s.nodes (c :: D)) (hname : s.nodes.name = name) (hstack : ∀ x ∈ s.stack, M.Entry x)
    (hc : c ∈ M.opened D) (hx : x ∈ M.left D c) (hn : (M.opened D).length ≤ n) :
    (∃ s', SudokuSolver.tryRow again x s = some (true, s') ∧
        ∃ sel, M.Covers D sel ∧ s'.inout = put read s.inout (s.stack ++ sel)) ∨
      (SudokuSolver.tryRow again x s = some (false, s) ∧ ∀ sel, ¬ M.Covers (rowTaken M D c x) sel) := by
  have hentry := Matrix.entry_of_mem (Matrix.mem_opened.mp hc).1 (Matrix.mem_left.mp hx).1
  have hstack' : ∀ y ∈ s.stack ++ [x], M.Entry y := by
    intro y hy
    rcases List.mem_append.mp hy with hy | hy
    · exact hstack y hy
    · rw [List.mem_singleton.mp hy]
      exact hentry
  have hfewer := Nat.lt_of_lt_of_le (opened_lt hc ((M.mates x).map M.col).reverse) hn
  have hnodes := represents_taken L hR hc hx (List.append_nil _).symm
  have hnames := (taken_name M (c :: D) s.nodes ((M.mates x).map M.col).reverse).trans hname
  rcases hagain (rowTaken M D c x) { s with
      stack := s.stack ++ [x]
      nodes := taken M (c :: D) s.nodes ((M.mates x).map M.col).reverse }
    hroot hnodes hnames hstack' hfewer with ⟨s',hsolve,sel,hsel,hput⟩ | ⟨hsolve,hnone⟩
  · left
    refine ⟨s', tryRow_found L hR hc hx hsolve, x :: sel, ?_, ?_⟩
    · exact Matrix.covers_cons hentry (Matrix.mem_left.mp hx).2 (mem_rowTaken hc hx) hsel
    · rw [hput, List.append_assoc, List.singleton_append]
  · exact Or.inr ⟨tryRow_failed L hR hc hx hsolve, hnone⟩

theorem solveBody_spec (hread : Reads M root name read)
    {again : SudokuSolver → Option (Bool × SudokuSolver)} (hagain : Searches M root name read again n) :
    Searches M root name read (SudokuSolver.solveBody again) (n+1) := by
  intro D s hroot hR hname hstack hn
  by_cases hnil : M.opened D = []
  · have hend : s.nodes.left s.root = s.root := by
      rw [hroot, left_eq_root_iff L hR]
      exact hnil
    refine Or.inl ⟨{ s with inout := put read s.inout s.stack }, ?_, [], Matrix.covers_nil hnil, ?_⟩
    · rw [SudokuSolver.solveBody, if_pos hend, writeBack_eq hread hR hname hstack]
      rfl
    · rw [List.append_nil]
  · have hgo : ¬ s.nodes.left s.root = s.root := by
      rw [hroot, left_eq_root_iff L hR]
      exact hnil
    obtain ⟨c,hc,hmin⟩ := getMinColumn_spec L hR hnil
    have hc' := (Matrix.mem_opened.mp hc).1
    have hcover := cover_eq L hR hc
    have huncover := uncover_eq L hR hc
    obtain ⟨hR1,hown⟩ := represents_cover L hR hc
    have hname1 := (foldl_hide_name (hidden M D c) (s.nodes.removeHeader c)).trans hname
    generalize (hidden M D c).foldl Nodes.hide (s.nodes.removeHeader c) = h1 at hcover huncover hR1 hown hname1
    -- none of the rows that are done can be completed
    let I (zs : List ℕ) (s' : SudokuSolver) : Prop := s' = { s with nodes := h1 } ∧
      ∃ us, M.left D c = us ++ zs ∧ ∀ x ∈ us, ∀ sel, ¬ M.Covers (rowTaken M D c x) sel
    let Q (s' : SudokuSolver) : Prop :=
      ∃ sel, M.Covers D sel ∧ s'.inout = put read s.inout (s.stack ++ sel)
    have hstart : I (M.left D c) { s with nodes := h1 } :=
      ⟨rfl, [], rfl, fun x hx => absurd hx List.not_mem_nil⟩
    have hlink (zs : List ℕ) (s' : SudokuSolver) (hI : I zs s') (z : ℕ) (_ : z ∈ c :: M.left D c) :
        (fun (s : SudokuSolver) row => s.nodes.down row) s' z = h1.down z := by
      rw [hI.1]
    have hbody (z : ℕ) (zs : List ℕ) (s' : SudokuSolver) (hI : I (z :: zs) s') : ∃ found s'',
        SudokuSolver.tryRow again z s' = some (found, s'') ∧ if found then Q s'' else I zs s'' := by
      obtain ⟨rfl,us,hleft,hnone⟩ := hI
      have hz : z ∈ M.left D c := by
        rw [hleft]
        exact List.mem_append_right us List.mem_cons_self
      rcases tryRow_spec L hagain (s := { s with nodes := h1 }) hroot hR1 hname1 hstack hc hz
        (Nat.le_of_lt_succ hn) with ⟨s'',htry,hQ⟩ | ⟨htry,hno⟩
      · exact ⟨true, s'', htry, hQ⟩
      · refine ⟨false, _, htry, rfl, us ++ [z], ?_, ?_⟩
        · rw [hleft, List.append_assoc, List.singleton_append]
        · intro x hx
          rcases List.mem_append.mp hx with hx | hx
          · exact hnone x hx
          · rw [List.mem_singleton.mp hx]
            exact hno
    obtain ⟨found,s',hwalk,hend⟩ := walk_spec hown (List.nodup_cons.mp (L.left_nodup hc')).1 (L.left_lt hc')
      hstart hlink hbody
    have hbegin : SudokuSolver.solveBody again s = (walk (fun s row => s.nodes.down row)
        (SudokuSolver.tryRow again) c kMaxNodes (h1.down c) { s with nodes := h1 }).bind (fun r =>
          if r.1 then some (true, r.2)
          else (r.2.nodes.uncover c).bind (fun q => some (false, { r.2 with nodes := q.2 }))) := by
      rw [SudokuSolver.solveBody, if_neg hgo, hroot, hmin]
      change (s.nodes.cover c).bind _ = _
      rw [hcover]
      rfl
    rw [hbegin, hwalk]
    cases found with
    | true => exact Or.inl ⟨s', rfl, hend⟩
    | false =>
      obtain ⟨rfl,us,hleft,hnone⟩ := hend
      right
      refine ⟨?_, ?_⟩
      · change (h1.uncover c).bind _ = _
        rw [huncover]
        rfl
      · intro sel hsel
        obtain ⟨x,hx,hcovers⟩ := Matrix.exists_of_covers hc hsel
        obtain ⟨rest,hrest⟩ := hcovers (rowTaken M D c x) (mem_rowTaken hc hx)
        rw [hleft, List.append_nil] at hx
        exact hnone x hx rest hrest

theorem solve_spec (hread : Reads M root name read) (n : ℕ) :
    Searches M root name read (SudokuSolver.solve n) n := by
  induction n with
  | zero =>
    intro D s _ _ _ _ hn
    exact absurd hn (Nat.not_lt_zero _)
  | succ n ih => exact solveBody_spec L hread ih

end Solve

end IdealServer
