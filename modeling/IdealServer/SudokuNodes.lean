import IdealServer.SudokuMatrix
import Mathlib.Data.List.GetD

/-! How the constructor of `SudokuSolver` links its nodes: what is there after some columns and some rows. -/
namespace IdealServer
open Circular ExactCover

/-- A loop that takes the members of a list one by one. -/
theorem foldlM_ok {α σ : Type*} {f : σ → α → Except Fault σ} {I : List α → σ → Prop} {l : List α} {s : σ}
    (hs : I [] s) (hstep : ∀ us a s, us ++ [a] <+: l → I us s → ∃ s', f s a = .ok s' ∧ I (us ++ [a]) s') :
    ∃ s', l.foldlM f s = .ok s' ∧ I l s' := by
  -- what is done, and what is to come
  have hrest (us vs : List α) (s : σ) (hl : us ++ vs = l) (hI : I us s) :
      ∃ s', vs.foldlM f s = .ok s' ∧ I l s' := by
    induction vs generalizing us s with
    | nil =>
      rw [List.append_nil] at hl
      exact ⟨s, rfl, hl ▸ hI⟩
    | cons a vs ih =>
      have hl' : us ++ [a] ++ vs = l := by
        rw [← hl, List.append_assoc, List.singleton_append]
      obtain ⟨s1,hs1,hI1⟩ := hstep us a s ⟨vs, hl'⟩ hI
      rw [List.foldlM_cons, hs1]
      exact ih (us ++ [a]) s1 hl' hI1
  exact hrest [] l s rfl hs

section Links
variable {h : Nodes} {a b n : ℕ} {xs ys : List ℕ} {next prev : ℕ → ℕ}

theorem Nodes.putLeft_eq (h : Nodes) (old nnew : ℕ) : h.putLeft old nnew = { h with
    left := Function.update (Function.update h.left nnew (h.left old)) old nnew
    right := Function.update (Function.update h.right nnew old) (h.left old) nnew } := by
  have hold : Function.update h.left nnew (h.left old) old = h.left old := by
    rw [Function.update_apply]
    split <;> rfl
  change { h with
    left := _
    right := Function.update (Function.update h.right nnew old)
      (Function.update h.left nnew (h.left old) old) nnew } = _
  rw [hold]

theorem Nodes.putUp_eq (h : Nodes) (old nnew : ℕ) : h.putUp old nnew = { h with
    up := Function.update (Function.update h.up nnew (h.up old)) old nnew
    down := Function.update (Function.update h.down nnew old) (h.up old) nnew
    size := Function.update h.size old (h.size old+1)
    col := Function.update h.col nnew old } := by
  have hold : Function.update h.up nnew (h.up old) old = h.up old := by
    rw [Function.update_apply]
    split <;> rfl
  change { h with
    up := _
    down := Function.update (Function.update h.down nnew old)
      (Function.update h.up nnew (h.up old) old) nnew
    size := _
    col := _ } = _
  rw [hold]

/-- A ring goes on behind the node that is written. -/
theorem ring_update (u v : ℕ) (hring : Ring next prev b ys) (hn : n ∉ b :: ys) :
    Ring (Function.update next n u) (Function.update prev n v) b ys := by
  apply ring_congr hring
  · intro z hz
    exact Function.update_of_ne (ne_of_mem_of_not_mem hz hn) _ _
  · intro z hz
    exact Function.update_of_ne (ne_of_mem_of_not_mem hz hn) _ _

/-- A ring without the three nodes of an insertion. -/
theorem ring_insert_other (ha : Ring next prev a xs) (hring : Ring next prev b ys)
    (hapart : ∀ z ∈ b :: ys, z ∉ a :: xs) (hn : n ∉ b :: ys) :
    Ring (Function.update (Function.update next n a) (prev a) n)
      (Function.update (Function.update prev n (prev a)) a n) b ys := by
  have hlast : prev a ∈ a :: xs := path_prev ha
  have hone := ring_update a (prev a) hring hn
  apply ring_congr hone
  · intro z hz
    apply Function.update_of_ne
    rintro rfl
    exact hapart _ hz hlast
  · intro z hz
    apply Function.update_of_ne
    rintro rfl
    exact hapart _ hz List.mem_cons_self

/-- A ring seen from another of its members. -/
theorem ring_rotate (xs ys : List ℕ) (hring : Ring next prev a (xs ++ b :: ys)) : Ring next prev b (ys ++ a :: xs) := by
  obtain ⟨hfront,hback⟩ := path_append.mp hring
  exact path_append.mpr ⟨hback, hfront⟩

end Links

/-- After the columns `names` and the nodes `codes`. -/
structure Built (board names codes : List ℕ) (s : SudokuSolver) : Prop where
  header : Ring s.nodes.right s.nodes.left 0 (headers names)
  rings : ∀ c ∈ headers names, Ring s.nodes.down s.nodes.up c (nodesOf names codes c)
  sizes : ∀ c ∈ headers names, s.nodes.size c = (nodesOf names codes c).length
  cols : ∀ p < codes.length, s.nodes.col (place names p) = headerOf names (codes.getD p 0)
  labels : ∀ p < codes.length, s.nodes.name (place names p) = codes.getD p 0
  columns : ∀ n, s.columns n = if n ∈ names then some (headerOf names n) else none
  root : s.root = 0
  inout : s.inout = board
  stack : s.stack = []
  curNode : s.curNode = place names codes.length

/-- The four nodes of every row are a ring. -/
def Rowed (names codes : List ℕ) (h : Nodes) : Prop :=
  ∀ t, 4*t < codes.length →
    Ring h.right h.left (place names (4*t)) [place names (4*t+1), place names (4*t+2), place names (4*t+3)]

section Columns
variable {names codes board : List ℕ} {c n : ℕ} {s : SudokuSolver}

theorem nodesOf_nil (names : List ℕ) (c : ℕ) : nodesOf names [] c = [] := rfl

theorem headers_append (names : List ℕ) (n : ℕ) : headers (names ++ [n]) = headers names ++ [names.length+1] := by
  rw [headers, List.length_append, List.length_singleton, List.range_succ, List.map_append]
  rfl

theorem headerOf_append (m : ℕ) (hn : n ∉ names) :
    (if m ∈ names ++ [n] then some (headerOf (names ++ [n]) m) else none) =
      Function.update (fun m => if m ∈ names then some (headerOf names m) else none) n
        (some (names.length+1)) m := by
  by_cases he : m = n
  · subst he
    have hidx : (names ++ [m]).idxOf m = names.length := by
      rw [List.idxOf_append_of_notMem hn, List.idxOf_cons_self]
      rfl
    rw [Function.update_self, if_pos (List.mem_append_right _ List.mem_cons_self), headerOf, hidx]
  · rw [Function.update_of_ne he]
    by_cases hm : m ∈ names
    · rw [if_pos (List.mem_append_left _ hm), if_pos hm, headerOf, headerOf, List.idxOf_append_of_mem hm]
    · rw [if_neg hm, if_neg]
      intro hin
      rcases List.mem_append.mp hin with hin | hin
      · exact hm hin
      · exact he (List.mem_singleton.mp hin)

/-- A column more. -/
theorem appendColumn_spec (hs : Built board names [] s) (hn : n ∉ names) (hroom : names.length+1 < kMaxNodes) :
    ∃ s', s.appendColumn n = .ok s' ∧ Built board (names ++ [n]) [] s' := by
  have hnone : s.columns n = none := (hs.columns n).trans (if_neg hn)
  have hcur : s.curNode = names.length+1 := hs.curNode
  have hlt {z : ℕ} (hz : z ∈ 0 :: headers names) : z < names.length+1 := by
    rcases List.mem_cons.mp hz with rfl | hz
    · exact Nat.succ_pos _
    · exact Nat.lt_succ_of_le (mem_headers.mp hz).2
  have hfresh : names.length+1 ∉ 0 :: headers names := fun hin => Nat.lt_irrefl _ (hlt hin)
  have hnodup : (0 :: headers names).Nodup := by
    apply List.nodup_cons.mpr ⟨_, headers_nodup⟩
    intro hin
    exact Nat.lt_irrefl 0 (mem_headers.mp hin).1
  have hstep : s.appendColumn n = .ok { s with
      nodes := (s.nodes.single (names.length+1) n (names.length+1)).putLeft 0 (names.length+1)
      columns := Function.update s.columns n (some (names.length+1))
      curNode := names.length+1+1 } := by
    rw [SudokuSolver.appendColumn, if_pos hnone, SudokuSolver.newColumn, if_pos (hcur ▸ hroom)]
    change Except.ok { s with
      nodes := (s.nodes.single s.curNode n s.curNode).putLeft s.root s.curNode
      columns := Function.update s.columns n (some s.curNode)
      curNode := s.curNode+1 } = _
    rw [hcur, hs.root]
  refine ⟨_, hstep, ?_⟩
  -- the old columns have no node that is written
  have hold {k : ℕ} (hk : k ∈ headers names) : k ≠ names.length+1 := fun he => hfresh (he ▸ List.mem_cons_of_mem _ hk)
  constructor
  · rw [Nodes.putLeft_eq, headers_append]
    exact ring_insert (ring_update _ _ hs.header hfresh) hfresh hnodup
  · intro k hk
    rw [nodesOf_nil, Nodes.putLeft_eq]
    rw [headers_append, List.mem_append, List.mem_singleton] at hk
    rcases hk with hk | rfl
    · apply ring_update _ _ (hs.rings k hk)
      rw [nodesOf_nil, List.mem_singleton]
      exact (hold hk).symm
    · exact ⟨Function.update_self .., Function.update_self ..⟩
  · intro k hk
    rw [nodesOf_nil, Nodes.putLeft_eq]
    rw [headers_append, List.mem_append, List.mem_singleton] at hk
    rcases hk with hk | rfl
    · exact (Function.update_of_ne (hold hk) _ _).trans (hs.sizes k hk)
    · exact Function.update_self ..
  · intro p hp
    exact absurd hp (Nat.not_lt_zero p)
  · intro p hp
    exact absurd hp (Nat.not_lt_zero p)
  · intro m
    rw [headerOf_append m hn, ← funext hs.columns]
  · exact hs.root
  · exact hs.inout
  · exact hs.stack
  · change names.length+1+1 = (names ++ [n]).length+1+0
    rw [List.length_append]
    rfl

/-- The root, before there are columns. -/
theorem newColumn_root (board : List ℕ) : ∃ s,
    SudokuSolver.newColumn ⟨.zero, 0, board, fun _ => none, [], 0⟩ 0 = .ok (0, s) ∧ s.root = 0 ∧
      Built board [] [] s := by
  refine ⟨_, rfl, rfl, ?_⟩
  constructor
  · exact ⟨rfl, rfl⟩
  · intro c hc
    exact absurd hc List.not_mem_nil
  · intro c hc
    exact absurd hc List.not_mem_nil
  · intro p hp
    exact absurd hp (Nat.not_lt_zero p)
  · intro p hp
    exact absurd hp (Nat.not_lt_zero p)
  · intro n
    exact (if_neg List.not_mem_nil).symm
  · rfl
  · rfl
  · rfl
  · rfl

end Columns

section Rows
variable {names codes board : List ℕ} {a b c i n v : ℕ} {xs ys : List ℕ} {s s' : SudokuSolver}

theorem getD_append_last (codes : List ℕ) (n : ℕ) : (codes ++ [n]).getD codes.length 0 = n := by
  rw [List.getD_append_right _ _ _ _ (Nat.le_refl _), Nat.sub_self]
  rfl

theorem nodesOf_append (names codes : List ℕ) (n c : ℕ) : nodesOf names (codes ++ [n]) c =
    if headerOf names n = c then nodesOf names codes c ++ [place names codes.length] else nodesOf names codes c := by
  have hold : (List.range codes.length).filter (fun p => headerOf names ((codes ++ [n]).getD p 0) = c) =
      (List.range codes.length).filter (fun p => headerOf names (codes.getD p 0) = c) := by
    apply List.filter_congr
    intro p hp
    rw [List.getD_append _ _ _ _ (List.mem_range.mp hp)]
  rw [nodesOf, List.length_append, List.length_singleton, List.range_succ, List.filter_append, hold,
    List.filter_singleton, getD_append_last, List.map_append]
  by_cases he : headerOf names n = c
  · rw [if_pos he, decide_eq_true he]
    rfl
  · rw [if_neg he, decide_eq_false he]
    exact List.append_nil _

/-- A header is in front of the nodes. -/
theorem header_lt {k z : ℕ} (hk : k ∈ headers names) (hz : z ∈ nodesOf names codes c) : k < z := by
  obtain ⟨p,_,_,rfl⟩ := mem_nodesOf.mp hz
  have hle := (mem_headers.mp hk).2
  rw [place]
  omega

/-- The rings of two columns have no node in common. -/
theorem nodesOf_apart {k k' z : ℕ} (hk' : k' ∈ headers names) (hk : k ∈ headers names) (hne : k' ≠ k)
    (hz : z ∈ k :: nodesOf names codes k) : z ∉ k' :: nodesOf names codes k' := by
  intro hz'
  rcases List.mem_cons.mp hz with rfl | hz
  · rcases List.mem_cons.mp hz' with he | hz'
    · exact hne he.symm
    · exact Nat.lt_irrefl _ (header_lt hk hz')
  · rcases List.mem_cons.mp hz' with rfl | hz'
    · exact Nat.lt_irrefl _ (header_lt hk' hz)
    · obtain ⟨p,_,hp,rfl⟩ := mem_nodesOf.mp hz
      obtain ⟨q,_,hq,he⟩ := mem_nodesOf.mp hz'
      have hpq : p = q := Nat.add_left_cancel he
      rw [hpq] at hp
      exact hne (hq.symm.trans hp)

/-- A node more. It is alone in its row. -/
theorem newRow_spec (hs : Built board names codes s) (hn : n ∈ names) (ha : s.curNode = a) (hroom : a < kMaxNodes) :
    ∃ s', s.newRow n = .ok (a, s') ∧ Built board names (codes ++ [n]) s' ∧ s'.curNode = a+1 ∧
      s'.nodes.right = Function.update s.nodes.right a a ∧ s'.nodes.left = Function.update s.nodes.left a a := by
  have ha' : a = place names codes.length := ha.symm.trans hs.curNode
  subst ha'
  have hcol : s.columns n = some (headerOf names n) := (hs.columns n).trans (if_pos hn)
  have hheader := headerOf_mem hn
  have hlt {k : ℕ} (hk : k ∈ headers names) : k < place names codes.length := by
    have hle := (mem_headers.mp hk).2
    rw [place]
    omega
  have hplace {p : ℕ} (hp : p < codes.length) : place names p ≠ place names codes.length := by
    rw [place, place]
    omega
  have hfresh {k : ℕ} (hk : k ∈ headers names) : place names codes.length ∉ k :: nodesOf names codes k := by
    intro hin
    rcases List.mem_cons.mp hin with he | hin
    · exact Nat.ne_of_gt (hlt hk) he
    · obtain ⟨p,hp,_,he⟩ := mem_nodesOf.mp hin
      exact hplace hp he.symm
  have hnodup : (headerOf names n :: nodesOf names codes (headerOf names n)).Nodup := by
    apply List.nodup_cons.mpr ⟨_, nodesOf_nodup _⟩
    exact fun hin => Nat.lt_irrefl _ (header_lt hheader hin)
  refine ⟨{ s with
      nodes := (s.nodes.single (place names codes.length) n (headerOf names n)).putUp (headerOf names n)
        (place names codes.length)
      curNode := place names codes.length+1 }, ?_, ?_, ?_⟩
  · rw [SudokuSolver.newRow, hcol, hs.curNode]
    exact if_pos hroom
  · rw [Nodes.putUp_eq]
    have hsize (k : ℕ) (hk : k ∈ headers names) :
        Function.update s.nodes.size (place names codes.length) 0 k = s.nodes.size k :=
      Function.update_of_ne (Nat.ne_of_lt (hlt hk)) _ _
    constructor
    · apply ring_update _ _ hs.header
      intro hin
      rcases List.mem_cons.mp hin with he | hin
      · exact absurd he (by rw [place]; omega)
      · exact Nat.lt_irrefl _ (hlt hin)
    · intro k hk
      rw [nodesOf_append]
      have hring := ring_update (place names codes.length) (place names codes.length) (hs.rings k hk) (hfresh hk)
      have hown := ring_update (place names codes.length) (place names codes.length)
        (hs.rings _ hheader) (hfresh hheader)
      split
      case isTrue he =>
        subst he
        exact ring_insert hring (hfresh hk) hnodup
      case isFalse hne =>
        exact ring_insert_other hown hring (fun z hz => nodesOf_apart hheader hk hne hz) (hfresh hk)
    · intro k hk
      rw [nodesOf_append]
      change Function.update (Function.update s.nodes.size (place names codes.length) 0) (headerOf names n)
        (Function.update s.nodes.size (place names codes.length) 0 (headerOf names n)+1) k = _
      rw [hsize _ hheader]
      split
      case isTrue he =>
        subst he
        rw [Function.update_self, hs.sizes _ hheader, List.length_append, List.length_singleton]
        exact (Int.natCast_succ _).symm
      case isFalse hne => rw [Function.update_of_ne (Ne.symm hne), hsize k hk, hs.sizes k hk]
    · intro p hp
      change Function.update (Function.update s.nodes.col _ _) _ _ (place names p) = _
      rw [Function.update_idem]
      rw [List.length_append, List.length_singleton] at hp
      rcases Nat.lt_succ_iff_lt_or_eq.mp hp with hp | rfl
      · rw [Function.update_of_ne (hplace hp), List.getD_append _ _ _ _ hp, hs.cols p hp]
      · rw [Function.update_self, getD_append_last]
    · intro p hp
      change Function.update s.nodes.name _ _ (place names p) = _
      rw [List.length_append, List.length_singleton] at hp
      rcases Nat.lt_succ_iff_lt_or_eq.mp hp with hp | rfl
      · rw [Function.update_of_ne (hplace hp), List.getD_append _ _ _ _ hp, hs.labels p hp]
      · rw [Function.update_self, getD_append_last]
    · exact hs.columns
    · exact hs.root
    · exact hs.inout
    · exact hs.stack
    · rw [List.length_append]
      rfl
  · rw [Nodes.putUp_eq]
    exact ⟨rfl, rfl, rfl⟩

/-- Linking a row changes nothing in the columns. -/
theorem Built.putLeft (hs : Built board names codes s) (ha : Ring s.nodes.right s.nodes.left a xs)
    (hxs : ∀ z ∈ a :: xs, names.length < z) (hn : names.length < n) :
    Built board names codes { s with nodes := s.nodes.putLeft a n } := by
  rw [Nodes.putLeft_eq]
  have hhead {z : ℕ} (hz : z ∈ 0 :: headers names) : z ≤ names.length := by
    rcases List.mem_cons.mp hz with rfl | hz
    · exact Nat.zero_le _
    · exact (mem_headers.mp hz).2
  constructor
  · apply ring_insert_other ha hs.header
    · intro z hz hz'
      exact Nat.lt_irrefl _ (Nat.lt_of_lt_of_le (hxs z hz') (hhead hz))
    · intro hin
      exact Nat.lt_irrefl _ (Nat.lt_of_lt_of_le hn (hhead hin))
  · exact hs.rings
  · exact hs.sizes
  · exact hs.cols
  · exact hs.labels
  · exact hs.columns
  · exact hs.root
  · exact hs.inout
  · exact hs.stack
  · exact hs.curNode

/-- The names of the four nodes of a row. -/
def optionCodes (r : ℕ × ℕ) : List ℕ :=
  [r.1, SudokuSolver.getRowCol (SudokuSolver.rowOf r.1) r.2, SudokuSolver.getColCol (SudokuSolver.colOf r.1) r.2,
    SudokuSolver.getBoxCol (SudokuSolver.boxOf r.1) r.2]

theorem putLeft_next {h : Nodes} (ha : Ring h.right h.left a xs) (hn : n ∉ a :: xs) (hnodup : (a :: xs).Nodup) :
    Ring (h.putLeft a n).right (h.putLeft a n).left a (xs ++ [n]) := by
  rw [Nodes.putLeft_eq]
  exact ring_insert ha hn hnodup

theorem putLeft_other {h : Nodes} (ha : Ring h.right h.left a xs) (hring : Ring h.right h.left b ys)
    (hys : ∀ z ∈ b :: ys, z < a) (hxs : ∀ x ∈ xs, a ≤ x) (hn : a ≤ n) :
    Ring (h.putLeft a n).right (h.putLeft a n).left b ys := by
  rw [Nodes.putLeft_eq]
  apply ring_insert_other ha hring
  · intro z hz hz'
    rcases List.mem_cons.mp hz' with rfl | hz'
    · exact Nat.lt_irrefl _ (hys z hz)
    · exact Nat.lt_irrefl _ (Nat.lt_of_lt_of_le (hys z hz) (hxs z hz'))
  · intro hin
    exact Nat.lt_irrefl _ (Nat.lt_of_lt_of_le (hys n hin) hn)

def linkRow (h : Nodes) (a : ℕ) : Nodes := ((h.putLeft a (a+1)).putLeft a (a+2)).putLeft a (a+3)

section LinkRow
variable {h : Nodes} (hself : Ring h.right h.left a [])
include hself

theorem linkRow_steps : Ring (h.putLeft a (a+1)).right (h.putLeft a (a+1)).left a [a+1] ∧
    Ring ((h.putLeft a (a+1)).putLeft a (a+2)).right ((h.putLeft a (a+1)).putLeft a (a+2)).left a [a+1, a+2] := by
  have htwo := putLeft_next hself (n := a+1) (by simp) (by simp)
  exact ⟨htwo, putLeft_next htwo (by simp) (by simp)⟩

/-- Nodes that are alone become a row. -/
theorem linkRow_ring : Ring (linkRow h a).right (linkRow h a).left a [a+1, a+2, a+3] :=
  putLeft_next (linkRow_steps hself).2 (by simp) (by simp)

/-- The other rows stay. -/
theorem linkRow_other (hring : Ring h.right h.left b ys) (hys : ∀ z ∈ b :: ys, z < a) :
    Ring (linkRow h a).right (linkRow h a).left b ys := by
  obtain ⟨htwo,hthree⟩ := linkRow_steps hself
  have hone' := putLeft_other hself hring hys (n := a+1) (by simp) (by omega)
  have htwo' := putLeft_other htwo hone' hys (n := a+2) (by simp) (by omega)
  exact putLeft_other hthree htwo' hys (by simp) (by omega)

end LinkRow

theorem Built.linkRow (hs : Built board names codes s) (hself : Ring s.nodes.right s.nodes.left a [])
    (ha : names.length < a) : Built board names codes { s with nodes := linkRow s.nodes a } := by
  obtain ⟨htwo,hthree⟩ := linkRow_steps hself
  have hone' := hs.putLeft hself (n := a+1) (by simp; omega) (by omega)
  have htwo' := hone'.putLeft htwo (n := a+2) (by simp; omega) (by omega)
  exact htwo'.putLeft hthree (by simp; omega) (by omega)

/-- The four nodes of a row, before they are linked. -/
theorem newRows_spec (hs : Built board names codes s) {n0 nr nc nb : ℕ} (hcodes : ∀ m ∈ [n0, nr, nc, nb], m ∈ names)
    (ha : s.curNode = a) (hroom : a+3 < kMaxNodes) :
    ∃ s1 s2 s3 s4, s.newRow n0 = .ok (a, s1) ∧ s1.newRow nr = .ok (a+1, s2) ∧ s2.newRow nc = .ok (a+2, s3) ∧
      s3.newRow nb = .ok (a+3, s4) ∧ Built board names (codes ++ [n0, nr, nc, nb]) s4 ∧
      Ring s4.nodes.right s4.nodes.left a [] ∧
      ∀ b ys, (∀ z ∈ b :: ys, z < a) → Ring s.nodes.right s.nodes.left b ys →
        Ring s4.nodes.right s4.nodes.left b ys := by
  obtain ⟨s1,hnew1,hs1,ha1,hright1,hleft1⟩ := newRow_spec hs (hcodes n0 (by simp)) ha (by omega)
  obtain ⟨s2,hnew2,hs2,ha2,hright2,hleft2⟩ := newRow_spec hs1 (hcodes nr (by simp)) ha1 (by omega)
  obtain ⟨s3,hnew3,hs3,ha3,hright3,hleft3⟩ := newRow_spec hs2 (hcodes nc (by simp)) ha2 (by omega)
  obtain ⟨s4,hnew4,hs4,_,hright4,hleft4⟩ := newRow_spec hs3 (hcodes nb (by simp)) ha3 (by omega)
  refine ⟨s1, s2, s3, s4, hnew1, hnew2, hnew3, hnew4, ?_, ?_, ?_⟩
  · rw [List.append_assoc, List.append_assoc, List.append_assoc] at hs4
    exact hs4
  · rw [hright4, hright3, hright2, hright1, hleft4, hleft3, hleft2, hleft1]
    have hne {k : ℕ} (hk : 0 < k) : a+k ∉ [a] := by
      rw [List.mem_singleton]
      omega
    apply ring_update _ _ _ (hne (k := 3) (by omega))
    apply ring_update _ _ _ (hne (k := 2) (by omega))
    apply ring_update _ _ _ (hne (k := 1) (by omega))
    exact ⟨Function.update_self .., Function.update_self ..⟩
  · intro b ys hys hring
    have hnot {k : ℕ} : a+k ∉ b :: ys := fun hin => absurd (hys _ hin) (by omega)
    rw [hright4, hright3, hright2, hright1, hleft4, hleft3, hleft2, hleft1]
    exact ring_update _ _ (ring_update _ _ (ring_update _ _ (ring_update _ _ hring (hnot (k := 0))) (hnot (k := 1)))
      (hnot (k := 2))) (hnot (k := 3))

/-- A row more. -/
theorem appendRow_spec (hs : Built board names codes s) (hrows : Rowed names codes s.nodes)
    (hcodes : ∀ m ∈ optionCodes (i, v), m ∈ names) (hlen : ∃ rows, codes.length = 4*rows)
    (hroom : place names codes.length+3 < kMaxNodes) :
    ∃ s', s.appendRow i v = .ok s' ∧ Built board names (codes ++ optionCodes (i, v)) s' ∧
      Rowed names (codes ++ optionCodes (i, v)) s'.nodes := by
  obtain ⟨s1,s2,s3,s4,hnew1,hnew2,hnew3,hnew4,hs4,hself,hold⟩ := newRows_spec hs hcodes hs.curNode hroom
  have hpos : names.length < place names codes.length := by
    rw [place]
    omega
  refine ⟨{ s4 with nodes := linkRow s4.nodes (place names codes.length) }, ?_, hs4.linkRow hself hpos, ?_⟩
  · rw [SudokuSolver.appendRow, hnew1]
    change Except.bind (s1.newRow _) _ = _
    rw [hnew2]
    change Except.bind (s2.newRow _) _ = _
    rw [hnew3]
    change Except.bind (s3.newRow _) _ = _
    rw [hnew4]
    rfl
  · intro t ht
    rw [List.length_append] at ht
    obtain ⟨rows,hrow⟩ := hlen
    rcases Nat.lt_or_ge t rows with htr | htr
    · have hlt : 4*t < codes.length := by omega
      have hbefore : ∀ z ∈ place names (4*t) :: [place names (4*t+1), place names (4*t+2), place names (4*t+3)],
          z < place names codes.length := by
        simp only [List.mem_cons, List.not_mem_nil, or_false, place]
        omega
      exact linkRow_other hself (hold _ _ hbefore (hrows t hlt)) hbefore
    · have hlast : 4*t = codes.length := by
        change 4*t < codes.length+4 at ht
        omega
      rw [hlast]
      exact linkRow_ring hself

end Rows

section Whole
variable {names codes board : List ℕ} {c x : ℕ} {s : SudokuSolver} (hB : Blocks names codes)

theorem entry_iff : (matrix hB).Entry x ↔ ∃ p < codes.length, x = place names p := by
  constructor
  · rintro ⟨_,hx⟩
    obtain ⟨p,hp,_,he⟩ := mem_nodesOf.mp hx
    exact ⟨p, hp, he⟩
  · rintro ⟨p,hp,rfl⟩
    exact Matrix.entry_of_mem (M := matrix hB) (headerOf_mem (hB.mem p hp)) (mem_nodesOf.mpr ⟨p, hp, rfl, rfl⟩)

theorem layout (hnames : names.length ≤ 81*4) (hcodes : codes.length ≤ 9*9*9*4) : Layout (matrix hB) 0 := by
  have hlt {z : ℕ} (hz : (matrix hB).Entry z) : names.length < z := by
    obtain ⟨p,_,rfl⟩ := (entry_iff hB).mp hz
    rw [place]
    omega
  have hlen : codes.length < kMaxNodes := Nat.lt_of_le_of_lt hcodes (by decide)
  constructor
  · refine ⟨?_, ?_⟩
    · intro hin
      exact Nat.lt_irrefl 0 (mem_headers.mp hin).1
    · intro hentry
      exact Nat.not_lt_zero _ (hlt hentry)
  · intro k hk hentry
    exact Nat.lt_irrefl _ (Nat.lt_of_lt_of_le (hlt hentry) (mem_headers.mp hk).2)
  · change (headers names).length < kMaxNodes
    rw [headers, List.length_map, List.length_range]
    exact Nat.lt_of_le_of_lt hnames (by decide)
  · intro k _
    change (nodesOf names codes k).length < kMaxNodes
    rw [nodesOf, List.length_map]
    apply Nat.lt_of_le_of_lt (List.length_filter_le _ _)
    rw [List.length_range]
    exact hlen
  · intro x _
    change (matesOf names x).length < kMaxNodes
    exact (by decide : 3 < kMaxNodes)

theorem Rowed.ring {h : Nodes} (hrows : Rowed names codes h) {p : ℕ} (hp : p < codes.length) :
    Ring h.right h.left (place names p) (matesOf names (place names p)) := by
  have hmates (q1 q2 q3 : ℕ) (h1 : 4*(p/4)+(p+1)%4 = q1) (h2 : 4*(p/4)+(p+2)%4 = q2)
      (h3 : 4*(p/4)+(p+3)%4 = q3) : matesOf names (place names p) = [place names q1, place names q2, place names q3] := by
    rw [matesOf_place, h1, h2, h3]
    rfl
  obtain ⟨t,hrow⟩ : ∃ t, p = 4*t ∨ p = 4*t+1 ∨ p = 4*t+2 ∨ p = 4*t+3 := ⟨p/4, by omega⟩
  have hring := hrows t (by omega)
  -- the ring from each of the four places
  rcases hrow with rfl | rfl | rfl | rfl
  · rw [hmates (4*t+1) (4*t+2) (4*t+3) (by omega) (by omega) (by omega)]
    exact hring
  · rw [hmates (4*t+2) (4*t+3) (4*t) (by omega) (by omega) (by omega)]
    exact ring_rotate [] [_, _] hring
  · rw [hmates (4*t+3) (4*t) (4*t+1) (by omega) (by omega) (by omega)]
    exact ring_rotate [_] [_] hring
  · rw [hmates (4*t) (4*t+1) (4*t+2) (by omega) (by omega) (by omega)]
    exact ring_rotate [_, _] [] hring

/-- The constructor links the matrix. -/
theorem Built.represents (hs : Built board names codes s) (hrows : Rowed names codes s.nodes) :
    Represents (matrix hB) 0 s.nodes [] := by
  have hopened : (matrix hB).opened [] = headers names :=
    List.filter_eq_self.mpr (fun k _ => decide_eq_true List.not_mem_nil)
  have hleft (k : ℕ) : (matrix hB).left [] k = nodesOf names codes k :=
    List.filter_eq_self.mpr (fun z _ => decide_eq_true (fun m _ => List.not_mem_nil))
  constructor
  · rw [hopened]
    exact hs.header
  · intro x hx
    obtain ⟨p,hp,rfl⟩ := (entry_iff hB).mp hx
    exact hrows.ring hp
  · intro k hk
    rw [hopened] at hk
    rw [hleft]
    exact hs.rings k hk
  · intro k hk
    rw [hopened] at hk
    rw [hleft]
    exact hs.sizes k hk
  · intro x hx
    obtain ⟨p,hp,rfl⟩ := (entry_iff hB).mp hx
    change _ = headerOf names (codes.getD (place names p-(names.length+1)) 0)
    rw [place, Nat.add_sub_cancel_left]
    exact hs.cols p hp

end Whole

end IdealServer
