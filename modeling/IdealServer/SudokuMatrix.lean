import IdealServer.DancingLinks

/-! The nodes that the constructor of `SudokuSolver` makes: the root, the headers of the columns, and four
nodes for every row. -/
namespace IdealServer
open Circular ExactCover

/-- The names of the columns, and those of the nodes row by row. -/
structure Blocks (names codes : List ℕ) : Prop where
  names_nodup : names.Nodup
  mem : ∀ p < codes.length, codes.getD p 0 ∈ names
  length : ∃ rows, codes.length = 4*rows
  distinct : ∀ p < codes.length, ∀ q < codes.length, p/4 = q/4 → codes.getD p 0 = codes.getD q 0 → p = q

section Places
variable (names codes : List ℕ)

/-- The node at a position of `codes`, behind the root and the headers. -/
def place (p : ℕ) : ℕ := names.length+1+p

def headers : List ℕ := (List.range names.length).map (·+1)

def headerOf (n : ℕ) : ℕ := names.idxOf n+1

/-- The nodes of a column from top to bottom. -/
def nodesOf (c : ℕ) : List ℕ :=
  ((List.range codes.length).filter (fun p => headerOf names (codes.getD p 0) = c)).map (place names)

/-- The other nodes of a row. -/
def matesOf (x : ℕ) : List ℕ :=
  let p := x-(names.length+1)
  [4*(p/4)+(p+1)%4, 4*(p/4)+(p+2)%4, 4*(p/4)+(p+3)%4].map (place names)

variable {names codes} {c x y n : ℕ}

theorem mem_headers : c ∈ headers names ↔ 0 < c ∧ c ≤ names.length := by
  rw [headers, List.mem_map]
  simp only [List.mem_range]
  constructor
  · rintro ⟨k,hk,rfl⟩
    omega
  · rintro ⟨hpos,hle⟩
    exact ⟨c-1, by omega, by omega⟩

theorem headers_nodup : (headers names).Nodup :=
  List.nodup_range.map (fun _ _ h => Nat.succ.inj h)

theorem headerOf_mem (hn : n ∈ names) : headerOf names n ∈ headers names := by
  have hlt := List.idxOf_lt_length_iff.mpr hn
  rw [mem_headers, headerOf]
  omega

theorem headerOf_inj {m : ℕ} (hn : n ∈ names) (h : headerOf names n = headerOf names m) : n = m :=
  (List.idxOf_inj hn).mp (Nat.succ.inj h)

theorem mem_nodesOf : x ∈ nodesOf names codes c ↔
    ∃ p < codes.length, headerOf names (codes.getD p 0) = c ∧ x = place names p := by
  rw [nodesOf, List.mem_map]
  simp only [List.mem_filter, List.mem_range, decide_eq_true_iff, and_assoc]
  constructor
  · rintro ⟨p,hp,hc,rfl⟩
    exact ⟨p, hp, hc, rfl⟩
  · rintro ⟨p,hp,hc,rfl⟩
    exact ⟨p, hp, hc, rfl⟩

theorem nodesOf_nodup (c : ℕ) : (nodesOf names codes c).Nodup :=
  (List.nodup_range.filter _).map (fun _ _ h => Nat.add_left_cancel h)

theorem matesOf_place (p : ℕ) : matesOf names (place names p) =
    [4*(p/4)+(p+1)%4, 4*(p/4)+(p+2)%4, 4*(p/4)+(p+3)%4].map (place names) := by
  have hp : place names p-(names.length+1) = p := Nat.add_sub_cancel_left _ _
  rw [matesOf, hp]

theorem matesOf_first (t : ℕ) : matesOf names (place names (4*t)) =
    [place names (4*t+1), place names (4*t+2), place names (4*t+3)] := by
  have hdiv : 4*t/4 = t := by omega
  have h1 : (4*t+1)%4 = 1 := by omega
  have h2 : (4*t+2)%4 = 2 := by omega
  have h3 : (4*t+3)%4 = 3 := by omega
  rw [matesOf_place, hdiv, h1, h2, h3]
  rfl

/-- A row is a block of four positions. -/
theorem mem_row (p : ℕ) : y ∈ place names p :: matesOf names (place names p) ↔
    ∃ q, q/4 = p/4 ∧ y = place names q := by
  rw [matesOf_place]
  simp only [List.map_cons, List.map_nil, List.mem_cons, List.not_mem_nil, or_false]
  constructor
  · rintro (rfl | rfl | rfl | rfl)
    · exact ⟨p, rfl, rfl⟩
    · exact ⟨4*(p/4)+(p+1)%4, by omega, rfl⟩
    · exact ⟨4*(p/4)+(p+2)%4, by omega, rfl⟩
    · exact ⟨4*(p/4)+(p+3)%4, by omega, rfl⟩
  · rintro ⟨q,hq,rfl⟩
    simp only [place]
    omega

theorem row_nodup' (p : ℕ) : (place names p :: matesOf names (place names p)).Nodup := by
  rw [matesOf_place]
  simp only [List.map_cons, List.map_nil, List.nodup_cons, List.mem_cons, List.not_mem_nil, List.nodup_nil, place,
    or_false, not_or, not_false_eq_true, and_true]
  omega

theorem Blocks.lt (hB : Blocks names codes) {p q : ℕ} (hp : p < codes.length) (hq : q/4 = p/4) :
    q < codes.length := by
  obtain ⟨rows,hrows⟩ := hB.length
  omega

/-- The matrix that the nodes are linked as. -/
def matrix (hB : Blocks names codes) : Matrix ℕ where
  columns := headers names
  column := nodesOf names codes
  mates := matesOf names
  col := fun x => headerOf names (codes.getD (x-(names.length+1)) 0)
  columns_nodup := headers_nodup
  column_nodup := fun c _ => nodesOf_nodup c
  col_eq := by
    intro c _ x hx
    obtain ⟨p,_,hc,rfl⟩ := mem_nodesOf.mp hx
    rw [place, Nat.add_sub_cancel_left]
    exact hc
  mates_mem := by
    intro c _ x hx m hm
    obtain ⟨p,hp,_,rfl⟩ := mem_nodesOf.mp hx
    obtain ⟨q,hq,rfl⟩ := (mem_row p).mp (List.mem_cons_of_mem _ hm)
    have hlt := hB.lt hp hq
    rw [place, Nat.add_sub_cancel_left]
    exact ⟨headerOf_mem (hB.mem q hlt), mem_nodesOf.mpr ⟨q, hlt, rfl, rfl⟩⟩
  row_eq := by
    intro c _ x hx m hm y
    obtain ⟨p,_,_,rfl⟩ := mem_nodesOf.mp hx
    obtain ⟨q,hq,rfl⟩ := (mem_row p).mp (List.mem_cons_of_mem _ hm)
    rw [mem_row, mem_row, hq]
  row_nodup := by
    intro c _ x hx
    obtain ⟨p,hp,_,rfl⟩ := mem_nodesOf.mp hx
    apply (row_nodup' p).map_on
    intro y hy z hz heq
    obtain ⟨q,hq,rfl⟩ := (mem_row p).mp hy
    obtain ⟨r,hr,rfl⟩ := (mem_row p).mp hz
    rw [place, place, Nat.add_sub_cancel_left, Nat.add_sub_cancel_left] at heq
    have hcodes := headerOf_inj (hB.mem q (hB.lt hp hq)) heq
    rw [hB.distinct q (hB.lt hp hq) r (hB.lt hp hr) (hq.trans hr.symm) hcodes]

end Places

end IdealServer
