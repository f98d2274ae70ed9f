import Mathlib.Data.List.Basic
import Mathlib.Logic.Function.Basic
import Mathlib.Tactic.Common

/-! Doubly linked lists that are closed to rings, and loops that follow their links. -/
namespace Circular

variable {α : Type*}

section Paths
variable {next prev : α → α} {x y j : α} {xs us vs : List α}

/-- From `x` over `xs` to `y`, in both directions. -/
def Path (next prev : α → α) : α → List α → α → Prop
  | x, [], y => next x = y ∧ prev y = x
  | x, z :: zs, y => (next x = z ∧ prev z = x) ∧ Path next prev z zs y

theorem path_append : Path next prev x (us ++ j :: vs) y ↔
    Path next prev x us j ∧ Path next prev j vs y := by
  induction us generalizing x with
  | nil => rfl
  | cons u us ih =>
    change (_ ∧ Path next prev u (us ++ j :: vs) y) ↔ (_ ∧ Path next prev u us j) ∧ _
    rw [ih]
    exact and_assoc.symm

theorem path_reverse (h : Path next prev x xs y) : Path prev next y xs.reverse x := by
  induction xs generalizing x with
  | nil => exact ⟨h.2, h.1⟩
  | cons z zs ih =>
    rw [List.reverse_cons, path_append]
    exact ⟨ih h.2, h.1.2, h.1.1⟩

/-- The first step of the way. -/
theorem path_next (h : Path next prev x xs y) : next x ∈ xs ++ [y] := by
  cases xs with
  | nil => exact List.mem_singleton.mpr h.1
  | cons z zs =>
    rw [h.1.1]
    exact List.mem_cons_self

/-- The last one. -/
theorem path_prev (h : Path next prev x xs y) : prev y ∈ x :: xs := by
  have hmem := path_next (path_reverse h)
  rw [List.mem_append, List.mem_reverse, List.mem_singleton] at hmem
  exact List.mem_cons.mpr hmem.symm

theorem path_congr {next' prev' : α → α} (h : Path next prev x xs y)
    (hnext : ∀ z ∈ x :: xs, next' z = next z) (hprev : ∀ z ∈ xs ++ [y], prev' z = prev z) :
    Path next' prev' x xs y := by
  induction xs generalizing x with
  | nil =>
    refine ⟨?_, ?_⟩
    · rw [hnext x List.mem_cons_self]
      exact h.1
    · rw [hprev y (List.mem_singleton.mpr rfl)]
      exact h.2
  | cons z zs ih =>
    refine ⟨⟨?_, ?_⟩, ih h.2 (fun w hw => hnext w (List.mem_cons_of_mem _ hw))
      (fun w hw => hprev w (List.mem_cons_of_mem _ hw))⟩
    · rw [hnext x List.mem_cons_self]
      exact h.1.1
    · rw [hprev z List.mem_cons_self]
      exact h.1.2

end Paths

/-- The ring of `a`, which may be alone. -/
def Ring (next prev : α → α) (a : α) (xs : List α) : Prop := Path next prev a xs a

section Rings
variable {next prev : α → α} {a j : α} {xs us vs : List α}

theorem ring_congr {next' prev' : α → α} (h : Ring next prev a xs)
    (hnext : ∀ z ∈ a :: xs, next' z = next z) (hprev : ∀ z ∈ a :: xs, prev' z = prev z) :
    Ring next' prev' a xs := by
  apply path_congr h hnext
  intro z hz
  apply hprev
  rw [List.mem_append, List.mem_singleton] at hz
  exact List.mem_cons.mpr hz.symm

theorem ring_reverse (h : Ring next prev a xs) : Ring prev next a xs.reverse := path_reverse h

theorem path_next_eq {next' prev' : α → α} {x y z : α} (h : Path next prev x xs y)
    (h' : Path next' prev' x xs y) (hz : z ∈ x :: xs) : next z = next' z := by
  induction xs generalizing x with
  | nil =>
    rw [List.mem_singleton.mp hz]
    exact h.1.trans h'.1.symm
  | cons w ws ih =>
    rcases List.mem_cons.mp hz with rfl | hz
    · exact h.1.1.trans h'.1.1.symm
    · exact ih h.2 h'.2 hz

/-- Both neighbours are in the ring, and they know it. -/
theorem ring_mem (h : Ring next prev a xs) (hj : j ∈ xs) :
    next j ∈ a :: xs ∧ prev j ∈ a :: xs ∧ next (prev j) = j ∧ prev (next j) = j := by
  obtain ⟨us,vs,rfl⟩ := List.append_of_mem hj
  obtain ⟨hfront,hback⟩ := path_append.mp h
  have hnext := path_next hback
  have hprev := path_prev hfront
  refine ⟨?_, ?_, ?_, ?_⟩
  · simp only [List.mem_append, List.mem_cons] at hnext ⊢
    tauto
  · simp only [List.mem_append, List.mem_cons] at hprev ⊢
    tauto
  · -- the step into `j`
    rcases List.eq_nil_or_concat' us with rfl | ⟨init,u,rfl⟩
    · rw [hfront.2]
      exact hfront.1
    · rw [path_append] at hfront
      rw [hfront.2.2]
      exact hfront.2.1
  · cases vs with
    | nil =>
      rw [hback.1]
      exact hback.2
    | cons v vs =>
      rw [hback.1.1]
      exact hback.1.2

theorem ring_next_mem (h : Ring next prev a xs) (hne : xs ≠ []) : next a ∈ xs := by
  cases xs with
  | nil => exact absurd rfl hne
  | cons z zs =>
    rw [h.1.1]
    exact List.mem_cons_self

theorem ring_prev_mem (h : Ring next prev a xs) (hne : xs ≠ []) : prev a ∈ xs := by
  rw [← List.mem_reverse]
  exact ring_next_mem (ring_reverse h) (fun he => hne (List.reverse_eq_nil_iff.mp he))

theorem ring_next_ne (h : Ring next prev a xs) (hnodup : (a :: xs).Nodup) (hj : j ∈ xs) : next j ≠ j := by
  obtain ⟨us,vs,rfl⟩ := List.append_of_mem hj
  have hnext := path_next (path_append.mp h).2
  obtain ⟨ha,hxs⟩ := List.nodup_cons.mp hnodup
  intro he
  rw [he, List.mem_append, List.mem_singleton] at hnext
  rcases hnext with hin | rfl
  · exact (List.nodup_cons.mp (List.nodup_append.mp hxs).2.1).1 hin
  · exact ha (List.mem_append_right us List.mem_cons_self)

end Rings

section Updates
variable [DecidableEq α] {next prev : α → α} {a j x y : α} {xs us vs : List α}

/-- The two assignments by which `j` is left out. -/
def skipNext (next prev : α → α) (j : α) : α → α := Function.update next (prev j) (next j)
def skipPrev (next prev : α → α) (j : α) : α → α := Function.update prev (next j) (prev j)

theorem path_skip (h : Path next prev x (us ++ j :: vs) y) (hx : (x :: us ++ j :: vs).Nodup)
    (hy : (us ++ j :: vs ++ [y]).Nodup) :
    Path (skipNext next prev j) (skipPrev next prev j) x (us ++ vs) y := by
  induction us generalizing x with
  | nil =>
    obtain ⟨⟨hxj,hjx⟩,hback⟩ := h
    have hskip : skipNext next prev j x = next j := by
      rw [skipNext, hjx, Function.update_self]
    cases vs with
    | nil =>
      refine ⟨hskip.trans hback.1, ?_⟩
      rw [skipPrev, hback.1, Function.update_self, hjx]
    | cons v vs =>
      have hv : next j = v := hback.1.1
      refine ⟨⟨hskip.trans hv, ?_⟩, path_congr hback.2 ?_ ?_⟩
      · rw [skipPrev, hv, Function.update_self, hjx]
      · intro z hz
        have hne : z ≠ x := by
          rintro rfl
          exact (List.nodup_cons.mp hx).1 (List.mem_cons_of_mem _ hz)
        rw [skipNext, hjx, Function.update_of_ne hne]
      · intro z hz
        have hne : z ≠ v := by
          rintro rfl
          exact (List.nodup_cons.mp (List.nodup_cons.mp hy).2).1 hz
        rw [skipPrev, hv, Function.update_of_ne hne]
  | cons u us ih =>
    obtain ⟨hstep,hrest⟩ := h
    obtain ⟨hnext,hprev⟩ := path_append.mp hrest
    have hxne : x ≠ prev j := by
      intro he
      apply (List.nodup_cons.mp hx).1
      rw [he]
      exact List.mem_append_left (j :: vs) (path_prev hnext)
    have hune : u ≠ next j := by
      intro he
      apply (List.nodup_cons.mp hy).1
      have hmem := List.mem_append_right us (List.mem_cons_of_mem j (path_next hprev))
      rw [he]
      rwa [← List.cons_append, ← List.append_assoc] at hmem
    refine ⟨⟨?_, ?_⟩, ih hrest (List.nodup_cons.mp hx).2 (List.nodup_cons.mp hy).2⟩
    · rw [skipNext, Function.update_of_ne hxne]
      exact hstep.1
    · rw [skipPrev, Function.update_of_ne hune]
      exact hstep.2

/-- The others stay in their order. -/
theorem ring_skip (h : Ring next prev a xs) (hnodup : (a :: xs).Nodup) (hj : j ∈ xs) :
    Ring (skipNext next prev j) (skipPrev next prev j) a (xs.filter (fun z => z ≠ j)) := by
  obtain ⟨us,vs,rfl⟩ := List.append_of_mem hj
  have hxs := (List.nodup_cons.mp hnodup).2
  have hrotated : (us ++ j :: vs ++ [a]).Nodup := (List.perm_append_singleton a _).nodup_iff.mpr hnodup
  have hparts := List.nodup_append.mp hxs
  have hus : us.filter (fun z => z ≠ j) = us := by
    rw [List.filter_eq_self]
    intro z hz
    exact decide_eq_true (hparts.2.2 z hz j List.mem_cons_self)
  have hvs : vs.filter (fun z => z ≠ j) = vs := by
    rw [List.filter_eq_self]
    intro z hz
    apply decide_eq_true
    rintro rfl
    exact (List.nodup_cons.mp hparts.2.1).1 hz
  rw [List.filter_append, List.filter_cons_of_neg (by simp), hus, hvs]
  exact path_skip h hnodup hrotated

/-- A ring in which neither neighbour lies does not notice. -/
theorem ring_skip_other (h : Ring next prev a xs) (hnext : next j ∉ a :: xs) (hprev : prev j ∉ a :: xs) :
    Ring (skipNext next prev j) (skipPrev next prev j) a xs := by
  apply ring_congr h
  · intro z hz
    exact Function.update_of_ne (ne_of_mem_of_not_mem hz hprev) _ _
  · intro z hz
    exact Function.update_of_ne (ne_of_mem_of_not_mem hz hnext) _ _

/-- What is left out keeps its own links, and by them the assignments are undone. -/
theorem unskip (hprev : next (prev j) = j) (hnext : prev (next j) = j) (hne : next j ≠ j) :
    skipNext next prev j j = next j ∧ Function.update (skipPrev next prev j) (next j) j = prev ∧
      Function.update (skipNext next prev j) (prev j) j = next := by
  have hne' : j ≠ prev j := by
    intro he
    rw [← he] at hprev
    exact hne hprev
  have hn := Function.update_eq_self (prev j) next
  have hp := Function.update_eq_self (next j) prev
  rw [hprev] at hn
  rw [hnext] at hp
  refine ⟨Function.update_of_ne hne' _ _, ?_, ?_⟩
  · rw [skipPrev, Function.update_idem, hp]
  · rw [skipNext, Function.update_idem, hn]

theorem path_insert {n : α} (h : Path next prev x xs y) (hn : n ∉ x :: xs ++ [y]) (hx : (x :: xs).Nodup)
    (hy : (xs ++ [y]).Nodup) :
    Path (Function.update (Function.update next n y) (prev y) n)
      (Function.update (Function.update prev n (prev y)) y n) x (xs ++ [n]) y := by
  have hny : n ≠ y := by
    rintro rfl
    exact hn (List.mem_append_right _ List.mem_cons_self)
  induction xs generalizing x with
  | nil =>
    have hnx : n ≠ x := by
      rintro rfl
      exact hn List.mem_cons_self
    rw [h.2]
    refine ⟨⟨Function.update_self .., ?_⟩, ?_, Function.update_self ..⟩
    · rw [Function.update_of_ne hny, Function.update_self]
    · rw [Function.update_of_ne hnx, Function.update_self]
  | cons z zs ih =>
    obtain ⟨hstep,hrest⟩ := h
    have hxp : x ≠ prev y := by
      intro he
      apply (List.nodup_cons.mp hx).1
      rw [he]
      exact path_prev hrest
    have hxn : x ≠ n := by
      rintro rfl
      exact hn List.mem_cons_self
    have hzn : z ≠ n := by
      rintro rfl
      exact hn (List.mem_cons_of_mem _ List.mem_cons_self)
    have hzy : z ≠ y := by
      rintro rfl
      exact (List.nodup_cons.mp hy).1 (List.mem_append_right _ List.mem_cons_self)
    refine ⟨⟨?_, ?_⟩, ih hrest (fun h => hn (List.mem_cons_of_mem _ h)) (List.nodup_cons.mp hx).2
      (List.nodup_cons.mp hy).2⟩
    · rw [Function.update_of_ne hxp, Function.update_of_ne hxn]
      exact hstep.1
    · rw [Function.update_of_ne hzy, Function.update_of_ne hzn]
      exact hstep.2

/-- `n` comes in front of `a`, which is the end of its ring. -/
theorem ring_insert {n : α} (h : Ring next prev a xs) (hn : n ∉ a :: xs) (hnodup : (a :: xs).Nodup) :
    Ring (Function.update (Function.update next n a) (prev a) n)
      (Function.update (Function.update prev n (prev a)) a n) a (xs ++ [n]) := by
  apply path_insert h
  · simp only [List.mem_append, List.mem_cons, List.not_mem_nil] at hn ⊢
    tauto
  · exact hnodup
  · exact (List.perm_append_singleton a xs).nodup_iff.mpr hnodup

end Updates

section Loops
variable {σ : Type*} [DecidableEq α]

/-- `for(x = start; x != stop; x = next(x))`, with a body that can leave the loop by returning true. There is
no result where the loop has not ended within the given number of rounds. -/
def walk (next : σ → α → α) (body : α → σ → Option (Bool × σ)) (stop : α) :
    ℕ → α → σ → Option (Bool × σ)
  | 0, _, _ => none
  | n+1, x, s =>
    if x = stop then some (false, s)
    else
      match body x s with
      | none => none
      | some (true, s) => some (true, s)
      | some (false, s) => walk next body stop n (next s x) s

/-- A loop over a ring comes to its members in order. `I` speaks about the members that are still to come. -/
theorem walk_spec {next : σ → α → α} {body : α → σ → Option (Bool × σ)} {I : List α → σ → Prop}
    {Q : σ → Prop} {link prev : α → α} {x stop : α} {xs : List α} {n : ℕ} {s : σ}
    (hpath : Path link prev x xs stop) (hstop : stop ∉ xs) (hn : xs.length < n) (hs : I xs s)
    (hlink : ∀ zs s, I zs s → ∀ z ∈ x :: xs, next s z = link z)
    (hbody : ∀ z zs s, I (z :: zs) s →
      ∃ found s', body z s = some (found, s') ∧ if found then Q s' else I zs s') :
    ∃ found s', walk next body stop n (next s x) s = some (found, s') ∧ if found then Q s' else I [] s' := by
  induction xs generalizing x n s with
  | nil =>
    cases n with
    | zero => exact absurd hn (Nat.not_lt_zero _)
    | succ n =>
      refine ⟨false, s, ?_, hs⟩
      rw [hlink _ s hs x List.mem_cons_self, hpath.1, walk, if_pos rfl]
  | cons z zs ih =>
    cases n with
    | zero => exact absurd hn (Nat.not_lt_zero _)
    | succ n =>
      have hz : z ≠ stop := by
        rintro rfl
        exact hstop List.mem_cons_self
      obtain ⟨found,s',hbody',hnext⟩ := hbody z zs s hs
      rw [hlink _ s hs x List.mem_cons_self, hpath.1.1, walk, if_neg hz, hbody']
      cases found with
      | true => exact ⟨true, s', rfl, hnext⟩
      | false =>
        apply ih hpath.2 (fun h => hstop (List.mem_cons_of_mem _ h)) (Nat.lt_of_succ_lt_succ hn) hnext
        intro ws s hs w hw
        exact hlink ws s hs w (List.mem_cons_of_mem _ hw)

/-- The same for a loop that is not left early. -/
theorem walk_all {next : σ → α → α} {body : α → σ → Option (Bool × σ)} {I : List α → σ → Prop}
    {link prev : α → α} {x stop : α} {xs : List α} {n : ℕ} {s : σ}
    (hpath : Path link prev x xs stop) (hstop : stop ∉ xs) (hn : xs.length < n) (hs : I xs s)
    (hlink : ∀ zs s, I zs s → ∀ z ∈ x :: xs, next s z = link z)
    (hbody : ∀ z zs s, I (z :: zs) s → ∃ s', body z s = some (false, s') ∧ I zs s') :
    ∃ s', walk next body stop n (next s x) s = some (false, s') ∧ I [] s' := by
  have hnever (z : α) (zs : List α) (s : σ) (hI : I (z :: zs) s) :
      ∃ found s', body z s = some (found, s') ∧ if found then False else I zs s' := by
    obtain ⟨s',hbody',hnext⟩ := hbody z zs s hI
    exact ⟨false, s', hbody', hnext⟩
  obtain ⟨found,s',hwalk,hend⟩ := @walk_spec _ _ _ next body I (fun _ => False) link prev x stop xs n s
    hpath hstop hn hs hlink hnever
  cases found with
  | true => exact hend.elim
  | false => exact ⟨s', hwalk, hend⟩

end Loops

end Circular
