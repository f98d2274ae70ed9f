import IdealServer.Search

/-! Text made of lines, each ended by a separator of two different symbols. No line contains the
separator; a line may end with its first symbol. -/
namespace Lines
open Search

variable {α : Type*}

def unlines (sep : List α) (ls : List (List α)) : List α := ls.flatMap (· ++ sep)

@[simp] theorem unlines_nil (sep : List α) : unlines sep [] = [] := rfl

@[simp] theorem unlines_cons (sep l : List α) (ls : List (List α)) :
    unlines sep (l :: ls) = l ++ sep ++ unlines sep ls := List.flatMap_cons

@[simp] theorem unlines_append (sep : List α) (ls ms : List (List α)) :
    unlines sep (ls ++ ms) = unlines sep ls ++ unlines sep ms := List.flatMap_append

/-- A list that is cut once in front of a symbol or behind it, and once anywhere. -/
theorem append_eq_append_cons {xs ys us vs : List α} {x : α} (h : xs ++ ys = us ++ x :: vs) :
    (∃ t, us = xs ++ t ∧ ys = t ++ x :: vs) ∨ ∃ t, xs = us ++ x :: t ∧ vs = t ++ ys := by
  rcases List.append_eq_append_iff.mp h with ⟨t,h1,h2⟩ | ⟨t,h1,h2⟩
  · exact Or.inl ⟨t, h1, h2⟩
  cases t with
  | nil =>
    rw [List.append_nil] at h1
    exact Or.inl ⟨[], by rw [h1, List.append_nil], h2.symm⟩
  | cons y t =>
    obtain ⟨rfl,htail⟩ := List.cons.inj h2
    exact Or.inr ⟨t, h1, htail⟩

/-- A pattern without the symbol lies on one side of it. -/
theorem infix_append_cons_iff {pat xs ys : List α} {c : α} (hc : c ∉ pat) :
    pat <:+: xs ++ c :: ys ↔ pat <:+: xs ∨ pat <:+: ys := by
  constructor
  · rintro ⟨s,t,h⟩
    rcases append_eq_append_cons h with ⟨u,hxs,_⟩ | ⟨u,hpat,hys⟩
    · exact Or.inl ⟨s, u, hxs.symm⟩
    · -- the symbol is behind `s`, inside the pattern, or in front of it
      rcases append_eq_append_cons hpat with ⟨v,_,hin⟩ | ⟨v,_,hv⟩
      · rw [hin] at hc
        exact absurd (List.mem_append_right v List.mem_cons_self) hc
      · exact Or.inr ⟨v, t, by rw [hys, hv]⟩
  · rintro (h | h)
    · exact List.infix_append_of_infix_left h
    · exact List.infix_append_of_infix_right (h.trans (List.suffix_cons c ys).isInfix)

/-- A word without the symbol that begins a text begins what stands in front of the symbol. -/
theorem prefix_of_prefix_append_cons {w l rest : List α} {c : α} (hc : c ∉ w)
    (h : w <+: l ++ c :: rest) : w <+: l := by
  rcases List.prefix_or_prefix_of_prefix h (List.prefix_append l (c :: rest)) with hw | ⟨t,rfl⟩
  · exact hw
  cases t with
  | nil => rw [List.append_nil]
  | cons x t =>
    rw [List.prefix_append_right_inj, List.cons_prefix_cons] at h
    rw [h.1] at hc
    exact absurd (List.mem_append_right l List.mem_cons_self) hc

section TwoSymbols
variable {a b : α} {l p rest : List α} {ls : List (List α)}

/-- The separator does not begin inside a line, nor across the end of one. -/
theorem not_prefix_drop (hab : a ≠ b) (hl : ¬ [a,b] <:+: l) {m : ℕ} (hm : m < l.length) :
    ¬ [a,b] <+: (l ++ a :: rest).drop m := by
  rw [List.drop_append_of_le_length hm.le]
  intro hp
  have hsuf : l.drop m <:+ l := List.drop_suffix m l
  cases htail : l.drop m with
  | nil =>
    rw [List.drop_eq_nil_iff] at htail
    omega
  | cons x xs =>
    rw [htail] at hp hsuf
    cases xs with
    | nil =>
      -- the line ends here, so the next symbol is the first one of the separator
      rw [List.singleton_append, List.cons_prefix_cons, List.cons_prefix_cons] at hp
      exact hab hp.2.1.symm
    | cons y ys =>
      rw [List.cons_append, List.cons_append, List.cons_prefix_cons, List.cons_prefix_cons] at hp
      obtain ⟨rfl,rfl,_⟩ := hp
      have hpre : [a,b] <+: a :: b :: ys := ⟨ys, rfl⟩
      exact hl (hpre.isInfix.trans hsuf.isInfix)

/-- A line of which the last symbol of the separator is missing is unbroken. -/
theorem unbroken_append (hab : a ≠ b) (hl : ¬ [a,b] <:+: l) : ¬ [a,b] <:+: l ++ [a] := by
  rintro ⟨s,t,h⟩
  have hlen := congrArg List.length h
  simp only [List.length_append, List.length_cons, List.length_nil] at hlen
  have hp : [a,b] <+: (l ++ [a]).drop s.length := by
    rw [← h, List.append_assoc, List.drop_left]
    exact List.prefix_append _ _
  exact not_prefix_drop hab hl (by omega) hp

theorem not_infix_of_prefix {xs : List α} (hp : p <+: xs) (h : ¬ [a,b] <:+: xs) :
    ¬ [a,b] <:+: p := fun hi => h (hi.trans hp.isInfix)

/-- What has arrived of a text consists of whole lines and an unbroken piece of the next one. -/
theorem exists_complete_lines (hab : a ≠ b) (hls : ∀ l ∈ ls, ¬ [a,b] <:+: l) {buf : List α}
    (h : buf ++ rest = unlines [a,b] ls) :
    ∃ complete todo piece, ls = complete ++ todo ∧ buf = unlines [a,b] complete ++ piece ∧
      piece ++ rest = unlines [a,b] todo ∧ ¬ [a,b] <:+: piece := by
  induction ls generalizing buf with
  | nil =>
    obtain ⟨rfl,rfl⟩ := List.append_eq_nil_iff.mp h
    exact ⟨[], [], [], rfl, rfl, rfl, by simp⟩
  | cons l ls ih =>
    have hl := hls l List.mem_cons_self
    rw [unlines_cons] at h
    rcases List.append_eq_append_iff.mp h with ⟨t,ht,hrest⟩ | ⟨t,ht,hrest⟩
    · cases ht' : t using List.reverseRecOn with
      | nil =>
        rw [ht', List.append_nil] at ht
        rw [ht', List.nil_append] at hrest
        refine ⟨[l], ls, [], rfl, ?_, by rw [List.nil_append, hrest], by simp⟩
        rw [← ht]
        simp
      | append_singleton t x =>
        -- at least the last symbol of this line's separator is missing
        subst ht'
        have hsplit : l ++ [a] = buf ++ t := by
          have h2 : (l ++ [a]) ++ [b] = (buf ++ t) ++ [x] := by
            rw [List.append_assoc, List.append_assoc, ← ht]
            rfl
          exact (List.append_inj' h2 rfl).1
        refine ⟨[], l :: ls, buf, rfl, rfl, ?_, ?_⟩
        · rw [hrest, ← List.append_assoc, ← ht, unlines_cons]
        · apply not_infix_of_prefix ⟨t, hsplit.symm⟩
          exact unbroken_append hab hl
    · obtain ⟨complete,todo,piece,h1,h2,h3,h4⟩ :=
        ih (fun m hm => hls m (List.mem_cons_of_mem _ hm)) hrest.symm
      refine ⟨l :: complete, todo, piece, by rw [h1]; rfl, ?_, h3, h4⟩
      rw [ht, h2, unlines_cons]
      simp only [List.append_assoc]

/-- Every text is made of lines once its end is marked. The first line begins the text; a separator
stands in front of each other one. -/
theorem exists_lines (a b : α) (t : List α) : ∃ l ls, t ++ [a,b] = unlines [a,b] (l :: ls) ∧
    (∀ m ∈ l :: ls, ¬ [a,b] <:+: m) ∧ l <+: t ∧ ∀ m ∈ ls, [a,b] ++ m <:+: t := by
  induction t with
  | nil => exact ⟨[], [], by simp, by simp, List.nil_prefix, by simp⟩
  | cons x t ih =>
    obtain ⟨l,ls,htext,hunbroken,hpre,hfollows⟩ := ih
    have hls : ∀ m ∈ ls, [a,b] ++ m <:+: x :: t :=
      fun m hm => (hfollows m hm).trans (List.suffix_cons x t).isInfix
    by_cases hsep : [a,b] <+: x :: l
    · -- a separator ends here, and it was the first symbol that was missing
      obtain ⟨m,hm⟩ := hsep
      obtain ⟨rfl,rfl⟩ := List.cons.inj hm
      have hrest : ∀ k ∈ m :: ls, ¬ [a,b] <:+: k := by
        intro k hk
        rcases List.mem_cons.mp hk with rfl | hk
        · intro hin
          exact hunbroken _ List.mem_cons_self (hin.trans (List.suffix_cons b k).isInfix)
        · exact hunbroken k (List.mem_cons_of_mem _ hk)
      refine ⟨[], m :: ls, ?_, ?_, List.nil_prefix, ?_⟩
      · rw [List.cons_append, htext]
        simp
      · intro k hk
        rcases List.mem_cons.mp hk with rfl | hk
        · simp
        · exact hrest k hk
      · intro k hk
        rcases List.mem_cons.mp hk with rfl | hk
        · exact ((List.prefix_cons_inj a).mpr hpre).isInfix
        · exact hls k hk
    · refine ⟨x :: l, ls, ?_, ?_, (List.prefix_cons_inj x).mpr hpre, hls⟩
      · rw [List.cons_append, htext]
        simp
      · intro k hk
        rcases List.mem_cons.mp hk with rfl | hk
        · rw [List.infix_cons_iff]
          rintro (hp | hi)
          · exact hsep hp
          · exact hunbroken l List.mem_cons_self hi
        · exact hunbroken k (List.mem_cons_of_mem _ hk)

/-- What begins a piece of a text of lines begins one of the lines. -/
theorem prefix_line_of_prefix_piece {w piece : List α} (hne : w ≠ []) (ha : a ∉ w)
    (hw : w <+: piece) (h : piece ++ rest = unlines [a,b] ls) : ∃ l ∈ ls, w <+: l := by
  have hpre : w <+: unlines [a,b] ls := h ▸ hw.trans (List.prefix_append piece rest)
  cases ls with
  | nil => exact absurd (List.prefix_nil.mp hpre) hne
  | cons l ls =>
    rw [unlines_cons, List.append_assoc] at hpre
    exact ⟨l, List.mem_cons_self, prefix_of_prefix_append_cons ha hpre⟩

/-- A pattern without the two symbols does not begin in lines that do not contain it. -/
theorem not_prefix_unlines {pat : List α} (hne : pat ≠ []) (ha : a ∉ pat) (hb : b ∉ pat)
    (hls : ∀ l ∈ ls, ¬ pat <:+: l) {m : ℕ} (hm : m < (unlines [a,b] ls).length) :
    ¬ pat <+: (unlines [a,b] ls ++ rest).drop m := by
  obtain ⟨x,xs,rfl⟩ := List.exists_cons_of_ne_nil hne
  induction ls generalizing m with
  | nil => contradiction
  | cons l ls ih =>
    have htext : unlines [a,b] (l :: ls) ++ rest =
        l ++ a :: b :: (unlines [a,b] ls ++ rest) := by simp
    rw [htext]
    rcases Nat.lt_or_ge m l.length with hlt | hge
    · rw [List.drop_append_of_le_length hlt.le]
      intro hp
      have hpiece : l.drop m ++ [a] <+: l.drop m ++ a :: b :: (unlines [a,b] ls ++ rest) :=
        ⟨b :: (unlines [a,b] ls ++ rest), by simp⟩
      rcases List.prefix_or_prefix_of_prefix hp hpiece with h | h
      · rcases List.prefix_concat_iff.mp h with h | h
        · exact ha (h ▸ by simp)
        · exact hls l List.mem_cons_self (h.isInfix.trans (List.drop_suffix m l).isInfix)
      · exact ha (h.subset (by simp))
    · obtain ⟨k,rfl⟩ := Nat.exists_eq_add_of_le hge
      rw [List.drop_append, List.drop_of_length_le (by omega), List.nil_append,
        Nat.add_sub_cancel_left]
      match k with
      | 0 =>
        intro hp
        exact ha (by rw [(List.cons_prefix_cons.mp hp).1]; exact List.mem_cons_self)
      | 1 =>
        intro hp
        exact hb (by rw [(List.cons_prefix_cons.mp hp).1]; exact List.mem_cons_self)
      | k+2 =>
        have hk : k < (unlines [a,b] ls).length := by
          simp only [unlines_cons, List.length_append, List.length_cons, List.length_nil] at hm
          omega
        exact ih hk (fun l hl => hls l (List.mem_cons_of_mem _ hl))

theorem not_infix_unlines {pat : List α} (hne : pat ≠ []) (ha : a ∉ pat) (hb : b ∉ pat)
    (hls : ∀ l ∈ ls, ¬ pat <:+: l) : ¬ pat <:+: unlines [a,b] ls := by
  rintro ⟨s,t,h⟩
  have hpos := List.length_pos_iff.mpr hne
  have hlen := congrArg List.length h
  simp only [List.length_append] at hlen
  have hp : pat <+: (unlines [a,b] ls ++ []).drop s.length := by
    rw [List.append_nil, ← h, List.append_assoc, List.drop_left]
    exact List.prefix_append _ _
  exact not_prefix_unlines hne ha hb hls (by omega) hp

variable [DecidableEq α]

/-- A pattern is first found in the first line that contains it. -/
theorem search_unlines {pat : List α} {post : List (List α)} {n : ℕ} (hne : pat ≠ [])
    (ha : a ∉ pat) (hb : b ∉ pat) (hls : ∀ m ∈ ls, ¬ pat <:+: m) (hn : search pat l = some n) :
    search pat (unlines [a,b] (ls ++ l :: post)) = some ((unlines [a,b] ls).length+n) := by
  have htext : unlines [a,b] (ls ++ l :: post) =
      unlines [a,b] ls ++ (l ++ ([a,b] ++ unlines [a,b] post)) := by simp
  have hskip : ∀ m < (unlines [a,b] ls).length,
      ¬ pat <+: (unlines [a,b] ls ++ (l ++ ([a,b] ++ unlines [a,b] post))).drop m :=
    fun m hm => not_prefix_unlines hne ha hb hls hm
  rw [htext, search_append hskip, search_append_some hn, Option.map_some, Nat.add_comm]

/-- The first separator is the one that ends the first line. -/
theorem search_line (hab : a ≠ b) (hl : ¬ [a,b] <:+: l) :
    search [a,b] (l ++ [a,b] ++ rest) = some l.length := by
  have hskip : ∀ m < l.length, ¬ [a,b] <+: (l ++ ([a,b] ++ rest)).drop m :=
    fun m hm => not_prefix_drop hab hl hm
  rw [List.append_assoc, search_append hskip, search_here ⟨rest, rfl⟩, Option.map_some,
    Nat.zero_add]

/-- The first line of a text is determined by the text. -/
theorem line_inj {m rest' : List α} (hab : a ≠ b) (hl : ¬ [a,b] <:+: l) (hm : ¬ [a,b] <:+: m)
    (h : l ++ [a,b] ++ rest = m ++ [a,b] ++ rest') : l = m ∧ rest = rest' := by
  have hlen : l.length = m.length := by
    have hsearch := @search_line α a b l rest _ hab hl
    rw [h, search_line hab hm] at hsearch
    exact (Option.some.inj hsearch).symm
  simp only [List.append_assoc] at h
  obtain ⟨hline,htail⟩ := List.append_inj h hlen
  exact ⟨hline, List.append_cancel_left htail⟩

/-- So are the lines in front of the first empty one, and what follows it. -/
theorem unlines_blank_inj {ms : List (List α)} {rest' : List α} (hab : a ≠ b)
    (hls : ∀ l ∈ ls, l ≠ [] ∧ ¬ [a,b] <:+: l) (hms : ∀ m ∈ ms, m ≠ [] ∧ ¬ [a,b] <:+: m)
    (h : unlines [a,b] (ls ++ [[]]) ++ rest = unlines [a,b] (ms ++ [[]]) ++ rest') :
    ls = ms ∧ rest = rest' := by
  have hempty : ¬ [a,b] <:+: ([] : List α) := by simp
  have hcons (l : List α) (ks : List (List α)) (t : List α) :
      unlines [a,b] (l :: ks ++ [[]]) ++ t = l ++ [a,b] ++ (unlines [a,b] (ks ++ [[]]) ++ t) := by
    simp
  have hnil (t : List α) : unlines [a,b] ([] ++ [[]]) ++ t = [] ++ [a,b] ++ t := by simp
  induction ls generalizing ms with
  | nil =>
    cases ms with
    | nil => exact ⟨rfl, List.append_cancel_left h⟩
    | cons m ms =>
      obtain ⟨hm,hunbroken⟩ := hms m List.mem_cons_self
      rw [hnil, hcons] at h
      exact absurd (line_inj hab hempty hunbroken h).1.symm hm
  | cons l ls ih =>
    obtain ⟨hl,hunbroken⟩ := hls l List.mem_cons_self
    cases ms with
    | nil =>
      rw [hnil, hcons] at h
      exact absurd (line_inj hab hunbroken hempty h).1 hl
    | cons m ms =>
      rw [hcons, hcons] at h
      obtain ⟨rfl,htail⟩ := line_inj hab hunbroken (hms m List.mem_cons_self).2 h
      obtain ⟨rfl,hrest⟩ := ih (fun k hk => hls k (List.mem_cons_of_mem _ hk))
        (fun k hk => hms k (List.mem_cons_of_mem _ hk)) htail
      exact ⟨rfl, hrest⟩

/-- The last separator is the one in front of the unbroken piece. -/
theorem findEnd_unlines (hab : a ≠ b) (hp : ¬ [a,b] <:+: p) :
    findEnd [a,b] (unlines [a,b] (ls ++ [l]) ++ p) = some ((unlines [a,b] ls).length+l.length) := by
  have hnone : findEnd [a,b] (b :: p) = none := by
    rw [findEnd_eq_none, List.infix_cons_iff]
    rintro (hpre | hpre)
    · exact hab (List.cons_prefix_cons.mp hpre).1
    · exact hp hpre
  have hsep : findEnd [a,b] ([a,b] ++ p) = some 0 := by
    change findEnd [a,b] (a :: b :: p) = some 0
    rw [findEnd, hnone]
    exact if_pos ⟨p, rfl⟩
  have htext : unlines [a,b] (ls ++ [l]) ++ p = (unlines [a,b] ls ++ l) ++ ([a,b] ++ p) := by
    simp
  rw [htext, findEnd_append hsep, List.length_append, Nat.add_zero]

/-- Cutting at the last separator splits the whole lines from the piece. -/
theorem findEnd_split (hab : a ≠ b) (hne : ls ≠ []) (hp : ¬ [a,b] <:+: p) :
    ∃ n, findEnd [a,b] (unlines [a,b] ls ++ p) = some n ∧
      (unlines [a,b] ls ++ p).take n ++ [a,b] = unlines [a,b] ls ∧
      (unlines [a,b] ls ++ p).drop (n+2) = p := by
  obtain ⟨init,l,rfl⟩ := List.eq_nil_or_concat'  ls |>.resolve_left hne
  have htext : unlines [a,b] (init ++ [l]) ++ p = (unlines [a,b] init ++ l) ++ ([a,b] ++ p) := by
    simp
  have hlen : (unlines [a,b] init).length+l.length = (unlines [a,b] init ++ l).length :=
    List.length_append.symm
  refine ⟨_, findEnd_unlines hab hp, ?_, ?_⟩
  · rw [htext, hlen, List.take_left]
    simp
  · rw [htext, hlen, ← List.drop_drop, List.drop_left]
    rfl

/-- The search for an empty line steps over a line that is not empty. -/
theorem search_blank_cons (hab : a ≠ b) (hl : ¬ [a,b] <:+: l) (hne : l ≠ []) :
    search [a,b,a,b] ([a,b] ++ (l ++ [a,b] ++ rest)) =
      (search [a,b,a,b] ([a,b] ++ rest)).map (·+(l.length+2)) := by
  have htext : [a,b] ++ (l ++ [a,b] ++ rest) = ([a,b] ++ l) ++ ([a,b] ++ rest) := by simp
  have hpos : 0 < l.length := List.length_pos_iff.mpr hne
  have hlen : ([a,b] ++ l).length = l.length+2 := by
    rw [List.length_append, Nat.add_comm]
    rfl
  rw [htext, search_append, hlen]
  · intro m hm hp
    rw [hlen] at hm
    match m with
    | 0 =>
      have hin : [a,b] <+: l ++ a :: (b :: rest) := by
        simpa using hp
      exact not_prefix_drop hab hl hpos hin
    | 1 =>
      have hba : a = b := by
        have h1 : [a,b,a,b] <+: b :: (l ++ a :: b :: rest) := by simpa using hp
        exact (List.cons_prefix_cons.mp h1).1
      exact hab hba
    | k+2 =>
      have hin : [a,b] <+: (l ++ a :: (b :: rest)).drop k := by
        have h1 : [a,b,a,b] <+: (l ++ a :: b :: rest).drop k := by simpa using hp
        exact List.IsPrefix.trans ⟨[a,b], rfl⟩ h1
      exact not_prefix_drop hab hl (by omega) hin

/-- In lines none of which is empty there is no empty line. -/
theorem search_blank_none (hab : a ≠ b) (hls : ∀ l ∈ ls, ¬ [a,b] <:+: l)
    (hne : ∀ l ∈ ls, l ≠ []) : search [a,b,a,b] ([a,b] ++ unlines [a,b] ls) = none := by
  induction ls with
  | nil =>
    rw [search_eq_none, unlines_nil, List.append_nil]
    intro hi
    have := hi.length_le
    simp at this
  | cons l ls ih =>
    rw [unlines_cons, search_blank_cons hab (hls l List.mem_cons_self) (hne l List.mem_cons_self),
      ih (fun m hm => hls m (List.mem_cons_of_mem _ hm))
        (fun m hm => hne m (List.mem_cons_of_mem _ hm)), Option.map_none]

/-- The first empty line is found where it stands. -/
theorem search_blank_some (hab : a ≠ b) (hls : ∀ l ∈ ls, ¬ [a,b] <:+: l)
    (hne : ∀ l ∈ ls, l ≠ []) :
    search [a,b,a,b] ([a,b] ++ unlines [a,b] (ls ++ [[]]) ++ rest) =
      some (unlines [a,b] ls).length := by
  induction ls with
  | nil =>
    rw [List.nil_append]
    exact search_here ⟨rest, by simp⟩
  | cons l ls ih =>
    have htext : [a,b] ++ unlines [a,b] (l :: ls ++ [[]]) ++ rest =
        [a,b] ++ (l ++ [a,b] ++ (unlines [a,b] (ls ++ [[]]) ++ rest)) := by simp
    rw [htext, search_blank_cons hab (hls l List.mem_cons_self) (hne l List.mem_cons_self),
      ← List.append_assoc, ih (fun m hm => hls m (List.mem_cons_of_mem _ hm))
        (fun m hm => hne m (List.mem_cons_of_mem _ hm)), Option.map_some, unlines_cons,
      List.length_append, List.length_append]
    congr 1
    exact Nat.add_comm _ _

/-- The same for a text that begins with its first line. -/
theorem search_blank_first (hab : a ≠ b) (hl : ¬ [a,b] <:+: l)
    (hls : ∀ m ∈ ls, ¬ [a,b] <:+: m) (hne : ∀ m ∈ ls, m ≠ []) :
    search [a,b,a,b] (unlines [a,b] (l :: ls ++ [[]]) ++ rest) =
      some ((unlines [a,b] ls).length+l.length) := by
  have htext : unlines [a,b] (l :: ls ++ [[]]) ++ rest =
      l ++ ([a,b] ++ unlines [a,b] (ls ++ [[]]) ++ rest) := by simp
  rw [htext, search_append, search_blank_some hab hls hne, Option.map_some]
  intro m hm hp
  have hin : [a,b] <+: (l ++ a :: (b :: (unlines [a,b] (ls ++ [[]]) ++ rest))).drop m := by
    have h1 : [a,b,a,b] <+: (l ++ a :: (b :: (unlines [a,b] (ls ++ [[]]) ++ rest))).drop m := by
      simpa using hp
    exact List.IsPrefix.trans ⟨[a,b], rfl⟩ h1
  exact not_prefix_drop hab hl hm hin

end TwoSymbols

end Lines
