import Mathlib.Data.List.Basic

/-! Runs of a step function that can fail and that emits a list of observations at every step. -/
namespace Runs

variable {σ ι ε o : Type*}

theorem bind_ok {α β : Type*} {x : Except ε α} {f : α → Except ε β} {b : β}
    (h : x.bind f = .ok b) : ∃ a, x = .ok a ∧ f a = .ok b := by
  cases x with
  | error e => contradiction
  | ok a => exact ⟨a, rfl, h⟩

theorem map_ok {α β : Type*} {x : Except ε α} {f : α → β} {b : β} (h : x.map f = .ok b) :
    ∃ a, x = .ok a ∧ f a = b := by
  cases x with
  | error e => cases h
  | ok a => exact ⟨a, rfl, Except.ok.inj h⟩

theorem bind_error {α β : Type*} {x : Except ε α} {f : α → Except ε β} {e : ε}
    (h : x.bind f = .error e) : x = .error e ∨ ∃ a, x = .ok a ∧ f a = .error e := by
  cases x with
  | error e' => exact Or.inl (congrArg Except.error (Except.error.inj h))
  | ok a => exact Or.inr ⟨a, rfl, h⟩

theorem map_error {α β : Type*} {x : Except ε α} {f : α → β} {e : ε} (h : x.map f = .error e) :
    x = .error e := by
  cases x with
  | error e' => exact congrArg Except.error (Except.error.inj h)
  | ok a => cases h

def run (step : σ → ι → Except ε (σ × List o)) : σ → List ι → Except ε (σ × List o)
  | s, [] => .ok (s, [])
  | s, i :: is =>
    (step s i).bind (fun r => (run step r.1 is).bind (fun q => .ok (q.1, r.2 ++ q.2)))

variable {step : σ → ι → Except ε (σ × List o)}

@[simp] theorem run_nil (s : σ) : run step s [] = .ok (s, []) := rfl

theorem run_cons_of_ok {s s1 s2 : σ} {i : ι} {is : List ι} {o1 o2 : List o}
    (h1 : step s i = .ok (s1, o1)) (h2 : run step s1 is = .ok (s2, o2)) :
    run step s (i :: is) = .ok (s2, o1 ++ o2) := by
  simp only [run, h1, Except.bind, h2]

theorem run_cons_of_error {s : σ} {i : ι} {is : List ι} {e : ε} (h : step s i = .error e) :
    run step s (i :: is) = .error e := by
  rw [run, h]
  rfl

theorem run_cons_error_of_ok {s s1 : σ} {i : ι} {is : List ι} {o1 : List o} {e : ε}
    (h1 : step s i = .ok (s1, o1)) (h2 : run step s1 is = .error e) :
    run step s (i :: is) = .error e := by
  rw [run, h1]
  change (run step s1 is).bind _ = .error e
  rw [h2]
  rfl

theorem run_single {s s' : σ} {i : ι} {out : List o} (h : step s i = .ok (s', out)) :
    run step s [i] = .ok (s', out ++ []) := run_cons_of_ok h rfl

theorem run_cons_ok {s s2 : σ} {i : ι} {is : List ι} {out : List o}
    (h : run step s (i :: is) = .ok (s2, out)) :
    ∃ s1 o1 o2, step s i = .ok (s1, o1) ∧ run step s1 is = .ok (s2, o2) ∧ out = o1 ++ o2 := by
  obtain ⟨⟨s1,o1⟩,h1,h⟩ := bind_ok h
  obtain ⟨⟨q,o2⟩,h2,h⟩ := bind_ok h
  obtain ⟨rfl,rfl⟩ := Prod.mk.inj (Except.ok.inj h)
  exact ⟨s1, o1, o2, h1, h2, rfl⟩

theorem run_append_ok {s s2 : σ} {is js : List ι} {out : List o}
    (h : run step s (is ++ js) = .ok (s2, out)) :
    ∃ s1 o1 o2, run step s is = .ok (s1, o1) ∧ run step s1 js = .ok (s2, o2) ∧
      out = o1 ++ o2 := by
  induction is generalizing s out with
  | nil => exact ⟨s, [], out, rfl, h, rfl⟩
  | cons i is ih =>
    obtain ⟨s1,o1,o2,h1,h2,rfl⟩ := run_cons_ok h
    obtain ⟨s3,o3,o4,h3,h4,rfl⟩ := ih h2
    exact ⟨s3, o1 ++ o3, o4, run_cons_of_ok h1 h3, h4, by rw [List.append_assoc]⟩

theorem run_append_of_ok {s s1 s2 : σ} {is js : List ι} {o1 o2 : List o}
    (h1 : run step s is = .ok (s1, o1)) (h2 : run step s1 js = .ok (s2, o2)) :
    run step s (is ++ js) = .ok (s2, o1 ++ o2) := by
  induction is generalizing s o1 with
  | nil =>
    obtain ⟨rfl,rfl⟩ := Prod.mk.inj (Except.ok.inj h1)
    exact h2
  | cons i is ih =>
    obtain ⟨s3,o3,o4,h3,h4,rfl⟩ := run_cons_ok h1
    rw [List.append_assoc]
    exact run_cons_of_ok h3 (ih h4)

/-- A run that goes wrong with its last input. -/
theorem run_concat_error {s s' : σ} {is : List ι} {i : ι} {out : List o} {e : ε}
    (h : run step s is = .ok (s', out)) (he : step s' i = .error e) :
    run step s (is ++ [i]) = .error e := by
  induction is generalizing s out with
  | nil =>
    obtain ⟨rfl,_⟩ := Prod.mk.inj (Except.ok.inj h)
    exact run_cons_of_error he
  | cons j is ih =>
    obtain ⟨s1,o1,o2,h1,h2,_⟩ := run_cons_ok h
    exact run_cons_error_of_ok h1 (ih h2)

/-- Every step of the run meets the condition in the state in which it is taken. -/
def Along (step : σ → ι → Except ε (σ × List o)) (P : σ → ι → Prop) : σ → List ι → Prop
  | _, [] => True
  | s, i :: is => P s i ∧ ∀ s' out, step s i = .ok (s', out) → Along step P s' is

theorem along_cons {P : σ → ι → Prop} {s s1 : σ} {i : ι} {is : List ι} {o1 : List o} (hP : P s i)
    (h1 : step s i = .ok (s1, o1)) (h : Along step P s1 is) : Along step P s (i :: is) := by
  refine ⟨hP, ?_⟩
  intro s' out h2
  obtain ⟨rfl,_⟩ := Prod.mk.inj (Except.ok.inj (h1.symm.trans h2))
  exact h

/-- A condition that the inputs meet in every state. -/
theorem along_of_forall {P : σ → ι → Prop} {s : σ} {is : List ι} (h : ∀ i ∈ is, ∀ s, P s i) :
    Along step P s is := by
  induction is generalizing s with
  | nil => trivial
  | cons i is ih =>
    refine ⟨h i List.mem_cons_self s, ?_⟩
    intro s' out _
    exact ih (fun j hj => h j (List.mem_cons_of_mem _ hj))

theorem along_mono {P R : σ → ι → Prop} (hPR : ∀ s i, P s i → R s i) {s : σ} {is : List ι}
    (h : Along step P s is) : Along step R s is := by
  induction is generalizing s with
  | nil => trivial
  | cons i is ih => exact ⟨hPR s i h.1, fun s1 out h1 => ih (h.2 s1 out h1)⟩

/-- A condition that follows from what the inputs preserve. -/
theorem along_of_preserves {P : σ → ι → Prop} (I : σ → Prop) {s : σ} {is : List ι} (h0 : I s)
    (hstep : ∀ i ∈ is, ∀ s s' out, I s → step s i = .ok (s', out) → I s')
    (hP : ∀ i ∈ is, ∀ s, I s → P s i) : Along step P s is := by
  induction is generalizing s with
  | nil => trivial
  | cons i is ih =>
    refine ⟨hP i List.mem_cons_self s h0, ?_⟩
    intro s' out h
    exact ih (hstep i List.mem_cons_self s s' out h0 h)
      (fun j hj => hstep j (List.mem_cons_of_mem _ hj)) (fun j hj => hP j (List.mem_cons_of_mem _ hj))

theorem along_append {P : σ → ι → Prop} {s : σ} {is js : List ι} (h : Along step P s is)
    (hrest : ∀ s' out, run step s is = .ok (s', out) → Along step P s' js) :
    Along step P s (is ++ js) := by
  induction is generalizing s with
  | nil => exact hrest s [] rfl
  | cons i is ih =>
    refine ⟨h.1, ?_⟩
    intro s1 o1 h1
    apply ih (h.2 s1 o1 h1)
    intro s2 o2 h2
    exact hrest s2 _ (run_cons_of_ok h1 h2)

/-- Where a step that meets the condition still goes through, but no step after it does: the runs that go
through are those in which at most the last step meets it. -/
theorem run_dropLast {P : σ → ι → Prop} (I J : σ → Prop) {e : ε}
    (hstep : ∀ s i, I s → ∃ s' out, step s i = .ok (s', out) ∧ (¬ P s i → I s') ∧ (P s i → J s'))
    (hfail : ∀ s i, J s → step s i = .error e) {s : σ} (is : List ι) (h0 : I s) :
    (Along step (fun s i => ¬ P s i) s is.dropLast ∧ ∃ s' out, run step s is = .ok (s', out)) ∨
      (¬ Along step (fun s i => ¬ P s i) s is.dropLast ∧ run step s is = .error e) := by
  induction is generalizing s with
  | nil => exact Or.inl ⟨trivial, s, [], rfl⟩
  | cons i is ih =>
    obtain ⟨s1,o1,h1,hkeep,hleave⟩ := hstep s i h0
    cases is with
    | nil => exact Or.inl ⟨trivial, s1, _, run_single h1⟩
    | cons j js =>
      rw [List.dropLast_cons_cons]
      by_cases hP : P s i
      · have hnext : run step s1 (j :: js) = .error e := run_cons_of_error (hfail s1 j (hleave hP))
        exact Or.inr ⟨fun h => h.1 hP, run_cons_error_of_ok h1 hnext⟩
      · rcases ih (hkeep hP) with ⟨halong,s2,o2,h2⟩ | ⟨hno,h2⟩
        · exact Or.inl ⟨along_cons hP h1 halong, s2, _, run_cons_of_ok h1 h2⟩
        · exact Or.inr ⟨fun h => hno (h.2 s1 o1 h1), run_cons_error_of_ok h1 h2⟩

theorem along_split {P : σ → ι → Prop} {s : σ} {is js : List ι} (h : Along step P s (is ++ js)) :
    Along step P s is ∧ ∀ s' out, run step s is = .ok (s', out) → Along step P s' js := by
  induction is generalizing s with
  | nil =>
    refine ⟨trivial, ?_⟩
    intro s' out hrun
    obtain ⟨rfl,_⟩ := Prod.mk.inj (Except.ok.inj hrun)
    exact h
  | cons i is ih =>
    refine ⟨⟨h.1, fun s1 o1 h1 => (ih (h.2 s1 o1 h1)).1⟩, ?_⟩
    intro s' out hrun
    obtain ⟨s1,o1,o2,h1,h2,_⟩ := run_cons_ok hrun
    exact (ih (h.2 s1 o1 h1)).2 s' o2 h2

/-- A run whose steps meet the condition goes through, and keeps what each such step keeps. `I`
may speak about the inputs that are still to come. -/
theorem run_along {P : σ → ι → Prop} (I : σ → List ι → List o → Prop)
    (hstep : ∀ s i is acc, I s (i :: is) acc → P s i →
      ∃ s' out, step s i = .ok (s', out) ∧ I s' is (acc ++ out))
    {s : σ} {is : List ι} {acc : List o} (h0 : I s is acc) (h : Along step P s is) :
    ∃ s' out, run step s is = .ok (s', out) ∧ I s' [] (acc ++ out) := by
  induction is generalizing s acc with
  | nil => exact ⟨s, [], rfl, by rwa [List.append_nil]⟩
  | cons i is ih =>
    obtain ⟨s1,o1,h1,hI⟩ := hstep s i is acc h0 h.1
    obtain ⟨s2,o2,h2,hI2⟩ := ih hI (h.2 s1 o1 h1)
    exact ⟨s2, o1 ++ o2, run_cons_of_ok h1 h2, by rwa [← List.append_assoc]⟩

/-- What every step preserves, together with what it emits, holds of a whole run. -/
theorem run_invariant (I : σ → List o → Prop)
    (hstep : ∀ s acc i s' out, I s acc → step s i = .ok (s', out) → I s' (acc ++ out))
    {s s' : σ} {is : List ι} {acc out : List o} (h0 : I s acc)
    (h : run step s is = .ok (s', out)) : I s' (acc ++ out) := by
  induction is generalizing s acc out with
  | nil =>
    obtain ⟨rfl,rfl⟩ := Prod.mk.inj (Except.ok.inj h)
    rwa [List.append_nil]
  | cons i is ih =>
    obtain ⟨s1,o1,o2,h1,h2,rfl⟩ := run_cons_ok h
    rw [← List.append_assoc]
    exact ih (hstep s acc i s1 o1 h0 h1) h2

/-- The same for the state alone. -/
theorem run_preserves (I : σ → Prop)
    (hstep : ∀ s i s' out, I s → step s i = .ok (s', out) → I s')
    {s s' : σ} {is : List ι} {out : List o} (h0 : I s) (h : run step s is = .ok (s', out)) :
    I s' := by
  have hI (s : σ) (acc : List o) (i : ι) (s' : σ) (out : List o) (hs : I s)
      (hok : step s i = .ok (s', out)) : I s' := hstep s i s' out hs hok
  exact @run_invariant _ _ _ _ _ (fun s _ => I s) hI s s' is [] out h0 h

/-- The same where only the steps that meet the condition preserve it. -/
theorem run_preserves_along {P : σ → ι → Prop} (I : σ → Prop)
    (hstep : ∀ s i s' out, I s → P s i → step s i = .ok (s', out) → I s') {s s' : σ}
    {is : List ι} {out : List o} (h0 : I s) (hP : Along step P s is)
    (h : run step s is = .ok (s', out)) : I s' := by
  induction is generalizing s out with
  | nil =>
    obtain ⟨rfl,_⟩ := Prod.mk.inj (Except.ok.inj h)
    exact h0
  | cons i is ih =>
    obtain ⟨s1,o1,o2,h1,h2,_⟩ := run_cons_ok h
    exact ih (hstep s i s1 o1 h0 hP.1 h1) (hP.2 s1 o1 h1) h2

/-- The same together with what the steps emit. -/
theorem run_invariant_along {P : σ → ι → Prop} (I : σ → List o → Prop)
    (hstep : ∀ s acc i s' out, I s acc → P s i → step s i = .ok (s', out) → I s' (acc ++ out))
    {s s' : σ} {is : List ι} {acc out : List o} (h0 : I s acc) (hP : Along step P s is)
    (h : run step s is = .ok (s', out)) : I s' (acc ++ out) := by
  induction is generalizing s acc out with
  | nil =>
    obtain ⟨rfl,rfl⟩ := Prod.mk.inj (Except.ok.inj h)
    rwa [List.append_nil]
  | cons i is ih =>
    obtain ⟨s1,o1,o2,h1,h2,rfl⟩ := run_cons_ok h
    rw [← List.append_assoc]
    exact ih (hstep s acc i s1 o1 h0 hP.1 h1) (hP.2 s1 o1 h1) h2

/-- Where such steps go wrong in certain ways only, so does the run. -/
theorem run_error_along {P : σ → ι → Prop} (I : σ → Prop) (E : ε → Prop)
    (hstep : ∀ s i s' out, I s → P s i → step s i = .ok (s', out) → I s')
    (herror : ∀ s i e, I s → P s i → step s i = .error e → E e) {s : σ} {is : List ι} {e : ε} (h0 : I s)
    (hP : Along step P s is) (h : run step s is = .error e) : E e := by
  induction is generalizing s with
  | nil => cases h
  | cons i is ih =>
    rcases bind_error h with h1 | ⟨⟨s1,o1⟩,h1,h⟩
    · exact herror s i e h0 hP.1 h1
    · rcases bind_error h with h2 | ⟨q,_,h⟩
      · exact ih (hstep s i s1 o1 h0 hP.1 h1) (hP.2 s1 o1 h1) h2
      · cases h

/-- What the steps that meet the condition preserve, and what they then never emit. -/
theorem run_emits_along {P : σ → ι → Prop} (I : σ → Prop) (Q : o → Prop)
    (hstep : ∀ s i s' out, I s → P s i → step s i = .ok (s', out) → I s' ∧ ∀ x ∈ out, Q x)
    {s s' : σ} {is : List ι} {out : List o} (h0 : I s) (hP : Along step P s is)
    (h : run step s is = .ok (s', out)) : ∀ x ∈ out, Q x := by
  induction is generalizing s out with
  | nil =>
    obtain ⟨_,rfl⟩ := Prod.mk.inj (Except.ok.inj h)
    intro x hx
    cases hx
  | cons i is ih =>
    obtain ⟨s1,o1,o2,h1,h2,rfl⟩ := run_cons_ok h
    obtain ⟨hI,hout⟩ := hstep s i s1 o1 h0 hP.1 h1
    intro x hx
    rcases List.mem_append.mp hx with hx | hx
    · exact hout x hx
    · exact ih hI (hP.2 s1 o1 h1) h2 x hx

/-- Where what a step emits is as it should be exactly if the step meets `R`, so it is for a run. -/
theorem run_emits_iff {P R : σ → ι → Prop} (I : σ → Prop) (Q : o → Prop)
    (hstep : ∀ s i s' out, I s → P s i → step s i = .ok (s', out) →
      I s' ∧ ((∀ x ∈ out, Q x) ↔ R s i))
    {s s' : σ} {is : List ι} {out : List o} (h0 : I s) (hP : Along step P s is)
    (h : run step s is = .ok (s', out)) : (∀ x ∈ out, Q x) ↔ Along step R s is := by
  induction is generalizing s out with
  | nil =>
    obtain ⟨_,rfl⟩ := Prod.mk.inj (Except.ok.inj h)
    exact ⟨fun _ => trivial, fun _ x hx => (List.not_mem_nil hx).elim⟩
  | cons i is ih =>
    obtain ⟨s1,o1,o2,h1,h2,rfl⟩ := run_cons_ok h
    obtain ⟨hI,hout⟩ := hstep s i s1 o1 h0 hP.1 h1
    have hrest := ih hI (hP.2 s1 o1 h1) h2
    simp only [List.mem_append, or_imp, forall_and]
    rw [hout, hrest]
    constructor
    · intro hR
      exact along_cons hR.1 h1 hR.2
    · intro hR
      exact ⟨hR.1, hR.2 s1 o1 h1⟩

/-- Where each step that the condition allows keeps `Q` exactly if it meets `R`, or goes wrong though it
meets `R`, the runs that stay in `Q` are those whose steps all meet `R`. -/
theorem along_iff {P R : σ → ι → Prop} (I Q : σ → Prop)
    (hstep : ∀ s i, I s → Q s → P s i →
      (∃ s' out, step s i = .ok (s', out) ∧ I s' ∧ (Q s' ↔ R s i)) ∨ (∃ e, step s i = .error e ∧ R s i))
    {s : σ} {is : List ι} (h0 : I s) (hQ : Q s) (h : Along step P s is) :
    (∀ n s' out, run step s (is.take n) = .ok (s', out) → Q s') ↔ Along step R s is := by
  induction is generalizing s with
  | nil =>
    refine ⟨fun _ => trivial, ?_⟩
    intro _ n s' out hrun
    rw [List.take_nil] at hrun
    obtain ⟨rfl,_⟩ := Prod.mk.inj (Except.ok.inj hrun)
    exact hQ
  | cons i is ih =>
    rcases hstep s i h0 hQ h.1 with ⟨s1,o1,h1,hI1,hiff⟩ | ⟨e,h1,hR⟩
    · constructor
      · intro hall
        have hQ1 : Q s1 := hall 1 s1 _ (run_single h1)
        apply along_cons (hiff.mp hQ1) h1
        apply (ih hI1 hQ1 (h.2 s1 o1 h1)).mp
        intro n s2 o2 h2
        exact hall (n+1) s2 _ (run_cons_of_ok h1 h2)
      · intro hR n s' out hrun
        have hQ1 : Q s1 := hiff.mpr hR.1
        cases n with
        | zero =>
          obtain ⟨rfl,_⟩ := Prod.mk.inj (Except.ok.inj hrun)
          exact hQ
        | succ n =>
          rw [List.take_succ_cons] at hrun
          obtain ⟨s3,o3,o4,h3,h4,_⟩ := run_cons_ok hrun
          obtain ⟨rfl,rfl⟩ := Prod.mk.inj (Except.ok.inj (h1.symm.trans h3))
          exact (ih hI1 hQ1 (h.2 s1 o1 h1)).mpr (hR.2 s1 o1 h1) n s' o4 h4
    · -- there is no state after the first
      constructor
      · intro _
        exact ⟨hR, fun s' out hok => by cases h1.symm.trans hok⟩
      · intro _ n s' out hrun
        cases n with
        | zero =>
          obtain ⟨rfl,_⟩ := Prod.mk.inj (Except.ok.inj hrun)
          exact hQ
        | succ n =>
          rw [List.take_succ_cons] at hrun
          obtain ⟨s3,o3,o4,h3,_⟩ := run_cons_ok hrun
          cases h1.symm.trans h3

/-- A run whose inputs are all harmless from every state does not fail. -/
theorem run_total (P : ι → Prop) (hstep : ∀ s i, P i → ∃ r, step s i = .ok r) (s : σ)
    (is : List ι) (h : ∀ i ∈ is, P i) : ∃ s' out, run step s is = .ok (s', out) := by
  induction is generalizing s with
  | nil => exact ⟨s, [], rfl⟩
  | cons i is ih =>
    obtain ⟨⟨s1,o1⟩,h1⟩ := hstep s i (h i List.mem_cons_self)
    obtain ⟨s2,o2,h2⟩ := ih s1 (fun j hj => h j (List.mem_cons_of_mem _ hj))
    exact ⟨s2, o1 ++ o2, run_cons_of_ok h1 h2⟩

section Refinement
variable {τ : Type*}

/-- A run of a machine that cannot fail. -/
def runSpec (spec : τ → ι → τ × List o) : τ → List ι → τ × List o
  | a, [] => (a, [])
  | a, i :: is => ((runSpec spec (spec a i).1 is).1, (spec a i).2 ++ (runSpec spec (spec a i).1 is).2)

@[simp] theorem runSpec_nil (spec : τ → ι → τ × List o) (a : τ) : runSpec spec a [] = (a, []) := rfl

/-- Every step of a run that cannot fail meets the condition. -/
def AlongSpec (spec : τ → ι → τ × List o) (P : τ → ι → Prop) : τ → List ι → Prop
  | _, [] => True
  | a, i :: is => P a i ∧ AlongSpec spec P (spec a i).1 is

theorem runSpec_invariant_from {spec : τ → ι → τ × List o} {P : τ → ι → Prop} (I : τ → List o → Prop)
    (hstep : ∀ a acc i, I a acc → P a i → I (spec a i).1 (acc ++ (spec a i).2)) {a : τ} {is : List ι}
    {acc : List o} (h0 : I a acc) (hP : AlongSpec spec P a is) :
    I (runSpec spec a is).1 (acc ++ (runSpec spec a is).2) := by
  induction is generalizing a acc with
  | nil =>
    rw [runSpec_nil, List.append_nil]
    exact h0
  | cons i is ih =>
    rw [runSpec, ← List.append_assoc]
    exact ih (hstep a acc i h0 hP.1) hP.2

theorem alongSpec_true (spec : τ → ι → τ × List o) (a : τ) (is : List ι) :
    AlongSpec spec (fun _ _ => True) a is := by
  induction is generalizing a with
  | nil => trivial
  | cons i is ih => exact ⟨trivial, ih _⟩

/-- What the steps that meet the condition preserve, together with what they emit. -/
theorem runSpec_invariant_along {spec : τ → ι → τ × List o} {P : τ → ι → Prop} (I : τ → List o → Prop)
    (hstep : ∀ a acc i, I a acc → P a i → I (spec a i).1 (acc ++ (spec a i).2)) {a : τ} {is : List ι}
    (h0 : I a []) (hP : AlongSpec spec P a is) : I (runSpec spec a is).1 (runSpec spec a is).2 :=
  runSpec_invariant_from I hstep h0 hP

theorem runSpec_invariant {spec : τ → ι → τ × List o} (I : τ → List o → Prop)
    (hstep : ∀ a acc i, I a acc → I (spec a i).1 (acc ++ (spec a i).2)) {a : τ} (h0 : I a [])
    (is : List ι) : I (runSpec spec a is).1 (runSpec spec a is).2 :=
  runSpec_invariant_along I (fun a acc i h _ => hstep a acc i h) h0 (alongSpec_true spec a is)

/-- Where some step of a kind always leads nearer to a goal, such steps reach it. -/
theorem exists_run_to {spec : τ → ι → τ × List o} {measure : τ → ℕ} {P : ι → Prop} (I goal : τ → Prop)
    (hstep : ∀ a, I a → ¬ goal a → ∃ i, P i ∧ I (spec a i).1 ∧ measure (spec a i).1 < measure a) {a : τ}
    (h : I a) : ∃ is, (∀ i ∈ is, P i) ∧ goal (runSpec spec a is).1 := by
  induction hn : measure a using Nat.strongRecOn generalizing a with
  | _ n ih =>
    by_cases hgoal : goal a
    · exact ⟨[], fun i hi => (by cases hi), hgoal⟩
    · obtain ⟨i,hP,hI,hi⟩ := hstep a h hgoal
      obtain ⟨is,hPs,his⟩ := ih _ (hn ▸ hi) hI rfl
      exact ⟨i :: is, List.forall_mem_cons.mpr ⟨hP, hPs⟩, his⟩

theorem runSpec_append (spec : τ → ι → τ × List o) (a : τ) (is js : List ι) :
    runSpec spec a (is ++ js) = ((runSpec spec (runSpec spec a is).1 js).1,
      (runSpec spec a is).2 ++ (runSpec spec (runSpec spec a is).1 js).2) := by
  induction is generalizing a with
  | nil => rfl
  | cons i is ih =>
    rw [List.cons_append, runSpec, ih, runSpec]
    dsimp only
    rw [List.append_assoc]

/-- Where exactly the steps that meet the condition keep `Q`, and no step brings it back, the runs that end
in `Q` are those whose steps all meet the condition. -/
theorem runSpec_iff_along {spec : τ → ι → τ × List o} {R : τ → ι → Prop} (I Q : τ → Prop)
    (hI : ∀ a i, I a → I (spec a i).1) (hstep : ∀ a i, I a → (Q (spec a i).1 ↔ Q a ∧ R a i))
    {a : τ} {is : List ι} (h0 : I a) : Q (runSpec spec a is).1 ↔ Q a ∧ AlongSpec spec R a is := by
  induction is generalizing a with
  | nil => exact (and_iff_left trivial).symm
  | cons i is ih =>
    calc Q (runSpec spec a (i :: is)).1
        ↔ Q (spec a i).1 ∧ AlongSpec spec R (spec a i).1 is := ih (hI a i h0)
      _ ↔ (Q a ∧ R a i) ∧ AlongSpec spec R (spec a i).1 is := by rw [hstep a i h0]
      _ ↔ Q a ∧ AlongSpec spec R a (i :: is) := and_assoc

/-- Where every step that meets the condition does what the abstract machine does, so does a run. -/
theorem run_refines {P : σ → ι → Prop} {spec : τ → ι → τ × List o} (abs : σ → τ)
    (hstep : ∀ s i, P s i →
      ∃ s' out, step s i = .ok (s', out) ∧ spec (abs s) i = (abs s', out))
    {s : σ} {is : List ι} (h : Along step P s is) :
    ∃ s' out, run step s is = .ok (s', out) ∧ runSpec spec (abs s) is = (abs s', out) := by
  induction is generalizing s with
  | nil => exact ⟨s, [], rfl, rfl⟩
  | cons i is ih =>
    obtain ⟨s1,o1,h1,habs1⟩ := hstep s i h.1
    obtain ⟨s2,o2,h2,habs2⟩ := ih (h.2 s1 o1 h1)
    refine ⟨s2, o1 ++ o2, run_cons_of_ok h1 h2, ?_⟩
    rw [runSpec, habs1, habs2]

end Refinement

end Runs
