import Mathlib.Data.List.Basic
import Mathlib.Tactic.Common

/-! Computations that read an array by index. Which indices they read is decided by what they have read
before. -/

inductive Reading (β α : Type)
  | done (a : α)
  | read (i : ℕ) (next : β → Reading β α)

namespace Reading
variable {β α γ : Type}

def bind : Reading β α → (α → Reading β γ) → Reading β γ
  | done a, f => f a
  | read i next, f => read i (fun b => (next b).bind f)

instance : Monad (Reading β) where
  pure := done
  bind := bind

/-- The result on an array. There is none where an index is outside. -/
def run (mem : List β) : Reading β α → Option α
  | done a => some a
  | read i next =>
    match mem[i]? with
    | some b => (next b).run mem
    | none => none

/-- The indices that are read, up to the first one outside the array. -/
def indices (mem : List β) : Reading β α → List ℕ
  | done _ => []
  | read i next =>
    match mem[i]? with
    | some b => i :: (next b).indices mem
    | none => [i]

def get (i : ℕ) : Reading β β := read i done

/-- `p && q` -/
def and (p q : Reading β Bool) : Reading β Bool := do if ← p then q else return false

/-- `p || q` -/
def or (p q : Reading β Bool) : Reading β Bool := do if ← p then return true else q

/-- The first `n` elements from `i` on. -/
def copy : ℕ → ℕ → Reading β (List β)
  | 0, _ => done []
  | n+1, i => do
    let b ← get i
    let bs ← copy n (i+1)
    return b :: bs

/-- A `for` loop over the `k` indices from `i` on, left with `break` where the body returns something. -/
def loop (body : ℕ → Reading β (Option γ)) : ℕ → ℕ → Reading β (ℕ × Option γ)
  | 0, i => done (i, none)
  | k+1, i => do
    match ← body i with
    | some c => return (i, some c)
    | none => loop body k (i+1)

section Rules
variable {mem : List β}

theorem run_bind (p : Reading β α) (f : α → Reading β γ) :
    (p >>= f).run mem = (p.run mem).bind (fun a => (f a).run mem) := by
  show (p.bind f).run mem = _
  induction p with
  | done a => rfl
  | read i next ih =>
    rw [bind, run, run]
    cases mem[i]? with
    | none => rfl
    | some b => exact ih b

theorem run_bind_eq_some {p : Reading β α} {f : α → Reading β γ} {c : γ} (h : (p >>= f).run mem = some c) :
    ∃ a, p.run mem = some a ∧ (f a).run mem = some c := by
  rw [run_bind] at h
  exact Option.bind_eq_some_iff.mp h

theorem indices_bind (p : Reading β α) (f : α → Reading β γ) : (p >>= f).indices mem =
    p.indices mem ++ (p.run mem).elim [] (fun a => (f a).indices mem) := by
  show (p.bind f).indices mem = _
  induction p with
  | done a => rfl
  | read i next ih =>
    rw [bind, indices, indices, run]
    cases mem[i]? with
    | none => rfl
    | some b => exact congrArg (List.cons i) (ih b)

theorem mem_indices_bind {p : Reading β α} {f : α → Reading β γ} {x : ℕ} :
    x ∈ (p >>= f).indices mem ↔ x ∈ p.indices mem ∨ ∃ a, p.run mem = some a ∧ x ∈ (f a).indices mem := by
  rw [indices_bind, List.mem_append]
  apply or_congr_right
  cases p.run mem with
  | none => simp
  | some a => simp

theorem run_get (i : ℕ) : (get i).run mem = mem[i]? := by
  rw [get, run]
  cases mem[i]? <;> rfl

theorem indices_get (i : ℕ) : (get i).indices mem = [i] := by
  rw [get, indices]
  cases mem[i]? <;> rfl

/-- A run that reads outside the array has no result. -/
theorem run_eq_none {p : Reading β α} {x : ℕ} (hx : x ∈ p.indices mem) (hout : mem.length ≤ x) :
    p.run mem = none := by
  induction p with
  | done a => cases hx
  | read i next ih =>
    rw [run]
    rw [indices] at hx
    cases hget : mem[i]? with
    | none => rfl
    | some b =>
      rw [hget] at hx
      rcases List.mem_cons.mp hx with rfl | hx
      · rw [List.getElem?_eq_none hout] at hget
        cases hget
      · exact ih b hx

theorem exists_of_run_eq_none {p : Reading β α} (h : p.run mem = none) :
    ∃ x ∈ p.indices mem, mem.length ≤ x := by
  induction p with
  | done a => cases h
  | read i next ih =>
    rw [run] at h
    rw [indices]
    cases hget : mem[i]? with
    | none => exact ⟨i, List.mem_singleton.mpr rfl, List.getElem?_eq_none_iff.mp hget⟩
    | some b =>
      rw [hget] at h
      obtain ⟨x,hx,hout⟩ := ih b h
      exact ⟨x, List.mem_cons_of_mem i hx, hout⟩

theorem run_copy {n i : ℕ} {bs : List β} (h : (copy n i).run mem = some bs) : bs = (mem.drop i).take n := by
  induction n generalizing i bs with
  | zero => exact (Option.some.inj h).symm
  | succ n ih =>
    obtain ⟨b,hb,h⟩ := run_bind_eq_some h
    obtain ⟨rest,hrest,h⟩ := run_bind_eq_some h
    rw [run_get, List.getElem?_eq_some_iff] at hb
    obtain ⟨hi,rfl⟩ := hb
    rw [← Option.some.inj h, ih hrest, List.drop_eq_getElem_cons hi, List.take_succ_cons]

theorem run_and_eq_true {p q : Reading β Bool} (h : (p.and q).run mem = some true) :
    p.run mem = some true ∧ q.run mem = some true := by
  obtain ⟨b,hb,h⟩ := run_bind_eq_some h
  cases b with
  | true => exact ⟨hb, h⟩
  | false => cases h

/-- No index from `n` on is read. -/
def Below (mem : List β) (n : ℕ) (p : Reading β α) : Prop := ∀ x ∈ p.indices mem, x < n

variable {n : ℕ}

theorem below_pure (a : α) : Below mem n (pure a) := fun _ hx => (List.not_mem_nil hx).elim

theorem below_get {i : ℕ} (h : i < n) : Below mem n (get i) := by
  intro x hx
  rw [indices_get] at hx
  rwa [List.mem_singleton.mp hx]

theorem below_bind {p : Reading β α} {f : α → Reading β γ} (hp : Below mem n p)
    (hf : ∀ a, p.run mem = some a → Below mem n (f a)) : Below mem n (p >>= f) := by
  intro x hx
  rcases mem_indices_bind.mp hx with hx | ⟨a,ha,hx⟩
  · exact hp x hx
  · exact hf a ha x hx

theorem below_and {p q : Reading β Bool} (hp : Below mem n p) (hq : Below mem n q) :
    Below mem n (p.and q) := by
  apply below_bind hp
  intro b _
  cases b with
  | true => exact hq
  | false => exact below_pure false

theorem below_or {p q : Reading β Bool} (hp : Below mem n p) (hq : Below mem n q) :
    Below mem n (p.or q) := by
  apply below_bind hp
  intro b _
  cases b with
  | true => exact below_pure true
  | false => exact hq

theorem below_copy {k i : ℕ} (h : i+k ≤ n) : Below mem n (copy k i) := by
  induction k generalizing i with
  | zero => exact below_pure []
  | succ k ih =>
    apply below_bind (below_get (by omega))
    intro b _
    apply below_bind (ih (by omega))
    intro bs _
    exact below_pure (b :: bs)

variable {body : ℕ → Reading β (Option γ)}

theorem run_loop {k i j : ℕ} {r : Option γ} (h : (loop body k i).run mem = some (j, r)) :
    (r = none ∧ j = i+k) ∨ ∃ c, r = some c ∧ i ≤ j ∧ j < i+k ∧ (body j).run mem = some (some c) := by
  induction k generalizing i with
  | zero =>
    obtain ⟨rfl,rfl⟩ := Prod.mk.inj (Option.some.inj h)
    exact Or.inl ⟨rfl, rfl⟩
  | succ k ih =>
    obtain ⟨found,hbody,h⟩ := run_bind_eq_some h
    cases found with
    | some c =>
      obtain ⟨rfl,rfl⟩ := Prod.mk.inj (Option.some.inj h)
      exact Or.inr ⟨c, rfl, Nat.le_refl i, by omega, hbody⟩
    | none =>
      rcases ih h with ⟨hr,hj⟩ | ⟨c,hr,hi,hj,hc⟩
      · exact Or.inl ⟨hr, by omega⟩
      · exact Or.inr ⟨c, hr, by omega, by omega, hc⟩

theorem below_loop {k i : ℕ} (hbody : ∀ j, i ≤ j → j < i+k → Below mem n (body j)) :
    Below mem n (loop body k i) := by
  induction k generalizing i with
  | zero => exact below_pure (i, none)
  | succ k ih =>
    apply below_bind (hbody i (Nat.le_refl i) (by omega))
    intro found _
    cases found with
    | some c => exact below_pure (i, some c)
    | none => exact ih (fun j hi hj => hbody j (by omega) (by omega))

/-- A loop whose passes read their own index goes beyond `n`, if no pass breaks off before that. -/
theorem exists_indices_loop {k i : ℕ} (hi : i ≤ n) (hk : n < i+k) (hn : n ≤ mem.length)
    (hself : ∀ j, j ∈ (body j).indices mem)
    (hbreak : ∀ j c, (body j).run mem = some (some c) → ∃ x ∈ (body j).indices mem, n ≤ x) :
    ∃ x ∈ (loop body k i).indices mem, n ≤ x := by
  induction k generalizing i with
  | zero => omega
  | succ k ih =>
    have hfirst {x : ℕ} (hx : x ∈ (body i).indices mem) : x ∈ (loop body (k+1) i).indices mem :=
      mem_indices_bind.mpr (Or.inl hx)
    rcases Nat.lt_or_eq_of_le hi with hlt | heq
    · cases hresult : (body i).run mem with
      | none =>
        obtain ⟨x,hx,hout⟩ := exists_of_run_eq_none hresult
        exact ⟨x, hfirst hx, by omega⟩
      | some found =>
        cases found with
        | some c =>
          obtain ⟨x,hx,hout⟩ := hbreak i c hresult
          exact ⟨x, hfirst hx, hout⟩
        | none =>
          obtain ⟨x,hx,hout⟩ := ih hlt (by omega)
          exact ⟨x, mem_indices_bind.mpr (Or.inr ⟨none, hresult, hx⟩), hout⟩
    · exact ⟨i, hfirst (hself i), Nat.le_of_eq heq.symm⟩

end Rules

end Reading
