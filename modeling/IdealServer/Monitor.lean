import Mathlib.Data.List.Count
import Mathlib.Data.List.Nodup
import Mathlib.Logic.Function.Basic

/-! Monitors. Threads share data behind a mutex and sleep on condition variables until a predicate holds.
What a thread does while it holds the mutex is one step, which ends with the mutex given back or with the
thread asleep. -/

structure Monitor (τ κ σ : Type*) where
  data : σ
  /-- The condition variable on which the thread sleeps, while it has not been notified. -/
  asleep : τ → Option κ

namespace Monitor

variable {τ κ σ : Type*}

def new (x : σ) : Monitor τ κ σ := ⟨x, fun _ => none⟩

/-- The data change, and everybody who sleeps on the condition variable is notified. -/
def notifyAll [DecidableEq κ] (m : Monitor τ κ σ) (x : σ) (c : κ) : Monitor τ κ σ :=
  ⟨x, fun t => if m.asleep t = some c then none else m.asleep t⟩

/-- The predicate does not hold, and the thread falls asleep. -/
def sleep [DecidableEq τ] (m : Monitor τ κ σ) (t : τ) (c : κ) : Monitor τ κ σ :=
  { m with asleep := Function.update m.asleep t (some c) }

/-- A thread wakes up for no reason. -/
def wake [DecidableEq τ] (m : Monitor τ κ σ) (t : τ) : Monitor τ κ σ :=
  { m with asleep := Function.update m.asleep t none }

/-- Whoever sleeps has nothing to do yet. -/
def Watched (holds : κ → σ → Prop) (m : Monitor τ κ σ) : Prop :=
  ∀ t c, m.asleep t = some c → ¬holds c m.data

variable {holds : κ → σ → Prop} {m : Monitor τ κ σ} {t u : τ} {c d : κ} {x : σ}

theorem watched_new (x : σ) : (new x : Monitor τ κ σ).Watched holds := fun _ _ h => by cases h

theorem Watched.sleep [DecidableEq τ] (h : m.Watched holds) (hc : ¬holds c m.data) : (m.sleep t c).Watched holds := by
  intro u d hu
  unfold Monitor.sleep at hu ⊢
  dsimp only at hu ⊢
  by_cases hut : u = t
  · rw [hut, Function.update_self] at hu
    rw [← Option.some.inj hu]
    exact hc
  · rw [Function.update_of_ne hut] at hu
    exact h u d hu

theorem Watched.wake [DecidableEq τ] (h : m.Watched holds) : (m.wake t).Watched holds := by
  intro u d hu
  unfold Monitor.wake at hu ⊢
  dsimp only at hu ⊢
  by_cases hut : u = t
  · rw [hut, Function.update_self] at hu
    cases hu
  · rw [Function.update_of_ne hut] at hu
    exact h u d hu

/-- A change of the data has to notify the sleepers of every predicate that it makes true. -/
theorem Watched.notifyAll [DecidableEq κ] (h : m.Watched holds) (hx : ∀ d, d ≠ c → holds d x → holds d m.data) :
    (m.notifyAll x c).Watched holds := by
  intro u d hu
  unfold Monitor.notifyAll at hu ⊢
  dsimp only at hu ⊢
  split at hu
  case isTrue => cases hu
  case isFalse hne =>
    have hdc : d ≠ c := by
      intro hdc
      rw [hdc] at hu
      exact hne hu
    exact fun hd => h u d hu (hx d hdc hd)

theorem Watched.set (h : m.Watched holds) (hx : ∀ d, holds d x → holds d m.data) :
    ({ m with data := x } : Monitor τ κ σ).Watched holds :=
  fun u d hu hd => h u d hu (hx d hd)

section Counting
variable {ι α : Type*} [DecidableEq ι]

/-- How many threads are in a phase of a certain kind, after one of them has changed its phase. -/
theorem countP_update {f : ι → α} {p : α → Bool} {i : ι} {a : α} {is : List ι} (hmem : i ∈ is)
    (hnodup : is.Nodup) : is.countP (fun j => p (Function.update f i a j))+(p (f i)).toNat =
      is.countP (fun j => p (f j))+(p a).toNat := by
  induction is with
  | nil => cases hmem
  | cons j is ih =>
    obtain ⟨hj,hrest⟩ := List.nodup_cons.mp hnodup
    rw [List.countP_cons, List.countP_cons]
    rcases List.mem_cons.mp hmem with rfl | hmem
    · -- the others keep theirs
      have hsame : is.countP (fun j => p (Function.update f i a j)) = is.countP (fun j => p (f j)) := by
        apply List.countP_congr
        intro k hk
        have hki : k ≠ i := fun hki => hj (hki ▸ hk)
        rw [Function.update_of_ne hki]
      rw [hsame, Function.update_self]
      cases p (f i) <;> cases p a <;> simp
    · have hji : j ≠ i := fun hji => hj (hji ▸ hmem)
      rw [Function.update_of_ne hji]
      have := ih hmem hrest
      omega

end Counting

end Monitor
