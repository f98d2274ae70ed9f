import Mathlib.Data.List.Perm.Basic

/-! A ledger of resources that are acquired and released. A sequence of events is settled when
nothing is released that is not held at that moment and nothing is held at the end. -/
namespace Ledger

variable {α : Type*} [DecidableEq α]

inductive Event (α : Type*)
  | acquire (a : α)
  | release (a : α)

/-- What is held after the events, unless one of them releases something that is not held. -/
def settle : List α → List (Event α) → Option (List α)
  | held, [] => some held
  | held, .acquire a :: es => settle (a :: held) es
  | held, .release a :: es => if a ∈ held then settle (held.erase a) es else none

theorem settle_append {held mid : List α} {es fs : List (Event α)}
    (h : settle held es = some mid) : settle held (es ++ fs) = settle mid fs := by
  induction es generalizing held with
  | nil =>
    obtain rfl := Option.some.inj h
    rfl
  | cons e es ih =>
    cases e with
    | acquire a => exact ih h
    | release a =>
      rw [settle] at h
      split at h
      case isTrue hm =>
        rw [List.cons_append, settle, if_pos hm]
        exact ih h
      case isFalse => contradiction

/-- Something acquired and released at once leaves no trace. -/
theorem settle_acquire_release (held : List α) (a : α) (es : List (Event α)) :
    settle held (.acquire a :: .release a :: es) = settle held es := by
  rw [settle, settle, if_pos List.mem_cons_self, List.erase_cons_head]

/-- Whatever is released was held or has been acquired. -/
theorem mem_of_release {held out : List α} {a : α} {es : List (Event α)}
    (h : settle held es = some out) (ha : Event.release a ∈ es) :
    a ∈ held ∨ Event.acquire a ∈ es := by
  induction es generalizing held with
  | nil => contradiction
  | cons e es ih =>
    cases e with
    | acquire b =>
      have hm := (List.mem_cons.mp ha).resolve_left (fun he => by cases he)
      rcases ih h hm with hb | hb
      · rcases List.mem_cons.mp hb with rfl | hb
        · exact Or.inr List.mem_cons_self
        · exact Or.inl hb
      · exact Or.inr (List.mem_cons_of_mem _ hb)
    | release b =>
      rw [settle] at h
      split at h
      case isTrue hb =>
        rcases List.mem_cons.mp ha with he | hm
        · obtain rfl := Event.release.inj he
          exact Or.inl hb
        · rcases ih h hm with hc | hc
          · exact Or.inl (List.mem_of_mem_erase hc)
          · exact Or.inr (List.mem_cons_of_mem _ hc)
      case isFalse => contradiction

/-- Releases alone settle the ledger exactly when they are what is held. -/
theorem settle_releases (held out : List α) :
    settle held (out.map Event.release) = some [] ↔ held.Perm out := by
  induction out generalizing held with
  | nil =>
    rw [List.map_nil, settle, Option.some.injEq, List.perm_nil]
  | cons a out ih =>
    rw [List.map_cons, settle, List.perm_comm, List.cons_perm_iff_perm_erase]
    by_cases hm : a ∈ held
    · rw [if_pos hm, ih, List.perm_comm]
      exact (and_iff_right hm).symm
    · rw [if_neg hm]
      constructor
      · intro h
        contradiction
      · intro h
        exact absurd h.1 hm

end Ledger
