import Mathlib.Data.List.Basic
import Mathlib.Data.Nat.Notation

/-! Streams of items that tell their own length: a reader that takes one item from the front of a
stream, and what it recovers from a whole stream. -/
namespace Framing

variable {α β : Type*}

/-- The items of a stream, with one unit of fuel for each. -/
def readAll (read : List α → Option (β × List α)) : ℕ → List α → Option (List β)
  | _, [] => some []
  | 0, _ :: _ => none
  | fuel+1, x :: xs =>
    match read (x :: xs) with
    | none => none
    | some (item, rest) => (readAll read fuel rest).map (item :: ·)

/-- No item is empty, so the length of the stream is fuel enough. -/
def decode (read : List α → Option (β × List α)) (xs : List α) : Option (List β) :=
  readAll read xs.length xs

/-- The reader takes an encoded item from the front of any stream. -/
def Reads (read : List α → Option (β × List α)) (encode : β → List α) (b : β) : Prop :=
  encode b ≠ [] ∧ ∀ rest, read (encode b ++ rest) = some (b, rest)

section
variable {read : List α → Option (β × List α)} {encode : β → List α}

theorem readAll_flatMap {items : List β} (h : ∀ b ∈ items, Reads read encode b) {fuel : ℕ}
    (hfuel : (items.flatMap encode).length ≤ fuel) :
    readAll read fuel (items.flatMap encode) = some items := by
  induction items generalizing fuel with
  | nil => cases fuel <;> rfl
  | cons b items ih =>
    obtain ⟨hne,hread⟩ := h b List.mem_cons_self
    obtain ⟨x,xs,hx⟩ := List.exists_cons_of_ne_nil hne
    rw [List.flatMap_cons, hx, List.cons_append] at hfuel ⊢
    rw [List.length_cons, List.length_append] at hfuel
    obtain ⟨fuel,rfl⟩ : ∃ k, fuel = k+1 := ⟨fuel-1, by omega⟩
    have hstep : read (x :: (xs ++ items.flatMap encode)) = some (b, items.flatMap encode) := by
      rw [← List.cons_append, ← hx]
      exact hread _
    have htail := @ih (fun b' hb' => h b' (List.mem_cons_of_mem _ hb')) fuel (by omega)
    rw [readAll, hstep]
    show (readAll read fuel (items.flatMap encode)).map (b :: ·) = _
    rw [htail, Option.map_some]

theorem decode_flatMap {items : List β} (h : ∀ b ∈ items, Reads read encode b) :
    decode read (items.flatMap encode) = some items := readAll_flatMap h (Nat.le_refl _)

end

end Framing
