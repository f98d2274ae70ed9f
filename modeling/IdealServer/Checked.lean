import Mathlib.Algebra.Group.Int.Defs
import Mathlib.Algebra.Group.Nat.Defs
import Mathlib.Data.Int.Basic
import Mathlib.Tactic.Common

/-! Expressions over the integer types of C++, with what their evaluation divides and converts. Signed
overflow is undefined and has no value. -/
namespace Checked

inductive Event
  | division (dividend : ℤ)
  | conversion (value result : ℤ)
deriving DecidableEq, Repr

/-- The conversion, if it is one, keeps the value. -/
def Event.Lossless : Event → Prop
  | .division _ => True
  | .conversion value result => value = result

def Event.NoNegative : Event → Prop
  | .division dividend => 0 ≤ dividend
  | .conversion _ _ => True

/-- What an expression comes to: a value, and the events on the way to it. -/
inductive Calc (α : Type)
  | undefined
  | value (a : α) (log : List Event)
deriving DecidableEq, Repr

namespace Calc
variable {α β : Type}

protected def bind (c : Calc α) (f : α → Calc β) : Calc β :=
  match c with
  | .undefined => .undefined
  | .value a log =>
    match f a with
    | .undefined => .undefined
    | .value b log' => .value b (log ++ log')

instance : Monad Calc where
  pure := fun a => .value a []
  bind := Calc.bind

/-- The value is `v`, and every event on the way is as `P` says. -/
def Yields (P : Event → Prop) (c : Calc α) (v : α) : Prop :=
  ∃ log, c = .value v log ∧ ∀ e ∈ log, P e

end Calc

/-- The result of an operation of type `int`. -/
def int (x : ℤ) : Calc ℤ := if -2^31 ≤ x ∧ x < 2^31 then .value x [] else .undefined

/-- The result of an operation of type `int64_t`. -/
def long (x : ℤ) : Calc ℤ := if -2^63 ≤ x ∧ x < 2^63 then .value x [] else .undefined

/-- Division by a positive constant, towards zero. -/
def div (x y : ℤ) : Calc ℤ := if 0 < y then .value (x.tdiv y) [.division x] else .undefined

def rem (x y : ℤ) : Calc ℤ := if 0 < y then .value (x.tmod y) [.division x] else .undefined

def toInt (x : ℤ) : Calc ℤ := .value (Int.bmod x (2^32)) [.conversion x (Int.bmod x (2^32))]

def toUnsigned (x : ℤ) : Calc ℤ := .value (x%2^32) [.conversion x (x%2^32)]

section Rules
variable {α β : Type} {P Q : Event → Prop}

theorem yields_pure (a : α) : Calc.Yields P (pure a) a := by
  refine ⟨[], rfl, ?_⟩
  intro e he
  exact absurd he List.not_mem_nil

theorem yields_bind {c : Calc α} {f : α → Calc β} {v : α} {w : β} (hc : c.Yields P v)
    (hf : (f v).Yields P w) : Calc.Yields P (c >>= f) w := by
  obtain ⟨log1,hc,h1⟩ := hc
  obtain ⟨log2,hf,h2⟩ := hf
  refine ⟨log1 ++ log2, ?_, ?_⟩
  · show Calc.bind c f = _
    rw [hc, Calc.bind, hf]
  · intro e he
    rcases List.mem_append.mp he with he | he
    · exact h1 e he
    · exact h2 e he

theorem Calc.Yields.unique {c : Calc α} {v w : α} (hv : c.Yields P v) (hw : c.Yields Q w) : v = w := by
  obtain ⟨_,hv,_⟩ := hv
  obtain ⟨_,hw,_⟩ := hw
  exact (Calc.value.inj (hv.symm.trans hw)).1

theorem yields_event {e : Event} (v : α) (h : P e) : Calc.Yields P (.value v [e]) v := by
  refine ⟨[e], rfl, ?_⟩
  intro e' he'
  rw [List.mem_singleton.mp he']
  exact h

theorem yields_int {x : ℤ} (h : -2^31 ≤ x ∧ x < 2^31) : (int x).Yields P x := by
  rw [int, if_pos h]
  exact yields_pure x

theorem yields_long {x : ℤ} (h : -2^63 ≤ x ∧ x < 2^63) : (long x).Yields P x := by
  rw [long, if_pos h]
  exact yields_pure x

theorem yields_div {x y : ℤ} (hy : 0 < y) (hP : P (.division x)) : (div x y).Yields P (x.tdiv y) := by
  rw [div, if_pos hy]
  exact yields_event _ hP

theorem yields_rem {x y : ℤ} (hy : 0 < y) (hP : P (.division x)) : (rem x y).Yields P (x.tmod y) := by
  rw [rem, if_pos hy]
  exact yields_event _ hP

/-- The quotient of a dividend that is not negative, by its bounds. -/
theorem tdiv_eq {x y q : ℤ} (hy : 0 < y) (hq : 0 ≤ q) (h : y*q ≤ x ∧ x < y*q+y) : x.tdiv y = q := by
  have hx : 0 ≤ x := Int.le_trans (Int.mul_nonneg (Int.le_of_lt hy) hq) h.1
  rw [Int.tdiv_eq_ediv_of_nonneg hx, Int.ediv_eq_iff_of_pos hy, Int.mul_comm q y]
  exact h

theorem yields_quotient {x y q : ℤ} (hP : P (.division x)) (hy : 0 < y) (hq : 0 ≤ q)
    (h : y*q ≤ x ∧ x < y*q+y) : (div x y).Yields P q := by
  have hquotient := yields_div hy hP
  rwa [tdiv_eq hy hq h] at hquotient

theorem yields_remainder {x y : ℤ} (hP : P (.division x)) (hy : 0 < y) (hx : 0 ≤ x) :
    (rem x y).Yields P (x%y) := by
  have hrem := yields_rem hy hP
  rwa [Int.tmod_eq_emod_of_nonneg hx] at hrem

theorem yields_int_eq {x v : ℤ} (hv : x = v) (h : -2^31 ≤ v ∧ v < 2^31) : (int x).Yields P v := by
  rw [hv]
  exact yields_int h

theorem yields_toInt {x : ℤ} (h : -2^31 ≤ x ∧ x < 2^31) (hP : P (.conversion x x)) :
    (toInt x).Yields P x := by
  have hsame : Int.bmod x (2^32) = x := by
    rw [Int.bmod_def]
    omega
  rw [toInt, hsame]
  exact yields_event x hP

theorem yields_toUnsigned {x : ℤ} (h : 0 ≤ x ∧ x < 2^32) (hP : P (.conversion x x)) :
    (toUnsigned x).Yields P x := by
  have hsame : x%2^32 = x := Int.emod_eq_of_lt h.1 h.2
  rw [toUnsigned, hsame]
  exact yields_event x hP

end Rules

end Checked
