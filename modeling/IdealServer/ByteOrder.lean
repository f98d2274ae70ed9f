import Mathlib.Algebra.Group.Nat.Defs
import Mathlib.Data.List.Basic
import Mathlib.Data.Nat.Notation

/-! Fixed-width integers as byte strings. Memory order is little-endian and wire order is its
reverse; swapping a value before it is stored makes its memory image the wire image. -/
namespace ByteOrder

/-- The `w` low bytes of `x`, least significant first. -/
def toLE : ℕ → ℕ → List UInt8
  | 0, _ => []
  | w+1, x => UInt8.ofNat x :: toLE w (x/256)

def ofLE : List UInt8 → ℕ
  | [] => 0
  | b :: bs => b.toNat+256*ofLE bs

def toBE (w x : ℕ) : List UInt8 := (toLE w x).reverse

def ofBE (bs : List UInt8) : ℕ := ofLE bs.reverse

/-- The value whose memory image is the wire image of `x`. -/
def swap (w x : ℕ) : ℕ := ofLE (toBE w x)

@[simp] theorem length_toLE (w x : ℕ) : (toLE w x).length = w := by
  induction w generalizing x with
  | zero => rfl
  | succ w ih => simp only [toLE, List.length_cons, ih]

@[simp] theorem length_toBE (w x : ℕ) : (toBE w x).length = w := by
  simp only [toBE, List.length_reverse, length_toLE]

theorem ofLE_lt (bs : List UInt8) : ofLE bs < 256^bs.length := by
  induction bs with
  | nil => simp [ofLE]
  | cons b bs ih =>
    have hb : b.toNat < 256 := b.toNat_lt
    have hp : 256^(b :: bs).length = 256*256^bs.length := by
      rw [List.length_cons, Nat.pow_succ, Nat.mul_comm]
    rw [hp, ofLE]
    omega

theorem ofLE_toLE (w x : ℕ) : ofLE (toLE w x) = x%256^w := by
  induction w generalizing x with
  | zero => simp [toLE, ofLE, Nat.mod_one]
  | succ w ih =>
    have hb : (UInt8.ofNat x).toNat = x%256 := by simp
    rw [toLE, ofLE, ih, hb, Nat.pow_succ, Nat.mul_comm (256^w) 256, Nat.mod_mul]

/-- What lies behind the low bytes of an image does not matter to them. -/
theorem toLE_ofLE_append (bs rest : List UInt8) : toLE bs.length (ofLE (bs ++ rest)) = bs := by
  induction bs with
  | nil => rfl
  | cons b bs ih =>
    have hb : b.toNat < 256 := b.toNat_lt
    have hd : (b.toNat+256*ofLE (bs ++ rest))/256 = ofLE (bs ++ rest) := by omega
    have hm : UInt8.ofNat (b.toNat+256*ofLE (bs ++ rest)) = b := by
      apply UInt8.toNat_inj.mp
      simp only [UInt8.toNat_ofNat']
      omega
    simp only [List.length_cons, List.cons_append, ofLE, toLE, hd, hm, ih]

theorem toLE_ofLE (bs : List UInt8) : toLE bs.length (ofLE bs) = bs := by
  have h := toLE_ofLE_append bs []
  rwa [List.append_nil] at h

theorem toLE_zero (w : ℕ) : toLE w 0 = List.replicate w 0 := by
  induction w with
  | zero => rfl
  | succ w ih =>
    rw [toLE, Nat.zero_div, ih]
    rfl

/-- A wider image goes on with the upper bytes. -/
theorem toLE_add (w k x : ℕ) : toLE (w+k) x = toLE w x ++ toLE k (x/256^w) := by
  induction w generalizing x with
  | zero => rw [Nat.zero_add, Nat.pow_zero, Nat.div_one, toLE, List.nil_append]
  | succ w ih =>
    have hdiv : x/256/256^w = x/256^(w+1) := by
      rw [Nat.div_div_eq_div_mul, Nat.pow_succ, Nat.mul_comm 256]
    rw [show w+1+k = (w+k)+1 by omega, toLE, toLE, ih, hdiv, List.cons_append]

/-- A swapped value lies in memory in wire order. -/
theorem toLE_swap (w x : ℕ) : toLE w (swap w x) = toBE w x := by
  have h := toLE_ofLE (toBE w x)
  rwa [length_toBE] at h

theorem ofBE_toBE (w x : ℕ) : ofBE (toBE w x) = x%256^w := by
  rw [ofBE, toBE, List.reverse_reverse, ofLE_toLE]

theorem swap_lt (w x : ℕ) : swap w x < 256^w := by
  have h := ofLE_lt (toBE w x)
  rwa [length_toBE] at h

theorem swap_swap (w x : ℕ) : swap w (swap w x) = x%256^w := by
  have h : toBE w (swap w x) = toLE w x := by
    rw [toBE, toLE_swap, toBE, List.reverse_reverse]
  rw [swap, h, ofLE_toLE]

/-- The value is read back from the front of memory that begins with its wire image. -/
theorem swap_ofLE_append (w x : ℕ) (rest : List UInt8) :
    swap w (ofLE (toBE w x ++ rest)) = x%256^w := by
  have h := toLE_ofLE_append (toBE w x) rest
  rw [length_toBE] at h
  rw [swap, toBE, h, toBE, List.reverse_reverse, ofLE_toLE]

end ByteOrder
