import Mathlib.Data.Nat.ModEq

/-! `RingBuffer`: a vector of slots with two positions that wrap around, and a counter beside them. The
queue that it stands for lies between the positions. -/
namespace IdealServer

inductive RingFault
  | assertion
  /-- A position outside `_buffer`. -/
  | outOfRange
deriving DecidableEq, Repr

structure RingBuffer (T : Type*) where
  buffer : List T
  numDatas : ℤ
  capacity : ℕ
  putPos : ℕ
  getPos : ℕ

namespace RingBuffer

variable {T : Type*}

def new (T : Type*) [Inhabited T] (capacity : ℕ) : RingBuffer T :=
  ⟨List.replicate capacity default, 0, capacity, 0, 0⟩

def add (r : RingBuffer T) (pos : ℕ) : ℕ := if pos+1 = r.capacity then 0 else pos+1

def pushBack (r : RingBuffer T) (data : T) : Except RingFault (RingBuffer T) :=
  if r.numDatas < r.capacity then
    if r.putPos < r.buffer.length then
      .ok { r with
        buffer := r.buffer.set r.putPos data
        putPos := r.add r.putPos
        numDatas := r.numDatas+1 }
    else .error .outOfRange
  else .error .assertion

def popFront (r : RingBuffer T) : RingBuffer T :=
  { r with getPos := r.add r.getPos, numDatas := r.numDatas-1 }

def front (r : RingBuffer T) : Except RingFault T :=
  if 0 < r.numDatas then
    match r.buffer[r.getPos]? with
    | some data => .ok data
    | none => .error .outOfRange
  else .error .assertion

def full (r : RingBuffer T) : Bool := r.numDatas = r.capacity
def empty (r : RingBuffer T) : Bool := r.numDatas = 0

/-- The slots from `_getPos` on, around the end of the vector, hold the queue. -/
structure Represents (r : RingBuffer T) (queue : List T) : Prop where
  allocated : r.buffer.length = r.capacity
  get : r.getPos < r.capacity
  put : r.putPos = (r.getPos+queue.length)%r.capacity
  count : r.numDatas = queue.length
  bound : queue.length ≤ r.capacity
  slots : ∀ i x, queue[i]? = some x → r.buffer[(r.getPos+i)%r.capacity]? = some x

variable {r : RingBuffer T} {queue : List T} {x : T}

theorem represents_new [Inhabited T] {capacity : ℕ} (h : 0 < capacity) :
    (new T capacity).Represents [] :=
  ⟨List.length_replicate, h, (Nat.zero_mod capacity).symm, rfl, Nat.zero_le _, fun _ _ hx => (by cases hx)⟩

theorem add_eq {pos : ℕ} (h : pos < r.capacity) : r.add pos = (pos+1)%r.capacity := by
  unfold add
  split
  case isTrue hwraps => rw [hwraps, Nat.mod_self]
  case isFalse hne => rw [Nat.mod_eq_of_lt (by omega)]

/-- Different offsets lead to different slots. -/
theorem slot_ne {c start i j : ℕ} (hij : i < j) (hj : j < c) : (start+i)%c ≠ (start+j)%c := by
  intro heq
  have hmod : i ≡ j [MOD c] := Nat.ModEq.add_left_cancel' start heq
  have := hmod.eq_of_lt_of_lt (hij.trans hj) hj
  omega

theorem Represents.put_lt (h : r.Represents queue) : r.putPos < r.capacity := by
  rw [h.put]
  exact Nat.mod_lt _ (Nat.zero_lt_of_lt h.get)

theorem Represents.full_iff (h : r.Represents queue) : r.full = true ↔ queue.length = r.capacity := by
  unfold full
  rw [decide_eq_true_iff, h.count]
  exact Int.ofNat_inj

theorem Represents.empty_iff (h : r.Represents queue) : r.empty = true ↔ queue = [] := by
  unfold empty
  rw [decide_eq_true_iff, h.count, ← List.length_eq_zero_iff]
  exact Int.ofNat_eq_zero

theorem Represents.pushBack (h : r.Represents queue) (hroom : queue.length < r.capacity) (x : T) :
    ∃ r', r.pushBack x = .ok r' ∧ r'.capacity = r.capacity ∧ r'.Represents (queue ++ [x]) := by
  have hput := h.put_lt
  have hcount : r.numDatas < r.capacity := by
    rw [h.count]
    exact Int.ofNat_lt.mpr hroom
  have halloc : r.putPos < r.buffer.length := by
    rw [h.allocated]
    exact hput
  have hok : r.pushBack x = .ok { r with
      buffer := r.buffer.set r.putPos x
      putPos := r.add r.putPos
      numDatas := r.numDatas+1 } := by rw [RingBuffer.pushBack, if_pos hcount, if_pos halloc]
  refine ⟨_, hok, rfl, ?_, h.get, ?_, ?_, ?_, ?_⟩
  · show (r.buffer.set r.putPos x).length = r.capacity
    rw [List.length_set, h.allocated]
  · show r.add r.putPos = (r.getPos+(queue ++ [x]).length)%r.capacity
    calc r.add r.putPos
        = (r.putPos+1)%r.capacity := add_eq hput
      _ = ((r.getPos+queue.length)%r.capacity+1)%r.capacity := by rw [h.put]
      _ = (r.getPos+queue.length+1)%r.capacity := Nat.mod_add_mod _ _ _
      _ = (r.getPos+(queue ++ [x]).length)%r.capacity := by
        rw [List.length_append, List.length_singleton, Nat.add_assoc]
  · show r.numDatas+1 = ((queue ++ [x]).length : ℤ)
    rw [h.count, List.length_append, List.length_singleton]
    omega
  · rw [List.length_append, List.length_singleton]
    exact hroom
  · intro i y hi
    show (r.buffer.set r.putPos x)[(r.getPos+i)%r.capacity]? = some y
    rcases Nat.lt_trichotomy i queue.length with hlt | rfl | hgt
    · -- what is queued lies in other slots
      rw [List.getElem?_append_left hlt] at hi
      have hne : r.putPos ≠ (r.getPos+i)%r.capacity := by
        rw [h.put]
        exact (slot_ne hlt hroom).symm
      rw [List.getElem?_set_ne hne]
      exact h.slots i y hi
    · rw [List.getElem?_concat_length] at hi
      rw [← h.put, List.getElem?_set_self halloc, hi]
    · rw [List.getElem?_eq_none (by rw [List.length_append, List.length_singleton]; omega)] at hi
      cases hi

theorem Represents.front (h : r.Represents (x :: queue)) : r.front = .ok x := by
  have hcount : 0 < r.numDatas := by
    rw [h.count, List.length_cons]
    omega
  have hslot : r.buffer[r.getPos]? = some x := by
    have := h.slots 0 x rfl
    rwa [Nat.add_zero, Nat.mod_eq_of_lt h.get] at this
  rw [RingBuffer.front, if_pos hcount, hslot]

theorem Represents.popFront (h : r.Represents (x :: queue)) : r.popFront.Represents queue := by
  have hget : r.add r.getPos = (r.getPos+1)%r.capacity := add_eq h.get
  have hnext (i : ℕ) : (r.add r.getPos+i)%r.capacity = (r.getPos+(i+1))%r.capacity := by
    rw [hget, Nat.mod_add_mod, Nat.add_assoc, Nat.add_comm 1 i]
  have hlength := h.bound
  rw [List.length_cons] at hlength
  refine ⟨h.allocated, ?_, ?_, ?_, Nat.le_of_succ_le hlength, ?_⟩
  · show r.add r.getPos < r.capacity
    rw [hget]
    exact Nat.mod_lt _ (Nat.zero_lt_of_lt h.get)
  · show r.putPos = (r.add r.getPos+queue.length)%r.capacity
    rw [hnext, h.put, List.length_cons]
  · show r.numDatas-1 = queue.length
    rw [h.count, List.length_cons]
    omega
  · intro i y hi
    show r.buffer[(r.add r.getPos+i)%r.capacity]? = some y
    rw [hnext]
    exact h.slots (i+1) y hi

end RingBuffer
end IdealServer
