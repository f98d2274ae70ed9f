import Mathlib.Algebra.Group.Int.Defs
import Mathlib.Algebra.Group.Nat.Defs
import Mathlib.Data.List.Basic
import Mathlib.Data.Nat.Notation

/-! Bytes, text and the ways a run of the program can go wrong. A definition that can leave
defined behaviour returns in `Except Fault`. -/
namespace IdealServer

abbrev Bytes := List UInt8

/-- A string literal of the source. -/
def ascii (s : String) : Bytes := s.toList.map (fun c => c.toNat.toUInt8)

def CR : UInt8 := 13
def LF : UInt8 := 10

/-- `Buffer::kCRLF` -/
def kCRLF : Bytes := [CR,LF]

inductive Fault
  /-- A conversion of `sscanf` stores more bytes than its array holds. -/
  | arrayOverflow
  /-- A copy reads or writes outside an allocation. -/
  | outOfBounds
  | nullPointer
  /-- An object is used that has been destroyed. -/
  | danglingPointer
  | assertFailed
deriving DecidableEq, Repr

/-- What a callback does with its connection. -/
inductive ConnAction
  | send (data : Bytes)
  | shutdown
deriving DecidableEq, Repr

/-- `memcpy` from `buf+pos`, `n` bytes. -/
def readBytes (buf : Bytes) (pos n : ℕ) : Except Fault Bytes :=
  if pos+n ≤ buf.length then .ok ((buf.drop pos).take n) else .error .outOfBounds

theorem readBytes_eq (buf : Bytes) (pos n : ℕ) (h : pos+n ≤ buf.length) :
    readBytes buf pos n = .ok ((buf.drop pos).take n) := if_pos h

theorem readBytes_error {buf : Bytes} {pos n : ℕ} {e : Fault} (h : readBytes buf pos n = .error e) :
    e = .outOfBounds := by
  unfold readBytes at h
  split at h
  · cases h
  · exact (Except.error.inj h).symm

end IdealServer
