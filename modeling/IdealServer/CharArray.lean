import IdealServer.Basics

/-! What is written into an array of bytes. -/
namespace IdealServer
namespace CharArray

/-- `*p = c` -/
def store (data : Bytes) (p : ℕ) (c : UInt8) : Except Fault Bytes :=
  if p < data.length then .ok (data.set p c) else .error .outOfBounds

/-- `memcpy` to `p`. -/
def copyTo (data : Bytes) (p : ℕ) (text : Bytes) : Except Fault Bytes :=
  if p+text.length ≤ data.length then .ok (data.take p ++ text ++ data.drop (p+text.length))
  else .error .outOfBounds

/-- `std::reverse` from `first` to `last`. -/
def reverse (data : Bytes) (first last : ℕ) : Bytes :=
  data.take first ++ ((data.drop first).take (last-first)).reverse ++ data.drop (first+(last-first))

/-- The array with a text in it. -/
def overwrite (data : Bytes) (p : ℕ) (text : Bytes) : Bytes :=
  data.take p ++ text ++ data.drop (p+text.length)

variable {data : Bytes} {p : ℕ} (s t : Bytes)

theorem length_overwrite {t : Bytes} (h : p+t.length ≤ data.length) : (overwrite data p t).length = data.length := by
  simp only [overwrite, List.length_append, List.length_take, List.length_drop]
  omega

theorem copyTo_eq {t : Bytes} (h : p+t.length ≤ data.length) : copyTo data p t = .ok (overwrite data p t) := if_pos h

theorem store_eq (h : p < data.length) (c : UInt8) : store data p c = .ok (overwrite data p [c]) := by
  rw [store, if_pos h, List.set_eq_take_append_cons_drop, if_pos h, overwrite, List.append_assoc]
  rfl

/-- What is in front of the end of the first part of a text that was written. -/
theorem take_overwrite (h : p ≤ data.length) :
    (overwrite data p (s ++ t)).take (p+s.length) = data.take p ++ s := by
  have hlen : (data.take p ++ s).length = p+s.length := by
    rw [List.length_append, List.length_take_of_le h]
  rw [overwrite, ← List.append_assoc (data.take p), List.append_assoc (data.take p ++ s)]
  exact List.take_left' hlen

theorem drop_overwrite (h : p ≤ data.length) :
    (overwrite data p t).drop (p+t.length) = data.drop (p+t.length) := by
  have hlen : (data.take p ++ t).length = p+t.length := by
    rw [List.length_append, List.length_take_of_le h]
  exact List.drop_left' hlen

/-- A text is written behind another one. -/
theorem overwrite_overwrite (h : p ≤ data.length) :
    overwrite (overwrite data p s) (p+s.length) t = overwrite data p (s ++ t) := by
  have htake := take_overwrite s [] h
  rw [List.append_nil] at htake
  rw [overwrite, htake, ← List.drop_drop, drop_overwrite _ h, List.drop_drop,
    overwrite, List.length_append, List.append_assoc (data.take p), Nat.add_assoc]

/-- The first part of a text is reversed in place. -/
theorem reverse_overwrite (h : p ≤ data.length) :
    reverse (overwrite data p (s ++ t)) p (p+s.length) = overwrite data p (s.reverse ++ t) := by
  have hlen : (data.take p).length = p := List.length_take_of_le h
  have hdrop : (overwrite data p (s ++ t)).drop p = s ++ (t ++ data.drop (p+(s ++ t).length)) := by
    rw [overwrite, List.append_assoc, List.drop_left' hlen, List.append_assoc]
  have htake : (overwrite data p (s ++ t)).take p = data.take p := by
    rw [overwrite, List.append_assoc, List.take_left' hlen]
  rw [reverse, Nat.add_sub_cancel_left, ← List.drop_drop, hdrop, htake, List.take_left, List.drop_left,
    overwrite]
  simp only [List.length_append, List.length_reverse, List.append_assoc]

end CharArray
end IdealServer
