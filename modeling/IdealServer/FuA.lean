import Mathlib.Data.List.Basic
import Mathlib.Data.Nat.Notation

/-! Fragmentation unit A of RFC 3984 over plain byte strings: a NAL unit is cut into fragments of
at most `n` bytes, each preceded by an indicator and a header, and put together again. -/
namespace FuA

structure Fragment where
  indicator : UInt8
  header : UInt8
  payload : List UInt8
deriving DecidableEq, Repr

/-- The three high bits of the NAL header with the type field set to 28. -/
def indicator (nal : UInt8) : UInt8 := (nal &&& 0xE0) ||| 28

/-- Start bit, end bit, and the type of the NAL unit. -/
def header (s e : Bool) (nal : UInt8) : UInt8 :=
  (if s then 0x80 else 0) ||| (if e then 0x40 else 0) ||| (nal &&& 0x1F)

namespace Fragment

def IsStart (f : Fragment) : Prop := f.header &&& 0x80 ≠ 0

def IsEnd (f : Fragment) : Prop := f.header &&& 0x40 ≠ 0

/-- The payload of the packet that carries the fragment. -/
def encode (f : Fragment) : List UInt8 := f.indicator :: f.header :: f.payload

/-- A packet payload is a fragment when its type field is 28. -/
def decode : List UInt8 → Option Fragment
  | i :: h :: p => if i &&& 0x1F = 28 then some ⟨i, h, p⟩ else none
  | _ => none

end Fragment

/-- Cut `body` into pieces of `n` bytes; the last one takes what is left. -/
def fragment (n : ℕ) (nal : UInt8) (start : Bool) (body : List UInt8) : List Fragment :=
  if _h : 0 < n ∧ n < body.length then
    ⟨indicator nal, header start false nal, body.take n⟩ :: fragment n nal false (body.drop n)
  else
    [⟨indicator nal, header start true nal, body⟩]
termination_by body.length
decreasing_by simp only [List.length_drop]; omega

/-- The NAL header comes from the first fragment, the rest is the concatenated payloads. -/
def reassemble : List Fragment → Option (List UInt8)
  | [] => none
  | f :: fs => some (((f.indicator &&& 0xE0) ||| (f.header &&& 0x1F)) ::
      (f :: fs).flatMap Fragment.payload)

/-- The receiver on the packet payloads of one NAL unit. -/
def receive : List (List UInt8) → Option (List UInt8)
  | [p] => some p
  | ps => (ps.mapM Fragment.decode).bind reassemble

theorem byte_forall (P : UInt8 → Prop) (h : ∀ n : Fin 256, P (UInt8.ofNat n.val)) (b : UInt8) :
    P b := by
  have hb := h ⟨b.toNat, b.toNat_lt⟩
  rwa [UInt8.ofNat_toNat] at hb

/-- What is said of one byte at a time. -/
theorem header_bits : ∀ n : Fin 256, indicator (UInt8.ofNat n) &&& 0x1F = 28 ∧ ∀ s e : Bool,
    (indicator (UInt8.ofNat n) &&& 0xE0) ||| (header s e (UInt8.ofNat n) &&& 0x1F) =
      UInt8.ofNat n ∧
    (header s e (UInt8.ofNat n) &&& 0x80 ≠ 0 ↔ s = true) ∧
    (header s e (UInt8.ofNat n) &&& 0x40 ≠ 0 ↔ e = true) := by decide +kernel

theorem indicator_type (nal : UInt8) : indicator nal &&& 0x1F = 28 := by
  revert nal
  apply byte_forall
  intro n
  exact (header_bits n).1

theorem indicator_header_nal (s e : Bool) (nal : UInt8) :
    (indicator nal &&& 0xE0) ||| (header s e nal &&& 0x1F) = nal := by
  revert nal
  apply byte_forall
  intro n
  exact ((header_bits n).2 s e).1

theorem header_start_bit (s e : Bool) (nal : UInt8) : header s e nal &&& 0x80 ≠ 0 ↔ s = true := by
  revert nal
  apply byte_forall
  intro n
  exact ((header_bits n).2 s e).2.1

theorem header_end_bit (s e : Bool) (nal : UInt8) : header s e nal &&& 0x40 ≠ 0 ↔ e = true := by
  revert nal
  apply byte_forall
  intro n
  exact ((header_bits n).2 s e).2.2

theorem fragment_step (n : ℕ) (nal : UInt8) (start : Bool) (body : List UInt8)
    (hn : 0 < n) (hb : n < body.length) :
    fragment n nal start body =
      ⟨indicator nal, header start false nal, body.take n⟩ ::
        fragment n nal false (body.drop n) := by
  rw [fragment, dif_pos ⟨hn, hb⟩]

theorem fragment_last (n : ℕ) (nal : UInt8) (start : Bool) (body : List UInt8)
    (hb : body.length ≤ n) :
    fragment n nal start body = [⟨indicator nal, header start true nal, body⟩] := by
  rw [fragment, dif_neg (by omega)]

theorem fragment_ne_nil (n : ℕ) (nal : UInt8) (start : Bool) (body : List UInt8) :
    fragment n nal start body ≠ [] := by
  rw [fragment]
  split <;> simp

/-- The pieces concatenate to the whole body. -/
theorem fragment_flatMap (n : ℕ) (nal : UInt8) (start : Bool) (body : List UInt8) :
    (fragment n nal start body).flatMap Fragment.payload = body := by
  induction start, body using fragment.induct n with
  | case1 start body h ih =>
    rw [fragment_step n nal start body h.1 h.2, List.flatMap_cons, ih, List.take_append_drop]
  | case2 start body h =>
    rw [fragment, dif_neg h]
    simp

theorem fragment_indicator (n : ℕ) (nal : UInt8) (start : Bool) (body : List UInt8) :
    ∀ f ∈ fragment n nal start body, f.indicator = indicator nal := by
  induction start, body using fragment.induct n with
  | case1 start body h ih =>
    rw [fragment_step n nal start body h.1 h.2]
    intro f hf
    rcases List.mem_cons.mp hf with rfl | hf
    · rfl
    · exact ih f hf
  | case2 start body h =>
    rw [fragment, dif_neg h]
    intro f hf
    rw [List.mem_singleton.mp hf]

/-- Every piece holds between one and `n` bytes. -/
theorem fragment_payload_length (n : ℕ) (nal : UInt8) (start : Bool) (body : List UInt8)
    (hn : 0 < n) (hb : body ≠ []) :
    ∀ f ∈ fragment n nal start body, f.payload ≠ [] ∧ f.payload.length ≤ n := by
  induction start, body using fragment.induct n with
  | case1 start body h ih =>
    have hd : body.drop n ≠ [] := by
      apply List.ne_nil_of_length_pos
      rw [List.length_drop]
      omega
    rw [fragment_step n nal start body h.1 h.2]
    intro f hf
    rcases List.mem_cons.mp hf with rfl | hf
    · refine ⟨?_, by simp only [List.length_take]; omega⟩
      apply List.ne_nil_of_length_pos
      simp only [List.length_take]
      omega
    · exact ih hd f hf
  | case2 start body h =>
    rw [fragment, dif_neg h]
    intro f hf
    rw [List.mem_singleton.mp hf]
    exact ⟨hb, by dsimp only; omega⟩

/-- The start bit marks the first fragment and the end bit the last one. -/
theorem fragment_flags (n : ℕ) (nal : UInt8) (start : Bool) (body : List UInt8) (i : ℕ)
    (f : Fragment) (hf : (fragment n nal start body)[i]? = some f) :
    (f.IsStart ↔ start = true ∧ i = 0) ∧
      (f.IsEnd ↔ i+1 = (fragment n nal start body).length) := by
  induction start, body using fragment.induct n generalizing i with
  | case1 start body h ih =>
    have hpos := List.length_pos_of_ne_nil (fragment_ne_nil n nal false (body.drop n))
    rw [fragment_step n nal start body h.1 h.2] at hf ⊢
    cases i with
    | zero =>
      rw [List.getElem?_cons_zero] at hf
      obtain rfl := Option.some_inj.mp hf
      refine ⟨by simp [Fragment.IsStart, header_start_bit], ?_⟩
      simp only [Fragment.IsEnd, header_end_bit, List.length_cons]
      constructor
      · intro hh
        contradiction
      · intro hh
        omega
    | succ i =>
      rw [List.getElem?_cons_succ] at hf
      obtain ⟨hs, he⟩ := ih i hf
      refine ⟨hs.trans (by simp), he.trans ?_⟩
      rw [List.length_cons]
      omega
  | case2 start body h =>
    rw [fragment, dif_neg h] at hf ⊢
    cases i with
    | zero =>
      obtain rfl := Option.some_inj.mp hf
      simp [Fragment.IsStart, Fragment.IsEnd, header_start_bit, header_end_bit]
    | succ i => simp at hf

theorem decode_encode (f : Fragment) (hf : f.indicator &&& 0x1F = 28) :
    Fragment.decode f.encode = some f := by
  simp only [Fragment.encode, Fragment.decode, if_pos hf]

theorem mapM_decode_encode (fs : List Fragment) (hf : ∀ f ∈ fs, f.indicator &&& 0x1F = 28) :
    (fs.map Fragment.encode).mapM Fragment.decode = some fs := by
  induction fs with
  | nil => rfl
  | cons f fs ih =>
    have hd := decode_encode f (hf f List.mem_cons_self)
    have ht := ih (fun g hg => hf g (List.mem_cons_of_mem _ hg))
    simp only [List.map_cons, List.mapM_cons, hd, ht, Option.bind_eq_bind, Option.bind_some,
      Option.pure_def]

/-- Receiving the fragments of a body longer than one piece gives back the NAL unit. -/
theorem receive_fragment (n : ℕ) (nal : UInt8) (body : List UInt8) (hn : 0 < n)
    (hb : n < body.length) :
    receive ((fragment n nal true body).map Fragment.encode) = some (nal :: body) := by
  have hm := mapM_decode_encode (fragment n nal true body) (fun f hf => by
    rw [fragment_indicator n nal true body f hf, indicator_type])
  have hc := fragment_flatMap n nal true body
  have hstep := fragment_step n nal true body hn hb
  obtain ⟨g, gs, hg⟩ := List.exists_cons_of_ne_nil (fragment_ne_nil n nal false (body.drop n))
  rw [hstep, hg] at hm hc ⊢
  change ((_ :: _ :: _).mapM Fragment.decode).bind reassemble = _
  rw [List.map_cons, List.map_cons] at hm
  rw [hm, Option.bind_some, reassemble, hc, indicator_header_nal]

end FuA
