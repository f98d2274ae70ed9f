import IdealServer.Numeral
import Mathlib.Data.List.DropRight
import Mathlib.Data.List.TakeWhile
import Mathlib.Tactic.Common

/-! The part of `sscanf` that a request parser needs: white space and literals in the format,
`%s`, `%[^c]`, `%*[^c]` and unsigned conversions. The input is a C string. -/
namespace Scanf
open Numeral

inductive Directive
  /-- White space in the format. -/
  | ws
  | lit (c : UInt8)
  /-- `%s` into an array of `cap` bytes. -/
  | str (cap : ℕ)
  /-- `%[^c]` into an array of `cap` bytes. -/
  | notIn (c : UInt8) (cap : ℕ)
  /-- `%*[^c]` -/
  | skip (c : UInt8)
  /-- `%hu` with 16 bits, `%u` with 32. -/
  | uint (bits : ℕ)
deriving DecidableEq, Repr

inductive Value
  | text (t : List UInt8)
  | num (n : ℕ)
deriving DecidableEq, Repr

/-- `isspace` in the C locale. -/
def isSpace (b : UInt8) : Bool := b = 32 || (9 ≤ b && b ≤ 13)

/-- The bytes that `c_str` shows. -/
def cString (s : List UInt8) : List UInt8 := s.takeWhile (· ≠ 0)

/-- Whether there is a minus, and what follows the sign. -/
def sign : List UInt8 → Bool × List UInt8
  | 45 :: t => (true, t)
  | 43 :: t => (false, t)
  | t => (false, t)

/-- `strtoul` in base ten on 64 bits, and what it leaves. -/
def strtoul (s : List UInt8) : Option (ℕ × List UInt8) :=
  let signed := sign s
  let digits := signed.2.takeWhile isDigit
  if digits = [] then none
  else
    let v := value digits
    let v := if 2^64 ≤ v then 2^64-1 else if signed.1 then (2^64-v)%2^64 else v
    some (v, signed.2.dropWhile isDigit)

/-- The values that are stored before the scan ends, in order; `none` if a conversion stores more
than its array holds. The value that `sscanf` returns is their number, or `EOF` if there are
none. -/
def scan : List Directive → List UInt8 → Option (List Value)
  | [], _ => some []
  | .ws :: ds, s => scan ds (s.dropWhile isSpace)
  | .lit c :: ds, s =>
    match s with
    | [] => some []
    | x :: xs => if x = c then scan ds xs else some []
  | .str cap :: ds, s =>
    let s := s.dropWhile isSpace
    let tok := s.takeWhile (fun b => !isSpace b)
    if tok = [] then some []
    else if tok.length < cap then
      (scan ds (s.dropWhile (fun b => !isSpace b))).map (.text tok :: ·)
    else none
  | .notIn c cap :: ds, s =>
    let tok := s.takeWhile (· ≠ c)
    if tok = [] then some []
    else if tok.length < cap then (scan ds (s.dropWhile (· ≠ c))).map (.text tok :: ·)
    else none
  | .skip c :: ds, s =>
    if s.takeWhile (· ≠ c) = [] then some [] else scan ds (s.dropWhile (· ≠ c))
  | .uint bits :: ds, s =>
    match strtoul (s.dropWhile isSpace) with
    | none => some []
    | some (v, rest) => (scan ds rest).map (.num (v%2^bits) :: ·)

/-- The terminator ends a string, and nothing in front of it does. -/
theorem cString_append {t rest : List UInt8} (h : ∀ b ∈ t, b ≠ 0) :
    cString (t ++ rest) = t ++ cString rest :=
  List.takeWhile_append_of_pos (fun b hb => decide_eq_true (h b hb))

theorem cString_eq {t : List UInt8} (h : ∀ b ∈ t, b ≠ 0) : cString t = t := by
  have happend : cString (t ++ []) = t ++ [] := cString_append h
  rwa [List.append_nil] at happend

section Steps
variable {ds : List Directive} {tok rest : List UInt8} {c : UInt8} {cap : ℕ}

theorem scan_ws (s : List UInt8) : scan (.ws :: ds) s = scan ds (s.dropWhile isSpace) := rfl

theorem scan_str_eq (s : List UInt8) : scan (.str cap :: ds) s =
    let s := s.dropWhile isSpace
    let tok := s.takeWhile (fun b => !isSpace b)
    if tok = [] then some []
    else if tok.length < cap then
      (scan ds (s.dropWhile (fun b => !isSpace b))).map (.text tok :: ·)
    else none := rfl

theorem scan_notIn_eq (s : List UInt8) : scan (.notIn c cap :: ds) s =
    let tok := s.takeWhile (· ≠ c)
    if tok = [] then some []
    else if tok.length < cap then (scan ds (s.dropWhile (· ≠ c))).map (.text tok :: ·)
    else none := rfl

theorem scan_skip_eq (s : List UInt8) : scan (.skip c :: ds) s =
    if s.takeWhile (· ≠ c) = [] then some [] else scan ds (s.dropWhile (· ≠ c)) := rfl

theorem scan_uint_eq (bits : ℕ) (s : List UInt8) : scan (.uint bits :: ds) s =
    match strtoul (s.dropWhile isSpace) with
    | none => some []
    | some (v, rest) => (scan ds rest).map (.num (v%2^bits) :: ·) := rfl

theorem scan_ws_space (s : List UInt8) (h : isSpace c = true) :
    scan (.ws :: ds) (c :: s) = scan (.ws :: ds) s := by
  rw [scan_ws, scan_ws, List.dropWhile_cons_of_pos h]

theorem scan_ws_none (h : ∀ b ∈ rest.head?, isSpace b = false) :
    scan (.ws :: ds) rest = scan ds rest := by
  rw [scan_ws]
  cases rest with
  | nil => rfl
  | cons b rest => rw [List.dropWhile_cons_of_neg (by rw [h b rfl]; decide)]

theorem scan_lit (s : List UInt8) : scan (.lit c :: ds) (c :: s) = scan ds s := by
  show (if c = c then scan ds s else some []) = scan ds s
  rw [if_pos rfl]

theorem dropWhile_of_head {p : UInt8 → Bool} {s : List UInt8} (h : ∀ b ∈ s.head?, p b = false) :
    s.dropWhile p = s := by
  cases s with
  | nil => rfl
  | cons b s => rw [List.dropWhile_cons_of_neg (by rw [h b rfl]; decide)]

/-- `%s` reads a token that fits. -/
theorem scan_str (hne : tok ≠ []) (hcap : tok.length < cap)
    (hin : ∀ b ∈ tok, isSpace b = false) (hout : ∀ b ∈ rest.head?, isSpace b = true) :
    scan (.str cap :: ds) (tok ++ rest) = (scan ds rest).map (.text tok :: ·) := by
  have hhead : ∀ b ∈ (tok ++ rest).head?, isSpace b = false := by
    intro b hb
    obtain ⟨x,xs,rfl⟩ := List.exists_cons_of_ne_nil hne
    obtain rfl := Option.some.inj hb
    exact hin _ List.mem_cons_self
  have hin' : ∀ b ∈ tok, (!isSpace b) = true := fun b hb => by rw [hin b hb]; rfl
  have hout' : ∀ b ∈ rest.head?, (!isSpace b) = false := fun b hb => by rw [hout b hb]; rfl
  obtain ⟨ht,hd⟩ := takeWhile_exact hin' hout'
  rw [scan_str_eq, dropWhile_of_head hhead]
  simp only [ht, hd]
  rw [if_neg hne, if_pos hcap]

/-- What stands in front of `c`, and what follows. -/
theorem takeWhile_ne (hin : c ∉ tok) (hout : ∀ b ∈ rest.head?, b = c) :
    (tok ++ rest).takeWhile (· ≠ c) = tok ∧ (tok ++ rest).dropWhile (· ≠ c) = rest := by
  apply takeWhile_exact
  · intro b hb
    apply decide_eq_true
    rintro rfl
    exact hin hb
  · intro b hb
    exact decide_eq_false (fun h => h (hout b hb))

/-- `%[^c]` reads what stands in front of `c`. -/
theorem scan_notIn (hne : tok ≠ []) (hcap : tok.length < cap) (hin : c ∉ tok)
    (hout : ∀ b ∈ rest.head?, b = c) :
    scan (.notIn c cap :: ds) (tok ++ rest) = (scan ds rest).map (.text tok :: ·) := by
  obtain ⟨ht,hd⟩ := takeWhile_ne hin hout
  rw [scan_notIn_eq]
  simp only [ht, hd]
  rw [if_neg hne, if_pos hcap]

/-- `%*[^c]` skips what stands in front of `c`. -/
theorem scan_skip (hne : tok ≠ []) (hin : c ∉ tok) (hout : ∀ b ∈ rest.head?, b = c) :
    scan (.skip c :: ds) (tok ++ rest) = scan ds rest := by
  obtain ⟨ht,hd⟩ := takeWhile_ne hin hout
  rw [scan_skip_eq, ht, if_neg hne, hd]

theorem isDigit_not_space {b : UInt8} (h : isDigit b = true) : isSpace b = false := by
  have hb := h
  rw [isDigit, Bool.and_eq_true_iff, decide_eq_true_iff, decide_eq_true_iff,
    UInt8.le_iff_toNat_le, UInt8.le_iff_toNat_le] at hb
  rw [isSpace, Bool.or_eq_false_iff, Bool.and_eq_false_iff, decide_eq_false_iff_not,
    decide_eq_false_iff_not, decide_eq_false_iff_not, UInt8.le_iff_toNat_le,
    UInt8.le_iff_toNat_le, ← UInt8.toNat_inj]
  simp only [UInt8.reduceToNat] at hb ⊢
  omega

theorem decimal_head (n : ℕ) (rest : List UInt8) :
    ∃ x xs, decimal n ++ rest = x :: xs ∧ isDigit x = true := by
  obtain ⟨x,xs,h⟩ := List.exists_cons_of_ne_nil (decimal_ne_nil n)
  refine ⟨x, xs ++ rest, by rw [h]; rfl, ?_⟩
  exact isDigit_of_mem_decimal (by rw [h]; exact List.mem_cons_self)

theorem sign_of_digit {x : UInt8} (xs : List UInt8) (h : isDigit x = true) :
    sign (x :: xs) = (false, x :: xs) := by
  unfold sign
  split
  case h_1 heq =>
    obtain ⟨rfl,_⟩ := List.cons.inj heq
    contradiction
  case h_2 heq =>
    obtain ⟨rfl,_⟩ := List.cons.inj heq
    contradiction
  case h_3 => rfl

theorem strtoul_decimal {n : ℕ} (hn : n < 2^64) (hout : ∀ b ∈ rest.head?, isDigit b = false) :
    strtoul (decimal n ++ rest) = some (n, rest) := by
  obtain ⟨ht,hd⟩ := takeWhile_decimal n rest hout
  have hsign : sign (decimal n ++ rest) = (false, decimal n ++ rest) := by
    obtain ⟨x,xs,hx,hdig⟩ := decimal_head n rest
    rw [hx, sign_of_digit xs hdig]
  rw [strtoul, hsign]
  simp only [ht, hd, value_decimal]
  rw [if_neg (decimal_ne_nil n), if_neg (by omega)]
  rfl

/-- An unsigned conversion reads a numeral, reduced to its width. -/
theorem scan_uint {n bits : ℕ} (hn : n < 2^64) (hout : ∀ b ∈ rest.head?, isDigit b = false) :
    scan (.uint bits :: ds) (decimal n ++ rest) = (scan ds rest).map (.num (n%2^bits) :: ·) := by
  have hhead : ∀ b ∈ (decimal n ++ rest).head?, isSpace b = false := by
    intro b hb
    obtain ⟨x,xs,hx,hdig⟩ := decimal_head n rest
    rw [hx] at hb
    obtain rfl := Option.some.inj hb
    exact isDigit_not_space hdig
  rw [scan_uint_eq, dropWhile_of_head hhead, strtoul_decimal hn hout]

end Steps

section Words
variable {s : List UInt8} {ds : List Directive} {cap cap1 cap2 cap3 : ℕ}

/-- The first word, and what stands behind it. -/
def word (s : List UInt8) : List UInt8 := (s.dropWhile isSpace).takeWhile (fun b => !isSpace b)
def behind (s : List UInt8) : List UInt8 := (s.dropWhile isSpace).dropWhile (fun b => !isSpace b)

theorem scan_str_word (s : List UInt8) : scan (.str cap :: ds) s =
    if word s = [] then some []
    else if (word s).length < cap then (scan ds (behind s)).map (.text (word s) :: ·)
    else none := rfl

theorem word_dropWhile (s : List UInt8) : word (s.dropWhile isSpace) = word s := by
  rw [word, List.dropWhile_idempotent, word]

theorem behind_dropWhile (s : List UInt8) : behind (s.dropWhile isSpace) = behind s := by
  rw [behind, List.dropWhile_idempotent, behind]

/-- White space in front of `%s` in the format changes nothing. -/
theorem scan_ws_str (s : List UInt8) : scan (.ws :: .str cap :: ds) s = scan (.str cap :: ds) s := by
  rw [scan_ws, scan_str_word, scan_str_word, word_dropWhile, behind_dropWhile]

theorem behind_of_nil (h : word s = []) : behind s = [] := by
  unfold word at h
  unfold behind
  cases hs : s.dropWhile isSpace with
  | nil => rfl
  | cons b rest =>
    -- what is left begins with a byte that is no white space
    have hb : isSpace b = false := by
      have hhead := List.head?_dropWhile_not isSpace s
      rw [hs] at hhead
      simpa using hhead
    rw [hs, List.takeWhile_cons_of_pos (by rw [hb]; rfl)] at h
    cases h

theorem mem_of_mem_word {b : UInt8} (h : b ∈ word s) : b ∈ s ∧ isSpace b = false := by
  have hmem := (List.takeWhile_sublist _).subset h
  have hspace := List.mem_takeWhile_imp h
  refine ⟨(List.dropWhile_sublist _).subset hmem, ?_⟩
  simpa using hspace

theorem mem_of_mem_behind {b : UInt8} (h : b ∈ behind s) : b ∈ s :=
  (List.dropWhile_sublist _).subset ((List.dropWhile_sublist _).subset h)

theorem dropWhile_plain (h : ∀ b ∈ s, isSpace b = false) : s.dropWhile isSpace = s :=
  dropWhile_of_head (fun b hb => h b (List.mem_of_mem_head? hb))

theorem word_plain (h : ∀ b ∈ s, isSpace b = false) : word s = s := by
  rw [word, dropWhile_plain h]
  apply List.takeWhile_eq_self_iff.mpr
  intro b hb
  rw [h b hb]
  rfl

/-- The words up to the first one that is missing. -/
def present (words : List (List UInt8)) : List (List UInt8) := words.takeWhile (· ≠ [])

theorem present_cons {w : List UInt8} (words : List (List UInt8)) (h : w ≠ []) :
    present (w :: words) = w :: present words := by
  unfold present
  exact List.takeWhile_cons_of_pos (decide_eq_true h)

/-- The third word stands behind two others. -/
theorem present_words (h : word (behind (behind s)) ≠ []) :
    present [word s, word (behind s), word (behind (behind s))] =
      [word s, word (behind s), word (behind (behind s))] := by
  have hu : word (behind s) ≠ [] := by
    intro hu
    rw [behind_of_nil hu] at h
    exact h rfl
  have hm : word s ≠ [] := by
    intro hm
    rw [behind_of_nil hm] at hu
    exact hu rfl
  rw [present_cons _ hm, present_cons _ hu, present_cons _ h]
  rfl

theorem present_short (h : word (behind (behind s)) = []) :
    ((present [word s, word (behind s), word (behind (behind s))]).map Value.text).length < 3 := by
  rw [h]
  by_cases hm : word s = []
  · rw [hm]
    exact Nat.zero_lt_succ 2
  · rw [present_cons _ hm]
    by_cases hu : word (behind s) = []
    · rw [hu]
      exact Nat.one_lt_succ_succ 1
    · rw [present_cons _ hu]
      exact Nat.lt_succ_self 2

/-- Three words are stored up to the first one that is missing. -/
theorem scan_words (h1 : 0 < cap1) (h2 : 0 < cap2) (h3 : 0 < cap3) (s : List UInt8) :
    scan [.str cap1, .ws, .str cap2, .ws, .str cap3] s =
      if (word s).length < cap1 ∧ (word (behind s)).length < cap2 ∧ (word (behind (behind s))).length < cap3 then
        some ((present [word s, word (behind s), word (behind (behind s))]).map .text)
      else none := by
  rw [scan_str_word]
  by_cases hm : word s = []
  · have hrest := behind_of_nil hm
    rw [if_pos hm, hm, hrest, if_pos ⟨h1, h2, h3⟩]
    rfl
  · rw [if_neg hm, present_cons _ hm]
    by_cases hmlen : (word s).length < cap1
    · rw [if_pos hmlen, scan_ws_str, scan_str_word]
      by_cases hu : word (behind s) = []
      · have hrest := behind_of_nil hu
        rw [if_pos hu, hu, hrest, if_pos ⟨hmlen, h2, h3⟩]
        rfl
      · rw [if_neg hu, present_cons _ hu]
        by_cases hulen : (word (behind s)).length < cap2
        · rw [if_pos hulen, scan_ws_str, scan_str_word]
          by_cases hv : word (behind (behind s)) = []
          · rw [if_pos hv, hv, if_pos ⟨hmlen, hulen, h3⟩]
            rfl
          · rw [if_neg hv, present_cons _ hv]
            by_cases hvlen : (word (behind (behind s))).length < cap3
            · rw [if_pos hvlen, if_pos ⟨hmlen, hulen, hvlen⟩]
              rfl
            · rw [if_neg hvlen, if_neg (fun h => hvlen h.2.2)]
              rfl
        · rw [if_neg hulen, if_neg (fun h => hulen h.2.1)]
          rfl
    · rw [if_neg hmlen, if_neg (fun h => hmlen h.1)]

theorem sign_suffix (s : List UInt8) : (sign s).2 <:+ s := by
  unfold sign
  split
  · exact List.suffix_cons _ _
  · exact List.suffix_cons _ _
  · exact List.suffix_rfl

theorem strtoul_suffix {v : ℕ} {rest : List UInt8} (h : strtoul s = some (v, rest)) : rest <:+ s := by
  unfold strtoul at h
  dsimp only at h
  split at h
  · cases h
  · obtain ⟨_,rfl⟩ := Prod.mk.inj (Option.some.inj h)
    exact (List.dropWhile_suffix _).trans (sign_suffix s)

end Words

/-- What is stored as text comes from the input. -/
theorem mem_of_scan_text {ds : List Directive} {s : List UInt8} {vals : List Value}
    {t : List UInt8} {b : UInt8} (h : scan ds s = some vals) (ht : .text t ∈ vals) (hb : b ∈ t) :
    b ∈ s := by
  -- the conversion that stores `t` is the first one or a later one
  have hcons {ds : List Directive} {s : List UInt8} {v : Value} {vals : List Value}
      (ih : ∀ s vals, scan ds s = some vals → .text t ∈ vals → b ∈ s)
      (h : (scan ds s).map (v :: ·) = some vals) (ht : .text t ∈ vals) :
      v = .text t ∨ b ∈ s := by
    obtain ⟨rest,hrest,rfl⟩ := Option.map_eq_some_iff.mp h
    rcases List.mem_cons.mp ht with heq | hmem
    · exact Or.inl heq.symm
    · exact Or.inr (ih s rest hrest hmem)
  induction ds generalizing s vals with
  | nil =>
    obtain rfl := Option.some.inj h
    cases ht
  | cons d ds ih =>
    have ih' : ∀ s vals, scan ds s = some vals → .text t ∈ vals → b ∈ s := fun _ _ => ih
    have hnil (h : some [] = some vals) : b ∈ s := by
      obtain rfl := Option.some.inj h
      cases ht
    cases d with
    | ws => exact (List.dropWhile_sublist _).mem (ih' _ _ h ht)
    | lit c =>
      cases s with
      | nil => exact hnil h
      | cons x xs =>
        rw [scan] at h
        split at h
        · exact List.mem_cons_of_mem _ (ih' _ _ h ht)
        · exact hnil h
    | str cap =>
      rw [scan] at h
      split at h
      · exact hnil h
      · split at h
        · rcases hcons ih' h ht with heq | hmem
          · rw [← Value.text.inj heq] at hb
            exact (List.dropWhile_sublist _).mem ((List.takeWhile_sublist _).mem hb)
          · exact (List.dropWhile_sublist _).mem ((List.dropWhile_sublist _).mem hmem)
        · cases h
    | notIn c cap =>
      rw [scan] at h
      split at h
      · exact hnil h
      · split at h
        · rcases hcons ih' h ht with heq | hmem
          · rw [← Value.text.inj heq] at hb
            exact (List.takeWhile_sublist _).mem hb
          · exact (List.dropWhile_sublist _).mem hmem
        · cases h
    | skip c =>
      rw [scan] at h
      split at h
      · exact hnil h
      · exact (List.dropWhile_sublist _).mem (ih' _ _ h ht)
    | uint bits =>
      rw [scan] at h
      split at h
      · exact hnil h
      case h_2 v rest hnum =>
        rcases hcons ih' h ht with heq | hmem
        · cases heq
        · exact (List.dropWhile_sublist _).mem ((strtoul_suffix hnum).mem hmem)

end Scanf
