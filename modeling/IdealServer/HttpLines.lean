import IdealServer.HttpContext
import IdealServer.Lines

/-! The lines that `HttpContext` takes for a request line, and what it makes of them. -/
namespace IdealServer

def HttpRequest.Version.name : HttpRequest.Version → Bytes
  | .kUnknown => []
  | .kHttp10 => ascii "HTTP/1.0"
  | .kHttp11 => ascii "HTTP/1.1"

theorem HttpRequest.Version.name_injective : Function.Injective HttpRequest.Version.name := by
  intro v w h
  cases v <;> cases w <;> first | rfl | exact absurd h (by decide)

/-- The parts of a request line, each of them known or free of spaces. -/
structure RequestLine where
  method : HttpRequest.Method
  method_known : method ≠ .kInvalid
  target : Bytes
  target_plain : 32 ∉ target
  version : HttpRequest.Version
  version_known : version ≠ .kUnknown

namespace RequestLine
variable (l : RequestLine)

def text : Bytes := l.method.name ++ 32 :: (l.target ++ 32 :: l.version.name)

/-- What a request that has no method yet becomes. -/
def apply (r : HttpRequest) : HttpRequest :=
  (HttpContext.setTarget { r with method := l.method } l.target).setVersion l.version

end RequestLine

/-- The method that the first word of a line names, where a space follows it. -/
def lineMethod (line : Bytes) : HttpRequest.Method :=
  if line.idxOf 32 < line.length then .ofString (line.take (line.idxOf 32)) else .kInvalid

section Words
variable {xs ys : Bytes} {c : UInt8}

theorem idxOf_append_cons (h : c ∉ xs) : (xs ++ c :: ys).idxOf c = xs.length := by
  rw [List.idxOf_append_of_notMem h, List.idxOf_cons_self, Nat.add_zero]

/-- A text in which the character occurs is cut at its first occurrence. -/
theorem exists_cut (h : xs.idxOf c < xs.length) : ∃ as bs, xs = as ++ c :: bs ∧ c ∉ as ∧
    xs.take (xs.idxOf c) = as ∧ xs.drop (xs.idxOf c+1) = bs := by
  obtain ⟨as,bs,rfl,hnot⟩ := List.eq_append_cons_of_mem (List.idxOf_lt_length_iff.mp h)
  rw [idxOf_append_cons hnot]
  exact ⟨as, bs, rfl, hnot, List.take_left, List.drop_length_add_append 1⟩

/-- There is one such cut. -/
theorem append_cons_inj {xs' ys' : Bytes} (h : c ∉ xs) (h' : c ∉ xs')
    (heq : xs ++ c :: ys = xs' ++ c :: ys') : xs = xs' ∧ ys = ys' := by
  have hlen : (xs ++ c :: ys).idxOf c = xs.length := idxOf_append_cons h
  rw [heq, idxOf_append_cons h'] at hlen
  obtain ⟨hfront,hback⟩ := List.append_inj heq hlen.symm
  exact ⟨hfront, (List.cons.inj hback).2⟩

end Words

namespace HttpContext
variable {c : HttpContext} {r : HttpRequest}

theorem setTarget_method (r : HttpRequest) (target : Bytes) : (setTarget r target).method = r.method := by
  rw [setTarget]
  split <;> rfl

theorem processVersion_cases (r : HttpRequest) (s : Bytes) :
    (∃ v : HttpRequest.Version, v ≠ .kUnknown ∧ s = v.name ∧ processVersion r s = (true, r.setVersion v)) ∨
      ((∀ v : HttpRequest.Version, v ≠ .kUnknown → s ≠ v.name) ∧ processVersion r s = (false, r)) := by
  have hsplit := List.take_append_drop 7 s
  unfold processVersion
  split_ifs with hseven hone hzero
  · rw [hseven.2, hone] at hsplit
    exact Or.inl ⟨.kHttp11, by decide, hsplit.symm, rfl⟩
  · rw [hseven.2, hzero] at hsplit
    exact Or.inl ⟨.kHttp10, by decide, hsplit.symm, rfl⟩
  · refine Or.inr ⟨?_, rfl⟩
    rintro v hv rfl
    cases v with
    | kUnknown => exact hv rfl
    | kHttp10 => exact hzero (by decide)
    | kHttp11 => exact hone (by decide)
  · refine Or.inr ⟨?_, rfl⟩
    rintro v hv rfl
    apply hseven
    cases v with
    | kUnknown => exact absurd rfl hv
    | kHttp10 => decide
    | kHttp11 => decide

theorem processTarget_cases (r : HttpRequest) (start : Bytes) :
    (∃ target, ∃ v : HttpRequest.Version, 32 ∉ target ∧ v ≠ .kUnknown ∧ start = target ++ 32 :: v.name ∧
        processTarget r start = (true, (setTarget r target).setVersion v)) ∨
      ((∀ target, ∀ v : HttpRequest.Version, 32 ∉ target → v ≠ .kUnknown → start ≠ target ++ 32 :: v.name) ∧
        (processTarget r start).1 = false ∧ (processTarget r start).2.method = r.method) := by
  unfold processTarget
  dsimp only
  split
  case isTrue hspace =>
    obtain ⟨target,rest,rfl,hplain,htake,hdrop⟩ := exists_cut hspace
    rw [htake, hdrop]
    rcases processVersion_cases (setTarget r target) rest with ⟨v,hv,rfl,hok⟩ | ⟨hno,hrefused⟩
    · exact Or.inl ⟨target, v, hplain, hv, rfl, hok⟩
    · refine Or.inr ⟨?_, ?_, ?_⟩
      · intro target' v hplain' hv heq
        exact hno v hv (append_cons_inj hplain hplain' heq).2
      · rw [hrefused]
      · rw [hrefused]
        exact setTarget_method r target
  case isFalse hspace =>
    refine Or.inr ⟨?_, rfl, rfl⟩
    intro target v hplain hv heq
    apply hspace
    rw [List.idxOf_lt_length_iff, heq]
    exact List.mem_append_right target List.mem_cons_self

end HttpContext

theorem RequestLine.method_plain (l : RequestLine) : 32 ∉ l.method.name := by
  cases l.method <;> decide

/-- A line is accepted exactly if it is a request line. From one that is refused the method may stay. -/
theorem processRequestLine_cases {c : HttpContext} (hm : c.request.method = .kInvalid) (line : Bytes) :
    (∃ l : RequestLine, line = l.text ∧
        c.processRequestLine line = .ok (true, { c with request := l.apply c.request })) ∨
      ((∀ l : RequestLine, line ≠ l.text) ∧ ∃ r, c.processRequestLine line = .ok (false, { c with request := r }) ∧
        r.method = lineMethod line) := by
  unfold HttpContext.processRequestLine lineMethod
  dsimp only
  split
  case isFalse hspace =>
    refine Or.inr ⟨?_, c.request, rfl, hm⟩
    rintro l rfl
    apply hspace
    rw [List.idxOf_lt_length_iff]
    exact List.mem_append_right _ List.mem_cons_self
  case isTrue hspace =>
    obtain ⟨word,rest,rfl,hplain,htake,hdrop⟩ := exists_cut hspace
    have hset : c.request.setMethod word = .ok (decide (HttpRequest.Method.ofString word ≠ .kInvalid),
        { c.request with method := .ofString word }) := if_pos hm
    rw [htake, hdrop, hset]
    simp only [bind, Except.bind]
    by_cases hknown : HttpRequest.Method.ofString word = .kInvalid
    · rw [if_neg (by simpa using hknown)]
      refine Or.inr ⟨?_, _, rfl, rfl⟩
      intro l heq
      have hword := (append_cons_inj hplain l.method_plain heq).1
      rw [hword, HttpRequest.Method.ofString_name l.method_known] at hknown
      exact l.method_known hknown
    · rw [if_pos (by simpa using hknown)]
      have hname := HttpRequest.Method.name_ofString hknown
      rcases HttpContext.processTarget_cases { c.request with method := .ofString word } rest with
        ⟨target,v,htarget,hv,rfl,hok⟩ | ⟨hno,hrefused,hmethod⟩
      · refine Or.inl ⟨⟨.ofString word, hknown, target, htarget, v, hv⟩, ?_, ?_⟩
        · rw [RequestLine.text, hname]
        · rw [hok]
          rfl
      · refine Or.inr ⟨?_, _, ?_, hmethod⟩
        · intro l heq
          exact hno l.target l.version l.target_plain l.version_known
            (append_cons_inj hplain l.method_plain heq).2
        · rw [hrefused]
          rfl

/-- A line is a request line in one way. -/
theorem RequestLine.text_inj {l m : RequestLine} (h : l.text = m.text) : l = m := by
  obtain ⟨hmethod,hrest⟩ := append_cons_inj l.method_plain m.method_plain h
  obtain ⟨htarget,hversion⟩ := append_cons_inj l.target_plain m.target_plain hrest
  have hm : l.method = m.method := by
    calc l.method = .ofString l.method.name := (HttpRequest.Method.ofString_name l.method_known).symm
      _ = .ofString m.method.name := by rw [hmethod]
      _ = m.method := HttpRequest.Method.ofString_name m.method_known
  have hv := HttpRequest.Version.name_injective hversion
  obtain ⟨lmethod,_,ltarget,_,lversion,_⟩ := l
  obtain ⟨mmethod,_,mtarget,_,mversion,_⟩ := m
  subst hm htarget hv
  rfl

theorem processRequestLine_text {c : HttpContext} (hm : c.request.method = .kInvalid) (l : RequestLine) :
    c.processRequestLine l.text = .ok (true, { c with request := l.apply c.request }) := by
  rcases processRequestLine_cases hm l.text with ⟨m,htext,hok⟩ | ⟨hno,_⟩
  · rw [RequestLine.text_inj htext] at hok ⊢
    exact hok
  · exact absurd rfl (hno l)

end IdealServer
