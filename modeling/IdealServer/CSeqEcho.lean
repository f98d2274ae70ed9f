import IdealServer.Pipelining
import IdealServer.ResponseText

/-! The number of a request in the responses to it. -/
namespace IdealServer
open Lines Search

def strlen (held : Bytes) : ℕ := (Scanf.cString held).length

/-- Headers, an empty line and the body. The only header called `CSeq` reads as `n`, and `strlen`
finds the end of the text. -/
structure Echoes (sent body : Bytes) (n : UInt32) : Prop where
  headers : ∃ headers digits, sent = unlines kCRLF (headers ++ [[]]) ++ body ∧
    (∀ l ∈ headers, l ≠ [] ∧ ¬kCRLF <:+: l) ∧
    headers.filter (fun l => (ascii "CSeq:").isPrefixOf l) = [ascii "CSeq: " ++ digits] ∧
    digits ≠ [] ∧ (∀ b ∈ digits, Numeral.isDigit b = true) ∧ Numeral.value digits = n.toNat
  size : strlen sent = sent.length

/-- The request has kept `n` from before, or keeps none and the first `CSeq` of the text is read as `n`. -/
def TakesCSeq (q : RtspRequest) (message : Bytes) (n : UInt32) : Prop :=
  match q.headerLineParam .cseq with
  | some kept => kept.2 = n
  | none =>
    match search (ascii "CSeq") message with
    | some pos => RtspRequest.scanCSeq message pos = n
    | none => n = 0

section Echo
variable {q : RtspRequest} {resp : ServerResponse} {message : Bytes} {n : UInt32} {bufSize : ℕ}

theorem takesCSeq_first {pos : ℕ} (hfirst : q.headerLineParam .cseq = none)
    (hsearch : search (ascii "CSeq") message = some pos) :
    TakesCSeq q message n ↔ RtspRequest.scanCSeq message pos = n := by
  rw [TakesCSeq, hfirst, hsearch]

theorem getCSeq_eq_iff : (q.parseHeadersLine message).2.getCSeq = n ↔ TakesCSeq q message n := by
  rw [RtspRequest.getCSeq, (parseHeadersLine_effect q message).cseq, RtspRequest.parseCSeq, TakesCSeq]
  cases hkept : q.headerLineParam .cseq with
  | some kept =>
    cases search (ascii "CSeq") message with
    | some pos =>
      dsimp only
      rw [ParamMap.emplace_of_some _ hkept, hkept]
      exact Iff.rfl
    | none =>
      dsimp only
      rw [hkept]
      exact Iff.rfl
  | none =>
    cases search (ascii "CSeq") message with
    | some pos =>
      dsimp only
      rw [ParamMap.emplace_of_none _ hkept]
      exact Iff.rfl
    | none =>
      dsimp only
      rw [hkept]
      exact eq_comm

/-- `%d` and `%u` agree below `2^31`. -/
theorem ServerResponse.printCSeq_eq (h : resp.signed = true → n.toNat < 2^31) :
    resp.printCSeq n = Numeral.decimal n.toNat := by
  unfold ServerResponse.printCSeq
  split
  case isTrue hsigned => exact if_pos (h hsigned)
  case isFalse => rfl

theorem echoes_of_number (hplain : resp.Plain) (hfit : (resp.text q).length < bufSize)
    (h : resp.signed = true → q.getCSeq.toNat < 2^31) :
    Echoes (resp.build q bufSize) resp.body q.getCSeq := by
  rw [ServerResponse.build_text hfit]
  have hdigits := resp.printCSeq_eq h
  refine ⟨⟨resp.headers q, Numeral.decimal q.getCSeq.toNat, rfl,
    ServerResponse.headers_unbroken hplain.ownHeader, ?_, Numeral.decimal_ne_nil _,
    fun b hb => Numeral.isDigit_of_mem_decimal hb, Numeral.value_decimal _⟩, ?_⟩
  · rw [ServerResponse.headers_cseq hplain.ownHeader, hdigits]
  · rw [strlen, Scanf.cString_eq (ServerResponse.text_no_nul hplain)]

/-- A text that holds `n` holds what was printed, which is the number of the request. -/
theorem number_of_echoes (hplain : resp.Plain) (hfit : (resp.text q).length < bufSize)
    (h : Echoes (resp.build q bufSize) resp.body n) :
    q.getCSeq = n ∧ (resp.signed = true → n.toNat < 2^31) := by
  obtain ⟨headers,digits,htext,hheaders,hfilter,_,hall,hvalue⟩ := h.headers
  rw [ServerResponse.build_text hfit] at htext
  -- the headers of a text are determined by it, so `digits` is what was printed
  obtain ⟨rfl,_⟩ := unlines_blank_inj (by decide) (ServerResponse.headers_unbroken hplain.ownHeader) hheaders htext
  rw [ServerResponse.headers_cseq hplain.ownHeader] at hfilter
  have hdigits := List.append_cancel_left (List.cons.inj hfilter).1
  have hprinted : resp.signed = true → q.getCSeq.toNat < 2^31 := by
    intro hsigned
    by_contra hn
    have hminus : 45 ∈ digits := by
      rw [← hdigits, ServerResponse.printCSeq, if_pos hsigned, printD, if_neg hn]
      exact List.mem_cons_self
    cases hall 45 hminus
  have hsame : q.getCSeq = n := by
    apply UInt32.toNat_inj.mp
    rw [← hvalue, ← hdigits, resp.printCSeq_eq hprinted, Numeral.value_decimal]
  exact ⟨hsame, hsame ▸ hprinted⟩

theorem echoes_iff (hplain : resp.Plain) (hfit : (resp.text q).length < bufSize) :
    Echoes (resp.build q bufSize) resp.body n ↔ q.getCSeq = n ∧ (resp.signed = true → n.toNat < 2^31) := by
  refine ⟨number_of_echoes hplain hfit, ?_⟩
  rintro ⟨rfl,h⟩
  exact echoes_of_number hplain hfit h

end Echo

/-- The number comes back in every response where it is the one that the request keeps, except that the
four builders with `%d` print one from `2^31` on as a negative number. -/
theorem cseq_echoed_iff (q : RtspRequest) (message : Bytes) (n : UInt32) (resp : ServerResponse)
    (hplain : resp.Plain) (bufSize : ℕ)
    (hfit : (resp.text (q.parseHeadersLine message).2).length < bufSize) :
    Echoes (resp.build (q.parseHeadersLine message).2 bufSize) resp.body n ↔
      TakesCSeq q message n ∧ (resp.signed = true → n.toNat < 2^31) := by
  rw [← getCSeq_eq_iff]
  exact echoes_iff hplain hfit

/-- A PLAY with the number 7, answered as the server does. -/
theorem cseq_echoed_play : Echoes ((ServerResponse.play none 9).build
    ((RtspRequest.new blankRequest).parseHeadersLine (ascii "CSeq: 7\r\nSession: 9")).2 1024) [] 7 := by
  apply (cseq_echoed_iff _ _ 7 (.play none 9) ⟨trivial, List.forall_mem_nil _⟩ 1024 _).mpr
  · exact ⟨(@takesCSeq_first _ _ _ 0 rfl (by decide)).mpr (by decide), fun _ => by decide⟩
  · decide +kernel

/-- A TEARDOWN with the number `2^31`, and one with another header in front whose name ends in `CSeq`. -/
theorem cseq_echoed_fails : ¬Echoes ((ServerResponse.teardown 9).build
      ((RtspRequest.new blankRequest).parseHeadersLine (ascii "CSeq: 2147483648")).2 1024) [] 2147483648 ∧
    ¬Echoes ((ServerResponse.teardown 9).build
      ((RtspRequest.new blankRequest).parseHeadersLine (ascii "X-CSeq: 9\r\nCSeq: 5")).2 1024) [] 5 := by
  refine ⟨?_, ?_⟩
  · intro h
    have hlt := (@number_of_echoes _ (.teardown 9) _ _ ⟨trivial, List.forall_mem_nil _⟩
      (by decide +kernel) h).2 rfl
    contradiction
  · intro h
    have hfive := (@number_of_echoes _ (.teardown 9) _ _ ⟨trivial, List.forall_mem_nil _⟩
      (by decide +kernel) h).1
    rw [getCSeq_eq_iff, @takesCSeq_first _ _ _ 2 rfl (by decide)] at hfive
    exact absurd hfive (by decide)

end IdealServer
