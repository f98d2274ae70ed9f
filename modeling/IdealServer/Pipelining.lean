import IdealServer.RtspDispatch
import IdealServer.RtspText

/-! A stream of well-formed requests, cut into reads. As long as the text that a read hands to the
parser ends no later than the current request, and the parser's test agrees with the empty line,
the commands are the requests received so far. -/
namespace IdealServer
open Lines Search

/-- What a handler should be told about the request. -/
def Request.dispatch (r : Request) : Dispatch := ⟨r.method, r.cseq, r.url, r.suffix⟩

/-- The bytes of the requests, one after the other. -/
def wire (reqs : List Request) : Bytes := reqs.flatMap Request.encode

def allLines (reqs : List Request) : List Bytes := reqs.flatMap Request.lines

/-- The requests of which all bytes are among the first `n`. -/
def received : List Request → ℕ → List Request
  | [], _ => []
  | r :: reqs, n =>
    if r.encode.length ≤ n then r :: received reqs (n-r.encode.length) else []

/-- The method of the request whose headers are next, whether its `CSeq` is known, and the text
behind the request line. -/
def headersStage (q : RtspRequest) (b : Bytes) : Option (Method × Bool × Bytes) :=
  match q.state with
  | .kParseHeadersLine => some (q.method, (q.headerLineParam .cseq).isSome, b)
  | .kGotAll => none
  | .kParseRequestLine =>
    match search kCRLF b with
    | none => none
    | some n =>
      some (Method.ofString (b.takeWhile (fun c => !Scanf.isSpace c)), false, b.drop (n+2))

/-- The header text contains an empty line only at its end, and the parser's test says that the
headers are complete exactly if it does end so. -/
def CleanText (m : Method) (known : Bool) (message : Bytes) : Prop :=
  match search (kCRLF ++ kCRLF) (kCRLF ++ message ++ kCRLF) with
  | none => m.headersComplete known message = false
  | some n => n+4 = (kCRLF ++ message ++ kCRLF).length ∧ m.headersComplete known message = true

instance (m : Method) (known : Bool) (message : Bytes) : Decidable (CleanText m known message) := by
  unfold CleanText
  cases search (kCRLF ++ kCRLF) (kCRLF ++ message ++ kCRLF) <;> infer_instance

def CleanRead (s : RtspInput) (read : Bytes) : Prop :=
  ∀ m known b, headersStage s.request (s.buffer.readable ++ read) = some (m, known, b) →
    ∀ n, findEnd kCRLF b = some n → CleanText m known (b.take n)

/-- What follows the last line break. -/
def unfinished (b : Bytes) : Bytes :=
  match findEnd kCRLF b with
  | none => b
  | some n => b.drop (n+2)

/-- The line that is still incomplete after a read is within the limit. -/
def BacklogFits (s : RtspInput) (read : Bytes) : Prop :=
  (unfinished (s.buffer.readable ++ read)).length ≤ maxRtspMessageSize

/-- The last line break of a text is the one in front of the unfinished line. -/
theorem findEnd_lines {ls : List Bytes} {piece : Bytes} (hne : ls ≠ [])
    (hp : ¬ kCRLF <:+: piece) : ∃ n, findEnd kCRLF (unlines kCRLF ls ++ piece) = some n ∧
      (unlines kCRLF ls ++ piece).take n ++ kCRLF = unlines kCRLF ls ∧
      (unlines kCRLF ls ++ piece).drop (n+2) = piece :=
  findEnd_split (by decide) hne hp

theorem wire_eq_unlines (reqs : List Request) : wire reqs = unlines kCRLF (allLines reqs) := by
  induction reqs with
  | nil => rfl
  | cons r reqs ih =>
    have hw : wire (r :: reqs) = r.encode ++ wire reqs := List.flatMap_cons
    have hl : allLines (r :: reqs) = r.lines ++ allLines reqs := List.flatMap_cons
    rw [hw, hl, unlines_append, ih]
    rfl

/-- No line of a well-formed request contains a line break or begins an interleaved frame. -/
theorem Request.WellFormed.lines_plain {r : Request} (h : r.WellFormed) :
    ∀ l ∈ r.lines, ¬ kCRLF <:+: l ∧ l.head? ≠ some 36 := by
  intro l hl
  rcases List.mem_cons.mp hl with rfl | hl
  · obtain ⟨hname,_,_,hdollar⟩ := name_token h.method_known
    refine ⟨?_, ?_⟩
    · intro hi
      have hmem : CR ∈ r.requestLine := hi.subset (by decide)
      simp only [Request.requestLine, List.mem_append, List.mem_cons] at hmem
      rcases hmem with hm | hm | hm | hm | hm
      · exact absurd (hname.2 _ hm).1 (by decide)
      · contradiction
      · exact absurd (h.url_token.2 _ hm).1 (by decide)
      · contradiction
      · exact absurd (version_token.1.2 _ hm).1 (by decide)
    · obtain ⟨x,xs,hx⟩ := List.exists_cons_of_ne_nil hname.1
      rw [Request.requestLine, hx]
      rw [hx] at hdollar
      exact hdollar
  · rcases List.mem_append.mp hl with hl | hl
    · exact (h.header_lines l hl).2
    · rw [List.mem_singleton.mp hl]
      decide

theorem head_unlines {ls : List Bytes} (h : ∀ l ∈ ls, l.head? ≠ some 36) :
    (unlines kCRLF ls).head? ≠ some 36 := by
  cases ls with
  | nil => simp
  | cons l ls =>
    rw [unlines_cons]
    cases l with
    | nil => simp [kCRLF, CR]
    | cons x xs => exact h (x :: xs) List.mem_cons_self

/-- The parser has read the request line of `r` and the lines `done` of its headers. -/
structure Inside (q : RtspRequest) (r : Request) (done : List Bytes) : Prop where
  state : q.state = .kParseHeadersLine
  method : q.method = r.method
  requestLineParam : q.requestLineParam = RtspRequest.setRequestLineParam (fun _ => none)
    r.url r.host r.port r.suffix Request.version r.method.name
  cseq : q.headerLineParam .cseq =
    if ∃ h ∈ done, ascii "CSeq" <:+: h then some ([], r.cseq) else none

/-- Where the parser stands: which requests are still to be dispatched, and which lines of them
the buffer and the reads to come consist of. -/
inductive Stage (q : RtspRequest) : List Request → List Bytes → Prop
  | between (pending : List Request) (state : q.state = .kParseRequestLine)
      (requestLineParam : q.requestLineParam = fun _ => none)
      (headerLineParam : q.headerLineParam = fun _ => none) : Stage q pending (allLines pending)
  | inside (r : Request) (later : List Request) (done rest : List Bytes)
      (split : r.headers = done ++ rest) (stage : Inside q r done) :
      Stage q (r :: later) (rest ++ [] :: allLines later)

/-- A list that has an element with the property has a first one. -/
theorem exists_first {p : Bytes → Prop} {ls : List Bytes} (h : ∃ l ∈ ls, p l) :
    ∃ pre l post, ls = pre ++ l :: post ∧ p l ∧ ∀ m ∈ pre, ¬ p m := by
  induction ls with
  | nil =>
    obtain ⟨l,hl,_⟩ := h
    contradiction
  | cons l ls ih =>
    by_cases hl : p l
    · exact ⟨[], l, ls, rfl, hl, by simp⟩
    · obtain ⟨m,hm,hp⟩ := h
      have hne : m ≠ l := fun he => hl (he ▸ hp)
      obtain ⟨pre,l',post,h1,h2,h3⟩ := ih ⟨m, List.mem_of_ne_of_mem hne hm, hp⟩
      refine ⟨l :: pre, l', post, by rw [h1]; rfl, h2, ?_⟩
      intro k hk
      rcases List.mem_cons.mp hk with rfl | hk
      · exact hl
      · exact h3 k hk

/-- And only one. -/
theorem first_unique {p : Bytes → Prop} {xs us ys vs : List Bytes} {a b : Bytes}
    (h : xs ++ a :: ys = us ++ b :: vs) (ha : p a) (hb : p b) (hxs : ∀ m ∈ xs, ¬ p m)
    (hus : ∀ m ∈ us, ¬ p m) : xs = us ∧ a = b := by
  induction xs generalizing us with
  | nil =>
    cases us with
    | nil => exact ⟨rfl, (List.cons.inj h).1⟩
    | cons u us =>
      obtain ⟨rfl,_⟩ := List.cons.inj h
      exact absurd ha (hus a List.mem_cons_self)
  | cons x xs ih =>
    cases us with
    | nil =>
      obtain ⟨rfl,_⟩ := List.cons.inj h
      exact absurd hb (hxs x List.mem_cons_self)
    | cons u us =>
      obtain ⟨rfl,h2⟩ := List.cons.inj h
      obtain ⟨rfl,rfl⟩ := ih h2 (fun m hm => hxs m (List.mem_cons_of_mem _ hm))
        (fun m hm => hus m (List.mem_cons_of_mem _ hm))
      exact ⟨rfl, rfl⟩

/-- After a piece of the headers the parser knows the number if `CSeq` has been mentioned. -/
theorem cseq_after_piece {q : RtspRequest} {n : UInt32} {done hs tail pre post : List Bytes}
    {message : Bytes} (hm : message ++ kCRLF = unlines kCRLF hs)
    (hsplit : done ++ hs ++ tail = pre ++ cseqHeader n :: post)
    (hpre : ∀ h ∈ pre, ¬ ascii "CSeq" <:+: h)
    (hq : q.headerLineParam .cseq =
      if ∃ h ∈ done, ascii "CSeq" <:+: h then some ([], n) else none) :
    (q.parseCSeq message).2.headerLineParam .cseq =
      if ∃ h ∈ done ++ hs, ascii "CSeq" <:+: h then some ([], n) else none := by
  by_cases hd : ∃ h ∈ done, ascii "CSeq" <:+: h
  · have hdh : ∃ h ∈ done ++ hs, ascii "CSeq" <:+: h := by
      obtain ⟨h,hin,hp⟩ := hd
      exact ⟨h, List.mem_append_left _ hin, hp⟩
    rw [if_pos hd] at hq
    rw [if_pos hdh]
    unfold RtspRequest.parseCSeq
    cases search (ascii "CSeq") message with
    | none => exact hq
    | some pos =>
      dsimp only
      rw [ParamMap.emplace_of_some _ hq, hq]
  · rw [if_neg hd] at hq
    by_cases hh : ∃ h ∈ hs, ascii "CSeq" <:+: h
    · have hdh : ∃ h ∈ done ++ hs, ascii "CSeq" <:+: h := by
        obtain ⟨h,hin,hp⟩ := hh
        exact ⟨h, List.mem_append_right _ hin, hp⟩
      obtain ⟨pre',h,post',h1,h2,h3⟩ := exists_first hh
      -- the first mention in this piece is the first one in the request
      have hone : done ++ pre' = pre ∧ h = cseqHeader n := by
        have hlines : (done ++ pre') ++ h :: (post' ++ tail) = pre ++ cseqHeader n :: post := by
          rw [← hsplit, h1]
          simp
        have hown : ascii "CSeq" <:+: cseqHeader n :=
          ⟨[], ascii ": " ++ Numeral.decimal n.toNat, rfl⟩
        have hbefore : ∀ m ∈ done ++ pre', ¬ ascii "CSeq" <:+: m := by
          intro m hm
          rcases List.mem_append.mp hm with hm | hm
          · exact fun hp => hd ⟨m, hm, hp⟩
          · exact h3 m hm
        exact first_unique hlines h2 hown hbefore hpre
      obtain ⟨_,rfl⟩ := hone
      rw [h1] at hm
      obtain ⟨pos,hpos,hscan⟩ := search_cseq_some n hm h3
      rw [if_pos hdh, RtspRequest.parseCSeq, hpos]
      dsimp only
      rw [ParamMap.emplace_of_none _ hq, hscan]
    · have hdh : ¬ ∃ h ∈ done ++ hs, ascii "CSeq" <:+: h := by
        rintro ⟨h,hin,hp⟩
        rcases List.mem_append.mp hin with hin | hin
        · exact hd ⟨h, hin, hp⟩
        · exact hh ⟨h, hin, hp⟩
      have hnone := search_cseq_none hm (fun h hin hp => hh ⟨h, hin, hp⟩)
      rw [if_neg hdh, RtspRequest.parseCSeq, hnone]
      exact hq

/-- The call ends with the piece in the buffer, at a stage of the requests that are left, and
has dispatched those in front of them. -/
def Progress (res : Except Fault (RtspRequest × Bytes × List RtspEvent)) (pending : List Request)
    (todo : List Bytes) (piece : Bytes) : Prop :=
  ∃ q events finished pending', res = .ok (q, piece, events) ∧ pending = finished ++ pending' ∧
    Stage q pending' todo ∧ dispatches events = finished.map Request.dispatch

theorem rtcpBytes_text {b : Bytes} (h : b.head? ≠ some 36) : rtcpBytes b = .ok b := by
  unfold rtcpBytes
  split
  · exact absurd rfl h
  · rfl

theorem discard_short {b : Bytes} (h : b.length ≤ maxRtspMessageSize) : discard b = b :=
  if_neg (Nat.not_lt.mpr h)

/-- As long as the request is not complete, only the size of the backlog matters. -/
theorem finish_waiting {q : RtspRequest} {b : Bytes} {events : List RtspEvent} (ret : Bool)
    (hq : q.gotAll = false) (hb : b.head? ≠ some 36) (hfit : b.length ≤ maxRtspMessageSize) :
    finish ret q b events = .ok (q, b, events) := by
  simp only [finish, rtcpBytes_text hb, discard_short hfit, hq, bind, Except.bind, pure,
    Except.pure, ↓reduceIte, ite_self]

/-- A complete request is handed to its handler. -/
theorem finish_command {q : RtspRequest} {b : Bytes} {events : List RtspEvent}
    (hm : q.method ≠ .RTCP ∧ q.method ≠ .NONE) (hq : q.gotAll = true)
    (hfit : b.length ≤ maxRtspMessageSize) :
    finish true q b events = .ok (q.reset, b, events ++ [.command q]) := by
  have hc : commandOf q = [.command q] := by
    unfold commandOf
    split
    · rename_i h
      exact absurd h hm.1
    · rename_i h
      exact absurd h hm.2
    · rfl
  simp only [finish, discard_short hfit, hq, hm.1, hc, pure, Except.pure, ↓reduceIte,
    Bool.true_eq_false]

/-- A parser that has seen all of `r` tells the handler about `r`. -/
theorem dispatch_eq {q : RtspRequest} {r : Request} {n : UInt32} (hm : q.method = r.method)
    (hreq : q.requestLineParam = RtspRequest.setRequestLineParam (fun _ => none)
      r.url r.host r.port r.suffix Request.version r.method.name)
    (hcseq : q.headerLineParam .cseq = some ([], n)) :
    q.dispatch = ⟨r.method, n, r.url, r.suffix⟩ := by
  have hurl : q.getRtspUrl = r.url := by
    rw [RtspRequest.getRtspUrl, hreq]
    rfl
  have hsuffix : q.getRtspUrlSuffix = r.suffix := by
    rw [RtspRequest.getRtspUrlSuffix, hreq]
    rfl
  have hnum : q.getCSeq = n := by
    rw [RtspRequest.getCSeq, hcseq]
    rfl
  rw [RtspRequest.dispatch, hm, hurl, hsuffix, hnum]

section Step
variable {q q' : RtspRequest} {r : Request} {done hs tail pre post : List Bytes} {message : Bytes}
  {ret : Bool}

/-- A piece of the headers that the parser does not take for their end. -/
theorem Inside.more (hq : Inside q r done) (heff : HeadersEffect q message (ret, q'))
    (hc : q.headersComplete message = false) (hm : message ++ kCRLF = unlines kCRLF hs)
    (hsplit : done ++ hs ++ tail = pre ++ cseqHeader r.cseq :: post)
    (hpre : ∀ h ∈ pre, ¬ ascii "CSeq" <:+: h) : Inside q' r (done ++ hs) where
  state := by
    have h := heff.state
    rw [hc] at h
    exact h.trans hq.state
  method := heff.method.trans hq.method
  requestLineParam := heff.requestLineParam.trans hq.requestLineParam
  cseq := heff.cseq.trans (cseq_after_piece hm hsplit hpre hq.cseq)

/-- The piece with which they end. -/
theorem Inside.complete (hq : Inside q r done) (heff : HeadersEffect q message (ret, q'))
    (hc : q.headersComplete message = true) (hm : message ++ kCRLF = unlines kCRLF hs)
    (hsplit : done ++ hs ++ [] = pre ++ cseqHeader r.cseq :: post)
    (hpre : ∀ h ∈ pre, ¬ ascii "CSeq" <:+: h) :
    ret = true ∧ q'.method = r.method ∧ q'.gotAll = true ∧ q'.dispatch = r.dispatch := by
  have hmem : ∃ h ∈ done ++ hs, ascii "CSeq" <:+: h := by
    rw [List.append_nil] at hsplit
    refine ⟨cseqHeader r.cseq, ?_, ⟨[], ascii ": " ++ Numeral.decimal r.cseq.toNat, rfl⟩⟩
    rw [hsplit]
    exact List.mem_append_right _ List.mem_cons_self
  have hcseq : q'.headerLineParam .cseq = some ([], r.cseq) := by
    have h := heff.cseq.trans (cseq_after_piece hm hsplit hpre hq.cseq)
    rwa [if_pos hmem] at h
  have hmethod : q'.method = r.method := heff.method.trans hq.method
  have hstate : q'.state = .kGotAll := by
    have h := heff.state
    rw [hc] at h
    exact h
  refine ⟨?_, hmethod, ?_, ?_⟩
  · have h := heff.ret
    rw [hcseq] at h
    exact h
  · rw [RtspRequest.gotAll, hstate]
    rfl
  · exact dispatch_eq hmethod (heff.requestLineParam.trans hq.requestLineParam) hcseq

end Step

/-- The headers, as far as they have come. -/
theorem Inside.step {q : RtspRequest} {r : Request} {later : List Request}
    {done rest ls todo : List Bytes} {piece : Bytes} (events : List RtspEvent)
    (hwf : r.WellFormed) (hfirst : r.CSeqFirst) (hq : Inside q r done)
    (hsplit : r.headers = done ++ rest) (htext : ls ++ todo = rest ++ [] :: allLines later)
    (hls : ∀ l ∈ ls, ¬ kCRLF <:+: l) (hp : ¬ kCRLF <:+: piece) (hdollar : piece.head? ≠ some 36)
    (hfit : piece.length ≤ maxRtspMessageSize) (hevents : dispatches events = [])
    (hclean : ∀ n, findEnd kCRLF (unlines kCRLF ls ++ piece) = some n →
      CleanText q.method (q.headerLineParam .cseq).isSome ((unlines kCRLF ls ++ piece).take n)) :
    Progress (finish (headersBytes q (unlines kCRLF ls ++ piece)).1
      (headersBytes q (unlines kCRLF ls ++ piece)).2.1
      (headersBytes q (unlines kCRLF ls ++ piece)).2.2.1
      (events ++ (headersBytes q (unlines kCRLF ls ++ piece)).2.2.2)) (r :: later) todo piece := by
  have hab : CR ≠ LF := by decide
  obtain ⟨pre,post,hheaders,hpre⟩ := hfirst
  have hwaiting (q : RtspRequest) (hs : q.state = .kParseHeadersLine) : q.gotAll = false := by
    rw [RtspRequest.gotAll, hs]
    rfl
  by_cases hne : ls = []
  · -- no line is complete
    subst hne
    have hnone : findEnd kCRLF piece = none := findEnd_eq_none.mpr hp
    have hstay : headersBytes q piece = (true, q, piece, []) := by
      rw [headersBytes, hnone]
    rw [unlines_nil, List.nil_append, hstay, List.append_nil,
      finish_waiting true (hwaiting q hq.state) hdollar hfit]
    rw [List.nil_append] at htext
    rw [htext]
    exact ⟨q, events, [], r :: later, rfl, rfl, .inside r later done rest hsplit hq, hevents⟩
  obtain ⟨n,hn,hmessage,hdrop⟩ := findEnd_lines hne hp
  have hclean := hclean n hn
  generalize hmeq : (unlines kCRLF ls ++ piece).take n = message at hclean hmessage
  have heff := parseHeadersLine_effect q message
  generalize hres : q.parseHeadersLine message = res at heff
  obtain ⟨ret,q'⟩ := res
  have hh : headersBytes q (unlines kCRLF ls ++ piece) =
      (ret, q', piece, [.headersLine message]) := by
    rw [headersBytes, hn]
    dsimp only
    rw [hdrop, hmeq, hres]
  have hevents' : dispatches (events ++ [.headersLine message]) = [] := by
    rw [dispatches_append, hevents]
    rfl
  have hsurround : kCRLF ++ message ++ kCRLF = kCRLF ++ unlines kCRLF ls := by
    rw [List.append_assoc, hmessage]
  have hrest : ∀ l ∈ rest, ¬ kCRLF <:+: l ∧ l ≠ [] := by
    intro l hl
    obtain ⟨h1,h2,_⟩ := hwf.header_lines l (by rw [hsplit]; exact List.mem_append_right _ hl)
    exact ⟨h2, h1⟩
  rw [hh]
  dsimp only
  rw [CleanText, hsurround] at hclean
  rcases append_eq_append_cons htext with ⟨t,ht,htodo⟩ | ⟨t,ht,hlater⟩
  · -- the headers go on
    have hsplit' : r.headers = done ++ ls ++ t := by rw [hsplit, ht, List.append_assoc]
    have hblank : search (kCRLF ++ kCRLF) (kCRLF ++ unlines kCRLF ls) = none :=
      search_blank_none hab (fun l hl => (hrest l (by rw [ht]; exact List.mem_append_left _ hl)).1)
        (fun l hl => (hrest l (by rw [ht]; exact List.mem_append_left _ hl)).2)
    rw [hblank] at hclean
    have hmore := hq.more heff hclean hmessage (hsplit'.symm.trans hheaders) hpre
    rw [finish_waiting ret (hwaiting q' hmore.state) hdollar hfit, htodo]
    exact ⟨q', _, [], r :: later, rfl, rfl, .inside r later (done ++ ls) t hsplit' hmore, hevents'⟩
  · -- the empty line is there
    have hblank : search (kCRLF ++ kCRLF) (kCRLF ++ unlines kCRLF (rest ++ [[]]) ++ unlines kCRLF t) =
        some (unlines kCRLF rest).length :=
      search_blank_some hab (fun l hl => (hrest l hl).1) (fun l hl => (hrest l hl).2)
    have hall : kCRLF ++ unlines kCRLF ls =
        kCRLF ++ unlines kCRLF (rest ++ [[]]) ++ unlines kCRLF t := by
      rw [ht, List.append_assoc, ← unlines_append, List.append_assoc]
      rfl
    rw [hall, hblank] at hclean
    obtain ⟨hend,hcomplete⟩ := hclean
    -- nothing but the empty line follows the headers
    have hnil : t = [] := by
      simp only [unlines_append, unlines_cons, unlines_nil, List.length_append, List.length_nil] at hend
      have hpos : 0 < kCRLF.length := by decide
      cases t with
      | nil => rfl
      | cons l t =>
        simp only [unlines_cons, List.length_append] at hend
        have : kCRLF.length = 2 := rfl
        omega
    subst hnil
    have hlines : done ++ ls ++ [] = pre ++ cseqHeader r.cseq :: (post ++ [[]]) := by
      rw [ht, List.append_nil, ← List.append_assoc, ← hsplit, hheaders]
      simp
    obtain ⟨hret,hm,hgot,hdispatch⟩ := hq.complete heff hcomplete hmessage hlines hpre
    subst hret
    rw [finish_command (by rw [hm]; exact hwf.method_known) hgot hfit]
    rw [List.nil_append] at hlater
    rw [← hlater]
    refine ⟨q'.reset, _, [r], later, rfl, rfl, .between later rfl rfl rfl, ?_⟩
    rw [dispatches_append, hevents']
    exact congrArg (fun d => [d]) hdispatch

/-- A request line begins with the name of the method. -/
theorem first_word {r : Request} (h : r.WellFormed) (rest : Bytes) :
    Method.ofString ((r.requestLine ++ rest).takeWhile (fun c => !Scanf.isSpace c)) = r.method := by
  obtain ⟨hname,_,hof,_⟩ := name_token h.method_known
  have hword : ∀ c ∈ r.method.name, (!Scanf.isSpace c) = true := by
    intro c hc
    rw [(hname.2 c hc).1]
    rfl
  rw [Request.requestLine, List.append_assoc, List.takeWhile_append_of_pos hword]
  have hstop : (32 :: (r.url ++ 32 :: Request.version) ++ rest).takeWhile
      (fun c => !Scanf.isSpace c) = [] := rfl
  rw [hstop, List.append_nil, hof]

/-- What can be promised of the requests of a stream. -/
def Plain (r : Request) : Prop := r.WellFormed ∧ r.CSeqFirst

theorem Stage.lines_plain {q : RtspRequest} {pending : List Request} {todo : List Bytes}
    (hs : Stage q pending todo) (hplain : ∀ r ∈ pending, Plain r) :
    ∀ l ∈ todo, ¬ kCRLF <:+: l ∧ l.head? ≠ some 36 := by
  have hall (reqs : List Request) (h : ∀ r ∈ reqs, Plain r) :
      ∀ l ∈ allLines reqs, ¬ kCRLF <:+: l ∧ l.head? ≠ some 36 := by
    intro l hl
    obtain ⟨r,hr,hl⟩ := List.mem_flatMap.mp hl
    exact (h r hr).1.lines_plain l hl
  cases hs with
  | between state requestLineParam headerLineParam => exact hall pending hplain
  | inside r later done rest hsplit hq =>
    intro l hl
    rcases List.mem_append.mp hl with hl | hl
    · apply (hplain r List.mem_cons_self).1.lines_plain
      rw [Request.lines, hsplit]
      simp [hl]
    · rcases List.mem_cons.mp hl with rfl | hl
      · decide
      · exact hall later (fun r hr => hplain r (List.mem_cons_of_mem _ hr)) l hl

theorem unfinished_eq (complete : List Bytes) {piece : Bytes} (hp : ¬ kCRLF <:+: piece) :
    unfinished (unlines kCRLF complete ++ piece) = piece := by
  by_cases hne : complete = []
  · subst hne
    have hnone : findEnd kCRLF piece = none := findEnd_eq_none.mpr hp
    rw [unlines_nil, List.nil_append, unfinished, hnone]
  · obtain ⟨n,hn,_,hdrop⟩ := findEnd_lines hne hp
    rw [unfinished, hn]
    exact hdrop

/-- The parser's request after the line of `r`. -/
def RtspRequest.accepted (q : RtspRequest) (r : Request) : RtspRequest :=
  { q with
    method := r.method
    requestLineParam := RtspRequest.setRequestLineParam q.requestLineParam r.url r.host r.port
      r.suffix Request.version r.method.name
    state := .kParseHeadersLine }

/-- A buffer that begins with the line of a well-formed request. -/
theorem process_requestLine {q : RtspRequest} {r : Request} (hwf : r.WellFormed)
    (hs : q.state = .kParseRequestLine) (rest : Bytes) :
    search kCRLF (r.requestLine ++ kCRLF ++ rest) = some r.requestLine.length ∧
      (r.requestLine ++ kCRLF ++ rest).drop (r.requestLine.length+2) = rest ∧
      process q (r.requestLine ++ kCRLF ++ rest) =
        finish (headersBytes (q.accepted r) rest).1 (headersBytes (q.accepted r) rest).2.1
          (headersBytes (q.accepted r) rest).2.2.1
          (.requestLine r.requestLine :: (headersBytes (q.accepted r) rest).2.2.2) := by
  have hab : CR ≠ LF := by decide
  obtain ⟨hunbroken,hdollar⟩ := hwf.lines_plain r.requestLine List.mem_cons_self
  have hsearch : search kCRLF (r.requestLine ++ kCRLF ++ rest) = some r.requestLine.length :=
    search_line hab hunbroken
  have htake : (r.requestLine ++ kCRLF ++ rest).take r.requestLine.length = r.requestLine := by
    rw [List.append_assoc, List.take_left]
  have hdrop : (r.requestLine ++ kCRLF ++ rest).drop (r.requestLine.length+2) = rest := by
    rw [List.append_assoc, ← List.drop_drop, List.drop_left]
    rfl
  have hhead : (r.requestLine ++ kCRLF ++ rest).head? ≠ some 36 := by
    cases hline : r.requestLine with
    | nil => exact absurd (List.append_eq_nil_iff.mp hline).1 (name_token hwf.method_known).1.1
    | cons x xs =>
      rw [hline] at hdollar
      exact hdollar
  refine ⟨hsearch, hdrop, ?_⟩
  rw [process, parseBytes, if_neg hhead, hs]
  dsimp only
  rw [hsearch]
  dsimp only
  rw [htake, parseRequestLine_requestLine hwf q, hdrop]
  rfl

/-- One call, on a buffer that consists of whole lines and a piece. -/
theorem process_stage {q : RtspRequest} {pending : List Request} {todo complete : List Bytes}
    {piece rest : Bytes} (hs : Stage q pending (complete ++ todo))
    (hplain : ∀ r ∈ pending, Plain r) (hne : unlines kCRLF complete ++ piece ≠ [])
    (hpiece : piece ++ rest = unlines kCRLF todo) (hp : ¬ kCRLF <:+: piece)
    (hfit : piece.length ≤ maxRtspMessageSize)
    (hclean : ∀ m known b,
      headersStage q (unlines kCRLF complete ++ piece) = some (m, known, b) →
      ∀ n, findEnd kCRLF b = some n → CleanText m known (b.take n)) :
    Progress (process q (unlines kCRLF complete ++ piece)) pending todo piece := by
  have hab : CR ≠ LF := by decide
  have hlines := hs.lines_plain hplain
  have hcomplete : ∀ l ∈ complete, ¬ kCRLF <:+: l :=
    fun l hl => (hlines l (List.mem_append_left _ hl)).1
  have hdollar : piece.head? ≠ some 36 := by
    have h := head_unlines (fun l hl => (hlines l (List.mem_append_right complete hl)).2)
    rw [← hpiece] at h
    cases piece with
    | nil => simp
    | cons x xs => exact h
  have hstart : (unlines kCRLF complete ++ piece).head? ≠ some 36 := by
    have h := head_unlines (fun l hl => (hlines l hl).2)
    rw [unlines_append, ← hpiece, ← List.append_assoc] at h
    obtain ⟨x,xs,hx⟩ := List.exists_cons_of_ne_nil hne
    rw [hx] at h ⊢
    exact h
  generalize htodo : complete ++ todo = all at hs
  cases hs with
  | inside r later done rest hsplit hq =>
    have hstage : headersStage q (unlines kCRLF complete ++ piece) =
        some (q.method, (q.headerLineParam .cseq).isSome, unlines kCRLF complete ++ piece) := by
      rw [headersStage, hq.state]
    obtain ⟨hwf,hfirst⟩ := hplain r List.mem_cons_self
    have hstep := hq.step [] hwf hfirst hsplit htodo hcomplete hp hdollar hfit rfl
      (hclean _ _ _ hstage)
    rw [process, parseBytes, if_neg hstart, hq.state]
    exact hstep
  | between _ state requestLineParam headerLineParam =>
    cases complete with
    | nil =>
      -- the request line is not complete
      have hnone : search kCRLF piece = none := search_eq_none.mpr hp
      rw [List.nil_append] at htodo
      have hwait : q.gotAll = false := by
        rw [RtspRequest.gotAll, state]
        rfl
      have hproc : process q piece = finish true q piece [] := by
        rw [process, parseBytes, if_neg hdollar, state, hnone]
        rfl
      rw [unlines_nil, List.nil_append, hproc, finish_waiting true hwait hdollar hfit, htodo]
      exact ⟨q, [], [], pending, rfl, rfl, .between pending state requestLineParam headerLineParam,
        rfl⟩
    | cons l ls =>
      cases pending with
      | nil => contradiction
      | cons r later =>
        have hhead : l = r.requestLine ∧ ls ++ todo = r.headers ++ [] :: allLines later := by
          have h : l :: (ls ++ todo) = r.requestLine :: (r.headers ++ [[]] ++ allLines later) :=
            htodo
          obtain ⟨h1,h2⟩ := List.cons.inj h
          refine ⟨h1, ?_⟩
          rw [h2]
          simp
        obtain ⟨rfl,htext⟩ := hhead
        obtain ⟨hwf,hfirst⟩ := hplain r List.mem_cons_self
        obtain ⟨hsearch,hdrop,hproc⟩ := process_requestLine hwf state (unlines kCRLF ls ++ piece)
        have hbuf : unlines kCRLF (r.requestLine :: ls) ++ piece =
            r.requestLine ++ kCRLF ++ (unlines kCRLF ls ++ piece) := by
          rw [unlines_cons, List.append_assoc]
        have hinside : Inside (q.accepted r) r [] := by
          refine ⟨rfl, rfl, ?_, ?_⟩
          · rw [RtspRequest.accepted, requestLineParam]
          · rw [RtspRequest.accepted, headerLineParam]
            rfl
        have hunknown : ((q.accepted r).headerLineParam .cseq).isSome = false := by
          rw [hinside.cseq]
          rfl
        have hstage : headersStage q (r.requestLine ++ kCRLF ++ (unlines kCRLF ls ++ piece)) =
            some (r.method, ((q.accepted r).headerLineParam .cseq).isSome,
              unlines kCRLF ls ++ piece) := by
          rw [headersStage, state]
          dsimp only
          rw [hsearch]
          dsimp only
          rw [hdrop, hunknown, List.append_assoc, first_word hwf]
        rw [hbuf] at hclean ⊢
        rw [hproc]
        exact hinside.step [.requestLine r.requestLine] hwf hfirst rfl htext
          (fun l hl => hcomplete l (List.mem_cons_of_mem _ hl)) hp hdollar hfit rfl
          (hclean _ _ _ hstage)

/-- Where a run over a stream stands: `finished` has been dispatched, and the buffer, the reads
to come and what the client sends after them are the lines of the rest. -/
structure OnStream (reqs : List Request) (w : Bytes) (s : RtspInput) (reads : List Bytes)
    (events : List RtspEvent) (finished pending : List Request) (todo : List Bytes) : Prop where
  reqs_eq : reqs = finished ++ pending
  stage : Stage s.request pending todo
  stream : s.buffer.readable ++ (reads.flatten ++ w) = unlines kCRLF todo
  unbroken : ¬ kCRLF <:+: s.buffer.readable
  nonempty : ∀ read ∈ reads, read ≠ []
  dispatched : dispatches events = finished.map Request.dispatch

/-- A clean read keeps the run on the stream. -/
theorem OnStream.step {reqs finished pending : List Request} {w read : Bytes} {s : RtspInput}
    {reads : List Bytes} {events : List RtspEvent} {todo : List Bytes}
    (h : OnStream reqs w s (read :: reads) events finished pending todo)
    (hplain : ∀ r ∈ reqs, Plain r) (hclean : CleanRead s read) (hfit : BacklogFits s read) :
    ∃ s' out, s.receive read = .ok (s', out) ∧
      ∃ finished pending todo, OnStream reqs w s' reads (events ++ out) finished pending todo := by
  have hab : CR ≠ LF := by decide
  have hpending : ∀ r ∈ pending, Plain r := by
    intro r hr
    apply hplain
    rw [h.reqs_eq]
    exact List.mem_append_right _ hr
  have hlines := h.stage.lines_plain hpending
  have hne : s.buffer.readable ++ read ≠ [] := by
    intro hnil
    exact h.nonempty read List.mem_cons_self (List.append_eq_nil_iff.mp hnil).2
  have hstream : s.buffer.readable ++ read ++ (reads.flatten ++ w) = unlines kCRLF todo := by
    rw [← h.stream, List.flatten_cons]
    simp only [List.append_assoc]
  obtain ⟨complete,todo',piece,htodo,hbuf,hpiece,hp⟩ :
      ∃ complete todo' piece, todo = complete ++ todo' ∧
        s.buffer.readable ++ read = unlines kCRLF complete ++ piece ∧
        piece ++ (reads.flatten ++ w) = unlines kCRLF todo' ∧ ¬ kCRLF <:+: piece :=
    exists_complete_lines hab (fun l hl => (hlines l hl).1) hstream
  have hstage := h.stage
  rw [htodo] at hstage
  rw [hbuf] at hne
  have hshort : piece.length ≤ maxRtspMessageSize := by
    rw [BacklogFits, hbuf, unfinished_eq complete hp] at hfit
    exact hfit
  rw [CleanRead, hbuf] at hclean
  obtain ⟨q,out,done,pending',hproc,hdone,hnext,hout⟩ :=
    process_stage hstage hpending hne hpiece hp hshort hclean
  obtain ⟨buf,hok,hread⟩ := receive_ok (by rw [hbuf]; exact hne) (by rw [hbuf]; exact hproc)
  refine ⟨⟨q, buf⟩, out, hok, finished ++ done, pending', todo', ?_, hnext, ?_, ?_, ?_, ?_⟩
  · rw [h.reqs_eq, hdone, List.append_assoc]
  · rw [hread]
    exact hpiece
  · rw [hread]
    exact hp
  · exact fun r hr => h.nonempty r (List.mem_cons_of_mem _ hr)
  · rw [dispatches_append, h.dispatched, hout, List.map_append]

/-- Some of the lines of the first request that is left have not been consumed. -/
theorem Stage.current {q : RtspRequest} {r : Request} {later : List Request} {todo : List Bytes}
    (h : Stage q (r :: later) todo) : ∃ c ls, ls ≠ [] ∧ r.encode = c ++ unlines kCRLF ls ∧
      todo = ls ++ allLines later := by
  cases h with
  | between state requestLineParam headerLineParam =>
    exact ⟨[], r.lines, List.cons_ne_nil _ _, rfl, List.flatMap_cons⟩
  | inside r later done rest hsplit hq =>
    refine ⟨unlines kCRLF (r.requestLine :: done), rest ++ [[]], by simp, ?_, by simp⟩
    rw [Request.encode, Request.lines, hsplit, ← unlines_append]
    simp

theorem received_append {finished pending : List Request} {k : ℕ}
    (hk : ∀ r ∈ pending.head?, k < r.encode.length) :
    received (finished ++ pending) ((wire finished).length+k) = finished := by
  induction finished with
  | nil =>
    cases pending with
    | nil => rfl
    | cons r later =>
      have hlt : k < r.encode.length := hk r rfl
      rw [List.nil_append, received, if_neg]
      simp only [wire, List.flatMap_nil, List.length_nil]
      omega
  | cons r finished ih =>
    have hlen : (wire (r :: finished)).length = r.encode.length+(wire finished).length := by
      rw [wire, List.flatMap_cons, List.length_append]
      rfl
    have hle : r.encode.length ≤ (wire (r :: finished)).length+k := by omega
    have hsub : (wire (r :: finished)).length+k-r.encode.length = (wire finished).length+k := by
      omega
    rw [List.cons_append, received, if_pos hle, hsub, ih]

/-- At the end of the reads, the requests that have been dispatched are those received. -/
theorem OnStream.received_eq {reqs finished pending : List Request} {w sent : Bytes}
    {s : RtspInput} {events : List RtspEvent} {todo : List Bytes}
    (h : OnStream reqs w s [] events finished pending todo) (hw : sent ++ w = wire reqs) :
    received reqs sent.length = finished := by
  have hstream : s.buffer.readable ++ w = unlines kCRLF todo := h.stream
  have htotal : sent.length+w.length = (wire finished).length+(wire pending).length := by
    rw [← List.length_append, hw, h.reqs_eq, wire, List.flatMap_append, List.length_append]
    rfl
  have hleft := congrArg List.length hstream
  rw [List.length_append] at hleft
  cases pending with
  | nil =>
    have hnone : todo = [] := by
      cases h.stage
      rfl
    rw [hnone] at hleft
    have hlen : sent.length = (wire finished).length+0 := by
      simp only [unlines_nil, List.length_nil] at hleft
      simp only [wire, List.flatMap_nil, List.length_nil] at htotal ⊢
      omega
    rw [hlen, h.reqs_eq]
    exact received_append (by simp)
  | cons r later =>
    obtain ⟨c,ls,hne,hencode,htodo⟩ := h.stage.current
    have hwire : (wire (r :: later)).length =
        c.length+(unlines kCRLF ls).length+(unlines kCRLF (allLines later)).length := by
      rw [← wire_eq_unlines, ← List.length_append, ← hencode, ← List.length_append]
      rfl
    rw [htodo, unlines_append, List.length_append] at hleft
    -- the buffer holds no whole line, so a part of the request is missing
    have hmissing : s.buffer.readable.length < (unlines kCRLF ls).length := by
      by_contra hge
      have hpre : unlines kCRLF ls <+: s.buffer.readable := by
        apply List.prefix_of_prefix_length_le _ (List.prefix_append _ w) (by omega)
        rw [hstream, htodo, unlines_append]
        exact List.prefix_append _ _
      obtain ⟨l,ls,rfl⟩ := List.exists_cons_of_ne_nil hne
      have hin : kCRLF <:+: unlines kCRLF (l :: ls) := ⟨l, unlines kCRLF ls, by simp⟩
      exact h.unbroken (hin.trans hpre.isInfix)
    have hlen : sent.length = (wire finished).length+(c.length+s.buffer.readable.length) := by
      omega
    rw [hlen, h.reqs_eq]
    apply received_append
    intro r' hr
    obtain rfl := Option.some.inj hr
    rw [hencode, List.length_append]
    omega

/-- As long as every read is clean and the line that is left incomplete is within the limit, the
commands are the requests received so far, each once, in order, with their own values. -/
theorem requests_dispatched (mem : RtspRequest) (reqs : List Request) (reads : List Bytes)
    (w : Bytes) (hplain : ∀ r ∈ reqs, r.WellFormed ∧ r.CSeqFirst)
    (hnonempty : ∀ read ∈ reads, read ≠ []) (hw : reads.flatten ++ w = wire reqs)
    (hclean : Runs.Along RtspInput.receive (fun s read => CleanRead s read ∧ BacklogFits s read)
      (RtspInput.new mem) reads) :
    ∃ s events, (RtspInput.new mem).receiveAll reads = .ok (s, events) ∧
      dispatches events = (received reqs reads.flatten.length).map Request.dispatch ∧
      (w = [] → dispatches events = reqs.map Request.dispatch) := by
  have hstart : OnStream reqs w (RtspInput.new mem) reads [] [] reqs (allLines reqs) :=
    ⟨rfl, .between reqs rfl rfl rfl, by rw [← wire_eq_unlines]; exact hw, by simp [RtspInput.new, kCRLF],
      hnonempty, rfl⟩
  let I (s : RtspInput) (reads : List Bytes) (events : List RtspEvent) : Prop :=
    ∃ finished pending todo, OnStream reqs w s reads events finished pending todo
  have hstep (s : RtspInput) (read : Bytes) (reads : List Bytes) (events : List RtspEvent)
      (hI : I s (read :: reads) events) (hp : CleanRead s read ∧ BacklogFits s read) :
      ∃ s' out, s.receive read = .ok (s', out) ∧ I s' reads (events ++ out) := by
    obtain ⟨_,_,_,h⟩ := hI
    exact h.step hplain hp.1 hp.2
  have hI : I (RtspInput.new mem) reads [] := ⟨_, _, _, hstart⟩
  obtain ⟨s,events,hrun,finished,pending,todo,hend⟩ := Runs.run_along I hstep hI hclean
  have hreceived := hend.received_eq hw
  rw [List.nil_append] at hend
  refine ⟨s, events, hrun, ?_, ?_⟩
  · rw [hreceived]
    exact hend.dispatched
  · intro hnil
    have hall : received (reqs ++ []) ((wire reqs).length+0) = reqs := received_append (by simp)
    rw [List.append_nil, Nat.add_zero, ← hw, hnil, List.append_nil, hreceived] at hall
    rw [← hall]
    exact hend.dispatched

def optionsRequest (n : UInt32) : Request :=
  ⟨.OPTIONS, ascii "h", 554, ascii "s", n, [cseqHeader n]⟩

def blankRequest : RtspRequest :=
  ⟨.OPTIONS, .channel_0, .rtpOverTcp, fun _ => none, fun _ => none, .kParseRequestLine⟩

theorem optionsRequest_plain {n : UInt32} (h : n = 1 ∨ n = 2) :
    (optionsRequest n).WellFormed ∧ (optionsRequest n).CSeqFirst := by
  refine ⟨?_, [], [], rfl, by simp⟩
  rcases h with rfl | rfl
  · constructor <;> decide +kernel
  · constructor <;> decide +kernel

/-- A request of which the first twenty bytes come in a read of their own. -/
theorem requests_dispatched_cut : ∃ s events,
    (RtspInput.new blankRequest).receiveAll [(optionsRequest 1).encode.take 20,
      (optionsRequest 1).encode.drop 20] = .ok (s, events) ∧
    dispatches events = [(optionsRequest 1).dispatch] := by
  have hfirst (s' : RtspInput) (out : List RtspEvent)
      (h : (RtspInput.new blankRequest).receive ((optionsRequest 1).encode.take 20) =
        .ok (s', out)) :
      s'.request = RtspRequest.new blankRequest ∧
        s'.buffer.readable = (optionsRequest 1).encode.take 20 := by
    have hproc : process (RtspRequest.new blankRequest) ((optionsRequest 1).encode.take 20) =
        .ok (RtspRequest.new blankRequest, (optionsRequest 1).encode.take 20, []) := rfl
    obtain ⟨buf,hok,hread⟩ := receive_new_ok (by decide) hproc
    rw [hok] at h
    obtain ⟨rfl,_⟩ := Prod.mk.inj (Except.ok.inj h)
    exact ⟨rfl, hread⟩
  obtain ⟨s,events,hrun,_,hall⟩ := requests_dispatched blankRequest [optionsRequest 1]
    [(optionsRequest 1).encode.take 20, (optionsRequest 1).encode.drop 20] []
    (by
      intro r hr
      rw [List.mem_singleton.mp hr]
      exact optionsRequest_plain (Or.inl rfl))
    (by decide) (by decide)
    (by
      refine ⟨⟨?_, ?_⟩, fun s' out h => ⟨⟨?_, ?_⟩, fun _ _ _ => trivial⟩⟩
      · intro m known b hb
        have hnone : headersStage (RtspInput.new blankRequest).request
            ((RtspInput.new blankRequest).buffer.readable ++ (optionsRequest 1).encode.take 20) =
            none := rfl
        rw [hnone] at hb
        contradiction
      · unfold BacklogFits
        decide
      · obtain ⟨h1,h2⟩ := hfirst s' out h
        intro m known b hb n hn
        have hstage : headersStage (RtspRequest.new blankRequest)
            ((optionsRequest 1).encode.take 20 ++ (optionsRequest 1).encode.drop 20) =
            some (.OPTIONS, false, ascii "CSeq: 1\r\n\r\n") := rfl
        rw [h1, h2, hstage] at hb
        obtain ⟨rfl,rfl,rfl⟩ : .OPTIONS = m ∧ false = known ∧ _ = b := by
          simpa using hb
        have hend : findEnd kCRLF (ascii "CSeq: 1\r\n\r\n") = some 9 := by decide
        rw [hend] at hn
        obtain rfl := Option.some.inj hn
        decide
      · obtain ⟨_,h2⟩ := hfirst s' out h
        rw [BacklogFits, h2]
        decide)
  exact ⟨s, events, hrun, hall rfl⟩

/-- Two requests in one read: the second one is taken for headers of the first and is lost. -/
theorem pipelined_request_lost :
    (∀ r ∈ [optionsRequest 1, optionsRequest 2], r.WellFormed ∧ r.CSeqFirst) ∧
    ∃ s events,
      (RtspInput.new blankRequest).receiveAll [wire [optionsRequest 1, optionsRequest 2]] =
        .ok (s, events) ∧
      dispatches events = [(optionsRequest 1).dispatch] ∧
      dispatches events ≠ [optionsRequest 1, optionsRequest 2].map Request.dispatch := by
  constructor
  · intro r hr
    rcases List.mem_cons.mp hr with rfl | hr
    · exact optionsRequest_plain (Or.inl rfl)
    · rw [List.mem_singleton.mp hr]
      exact optionsRequest_plain (Or.inr rfl)
  · have hproc : (process (RtspRequest.new blankRequest)
        (wire [optionsRequest 1, optionsRequest 2])).map (fun x => dispatches x.2.2) =
        .ok [(optionsRequest 1).dispatch] := rfl
    cases hp : process (RtspRequest.new blankRequest)
        (wire [optionsRequest 1, optionsRequest 2]) with
    | error f =>
      rw [hp] at hproc
      contradiction
    | ok x =>
      obtain ⟨buf,hok,_⟩ := receive_new_ok (by decide) hp
      rw [hp] at hproc
      have hone : dispatches (x.2.2 ++ []) = [(optionsRequest 1).dispatch] := by
        rw [List.append_nil]
        exact Except.ok.inj hproc
      have hrun : (RtspInput.new blankRequest).receiveAll
          [wire [optionsRequest 1, optionsRequest 2]] = .ok (⟨x.1, buf⟩, x.2.2 ++ []) :=
        Runs.run_cons_of_ok hok rfl
      refine ⟨_, _, hrun, hone, ?_⟩
      rw [hone]
      decide

end IdealServer
