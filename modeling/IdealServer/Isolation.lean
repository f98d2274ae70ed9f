import IdealServer.Pipelining

/-! A request in a read of its own, after an arbitrary history. Whether it is handled as on a new
connection depends on what the history left behind: the parser's state and the bytes in the
buffer. The parameter maps do not matter, since they are empty whenever a request line is due. -/
namespace IdealServer
open Lines Search

/-- What a call shows: the texts that were taken for a request line and for headers, and what
the handler is told. -/
inductive Seen
  | requestLine (text : Bytes)
  | headersLine (text : Bytes)
  | command (d : Dispatch)
deriving DecidableEq

def RtspEvent.seen : RtspEvent → Seen
  | .requestLine text => .requestLine text
  | .headersLine text => .headersLine text
  | .command r => .command r.dispatch

/-- What is seen of the next read. -/
def RtspInput.seenOf (s : RtspInput) (read : Bytes) : Except Fault (List Seen) :=
  (s.receive read).map (fun x => x.2.map RtspEvent.seen)

/-- What should be seen of a request. -/
def Request.seen (r : Request) : List Seen :=
  [.requestLine r.requestLine, .headersLine r.headerText, .command r.dispatch]

/-- The number behind the first `CSeq` in the headers. -/
def Request.firstCSeq (r : Request) : UInt32 :=
  match search (ascii "CSeq") r.headerText with
  | some pos => RtspRequest.scanCSeq r.headerText pos
  | none => 0

/-- Nothing is left of earlier requests. -/
def RtspInput.Idle (s : RtspInput) : Prop :=
  s.request.state = .kParseRequestLine ∧ s.buffer.readable = []

/-- While a request line is due the two maps are empty. -/
def RtspRequest.Cleared (q : RtspRequest) : Prop :=
  q.state = .kParseRequestLine →
    (q.requestLineParam = fun _ => none) ∧ q.headerLineParam = fun _ => none

section Cleared
variable {q q' : RtspRequest} {ret : Bool} {message : Bytes} {buf buf' : Buffer}
  {events : List RtspEvent}

theorem cleared_reset (q : RtspRequest) : q.reset.Cleared := fun _ => ⟨rfl, rfl⟩

theorem cleared_of_state (h : q.state ≠ .kParseRequestLine) : q.Cleared := fun hs => absurd hs h

/-- A request line is accepted, or nothing but the method changes. -/
theorem parseRequestLine_cases (h : q.parseRequestLine message = .ok (ret, q')) :
    q'.state = .kParseHeadersLine ∨ q' = { q with method := q'.method } := by
  unfold RtspRequest.parseRequestLine at h
  obtain ⟨vals,_,h⟩ := Runs.bind_ok h
  split at h
  case h_2 =>
    obtain ⟨_,rfl⟩ := Prod.mk.inj (Except.ok.inj h)
    exact Or.inr rfl
  case h_1 method url version _ =>
    dsimp only at h
    split at h
    case isTrue =>
      obtain ⟨_,rfl⟩ := Prod.mk.inj (Except.ok.inj h)
      exact Or.inr rfl
    case isFalse =>
      split at h
      case isTrue =>
        obtain ⟨_,rfl⟩ := Prod.mk.inj (Except.ok.inj h)
        exact Or.inr rfl
      case isFalse =>
        obtain ⟨found,_,h⟩ := Runs.bind_ok h
        cases found with
        | none =>
          obtain ⟨_,rfl⟩ := Prod.mk.inj (Except.ok.inj h)
          exact Or.inr rfl
        | some found =>
          obtain ⟨_,rfl⟩ := Prod.mk.inj (Except.ok.inj h)
          exact Or.inl rfl

/-- The headers never lead back to the request line. -/
theorem parseHeaders_state (hq : q.state = .kParseHeadersLine)
    (h : q.parseHeaders buf = .ok (ret, q', buf', events)) : q'.state ≠ .kParseRequestLine := by
  obtain ⟨_,hbytes,_⟩ := @parseHeaders_bytes q buf
  rw [hbytes] at h
  obtain ⟨_,h⟩ := Prod.mk.inj (Except.ok.inj h)
  obtain ⟨rfl,_⟩ := Prod.mk.inj h
  unfold headersBytes
  split
  · rw [hq]
    decide
  · rw [(parseHeadersLine_effect q _).state, hq]
    split <;> decide

theorem parseRequest_cleared (hq : q.Cleared)
    (h : q.parseRequest buf = .ok (ret, q', buf', events)) : q'.Cleared := by
  unfold RtspRequest.parseRequest at h
  obtain ⟨first,_,h⟩ := Runs.bind_ok h
  by_cases hdollar : first = 36
  · rw [if_pos hdollar] at h
    obtain ⟨_,h⟩ := Prod.mk.inj (Except.ok.inj h)
    obtain ⟨rfl,_⟩ := Prod.mk.inj h
    exact hq
  rw [if_neg hdollar] at h
  cases hstate : q.state with
  | kParseHeadersLine =>
    rw [hstate] at h
    exact cleared_of_state (parseHeaders_state hstate h)
  | kGotAll =>
    rw [hstate] at h
    obtain ⟨_,h⟩ := Prod.mk.inj (Except.ok.inj h)
    obtain ⟨rfl,_⟩ := Prod.mk.inj h
    exact hq
  | kParseRequestLine =>
    rw [hstate] at h
    dsimp only at h
    split at h
    · obtain ⟨_,h⟩ := Prod.mk.inj (Except.ok.inj h)
      obtain ⟨rfl,_⟩ := Prod.mk.inj h
      exact hq
    · obtain ⟨⟨ret1,q1⟩,hline,h⟩ := Runs.bind_ok h
      obtain ⟨buf1,_,h⟩ := Runs.bind_ok h
      dsimp only at h
      split at h
      case isTrue hs =>
        obtain ⟨⟨ret2,q2,buf2,events2⟩,hheaders,h⟩ := Runs.bind_ok h
        obtain ⟨_,h⟩ := Prod.mk.inj (Except.ok.inj h)
        obtain ⟨rfl,_⟩ := Prod.mk.inj h
        exact cleared_of_state (parseHeaders_state hs hheaders)
      case isFalse hs =>
        obtain ⟨_,h⟩ := Prod.mk.inj (Except.ok.inj h)
        obtain ⟨rfl,_⟩ := Prod.mk.inj h
        rcases parseRequestLine_cases hline with hs' | hkeep
        · exact absurd hs' hs
        · rw [hkeep]
          exact hq

theorem receive_cleared {s s' : RtspInput} {read : Bytes} {out : List RtspEvent}
    (hs : s.request.Cleared) (h : s.receive read = .ok (s', out)) : s'.request.Cleared := by
  unfold RtspInput.receive handleRtspMessage at h
  obtain ⟨buf1,_,h⟩ := Runs.bind_ok h
  obtain ⟨⟨s1,out1⟩,hreq,h⟩ := Runs.bind_ok h
  -- an oversized backlog is thrown away, which leaves the request as it is
  have hkeep : s'.request = s1.request := by
    dsimp only at h
    split at h <;> exact congrArg (·.1.request) (Except.ok.inj h).symm
  rw [hkeep]
  unfold handleRtspRequest at hreq
  obtain ⟨⟨ret,q,buf2,events⟩,hparse,hreq⟩ := Runs.bind_ok hreq
  have hq := parseRequest_cleared hs hparse
  dsimp only at hreq
  split at hreq
  case isTrue =>
    obtain ⟨rfl,_⟩ := Prod.mk.inj (Except.ok.inj hreq)
    exact hq
  case isFalse =>
    split at hreq
    case isTrue =>
      obtain ⟨buf3,_,hreq⟩ := Runs.bind_ok hreq
      obtain ⟨rfl,_⟩ := Prod.mk.inj (Except.ok.inj hreq)
      exact hq
    case isFalse =>
      split at hreq
      case isTrue =>
        obtain ⟨rfl,_⟩ := Prod.mk.inj (Except.ok.inj hreq)
        exact hq
      case isFalse =>
        obtain ⟨rfl,_⟩ := Prod.mk.inj (Except.ok.inj hreq)
        exact cleared_reset q

/-- The maps of a connection are empty whenever a request line is due. -/
theorem run_cleared {mem : RtspRequest} {s : RtspInput} {reads : List Bytes}
    {out : List RtspEvent} (h : (RtspInput.new mem).receiveAll reads = .ok (s, out)) :
    s.request.Cleared := by
  have hinit : (RtspInput.new mem).request.Cleared := fun _ => ⟨rfl, rfl⟩
  exact Runs.run_preserves (fun s => s.request.Cleared)
    (fun _ _ _ _ hs hr => receive_cleared hs hr) hinit h

end Cleared

section Handled
variable {r : Request} {s : RtspInput}

theorem seenOf_process {read : Bytes} (hne : s.buffer.readable ++ read ≠ []) :
    s.seenOf read = (process s.request (s.buffer.readable ++ read)).map
      (fun x => x.2.2.map RtspEvent.seen) := by
  have hrec := receive_process s read hne
  cases hp : process s.request (s.buffer.readable ++ read) with
  | error f =>
    rw [hp] at hrec
    rw [RtspInput.seenOf, hrec]
    rfl
  | ok x =>
    obtain ⟨buf,hok,_⟩ := receive_ok hne hp
    rw [RtspInput.seenOf, hok]
    rfl

/-- A well-formed request has a `CSeq`, and its headers are complete. -/
theorem headersComplete_headerText (h : r.WellFormed) (known : Bool) :
    r.method.headersComplete known r.headerText = true := by
  have hin : ascii "CSeq" <:+: r.headerText := by
    obtain ⟨pre,post,hsplit⟩ := List.append_of_mem h.cseq_mem
    have hown : ascii "CSeq" <:+: cseqHeader r.cseq :=
      ⟨[], ascii ": " ++ Numeral.decimal r.cseq.toNat, rfl⟩
    apply hown.trans
    rw [Request.headerText, hsplit, unlines_append, unlines_cons]
    exact ⟨unlines kCRLF pre, kCRLF ++ unlines kCRLF post, by simp⟩
  have hsome : (search (ascii "CSeq") r.headerText).isSome = true := by
    cases hs : search (ascii "CSeq") r.headerText with
    | none => exact absurd hin (search_eq_none.mp hs)
    | some pos => rfl
  rw [Method.headersComplete, hsome, h.complete, Bool.or_true]
  rfl

/-- The parser's request after all of `r`. -/
def RtspRequest.parsed (q : RtspRequest) (r : Request) : RtspRequest :=
  ((q.accepted r).parseHeadersLine r.headerText).2

theorem parsed_dispatch (h : r.WellFormed) {q : RtspRequest} (hs : q.state = .kParseRequestLine)
    (hq : q.Cleared) : (q.parsed r).dispatch = ⟨r.method, r.firstCSeq, r.url, r.suffix⟩ := by
  obtain ⟨hline,hheader⟩ := hq hs
  have heff := parseHeadersLine_effect (q.accepted r) r.headerText
  have hcseq : (q.parsed r).headerLineParam .cseq = some ([], r.firstCSeq) := by
    have hc := heff.cseq
    rw [RtspRequest.parseCSeq] at hc
    rw [RtspRequest.parsed, hc]
    unfold Request.firstCSeq
    cases hsearch : search (ascii "CSeq") r.headerText with
    | none =>
      have hcomplete := headersComplete_headerText h false
      rw [Method.headersComplete, hsearch] at hcomplete
      contradiction
    | some pos =>
      apply ParamMap.emplace_of_none
      rw [RtspRequest.accepted, hheader]
  have hreq : (q.parsed r).requestLineParam = RtspRequest.setRequestLineParam (fun _ => none)
      r.url r.host r.port r.suffix Request.version r.method.name := by
    rw [← hline]
    exact heff.requestLineParam
  exact dispatch_eq heff.method hreq hcseq

theorem parsed_gotAll (h : r.WellFormed) (q : RtspRequest) :
    ((q.accepted r).parseHeadersLine r.headerText).1 = true ∧ (q.parsed r).gotAll = true := by
  have heff := parseHeadersLine_effect (q.accepted r) r.headerText
  constructor
  · have hknown := parseCSeq_isSome (q.accepted r) r.headerText
    have hcomplete := headersComplete_headerText h ((q.accepted r).headerLineParam .cseq).isSome
    rw [Method.headersComplete, Bool.and_eq_true] at hcomplete
    rw [heff.ret, heff.cseq, hknown]
    exact hcomplete.1
  · have hcomplete : (q.accepted r).headersComplete r.headerText = true :=
      headersComplete_headerText h _
    have hstate : (q.parsed r).state = .kGotAll := by
      have hs' := heff.state
      rw [hcomplete] at hs'
      exact hs'
    rw [RtspRequest.gotAll, hstate]
    rfl

/-- The headers and the empty line are handed over in one piece. -/
theorem headersBytes_whole (q : RtspRequest) (headers : List Bytes) :
    headersBytes q (unlines kCRLF (headers ++ [[]])) =
      ((q.parseHeadersLine (unlines kCRLF headers)).1, (q.parseHeadersLine (unlines kCRLF headers)).2,
        [], [.headersLine (unlines kCRLF headers)]) := by
  have hunbroken : ¬ kCRLF <:+: [] := by decide
  have hne : headers ++ [[]] ≠ [] := by simp
  obtain ⟨n,hn,htake,hdrop⟩ := findEnd_lines hne hunbroken
  rw [List.append_nil] at hn htake hdrop
  have htext : (unlines kCRLF (headers ++ [[]])).take n = unlines kCRLF headers := by
    have hlast : unlines kCRLF (headers ++ [[]]) = unlines kCRLF headers ++ kCRLF := by
      rw [unlines_append]
      simp
    exact List.append_cancel_right (htake.trans hlast)
  rw [headersBytes, hn]
  dsimp only
  rw [hdrop, htext]

/-- Between requests, a request in a read of its own is handled as itself. -/
theorem process_own (h : r.WellFormed) {q : RtspRequest} (hs : q.state = .kParseRequestLine) :
    process q r.encode = .ok ((q.parsed r).reset, [],
      [.requestLine r.requestLine, .headersLine r.headerText, .command (q.parsed r)]) := by
  have hencode : r.encode = r.requestLine ++ kCRLF ++ unlines kCRLF (r.headers ++ [[]]) := by
    rw [← unlines_cons]
    rfl
  obtain ⟨hret,hgot⟩ := parsed_gotAll h q
  have hheaders : headersBytes (q.accepted r) (unlines kCRLF (r.headers ++ [[]])) =
      (true, q.parsed r, [], [.headersLine r.headerText]) := by
    have hwhole := headersBytes_whole (q.accepted r) r.headers
    rw [show unlines kCRLF r.headers = r.headerText from rfl, hret] at hwhole
    exact hwhole
  obtain ⟨_,_,hproc⟩ := process_requestLine h hs (unlines kCRLF (r.headers ++ [[]]))
  have hshort : ([] : Bytes).length ≤ maxRtspMessageSize := Nat.zero_le _
  have hmethod : (q.parsed r).method = r.method := (parseHeadersLine_effect _ _).method
  rw [hencode, hproc, hheaders, finish_command (by rw [hmethod]; exact h.method_known) hgot hshort]
  rfl

theorem seenOf_new {mem : RtspRequest} {read : Bytes} (hne : read ≠ []) :
    (RtspInput.new mem).seenOf read = (process (RtspRequest.new mem) read).map
      (fun x => x.2.2.map RtspEvent.seen) := by
  have hempty : (RtspInput.new mem).buffer.readable ++ read = read := by
    change Buffer.new.readable ++ read = read
    rw [Buffer.readable_new, List.nil_append]
  rw [seenOf_process (by rwa [hempty]), hempty]
  rfl

theorem encode_ne_nil (h : r.WellFormed) : r.encode ≠ [] := by
  intro hnil
  have hline : r.requestLine = [] := by
    have hall : r.requestLine ++ kCRLF ++ unlines kCRLF (r.headers ++ [[]]) = [] := hnil
    exact (List.append_eq_nil_iff.mp (List.append_eq_nil_iff.mp hall).1).1
  exact (name_token h.method_known).1.1 (List.append_eq_nil_iff.mp hline).1

theorem seenOf_idle (h : r.WellFormed) (hs : s.Idle) (hq : s.request.Cleared) :
    s.seenOf r.encode = .ok [.requestLine r.requestLine, .headersLine r.headerText,
      .command ⟨r.method, r.firstCSeq, r.url, r.suffix⟩] := by
  have hbuf : s.buffer.readable ++ r.encode = r.encode := by
    rw [hs.2, List.nil_append]
  rw [seenOf_process (by rw [hbuf]; exact encode_ne_nil h), hbuf, process_own h hs.1,
    ← parsed_dispatch h hs.1 hq]
  rfl

/-- A connection between requests, on which a whole request arrives. -/
theorem receive_own (h : r.WellFormed) (hs : s.Idle) :
    ∃ s' events, s.receive r.encode = .ok (s', events) ∧
      commandIn events = some (s.request.parsed r) ∧ s'.Idle ∧ s'.request.Cleared := by
  have hbuf : s.buffer.readable ++ r.encode = r.encode := by
    rw [hs.2, List.nil_append]
  obtain ⟨buf,hok,hread⟩ := receive_ok (by rw [hbuf]; exact encode_ne_nil h)
    (by rw [hbuf]; exact process_own h hs.1)
  exact ⟨_, _, hok, rfl, ⟨rfl, hread⟩, cleared_reset _⟩

/-- What follows the parser adds commands only. -/
theorem finish_events {ret : Bool} {q q' : RtspRequest} {b b' : Bytes}
    {events out : List RtspEvent} (h : finish ret q b events = .ok (q', b', out)) :
    out = events ∨ out = events ++ commandOf q := by
  unfold finish at h
  split at h
  case isTrue => exact Or.inl (congrArg (·.2.2) (Except.ok.inj h)).symm
  case isFalse =>
    split at h
    case isTrue =>
      obtain ⟨b1,_,h⟩ := Runs.bind_ok h
      exact Or.inl (congrArg (·.2.2) (Except.ok.inj h)).symm
    case isFalse =>
      split at h
      case isTrue => exact Or.inl (congrArg (·.2.2) (Except.ok.inj h)).symm
      case isFalse => exact Or.inr (congrArg (·.2.2) (Except.ok.inj h)).symm

/-- The texts that one call shows. Only between requests a line and headers are shown together. -/
theorem parseBytes_events {ret : Bool} {q q' : RtspRequest} {b b' : Bytes}
    {events : List RtspEvent} (h : parseBytes q b = .ok (ret, q', b', events)) :
    events = [] ∨ (∃ t, events = [.requestLine t]) ∨ (∃ t, events = [.headersLine t]) ∨
      (q.state = .kParseRequestLine ∧ ∃ n m, search kCRLF b = some n ∧
        findEnd kCRLF (b.drop (n+2)) = some m ∧
        events = [.requestLine (b.take n), .headersLine ((b.drop (n+2)).take m)]) := by
  have hheaders (q : RtspRequest) (b : Bytes) : (headersBytes q b).2.2.2 = [] ∨
      ∃ m, findEnd kCRLF b = some m ∧ (headersBytes q b).2.2.2 = [.headersLine (b.take m)] := by
    unfold headersBytes
    split
    · exact Or.inl rfl
    case h_2 m hm => exact Or.inr ⟨m, hm, rfl⟩
  have hevents {x : Bool × RtspRequest × Bytes × List RtspEvent}
      (h : (.ok x : Except Fault _) = .ok (ret, q', b', events)) : x.2.2.2 = events :=
    congrArg (fun x => x.2.2.2) (Except.ok.inj h)
  unfold parseBytes at h
  split at h
  · exact Or.inl (hevents h).symm
  · cases hstate : q.state with
    | kGotAll =>
      rw [hstate] at h
      exact Or.inl (hevents h).symm
    | kParseHeadersLine =>
      rw [hstate] at h
      rw [← hevents h]
      rcases hheaders q b with hnone | ⟨m,_,hsome⟩
      · exact Or.inl hnone
      · exact Or.inr (Or.inr (Or.inl ⟨_, hsome⟩))
    | kParseRequestLine =>
      rw [hstate] at h
      dsimp only at h
      split at h
      · exact Or.inl (hevents h).symm
      case h_2 n hn =>
        obtain ⟨⟨ret1,q1⟩,_,h⟩ := Runs.bind_ok h
        dsimp only at h
        split at h
        case isFalse => exact Or.inr (Or.inl ⟨_, (hevents h).symm⟩)
        case isTrue =>
          rw [← hevents h]
          dsimp only
          rcases hheaders q1 (b.drop (n+2)) with hnone | ⟨m,hm,hsome⟩
          · exact Or.inr (Or.inl ⟨_, by rw [hnone]⟩)
          · exact Or.inr (Or.inr (Or.inr ⟨rfl, n, m, hn, hm, by rw [hsome]⟩))

/-- If the request line that is taken and the headers behind it have the lengths of the text
that has just arrived, there was nothing in front of it. -/
theorem nothing_before {b text line headers : Bytes} {n m : ℕ}
    (htext : text = line ++ kCRLF ++ (headers ++ kCRLF))
    (hn : search kCRLF (b ++ text) = some n) (hline : (b ++ text).take n = line)
    (hm : findEnd kCRLF ((b ++ text).drop (n+2)) = some m)
    (hheaders : ((b ++ text).drop (n+2)).take m = headers) : b = [] := by
  have hnl := length_of_prefix_drop (search_eq_some hn)
  have hml := length_of_prefix_drop (findEnd_eq_some hm)
  have hcrlf : kCRLF.length = 2 := rfl
  -- the text ends with a line break, and the last one is the one at the end
  have hend : ((b ++ text).drop (n+2)).length = m+2 := by
    have hsuf : kCRLF <:+ (b ++ text).drop (n+2) := by
      apply List.suffix_of_suffix_length_le _ (List.drop_suffix _ _) (by omega)
      rw [htext]
      exact ⟨b ++ (line ++ kCRLF ++ headers), by simp⟩
    obtain ⟨front,hfront⟩ := hsuf
    have hlast : findEnd kCRLF (front ++ kCRLF) = some (front.length+0) :=
      findEnd_append (by decide)
    rw [← hfront, hlast] at hm
    obtain rfl := Option.some.inj hm
    rw [← hfront, List.length_append, hcrlf, Nat.add_zero]
  have h1 := congrArg List.length hline
  have h2 := congrArg List.length hheaders
  have h3 := congrArg List.length htext
  rw [List.length_take] at h1 h2
  simp only [List.length_append, List.length_drop, hcrlf] at *
  apply List.length_eq_zero_iff.mp
  omega

/-- Handled as on a new connection, the request meets a parser that is between requests. -/
theorem idle_of_seenOf {rest : List Seen} (h : r.WellFormed)
    (hseen : s.seenOf r.encode =
      .ok (.requestLine r.requestLine :: .headersLine r.headerText :: rest)) : s.Idle := by
  have hne : s.buffer.readable ++ r.encode ≠ [] := by
    intro hnil
    exact encode_ne_nil h (List.append_eq_nil_iff.mp hnil).2
  rw [seenOf_process hne] at hseen
  cases hp : process s.request (s.buffer.readable ++ r.encode) with
  | error f =>
    rw [hp] at hseen
    contradiction
  | ok x =>
    obtain ⟨q,b,out⟩ := x
    rw [hp] at hseen
    have hout : out.map RtspEvent.seen =
        .requestLine r.requestLine :: .headersLine r.headerText :: rest := Except.ok.inj hseen
    rw [process] at hp
    obtain ⟨⟨ret,q1,b1,events⟩,hparse,hfinish⟩ := Runs.bind_ok hp
    have hcommands : ∃ cs, out = events ++ cs ∧ ∀ e ∈ cs, ∃ q, e = .command q := by
      rcases finish_events hfinish with rfl | rfl
      · exact ⟨[], by simp, by simp⟩
      · refine ⟨_, rfl, ?_⟩
        intro e he
        unfold commandOf at he
        split at he
        · contradiction
        · contradiction
        · exact ⟨q1, List.mem_singleton.mp he⟩
    obtain ⟨cs,rfl,hcs⟩ := hcommands
    have hcommand (x : Seen) (more : List Seen) (he : cs.map RtspEvent.seen = x :: more) :
        ∃ d, x = .command d := by
      obtain ⟨e,es,rfl,rfl,_⟩ := List.map_eq_cons_iff.mp he
      obtain ⟨q,rfl⟩ := hcs e List.mem_cons_self
      exact ⟨_, rfl⟩
    rw [List.map_append] at hout
    rcases parseBytes_events hparse with rfl | ⟨t,rfl⟩ | ⟨t,rfl⟩ | ⟨hstate,n,m,hn,hm,rfl⟩
    · obtain ⟨d,hd⟩ := hcommand _ _ hout
      contradiction
    · obtain ⟨d,hd⟩ := hcommand _ _ (List.cons.inj hout).2
      contradiction
    · -- the request line has been taken for a header
      have hd := (List.cons.inj hout).1
      contradiction
    · obtain ⟨hline,hrest⟩ := List.cons.inj hout
      have hline := Seen.requestLine.inj hline
      have hheaders := Seen.headersLine.inj (List.cons.inj hrest).1
      have htext : r.encode = r.requestLine ++ kCRLF ++ (r.headerText ++ kCRLF) := by
        rw [Request.encode, Request.lines, unlines_cons, unlines_append, Request.headerText]
        simp
      exact ⟨hstate, nothing_before htext hn hline hm hheaders⟩

/-- After any history, a well-formed request in a read of its own is handled as on a new
connection if and only if the history has left nothing behind. What is handled then is the
request itself, if its first `CSeq` is the header that carries the number. -/
theorem request_isolated (mem mem' : RtspRequest) (reads : List Bytes) (s : RtspInput)
    (out : List RtspEvent) (r : Request)
    (hrun : (RtspInput.new mem).receiveAll reads = .ok (s, out)) (hr : r.WellFormed) :
    (s.seenOf r.encode = (RtspInput.new mem').seenOf r.encode ↔ s.Idle) ∧
      (s.seenOf r.encode = .ok r.seen ↔ s.Idle ∧ r.firstCSeq = r.cseq) := by
  have hcleared := run_cleared hrun
  have hnew : (RtspInput.new mem').seenOf r.encode = .ok [.requestLine r.requestLine,
      .headersLine r.headerText, .command ⟨r.method, r.firstCSeq, r.url, r.suffix⟩] :=
    seenOf_idle hr ⟨rfl, Buffer.readable_new⟩ (fun _ => ⟨rfl, rfl⟩)
  constructor
  · constructor
    · intro hsame
      rw [hnew] at hsame
      exact idle_of_seenOf hr hsame
    · intro hidle
      rw [hnew]
      exact seenOf_idle hr hidle hcleared
  · constructor
    · intro hseen
      have hidle := idle_of_seenOf hr hseen
      refine ⟨hidle, ?_⟩
      rw [seenOf_idle hr hidle hcleared] at hseen
      have hd := (List.cons.inj (List.cons.inj (Except.ok.inj hseen)).2).2
      have hcommand := Seen.command.inj (List.cons.inj hd).1
      exact congrArg Dispatch.cseq hcommand
    · rintro ⟨hidle,hcseq⟩
      rw [seenOf_idle hr hidle hcleared, hcseq]
      rfl

end Handled

/-- One request after another. -/
theorem request_isolated_second : ∃ s out,
    (RtspInput.new blankRequest).receiveAll [(optionsRequest 1).encode] = .ok (s, out) ∧
      s.seenOf (optionsRequest 2).encode = .ok (optionsRequest 2).seen := by
  have hstate : (process (RtspRequest.new blankRequest) (optionsRequest 1).encode).map
      (fun x => (x.1.state, x.2.1)) = .ok (.kParseRequestLine, []) := rfl
  cases hp : process (RtspRequest.new blankRequest) (optionsRequest 1).encode with
  | error f =>
    rw [hp] at hstate
    contradiction
  | ok x =>
    obtain ⟨buf,hok,hread⟩ := receive_new_ok (by decide) hp
    rw [hp] at hstate
    obtain ⟨h1,h2⟩ := Prod.mk.inj (Except.ok.inj hstate)
    have hrun : (RtspInput.new blankRequest).receiveAll [(optionsRequest 1).encode] =
        .ok (⟨x.1, buf⟩, x.2.2 ++ []) := Runs.run_cons_of_ok hok rfl
    have hidle : (⟨x.1, buf⟩ : RtspInput).Idle := ⟨h1, hread.trans h2⟩
    obtain ⟨_,hseen⟩ := request_isolated blankRequest blankRequest _ _ _ (optionsRequest 2) hrun
      (optionsRequest_plain (Or.inr rfl)).1
    exact ⟨_, _, hrun, hseen.mpr ⟨hidle, by decide⟩⟩

def unknownRequest : Bytes := ascii "FOO rtsp://h:554/s RTSP/1.0\r\nCSeq: 1\r\n\r\n"

/-- The header of a refused request is taken for the next request line. -/
theorem request_not_isolated : ∃ s out,
    (RtspInput.new blankRequest).receiveAll [unknownRequest] = .ok (s, out) ∧
      (optionsRequest 2).WellFormed ∧
      s.seenOf (optionsRequest 2).encode = .ok [.requestLine (ascii "CSeq: 1")] ∧
      s.seenOf (optionsRequest 2).encode ≠
        (RtspInput.new blankRequest).seenOf (optionsRequest 2).encode := by
  -- the request line is refused, and its header stays in the buffer
  have hnext : ((process (RtspRequest.new blankRequest) unknownRequest).bind
      (fun x => process x.1 (x.2.1 ++ (optionsRequest 2).encode))).map
      (fun x => x.2.2.map RtspEvent.seen) = .ok [.requestLine (ascii "CSeq: 1")] := rfl
  have hnew : (RtspInput.new blankRequest).seenOf (optionsRequest 2).encode =
      .ok (optionsRequest 2).seen := by
    rw [seenOf_new (by decide)]
    rfl
  cases hp : process (RtspRequest.new blankRequest) unknownRequest with
  | error f =>
    rw [hp] at hnext
    cases hnext
  | ok x =>
    obtain ⟨buf,hok,hread⟩ := receive_new_ok (by decide) hp
    have hrun : (RtspInput.new blankRequest).receiveAll [unknownRequest] =
        .ok (⟨x.1, buf⟩, x.2.2 ++ []) := Runs.run_cons_of_ok hok rfl
    have hne : buf.readable ++ (optionsRequest 2).encode ≠ [] := by
      intro hnil
      have hencode : (optionsRequest 2).encode ≠ [] := by decide
      exact hencode (List.append_eq_nil_iff.mp hnil).2
    have hseen : (⟨x.1, buf⟩ : RtspInput).seenOf (optionsRequest 2).encode =
        .ok [.requestLine (ascii "CSeq: 1")] := by
      simp only [hp, Except.bind] at hnext
      rw [seenOf_process hne, hread]
      exact hnext
    refine ⟨_, _, hrun, (optionsRequest_plain (Or.inr rfl)).1, hseen, ?_⟩
    rw [hseen, hnew]
    intro hsame
    have hlength : 1 = 3 := congrArg List.length (Except.ok.inj hsame)
    exact absurd hlength (by decide)

end IdealServer
