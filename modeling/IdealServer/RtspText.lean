import IdealServer.Lines
import IdealServer.RtspMessage

/-! The text of a well-formed request, and what the parser makes of its lines. -/
namespace IdealServer

def Method.name : Method → Bytes
  | .OPTIONS => ascii "OPTIONS"
  | .DESCRIBE => ascii "DESCRIBE"
  | .SETUP => ascii "SETUP"
  | .PLAY => ascii "PLAY"
  | .TEARDOWN => ascii "TEARDOWN"
  | .GET_PARAMETER => ascii "GET_PARAMETER"
  | .RTCP | .NONE => []

/-- A request as a client means it. -/
structure Request where
  method : Method
  host : Bytes
  port : UInt16
  suffix : Bytes
  cseq : UInt32
  headers : List Bytes
deriving DecidableEq

def cseqHeader (n : UInt32) : Bytes := ascii "CSeq: " ++ Numeral.decimal n.toNat

namespace Request
variable (r : Request)

def url : Bytes :=
  ascii "rtsp://" ++ r.host ++ [58] ++ Numeral.decimal r.port.toNat ++ [47] ++ r.suffix

def version : Bytes := ascii "RTSP/1.0"

def requestLine : Bytes := r.method.name ++ 32 :: (r.url ++ 32 :: version)

/-- The lines of the request; the last one is the empty line. -/
def lines : List Bytes := r.requestLine :: (r.headers ++ [[]])

def encode : Bytes := Lines.unlines kCRLF r.lines

/-- What the parser is given as header text if the whole request is read at once. -/
def headerText : Bytes := Lines.unlines kCRLF r.headers

end Request

/-- The test by which `parseHeadersLine` decides that the headers of a method are complete. -/
def Method.complete (m : Method) (message : Bytes) : Bool :=
  match m with
  | .OPTIONS | .TEARDOWN | .GET_PARAMETER => true
  | .DESCRIBE => RtspRequest.parseAccept message
  | .SETUP =>
    (RtspRequest.parseTransport ⟨.SETUP, .channel_0, .rtpOverTcp, fun _ => none, fun _ => none,
      .kParseHeadersLine⟩ message).1
  | .PLAY => RtspRequest.parseSessionId message
  | .RTCP | .NONE => false

/-- What a header line may not contain, of a text that goes into one. -/
theorem unbroken_of_no_cr {t : Bytes} (h : CR ∉ t) : ¬kCRLF <:+: t := by
  intro hin
  exact h (hin.mem List.mem_cons_self)

theorem cr_not_mem_decimal (n : ℕ) : CR ∉ Numeral.decimal n := by
  intro hin
  cases Numeral.isDigit_of_mem_decimal hin

/-- A token of the request line: no white space and no NUL. -/
def IsToken (t : Bytes) : Prop := t ≠ [] ∧ ∀ b ∈ t, Scanf.isSpace b = false ∧ b ≠ 0

instance (t : Bytes) : Decidable (IsToken t) := inferInstanceAs (Decidable (_ ∧ _))

structure Request.WellFormed (r : Request) : Prop where
  method_known : r.method ≠ .RTCP ∧ r.method ≠ .NONE
  host_token : IsToken r.host
  host_length : r.host.length < 16
  host_plain : 58 ∉ r.host ∧ 47 ∉ r.host
  suffix_token : IsToken r.suffix
  suffix_length : r.suffix.length < 64
  url_length : r.url.length < 128
  header_lines : ∀ h ∈ r.headers, h ≠ [] ∧ ¬ kCRLF <:+: h ∧ h.head? ≠ some 36
  cseq_mem : cseqHeader r.cseq ∈ r.headers
  complete : r.method.complete r.headerText = true

/-- The first `CSeq` in the headers is the name of the header that carries the number. -/
def Request.CSeqFirst (r : Request) : Prop :=
  ∃ pre post, r.headers = pre ++ cseqHeader r.cseq :: post ∧
    ∀ h ∈ pre, ¬ ascii "CSeq" <:+: h

section Tokens
variable {t u v rest : Bytes}

theorem name_token {m : Method} (h : m ≠ .RTCP ∧ m ≠ .NONE) :
    IsToken m.name ∧ m.name.length < 32 ∧ Method.ofString m.name = m ∧
      m.name.head? ≠ some 36 := by
  cases m with
  | RTCP => exact absurd rfl h.1
  | NONE => exact absurd rfl h.2
  | _ => decide +kernel

theorem IsToken.head (h : IsToken t) : ∀ b ∈ (t ++ rest).head?, Scanf.isSpace b = false := by
  intro b hb
  obtain ⟨x,xs,rfl⟩ := List.exists_cons_of_ne_nil h.1
  obtain rfl := Option.some.inj hb
  exact (h.2 _ List.mem_cons_self).1

theorem IsToken.append (ht : IsToken t) (hu : IsToken u) : IsToken (t ++ u) := by
  refine ⟨fun hnil => ht.1 (List.append_eq_nil_iff.mp hnil).1, ?_⟩
  intro b hb
  exact (List.mem_append.mp hb).elim (ht.2 b) (hu.2 b)

theorem IsToken.cons {c : UInt8} (hc : Scanf.isSpace c = false ∧ c ≠ 0) (ht : IsToken t) :
    IsToken (c :: t) := ⟨List.cons_ne_nil _ _, List.forall_mem_cons.mpr ⟨hc, ht.2⟩⟩

theorem IsToken.no_cr (h : IsToken t) : CR ∉ t := by
  intro hin
  cases (h.2 CR hin).1

theorem IsToken.scan (h : IsToken t) {cap : ℕ} (hcap : t.length < cap)
    (ds : List Scanf.Directive) (hout : ∀ b ∈ rest.head?, Scanf.isSpace b = true) :
    Scanf.scan (.str cap :: ds) (t ++ rest) = (Scanf.scan ds rest).map (.text t :: ·) :=
  Scanf.scan_str h.1 hcap (fun b hb => (h.2 b hb).1) hout

/-- A token at the end of the input. -/
theorem IsToken.scan_end (h : IsToken t) {cap : ℕ} (hcap : t.length < cap) :
    Scanf.scan [.str cap] t = some [.text t] := by
  have hs : Scanf.scan [.str cap] (t ++ []) = (Scanf.scan [] []).map (.text t :: ·) :=
    h.scan hcap [] (by simp)
  rwa [List.append_nil] at hs

/-- Three tokens, each with room in its array. -/
theorem scan_three_tokens {cap1 cap2 cap3 : ℕ} (ht : IsToken t) (hu : IsToken u) (hv : IsToken v)
    (h1 : t.length < cap1) (h2 : u.length < cap2) (h3 : v.length < cap3) :
    Scanf.scan [.str cap1, .ws, .str cap2, .ws, .str cap3] (t ++ 32 :: (u ++ 32 :: v)) =
      some [.text t, .text u, .text v] := by
  have hspace (s : Bytes) : ∀ b ∈ (32 :: s).head?, Scanf.isSpace b = true := by
    intro b hb
    obtain rfl := Option.some.inj hb
    rfl
  have hvhead : ∀ b ∈ v.head?, Scanf.isSpace b = false := by
    have h : ∀ b ∈ (v ++ []).head?, Scanf.isSpace b = false := hv.head
    rwa [List.append_nil] at h
  rw [ht.scan h1 _ (hspace _), Scanf.scan_ws_space _ rfl, Scanf.scan_ws_none hu.head,
    hu.scan h2 _ (hspace _), Scanf.scan_ws_space _ rfl, Scanf.scan_ws_none hvhead,
    hv.scan_end h3]
  rfl

end Tokens

section RequestLine
variable {r : Request}

theorem digits_token (n : ℕ) : ∀ b ∈ Numeral.decimal n, Scanf.isSpace b = false ∧ b ≠ 0 := by
  intro b hb
  have hd := Numeral.isDigit_of_mem_decimal hb
  refine ⟨Scanf.isDigit_not_space hd, ?_⟩
  rintro rfl
  contradiction

theorem decimal_token (n : ℕ) : IsToken (Numeral.decimal n) :=
  ⟨Numeral.decimal_ne_nil n, digits_token n⟩

theorem scheme_token : IsToken (ascii "rtsp://") := by decide +kernel

/-- `host:port/suffix` -/
theorem portPart_token {host suffix : Bytes} (hhost : IsToken host) (hsuffix : IsToken suffix) (port : ℕ) :
    IsToken (host ++ 58 :: (Numeral.decimal port ++ 47 :: suffix)) := by
  have hcolon : Scanf.isSpace 58 = false ∧ (58 : UInt8) ≠ 0 := by decide
  have hslash : Scanf.isSpace 47 = false ∧ (47 : UInt8) ≠ 0 := by decide
  exact hhost.append (((decimal_token port).append (hsuffix.cons hslash)).cons hcolon)

theorem Request.WellFormed.url_token (h : r.WellFormed) : IsToken r.url := by
  have hurl : r.url = ascii "rtsp://" ++
      (r.host ++ 58 :: (Numeral.decimal r.port.toNat ++ 47 :: r.suffix)) := by simp [Request.url]
  rw [hurl]
  exact scheme_token.append (portPart_token h.host_token h.suffix_token _)

theorem version_token : IsToken Request.version ∧ Request.version.length < 16 := by decide +kernel

/-- The parser finds host, port and suffix in the URL. -/
theorem parseUrl_url (h : r.WellFormed) :
    parseUrl (r.url.drop 7) = .ok (some (r.host, r.port, r.suffix)) := by
  have hdrop : r.url.drop 7 =
      r.host ++ 58 :: (Numeral.decimal r.port.toNat ++ 47 :: r.suffix) := by
    have hlen : (ascii "rtsp://").length = 7 := by decide
    simp only [Request.url, List.append_assoc]
    rw [← hlen, List.drop_left]
    rfl
  have hc : Scanf.cString (r.url.drop 7) = r.url.drop 7 :=
    Scanf.cString_eq (fun b hb => (h.url_token.2 b (List.mem_of_mem_drop hb)).2)
  have hport : r.port.toNat < 2^64 := by
    have := r.port.toNat_lt
    omega
  have hscan : Scanf.scan [.notIn 58 16, .lit 58, .uint 16, .lit 47, .str 64] (r.url.drop 7) =
      some [.text r.host, .num r.port.toNat, .text r.suffix] := by
    have hcolon (s : Bytes) : ∀ b ∈ (58 :: s).head?, b = 58 := by
      intro b hb
      exact (Option.some.inj hb).symm
    have hslash (s : Bytes) : ∀ b ∈ (47 :: s).head?, Numeral.isDigit b = false := by
      intro b hb
      obtain rfl := Option.some.inj hb
      rfl
    rw [hdrop, Scanf.scan_notIn h.host_token.1 h.host_length h.host_plain.1 (hcolon _),
      Scanf.scan_lit, Scanf.scan_uint hport (hslash _), Scanf.scan_lit,
      h.suffix_token.scan_end h.suffix_length]
    have hmod : r.port.toNat%2^16 = r.port.toNat := Nat.mod_eq_of_lt r.port.toNat_lt
    rw [hmod]
    rfl
  have hs : sscanf [.notIn 58 16, .lit 58, .uint 16, .lit 47, .str 64] (r.url.drop 7) =
      .ok [.text r.host, .num r.port.toNat, .text r.suffix] := by
    rw [sscanf, hc, hscan]
  simp only [parseUrl, hs, bind, Except.bind, pure, Except.pure, UInt16.ofNat_toNat]

/-- The three words of a request line are found. -/
theorem sscanf_requestLine {m : Method} (hm : m ≠ .RTCP ∧ m ≠ .NONE) {url : Bytes}
    (hurl : IsToken url) (hlen : url.length < 128) :
    sscanf [.str 32, .ws, .str 128, .ws, .str 16] (m.name ++ 32 :: (url ++ 32 :: Request.version)) =
      .ok [.text m.name, .text url, .text Request.version] := by
  obtain ⟨hname,hnlen,_⟩ := name_token hm
  have hclean : Scanf.cString (m.name ++ 32 :: (url ++ 32 :: Request.version)) =
      m.name ++ 32 :: (url ++ 32 :: Request.version) := by
    apply Scanf.cString_eq
    intro b hb
    simp only [List.mem_append, List.mem_cons] at hb
    rcases hb with hb | rfl | hb | rfl | hb
    · exact (hname.2 b hb).2
    · decide
    · exact (hurl.2 b hb).2
    · decide
    · exact (version_token.1.2 b hb).2
  rw [sscanf, hclean, scan_three_tokens hname hurl version_token.1 hnlen hlen version_token.2]

/-- Three words, of which the first is a method and the second a URL that can be read, are accepted. -/
theorem parseRequestLine_tokens {m : Method} (hm : m ≠ .RTCP ∧ m ≠ .NONE) {url ip suffix : Bytes}
    {port : UInt16} (hurl : IsToken url) (hlen : url.length < 128)
    (hscheme : url.take 7 = ascii "rtsp://")
    (hparse : parseUrl (url.drop 7) = .ok (some (ip, port, suffix))) (q : RtspRequest) :
    q.parseRequestLine (m.name ++ 32 :: (url ++ 32 :: Request.version)) = .ok (true, { q with
      method := m
      requestLineParam := RtspRequest.setRequestLineParam q.requestLineParam url ip port
        suffix Request.version m.name
      state := .kParseHeadersLine }) := by
  have hof := (name_token hm).2.2.1
  simp only [RtspRequest.parseRequestLine, sscanf_requestLine hm hurl hlen, bind, Except.bind, hof,
    hm.2, ↓reduceIte, hscheme, ne_eq, not_true_eq_false, hparse, pure, Except.pure]

/-- The request line of a well-formed request is accepted, with its own values. -/
theorem parseRequestLine_requestLine (h : r.WellFormed) (q : RtspRequest) :
    q.parseRequestLine r.requestLine = .ok (true, { q with
      method := r.method
      requestLineParam := RtspRequest.setRequestLineParam q.requestLineParam r.url r.host r.port
        r.suffix Request.version r.method.name
      state := .kParseHeadersLine }) := by
  have hscheme : r.url.take 7 = ascii "rtsp://" := by
    have hlen : (ascii "rtsp://").length = 7 := by decide
    simp only [Request.url, List.append_assoc]
    rw [← hlen, List.take_left]
  exact parseRequestLine_tokens h.method_known h.url_token h.url_length hscheme (parseUrl_url h) q

end RequestLine

section Headers
variable {hs : List Bytes} {message : Bytes}

theorem cseq_word : ascii "CSeq" ≠ [] ∧ CR ∉ ascii "CSeq" ∧ LF ∉ ascii "CSeq" := by decide

/-- Where no header mentions `CSeq`, the parser finds none. -/
theorem search_cseq_none (hm : message ++ kCRLF = Lines.unlines kCRLF hs)
    (hh : ∀ h ∈ hs, ¬ ascii "CSeq" <:+: h) : Search.search (ascii "CSeq") message = none := by
  obtain ⟨h1,h2,h3⟩ := cseq_word
  rw [Search.search_eq_none]
  intro hi
  have hpre : message <+: Lines.unlines kCRLF hs := ⟨kCRLF, hm⟩
  exact Lines.not_infix_unlines h1 h2 h3 hh (hi.trans hpre.isInfix)

/-- A `CSeq` header is read up to the end of its line. -/
theorem scan_cseqHeader (n : UInt32) {rest : Bytes}
    (hout : ∀ b ∈ rest.head?, Numeral.isDigit b = false) :
    Scanf.scan [.skip 58, .lit 58, .ws, .uint 32] (cseqHeader n ++ rest) = some [.num n.toNat] := by
  have htext : cseqHeader n ++ rest =
      ascii "CSeq" ++ 58 :: 32 :: (Numeral.decimal n.toNat ++ rest) := by
    rw [cseqHeader, List.append_assoc]
    rfl
  have hcolon (s : Bytes) : ∀ b ∈ (58 :: s).head?, b = 58 := by
    intro b hb
    exact (Option.some.inj hb).symm
  have hdigit : ∀ b ∈ (Numeral.decimal n.toNat ++ rest).head?, Scanf.isSpace b = false := by
    intro b hb
    obtain ⟨x,xs,hx,hd⟩ := Scanf.decimal_head n.toNat rest
    rw [hx] at hb
    obtain rfl := Option.some.inj hb
    exact Scanf.isDigit_not_space hd
  have hn : n.toNat < 2^64 := by
    have := n.toNat_lt
    omega
  have hmod : n.toNat%2^32 = n.toNat := Nat.mod_eq_of_lt n.toNat_lt
  rw [htext, Scanf.scan_skip (by decide) (by decide) (hcolon _), Scanf.scan_lit,
    Scanf.scan_ws_space _ rfl, Scanf.scan_ws_none hdigit, Scanf.scan_uint hn hout, hmod]
  rfl

/-- The first `CSeq` is found at its header, and its number is read. -/
theorem search_cseq_some {pre post : List Bytes} (n : UInt32)
    (hm : message ++ kCRLF = Lines.unlines kCRLF (pre ++ cseqHeader n :: post))
    (hpre : ∀ h ∈ pre, ¬ ascii "CSeq" <:+: h) :
    ∃ pos, Search.search (ascii "CSeq") message = some pos ∧
      RtspRequest.scanCSeq message pos = n := by
  obtain ⟨h1,h2,h3⟩ := cseq_word
  have hsplit : message ++ kCRLF = Lines.unlines kCRLF pre ++
      (cseqHeader n ++ (kCRLF ++ Lines.unlines kCRLF post)) := by
    rw [hm, Lines.unlines_append, Lines.unlines_cons, List.append_assoc]
  -- the text ends before the last line break, so something is left of the header's own
  obtain ⟨tail,htail,hhead⟩ : ∃ tail, message = Lines.unlines kCRLF pre ++ cseqHeader n ++ tail ∧
      ∀ b ∈ tail.head?, b = CR := by
    have hlen := congrArg List.length hsplit
    simp only [List.length_append] at hlen
    have hall : Lines.unlines kCRLF pre ++ cseqHeader n <+: message ++ kCRLF := by
      rw [hsplit, ← List.append_assoc]
      exact List.prefix_append _ _
    have hprefix : Lines.unlines kCRLF pre ++ cseqHeader n <+: message := by
      apply List.prefix_of_prefix_length_le hall (List.prefix_append _ _)
      rw [List.length_append]
      omega
    obtain ⟨tail,rfl⟩ := hprefix
    refine ⟨tail, rfl, ?_⟩
    intro b hb
    obtain ⟨ys,hys⟩ := List.head?_eq_some_iff.mp hb
    rw [List.append_assoc, List.append_assoc, List.append_cancel_left_eq,
      List.append_cancel_left_eq, hys] at hsplit
    exact (List.cons.inj hsplit).1
  refine ⟨(Lines.unlines kCRLF pre).length, ?_, ?_⟩
  · apply Search.search_eq
    · rw [htail, List.append_assoc, List.drop_left]
      exact ⟨ascii ": " ++ Numeral.decimal n.toNat ++ tail, by
        simp only [cseqHeader, ← List.append_assoc]
        rfl⟩
    · rw [htail]
      simp only [List.length_append]
      omega
    · intro m hlt
      rw [htail, List.append_assoc]
      exact Lines.not_prefix_unlines h1 h2 h3 hpre hlt
  · have hnul : ∀ b ∈ cseqHeader n, b ≠ 0 := by
      intro b hb
      rcases List.mem_append.mp hb with hb | hb
      · have hall : ∀ b ∈ ascii "CSeq: ", b ≠ 0 := by decide +kernel
        exact hall b hb
      · exact (digits_token _ b hb).2
    have hdigit : ∀ b ∈ (Scanf.cString tail).head?, Numeral.isDigit b = false := by
      intro b hb
      cases tail with
      | nil => cases hb
      | cons x xs =>
        obtain rfl := hhead x rfl
        obtain rfl := Option.some.inj hb
        rfl
    rw [RtspRequest.scanCSeq, htail, List.append_assoc, List.drop_left, Scanf.cString_append hnul,
      scan_cseqHeader n hdigit]
    exact UInt32.ofNat_toNat

/-- What the parser of transports leaves alone, and that its answer depends on the text only. -/
theorem parseTransport_frame (q : RtspRequest) (message : Bytes) :
    (q.parseTransport message).1 = Method.SETUP.complete message ∧
      (q.parseTransport message).2.method = q.method ∧
      (q.parseTransport message).2.requestLineParam = q.requestLineParam ∧
      (q.parseTransport message).2.state = q.state ∧
      (q.parseTransport message).2.headerLineParam .cseq = q.headerLineParam .cseq := by
  have hset (q : RtspRequest) (k l : HeaderLineKey) (a b : UInt16) (hk : k ≠ .cseq)
      (hl : l ≠ .cseq) : (q.setPair k l a b).headerLineParam .cseq = q.headerLineParam .cseq := by
    rw [RtspRequest.setPair]
    dsimp only
    rw [ParamMap.emplace_of_ne _ hl.symm, ParamMap.emplace_of_ne _ hk.symm]
  unfold Method.complete RtspRequest.parseTransport
  cases Search.search (ascii "Transport") message with
  | none => exact ⟨rfl, rfl, rfl, rfl, rfl⟩
  | some _ =>
    dsimp only
    cases Search.search (ascii "RTP/AVP/TCP") message with
    | some pos =>
      dsimp only
      cases RtspRequest.scanPair message pos with
      | none => exact ⟨rfl, rfl, rfl, rfl, rfl⟩
      | some ab => exact ⟨rfl, rfl, rfl, rfl, hset _ _ _ _ _ (by decide) (by decide)⟩
    | none =>
      dsimp only
      cases Search.search (ascii "RTP/AVP") message with
      | none => exact ⟨rfl, rfl, rfl, rfl, rfl⟩
      | some pos =>
        dsimp only
        split
        · cases RtspRequest.scanPair message pos with
          | none => exact ⟨rfl, rfl, rfl, rfl, rfl⟩
          | some ab => exact ⟨rfl, rfl, rfl, rfl, hset _ _ _ _ _ (by decide) (by decide)⟩
        · split
          · exact ⟨rfl, rfl, rfl, rfl, hset _ _ _ _ _ (by decide) (by decide)⟩
          · exact ⟨rfl, rfl, rfl, rfl, rfl⟩

theorem parseCSeq_frame (q : RtspRequest) (message : Bytes) :
    (q.parseCSeq message).2.method = q.method ∧
      (q.parseCSeq message).2.requestLineParam = q.requestLineParam ∧
      (q.parseCSeq message).2.state = q.state := by
  unfold RtspRequest.parseCSeq
  cases Search.search (ascii "CSeq") message with
  | none => exact ⟨rfl, rfl, rfl⟩
  | some pos => exact ⟨rfl, rfl, rfl⟩

/-- The parser goes on if and only if it knows a `CSeq`. -/
theorem parseCSeq_known (q : RtspRequest) (message : Bytes) :
    ((q.parseCSeq message).1 = false ∧ (q.parseCSeq message).2.headerLineParam .cseq = none) ↔
      (q.parseCSeq message).2.headerLineParam .cseq = none := by
  constructor
  · exact And.right
  · intro h
    refine ⟨?_, h⟩
    unfold RtspRequest.parseCSeq at h ⊢
    cases hs : Search.search (ascii "CSeq") message with
    | none => rfl
    | some pos =>
      simp only [hs] at h
      cases hk : q.headerLineParam .cseq with
      | none =>
        rw [ParamMap.emplace_of_none _ hk] at h
        contradiction
      | some v =>
        rw [ParamMap.emplace_of_some _ hk, hk] at h
        contradiction

/-- The headers of a method are complete or not; nothing else that is tested later changes. -/
theorem parseMethodHeaders_effect (q : RtspRequest) (message : Bytes) :
    (q.parseMethodHeaders message).method = q.method ∧
      (q.parseMethodHeaders message).requestLineParam = q.requestLineParam ∧
      (q.parseMethodHeaders message).headerLineParam .cseq = q.headerLineParam .cseq ∧
      (q.parseMethodHeaders message).state =
        if q.method.complete message then .kGotAll else q.state := by
  obtain ⟨h1,h2,h3,h4,h5⟩ := parseTransport_frame q message
  obtain ⟨m,ch,tr,rl,hl,st⟩ := q
  cases m with
  | SETUP =>
    simp only [RtspRequest.parseMethodHeaders]
    rw [← h1]
    split
    · have hch (q : RtspRequest) : q.parseMediaChannel = { q with
          channelId := q.parseMediaChannel.channelId } := by
        unfold RtspRequest.parseMediaChannel
        split
        · split <;> rfl
        · rfl
      rw [hch]
      exact ⟨h2, h3, h5, rfl⟩
    · exact ⟨h2, h3, h5, h4⟩
  | DESCRIBE =>
    simp only [RtspRequest.parseMethodHeaders, Method.complete]
    by_cases h : RtspRequest.parseAccept message = true
    · simp [h]
    · simp [h]
  | PLAY =>
    simp only [RtspRequest.parseMethodHeaders, Method.complete]
    by_cases h : RtspRequest.parseSessionId message = true
    · simp [h]
    · simp [h]
  | _ => exact ⟨rfl, rfl, rfl, rfl⟩

/-- The parser's own test for the end of a request; `known` says whether it has seen `CSeq`. -/
def Method.headersComplete (m : Method) (known : Bool) (message : Bytes) : Bool :=
  (known || (Search.search (ascii "CSeq") message).isSome) && m.complete message

def RtspRequest.headersComplete (q : RtspRequest) (message : Bytes) : Bool :=
  q.method.headersComplete (q.headerLineParam .cseq).isSome message

theorem parseCSeq_isSome (q : RtspRequest) (message : Bytes) :
    ((q.parseCSeq message).2.headerLineParam .cseq).isSome =
      ((q.headerLineParam .cseq).isSome || (Search.search (ascii "CSeq") message).isSome) := by
  unfold RtspRequest.parseCSeq
  cases Search.search (ascii "CSeq") message with
  | none => simp
  | some pos =>
    cases hk : q.headerLineParam .cseq with
    | none => simp [ParamMap.emplace_of_none _ hk]
    | some v => simp [ParamMap.emplace_of_some _ hk, hk]

/-- What one call of `parseHeadersLine` does to the fields that decide how it goes on. -/
structure HeadersEffect (q : RtspRequest) (message : Bytes) (r : Bool × RtspRequest) : Prop where
  method : r.2.method = q.method
  requestLineParam : r.2.requestLineParam = q.requestLineParam
  cseq : r.2.headerLineParam .cseq = (q.parseCSeq message).2.headerLineParam .cseq
  ret : r.1 = (r.2.headerLineParam .cseq).isSome
  state : r.2.state = if q.headersComplete message then .kGotAll else q.state

theorem parseHeadersLine_effect (q : RtspRequest) (message : Bytes) :
    HeadersEffect q message (q.parseHeadersLine message) := by
  obtain ⟨h1,h2,h3⟩ := parseCSeq_frame q message
  have hknown := parseCSeq_known q message
  have hsome := parseCSeq_isSome q message
  have heq : q.parseHeadersLine message =
      if (q.parseCSeq message).1 = false ∧ (q.parseCSeq message).2.headerLineParam .cseq = none then
        (false, (q.parseCSeq message).2)
      else (true, (q.parseCSeq message).2.parseMethodHeaders message) := rfl
  rw [heq]
  by_cases hnone : (q.parseCSeq message).2.headerLineParam .cseq = none
  · rw [if_pos (hknown.mpr hnone)]
    refine ⟨h1, h2, rfl, by rw [hnone]; rfl, ?_⟩
    rw [RtspRequest.headersComplete, Method.headersComplete, ← hsome, hnone]
    exact h3
  · rw [if_neg (fun h => hnone (hknown.mp h))]
    have htrue := Option.isSome_iff_ne_none.mpr hnone
    obtain ⟨g1,g2,g3,g4⟩ := parseMethodHeaders_effect (q.parseCSeq message).2 message
    refine ⟨g1.trans h1, g2.trans h2, g3, by rw [g3, htrue], ?_⟩
    rw [RtspRequest.headersComplete, Method.headersComplete, ← hsome, htrue, Bool.true_and, ← h1, ← h3]
    exact g4

end Headers

end IdealServer
