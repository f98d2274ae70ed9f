import IdealServer.Isolation
import IdealServer.MediaSession
import IdealServer.RtspUrl

/-! `RtspResponse` as a builder of requests, and what a server's parser makes of them. -/
namespace IdealServer
open Lines Search

inductive RtspResponse.Method
  | OPTIONS
  | DESCRIBE
  | ANNOUNCE
  | SETUP
  | RECORD
  | RTCP
  | NONE
deriving DecidableEq, Repr

structure RtspResponse where
  method : RtspResponse.Method
  cseq : UInt32
  userAgent : Bytes
  rtspUrl : Bytes
  session : Bytes

namespace RtspResponse
variable (r : RtspResponse)

/-- What `buildOptionReq` prints into a buffer that is large enough. -/
def optionText : Bytes :=
  ascii "OPTIONS " ++ Scanf.cString r.rtspUrl ++ ascii " RTSP/1.0\r\nCSeq: " ++
    printU (r.cseq+1).toNat ++ ascii "\r\nUser-Agent: " ++ Scanf.cString r.userAgent ++
    ascii "\r\n\r\n"

def buildOptionReq (bufSize : ℕ) : Bytes × RtspResponse :=
  (snprintf bufSize [] r.optionText, { r with method := .OPTIONS })

def describeText : Bytes :=
  ascii "DESCRIBE " ++ Scanf.cString r.rtspUrl ++ ascii " RTSP/1.0\r\nCSeq: " ++
    printU (r.cseq+1).toNat ++ ascii "\r\nAccept: application/sdp\r\nUser-Agent: " ++
    Scanf.cString r.userAgent ++ ascii "\r\n\r\n"

def buildDescribeReq (bufSize : ℕ) : Bytes × RtspResponse :=
  (snprintf bufSize [] r.describeText, { r with method := .DESCRIBE })

/-- The array `interleaved`. -/
def interleaved (trackId : ℤ) : ℕ × ℕ := if trackId = 1 then (2, 3) else (0, 1)

def setupTcpText (trackId : ℤ) : Bytes :=
  ascii "SETUP " ++ Scanf.cString r.rtspUrl ++ ascii "/track" ++ printLD trackId ++
    ascii " RTSP/1.0\r\nTransport: RTP/AVP/TCP;unicast;mode=record;interleaved=" ++
    printU (interleaved trackId).1 ++ ascii "-" ++ printU (interleaved trackId).2 ++
    ascii "\r\nCSeq: " ++ printU (r.cseq+1).toNat ++ ascii "\r\nUser-Agent: " ++
    Scanf.cString r.userAgent ++ ascii "\r\nSession: " ++ Scanf.cString r.session ++
    ascii "\r\n\r\n"

def buildSetupTcpReq (bufSize : ℕ) (trackId : ℤ) : Bytes × RtspResponse :=
  (snprintf bufSize [] (r.setupTcpText trackId), { r with method := .SETUP })

end RtspResponse

/-- The requests that `RtspResponse` can build and a server can handle. -/
inductive ClientRequest
  | option
  | describe
  | setupTcp (trackId : ℤ)

namespace ClientRequest

def text (r : RtspResponse) : ClientRequest → Bytes
  | .option => r.optionText
  | .describe => r.describeText
  | .setupTcp trackId => r.setupTcpText trackId

def build (r : RtspResponse) (bufSize : ℕ) : ClientRequest → Bytes × RtspResponse
  | .option => r.buildOptionReq bufSize
  | .describe => r.buildDescribeReq bufSize
  | .setupTcp trackId => r.buildSetupTcpReq bufSize trackId

/-- The method that the parser should find. -/
def method : ClientRequest → Method
  | .option => .OPTIONS
  | .describe => .DESCRIBE
  | .setupTcp _ => .SETUP

/-- The URL that is written: a SETUP is sent to a track. -/
def url (r : RtspResponse) : ClientRequest → Bytes
  | .option | .describe => r.rtspUrl
  | .setupTcp trackId => r.rtspUrl ++ ascii "/track" ++ printLD trackId

theorem build_text (r : RtspResponse) {bufSize : ℕ} (req : ClientRequest)
    (h : (req.text r).length < bufSize) : (req.build r bufSize).1 = req.text r := by
  have hall (text : Bytes) (hfit : text.length < bufSize) : snprintf bufSize [] text = text :=
    snprintf_fits hfit
  cases req with
  | option => exact hall _ h
  | describe => exact hall _ h
  | setupTcp trackId => exact hall _ h

end ClientRequest

/-- The parser has the whole request, with everything that the client wrote. -/
structure Understood (r : RtspResponse) (req : ClientRequest) (q : RtspRequest) : Prop where
  gotAll : q.gotAll = true
  method : q.method = req.method
  cseq : q.getCSeq = r.cseq+1
  url : q.getRtspUrl = req.url r
  setup : ∀ trackId, req = .setupTcp trackId → q.transport = .rtpOverTcp ∧
    q.getRtpChannel.toNat = (RtspResponse.interleaved trackId).1 ∧
    q.getRtcpChannel.toNat = (RtspResponse.interleaved trackId).2 ∧
    q.channelId = if trackId = 1 then .channel_1 else .channel_0

/-- A fresh parser that finds the text in its buffer understands it and takes all of it. -/
def Agrees (r : RtspResponse) (req : ClientRequest) (bufSize : ℕ) : Prop :=
  ∀ (mem : RtspRequest) (buffer : Buffer), buffer.readable = (req.build r bufSize).1 →
    ∃ q buffer' events, (RtspRequest.new mem).parseRequest buffer = .ok (true, q, buffer', events) ∧
      buffer'.readable = [] ∧ Understood r req q

section Parse
variable {q : RtspRequest} {line rest : Bytes}

/-- A buffer that begins with a line: what the request line leads to. -/
theorem parseBytes_line (hs : q.state = .kParseRequestLine) (hline : ¬kCRLF <:+: line)
    (hne : line ≠ []) (hdollar : line.head? ≠ some 36) :
    parseBytes q (line ++ kCRLF ++ rest) = (q.parseRequestLine line).bind (fun x =>
      if x.2.state = .kParseHeadersLine then
        .ok ((headersBytes x.2 rest).1, (headersBytes x.2 rest).2.1, (headersBytes x.2 rest).2.2.1,
          .requestLine line :: (headersBytes x.2 rest).2.2.2)
      else .ok (x.1, x.2, rest, [.requestLine line])) := by
  have hsearch : search kCRLF (line ++ kCRLF ++ rest) = some line.length :=
    search_line (by decide) hline
  have htake : (line ++ kCRLF ++ rest).take line.length = line := by
    rw [List.append_assoc, List.take_left]
  have hdrop : (line ++ kCRLF ++ rest).drop (line.length+2) = rest := by
    rw [List.append_assoc, ← List.drop_drop, List.drop_left]
    rfl
  have hhead : (line ++ kCRLF ++ rest).head? ≠ some 36 := by
    obtain ⟨x,xs,rfl⟩ := List.exists_cons_of_ne_nil hne
    exact hdollar
  rw [parseBytes, if_neg hhead, hs]
  dsimp only
  rw [hsearch]
  dsimp only
  rw [htake, hdrop]
  rfl

/-- A well-formed request whose text is in the buffer. -/
theorem parseRequest_own {r : Request} (h : r.WellFormed) (mem : RtspRequest) {buffer : Buffer}
    (hb : buffer.readable = r.encode) : ∃ buffer' events,
    (RtspRequest.new mem).parseRequest buffer =
      .ok (true, (RtspRequest.new mem).parsed r, buffer', events) ∧ buffer'.readable = [] := by
  have hencode : r.encode = r.requestLine ++ kCRLF ++ unlines kCRLF (r.headers ++ [[]]) := by
    rw [← unlines_cons]
    rfl
  obtain ⟨hunbroken,hdollar⟩ := h.lines_plain r.requestLine List.mem_cons_self
  have hne : r.requestLine ≠ [] := by
    intro hnil
    exact (name_token h.method_known).1.1 (List.append_eq_nil_iff.mp hnil).1
  obtain ⟨hret,_⟩ := parsed_gotAll h (RtspRequest.new mem)
  have hparse : parseBytes (RtspRequest.new mem) buffer.readable =
      .ok (true, (RtspRequest.new mem).parsed r, [],
        [.requestLine r.requestLine, .headersLine r.headerText]) := by
    have hline : (RtspRequest.new mem).parseRequestLine r.requestLine =
        .ok (true, (RtspRequest.new mem).accepted r) := parseRequestLine_requestLine h _
    rw [hb, hencode, parseBytes_line rfl hunbroken hne hdollar, hline, Except.bind]
    dsimp only
    rw [if_pos (by rfl), headersBytes_whole, show unlines kCRLF r.headers = r.headerText from rfl, hret]
    rfl
  have hbytes := @parseRequest_bytes (RtspRequest.new mem) buffer
    (by rw [hb]; exact encode_ne_nil h)
  rw [hparse] at hbytes
  obtain ⟨buffer',hok,hempty⟩ := hbytes
  exact ⟨buffer', _, hok, hempty⟩

end Parse

theorem cString_no_cr {t : Bytes} (h : CR ∉ t) : CR ∉ Scanf.cString t :=
  fun hin => h ((List.takeWhile_sublist _).mem hin)

section Requests
variable {r : RtspResponse} {host suffix : Bytes} {port : UInt16}

/-- The header with the user agent. -/
def agentHeader (r : RtspResponse) : Bytes := ascii "User-Agent: " ++ Scanf.cString r.userAgent

/-- The two requests without a transport, as a server should see them. -/
def plainRequest (m : Method) (host : Bytes) (port : UInt16) (suffix : Bytes) (r : RtspResponse) :
    Request :=
  ⟨m, host, port, suffix, r.cseq+1, match m with
    | .DESCRIBE => [cseqHeader (r.cseq+1), ascii "Accept: application/sdp", agentHeader r]
    | _ => [cseqHeader (r.cseq+1), agentHeader r]⟩

theorem plainRequest_url (m : Method) :
    (plainRequest m host port suffix r).url = portUrl host port suffix := by
  simp [plainRequest, Request.url, portUrl]

theorem portUrl_clean (h0 : ∀ b ∈ host ++ suffix, b ≠ 0) :
    Scanf.cString (portUrl host port suffix) = portUrl host port suffix := by
  apply Scanf.cString_eq
  intro b hb
  simp only [portUrl, List.mem_append, List.mem_cons] at hb
  rcases hb with hb | hb | rfl | hb | rfl | hb
  · exact (scheme_token.2 b hb).2
  · exact h0 b (List.mem_append_left _ hb)
  · decide
  · exact (digits_token _ b hb).2
  · decide
  · exact h0 b (List.mem_append_right _ hb)

theorem portUrl_token (h : UrlParts host suffix) (h0 : ∀ b ∈ host ++ suffix, b ≠ 0) :
    IsToken (portUrl host port suffix) :=
  scheme_token.append (portPart_token (h.host_token h0) (h.suffix_token h0) _)

theorem portUrl_length (h : UrlParts host suffix) : (portUrl host port suffix).length ≤ 92 := by
  have hdigits : (Numeral.decimal port.toNat).length ≤ 5 := by
    have hport := port.toNat_lt
    exact Numeral.length_decimal_le (by decide) (by omega)
  have hscheme : (ascii "rtsp://").length = 7 := by simp [ascii]
  have hhost := h.host_length
  have hsuffix := h.suffix_length
  simp only [portUrl, List.length_append, List.length_cons, hscheme]
  omega

theorem plainRequest_wellFormed {m : Method} (hm : m = .OPTIONS ∨ m = .DESCRIBE)
    (h : UrlParts host suffix) (h0 : ∀ b ∈ host ++ suffix, b ≠ 0) (hua : CR ∉ r.userAgent) :
    (plainRequest m host port suffix r).WellFormed := by
  have hcseq : cseqHeader (r.cseq+1) ≠ [] ∧ ¬kCRLF <:+: cseqHeader (r.cseq+1) ∧
      (cseqHeader (r.cseq+1)).head? ≠ some 36 := by
    refine ⟨List.cons_ne_nil _ _, ?_, by simp [cseqHeader, ascii]⟩
    apply unbroken_of_no_cr
    intro hin
    rcases List.mem_append.mp hin with hin | hin
    · revert hin
      decide
    · exact cr_not_mem_decimal _ hin
  have hagent : agentHeader r ≠ [] ∧ ¬kCRLF <:+: agentHeader r ∧
      (agentHeader r).head? ≠ some 36 := by
    refine ⟨List.cons_ne_nil _ _, ?_, by simp [agentHeader, ascii]⟩
    apply unbroken_of_no_cr
    intro hin
    rcases List.mem_append.mp hin with hin | hin
    · revert hin
      decide
    · exact cString_no_cr hua hin
  have haccept : ascii "Accept: application/sdp" ≠ [] ∧
      ¬kCRLF <:+: ascii "Accept: application/sdp" ∧
      (ascii "Accept: application/sdp").head? ≠ some 36 := by
    refine ⟨by decide, ?_, by decide⟩
    apply unbroken_of_no_cr
    decide
  have hlen : (plainRequest m host port suffix r).url.length < 128 := by
    have hshort := @portUrl_length host suffix port h
    rw [plainRequest_url]
    omega
  have hknown : m ≠ .RTCP ∧ m ≠ .NONE := by rcases hm with rfl | rfl <;> decide
  refine ⟨hknown, h.host_token h0, h.host_length, h.host_plain, h.suffix_token h0, h.suffix_length,
    hlen, ?_, ?_, ?_⟩
  · intro line hline
    rcases hm with rfl | rfl
    · simp only [plainRequest, List.mem_cons, List.not_mem_nil, or_false] at hline
      rcases hline with rfl | rfl
      · exact hcseq
      · exact hagent
    · simp only [plainRequest, List.mem_cons, List.not_mem_nil, or_false] at hline
      rcases hline with rfl | rfl | rfl
      · exact hcseq
      · exact haccept
      · exact hagent
  · rcases hm with rfl | rfl <;> exact List.mem_cons_self
  · rcases hm with rfl | rfl
    · rfl
    · -- both words are in the header of its own
      have htext : ascii "Accept: application/sdp" <:+:
          (plainRequest .DESCRIBE host port suffix r).headerText := by
        simp only [Request.headerText, plainRequest, unlines_cons, unlines_nil]
        exact ⟨cseqHeader (r.cseq+1) ++ kCRLF, kCRLF ++ (agentHeader r ++ kCRLF ++ []), by
          simp only [List.append_assoc]⟩
      have hword (w : Bytes) (hw : w <:+: ascii "Accept: application/sdp") :
          (findEnd w (plainRequest .DESCRIBE host port suffix r).headerText).isSome = true := by
        cases hfind : findEnd w (plainRequest .DESCRIBE host port suffix r).headerText with
        | some pos => rfl
        | none => exact absurd (hw.trans htext) (findEnd_eq_none.mp hfind)
      have haccept : ascii "Accept" <:+: ascii "Accept: application/sdp" :=
        ⟨[], ascii ": application/sdp", by simp [ascii]⟩
      have hsdp : ascii "sdp" <:+: ascii "Accept: application/sdp" :=
        ⟨ascii "Accept: application/", [], by simp [ascii]⟩
      show RtspRequest.parseAccept _ = true
      rw [RtspRequest.parseAccept, hword _ haccept, hword _ hsdp]
      rfl

theorem plainRequest_encode (h0 : ∀ b ∈ host ++ suffix, b ≠ 0)
    (hurl : r.rtspUrl = portUrl host port suffix) :
    (plainRequest .OPTIONS host port suffix r).encode = r.optionText ∧
      (plainRequest .DESCRIBE host port suffix r).encode = r.describeText := by
  have hclean : Scanf.cString r.rtspUrl = portUrl host port suffix := by
    rw [hurl, portUrl_clean h0]
  have hoptions : ascii "OPTIONS " = Method.OPTIONS.name ++ [32] := by simp [ascii, Method.name]
  have hdescribe : ascii "DESCRIBE " = Method.DESCRIBE.name ++ [32] := by simp [ascii, Method.name]
  have hversion : ascii " RTSP/1.0\r\nCSeq: " =
      32 :: (Request.version ++ (kCRLF ++ ascii "CSeq: ")) := by
    simp [ascii, Request.version, kCRLF, CR, LF]
  have hagent : ascii "\r\nUser-Agent: " = kCRLF ++ ascii "User-Agent: " := by simp [ascii, kCRLF, CR, LF]
  have haccept : ascii "\r\nAccept: application/sdp\r\nUser-Agent: " =
      kCRLF ++ (ascii "Accept: application/sdp" ++ (kCRLF ++ ascii "User-Agent: ")) := by
    simp [ascii, kCRLF, CR, LF]
  have hend : ascii "\r\n\r\n" = kCRLF ++ kCRLF := by simp [ascii, kCRLF, CR, LF]
  constructor
  · rw [RtspResponse.optionText, hclean, hoptions, hversion, hagent, hend, Request.encode,
      Request.lines, Request.requestLine, plainRequest_url]
    simp [plainRequest, agentHeader, cseqHeader, printU]
  · rw [RtspResponse.describeText, hclean, hdescribe, hversion, haccept, hend, Request.encode,
      Request.lines, Request.requestLine, plainRequest_url]
    simp [plainRequest, agentHeader, cseqHeader, printU]

theorem plainRequest_firstCSeq {m : Method} (hm : m = .OPTIONS ∨ m = .DESCRIBE) :
    (plainRequest m host port suffix r).firstCSeq = r.cseq+1 := by
  obtain ⟨post,hpost⟩ : ∃ post, (plainRequest m host port suffix r).headers =
      cseqHeader (r.cseq+1) :: post := by
    rcases hm with rfl | rfl
    · exact ⟨[agentHeader r], rfl⟩
    · exact ⟨[ascii "Accept: application/sdp", agentHeader r], rfl⟩
  have htext : (plainRequest m host port suffix r).headerText ++ kCRLF =
      unlines kCRLF ([] ++ cseqHeader (r.cseq+1) :: (post ++ [[]])) := by
    rw [Request.headerText, hpost]
    simp
  obtain ⟨pos,hsearch,hscan⟩ := search_cseq_some (r.cseq+1) htext (by simp)
  rw [Request.firstCSeq, hsearch]
  exact hscan

/-- The requests without a transport are understood. -/
theorem plain_agrees {req : ClientRequest} (hreq : req = .option ∨ req = .describe)
    (h : UrlParts host suffix) (h0 : ∀ b ∈ host ++ suffix, b ≠ 0)
    (hurl : r.rtspUrl = portUrl host port suffix) (hua : CR ∉ r.userAgent) {bufSize : ℕ}
    (hfit : (req.text r).length < bufSize) : Agrees r req bufSize := by
  intro mem buffer hb
  have hm : req.method = .OPTIONS ∨ req.method = .DESCRIBE := by
    rcases hreq with rfl | rfl
    · exact .inl rfl
    · exact .inr rfl
  have hwf : (plainRequest req.method host port suffix r).WellFormed :=
    plainRequest_wellFormed hm h h0 hua
  have hencode : buffer.readable = (plainRequest req.method host port suffix r).encode := by
    obtain ⟨hoption,hdescribe⟩ := plainRequest_encode h0 hurl
    rw [hb, req.build_text r hfit]
    rcases hreq with rfl | rfl
    · exact hoption.symm
    · exact hdescribe.symm
  obtain ⟨buffer',events,hparse,hempty⟩ := parseRequest_own hwf mem hencode
  have hdispatch := parsed_dispatch hwf (q := RtspRequest.new mem) rfl (fun _ => ⟨rfl, rfl⟩)
  rw [plainRequest_firstCSeq hm, plainRequest_url] at hdispatch
  have hfields := Dispatch.mk.inj hdispatch
  refine ⟨_, buffer', events, hparse, hempty, ?_⟩
  refine ⟨(parsed_gotAll hwf _).2, hfields.1, hfields.2.1, ?_, ?_⟩
  · rw [hfields.2.2.1, ← hurl]
    rcases hreq with rfl | rfl <;> rfl
  · intro trackId hsetup
    rcases hreq with rfl | rfl <;> cases hsetup

end Requests

section Setup
variable {r : RtspResponse} {host suffix : Bytes} {port : UInt16}

/-- The lines behind the request line of a SETUP. -/
def setupHeaders (r : RtspResponse) (trackId : ℤ) : List Bytes :=
  [ascii "Transport: RTP/AVP/TCP;unicast;mode=record;interleaved=" ++
      printU (RtspResponse.interleaved trackId).1 ++ ascii "-" ++
      printU (RtspResponse.interleaved trackId).2,
    cseqHeader (r.cseq+1), agentHeader r, ascii "Session: " ++ Scanf.cString r.session]

/-- The third field of the transport is the mode, so no number stands behind its `=`. -/
theorem setupHeaders_incomplete (trackId : ℤ) :
    Method.SETUP.complete (unlines kCRLF (setupHeaders r trackId)) = false := by
  obtain ⟨tail,htail⟩ : ∃ tail, unlines kCRLF (setupHeaders r trackId) =
      ascii "Transport: RTP/AVP/TCP;unicast;mode=record;interleaved=" ++ tail := by
    simp only [setupHeaders, unlines_cons, List.append_assoc]
    exact ⟨_, rfl⟩
  have hname : search (ascii "Transport")
      (ascii "Transport: RTP/AVP/TCP;unicast;mode=record;interleaved=") = some 0 := by decide
  have htcp : search (ascii "RTP/AVP/TCP")
      (ascii "Transport: RTP/AVP/TCP;unicast;mode=record;interleaved=") = some 11 := by decide
  have hhead (c : UInt8) (s : Bytes) : ∀ x ∈ (c :: s).head?, x = c :=
    fun x hx => (Option.some.inj hx).symm
  have hpair : RtspRequest.scanPair
      (ascii "Transport: RTP/AVP/TCP;unicast;mode=record;interleaved=" ++ tail) 11 = none := by
    have hdrop : (ascii "Transport: RTP/AVP/TCP;unicast;mode=record;interleaved=" ++ tail).drop 11 =
        ascii "RTP/AVP/TCP;unicast;mode=record;interleaved=" ++ tail := rfl
    have hnul : ∀ b ∈ ascii "RTP/AVP/TCP;unicast;mode=record;interleaved=", b ≠ 0 :=
      List.forall_mem_ne'.mpr (by simp [ascii])
    have hwords : ascii "RTP/AVP/TCP;unicast;mode=record;interleaved=" = ascii "RTP/AVP/TCP" ++
        59 :: (ascii "unicast" ++ 59 :: (ascii "mode" ++ 61 :: ascii "record;interleaved=")) := by
      simp [ascii]
    have hscan : Scanf.scan [.skip 59, .lit 59, .skip 59, .lit 59, .skip 61, .lit 61, .uint 16,
        .lit 45, .uint 16] (ascii "RTP/AVP/TCP;unicast;mode=record;interleaved=" ++
          Scanf.cString tail) = some [] := by
      rw [hwords]
      simp only [List.append_assoc, List.cons_append]
      rw [Scanf.scan_skip (by decide) (by decide) (hhead _ _), Scanf.scan_lit,
        Scanf.scan_skip (by decide) (by decide) (hhead _ _), Scanf.scan_lit,
        Scanf.scan_skip (by decide) (by decide) (hhead _ _), Scanf.scan_lit]
      rfl
    rw [RtspRequest.scanPair, hdrop, Scanf.cString_append hnul, hscan]
  rw [htail, Method.complete, RtspRequest.parseTransport, search_append_some hname]
  dsimp only
  rw [search_append_some htcp]
  dsimp only
  rw [hpair]

theorem setupTcpText_eq (h0 : ∀ b ∈ host ++ suffix, b ≠ 0)
    (hurl : r.rtspUrl = portUrl host port suffix) (trackId : ℤ) : r.setupTcpText trackId =
      Method.SETUP.name ++ 32 :: ((portUrl host port suffix ++ (ascii "/track" ++ printLD trackId)) ++
        32 :: Request.version) ++ kCRLF ++ unlines kCRLF (setupHeaders r trackId ++ [[]]) := by
  have hclean : Scanf.cString r.rtspUrl = portUrl host port suffix := by
    rw [hurl, portUrl_clean h0]
  have hsetup : ascii "SETUP " = Method.SETUP.name ++ [32] := by simp [ascii, Method.name]
  have hversion : ascii " RTSP/1.0\r\nTransport: RTP/AVP/TCP;unicast;mode=record;interleaved=" =
      32 :: (Request.version ++ (kCRLF ++
        ascii "Transport: RTP/AVP/TCP;unicast;mode=record;interleaved=")) := by
    simp [ascii, Request.version, kCRLF, CR, LF]
  have hcseq : ascii "\r\nCSeq: " = kCRLF ++ ascii "CSeq: " := by simp [ascii, kCRLF, CR, LF]
  have hagent : ascii "\r\nUser-Agent: " = kCRLF ++ ascii "User-Agent: " := by simp [ascii, kCRLF, CR, LF]
  have hsession : ascii "\r\nSession: " = kCRLF ++ ascii "Session: " := by simp [ascii, kCRLF, CR, LF]
  have hend : ascii "\r\n\r\n" = kCRLF ++ kCRLF := by simp [ascii, kCRLF, CR, LF]
  rw [RtspResponse.setupTcpText, hclean, hsetup, hversion, hcseq, hagent, hsession, hend]
  simp [setupHeaders, agentHeader, cseqHeader, printU]

/-- A request line with a method that is known is an overflow, is refused, or leads to the headers. -/
theorem parseRequestLine_outcome {m : Method} (hm : m ≠ .RTCP ∧ m ≠ .NONE) {url : Bytes}
    (hurl : IsToken url) (hlen : url.length < 128) (q : RtspRequest) :
    (∃ e, q.parseRequestLine (m.name ++ 32 :: (url ++ 32 :: Request.version)) = .error e) ∨
    q.parseRequestLine (m.name ++ 32 :: (url ++ 32 :: Request.version)) =
      .ok (false, { q with method := m }) ∨
    ∃ q1, q.parseRequestLine (m.name ++ 32 :: (url ++ 32 :: Request.version)) = .ok (true, q1) ∧
      q1.method = m ∧ q1.state = .kParseHeadersLine := by
  have hof := (name_token hm).2.2.1
  by_cases hscheme : url.take 7 = ascii "rtsp://"
  · cases hparse : parseUrl (url.drop 7) with
    | error e =>
      refine .inl ⟨e, ?_⟩
      simp only [RtspRequest.parseRequestLine, sscanf_requestLine hm hurl hlen, bind, Except.bind,
        hof, hm.2, ↓reduceIte, hscheme, ne_eq, not_true_eq_false, hparse]
    | ok found =>
      cases found with
      | none =>
        refine .inr (.inl ?_)
        simp only [RtspRequest.parseRequestLine, sscanf_requestLine hm hurl hlen, bind, Except.bind,
          hof, hm.2, ↓reduceIte, hscheme, ne_eq, not_true_eq_false, hparse, pure, Except.pure]
      | some found =>
        obtain ⟨ip,port,suffix⟩ := found
        exact .inr (.inr ⟨_, parseRequestLine_tokens hm hurl hlen hscheme hparse q, rfl, rfl⟩)
  · refine .inr (.inl ?_)
    simp only [RtspRequest.parseRequestLine, sscanf_requestLine hm hurl hlen, bind, Except.bind, hof,
      hm.2, ↓reduceIte, hscheme, ne_eq, not_false_eq_true, pure, Except.pure]

/-- The URL of a track is a word that fits into its array. -/
theorem trackUrl_token (h : UrlParts host suffix) (h0 : ∀ b ∈ host ++ suffix, b ≠ 0) {trackId : ℤ}
    (htrack : trackId = 0 ∨ trackId = 1) :
    IsToken (portUrl host port suffix ++ (ascii "/track" ++ printLD trackId)) ∧
      (portUrl host port suffix ++ (ascii "/track" ++ printLD trackId)).length < 128 := by
  have hword : IsToken (ascii "/track") :=
    ⟨by simp [ascii], by simp [ascii, Scanf.isSpace]⟩
  refine ⟨(portUrl_token h h0).append (hword.append (printLD_token trackId)), ?_⟩
  have hshort := @portUrl_length host suffix port h
  have hlen : (ascii "/track").length = 6 := by simp [ascii]
  have hnumber : (printLD trackId).length = 1 := by rcases htrack with rfl | rfl <;> decide
  rw [List.length_append, List.length_append, hlen, hnumber]
  omega

/-- Whatever the request line leads to, the parser waits for more headers where these are not complete. -/
theorem parseRequest_incomplete {m : Method} (hm : m ≠ .RTCP ∧ m ≠ .NONE) {url : Bytes}
    (hurl : IsToken url) (hlen : url.length < 128) {hs : List Bytes}
    (hcomplete : m.complete (unlines kCRLF hs) = false) {mem q : RtspRequest} {buffer buffer' : Buffer}
    {events : List RtspEvent}
    (hread : buffer.readable =
      m.name ++ 32 :: (url ++ 32 :: Request.version) ++ kCRLF ++ unlines kCRLF (hs ++ [[]]))
    (hparse : (RtspRequest.new mem).parseRequest buffer = .ok (true, q, buffer', events)) :
    q.gotAll = false := by
  obtain ⟨hname,_,_,hdollar⟩ := name_token hm
  have hunbroken : ¬kCRLF <:+: m.name ++ 32 :: (url ++ 32 :: Request.version) := by
    apply unbroken_of_no_cr
    intro hin
    simp only [List.mem_append, List.mem_cons] at hin
    rcases hin with hin | hin | hin | hin | hin
    · exact hname.no_cr hin
    · cases hin
    · exact hurl.no_cr hin
    · cases hin
    · exact version_token.1.no_cr hin
  have hne : m.name ++ 32 :: (url ++ 32 :: Request.version) ≠ [] := by simp
  have hhead : (m.name ++ 32 :: (url ++ 32 :: Request.version)).head? ≠ some 36 := by
    rwa [List.head?_append_of_ne_nil _ hname.1]
  have hbytes := @parseRequest_bytes (RtspRequest.new mem) buffer (by rw [hread]; simp)
  rw [hread, parseBytes_line rfl hunbroken hne hhead] at hbytes
  rcases parseRequestLine_outcome hm hurl hlen (RtspRequest.new mem) with
    ⟨e,hline⟩ | hline | ⟨q1,hline,hmethod,hstate⟩
  · rw [hline] at hbytes
    rw [show (RtspRequest.new mem).parseRequest buffer = .error e from hbytes] at hparse
    cases hparse
  · rw [hline] at hbytes
    obtain ⟨_,hok,_⟩ := hbytes
    rw [hok] at hparse
    cases (Prod.mk.inj (Except.ok.inj hparse)).1
  · rw [hline, Except.bind] at hbytes
    dsimp only at hbytes
    rw [if_pos hstate, headersBytes_whole] at hbytes
    obtain ⟨_,hok,_⟩ := hbytes
    rw [hok] at hparse
    have hq := (Prod.mk.inj (Prod.mk.inj (Except.ok.inj hparse)).2).1
    have hincomplete : q1.headersComplete (unlines kCRLF hs) = false := by
      rw [RtspRequest.headersComplete, hmethod, Method.headersComplete, hcomplete, Bool.and_false]
    have heff := (parseHeadersLine_effect q1 (unlines kCRLF hs)).state
    rw [hincomplete, if_neg Bool.false_ne_true, hstate] at heff
    rw [← hq, RtspRequest.gotAll, heff]
    rfl

/-- The headers of a SETUP are never complete. -/
theorem setup_never_agrees (h : UrlParts host suffix) (h0 : ∀ b ∈ host ++ suffix, b ≠ 0)
    (hurl : r.rtspUrl = portUrl host port suffix) {trackId : ℤ} (htrack : trackId = 0 ∨ trackId = 1)
    {bufSize : ℕ} (hfit : ((ClientRequest.setupTcp trackId).text r).length < bufSize) :
    ¬Agrees r (.setupTcp trackId) bufSize := by
  intro hagrees
  obtain ⟨buffer,_,hread⟩ := Buffer.new.append_ok ((ClientRequest.setupTcp trackId).text r)
  rw [Buffer.readable_new, List.nil_append] at hread
  obtain ⟨q,buffer',events,hparse,_,hunderstood⟩ := hagrees blankRequest buffer
    (by rw [hread, ClientRequest.build_text r _ hfit])
  obtain ⟨htoken,hlen⟩ := @trackUrl_token host suffix port h h0 trackId htrack
  have hopen : q.gotAll = false :=
    parseRequest_incomplete (by decide) htoken hlen (setupHeaders_incomplete trackId)
      (hread.trans (setupTcpText_eq h0 hurl trackId)) hparse
  exact Bool.false_ne_true (hopen.symm.trans hunderstood.gotAll)

end Setup

/-- The parser understands what the builder writes, except that it never understands a SETUP. -/
theorem request_agrees_iff (r : RtspResponse) (req : ClientRequest) (host suffix : Bytes)
    (port : UInt16) (h : UrlParts host suffix) (h0 : ∀ b ∈ host ++ suffix, b ≠ 0)
    (hurl : r.rtspUrl = portUrl host port suffix) (hua : CR ∉ r.userAgent)
    (htrack : ∀ trackId, req = .setupTcp trackId → trackId = 0 ∨ trackId = 1) (bufSize : ℕ)
    (hfit : (req.text r).length < bufSize) :
    Agrees r req bufSize ↔ ∀ trackId, req ≠ .setupTcp trackId := by
  cases req with
  | option =>
    refine iff_of_true (plain_agrees (.inl rfl) h h0 hurl hua hfit) ?_
    intro trackId hreq
    cases hreq
  | describe =>
    refine iff_of_true (plain_agrees (.inr rfl) h h0 hurl hua hfit) ?_
    intro trackId hreq
    cases hreq
  | setupTcp trackId =>
    refine iff_of_false (setup_never_agrees h h0 hurl (htrack trackId rfl) hfit) ?_
    intro hnot
    exact hnot trackId rfl

/-- A client of the camera `cam`. -/
def camClient : RtspResponse :=
  ⟨.NONE, 7, ascii "player", portUrl (ascii "cam") 554 (ascii "live:a"), []⟩

theorem camClient_describe : Agrees camClient .describe 512 := by
  apply (request_agrees_iff camClient .describe (ascii "cam") (ascii "live:a") 554 camLive_parts
    camLive_no_nul rfl (by decide) _ 512 (by decide)).mpr
  · intro trackId hreq
    cases hreq
  · intro trackId hreq
    cases hreq

theorem camClient_setup_fails : ¬Agrees camClient (.setupTcp 0) 512 := by
  apply setup_never_agrees camLive_parts camLive_no_nul rfl (.inl rfl)
  have hurl : (Scanf.cString camClient.rtspUrl).length ≤ 92 := by
    rw [show camClient.rtspUrl = portUrl (ascii "cam") 554 (ascii "live:a") from rfl,
      portUrl_clean camLive_no_nul]
    exact portUrl_length camLive_parts
  have hagent : (Scanf.cString camClient.userAgent).length = 6 := by decide
  have hcseq : (printU (camClient.cseq+1).toNat).length = 1 := by decide
  have hfirst : (printU (RtspResponse.interleaved 0).1).length = 1 := by decide
  have hsecond : (printU (RtspResponse.interleaved 0).2).length = 1 := by decide
  have htrack : (printLD 0).length = 1 := by decide
  have hsession : (Scanf.cString camClient.session).length = 0 := by decide
  show (camClient.setupTcpText 0).length < 512
  simp only [RtspResponse.setupTcpText, List.length_append, hagent, hcseq, hfirst, hsecond, htrack,
    hsession]
  simp only [ascii, List.length_map]
  simp
  omega

end IdealServer
