import IdealServer.RtspText

/-! The responses that a `RtspRequest` builds, as lines of text: status, `CSeq`, further headers, an
empty line, and behind it the body. -/
namespace IdealServer
open Lines

inductive ServerResponse
  | option
  | describe (strSdp : Bytes)
  | setupTcp (rtpChn rtcpChn : UInt16) (sessionId : UInt32)
  | setupUdp (rtpChn rtcpChn : UInt16) (sessionId : UInt32)
  | play (rtpInfo : Option Bytes) (sessionId : UInt32)
  | teardown (sessionId : UInt32)
  | getParamter (sessionId : UInt32)
  | notFound
  | serverError
  | unsupported

namespace ServerResponse

/-- The call of the builder. -/
def build (q : RtspRequest) (bufSize : ℕ) : ServerResponse → Bytes
  | .option => q.buildOptionRes bufSize
  | .describe strSdp => q.buildDescribeRes bufSize strSdp
  | .setupTcp rtpChn rtcpChn sessionId => q.buildSetupTcpRes bufSize rtpChn rtcpChn sessionId
  | .setupUdp rtpChn rtcpChn sessionId => q.buildSetupUdpRes bufSize rtpChn rtcpChn sessionId
  | .play rtpInfo sessionId => q.buildPlayRes bufSize rtpInfo sessionId
  | .teardown sessionId => q.buildTeardownRes bufSize sessionId
  | .getParamter sessionId => q.buildGetParamterRes bufSize sessionId
  | .notFound => q.buildNotFoundRes bufSize
  | .serverError => q.buildServerErrorRes bufSize
  | .unsupported => q.buildUnsupportedRes bufSize

def status : ServerResponse → Bytes
  | .notFound => ascii "RTSP/1.0 404 Stream Not Found"
  | .serverError => ascii "RTSP/1.0 500 Internal Server Error"
  | .unsupported => ascii "RTSP/1.0 461 Unsupported transport"
  | _ => ascii "RTSP/1.0 200 OK"

/-- The builders that print the number with `%d`. -/
def signed : ServerResponse → Bool
  | .play .. | .teardown _ | .getParamter _ | .unsupported => true
  | _ => false

def printCSeq (resp : ServerResponse) (n : UInt32) : Bytes :=
  if resp.signed then printD n else printU n.toNat

def sessionField (sessionId : UInt32) : Bytes := ascii "Session: " ++ printU sessionId.toNat

/-- The headers behind `CSeq`. -/
def fields (q : RtspRequest) : ServerResponse → List Bytes
  | .option => [ascii "Public: OPTIONS, DESCRIBE, SETUP, TRARDOWN, PLAT"]
  | .describe strSdp =>
    [ascii "Content-Length: " ++ printU strSdp.length, ascii "Content-Type: application/sdp"]
  | .setupTcp rtpChn rtcpChn sessionId =>
    [ascii "Transport: RTP/AVP/TCP;unicast;interleaved=" ++
      (printU rtpChn.toNat ++ (ascii "-" ++ printU rtcpChn.toNat)), sessionField sessionId]
  | .setupUdp rtpChn rtcpChn sessionId =>
    [ascii "Transport: RTP/AVP;unicast;client_port=" ++ (printU q.getRtpPort.toNat ++
      (ascii "-" ++ (printU q.getRtcpPort.toNat ++ (ascii ";server_port=" ++
      (printU rtpChn.toNat ++ (ascii "-" ++ printU rtcpChn.toNat)))))), sessionField sessionId]
  | .play rtpInfo sessionId =>
    ascii "Range: npt=0.000-" :: (sessionField sessionId ++ ascii "; timeout=60") :: rtpInfo.toList
  | .teardown sessionId | .getParamter sessionId => [sessionField sessionId]
  | .notFound | .serverError | .unsupported => []

def body : ServerResponse → Bytes
  | .describe strSdp => strSdp
  | _ => []

def headers (q : RtspRequest) (resp : ServerResponse) : List Bytes :=
  resp.status :: (ascii "CSeq: " ++ resp.printCSeq q.getCSeq) :: resp.fields q

def text (q : RtspRequest) (resp : ServerResponse) : Bytes :=
  unlines kCRLF (resp.headers q ++ [[]]) ++ resp.body

end ServerResponse

/-- Where the literals of the format strings are broken into lines. -/
theorem ok_literal : ascii "RTSP/1.0 200 OK\r\nCSeq: " =
    ascii "RTSP/1.0 200 OK" ++ (kCRLF ++ ascii "CSeq: ") := by simp [ascii, kCRLF, CR, LF]

theorem public_literal : ascii "\r\nPublic: OPTIONS, DESCRIBE, SETUP, TRARDOWN, PLAT\r\n\r\n" =
    kCRLF ++ (ascii "Public: OPTIONS, DESCRIBE, SETUP, TRARDOWN, PLAT" ++ (kCRLF ++ kCRLF)) := by
  simp [ascii, kCRLF, CR, LF]

theorem length_literal : ascii "\r\nContent-Length: " = kCRLF ++ ascii "Content-Length: " := by simp [ascii, kCRLF, CR, LF]

theorem type_literal : ascii "\r\nContent-Type: application/sdp\r\n\r\n" =
    kCRLF ++ (ascii "Content-Type: application/sdp" ++ (kCRLF ++ kCRLF)) := by simp [ascii, kCRLF, CR, LF]

theorem tcp_literal : ascii "\r\nTransport: RTP/AVP/TCP;unicast;interleaved=" =
    kCRLF ++ ascii "Transport: RTP/AVP/TCP;unicast;interleaved=" := by simp [ascii, kCRLF, CR, LF]

theorem udp_literal : ascii "\r\nTransport: RTP/AVP;unicast;client_port=" =
    kCRLF ++ ascii "Transport: RTP/AVP;unicast;client_port=" := by simp [ascii, kCRLF, CR, LF]

theorem session_literal : ascii "\r\nSession: " = kCRLF ++ ascii "Session: " := by simp [ascii, kCRLF, CR, LF]

theorem range_literal : ascii "\r\nRange: npt=0.000-\r\nSession: " =
    kCRLF ++ (ascii "Range: npt=0.000-" ++ (kCRLF ++ ascii "Session: ")) := by simp [ascii, kCRLF, CR, LF]

theorem timeout_literal : ascii "; timeout=60\r\n" = ascii "; timeout=60" ++ kCRLF := by simp [ascii, kCRLF, CR, LF]

theorem blank_literal : ascii "\r\n\r\n" = kCRLF ++ kCRLF := by simp [ascii, kCRLF, CR, LF]

theorem crlf_literal : ascii "\r\n" = kCRLF := by simp [ascii, kCRLF, CR, LF]

theorem notFound_literal : ascii "RTSP/1.0 404 Stream Not Found\r\nCSeq: " =
    ascii "RTSP/1.0 404 Stream Not Found" ++ (kCRLF ++ ascii "CSeq: ") := by simp [ascii, kCRLF, CR, LF]

theorem serverError_literal : ascii "RTSP/1.0 500 Internal Server Error\r\nCSeq: " =
    ascii "RTSP/1.0 500 Internal Server Error" ++ (kCRLF ++ ascii "CSeq: ") := by simp [ascii, kCRLF, CR, LF]

theorem unsupported_literal : ascii "RTSP/1.0 461 Unsupported transport\r\nCSeq: " =
    ascii "RTSP/1.0 461 Unsupported transport" ++ (kCRLF ++ ascii "CSeq: ") := by simp [ascii, kCRLF, CR, LF]

/-- No builder does more than to cut its text. -/
theorem ServerResponse.build_eq (q : RtspRequest) (bufSize : ℕ) (resp : ServerResponse) :
    resp.build q bufSize = snprintf bufSize [] (resp.text q) := by
  cases resp with
  | option =>
    rw [build, RtspRequest.buildOptionRes, ok_literal, public_literal]
    simp [text, headers, status, printCSeq, signed, fields, body]
  | describe strSdp =>
    rw [build, RtspRequest.buildDescribeRes, ok_literal, length_literal, type_literal]
    simp [text, headers, status, printCSeq, signed, fields, body]
  | setupTcp rtpChn rtcpChn sessionId =>
    rw [build, RtspRequest.buildSetupTcpRes, ok_literal, tcp_literal, session_literal, blank_literal]
    simp [text, headers, status, printCSeq, signed, fields, sessionField, body]
  | setupUdp rtpChn rtcpChn sessionId =>
    rw [build, RtspRequest.buildSetupUdpRes, ok_literal, udp_literal, session_literal, blank_literal]
    simp [text, headers, status, printCSeq, signed, fields, sessionField, body]
  | play rtpInfo sessionId =>
    -- each `snprintf` begins where the text of the last one ends
    cases rtpInfo with
    | none =>
      simp only [build, RtspRequest.buildPlayRes, ok_literal, range_literal, timeout_literal,
        crlf_literal, snprintf_snprintf]
      simp [text, headers, status, printCSeq, signed, fields, sessionField, body]
    | some info =>
      simp only [build, RtspRequest.buildPlayRes, ok_literal, range_literal, timeout_literal,
        crlf_literal, snprintf_snprintf]
      simp [text, headers, status, printCSeq, signed, fields, sessionField, body]
  | teardown sessionId =>
    rw [build, RtspRequest.buildTeardownRes, ok_literal, session_literal, blank_literal]
    simp [text, headers, status, printCSeq, signed, fields, sessionField, body]
  | getParamter sessionId =>
    rw [build, RtspRequest.buildGetParamterRes, ok_literal, session_literal, blank_literal]
    simp [text, headers, status, printCSeq, signed, fields, sessionField, body]
  | notFound =>
    rw [build, RtspRequest.buildNotFoundRes, notFound_literal, blank_literal]
    simp [text, headers, status, printCSeq, signed, fields, body]
  | serverError =>
    rw [build, RtspRequest.buildServerErrorRes, serverError_literal, blank_literal]
    simp [text, headers, status, printCSeq, signed, fields, body]
  | unsupported =>
    rw [build, RtspRequest.buildUnsupportedRes, unsupported_literal, blank_literal]
    simp [text, headers, status, printCSeq, signed, fields, body]

theorem ServerResponse.build_text {q : RtspRequest} {bufSize : ℕ} {resp : ServerResponse}
    (h : (resp.text q).length < bufSize) : resp.build q bufSize = resp.text q := by
  rw [resp.build_eq q bufSize, snprintf_fits, List.nil_append]
  rwa [List.nil_append]

/-- A text that can be a part of a header. -/
def Clean (t : Bytes) : Prop := ∀ b ∈ t, b ≠ CR ∧ b ≠ 0

instance (t : Bytes) : Decidable (Clean t) := List.decidableBAll _ t

section Clean
variable {t u : Bytes}

theorem Clean.append (ht : Clean t) (hu : Clean u) : Clean (t ++ u) := by
  intro b hb
  exact (List.mem_append.mp hb).elim (ht b) (hu b)

theorem Clean.unbroken (h : Clean t) : ¬kCRLF <:+: t :=
  unbroken_of_no_cr (fun hin => (h CR hin).1 rfl)

theorem clean_printU (n : ℕ) : Clean (printU n) := by
  intro b hb
  refine ⟨?_, (digits_token n b hb).2⟩
  rintro rfl
  exact cr_not_mem_decimal n hb

theorem clean_printD (x : UInt32) : Clean (printD x) := by
  unfold printD
  split
  · exact clean_printU _
  · show Clean ([45] ++ printU (2^32-x.toNat))
    exact Clean.append (by decide) (clean_printU _)

end Clean

/-- What `buildPlayRes` is handed as `rtpInfo` is a header of its own, or nothing. -/
def ServerResponse.OwnHeader : ServerResponse → Prop
  | .play (some info) _ => Clean info ∧ info ≠ [] ∧ ¬ascii "CSeq:" <+: info
  | _ => True

/-- The builders are handed C strings. The server hands `nullptr` as `rtpInfo`. -/
structure ServerResponse.Plain (resp : ServerResponse) : Prop where
  ownHeader : resp.OwnHeader
  body_no_nul : ∀ b ∈ resp.body, b ≠ 0

namespace ServerResponse
variable {q : RtspRequest} {resp : ServerResponse}

/-- The status lines. -/
theorem status_plain (resp : ServerResponse) :
    Clean resp.status ∧ resp.status ≠ [] ∧ ¬ascii "CSeq:" <+: resp.status := by
  have hall : ∀ l ∈ [ascii "RTSP/1.0 200 OK", ascii "RTSP/1.0 404 Stream Not Found",
      ascii "RTSP/1.0 500 Internal Server Error", ascii "RTSP/1.0 461 Unsupported transport"],
      Clean l ∧ l ≠ [] ∧ ¬ascii "CSeq:" <+: l := by decide
  apply hall
  cases resp <;> simp [status]

theorem clean_printCSeq (n : UInt32) : Clean (resp.printCSeq n) := by
  unfold printCSeq
  split
  · exact clean_printD n
  · exact clean_printU _

/-- A header with another name than `CSeq`. -/
structure Field (l : Bytes) : Prop where
  clean : Clean l
  ne_nil : l ≠ []
  other : ¬ascii "CSeq:" <+: l

theorem Field.append {name value : Bytes} (h : Clean name ∧ 5 ≤ name.length ∧
    ¬ascii "CSeq:" <+: name) (hv : Clean value) : Field (name ++ value) := by
  obtain ⟨hclean,hlen,hother⟩ := h
  refine ⟨hclean.append hv, ?_, ?_⟩
  · intro hnil
    rw [(List.append_eq_nil_iff.mp hnil).1] at hlen
    contradiction
  · intro hpre
    exact hother (List.prefix_of_prefix_length_le hpre (List.prefix_append _ _) hlen)

theorem fields_other (h : resp.OwnHeader) : ∀ l ∈ resp.fields q, Field l := by
  have hsession (sessionId : UInt32) : Field (sessionField sessionId) :=
    Field.append (by decide) (clean_printU _)
  have hdash : Clean (ascii "-") := by decide
  intro l hl
  cases resp with
  | option =>
    obtain rfl := List.mem_singleton.mp hl
    exact ⟨by decide, by decide, by decide⟩
  | describe strSdp =>
    simp only [fields, List.mem_cons, List.not_mem_nil, or_false] at hl
    rcases hl with rfl | rfl
    · exact Field.append (by decide) (clean_printU _)
    · exact ⟨by decide, by decide, by decide⟩
  | setupTcp rtpChn rtcpChn sessionId =>
    simp only [fields, List.mem_cons, List.not_mem_nil, or_false] at hl
    rcases hl with rfl | rfl
    · apply Field.append (by decide)
      exact (clean_printU _).append (hdash.append (clean_printU _))
    · exact hsession sessionId
  | setupUdp rtpChn rtcpChn sessionId =>
    simp only [fields, List.mem_cons, List.not_mem_nil, or_false] at hl
    rcases hl with rfl | rfl
    · have hserver : Clean (ascii ";server_port=") := by decide
      apply Field.append (by decide)
      apply (clean_printU _).append (hdash.append ((clean_printU _).append _))
      exact hserver.append ((clean_printU _).append (hdash.append (clean_printU _)))
    · exact hsession sessionId
  | play rtpInfo sessionId =>
    simp only [fields, List.mem_cons, Option.mem_toList] at hl
    rcases hl with rfl | rfl | hinfo
    · exact ⟨by decide, by decide, by decide⟩
    · have htimeout : Clean (ascii "; timeout=60") := by decide
      rw [sessionField, List.append_assoc]
      exact Field.append (by decide) ((clean_printU _).append htimeout)
    · subst hinfo
      exact ⟨h.1, h.2.1, h.2.2⟩
  | teardown sessionId | getParamter sessionId =>
    obtain rfl := List.mem_singleton.mp hl
    exact hsession sessionId
  | notFound | serverError | unsupported => cases hl

/-- Each header is a line of its own. -/
theorem headers_clean (h : resp.OwnHeader) : ∀ l ∈ resp.headers q, Clean l ∧ l ≠ [] := by
  intro l hl
  simp only [headers, List.mem_cons] at hl
  rcases hl with rfl | rfl | hl
  · exact ⟨resp.status_plain.1, resp.status_plain.2.1⟩
  · have hname : Clean (ascii "CSeq: ") := by decide
    exact ⟨hname.append (clean_printCSeq _), List.cons_ne_nil _ _⟩
  · exact ⟨(fields_other h l hl).clean, (fields_other h l hl).ne_nil⟩

theorem headers_unbroken (h : resp.OwnHeader) : ∀ l ∈ resp.headers q, l ≠ [] ∧ ¬kCRLF <:+: l := by
  intro l hl
  obtain ⟨hclean,hne⟩ := headers_clean h l hl
  exact ⟨hne, hclean.unbroken⟩

/-- The only header called `CSeq` is the one with the number. -/
theorem headers_cseq (h : resp.OwnHeader) :
    (resp.headers q).filter (fun l => (ascii "CSeq:").isPrefixOf l) =
      [ascii "CSeq: " ++ resp.printCSeq q.getCSeq] := by
  have hstatus : ¬(ascii "CSeq:").isPrefixOf resp.status = true := by
    rw [List.isPrefixOf_iff_prefix]
    exact resp.status_plain.2.2
  have hcseq (digits : Bytes) : (ascii "CSeq:").isPrefixOf (ascii "CSeq: " ++ digits) = true := rfl
  have hrest : (resp.fields q).filter (fun l => (ascii "CSeq:").isPrefixOf l) = [] := by
    rw [List.filter_eq_nil_iff]
    intro l hl
    rw [List.isPrefixOf_iff_prefix]
    exact (fields_other h l hl).other
  rw [headers, List.filter_cons_of_neg hstatus, List.filter_cons_of_pos (hcseq _), hrest]

/-- There is no NUL in the text. -/
theorem text_no_nul (h : resp.Plain) : ∀ b ∈ resp.text q, b ≠ 0 := by
  intro b hb
  rcases List.mem_append.mp hb with hb | hb
  · obtain ⟨l,hl,hbl⟩ := List.mem_flatMap.mp hb
    have hcrlf : ∀ b ∈ kCRLF, b ≠ 0 := List.forall_mem_ne'.mpr (by decide)
    rcases List.mem_append.mp hl with hl | hl
    · rcases List.mem_append.mp hbl with hbl | hbl
      · exact ((headers_clean h.ownHeader l hl).1 b hbl).2
      · exact hcrlf b hbl
    · rw [List.mem_singleton.mp hl] at hbl
      exact hcrlf b hbl
  · exact h.body_no_nul b hb

/-- The lines in front of a description take 76 bytes besides the two numbers. -/
theorem length_describe (strSdp : Bytes) : ((describe strSdp).text q).length =
    76+(Numeral.decimal q.getCSeq.toNat).length+(Numeral.decimal strSdp.length).length+
      strSdp.length := by
  have hok : (ascii "RTSP/1.0 200 OK").length = 15 := by simp [ascii]
  have hcseq : (ascii "CSeq: ").length = 6 := by simp [ascii]
  have hlength : (ascii "Content-Length: ").length = 16 := by simp [ascii]
  have htype : (ascii "Content-Type: application/sdp").length = 29 := by simp [ascii]
  have hcrlf : kCRLF.length = 2 := rfl
  simp [text, headers, status, printCSeq, signed, fields, body, printU, hok, hcseq, hlength, htype,
    hcrlf]
  omega

end ServerResponse

end IdealServer
