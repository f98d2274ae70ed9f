import IdealServer.Buffer
import IdealServer.Rtp
import IdealServer.Scanf
import Mathlib.Logic.Function.Basic

/-! `RtspRequest`: the parser of a request, its getters and the responses it builds. -/
namespace IdealServer

inductive Method
  | OPTIONS
  | DESCRIBE
  | SETUP
  | PLAY
  | TEARDOWN
  | GET_PARAMETER
  | RTCP
  | NONE
deriving DecidableEq, Repr

inductive RtspRequestParseState
  | kParseRequestLine
  | kParseHeadersLine
  | kGotAll
deriving DecidableEq, Repr

inductive RequestLineKey
  | url
  | url_ip
  | url_port
  | url_suffix
  | version
  | method
deriving DecidableEq, Repr

inductive HeaderLineKey
  | cseq
  | rtp_channel
  | rtcp_channel
  | rtp_port
  | rtcp_port
deriving DecidableEq, Repr

/-- A map from the keys the program uses to `std::pair<std::string, uint32_t>`. -/
abbrev ParamMap (κ : Type) := κ → Option (Bytes × UInt32)

/-- `emplace` keeps what is there. -/
def ParamMap.emplace {κ : Type} [DecidableEq κ] (m : ParamMap κ) (k : κ) (v : Bytes × UInt32) :
    ParamMap κ :=
  match m k with
  | some _ => m
  | none => Function.update m k (some v)

section ParamMap
variable {κ : Type} [DecidableEq κ] (m : ParamMap κ) {j k : κ} {v w : Bytes × UInt32}

theorem ParamMap.emplace_of_ne (h : j ≠ k) : m.emplace k v j = m j := by
  unfold ParamMap.emplace
  cases m k with
  | none => exact Function.update_of_ne h ..
  | some _ => rfl

theorem ParamMap.emplace_of_none (h : m k = none) : m.emplace k v k = some v := by
  rw [ParamMap.emplace, h]
  exact Function.update_self ..

theorem ParamMap.emplace_of_some (h : m k = some w) : m.emplace k v = m := by
  rw [ParamMap.emplace, h]

end ParamMap

structure RtspRequest where
  method : Method
  channelId : MediaChannelId
  transport : TransportMode
  requestLineParam : ParamMap RequestLineKey
  headerLineParam : ParamMap HeaderLineKey
  state : RtspRequestParseState

/-- What becomes visible of one call: the texts handed to the parser, and the request for which
a command handler is called. -/
inductive RtspEvent
  | requestLine (message : Bytes)
  | headersLine (message : Bytes)
  | command (request : RtspRequest)

/-- `sscanf` on the C string of `message`. -/
def sscanf (ds : List Scanf.Directive) (message : Bytes) : Except Fault (List Scanf.Value) :=
  match Scanf.scan ds (Scanf.cString message) with
  | some vals => .ok vals
  | none => .error .arrayOverflow

/-- The chain of comparisons in `parseRequestLine`. -/
def Method.ofString (s : Bytes) : Method :=
  if s = ascii "OPTIONS" then .OPTIONS
  else if s = ascii "DESCRIBE" then .DESCRIBE
  else if s = ascii "SETUP" then .SETUP
  else if s = ascii "PLAY" then .PLAY
  else if s = ascii "TEARDOWN" then .TEARDOWN
  else if s = ascii "GET_PARAMETER" then .GET_PARAMETER
  else .NONE

/-- The format of the two `sscanf` calls on a URL, behind `rtsp://`. -/
def parseUrl (rest : Bytes) : Except Fault (Option (Bytes × UInt16 × Bytes)) := do
  match ← sscanf [.notIn 58 16, .lit 58, .uint 16, .lit 47, .str 64] rest with
  | [.text ip, .num port, .text suffix] => return some (ip, UInt16.ofNat port, suffix)
  | _ =>
    match ← sscanf [.notIn 47 16, .lit 47, .str 64] rest with
    | [.text ip, .text suffix] => return some (ip, 554, suffix)
    | _ => return none

namespace RtspRequest

/-- The constructor leaves `_method`, `_channelId` and `_transport` as they are in memory. -/
def new (mem : RtspRequest) : RtspRequest :=
  { mem with
    requestLineParam := fun _ => none
    headerLineParam := fun _ => none
    state := .kParseRequestLine }

def gotAll (r : RtspRequest) : Bool := r.state = .kGotAll

def reset (r : RtspRequest) : RtspRequest :=
  { r with
    state := .kParseRequestLine
    requestLineParam := fun _ => none
    headerLineParam := fun _ => none }

/-- The six `emplace` calls of a request line that is accepted. -/
def setRequestLineParam (m : ParamMap RequestLineKey) (url ip : Bytes) (port : UInt16)
    (suffix version method : Bytes) : ParamMap RequestLineKey :=
  (((((m.emplace .url (url, 0)).emplace .url_ip (ip, 0)).emplace .url_port
    ([], port.toUInt32)).emplace .url_suffix (suffix, 0)).emplace .version (version, 0)).emplace
    .method (method, 0)

def parseRequestLine (r : RtspRequest) (message : Bytes) : Except Fault (Bool × RtspRequest) := do
  match ← sscanf [.str 32, .ws, .str 128, .ws, .str 16] message with
  | [.text method, .text url, .text version] =>
    let r := { r with method := Method.ofString method }
    if r.method = .NONE then
      return (false, r)
    if url.take 7 ≠ ascii "rtsp://" then
      return (false, r)
    match ← parseUrl (url.drop 7) with
    | none => return (false, r)
    | some (ip, port, suffix) =>
      return (true, { r with
        requestLineParam := setRequestLineParam r.requestLineParam url ip port suffix version method
        state := .kParseHeadersLine })
  | _ => return (false, r)

/-- The value of the first `CSeq` in the text; 0 if nothing can be read there. -/
def scanCSeq (message : Bytes) (pos : ℕ) : UInt32 :=
  match Scanf.scan [.skip 58, .lit 58, .ws, .uint 32] (Scanf.cString (message.drop pos)) with
  | some [.num cseq] => UInt32.ofNat cseq
  | _ => 0

def parseCSeq (r : RtspRequest) (message : Bytes) : Bool × RtspRequest :=
  match Search.search (ascii "CSeq") message with
  | some pos =>
    (true, { r with headerLineParam :=
      r.headerLineParam.emplace .cseq ([], scanCSeq message pos) })
  | none => (false, r)

def parseAccept (message : Bytes) : Bool :=
  (Search.findEnd (ascii "Accept") message).isSome && (Search.findEnd (ascii "sdp") message).isSome

/-- The two numbers behind the third separator of a transport specification. -/
def scanPair (message : Bytes) (pos : ℕ) : Option (UInt16 × UInt16) :=
  match Scanf.scan [.skip 59, .lit 59, .skip 59, .lit 59, .skip 61, .lit 61, .uint 16, .lit 45,
      .uint 16] (Scanf.cString (message.drop pos)) with
  | some [.num a, .num b] => some (UInt16.ofNat a, UInt16.ofNat b)
  | _ => none

def setPair (r : RtspRequest) (k l : HeaderLineKey) (a b : UInt16) : RtspRequest :=
  { r with headerLineParam :=
    (r.headerLineParam.emplace k ([], a.toUInt32)).emplace l ([], b.toUInt32) }

def parseTransport (r : RtspRequest) (message : Bytes) : Bool × RtspRequest :=
  match Search.search (ascii "Transport") message with
  | none => (false, r)
  | some _ =>
    match Search.search (ascii "RTP/AVP/TCP") message with
    | some pos =>
      let r := { r with transport := .rtpOverTcp }
      match scanPair message pos with
      | none => (false, r)
      | some (a, b) => (true, r.setPair .rtp_channel .rtcp_channel a b)
    | none =>
      match Search.search (ascii "RTP/AVP") message with
      | none => (false, r)
      | some pos =>
        if (Search.search (ascii "unicast") (message.drop pos)).isSome then
          let r := { r with transport := .rtpOverUdp }
          match scanPair message pos with
          | none => (false, r)
          | some (a, b) => (true, r.setPair .rtp_port .rtcp_port a b)
        else if (Search.search (ascii "multicast") (message.drop pos)).isSome then
          let r := { r with transport := .rtpOverMulticast }
          (true, r.setPair .rtp_port .rtcp_port 0 0)
        else (false, r)

def parseSessionId (message : Bytes) : Bool :=
  match Search.search (ascii "Session") message with
  | none => false
  | some pos =>
    match Scanf.scan [.skip 58, .lit 58, .ws, .uint 32] (Scanf.cString (message.drop pos)) with
    | some [.num _] => true
    | _ => false

def parseMediaChannel (r : RtspRequest) : RtspRequest :=
  match r.requestLineParam .url with
  | some (url, _) =>
    if (Search.search (ascii "track1") url).isSome then { r with channelId := .channel_1 }
    else { r with channelId := .channel_0 }
  | none => { r with channelId := .channel_0 }

/-- The tests behind the one for `CSeq`; all of them end with `return true`. -/
def parseMethodHeaders (r : RtspRequest) (message : Bytes) : RtspRequest :=
  match r.method with
  | .OPTIONS | .TEARDOWN | .GET_PARAMETER => { r with state := .kGotAll }
  | .DESCRIBE => if parseAccept message then { r with state := .kGotAll } else r
  | .SETUP =>
    let (ok, r) := r.parseTransport message
    if ok then { r.parseMediaChannel with state := .kGotAll } else r
  | .PLAY => if parseSessionId message then { r with state := .kGotAll } else r
  | .RTCP | .NONE => r

def parseHeadersLine (r : RtspRequest) (message : Bytes) : Bool × RtspRequest :=
  let (found, r) := r.parseCSeq message
  if found = false ∧ r.headerLineParam .cseq = none then (false, r)
  else (true, r.parseMethodHeaders message)

/-- The round of the loop in state `kParseHeadersLine`. -/
def parseHeaders (r : RtspRequest) (buffer : Buffer) :
    Except Fault (Bool × RtspRequest × Buffer × List RtspEvent) :=
  match buffer.findLastCRLF with
  | none => .ok (true, r, buffer, [])
  | some lastCrlf => do
    let message := buffer.readable.take lastCrlf
    let (ret, r) := r.parseHeadersLine message
    let buffer ← buffer.retrieveUntil (lastCrlf+2)
    return (ret, r, buffer, [.headersLine message])

/-- The loop goes round a second time only from the request line to the headers. -/
def parseRequest (r : RtspRequest) (buffer : Buffer) :
    Except Fault (Bool × RtspRequest × Buffer × List RtspEvent) := do
  if (← buffer.peekAt 0) = 36 then
    return (true, { r with method := .RTCP }, buffer, [])
  match r.state with
  | .kParseRequestLine =>
    match buffer.findCRLF with
    | none => return (true, r, buffer, [])
    | some firstCrlf =>
      let message := buffer.readable.take firstCrlf
      let (ret, r) ← r.parseRequestLine message
      let buffer ← buffer.retrieveUntil (firstCrlf+2)
      if r.state = .kParseHeadersLine then
        let (ret, r, buffer, events) ← r.parseHeaders buffer
        return (ret, r, buffer, .requestLine message :: events)
      else return (ret, r, buffer, [.requestLine message])
  | .kParseHeadersLine => r.parseHeaders buffer
  | .kGotAll => return (true, r, buffer.retrieveAll, [])

/-! The getters and the responses. -/

def getCSeq (r : RtspRequest) : UInt32 := ((r.headerLineParam .cseq).map Prod.snd).getD 0

def getRtspUrl (r : RtspRequest) : Bytes := ((r.requestLineParam .url).map Prod.fst).getD []

def getRtspUrlSuffix (r : RtspRequest) : Bytes :=
  ((r.requestLineParam .url_suffix).map Prod.fst).getD []

def getRtpChannel (r : RtspRequest) : UInt8 :=
  (((r.headerLineParam .rtp_channel).map Prod.snd).getD 0).toUInt8

def getRtcpChannel (r : RtspRequest) : UInt8 :=
  (((r.headerLineParam .rtcp_channel).map Prod.snd).getD 0).toUInt8

def getRtpPort (r : RtspRequest) : UInt16 :=
  (((r.headerLineParam .rtp_port).map Prod.snd).getD 0).toUInt16

def getRtcpPort (r : RtspRequest) : UInt16 :=
  (((r.headerLineParam .rtcp_port).map Prod.snd).getD 0).toUInt16

end RtspRequest

/-- `%u` and `%hu` -/
def printU (n : ℕ) : Bytes := Numeral.decimal n

/-- `%d` of a `uint32_t` -/
def printD (x : UInt32) : Bytes :=
  if x.toNat < 2^31 then Numeral.decimal x.toNat else 45 :: Numeral.decimal (2^32-x.toNat)

/-- `snprintf` at the end of the text that the array of `bufSize` bytes holds. -/
def snprintf (bufSize : ℕ) (held text : Bytes) : Bytes := (held ++ text).take (bufSize-1)

theorem snprintf_fits {bufSize : ℕ} {held text : Bytes} (h : (held ++ text).length < bufSize) :
    snprintf bufSize held text = held ++ text := List.take_of_length_le (by omega)

/-- Texts printed one behind the other are cut like one text. -/
theorem snprintf_snprintf (bufSize : ℕ) (held t u : Bytes) :
    snprintf bufSize (snprintf bufSize held t) u = snprintf bufSize held (t ++ u) := by
  unfold snprintf
  rw [← List.append_assoc held t u]
  rcases Nat.lt_or_ge (held ++ t).length (bufSize-1) with hlt | hge
  · rw [List.take_of_length_le hlt.le]
  · have hfull : ((held ++ t).take (bufSize-1)).length = bufSize-1 := List.length_take_of_le hge
    rw [List.take_append_of_le_length hge, List.take_append_of_le_length hfull.ge, List.take_take,
      Nat.min_self]

namespace RtspRequest

def buildOptionRes (r : RtspRequest) (bufSize : ℕ) : Bytes :=
  snprintf bufSize [] (ascii "RTSP/1.0 200 OK\r\nCSeq: " ++ printU r.getCSeq.toNat ++
    ascii "\r\nPublic: OPTIONS, DESCRIBE, SETUP, TRARDOWN, PLAT\r\n\r\n")

def buildDescribeRes (r : RtspRequest) (bufSize : ℕ) (strSdp : Bytes) : Bytes :=
  snprintf bufSize [] (ascii "RTSP/1.0 200 OK\r\nCSeq: " ++ printU r.getCSeq.toNat ++
    ascii "\r\nContent-Length: " ++ printU strSdp.length ++
    ascii "\r\nContent-Type: application/sdp\r\n\r\n" ++ strSdp)

def buildSetupTcpRes (r : RtspRequest) (bufSize : ℕ) (rtpChn rtcpChn : UInt16)
    (sessionId : UInt32) : Bytes :=
  snprintf bufSize [] (ascii "RTSP/1.0 200 OK\r\nCSeq: " ++ printU r.getCSeq.toNat ++
    ascii "\r\nTransport: RTP/AVP/TCP;unicast;interleaved=" ++ printU rtpChn.toNat ++
    ascii "-" ++ printU rtcpChn.toNat ++ ascii "\r\nSession: " ++ printU sessionId.toNat ++
    ascii "\r\n\r\n")

def buildSetupUdpRes (r : RtspRequest) (bufSize : ℕ) (rtpChn rtcpChn : UInt16)
    (sessionId : UInt32) : Bytes :=
  snprintf bufSize [] (ascii "RTSP/1.0 200 OK\r\nCSeq: " ++ printU r.getCSeq.toNat ++
    ascii "\r\nTransport: RTP/AVP;unicast;client_port=" ++ printU r.getRtpPort.toNat ++
    ascii "-" ++ printU r.getRtcpPort.toNat ++ ascii ";server_port=" ++ printU rtpChn.toNat ++
    ascii "-" ++ printU rtcpChn.toNat ++ ascii "\r\nSession: " ++ printU sessionId.toNat ++
    ascii "\r\n\r\n")

def buildPlayRes (r : RtspRequest) (bufSize : ℕ) (rtpInfo : Option Bytes) (sessionId : UInt32) :
    Bytes :=
  let held := snprintf bufSize [] (ascii "RTSP/1.0 200 OK\r\nCSeq: " ++ printD r.getCSeq ++
    ascii "\r\nRange: npt=0.000-\r\nSession: " ++ printU sessionId.toNat ++
    ascii "; timeout=60\r\n")
  let held := match rtpInfo with
    | some info => snprintf bufSize held (info ++ ascii "\r\n")
    | none => held
  snprintf bufSize held (ascii "\r\n")

def buildTeardownRes (r : RtspRequest) (bufSize : ℕ) (sessionId : UInt32) : Bytes :=
  snprintf bufSize [] (ascii "RTSP/1.0 200 OK\r\nCSeq: " ++ printD r.getCSeq ++
    ascii "\r\nSession: " ++ printU sessionId.toNat ++ ascii "\r\n\r\n")

def buildGetParamterRes (r : RtspRequest) (bufSize : ℕ) (sessionId : UInt32) : Bytes :=
  snprintf bufSize [] (ascii "RTSP/1.0 200 OK\r\nCSeq: " ++ printD r.getCSeq ++
    ascii "\r\nSession: " ++ printU sessionId.toNat ++ ascii "\r\n\r\n")

def buildNotFoundRes (r : RtspRequest) (bufSize : ℕ) : Bytes :=
  snprintf bufSize [] (ascii "RTSP/1.0 404 Stream Not Found\r\nCSeq: " ++
    printU r.getCSeq.toNat ++ ascii "\r\n\r\n")

def buildServerErrorRes (r : RtspRequest) (bufSize : ℕ) : Bytes :=
  snprintf bufSize [] (ascii "RTSP/1.0 500 Internal Server Error\r\nCSeq: " ++
    printU r.getCSeq.toNat ++ ascii "\r\n\r\n")

def buildUnsupportedRes (r : RtspRequest) (bufSize : ℕ) : Bytes :=
  snprintf bufSize [] (ascii "RTSP/1.0 461 Unsupported transport\r\nCSeq: " ++ printD r.getCSeq ++
    ascii "\r\n\r\n")

end RtspRequest

end IdealServer
