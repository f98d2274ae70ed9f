import IdealServer.RtspMessage
import IdealServer.Runs

/-! `RtspConnection::handleRtspMessage` up to the call of a command handler. The handlers read the
request and touch neither the buffer nor the parser, so here the request is handed out as a
`command`; a connection in mode `RTSP_SERVER` is the only kind that is ever created. -/
namespace IdealServer

def maxRtspMessageSize : ℕ := 2048

/-- What `handleRtspMessage` works on. -/
structure RtspInput where
  request : RtspRequest
  buffer : Buffer

/-- A new connection, over the memory that `new RtspRequest` returned. -/
def RtspInput.new (mem : RtspRequest) : RtspInput := ⟨RtspRequest.new mem, Buffer.new⟩

/-- `peek[2] << 8 | peek[3]` with signed characters, stored in a `uint32_t`. -/
def rtcpSize (hi lo : UInt8) : UInt32 :=
  UInt32.ofBitVec ((hi.toBitVec.signExtend 32 <<< 8) ||| lo.toBitVec.signExtend 32)

def handleRtcp (buf : Buffer) : Except Fault Buffer := do
  if (← buf.peekAt 0) = 36 ∧ 4 < buf.readableBytes then
    let pktSize := rtcpSize (← buf.peekAt 2) (← buf.peekAt 3)
    if buf.readableBytes ≤ (pktSize+4).toNat then buf.retrieve (pktSize+4).toNat
    else return buf
  else return buf

/-- The `switch` has no case for `RTCP` and `NONE`. -/
def commandOf (r : RtspRequest) : List RtspEvent :=
  match r.method with
  | .RTCP | .NONE => []
  | _ => [.command r]

def handleRtspRequest (s : RtspInput) : Except Fault (RtspInput × List RtspEvent) := do
  let (ret, request, buffer, events) ← s.request.parseRequest s.buffer
  if ret = false then return (⟨request, buffer⟩, events)
  else if request.method = .RTCP then
    let buffer ← handleRtcp buffer
    return (⟨request, buffer⟩, events)
  else if request.gotAll = false then return (⟨request, buffer⟩, events)
  else return (⟨request.reset, buffer⟩, events ++ commandOf request)

def handleRtspMessage (s : RtspInput) : Except Fault (RtspInput × List RtspEvent) := do
  let (s, events) ← handleRtspRequest s
  if maxRtspMessageSize < s.buffer.readableBytes then
    return ({ s with buffer := s.buffer.retrieveAll }, events)
  else return (s, events)

/-- A read: its bytes are appended to the buffer and the message callback runs. -/
def RtspInput.receive (s : RtspInput) (bytes : Bytes) :
    Except Fault (RtspInput × List RtspEvent) := do
  let buffer ← s.buffer.append bytes
  handleRtspMessage { s with buffer := buffer }

/-- Successive reads. -/
def RtspInput.receiveAll : RtspInput → List Bytes → Except Fault (RtspInput × List RtspEvent) :=
  Runs.run RtspInput.receive

/-- The request for which a handler is called. -/
def commandIn (events : List RtspEvent) : Option RtspRequest :=
  events.findSome? (fun e => match e with
    | .command q => some q
    | _ => none)

/-- What a command handler is told about the request. -/
structure Dispatch where
  method : Method
  cseq : UInt32
  url : Bytes
  urlSuffix : Bytes
deriving DecidableEq, Repr

def RtspRequest.dispatch (r : RtspRequest) : Dispatch :=
  ⟨r.method, r.getCSeq, r.getRtspUrl, r.getRtspUrlSuffix⟩

/-- The handler calls among the events. -/
def dispatches (events : List RtspEvent) : List Dispatch :=
  events.filterMap (fun e => match e with
    | .command r => some r.dispatch
    | _ => none)

@[simp] theorem dispatches_append (a b : List RtspEvent) :
    dispatches (a ++ b) = dispatches a ++ dispatches b := List.filterMap_append

/-! The same call over byte strings: the buffer is nothing but its readable bytes. -/

def headersBytes (r : RtspRequest) (b : Bytes) : Bool × RtspRequest × Bytes × List RtspEvent :=
  match Search.findEnd kCRLF b with
  | none => (true, r, b, [])
  | some n =>
    ((r.parseHeadersLine (b.take n)).1, (r.parseHeadersLine (b.take n)).2, b.drop (n+2),
      [.headersLine (b.take n)])

def parseBytes (r : RtspRequest) (b : Bytes) :
    Except Fault (Bool × RtspRequest × Bytes × List RtspEvent) :=
  if b.head? = some 36 then .ok (true, { r with method := .RTCP }, b, [])
  else
    match r.state with
    | .kParseRequestLine =>
      match Search.search kCRLF b with
      | none => .ok (true, r, b, [])
      | some n => do
        let (ret, r) ← r.parseRequestLine (b.take n)
        if r.state = .kParseHeadersLine then
          let h := headersBytes r (b.drop (n+2))
          return (h.1, h.2.1, h.2.2.1, .requestLine (b.take n) :: h.2.2.2)
        else return (ret, r, b.drop (n+2), [.requestLine (b.take n)])
    | .kParseHeadersLine => .ok (headersBytes r b)
    | .kGotAll => .ok (true, r, [], [])

def rtcpBytes (b : Bytes) : Except Fault Bytes :=
  match b with
  | 36 :: _ :: hi :: lo :: _ :: _ =>
    if b.length ≤ (rtcpSize hi lo+4).toNat then
      if (rtcpSize hi lo+4).toNat ≤ b.length then .ok [] else .error .assertFailed
    else .ok b
  | _ => .ok b

/-- What `handleRtspMessage` leaves of an oversized backlog. -/
def discard (b : Bytes) : Bytes := if maxRtspMessageSize < b.length then [] else b

/-- What follows the parser. -/
def finish (ret : Bool) (r : RtspRequest) (b : Bytes) (events : List RtspEvent) :
    Except Fault (RtspRequest × Bytes × List RtspEvent) := do
  if ret = false then return (r, discard b, events)
  else if r.method = .RTCP then
    let b ← rtcpBytes b
    return (r, discard b, events)
  else if r.gotAll = false then return (r, discard b, events)
  else return (r.reset, discard b, events ++ commandOf r)

def process (r : RtspRequest) (b : Bytes) : Except Fault (RtspRequest × Bytes × List RtspEvent) := do
  let (ret, r, b, events) ← parseBytes r b
  finish ret r b events

section Refinement
variable {r : RtspRequest} {buf : Buffer}

theorem length_of_prefix_drop {b : Bytes} {n : ℕ} (h : kCRLF <+: b.drop n) : n+2 ≤ b.length := by
  have := h.length_le
  rw [List.length_drop] at this
  simp only [kCRLF, List.length_cons, List.length_nil] at this
  omega

theorem parseHeaders_bytes : ∃ buf', r.parseHeaders buf =
      .ok ((headersBytes r buf.readable).1, (headersBytes r buf.readable).2.1, buf',
        (headersBytes r buf.readable).2.2.2) ∧
      buf'.readable = (headersBytes r buf.readable).2.2.1 := by
  unfold RtspRequest.parseHeaders headersBytes Buffer.findLastCRLF
  cases hn : Search.findEnd kCRLF buf.readable with
  | none => exact ⟨buf, rfl, rfl⟩
  | some n =>
    have hlen := length_of_prefix_drop (Search.findEnd_eq_some hn)
    rw [Buffer.length_readable] at hlen
    obtain ⟨buf',hb,hr⟩ := buf.retrieveUntil_ok hlen
    refine ⟨buf', ?_, hr⟩
    simp only [hb, bind, Except.bind]
    rfl

/-- What the parser does is determined by the readable bytes. -/
theorem parseRequest_bytes (hne : buf.readable ≠ []) :
    match parseBytes r buf.readable with
    | .error f => r.parseRequest buf = .error f
    | .ok x => ∃ buf', r.parseRequest buf = .ok (x.1, x.2.1, buf', x.2.2.2) ∧
        buf'.readable = x.2.2.1 := by
  obtain ⟨x,xs,hx⟩ := List.exists_cons_of_ne_nil hne
  have hpeek : buf.peekAt 0 = .ok x := buf.peekAt_readable (by rw [hx]; rfl)
  have hhead : buf.readable.head? = some x := by rw [hx]; rfl
  unfold parseBytes RtspRequest.parseRequest
  rw [hpeek, hhead]
  simp only [bind, Except.bind, Option.some.injEq]
  by_cases h36 : x = 36
  · rw [if_pos h36, if_pos h36]
    exact ⟨buf, rfl, rfl⟩
  · rw [if_neg h36, if_neg h36]
    cases hs : r.state with
    | kParseHeadersLine =>
      obtain ⟨buf',h1,h2⟩ := parseHeaders_bytes 
      exact ⟨buf', h1, h2⟩
    | kGotAll => exact ⟨buf.retrieveAll, rfl, buf.readable_retrieveAll⟩
    | kParseRequestLine =>
      dsimp only
      unfold Buffer.findCRLF
      cases hn : Search.search kCRLF buf.readable with
      | none => exact ⟨buf, rfl, rfl⟩
      | some n =>
        have hlen := length_of_prefix_drop (Search.search_eq_some hn)
        rw [Buffer.length_readable] at hlen
        obtain ⟨buf1,hb,hr⟩ := buf.retrieveUntil_ok hlen
        dsimp only
        cases hp : r.parseRequestLine (buf.readable.take n) with
        | error f => rfl
        | ok p =>
          obtain ⟨ret,q⟩ := p
          simp only [hb]
          by_cases hq : q.state = .kParseHeadersLine
          · obtain ⟨buf',h1,h2⟩ := parseHeaders_bytes 
            rw [if_pos hq, if_pos hq, ← hr]
            refine ⟨buf', ?_, h2⟩
            rw [h1]
            rfl
          · rw [if_neg hq, if_neg hq]
            exact ⟨buf1, rfl, hr⟩

theorem handleRtcp_bytes :
    match rtcpBytes buf.readable with
    | .error f => handleRtcp buf = .error f
    | .ok b => ∃ buf', handleRtcp buf = .ok buf' ∧ buf'.readable = b := by
  have hlen := buf.length_readable
  have hat (i : ℕ) (y : UInt8) (h : buf.readable[i]? = some y) : buf.peekAt i = .ok y :=
    buf.peekAt_readable h
  cases hb : buf.readable with
  | nil =>
    -- the byte that is looked at is not a readable one, but the length decides
    obtain ⟨x,hx⟩ := buf.peekAt_zero_ok
    have hshort : ¬ (x = 36 ∧ 4 < buf.readableBytes) := by
      rw [← hlen, hb]
      exact fun h => absurd h.2 (by decide)
    simp only [handleRtcp, hx, bind, Except.bind, if_neg hshort]
    exact ⟨buf, rfl, hb⟩
  | cons x xs =>
    have h0 := hat 0 x (by rw [hb]; rfl)
    unfold handleRtcp
    simp only [h0, bind, Except.bind]
    by_cases hlong : x = 36 ∧ 4 < buf.readableBytes
    · obtain ⟨rfl,h4⟩ := hlong
      rw [← hlen, hb] at h4
      match xs, hb, h4 with
      | c :: hi :: lo :: y :: rest, hb, h4 =>
        have h2 := hat 2 hi (by rw [hb]; rfl)
        have h3 := hat 3 lo (by rw [hb]; rfl)
        rw [if_pos ⟨rfl, by rw [← hlen, hb]; exact h4⟩]
        simp only [h2, h3, rtcpBytes, ← hlen, hb]
        by_cases hle : (36 :: c :: hi :: lo :: y :: rest : Bytes).length ≤
            (rtcpSize hi lo+4).toNat
        · rw [if_pos hle, if_pos hle]
          by_cases hfit : (rtcpSize hi lo+4).toNat ≤
              (36 :: c :: hi :: lo :: y :: rest : Bytes).length
          · rw [if_pos hfit]
            have hfit' : (rtcpSize hi lo+4).toNat ≤ buf.readableBytes := by
              rw [← hlen, hb]
              exact hfit
            obtain ⟨buf',h1,h5⟩ := buf.retrieve_ok hfit'
            refine ⟨buf', h1, ?_⟩
            rw [h5, hb]
            exact List.drop_of_length_le hle
          · rw [if_neg hfit, Buffer.retrieve, dif_neg (by rw [← hlen, hb]; exact hfit)]
        · rw [if_neg hle, if_neg hle]
          exact ⟨buf, rfl, hb⟩
    · rw [if_neg hlong]
      have hkeep : rtcpBytes (x :: xs) = .ok (x :: xs) := by
        unfold rtcpBytes
        split
        · rename_i heq
          obtain ⟨rfl,rfl⟩ := List.cons.inj heq
          refine absurd ⟨rfl, ?_⟩ hlong
          rw [← hlen, hb]
          simp
        · rfl
      rw [hkeep]
      exact ⟨buf, rfl, hb⟩

/-- The end of `handleRtspMessage`, on a buffer that holds `b`. -/
theorem discard_bytes (q : RtspRequest) (events : List RtspEvent) {b : Bytes}
    (hb : buf.readable = b) : ∃ buf',
      (if maxRtspMessageSize < buf.readableBytes then
        (.ok (⟨q, buf.retrieveAll⟩, events) : Except Fault (RtspInput × List RtspEvent))
      else .ok (⟨q, buf⟩, events)) = .ok (⟨q, buf'⟩, events) ∧ buf'.readable = discard b := by
  rw [discard, ← hb, Buffer.length_readable]
  by_cases hlong : maxRtspMessageSize < buf.readableBytes
  · rw [if_pos hlong, if_pos hlong]
    exact ⟨_, rfl, buf.readable_retrieveAll⟩
  · rw [if_neg hlong, if_neg hlong]
    exact ⟨_, rfl, rfl⟩

/-- A read is processed as the byte string it leaves in the buffer. -/
theorem receive_process (s : RtspInput) (read : Bytes) (hne : s.buffer.readable ++ read ≠ []) :
    match process s.request (s.buffer.readable ++ read) with
    | .error f => s.receive read = .error f
    | .ok x => ∃ buf', s.receive read = .ok (⟨x.1, buf'⟩, x.2.2) ∧ buf'.readable = x.2.1 := by
  obtain ⟨buf,happ,hread⟩ := s.buffer.append_ok read
  rw [← hread] at hne ⊢
  have hparse := @parseRequest_bytes s.request buf hne
  unfold RtspInput.receive handleRtspMessage handleRtspRequest process finish
  simp only [happ, bind, Except.bind]
  cases hp : parseBytes s.request buf.readable with
  | error f =>
    rw [hp] at hparse
    simp only [hparse]
  | ok x =>
    obtain ⟨ret,q,b,events⟩ := x
    rw [hp] at hparse
    obtain ⟨buf1,h1,h2⟩ := hparse
    simp only [h1]
    by_cases hret : ret = false
    · simp only [if_pos hret]
      exact discard_bytes q events h2
    · simp only [if_neg hret]
      by_cases hm : q.method = .RTCP
      · simp only [if_pos hm]
        have hr := @handleRtcp_bytes buf1
        rw [h2] at hr
        cases hb : rtcpBytes b with
        | error f =>
          rw [hb] at hr
          simp only [hr]
        | ok b' =>
          rw [hb] at hr
          obtain ⟨buf2,h3,h4⟩ := hr
          simp only [h3]
          exact discard_bytes q events h4
      · simp only [if_neg hm]
        by_cases hg : q.gotAll = false
        · simp only [if_pos hg]
          exact discard_bytes q events h2
        · simp only [if_neg hg]
          exact discard_bytes q.reset (events ++ commandOf q) h2

theorem receive_ok {s : RtspInput} {read b : Bytes} {q : RtspRequest} {events : List RtspEvent}
    (hne : s.buffer.readable ++ read ≠ [])
    (h : process s.request (s.buffer.readable ++ read) = .ok (q, b, events)) :
    ∃ buf, s.receive read = .ok (⟨q, buf⟩, events) ∧ buf.readable = b := by
  have hrec := receive_process s read hne
  rwa [h] at hrec

/-- The first read of a connection. -/
theorem receive_new_ok {mem : RtspRequest} {read b : Bytes} {q : RtspRequest}
    {events : List RtspEvent} (hne : read ≠ [])
    (h : process (RtspRequest.new mem) read = .ok (q, b, events)) :
    ∃ buf, (RtspInput.new mem).receive read = .ok (⟨q, buf⟩, events) ∧ buf.readable = b := by
  have hempty : (RtspInput.new mem).buffer.readable ++ read = read := by
    change Buffer.new.readable ++ read = read
    rw [Buffer.readable_new, List.nil_append]
  apply receive_ok
  · rwa [hempty]
  · rwa [hempty]

end Refinement

end IdealServer
