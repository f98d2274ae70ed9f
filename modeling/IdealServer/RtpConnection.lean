import IdealServer.Rtp
import IdealServer.Runs
import Mathlib.Logic.Function.Basic
import Mathlib.Tactic.Common

/-! `RtpConnection`: the transports of the two media channels, the play flags and the packets that
leave. What the kernel or another object would see is returned as a list of calls; what the
kernel answers is an argument. -/
namespace IdealServer

/-- `sockaddr_in`; both fields are stored in network order. -/
structure SockAddr where
  sinAddr : UInt32
  sinPort : UInt16
deriving DecidableEq, Repr

/-- What an `RtpConnection` uses of the `TcpConnection` it points to: its name, its descriptor and
the address `getpeername` reports for it. -/
structure TcpHandle where
  name : Bytes
  fd : ℤ
  peer : SockAddr
deriving DecidableEq, Repr

inductive Call
  | socket (fd : ℤ)
  | close (fd : ℤ)
  /-- The packet is handed to `sendRtpOverTcp`. -/
  | overTcp (channelId : MediaChannelId) (pkt : RtpPacket)
  /-- The packet is handed to `sendRtpOverUdp`. -/
  | overUdp (channelId : MediaChannelId) (pkt : RtpPacket)
  /-- `TcpConnection::send` -/
  | send (conn : Bytes) (message : Bytes)
  | sendto (fd : ℤ) (message : Bytes) (addr : SockAddr)
  /-- `TcpConnection::shutdown` -/
  | shutdown (conn : Bytes)
  /-- `TcpConnection::forceCloseWithDelay` -/
  | forceCloseWithDelay (conn : Bytes)
deriving DecidableEq

structure RtpConnection where
  /-- The weak pointer: what `lock` finds. -/
  tcpConn : Option TcpHandle
  isClosed : Bool
  hasIDRFrame : Bool
  transportMode : TransportMode
  frameType : UInt8
  localRtpPort : MediaChannelId → UInt16
  localRtcpPort : MediaChannelId → UInt16
  rtpfd : MediaChannelId → ℤ
  rtcpfd : MediaChannelId → ℤ
  peerAddr : SockAddr
  peerRtpAddr : MediaChannelId → SockAddr
  peerRtcpAddr : MediaChannelId → SockAddr
  mediaChannelInfo : MediaChannelId → MediaChannelInfo

/-- One round of the loop in `setupRtpOverUdp`: the random number, what `::socket` returned and
whether `bind` succeeded. -/
structure UdpAttempt where
  rd : UInt32
  rtpfd : ℤ
  rtpBind : Bool
  rtcpfd : ℤ
  rtcpBind : Bool
deriving DecidableEq, Repr

namespace RtpConnection

/-- The constructor over uninitialised memory; `rd c k` is the `k`-th random number of channel
`c`. -/
def new (mem : RtpConnection) (tcpConn : TcpHandle) (rd : MediaChannelId → ℕ → UInt32) :
    RtpConnection :=
  { mem with
    tcpConn := some tcpConn
    isClosed := false
    hasIDRFrame := false
    frameType := 0
    rtpfd := fun _ => 0
    rtcpfd := fun _ => 0
    mediaChannelInfo := fun chn =>
      { MediaChannelInfo.zero with
        packetSeq := (rd chn 0%0xffff).toUInt16
        rtpHeader := { RtpHeader.zero with
          version := rtpVersion
          ts := htonl (rd chn 1)
          ssrc := htonl (rd chn 2) } } }

/-- An object in memory that holds zeros. -/
def zeroed : RtpConnection :=
  ⟨none, false, false, .rtpOverTcp, 0, fun _ => 0, fun _ => 0, fun _ => 0, fun _ => 0, ⟨0, 0⟩,
    fun _ => ⟨0, 0⟩, fun _ => ⟨0, 0⟩, fun _ => MediaChannelInfo.zero⟩

/-- The destructor. -/
def destroy (s : RtpConnection) : List Call :=
  mediaChannels.flatMap (fun chn =>
    (if 0 < s.rtpfd chn then [Call.close (s.rtpfd chn)] else []) ++
    (if 0 < s.rtcpfd chn then [Call.close (s.rtcpfd chn)] else []))

/-- An assignment to a field of `_mediaChannelInfo[channelId]`. -/
def setInfo (s : RtpConnection) (channelId : MediaChannelId)
    (f : MediaChannelInfo → MediaChannelInfo) : RtpConnection :=
  { s with mediaChannelInfo :=
      Function.update s.mediaChannelInfo channelId (f (s.mediaChannelInfo channelId)) }

def setClockRate (s : RtpConnection) (channelId : MediaChannelId) (clockRate : UInt32) :
    RtpConnection :=
  s.setInfo channelId (fun i => { i with clockRate := clockRate })

/-- The bit field keeps the seven low bits. -/
def setPayloadType (s : RtpConnection) (channelId : MediaChannelId) (payload : UInt32) :
    RtpConnection :=
  s.setInfo channelId (fun i =>
    { i with rtpHeader := { i.rtpHeader with payload := BitVec.ofNat 7 payload.toNat } })

def setupRtpOverTcp (s : RtpConnection) (channelId : MediaChannelId)
    (rtpChannel rtcpChannel : UInt16) : Bool × RtpConnection :=
  match s.tcpConn with
  | none => (false, s)
  | some tcpConn =>
    let s := s.setInfo channelId (fun i =>
      { i with rtpChannel := rtpChannel, rtcpChannel := rtcpChannel, isSetup := true })
    (true, { s with
      rtpfd := Function.update s.rtpfd channelId tcpConn.fd
      rtcpfd := Function.update s.rtcpfd channelId tcpConn.fd
      transportMode := .rtpOverTcp })

/-- The loop of `setupRtpOverUdp` from round `n`, with `left` rounds to go before `n == 10`. -/
def bindLoop (channelId : MediaChannelId) (attempt : ℕ → UdpAttempt) :
    ℕ → ℕ → RtpConnection → Bool × RtpConnection × List Call
  | 0, _, s => (false, s, [])
  | left+1, n, s =>
    let a := attempt n
    let port := (a.rd &&& 0xfffe).toUInt16
    let s := { s with
      localRtpPort := Function.update s.localRtpPort channelId port
      localRtcpPort := Function.update s.localRtcpPort channelId (port+1)
      rtpfd := Function.update s.rtpfd channelId a.rtpfd }
    if a.rtpBind then
      let s := { s with rtcpfd := Function.update s.rtcpfd channelId a.rtcpfd }
      if a.rtcpBind then
        (true, s, [.socket a.rtpfd, .socket a.rtcpfd])
      else
        let r := bindLoop channelId attempt left (n+1) s
        (r.1, r.2.1, [.socket a.rtpfd, .socket a.rtcpfd, .close a.rtcpfd, .close a.rtpfd] ++ r.2.2)
    else
      let r := bindLoop channelId attempt left (n+1) s
      (r.1, r.2.1, [.socket a.rtpfd, .close a.rtpfd] ++ r.2.2)

def setupRtpOverUdp (s : RtpConnection) (channelId : MediaChannelId) (rtpPort rtcpPort : UInt16)
    (attempt : ℕ → UdpAttempt) : Bool × RtpConnection × List Call :=
  match s.tcpConn with
  | none => (false, s, [])
  | some tcpConn =>
    let s := { s with peerAddr := tcpConn.peer }
    let s := s.setInfo channelId (fun i => { i with rtpPort := rtpPort, rtcpPort := rtcpPort })
    match bindLoop channelId attempt 10 0 s with
    | (false, s, calls) => (false, s, calls)
    | (true, s, calls) =>
      let info := s.mediaChannelInfo channelId
      let s := { s with
        peerRtpAddr := Function.update s.peerRtpAddr channelId
          ⟨s.peerAddr.sinAddr, htons info.rtcpPort⟩
        peerRtcpAddr := Function.update s.peerRtcpAddr channelId
          ⟨s.peerAddr.sinAddr, htons info.rtcpPort⟩
        transportMode := .rtpOverUdp }
      (true, s.setInfo channelId (fun i => { i with isSetup := true }), calls)

/-- `play`, `record` and `teardown` run over both channels. -/
def play (s : RtpConnection) : RtpConnection :=
  { s with mediaChannelInfo := fun chn =>
      let i := s.mediaChannelInfo chn
      if i.isSetup then { i with isPlay := true } else i }

def record (s : RtpConnection) : RtpConnection :=
  { s with mediaChannelInfo := fun chn =>
      let i := s.mediaChannelInfo chn
      if i.isSetup then { i with isRecord := true, isPlay := true } else i }

def teardown (s : RtpConnection) : RtpConnection :=
  if s.isClosed then s
  else
    { s with
      isClosed := true
      mediaChannelInfo := fun chn =>
        { s.mediaChannelInfo chn with isRecord := false, isPlay := false } }

def setFrameType (s : RtpConnection) (frameType : UInt8) : RtpConnection :=
  let s := { s with frameType := frameType }
  if s.hasIDRFrame = false ∧ (s.frameType = 0 ∨ s.frameType = videoFrameI) then
    { s with hasIDRFrame := true }
  else s

/-- The guard that `setRtpHeader` and the task of `sendRtpPacket` both evaluate. -/
def canSend (s : RtpConnection) (channelId : MediaChannelId) : Bool :=
  ((s.mediaChannelInfo channelId).isPlay || (s.mediaChannelInfo channelId).isRecord) &&
    s.hasIDRFrame

def setRtpHeader (s : RtpConnection) (channelId : MediaChannelId) (pkt : RtpPacket) :
    Except Fault (RtpConnection × RtpPacket) :=
  if s.canSend channelId then do
    let info := s.mediaChannelInfo channelId
    let header := { info.rtpHeader with
      marker := BitVec.ofNat 1 pkt.last.toNat
      ts := htonl pkt.timestamp
      seq := htons info.packetSeq }
    let data ← pkt.data.write rtpTcpHeadSize header.bytes
    return (s.setInfo channelId (fun i =>
      { i with rtpHeader := header, packetSeq := i.packetSeq+1 }), { pkt with data := data })
  else
    return (s, pkt)

def sendRtpOverTcp (s : RtpConnection) (channelId : MediaChannelId) (pkt : RtpPacket) :
    Except Fault (ℤ × List Call) :=
  match s.tcpConn with
  | none => .ok (-1, [])
  | some tcpConn => do
    let rtpChannel := (s.mediaChannelInfo channelId).rtpChannel
    let data ← pkt.data.write 0 [36, rtpChannel.toUInt8,
      (((pkt.size-4) &&& 0xFF00) >>> 8).toUInt8, ((pkt.size-4) &&& 0xFF).toUInt8]
    let message ← readBytes data.bytes 0 pkt.size.toNat
    return (pkt.size.toNat, [.send tcpConn.name message])

/-- `ret` is what `sendto` returns. -/
def sendRtpOverUdp (s : RtpConnection) (channelId : MediaChannelId) (pkt : RtpPacket) (ret : ℤ) :
    Except Fault (ℤ × RtpConnection × List Call) := do
  let message ← readBytes pkt.data.bytes 4 (pkt.size-4).toNat
  let call := Call.sendto (s.rtpfd channelId) message (s.peerRtpAddr channelId)
  if ret < 0 then
    return (-1, s.teardown, [call])
  else
    return (ret, s, [call])

/-- The part of `sendRtpPacket` on the caller's thread: whether the task is posted. -/
def sendRtpPacket (s : RtpConnection) : Bool :=
  !s.isClosed && s.tcpConn.isSome

/-- The task that `sendRtpPacket` posts to the loop. -/
def sendRtpPacketInLoop (s : RtpConnection) (channelId : MediaChannelId) (pkt : RtpPacket)
    (ret : ℤ) : Except Fault (RtpConnection × List Call) := do
  let s := s.setFrameType pkt.type
  let (s, pkt) ← s.setRtpHeader channelId pkt
  if s.canSend channelId then
    if s.transportMode = .rtpOverTcp then
      let r ← s.sendRtpOverTcp channelId pkt
      return (s, .overTcp channelId pkt :: r.2)
    else
      let r ← s.sendRtpOverUdp channelId pkt ret
      return (r.2.1, .overUdp channelId pkt :: r.2.2)
  else
    return (s, [])

end RtpConnection

/-- What the loop thread does with an `RtpConnection`, with the kernel's answers. -/
inductive RtpOp
  | setClockRate (channelId : MediaChannelId) (clockRate : UInt32)
  | setPayloadType (channelId : MediaChannelId) (payload : UInt32)
  | setupRtpOverTcp (channelId : MediaChannelId) (rtpChannel rtcpChannel : UInt16)
  | setupRtpOverUdp (channelId : MediaChannelId) (rtpPort rtcpPort : UInt16)
      (attempt : ℕ → UdpAttempt)
  | play
  | record
  | teardown
  | sendRtpPacketInLoop (channelId : MediaChannelId) (pkt : RtpPacket) (ret : ℤ)

def RtpConnection.step (s : RtpConnection) : RtpOp → Except Fault (RtpConnection × List Call)
  | .setClockRate c r => .ok (s.setClockRate c r, [])
  | .setPayloadType c p => .ok (s.setPayloadType c p, [])
  | .setupRtpOverTcp c a b => .ok ((s.setupRtpOverTcp c a b).2, [])
  | .setupRtpOverUdp c a b attempt => .ok (s.setupRtpOverUdp c a b attempt).2
  | .play => .ok (s.play, [])
  | .record => .ok (s.record, [])
  | .teardown => .ok (s.teardown, [])
  | .sendRtpPacketInLoop c pkt ret => s.sendRtpPacketInLoop c pkt ret

def RtpConnection.run : RtpConnection → List RtpOp → Except Fault (RtpConnection × List Call) :=
  Runs.run RtpConnection.step

namespace RtpConnection
variable (s : RtpConnection) (c : MediaChannelId)

@[simp] theorem setInfo_mediaChannelInfo (f : MediaChannelInfo → MediaChannelInfo) :
    (s.setInfo c f).mediaChannelInfo =
      Function.update s.mediaChannelInfo c (f (s.mediaChannelInfo c)) := rfl

@[simp] theorem setInfo_hasIDRFrame (f : MediaChannelInfo → MediaChannelInfo) :
    (s.setInfo c f).hasIDRFrame = s.hasIDRFrame := rfl

@[simp] theorem setInfo_tcpConn (f : MediaChannelInfo → MediaChannelInfo) :
    (s.setInfo c f).tcpConn = s.tcpConn := rfl

@[simp] theorem setInfo_transportMode (f : MediaChannelInfo → MediaChannelInfo) :
    (s.setInfo c f).transportMode = s.transportMode := rfl

@[simp] theorem setFrameType_mediaChannelInfo (t : UInt8) :
    (s.setFrameType t).mediaChannelInfo = s.mediaChannelInfo := by
  unfold setFrameType
  dsimp only
  split <;> rfl

@[simp] theorem setFrameType_tcpConn (t : UInt8) : (s.setFrameType t).tcpConn = s.tcpConn := by
  unfold setFrameType
  dsimp only
  split <;> rfl

@[simp] theorem setFrameType_transportMode (t : UInt8) :
    (s.setFrameType t).transportMode = s.transportMode := by
  unfold setFrameType
  dsimp only
  split <;> rfl

/-- The header that goes into the next packet of the channel. -/
def nextHeader (pkt : RtpPacket) : RtpHeader :=
  { (s.mediaChannelInfo c).rtpHeader with
    marker := BitVec.ofNat 1 pkt.last.toNat
    ts := htonl pkt.timestamp
    seq := htons (s.mediaChannelInfo c).packetSeq }

/-- The state after a header has been taken: the counter of that channel moves on by one. -/
def afterHeader (pkt : RtpPacket) : RtpConnection :=
  s.setInfo c (fun i => { i with rtpHeader := s.nextHeader c pkt, packetSeq := i.packetSeq+1 })

@[simp] theorem afterHeader_canSend (pkt : RtpPacket) (d : MediaChannelId) :
    (s.afterHeader c pkt).canSend d = s.canSend d := by
  by_cases hd : d = c
  · subst hd
    simp [afterHeader, canSend]
  · simp [afterHeader, canSend, Function.update_of_ne hd]

theorem setRtpHeader_discarded (pkt : RtpPacket) (h : s.canSend c = false) :
    s.setRtpHeader c pkt = .ok (s, pkt) := by
  rw [setRtpHeader, if_neg (by simp [h])]
  rfl

theorem setRtpHeader_sent (pkt : RtpPacket) (h : s.canSend c = true) :
    ∃ data, pkt.data.write rtpTcpHeadSize (s.nextHeader c pkt).bytes = .ok data ∧
      s.setRtpHeader c pkt = .ok (s.afterHeader c pkt, { pkt with data := data }) := by
  obtain ⟨data,hd⟩ := PacketData.write_ok pkt.data rtpTcpHeadSize (s.nextHeader c pkt).bytes
    (by rw [RtpHeader.length_bytes]; decide)
  refine ⟨data, hd, ?_⟩
  unfold nextHeader at hd
  simp only [setRtpHeader, h, ↓reduceIte, hd, bind, Except.bind, pure, Except.pure]
  rfl

/-- All that one execution of the posted task can do. -/
theorem sendRtpPacketInLoop_cases {s' : RtpConnection} {pkt : RtpPacket} {ret : ℤ}
    {calls : List Call} (h : s.sendRtpPacketInLoop c pkt ret = .ok (s', calls)) :
    ((s.setFrameType pkt.type).canSend c = false ∧ s' = s.setFrameType pkt.type ∧ calls = []) ∨
    ((s.setFrameType pkt.type).canSend c = true ∧ ∃ data,
      pkt.data.write rtpTcpHeadSize ((s.setFrameType pkt.type).nextHeader c pkt).bytes = .ok data ∧
      ((s.transportMode = .rtpOverTcp ∧ s' = (s.setFrameType pkt.type).afterHeader c pkt ∧
          ∃ r, s'.sendRtpOverTcp c { pkt with data := data } = .ok r ∧
            calls = .overTcp c { pkt with data := data } :: r.2) ∨
        (s.transportMode ≠ .rtpOverTcp ∧ ∃ r,
          ((s.setFrameType pkt.type).afterHeader c pkt).sendRtpOverUdp c
            { pkt with data := data } ret = .ok r ∧
          s' = r.2.1 ∧ calls = .overUdp c { pkt with data := data } :: r.2.2))) := by
  by_cases hg : (s.setFrameType pkt.type).canSend c = true
  · obtain ⟨data,hd,hset⟩ := setRtpHeader_sent (s.setFrameType pkt.type) c pkt hg
    refine Or.inr ⟨hg, data, hd, ?_⟩
    simp only [sendRtpPacketInLoop, hset, bind, Except.bind, afterHeader_canSend, hg,
      ↓reduceIte] at h
    have hmode : ((s.setFrameType pkt.type).afterHeader c pkt).transportMode =
        s.transportMode := by
      rw [afterHeader, setInfo_transportMode, setFrameType_transportMode]
    by_cases ht : s.transportMode = .rtpOverTcp
    · rw [if_pos (hmode.trans ht)] at h
      obtain ⟨r,hr,h⟩ := Runs.bind_ok h
      obtain ⟨rfl,rfl⟩ := Prod.mk.inj (Except.ok.inj h)
      exact Or.inl ⟨ht, rfl, r, hr, rfl⟩
    · rw [if_neg (fun hh => ht (hmode.symm.trans hh))] at h
      obtain ⟨r,hr,h⟩ := Runs.bind_ok h
      obtain ⟨rfl,rfl⟩ := Prod.mk.inj (Except.ok.inj h)
      exact Or.inr ⟨ht, r, hr, rfl, rfl⟩
  · have hf := Bool.not_eq_true _ ▸ hg
    refine Or.inl ⟨hf, ?_⟩
    simp only [sendRtpPacketInLoop, setRtpHeader_discarded _ _ _ hf, bind, Except.bind, hf,
      Bool.false_eq_true, ↓reduceIte, pure, Except.pure] at h
    obtain ⟨rfl,rfl⟩ := Prod.mk.inj (Except.ok.inj h)
    exact ⟨rfl, rfl⟩

/-- A packet is discarded exactly where the guard fails. -/
theorem sendRtpPacketInLoop_discards {s' : RtpConnection} {pkt : RtpPacket} {ret : ℤ}
    {calls : List Call} (h : s.sendRtpPacketInLoop c pkt ret = .ok (s', calls)) :
    calls = [] ↔ (s.setFrameType pkt.type).canSend c = false := by
  rcases sendRtpPacketInLoop_cases s c h with ⟨hg,_,rfl⟩ | ⟨hg,_,_,⟨_,_,_,_,rfl⟩ | ⟨_,_,_,_,rfl⟩⟩
  · exact ⟨fun _ => hg, fun _ => rfl⟩
  · rw [hg]
    exact ⟨fun h => by contradiction, fun h => by contradiction⟩
  · rw [hg]
    exact ⟨fun h => by contradiction, fun h => by contradiction⟩

/-- The only thing that can go wrong in a task is a copy beyond the packet. -/
theorem sendRtpPacketInLoop_error {pkt : RtpPacket} {ret : ℤ} {e : Fault}
    (h : s.sendRtpPacketInLoop c pkt ret = .error e) : e = .outOfBounds := by
  unfold sendRtpPacketInLoop at h
  rcases Runs.bind_error h with hset | ⟨⟨s1,pkt1⟩,_,h⟩
  · unfold setRtpHeader at hset
    split at hset
    · rcases Runs.bind_error hset with hwrite | ⟨data,_,hset⟩
      · exact PacketData.write_error hwrite
      · cases hset
    · cases hset
  · dsimp only at h
    split at h
    · split at h
      · rcases Runs.bind_error h with htcp | ⟨r,_,h⟩
        · unfold sendRtpOverTcp at htcp
          split at htcp
          · cases htcp
          · rcases Runs.bind_error htcp with hwrite | ⟨data,_,htcp⟩
            · exact PacketData.write_error hwrite
            · rcases Runs.bind_error htcp with hread | ⟨message,_,htcp⟩
              · exact readBytes_error hread
              · cases htcp
        · cases h
      · rcases Runs.bind_error h with hudp | ⟨r,_,h⟩
        · rcases Runs.bind_error hudp with hread | ⟨message,_,hudp⟩
          · exact readBytes_error hread
          · dsimp only at hudp
            split at hudp <;> cases hudp
        · cases h
    · cases h

/-- The state in which `setupRtpOverUdp` enters its loop. -/
def beforeBind (tcpConn : TcpHandle) (rtpPort rtcpPort : UInt16) : RtpConnection :=
  RtpConnection.setInfo { s with peerAddr := tcpConn.peer } c
    (fun i => { i with rtpPort := rtpPort, rtcpPort := rtcpPort })

/-- What `setupRtpOverUdp` does once a pair of ports is bound. -/
def afterBind : RtpConnection :=
  RtpConnection.setInfo { s with
    peerRtpAddr := Function.update s.peerRtpAddr c
      ⟨s.peerAddr.sinAddr, htons (s.mediaChannelInfo c).rtcpPort⟩
    peerRtcpAddr := Function.update s.peerRtcpAddr c
      ⟨s.peerAddr.sinAddr, htons (s.mediaChannelInfo c).rtcpPort⟩
    transportMode := .rtpOverUdp } c (fun i => { i with isSetup := true })

theorem setupRtpOverUdp_closed (a b : UInt16) (attempt : ℕ → UdpAttempt)
    (ht : s.tcpConn = none) : s.setupRtpOverUdp c a b attempt = (false, s, []) := by
  simp only [setupRtpOverUdp, ht]

theorem setupRtpOverUdp_open {tcp : TcpHandle} (a b : UInt16) (attempt : ℕ → UdpAttempt)
    (ht : s.tcpConn = some tcp) :
    s.setupRtpOverUdp c a b attempt =
      ((bindLoop c attempt 10 0 (s.beforeBind c tcp a b)).1,
        (if (bindLoop c attempt 10 0 (s.beforeBind c tcp a b)).1 then
          (bindLoop c attempt 10 0 (s.beforeBind c tcp a b)).2.1.afterBind c
        else (bindLoop c attempt 10 0 (s.beforeBind c tcp a b)).2.1),
        (bindLoop c attempt 10 0 (s.beforeBind c tcp a b)).2.2) := by
  have hb : RtpConnection.setInfo { s with peerAddr := tcp.peer } c
      (fun i => { i with rtpPort := a, rtcpPort := b }) = s.beforeBind c tcp a b := rfl
  unfold setupRtpOverUdp
  rw [ht]
  simp only [← ht, hb]
  obtain ⟨ok,s2,calls⟩ := bindLoop c attempt 10 0 (s.beforeBind c tcp a b)
  cases ok <;> rfl

/-- The loop writes the four cells of its channel and nothing else. -/
theorem bindLoop_frame (attempt : ℕ → UdpAttempt) (left n : ℕ) :
    ∃ p q x y, (bindLoop c attempt left n s).2.1 = { s with
      localRtpPort := Function.update s.localRtpPort c p
      localRtcpPort := Function.update s.localRtcpPort c q
      rtpfd := Function.update s.rtpfd c x
      rtcpfd := Function.update s.rtcpfd c y } := by
  induction left generalizing n s with
  | zero =>
    refine ⟨s.localRtpPort c, s.localRtcpPort c, s.rtpfd c, s.rtcpfd c, ?_⟩
    simp only [bindLoop, Function.update_eq_self]
  | succ left ih =>
    unfold bindLoop
    dsimp only
    split
    · split
      · exact ⟨_, _, _, _, rfl⟩
      · obtain ⟨p,q,x,y,h⟩ := ih _ (n+1)
        refine ⟨p, q, x, y, h.trans ?_⟩
        simp only [Function.update_idem]
    · obtain ⟨p,q,x,y,h⟩ := ih _ (n+1)
      refine ⟨p, q, x, y, h.trans ?_⟩
      simp only [Function.update_idem]

theorem sendRtpOverTcp_calls {pkt : RtpPacket} {r : ℤ × List Call}
    (h : s.sendRtpOverTcp c pkt = .ok r) : ∀ x ∈ r.2, ∃ n m, x = .send n m := by
  unfold sendRtpOverTcp at h
  cases ht : s.tcpConn with
  | none =>
    simp only [ht] at h
    obtain rfl := Except.ok.inj h
    simp
  | some tcp =>
    simp only [ht] at h
    obtain ⟨data,_,h⟩ := Runs.bind_ok h
    obtain ⟨message,_,h⟩ := Runs.bind_ok h
    obtain rfl := Except.ok.inj h
    intro x hx
    exact ⟨_, _, List.mem_singleton.mp hx⟩

theorem sendRtpOverUdp_calls {pkt : RtpPacket} {ret : ℤ} {r : ℤ × RtpConnection × List Call}
    (h : s.sendRtpOverUdp c pkt ret = .ok r) :
    (r.2.1 = s ∨ r.2.1 = s.teardown) ∧
      ∃ m, r.2.2 = [.sendto (s.rtpfd c) m (s.peerRtpAddr c)] := by
  obtain ⟨message,_,h⟩ := Runs.bind_ok h
  dsimp only at h
  split at h
  · obtain rfl := Except.ok.inj h
    exact ⟨Or.inr rfl, message, rfl⟩
  · obtain rfl := Except.ok.inj h
    exact ⟨Or.inl rfl, message, rfl⟩

end RtpConnection

end IdealServer
