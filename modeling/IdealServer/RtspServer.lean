import IdealServer.MediaSession
import IdealServer.RtspDispatch

/-! `RtspConnection`'s command handlers and `RtspServer`: the registry of the media sessions, the
connections, and the tasks that pushed frames have posted to the loops. Every callback, handler
and task runs to its end before the next event; frames are pushed from a thread other than the
loops', so their tasks are queued. What the kernel answers and what the allocator returns is part
of the event. -/
namespace IdealServer

inductive ConnectionState
  | START_CONNECT
  | START_PLAY
  | START_PUSH
deriving DecidableEq, Repr

structure RtspConnection where
  tcpConn : TcpHandle
  connState : ConnectionState
  sessionId : UInt32
  input : RtspInput
  rtpConn : Option RtpConnection

/-- What a handler is told from outside: the memory and the random numbers of a new
`RtpConnection`, the ten attempts to bind, the address of the `RtpConnection` as a number, the
time and the local address. -/
structure HandlerEnv where
  rtpMem : RtpConnection
  rd : MediaChannelId → ℕ → UInt32
  attempt : ℕ → UdpAttempt
  rtpSessionId : UInt32
  now : ℤ
  ip : Bytes

namespace RtspConnection

def new (mem : RtspRequest) (tcpConn : TcpHandle) : RtspConnection :=
  ⟨tcpConn, .START_CONNECT, 0, RtspInput.new mem, none⟩

def sendMessage (conn : RtspConnection) (res : Bytes) : Call := .send conn.tcpConn.name res

/-- `uint16_t sessionId`, widened again by the call. -/
def sessionIdArg (env : HandlerEnv) : UInt32 := env.rtpSessionId.toUInt16.toUInt32

def handleCmdOption (conn : RtspConnection) (q : RtspRequest) : RtspConnection × List Call :=
  (conn, [conn.sendMessage (q.buildOptionRes 1024)])

def handleCmdSetup (conn : RtspConnection) (q : RtspRequest) (session : Option MediaSession)
    (env : HandlerEnv) : Except Fault (RtspConnection × List Call) :=
  match session with
  | none => .ok (conn, [conn.sendMessage (q.buildServerErrorRes 1024)])
  | some _ =>
    match q.transport with
    | .rtpOverTcp =>
      let rtpChannel := q.getRtpChannel.toUInt16
      let rtcpChannel := q.getRtcpChannel.toUInt16
      match conn.rtpConn with
      | none => .error .nullPointer
      | some rtpConn =>
        let (_, rtpConn) := rtpConn.setupRtpOverTcp q.channelId rtpChannel rtcpChannel
        .ok ({ conn with rtpConn := some rtpConn },
          [conn.sendMessage (q.buildSetupTcpRes 1024 rtpChannel rtcpChannel (sessionIdArg env))])
    | .rtpOverUdp =>
      match conn.rtpConn with
      | none => .error .nullPointer
      | some rtpConn =>
        let (ok, rtpConn, calls) :=
          rtpConn.setupRtpOverUdp q.channelId q.getRtpPort q.getRtcpPort env.attempt
        let res :=
          if ok then q.buildSetupUdpRes 1024 (rtpConn.localRtpPort q.channelId)
            (rtpConn.localRtcpPort q.channelId) (sessionIdArg env)
          else q.buildServerErrorRes 1024
        .ok ({ conn with rtpConn := some rtpConn }, calls ++ [conn.sendMessage res])
    | .rtpOverMulticast => .ok (conn, [conn.sendMessage (q.buildUnsupportedRes 1024)])

def handleCmdPlay (conn : RtspConnection) (q : RtspRequest) (env : HandlerEnv) :
    Except Fault (RtspConnection × List Call) :=
  match conn.rtpConn with
  | none => .error .nullPointer
  | some rtpConn => .ok ({ conn with connState := .START_PLAY, rtpConn := some rtpConn.play },
      [conn.sendMessage (q.buildPlayRes 1024 none (sessionIdArg env))])

def handleCmdTeardown (conn : RtspConnection) (q : RtspRequest) (env : HandlerEnv) :
    Except Fault (RtspConnection × List Call) :=
  match conn.rtpConn with
  | none => .error .nullPointer
  | some rtpConn => .ok ({ conn with rtpConn := some rtpConn.teardown },
      [conn.sendMessage (q.buildTeardownRes 1024 (sessionIdArg env)),
        .shutdown conn.tcpConn.name, .forceCloseWithDelay conn.tcpConn.name])

def handleCmdGetParamter (conn : RtspConnection) (q : RtspRequest) (env : HandlerEnv) :
    Except Fault (RtspConnection × List Call) :=
  match conn.rtpConn with
  | none => .error .nullPointer
  | some _ => .ok (conn, [conn.sendMessage (q.buildGetParamterRes 1024 (sessionIdArg env))])

/-- The loop of `handleCmdDescribe` over the channels. -/
def setSources (session : MediaSession) (rtpConn : RtpConnection) : RtpConnection :=
  mediaChannels.foldl (fun rtpConn chn =>
    match session.getMediaSource chn with
    | none => rtpConn
    | some source =>
      (rtpConn.setClockRate chn source.clockRate).setPayloadType chn source.payload) rtpConn

end RtspConnection

/-- An entry of `_mediaSessions` holds a pointer, which can be null. -/
structure RtspServer where
  ipPort : Bytes
  version : Bytes
  lastMediaSessionId : UInt32
  mediaSessions : UInt32 → Option (Option MediaSession)
  rtspSuffixMap : Bytes → Option UInt32
  nextConnId : ConnId
  rtspConnMap : ConnId → Option RtspConnection
  pending : List Handed

namespace RtspServer

def new (ipPort version : Bytes) : RtspServer :=
  ⟨ipPort, version, 1, fun _ => none, fun _ => none, 1, fun _ => none, []⟩

/-- The session registered for the suffix, with its key. `_mediaSessions[id]` makes an entry
where there is none. -/
def lookMediaSession (srv : RtspServer) (suffix : Bytes) :
    Option (UInt32 × MediaSession) × RtspServer :=
  match srv.rtspSuffixMap suffix with
  | none => (none, srv)
  | some id =>
    match srv.mediaSessions id with
    | some (some session) => (some (id, session), srv)
    | some none => (none, srv)
    | none => (none, { srv with mediaSessions := Function.update srv.mediaSessions id (some none) })

/-- The overload for ids. -/
def lookMediaSessionId (srv : RtspServer) (sessionId : UInt32) : Option MediaSession :=
  (srv.mediaSessions sessionId).join

def setSession (srv : RtspServer) (id : UInt32) (session : MediaSession) : RtspServer :=
  { srv with mediaSessions := Function.update srv.mediaSessions id (some (some session)) }

/-- What `lock` finds behind the weak pointer of a client. -/
def lock (srv : RtspServer) (c : ConnId) : Option RtpConnection :=
  (srv.rtspConnMap c).bind RtspConnection.rtpConn

def handleCmdDescribe (srv : RtspServer) (c : ConnId) (conn : RtspConnection) (q : RtspRequest)
    (env : HandlerEnv) : RtspServer × RtspConnection × List Call :=
  let rtpConn := conn.rtpConn.getD (RtpConnection.new env.rtpMem conn.tcpConn env.rd)
  let conn := { conn with rtpConn := some rtpConn }
  match srv.lookMediaSession q.getRtspUrlSuffix with
  | (none, srv) => (srv, conn, [conn.sendMessage (q.buildNotFoundRes 1024)])
  | (some (id, session), srv) =>
    let (_, session) := session.addClient conn.tcpConn.fd c
    let conn := { conn with
      sessionId := session.sessionId
      rtpConn := some (RtspConnection.setSources session rtpConn) }
    let (sdp, session) := session.getSdpMessage env.now env.ip srv.version
    let res := if sdp = [] then q.buildServerErrorRes 1024 else q.buildDescribeRes 1024 sdp
    (srv.setSession id session, conn, [conn.sendMessage res])

/-- The `switch` in `handleRtspRequest`. -/
def handleCommand (srv : RtspServer) (c : ConnId) (conn : RtspConnection) (q : RtspRequest)
    (env : HandlerEnv) : Except Fault (RtspServer × RtspConnection × List Call) :=
  match q.method with
  | .OPTIONS => .ok (srv, conn.handleCmdOption q)
  | .DESCRIBE => .ok (srv.handleCmdDescribe c conn q env)
  | .SETUP => do
    let r ← conn.handleCmdSetup q (srv.lookMediaSessionId conn.sessionId) env
    return (srv, r)
  | .PLAY => do
    let r ← conn.handleCmdPlay q env
    return (srv, r)
  | .TEARDOWN => do
    let r ← conn.handleCmdTeardown q env
    return (srv, r)
  | .GET_PARAMETER => do
    let r ← conn.handleCmdGetParamter q env
    return (srv, r)
  | .RTCP | .NONE => .ok (srv, conn, [])

end RtspServer

inductive ServerEvent
  /-- `TcpServer::newConnection`; `mem` is the memory of the `RtspRequest`. -/
  | newConnection (fd : ℤ) (peer : SockAddr) (mem : RtspRequest)
  /-- A read on an open connection. -/
  | message (conn : ConnId) (bytes : Bytes) (env : HandlerEnv)
  /-- `TcpConnection::handleClose` -/
  | close (conn : ConnId)
  /-- `MediaSession::creatNew`, its sources, and `addMediaSession`. -/
  | addMediaSession (suffix : Bytes) (sources : MediaChannelId → Option MediaSource)
  | removeMediaSession (sessionId : UInt32)
  /-- `MediaSession::setRtspUrlSuffix` on a registered session. -/
  | setRtspUrlSuffix (sessionId : UInt32) (suffix : Bytes)
  | pushFrame (sessionId : UInt32) (channelId : MediaChannelId) (frame : AVFrame) (now : UInt32)
      (alloc : ℕ → PacketData) (mem : ℕ → Bytes → PacketData)
  /-- The connection's loop runs the first task that `sendRtpPacket` posted for it. -/
  | runTask (conn : ConnId) (ret : ℤ)

inductive ServerObs
  /-- A command handler is called. -/
  | command (conn : ConnId) (request : RtspRequest)
  | call (conn : ConnId) (c : Call)
  /-- A frame pushed to the session: `sendRtpPacket` is called with one of its packets. -/
  | handed (sessionId : UInt32) (h : Handed)
  /-- A frame pushed to the session: its source hands over a packet. -/
  | packet (sessionId : UInt32) (pkt : RtpPacket)

namespace RtspServer

def setConn (srv : RtspServer) (c : ConnId) (conn : RtspConnection) : RtspServer :=
  { srv with rtspConnMap := Function.update srv.rtspConnMap c (some conn) }

/-- A closed connection delivers no messages. -/
def onMessage (srv : RtspServer) (c : ConnId) (bytes : Bytes) (env : HandlerEnv) :
    Except Fault (RtspServer × List ServerObs) :=
  match srv.rtspConnMap c with
  | none => .ok (srv, [])
  | some conn => do
    let (input, events) ← conn.input.receive bytes
    let conn := { conn with input := input }
    match commandIn events with
    | none => return (srv.setConn c conn, [])
    | some q =>
      let (srv, conn, calls) ← srv.handleCommand c conn q env
      return (srv.setConn c conn, .command c q :: calls.map (ServerObs.call c))

/-- The name that `newConnection` makes; the part behind the server's name fits an array of 64. -/
def connName (srv : RtspServer) : Bytes :=
  ascii "RtspServer" ++ (ascii "-" ++ srv.ipPort ++ ascii "#" ++
    Numeral.decimal srv.nextConnId).take (64-1)

def newConnection (srv : RtspServer) (fd : ℤ) (peer : SockAddr) (mem : RtspRequest) : RtspServer :=
  { srv.setConn srv.nextConnId (RtspConnection.new mem ⟨srv.connName, fd, peer⟩) with
    nextConnId := srv.nextConnId+1 }

/-- The `RtspConnection` is erased, which destroys its `RtpConnection`. -/
def onClose (srv : RtspServer) (c : ConnId) : RtspServer × List ServerObs :=
  ({ srv with rtspConnMap := Function.update srv.rtspConnMap c none },
    ((srv.lock c).elim [] RtpConnection.destroy).map (ServerObs.call c))

def addMediaSession (srv : RtspServer) (suffix : Bytes)
    (sources : MediaChannelId → Option MediaSource) : RtspServer :=
  let (last, session) := MediaSession.creatNew srv.lastMediaSessionId suffix
  let session := mediaChannels.foldl (fun session chn =>
    match sources chn with
    | none => session
    | some source => session.addMediaSource chn source) session
  let srv := { srv with lastMediaSessionId := last }
  match srv.rtspSuffixMap suffix with
  | some _ => srv
  | none =>
    let srv := { srv with
      rtspSuffixMap := Function.update srv.rtspSuffixMap suffix (some session.sessionId) }
    match srv.mediaSessions session.sessionId with
    | some _ => srv
    | none => srv.setSession session.sessionId session

def removeMediaSession (srv : RtspServer) (sessionId : UInt32) : Except Fault RtspServer :=
  match srv.mediaSessions sessionId with
  | none => .ok srv
  | some none => .error .nullPointer
  | some (some session) => .ok { srv with
      rtspSuffixMap := Function.update srv.rtspSuffixMap session.suffix none
      mediaSessions := Function.update srv.mediaSessions sessionId none }

def setRtspUrlSuffix (srv : RtspServer) (sessionId : UInt32) (suffix : Bytes) : RtspServer :=
  match srv.lookMediaSessionId sessionId with
  | none => srv
  | some session => srv.setSession sessionId (session.setRtspUrlSuffix suffix)

/-- Whether `sendRtpPacket` posts its task. -/
def posts (srv : RtspServer) (h : Handed) : Bool :=
  match srv.lock h.conn with
  | none => false
  | some rtpConn => rtpConn.sendRtpPacket

def pushFrame (srv : RtspServer) (sessionId : UInt32) (channelId : MediaChannelId)
    (frame : AVFrame) (now : UInt32) (alloc : ℕ → PacketData) (mem : ℕ → Bytes → PacketData) :
    Except Fault (RtspServer × List ServerObs) :=
  match srv.lookMediaSessionId sessionId with
  | none => .ok (srv, [])
  | some session =>
    if session.getNumClient = 0 then .ok (srv, [])
    else do
      let (_, session, p) ← session.handleFrame srv.lock now alloc mem channelId frame
      return ({ srv.setSession sessionId session with
          pending := srv.pending ++ p.handed.filter srv.posts },
        p.packets.map (ServerObs.packet sessionId) ++ p.handed.map (ServerObs.handed sessionId))

def runTask (srv : RtspServer) (c : ConnId) (ret : ℤ) :
    Except Fault (RtspServer × List ServerObs) :=
  match srv.pending.find? (fun h => h.conn = c) with
  | none => .ok (srv, [])
  | some h =>
    match srv.rtspConnMap c with
    | none => .error .danglingPointer
    | some conn =>
      match conn.rtpConn with
      | none => .error .danglingPointer
      | some rtpConn => do
        let (rtpConn, calls) ← rtpConn.sendRtpPacketInLoop h.channelId h.pkt ret
        return ({ srv.setConn c { conn with rtpConn := some rtpConn } with
            pending := srv.pending.eraseP (fun h => h.conn = c) }, calls.map (ServerObs.call c))

def step (srv : RtspServer) : ServerEvent → Except Fault (RtspServer × List ServerObs)
  | .newConnection fd peer mem => .ok (srv.newConnection fd peer mem, [])
  | .message c bytes env => srv.onMessage c bytes env
  | .close c => .ok (srv.onClose c)
  | .addMediaSession suffix sources => .ok (srv.addMediaSession suffix sources, [])
  | .removeMediaSession id => do
    let srv ← srv.removeMediaSession id
    return (srv, [])
  | .setRtspUrlSuffix id suffix => .ok (srv.setRtspUrlSuffix id suffix, [])
  | .pushFrame id channelId frame now alloc mem => srv.pushFrame id channelId frame now alloc mem
  | .runTask c ret => srv.runTask c ret

def run : RtspServer → List ServerEvent → Except Fault (RtspServer × List ServerObs) :=
  Runs.run step

end RtspServer

end IdealServer
