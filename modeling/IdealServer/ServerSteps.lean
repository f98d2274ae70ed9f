import IdealServer.Descriptors
import IdealServer.Isolation
import IdealServer.RtspServer

/-! What one event can do to the connections and to the client maps of the sessions. -/
namespace IdealServer
namespace RtspServer

/-- The command for which the event calls a handler, with its connection. -/
def dispatched (srv : RtspServer) : ServerEvent → Option (ConnId × RtspRequest)
  | .message c bytes _ =>
    match srv.rtspConnMap c with
    | none => none
    | some conn =>
      match conn.input.receive bytes with
      | .error _ => none
      | .ok (_, events) => (commandIn events).map (fun q => (c, q))
  | _ => none

/-- The event is a SETUP over UDP of the channel on the connection. -/
def AsksUdp (srv : RtspServer) (ev : ServerEvent) (c : ConnId) (channelId : MediaChannelId) : Prop :=
  ∃ q, srv.dispatched ev = some (c, q) ∧ q.method = .SETUP ∧ q.transport = .rtpOverUdp ∧
    q.channelId = channelId

/-- The `RtpConnection` behind a pointer, if there is one, has gone through the operations. -/
inductive Ran (ops : List RtpOp) : Option RtpConnection → Option RtpConnection → Prop
  | none : Ran ops none none
  | some (s s' : RtpConnection) (calls : List Call) (run : s.run ops = .ok (s', calls)) :
      Ran ops (some s) (some s')

theorem Ran.isSome {ops : List RtpOp} {x y : Option RtpConnection} (h : Ran ops x y) :
    y.isSome = x.isSome := by
  cases h <;> rfl

theorem Ran.refl (x : Option RtpConnection) : Ran [] x x := by
  cases x with
  | none => exact .none
  | some s => exact .some s s [] rfl

/-- A setup over UDP is among the operations only if the request asks for it. -/
def AsAsked (q : RtspRequest) (ops : List RtpOp) : Prop :=
  ∀ channelId a b attempt, RtpOp.setupRtpOverUdp channelId a b attempt ∈ ops →
    q.method = .SETUP ∧ q.transport = .rtpOverUdp ∧ q.channelId = channelId

/-- What a DESCRIBE leaves behind `_rtpConnPtr`: the object that is there or a new one, with the
parameters of the sources. -/
def Prepared (conn : RtspConnection) (rtpConn : RtpConnection) : Prop :=
  ∃ mem rd ops calls, (∀ op ∈ ops, (∃ chn r, op = .setClockRate chn r) ∨
      ∃ chn p, op = .setPayloadType chn p) ∧
    (conn.rtpConn.getD (RtpConnection.new mem conn.tcpConn rd)).run ops = .ok (rtpConn, calls)

/-- The loop over the channels is a run of the two setters. -/
theorem setSources_run (session : MediaSession) (s : RtpConnection) :
    ∃ ops, (∀ op ∈ ops, (∃ chn r, op = RtpOp.setClockRate chn r) ∨
      ∃ chn p, op = RtpOp.setPayloadType chn p) ∧
      ∃ calls, s.run ops = .ok (RtspConnection.setSources session s, calls) := by
  unfold RtspConnection.setSources
  induction mediaChannels generalizing s with
  | nil => exact ⟨[], by simp, [], rfl⟩
  | cons chn chns ih =>
    rw [List.foldl_cons]
    cases hsource : session.getMediaSource chn with
    | none => exact ih s
    | some source =>
      obtain ⟨ops,hops,calls,hrun⟩ :=
        ih ((s.setClockRate chn source.clockRate).setPayloadType chn source.payload)
      refine ⟨.setClockRate chn source.clockRate :: .setPayloadType chn source.payload :: ops,
        ?_, _, Runs.run_cons_of_ok rfl (Runs.run_cons_of_ok rfl hrun)⟩
      intro op hop
      rcases List.mem_cons.mp hop with rfl | hop
      · exact Or.inl ⟨_, _, rfl⟩
      rcases List.mem_cons.mp hop with rfl | hop
      · exact Or.inr ⟨_, _, rfl⟩
      · exact hops op hop

section Handlers
variable {srv srv' : RtspServer} {c : ConnId} {conn conn' : RtspConnection} {q : RtspRequest}
  {env : HandlerEnv} {calls : List Call} {out : List ServerObs} {bytes : Bytes}

theorem lookMediaSession_some {suffix : Bytes} {id : UInt32} {session : MediaSession}
    (h : srv.lookMediaSession suffix = (some (id, session), srv')) :
    srv' = srv ∧ srv.mediaSessions id = some (some session) := by
  unfold lookMediaSession at h
  split at h
  · cases h
  · split at h
    case h_1 hs =>
      obtain ⟨h1,rfl⟩ := Prod.mk.inj h
      obtain ⟨rfl,rfl⟩ := Prod.mk.inj (Option.some.inj h1)
      exact ⟨rfl, hs⟩
    case h_2 => cases h
    case h_3 => cases h

/-- A lookup that fails leaves the server as it is, or with one more null pointer. -/
theorem lookMediaSession_none {suffix : Bytes} (h : srv.lookMediaSession suffix = (none, srv')) :
    srv' = srv ∨ ∃ id, srv.mediaSessions id = none ∧
      srv' = { srv with mediaSessions := Function.update srv.mediaSessions id (some none) } := by
  unfold lookMediaSession at h
  split at h
  · exact Or.inl (Prod.mk.inj h).2.symm
  · split at h
    case h_1 => cases h
    case h_2 => exact Or.inl (Prod.mk.inj h).2.symm
    case h_3 hs => exact Or.inr ⟨_, hs, (Prod.mk.inj h).2.symm⟩

/-- All that a DESCRIBE can do. -/
inductive Described (srv : RtspServer) (c : ConnId) (conn : RtspConnection) (q : RtspRequest) :
    RtspServer → RtspConnection → List Call → Prop
  | notFound (srv' : RtspServer) (rtpConn : RtpConnection) (calls : List Call)
      (look : srv.lookMediaSession q.getRtspUrlSuffix = (none, srv'))
      (prepared : Prepared conn rtpConn) :
      Described srv c conn q srv' { conn with rtpConn := some rtpConn } calls
  | found (id : UInt32) (session session' : MediaSession) (rtpConn : RtpConnection) (sdp : Bytes)
      (look : srv.lookMediaSession q.getRtspUrlSuffix = (some (id, session), srv))
      (registered : srv.mediaSessions id = some (some session))
      (prepared : Prepared conn rtpConn) (sessionId : session'.sessionId = session.sessionId)
      (clients : session'.clients = (session.addClient conn.tcpConn.fd c).2.clients)
      (sources : session'.mediaSources = session.mediaSources) :
      Described srv c conn q (srv.setSession id session')
        { conn with sessionId := session.sessionId, rtpConn := some rtpConn }
        [conn.sendMessage (q.buildDescribeRes 1024 sdp)]

theorem handleCmdDescribe_cases (h : srv.handleCmdDescribe c conn q env = (srv', conn', calls)) :
    Described srv c conn q srv' conn' calls := by
  unfold handleCmdDescribe at h
  dsimp only at h
  cases hlook : srv.lookMediaSession q.getRtspUrlSuffix with
  | mk found srv1 =>
    rw [hlook] at h
    cases found with
    | none =>
      obtain ⟨rfl,h2⟩ := Prod.mk.inj h
      obtain ⟨rfl,rfl⟩ := Prod.mk.inj h2
      exact .notFound _ _ _ hlook ⟨env.rtpMem, env.rd, [], [], by simp, rfl⟩
    | some found =>
      obtain ⟨id,session⟩ := found
      obtain ⟨rfl,hreg⟩ := lookMediaSession_some hlook
      dsimp only at h
      rw [if_neg (MediaSession.getSdpMessage_ne_nil _ _ _)] at h
      obtain ⟨rfl,h2⟩ := Prod.mk.inj h
      obtain ⟨rfl,rfl⟩ := Prod.mk.inj h2
      have hadd := @MediaSession.addClient_frame session conn.tcpConn.fd c
      have hsdp := @MediaSession.getSdpMessage_frame (session.addClient conn.tcpConn.fd c).2 env.now
        env.ip srv1.version
      have hid := congrArg MediaSession.sessionId hadd
      have := congrArg MediaSession.sessionId hsdp
      have hclients := congrArg MediaSession.clients hsdp
      have hsources := congrArg MediaSession.mediaSources hsdp
      have hadded := congrArg MediaSession.mediaSources hadd
      dsimp only at hid this hclients hsources hadded
      rw [hid]
      have hprepared : Prepared conn (RtspConnection.setSources (session.addClient conn.tcpConn.fd c).2
          (conn.rtpConn.getD (RtpConnection.new env.rtpMem conn.tcpConn env.rd))) := by
        obtain ⟨ops,hops,calls,hrun⟩ := setSources_run (session.addClient conn.tcpConn.fd c).2
          (conn.rtpConn.getD (RtpConnection.new env.rtpMem conn.tcpConn env.rd))
        exact ⟨_, _, ops, calls, hops, hrun⟩
      exact .found id session _ _ _ hlook hreg hprepared (this.trans hid) hclients
        (hsources.trans hadded)

/-- No handler touches the table of connections or the queue of tasks. -/
theorem Described.frame (h : Described srv c conn q srv' conn' calls) :
    srv'.rtspConnMap = srv.rtspConnMap ∧ srv'.nextConnId = srv.nextConnId ∧
      srv'.pending = srv.pending ∧ conn'.tcpConn = conn.tcpConn ∧ conn'.input = conn.input ∧
      conn'.rtpConn.isSome := by
  cases h with
  | notFound srv' rtpConn calls look prepared =>
    rcases lookMediaSession_none look with rfl | ⟨id,_,rfl⟩
    · exact ⟨rfl, rfl, rfl, rfl, rfl, rfl⟩
    · exact ⟨rfl, rfl, rfl, rfl, rfl, rfl⟩
  | found id session session' rtpConn sdp look registered prepared sessionId clients
      sources =>
    exact ⟨rfl, rfl, rfl, rfl, rfl, rfl⟩

/-- What the other five handlers leave alone. -/
structure Kept (conn conn' : RtspConnection) (ops : List RtpOp) : Prop where
  tcpConn : conn'.tcpConn = conn.tcpConn
  sessionId : conn'.sessionId = conn.sessionId
  ran : Ran ops conn.rtpConn conn'.rtpConn

theorem asAsked_nil (q : RtspRequest) : AsAsked q [] := fun _ _ _ _ h => by contradiction

theorem handleCmdSetup_kept {session : Option MediaSession} (hm : q.method = .SETUP)
    (h : conn.handleCmdSetup q session env = .ok (conn', calls)) :
    conn'.input = conn.input ∧ ∃ ops, Kept conn conn' ops ∧ AsAsked q ops := by
  unfold RtspConnection.handleCmdSetup at h
  cases session with
  | none =>
    obtain ⟨rfl,_⟩ := Prod.mk.inj (Except.ok.inj h)
    exact ⟨rfl, [], ⟨rfl, rfl, Ran.refl _⟩, asAsked_nil q⟩
  | some session =>
    dsimp only at h
    cases ht : q.transport with
    | rtpOverMulticast =>
      rw [ht] at h
      obtain ⟨rfl,_⟩ := Prod.mk.inj (Except.ok.inj h)
      exact ⟨rfl, [], ⟨rfl, rfl, Ran.refl _⟩, asAsked_nil q⟩
    | rtpOverTcp =>
      rw [ht] at h
      cases hr : conn.rtpConn with
      | none =>
        rw [hr] at h
        contradiction
      | some rtpConn =>
        rw [hr] at h
        obtain ⟨rfl,_⟩ := Prod.mk.inj (Except.ok.inj h)
        refine ⟨rfl, [.setupRtpOverTcp q.channelId q.getRtpChannel.toUInt16
          q.getRtcpChannel.toUInt16], ⟨rfl, rfl, ?_⟩, ?_⟩
        · rw [hr]
          exact .some _ _ _ (Runs.run_single rfl)
        · intro _ _ _ _ hop
          have := List.mem_singleton.mp hop
          contradiction
    | rtpOverUdp =>
      rw [ht] at h
      cases hr : conn.rtpConn with
      | none =>
        rw [hr] at h
        contradiction
      | some rtpConn =>
        rw [hr] at h
        obtain ⟨rfl,_⟩ := Prod.mk.inj (Except.ok.inj h)
        refine ⟨rfl, [.setupRtpOverUdp q.channelId q.getRtpPort q.getRtcpPort env.attempt],
          ⟨rfl, rfl, ?_⟩, ?_⟩
        · rw [hr]
          exact .some _ _ _ (Runs.run_single rfl)
        · intro channelId _ _ _ hop
          obtain ⟨hch,_⟩ := RtpOp.setupRtpOverUdp.inj (List.mem_singleton.mp hop)
          exact ⟨hm, ht, hch.symm⟩

theorem handleCommand_cases (h : srv.handleCommand c conn q env = .ok (srv', conn', calls)) :
    (q.method = .DESCRIBE ∧ Described srv c conn q srv' conn' calls) ∨
      (q.method ≠ .DESCRIBE ∧ srv' = srv ∧ conn'.input = conn.input ∧
        ∃ ops, Kept conn conn' ops ∧ AsAsked q ops) := by
  have hbind {x : Except Fault (RtspConnection × List Call)}
      (h : (do let r ← x; return (srv, r) : Except Fault _) = .ok (srv', conn', calls)) :
      srv' = srv ∧ x = .ok (conn', calls) := by
    obtain ⟨r,hr,h⟩ := Runs.bind_ok h
    obtain ⟨rfl,rfl⟩ := Prod.mk.inj (Except.ok.inj h)
    exact ⟨rfl, hr⟩
  -- a handler that runs one operation, or none
  have hone {rtpConn rtpConn' : RtpConnection} {op : RtpOp} (hr : conn.rtpConn = some rtpConn)
      (hstep : rtpConn.step op = .ok (rtpConn', []))
      (hop : ∀ channelId a b attempt, op ≠ .setupRtpOverUdp channelId a b attempt) :
      Ran [op] conn.rtpConn (some rtpConn') ∧ AsAsked q [op] := by
    rw [hr]
    refine ⟨.some _ _ _ (Runs.run_single hstep), ?_⟩
    intro channelId a b attempt hmem
    exact absurd (List.mem_singleton.mp hmem).symm (hop channelId a b attempt)
  have hnone : ∃ ops, Kept conn conn ops ∧ AsAsked q ops :=
    ⟨[], ⟨rfl, rfl, Ran.refl _⟩, asAsked_nil q⟩
  unfold handleCommand at h
  cases hm : q.method with
  | DESCRIBE =>
    rw [hm] at h
    exact Or.inl ⟨rfl, handleCmdDescribe_cases (Except.ok.inj h)⟩
  | SETUP =>
    rw [hm] at h
    obtain ⟨hsrv,h⟩ := hbind h
    exact Or.inr ⟨by decide, hsrv, handleCmdSetup_kept hm h⟩
  | OPTIONS =>
    rw [hm] at h
    obtain ⟨rfl,h2⟩ := Prod.mk.inj (Except.ok.inj h)
    obtain ⟨rfl,_⟩ := Prod.mk.inj h2
    exact Or.inr ⟨by decide, rfl, rfl, hnone⟩
  | PLAY =>
    rw [hm] at h
    obtain ⟨hsrv,h⟩ := hbind h
    unfold RtspConnection.handleCmdPlay at h
    split at h
    · contradiction
    case h_2 rtpConn hr =>
      obtain ⟨rfl,_⟩ := Prod.mk.inj (Except.ok.inj h)
      obtain ⟨hran,hasked⟩ := hone hr (rfl : rtpConn.step .play = .ok (rtpConn.play, []))
        (fun _ _ _ _ => by simp)
      exact Or.inr ⟨by decide, hsrv, rfl, [.play], ⟨rfl, rfl, hran⟩, hasked⟩
  | TEARDOWN =>
    rw [hm] at h
    obtain ⟨hsrv,h⟩ := hbind h
    unfold RtspConnection.handleCmdTeardown at h
    split at h
    · contradiction
    case h_2 rtpConn hr =>
      obtain ⟨rfl,_⟩ := Prod.mk.inj (Except.ok.inj h)
      obtain ⟨hran,hasked⟩ := hone hr (rfl : rtpConn.step .teardown = .ok (rtpConn.teardown, []))
        (fun _ _ _ _ => by simp)
      exact Or.inr ⟨by decide, hsrv, rfl, [.teardown], ⟨rfl, rfl, hran⟩, hasked⟩
  | GET_PARAMETER =>
    rw [hm] at h
    obtain ⟨hsrv,h⟩ := hbind h
    unfold RtspConnection.handleCmdGetParamter at h
    split at h
    · contradiction
    · obtain ⟨rfl,_⟩ := Prod.mk.inj (Except.ok.inj h)
      exact Or.inr ⟨by decide, hsrv, rfl, hnone⟩
  | RTCP =>
    rw [hm] at h
    obtain ⟨rfl,h2⟩ := Prod.mk.inj (Except.ok.inj h)
    obtain ⟨rfl,_⟩ := Prod.mk.inj h2
    exact Or.inr ⟨by decide, rfl, rfl, hnone⟩
  | NONE =>
    rw [hm] at h
    obtain ⟨rfl,h2⟩ := Prod.mk.inj (Except.ok.inj h)
    obtain ⟨rfl,_⟩ := Prod.mk.inj h2
    exact Or.inr ⟨by decide, rfl, rfl, hnone⟩

/-- What a read on a connection can do. -/
inductive Served (srv : RtspServer) (c : ConnId) (ev : ServerEvent) :
    RtspServer → List ServerObs → Prop
  | closed (gone : srv.rtspConnMap c = none) : Served srv c ev srv []
  | waiting (conn : RtspConnection) (input : RtspInput) (here : srv.rtspConnMap c = some conn)
      (read : ∃ bytes events, conn.input.receive bytes = .ok (input, events)) :
      Served srv c ev (srv.setConn c { conn with input := input }) []
  | described (conn : RtspConnection) (input : RtspInput) (here : srv.rtspConnMap c = some conn)
      (read : ∃ bytes events, conn.input.receive bytes = .ok (input, events))
      (q : RtspRequest) (dispatch : srv.dispatched ev = some (c, q)) (method : q.method = .DESCRIBE)
      (srv' : RtspServer) (conn' : RtspConnection) (calls : List Call)
      (effect : Described srv c { conn with input := input } q srv' conn' calls) :
      Served srv c ev (srv'.setConn c conn') (.command c q :: calls.map (ServerObs.call c))
  | other (conn : RtspConnection) (here : srv.rtspConnMap c = some conn) (q : RtspRequest)
      (dispatch : srv.dispatched ev = some (c, q)) (method : q.method ≠ .DESCRIBE)
      (conn' : RtspConnection)
      (read : ∃ bytes events, conn.input.receive bytes = .ok (conn'.input, events)) (ops : List RtpOp) (kept : Kept conn conn' ops)
      (asked : AsAsked q ops) (calls : List Call) :
      Served srv c ev (srv.setConn c conn') (.command c q :: calls.map (ServerObs.call c))

theorem onMessage_cases (h : srv.onMessage c bytes env = .ok (srv', out)) :
    Served srv c (.message c bytes env) srv' out := by
  unfold onMessage at h
  cases hc : srv.rtspConnMap c with
  | none =>
    rw [hc] at h
    obtain ⟨rfl,rfl⟩ := Prod.mk.inj (Except.ok.inj h)
    exact .closed hc
  | some conn =>
    rw [hc] at h
    obtain ⟨⟨input,events⟩,hread,h⟩ := Runs.bind_ok h
    dsimp only at h
    cases hcommand : commandIn events with
    | none =>
      rw [hcommand] at h
      obtain ⟨rfl,rfl⟩ := Prod.mk.inj (Except.ok.inj h)
      exact .waiting conn input hc ⟨_, _, hread⟩
    | some q =>
      rw [hcommand] at h
      obtain ⟨⟨srv1,conn1,calls⟩,hhandle,h⟩ := Runs.bind_ok h
      obtain ⟨rfl,rfl⟩ := Prod.mk.inj (Except.ok.inj h)
      have hdispatch : srv.dispatched (.message c bytes env) = some (c, q) := by
        simp only [dispatched, hc, hread, hcommand, Option.map_some]
      rcases handleCommand_cases hhandle with ⟨hm,heffect⟩ | ⟨hm,rfl,hinput,ops,hkept,hasked⟩
      · exact .described conn input hc ⟨_, _, hread⟩ q hdispatch hm srv1 conn1 calls heffect
      · refine .other conn hc q hdispatch hm conn1 ?_ ops
          ⟨hkept.tcpConn, hkept.sessionId, hkept.ran⟩ hasked calls
        rw [hinput]
        exact ⟨_, _, hread⟩

end Handlers

theorem setConn_lookMediaSessionId (srv : RtspServer) (c : ConnId) (conn : RtspConnection)
    (id : UInt32) : (srv.setConn c conn).lookMediaSessionId id = srv.lookMediaSessionId id := rfl

@[simp] theorem setConn_self (srv : RtspServer) (c : ConnId) (conn : RtspConnection) :
    (srv.setConn c conn).rtspConnMap c = some conn := Function.update_self ..

section Steps
variable {srv srv' : RtspServer} {ev : ServerEvent} {out : List ServerObs}

/-- No handler has been called for the connection. -/
def Unserved (out : List ServerObs) (d : ConnId) : Prop := ∀ q, .command d q ∉ out

/-- What an event can do to one connection. -/
inductive ConnStep (srv srv' : RtspServer) (ev : ServerEvent) (out : List ServerObs) (d : ConnId) :
    Prop
  | same (unchanged : srv'.rtspConnMap d = srv.rtspConnMap d) (unserved : Unserved out d)
  | opened (number : d = srv.nextConnId) (next : srv'.nextConnId = srv.nextConnId+1)
      (conn' : RtspConnection) (after : srv'.rtspConnMap d = some conn') (sessionId : conn'.sessionId = 0)
      (rtpConn : conn'.rtpConn = none) (name : conn'.tcpConn.name ≠ [])
      (input : ∃ mem, conn'.input = RtspInput.new mem) (unserved : Unserved out d)
  | closed (event : ev = .close d) (after : srv'.rtspConnMap d = none) (unserved : Unserved out d)
  | kept (conn conn' : RtspConnection) (before : srv.rtspConnMap d = some conn)
      (after : srv'.rtspConnMap d = some conn') (ops : List RtpOp) (kept : Kept conn conn' ops)
      (read : conn'.input = conn.input ∨
        ∃ bytes events, conn.input.receive bytes = .ok (conn'.input, events))
      (asked : ∀ channelId a b attempt, .setupRtpOverUdp channelId a b attempt ∈ ops →
        srv.AsksUdp ev d channelId)
      (served : ∀ q, .command d q ∈ out → q.method ≠ .DESCRIBE)
  | described (conn conn' : RtspConnection) (input : RtspInput) (q : RtspRequest)
      (srv1 : RtspServer) (calls : List Call) (before : srv.rtspConnMap d = some conn)
      (after : srv'.rtspConnMap d = some conn')
      (read : ∃ bytes events, conn.input.receive bytes = .ok (input, events))
      (dispatch : srv.dispatched ev = some (d, q)) (method : q.method = .DESCRIBE)
      (effect : Described srv d { conn with input := input } q srv1 conn' calls)
      (obs : out = .command d q :: calls.map (ServerObs.call d))

theorem unserved_nil (d : ConnId) : Unserved [] d := fun _ h => by contradiction

theorem unserved_calls (c d : ConnId) (calls : List Call) :
    Unserved (calls.map (ServerObs.call c)) d := by
  intro q hq
  obtain ⟨_,_,h⟩ := List.mem_map.mp hq
  contradiction

theorem command_mem_iff {c d : ConnId} {p q : RtspRequest} {calls : List Call} :
    .command d q ∈ ServerObs.command c p :: calls.map (ServerObs.call c) ↔ d = c ∧ q = p := by
  rw [List.mem_cons]
  constructor
  · rintro (h | h)
    · exact ServerObs.command.inj h
    · exact absurd h (unserved_calls c d calls q)
  · rintro ⟨rfl,rfl⟩
    exact Or.inl rfl

theorem addMediaSession_conns (suffix : Bytes) (sources : MediaChannelId → Option MediaSource) :
    (srv.addMediaSession suffix sources).rtspConnMap = srv.rtspConnMap ∧
      (srv.addMediaSession suffix sources).nextConnId = srv.nextConnId := by
  unfold addMediaSession
  dsimp only
  split
  · exact ⟨rfl, rfl⟩
  · split <;> exact ⟨rfl, rfl⟩

theorem removeMediaSession_conns {id : UInt32} (h : srv.removeMediaSession id = .ok srv') :
    srv'.rtspConnMap = srv.rtspConnMap ∧ srv'.nextConnId = srv.nextConnId := by
  unfold removeMediaSession at h
  split at h
  · obtain rfl := Except.ok.inj h
    exact ⟨rfl, rfl⟩
  · contradiction
  · obtain rfl := Except.ok.inj h
    exact ⟨rfl, rfl⟩

theorem setRtspUrlSuffix_conns (id : UInt32) (suffix : Bytes) :
    (srv.setRtspUrlSuffix id suffix).rtspConnMap = srv.rtspConnMap ∧
      (srv.setRtspUrlSuffix id suffix).nextConnId = srv.nextConnId := by
  unfold setRtspUrlSuffix
  split <;> exact ⟨rfl, rfl⟩

/-- A push hands packets to connections and changes none of them. -/
theorem pushFrame_conns {id : UInt32} {channelId : MediaChannelId} {frame : AVFrame}
    {now : UInt32} {alloc : ℕ → PacketData} {mem : ℕ → Bytes → PacketData}
    (h : srv.pushFrame id channelId frame now alloc mem = .ok (srv', out)) :
    srv'.rtspConnMap = srv.rtspConnMap ∧ srv'.nextConnId = srv.nextConnId ∧
      ∀ d, Unserved out d := by
  unfold pushFrame at h
  split at h
  · obtain ⟨rfl,rfl⟩ := Prod.mk.inj (Except.ok.inj h)
    exact ⟨rfl, rfl, unserved_nil⟩
  · split at h
    · obtain ⟨rfl,rfl⟩ := Prod.mk.inj (Except.ok.inj h)
      exact ⟨rfl, rfl, unserved_nil⟩
    · obtain ⟨⟨ok,session,p⟩,_,h⟩ := Runs.bind_ok h
      obtain ⟨rfl,rfl⟩ := Prod.mk.inj (Except.ok.inj h)
      refine ⟨rfl, rfl, ?_⟩
      intro d q hq
      rcases List.mem_append.mp hq with hq | hq
      · obtain ⟨_,_,h⟩ := List.mem_map.mp hq
        contradiction
      · obtain ⟨_,_,h⟩ := List.mem_map.mp hq
        contradiction

theorem runTask_conns {c : ConnId} {ret : ℤ} (h : srv.runTask c ret = .ok (srv', out)) (d : ConnId) :
    ConnStep srv srv' ev out d ∧ srv'.nextConnId = srv.nextConnId := by
  unfold runTask at h
  split at h
  · obtain ⟨rfl,rfl⟩ := Prod.mk.inj (Except.ok.inj h)
    exact ⟨.same rfl (unserved_nil d), rfl⟩
  case h_2 task _ =>
    split at h
    · contradiction
    case h_2 conn hc =>
      split at h
      · contradiction
      case h_2 rtpConn hr =>
        obtain ⟨⟨rtpConn',calls⟩,htask,h⟩ := Runs.bind_ok h
        obtain ⟨rfl,rfl⟩ := Prod.mk.inj (Except.ok.inj h)
        refine ⟨?_, rfl⟩
        by_cases hd : d = c
        · subst hd
          have hran : Ran [.sendRtpPacketInLoop task.channelId task.pkt ret] conn.rtpConn
              (some rtpConn') := by
            rw [hr]
            exact .some _ _ _ (Runs.run_single htask)
          refine .kept conn _ hc (Function.update_self ..) _ ⟨rfl, rfl, hran⟩ (Or.inl rfl) ?_ ?_
          · intro _ _ _ _ hop
            have := List.mem_singleton.mp hop
            contradiction
          · intro q hq
            exact absurd hq (unserved_calls _ _ _ q)
        · exact .same (Function.update_of_ne hd ..) (unserved_calls c d calls)

theorem served_conns {c : ConnId} (h : Served srv c ev srv' out) (d : ConnId) :
    ConnStep srv srv' ev out d ∧ srv'.nextConnId = srv.nextConnId := by
  cases h with
  | closed gone => exact ⟨.same rfl (unserved_nil d), rfl⟩
  | waiting conn input here read =>
    refine ⟨?_, rfl⟩
    by_cases hd : d = c
    · subst hd
      exact .kept conn _ here (Function.update_self ..) [] ⟨rfl, rfl, Ran.refl _⟩
        (Or.inr read) (by simp) (by simp)
    · exact .same (Function.update_of_ne hd ..) (unserved_nil d)
  | described conn input here read q dispatch method srv1 conn' calls effect =>
    obtain ⟨hmap,hnext,_⟩ := effect.frame
    refine ⟨?_, hnext⟩
    by_cases hd : d = c
    · subst hd
      exact .described conn conn' input q srv1 calls here (Function.update_self ..) read
        dispatch method effect rfl
    · refine .same ?_ (fun q hq => hd (command_mem_iff.mp hq).1)
      rw [setConn, hmap]
      exact Function.update_of_ne hd ..
  | other conn here q dispatch method conn' read ops kept asked calls =>
    refine ⟨?_, rfl⟩
    by_cases hd : d = c
    · subst hd
      refine .kept conn conn' here (Function.update_self ..) ops kept (Or.inr read) ?_ ?_
      · intro channelId a b attempt hop
        exact ⟨q, dispatch, asked channelId a b attempt hop⟩
      · intro p hp
        rw [(command_mem_iff.mp hp).2]
        exact method
    · exact .same (Function.update_of_ne hd ..) (fun q hq => hd (command_mem_iff.mp hq).1)

theorem connName_ne_nil : srv.connName ≠ [] := by
  rw [connName]
  simp [ascii]

theorem step_conn (h : srv.step ev = .ok (srv', out)) (d : ConnId) :
    ConnStep srv srv' ev out d ∧ srv.nextConnId ≤ srv'.nextConnId := by
  cases ev with
  | newConnection fd peer mem =>
    obtain ⟨rfl,rfl⟩ := Prod.mk.inj (Except.ok.inj h)
    refine ⟨?_, Nat.le_succ _⟩
    by_cases hd : d = srv.nextConnId
    · subst hd
      exact .opened rfl rfl _ (Function.update_self ..) rfl rfl connName_ne_nil
        ⟨mem, rfl⟩ (unserved_nil _)
    · exact .same (Function.update_of_ne hd ..) (unserved_nil d)
  | message c bytes env =>
    obtain ⟨hconn,hnext⟩ := served_conns (onMessage_cases h) d
    exact ⟨hconn, hnext.ge⟩
  | close c =>
    obtain ⟨rfl,rfl⟩ := Prod.mk.inj (Except.ok.inj h)
    refine ⟨?_, Nat.le_refl _⟩
    by_cases hd : d = c
    · subst hd
      exact .closed rfl (Function.update_self ..) (unserved_calls d d _)
    · exact .same (Function.update_of_ne hd ..) (unserved_calls c d _)
  | addMediaSession suffix sources =>
    obtain ⟨rfl,rfl⟩ := Prod.mk.inj (Except.ok.inj h)
    obtain ⟨hmap,hnext⟩ := addMediaSession_conns suffix sources
    exact ⟨.same (by rw [hmap]) (unserved_nil d), hnext.ge⟩
  | removeMediaSession id =>
    obtain ⟨srv1,hrem,h⟩ := Runs.bind_ok h
    obtain ⟨rfl,rfl⟩ := Prod.mk.inj (Except.ok.inj h)
    obtain ⟨hmap,hnext⟩ := removeMediaSession_conns hrem
    exact ⟨.same (by rw [hmap]) (unserved_nil d), hnext.ge⟩
  | setRtspUrlSuffix id suffix =>
    obtain ⟨rfl,rfl⟩ := Prod.mk.inj (Except.ok.inj h)
    obtain ⟨hmap,hnext⟩ := setRtspUrlSuffix_conns id suffix
    exact ⟨.same (by rw [hmap]) (unserved_nil d), hnext.ge⟩
  | pushFrame id channelId frame now alloc mem =>
    obtain ⟨hmap,hnext,hout⟩ := pushFrame_conns h
    exact ⟨.same (by rw [hmap]) (hout d), hnext.ge⟩
  | runTask c ret =>
    obtain ⟨hconn,hnext⟩ := runTask_conns h d
    exact ⟨hconn, hnext.ge⟩

end Steps

section Sessions
variable {srv srv' : RtspServer} {ev : ServerEvent} {out : List ServerObs} {id : UInt32}

theorem setSession_self (srv : RtspServer) (id : UInt32) (session : MediaSession) :
    (srv.setSession id session).lookMediaSessionId id = some session := by
  have hself : (srv.setSession id session).mediaSessions id = some (some session) :=
    Function.update_self ..
  rw [lookMediaSessionId, hself]
  rfl

theorem setSession_of_ne {id j : UInt32} (h : j ≠ id) (session : MediaSession) :
    (srv.setSession id session).lookMediaSessionId j = srv.lookMediaSessionId j := by
  have hother : (srv.setSession id session).mediaSessions j = srv.mediaSessions j :=
    Function.update_of_ne h ..
  rw [lookMediaSessionId, hother]
  rfl

theorem lookMediaSessionId_of_registered {session : MediaSession}
    (h : srv.mediaSessions id = some (some session)) : srv.lookMediaSessionId id = some session := by
  rw [lookMediaSessionId, h]
  rfl

/-- What an event can do to the session that is registered under an id. -/
inductive SessionStep (srv srv' : RtspServer) (ev : ServerEvent) (out : List ServerObs)
    (id : UInt32) : Prop
  | same (unchanged : srv'.lookMediaSessionId id = srv.lookMediaSessionId id)
  | added (session : MediaSession) (before : srv.lookMediaSessionId id = none)
      (after : srv'.lookMediaSessionId id = some session) (sessionId : session.sessionId = id)
      (clients : session.clients = ∅)
  | removed (event : ev = .removeMediaSession id) (after : srv'.lookMediaSessionId id = none)
  | renamed (session session' : MediaSession) (before : srv.lookMediaSessionId id = some session)
      (after : srv'.lookMediaSessionId id = some session')
      (sessionId : session'.sessionId = session.sessionId)
      (clients : session'.clients = session.clients)
  | joined (c : ConnId) (conn : RtspConnection) (q : RtspRequest) (session session' : MediaSession)
      (before : srv.lookMediaSessionId id = some session)
      (after : srv'.lookMediaSessionId id = some session')
      (sessionId : session'.sessionId = session.sessionId) (here : srv.rtspConnMap c = some conn)
      (clients : session'.clients = (session.addClient conn.tcpConn.fd c).2.clients)
      (dispatch : srv.dispatched ev = some (c, q)) (method : q.method = .DESCRIBE)
      (found : srv.lookMediaSession q.getRtspUrlSuffix = (some (id, session), srv))
      (served : .command c q ∈ out)
  | pushed (channelId : MediaChannelId) (session : MediaSession) (p : PushState)
      (before : srv.lookMediaSessionId id = some session)
      (after : srv'.lookMediaSessionId id = some { session with clients := p.clients })
      (push : MediaSession.Pushed srv.lock channelId session.clients p)

/-- The sources of a new session do not touch its clients. -/
theorem addSources_frame (sources : MediaChannelId → Option MediaSource) (chns : List MediaChannelId)
    (session : MediaSession) :
    (chns.foldl (fun session chn =>
      match sources chn with
      | none => session
      | some source => session.addMediaSource chn source) session).sessionId = session.sessionId ∧
    (chns.foldl (fun session chn =>
      match sources chn with
      | none => session
      | some source => session.addMediaSource chn source) session).clients = session.clients := by
  induction chns generalizing session with
  | nil => exact ⟨rfl, rfl⟩
  | cons chn chns ih =>
    rw [List.foldl_cons]
    cases sources chn with
    | none => exact ih session
    | some source => exact ih (session.addMediaSource chn source)

theorem addMediaSession_session (suffix : Bytes) (sources : MediaChannelId → Option MediaSource) :
    SessionStep srv (srv.addMediaSession suffix sources) ev out id := by
  obtain ⟨hid,hclients⟩ := addSources_frame sources mediaChannels
    (MediaSession.creatNew srv.lastMediaSessionId suffix).2
  unfold addMediaSession
  dsimp only
  generalize mediaChannels.foldl _ (MediaSession.creatNew srv.lastMediaSessionId suffix).2 = session
    at hid hclients ⊢
  split
  · exact .same rfl
  · split
    · exact .same rfl
    case h_2 hnone =>
      by_cases h : id = session.sessionId
      · subst h
        refine .added session ?_ (setSession_self ..) rfl hclients
        rw [lookMediaSessionId, hnone]
        rfl
      · exact .same (setSession_of_ne h session)

theorem removeMediaSession_session {id' : UInt32} (h : srv.removeMediaSession id' = .ok srv') :
    SessionStep srv srv' (.removeMediaSession id') out id := by
  unfold removeMediaSession at h
  split at h
  · obtain rfl := Except.ok.inj h
    exact .same rfl
  · contradiction
  · obtain rfl := Except.ok.inj h
    by_cases hid : id = id'
    · subst hid
      refine .removed rfl ?_
      rw [lookMediaSessionId]
      dsimp only
      rw [Function.update_self]
      rfl
    · refine .same ?_
      rw [lookMediaSessionId]
      dsimp only
      rw [Function.update_of_ne hid]
      rfl

theorem setRtspUrlSuffix_session (id' : UInt32) (suffix : Bytes) :
    SessionStep srv (srv.setRtspUrlSuffix id' suffix) ev out id := by
  unfold setRtspUrlSuffix
  split
  · exact .same rfl
  case h_2 session hlook =>
    by_cases h : id = id'
    · subst h
      exact .renamed session _ hlook (setSession_self ..) rfl rfl
    · exact .same (setSession_of_ne h _)

theorem pushFrame_session {id' : UInt32} {channelId : MediaChannelId} {frame : AVFrame}
    {now : UInt32} {alloc : ℕ → PacketData} {mem : ℕ → Bytes → PacketData}
    (h : srv.pushFrame id' channelId frame now alloc mem = .ok (srv', out)) :
    SessionStep srv srv' ev out id := by
  unfold pushFrame at h
  split at h
  · obtain ⟨rfl,_⟩ := Prod.mk.inj (Except.ok.inj h)
    exact .same rfl
  case h_2 session hlook =>
    split at h
    · obtain ⟨rfl,_⟩ := Prod.mk.inj (Except.ok.inj h)
      exact .same rfl
    · obtain ⟨⟨ok,session',p⟩,hframe,h⟩ := Runs.bind_ok h
      obtain ⟨rfl,_⟩ := Prod.mk.inj (Except.ok.inj h)
      obtain ⟨rfl,hpush,_⟩ := MediaSession.handleFrame_spec hframe
      by_cases hid : id = id'
      · subst hid
        exact .pushed channelId session p hlook (setSession_self srv id _) hpush
      · exact .same (setSession_of_ne hid _)

theorem runTask_sessions {c : ConnId} {ret : ℤ} (h : srv.runTask c ret = .ok (srv', out)) :
    srv'.mediaSessions = srv.mediaSessions := by
  unfold runTask at h
  split at h
  · obtain ⟨rfl,_⟩ := Prod.mk.inj (Except.ok.inj h)
    rfl
  · split at h
    · contradiction
    · split at h
      · contradiction
      · obtain ⟨⟨rtpConn,calls⟩,_,h⟩ := Runs.bind_ok h
        obtain ⟨rfl,_⟩ := Prod.mk.inj (Except.ok.inj h)
        rfl

theorem served_session {c : ConnId} (h : Served srv c ev srv' out) :
    SessionStep srv srv' ev out id := by
  cases h with
  | closed gone => exact .same rfl
  | waiting conn input here read => exact .same rfl
  | other conn here q dispatch method conn' read ops kept asked calls => exact .same rfl
  | described conn input here read q dispatch method srv1 conn' calls effect =>
    cases effect with
    | notFound srv1 rtpConn calls look prepared =>
      refine .same ?_
      rcases lookMediaSession_none look with rfl | ⟨id',hnone,rfl⟩
      · rfl
      · -- the entry that the lookup makes holds no session
        by_cases hid : id = id'
        · subst hid
          simp only [lookMediaSessionId, setConn, Function.update_self, hnone]
          rfl
        · simp only [lookMediaSessionId, setConn, Function.update_of_ne hid]
    | found id' session session' rtpConn sdp look registered prepared sessionId clients
      sources =>
      by_cases hid : id = id'
      · subst hid
        exact .joined c conn q session session' (lookMediaSessionId_of_registered registered)
          (setSession_self srv id _) sessionId here clients dispatch method look
          List.mem_cons_self
      · exact .same (setSession_of_ne hid _)

theorem step_session (h : srv.step ev = .ok (srv', out)) (id : UInt32) :
    SessionStep srv srv' ev out id := by
  cases ev with
  | newConnection fd peer mem =>
    obtain ⟨rfl,_⟩ := Prod.mk.inj (Except.ok.inj h)
    exact .same rfl
  | message c bytes env => exact served_session (onMessage_cases h)
  | close c =>
    obtain ⟨rfl,_⟩ := Prod.mk.inj (Except.ok.inj h)
    exact .same rfl
  | addMediaSession suffix sources =>
    obtain ⟨rfl,_⟩ := Prod.mk.inj (Except.ok.inj h)
    exact addMediaSession_session suffix sources
  | removeMediaSession id' =>
    obtain ⟨srv1,hrem,h⟩ := Runs.bind_ok h
    obtain ⟨rfl,_⟩ := Prod.mk.inj (Except.ok.inj h)
    exact removeMediaSession_session hrem
  | setRtspUrlSuffix id' suffix =>
    obtain ⟨rfl,_⟩ := Prod.mk.inj (Except.ok.inj h)
    exact setRtspUrlSuffix_session id' suffix
  | pushFrame id' channelId frame now alloc mem => exact pushFrame_session h
  | runTask c ret =>
    refine .same ?_
    rw [lookMediaSessionId, runTask_sessions h]
    rfl

end Sessions

section Runs
variable {srv srv' : RtspServer} {ev : ServerEvent} {out : List ServerObs} {c : ConnId}
  {conn : RtspConnection} {bytes : Bytes} {env : HandlerEnv}

theorem run_conn {s s' : RtpConnection} {ops : List RtpOp} {calls : List Call} {tcp : TcpHandle}
    (ht : s.tcpConn = some tcp) (h : s.run ops = .ok (s', calls)) : s'.tcpConn = some tcp :=
  Runs.run_preserves (fun s => s.tcpConn = some tcp)
    (fun _ _ _ _ hs hstep => (RtpConnection.step_fds _ hs hstep).conn) ht h

/-- What holds of every connection that is open. -/
structure ConnInvariant (srv : RtspServer) : Prop where
  number : ∀ d, srv.nextConnId ≤ d → srv.rtspConnMap d = none
  name : ∀ d conn, srv.rtspConnMap d = some conn → conn.tcpConn.name ≠ []
  handle : ∀ d conn s, srv.rtspConnMap d = some conn → conn.rtpConn = some s →
    s.tcpConn = some conn.tcpConn
  cleared : ∀ d conn, srv.rtspConnMap d = some conn → conn.input.request.Cleared

theorem Prepared.tcpConn {s : RtpConnection} (h : Prepared conn s)
    (hold : ∀ s, conn.rtpConn = some s → s.tcpConn = some conn.tcpConn) :
    s.tcpConn = some conn.tcpConn := by
  obtain ⟨mem,rd,ops,calls,_,hrun⟩ := h
  apply run_conn _ hrun
  cases hr : conn.rtpConn with
  | none => rfl
  | some t => exact hold t hr

theorem Described.rtpConn {conn' : RtspConnection} {q : RtspRequest} {calls : List Call}
    (h : Described srv c conn q srv' conn' calls) :
    ∃ s, conn'.rtpConn = some s ∧ Prepared conn s := by
  cases h with
  | notFound srv' rtpConn calls look prepared => exact ⟨_, rfl, prepared⟩
  | found id session session' rtpConn sdp look registered prepared sessionId clients
      sources =>
    exact ⟨_, rfl, prepared⟩

theorem ConnInvariant.step (hI : ConnInvariant srv) (h : srv.step ev = .ok (srv', out)) :
    ConnInvariant srv' := by
  refine ⟨?_, ?_, ?_, ?_⟩
  · intro d hd
    obtain ⟨hconn,hnext⟩ := step_conn h d
    have hold := hI.number d (Nat.le_trans hnext hd)
    cases hconn with
    | same unchanged unserved => exact unchanged.trans hold
    | closed event after unserved => exact after
    | opened number next conn' after sessionId rtpConn name input unserved =>
      rw [next, number] at hd
      exact absurd hd (Nat.not_succ_le_self _)
    | kept conn conn' before after ops kept read asked served =>
      rw [hold] at before
      contradiction
    | described conn conn' input q srv1 calls before after read dispatch method effect obs =>
      rw [hold] at before
      contradiction
  · intro d conn' hd
    cases (step_conn h d).1 with
    | same unchanged unserved => exact hI.name d conn' (unchanged ▸ hd)
    | closed event after unserved =>
      rw [after] at hd
      contradiction
    | opened number next conn1 after sessionId rtpConn name input unserved =>
      obtain rfl := Option.some.inj (after.symm.trans hd)
      exact name
    | kept conn conn1 before after ops kept read asked served =>
      obtain rfl := Option.some.inj (after.symm.trans hd)
      rw [kept.tcpConn]
      exact hI.name d conn before
    | described conn conn1 input q srv1 calls before after read dispatch method effect obs =>
      obtain rfl := Option.some.inj (after.symm.trans hd)
      obtain ⟨_,_,_,htcp,_⟩ := effect.frame
      rw [htcp]
      exact hI.name d conn before
  · intro d conn' s hd hs
    cases (step_conn h d).1 with
    | same unchanged unserved => exact hI.handle d conn' s (unchanged ▸ hd) hs
    | closed event after unserved =>
      rw [after] at hd
      contradiction
    | opened number next conn1 after sessionId rtpConn name input unserved =>
      obtain rfl := Option.some.inj (after.symm.trans hd)
      rw [rtpConn] at hs
      contradiction
    | kept conn conn1 before after ops kept read asked served =>
      obtain rfl := Option.some.inj (after.symm.trans hd)
      have hran := kept.ran
      rw [hs] at hran
      cases hr : conn.rtpConn with
      | none =>
        rw [hr] at hran
        cases hran
      | some t =>
        rw [hr] at hran
        cases hran with
        | some _ _ calls run =>
          rw [kept.tcpConn]
          exact run_conn (hI.handle d conn t before hr) run
    | described conn conn1 input q srv1 calls before after read dispatch method effect obs =>
      obtain rfl := Option.some.inj (after.symm.trans hd)
      obtain ⟨t,ht,hprepared⟩ := effect.rtpConn
      obtain rfl := Option.some.inj (ht.symm.trans hs)
      obtain ⟨_,_,_,htcp,_⟩ := effect.frame
      rw [htcp]
      exact hprepared.tcpConn (fun s hs => hI.handle d conn s before hs)
  · intro d conn' hd
    have hread {input input' : RtspInput} (hold : input.request.Cleared)
        (hr : ∃ bytes events, input.receive bytes = .ok (input', events)) :
        input'.request.Cleared := by
      obtain ⟨bytes,events,hr⟩ := hr
      exact receive_cleared hold hr
    cases (step_conn h d).1 with
    | same unchanged unserved => exact hI.cleared d conn' (unchanged ▸ hd)
    | closed event after unserved =>
      rw [after] at hd
      contradiction
    | opened number next conn1 after sessionId rtpConn name input unserved =>
      obtain rfl := Option.some.inj (after.symm.trans hd)
      obtain ⟨mem,hinput⟩ := input
      rw [hinput]
      exact fun _ => ⟨rfl, rfl⟩
    | kept conn conn1 before after ops kept read asked served =>
      obtain rfl := Option.some.inj (after.symm.trans hd)
      rcases read with read | read
      · rw [read]
        exact hI.cleared d conn before
      · exact hread (hI.cleared d conn before) read
    | described conn conn1 input q srv1 calls before after read dispatch method effect obs =>
      obtain rfl := Option.some.inj (after.symm.trans hd)
      obtain ⟨_,_,_,_,hinput,_⟩ := effect.frame
      rw [hinput]
      exact hread (hI.cleared d conn before) read

theorem connInvariant_new (ipPort version : Bytes) :
    ConnInvariant (RtspServer.new ipPort version) :=
  ⟨fun _ _ => rfl, fun _ _ h => by contradiction, fun _ _ _ h => by contradiction,
    fun _ _ h => by contradiction⟩

theorem run_connInvariant {ipPort version : Bytes} {evs : List ServerEvent}
    (h : (RtspServer.new ipPort version).run evs = .ok (srv, out)) : ConnInvariant srv :=
  Runs.run_preserves ConnInvariant (fun _ _ _ _ hI hs => hI.step hs)
    (connInvariant_new ipPort version) h

theorem onMessage_command {input : RtspInput} {events : List RtspEvent} {q : RtspRequest}
    (hc : srv.rtspConnMap c = some conn) (hread : conn.input.receive bytes = .ok (input, events))
    (hq : commandIn events = some q) : srv.onMessage c bytes env =
      (srv.handleCommand c { conn with input := input } q env).bind (fun r =>
        .ok (r.1.setConn c r.2.1, .command c q :: r.2.2.map (ServerObs.call c))) := by
  simp only [onMessage, hc, hread, bind, Except.bind, hq]
  rfl

/-- A command is brought by a read on an open connection. -/
theorem dispatched_event {q : RtspRequest} (h : srv.dispatched ev = some (c, q)) :
    ∃ bytes env conn, ev = .message c bytes env ∧ srv.rtspConnMap c = some conn := by
  cases ev with
  | message d bytes env =>
    rw [dispatched] at h
    cases hc : srv.rtspConnMap d with
    | none =>
      rw [hc] at h
      contradiction
    | some conn =>
      rw [hc] at h
      dsimp only at h
      split at h
      · contradiction
      · obtain ⟨_,_,heq⟩ := Option.map_eq_some_iff.mp h
        obtain ⟨rfl,_⟩ := Prod.mk.inj heq
        exact ⟨bytes, env, conn, rfl, hc⟩
  | _ => contradiction

theorem dispatched_message {q : RtspRequest} (hc : srv.rtspConnMap c = some conn)
    (h : srv.dispatched (.message c bytes env) = some (c, q)) : ∃ input events,
      conn.input.receive bytes = .ok (input, events) ∧ commandIn events = some q := by
  rw [dispatched, hc] at h
  dsimp only at h
  split at h
  · contradiction
  case h_2 input events hread =>
    obtain ⟨p,hp,heq⟩ := Option.map_eq_some_iff.mp h
    obtain ⟨_,rfl⟩ := Prod.mk.inj heq
    exact ⟨input, events, hread, hp⟩

/-- A DESCRIBE does what its handler does. -/
theorem step_described {q : RtspRequest} (hd : srv.dispatched ev = some (c, q))
    (hm : q.method = .DESCRIBE) (h : srv.step ev = .ok (srv', out)) :
    ∃ conn input srv1 conn' calls, srv.rtspConnMap c = some conn ∧
      Described srv c { conn with input := input } q srv1 conn' calls ∧
      srv' = srv1.setConn c conn' ∧ out = .command c q :: calls.map (ServerObs.call c) := by
  obtain ⟨bytes,env,conn,rfl,hc⟩ := dispatched_event hd
  obtain ⟨input,events,hread,hq⟩ := dispatched_message hc hd
  rw [RtspServer.step, onMessage_command hc hread hq] at h
  obtain ⟨⟨srv1,conn',calls⟩,hhandle,h⟩ := Runs.bind_ok h
  obtain ⟨rfl,rfl⟩ := Prod.mk.inj (Except.ok.inj h)
  rcases handleCommand_cases hhandle with ⟨_,heffect⟩ | ⟨hne,_⟩
  · exact ⟨conn, input, srv1, conn', calls, hc, heffect, rfl, rfl⟩
  · exact absurd hm hne

/-- A well-formed request in a read of its own, on a connection between requests. -/
theorem step_own {r : Request} (hc : srv.rtspConnMap c = some conn) (hwf : r.WellFormed)
    (hidle : conn.input.Idle) : ∃ input : RtspInput, input.Idle ∧ input.request.Cleared ∧
      srv.dispatched (.message c r.encode env) = some (c, conn.input.request.parsed r) ∧
      srv.step (.message c r.encode env) =
        (srv.handleCommand c { conn with input := input } (conn.input.request.parsed r) env).bind
          (fun x => .ok (x.1.setConn c x.2.1,
            .command c (conn.input.request.parsed r) :: x.2.2.map (ServerObs.call c))) := by
  obtain ⟨input,events,hread,hq,hidle',hcleared⟩ := receive_own hwf hidle
  refine ⟨input, hidle', hcleared, ?_, onMessage_command hc hread hq⟩
  simp only [dispatched, hc, hread, hq, Option.map_some]

/-- A DESCRIBE in a read of its own that finds a session. -/
theorem step_describe {r : Request} {id : UInt32} {session : MediaSession}
    (hc : srv.rtspConnMap c = some conn) (hidle : conn.input.Idle)
    (hcleared : conn.input.request.Cleared) (hwf : r.WellFormed) (hm : r.method = .DESCRIBE)
    (hlook : srv.lookMediaSession r.suffix = (some (id, session), srv)) :
    ∃ conn' session' q sdp, srv.step (.message c r.encode env) =
        .ok ((srv.setSession id session').setConn c conn',
          [.command c q, .call c (conn.sendMessage (q.buildDescribeRes 1024 sdp))]) ∧
      (conn'.input.Idle ∧ conn'.input.request.Cleared) ∧ conn'.sessionId = session.sessionId ∧
      conn'.tcpConn = conn.tcpConn ∧ (∃ s, conn'.rtpConn = some s ∧ Prepared conn s) ∧
      session'.sessionId = session.sessionId ∧
      session'.clients = (session.addClient conn.tcpConn.fd c).2.clients ∧
      session'.mediaSources = session.mediaSources := by
  obtain ⟨input,hidle',hcleared',_,hstep⟩ := @step_own srv c conn env r hc hwf hidle
  have hdispatch := parsed_dispatch hwf hidle.1 hcleared
  generalize conn.input.request.parsed r = q at hstep hdispatch
  have hmethod : q.method = .DESCRIBE := (congrArg Dispatch.method hdispatch).trans hm
  have hsuffix : q.getRtspUrlSuffix = r.suffix := congrArg Dispatch.urlSuffix hdispatch
  obtain ⟨srv',conn',calls,hhandle⟩ : ∃ srv' conn' calls, srv.handleCommand c
      { conn with input := input } q env = .ok (srv', conn', calls) := by
    rw [handleCommand, hmethod]
    exact ⟨_, _, _, rfl⟩
  rcases handleCommand_cases hhandle with ⟨_,heffect⟩ | ⟨hne,_⟩
  · rw [hhandle] at hstep
    cases heffect with
    | notFound srv' rtpConn calls look prepared =>
      rw [hsuffix, hlook] at look
      cases look
    | found id' session1 session' rtpConn sdp look registered prepared sessionId clients sources =>
      rw [hsuffix, hlook] at look
      obtain ⟨rfl,rfl⟩ := Prod.mk.inj (Option.some.inj (Prod.mk.inj look).1)
      exact ⟨_, session', q, sdp, hstep, ⟨hidle', hcleared'⟩, rfl, rfl, ⟨rtpConn, rfl, prepared⟩,
        sessionId, clients, sources⟩
  · exact absurd hmethod hne

/-- A PLAY in a read of its own. -/
theorem step_play {r : Request} {s : RtpConnection} (hc : srv.rtspConnMap c = some conn)
    (hidle : conn.input.Idle) (hcleared : conn.input.request.Cleared) (hwf : r.WellFormed)
    (hm : r.method = .PLAY) (hs : conn.rtpConn = some s) :
    ∃ input out, (input.Idle ∧ input.request.Cleared) ∧ srv.step (.message c r.encode env) =
      .ok (srv.setConn c { conn with
        input := input, connState := .START_PLAY, rtpConn := some s.play }, out) := by
  obtain ⟨input,hidle',hcleared',_,hstep⟩ := @step_own srv c conn env r hc hwf hidle
  have hmethod := congrArg Dispatch.method (parsed_dispatch hwf hidle.1 hcleared)
  generalize conn.input.request.parsed r = q at hstep hmethod
  have hplay : q.method = .PLAY := hmethod.trans hm
  refine ⟨input, ?out, ⟨hidle', hcleared'⟩, ?step⟩
  case step =>
    rw [hstep, handleCommand, hplay]
    dsimp only
    rw [RtspConnection.handleCmdPlay]
    dsimp only
    rw [hs]
    rfl

/-- A TEARDOWN in a read of its own. -/
theorem step_teardown {r : Request} {s : RtpConnection} (hc : srv.rtspConnMap c = some conn)
    (hidle : conn.input.Idle) (hcleared : conn.input.request.Cleared) (hwf : r.WellFormed)
    (hm : r.method = .TEARDOWN) (hs : conn.rtpConn = some s) :
    ∃ input q out, (input.Idle ∧ input.request.Cleared) ∧
      (srv.dispatched (.message c r.encode env) = some (c, q) ∧ q.method = .TEARDOWN) ∧
      srv.step (.message c r.encode env) = .ok (srv.setConn c { conn with
        input := input, rtpConn := some s.teardown }, out) := by
  obtain ⟨input,hidle',hcleared',hdispatch,hstep⟩ := @step_own srv c conn env r hc hwf hidle
  have hmethod := congrArg Dispatch.method (parsed_dispatch hwf hidle.1 hcleared)
  generalize conn.input.request.parsed r = q at hstep hmethod hdispatch
  have hteardown : q.method = .TEARDOWN := hmethod.trans hm
  refine ⟨input, q, ?out, ⟨hidle', hcleared'⟩, ⟨hdispatch, hteardown⟩, ?step⟩
  case step =>
    rw [hstep, handleCommand, hteardown]
    dsimp only
    rw [RtspConnection.handleCmdTeardown]
    dsimp only
    rw [hs]
    rfl

/-- The requests, the environment and the session of the examples in the modules below. -/
def describeRequest (suffix : Bytes) : Request :=
  ⟨.DESCRIBE, ascii "h", 554, suffix, 1, [cseqHeader 1, ascii "Accept: application/sdp"]⟩

def playRequest : Request :=
  ⟨.PLAY, ascii "h", 554, ascii "s", 2, [cseqHeader 2, ascii "Session: 1"]⟩

theorem describeRequest_wellFormed {suffix : Bytes} (h : suffix = ascii "s" ∨ suffix = ascii "t") :
    (describeRequest suffix).WellFormed := by
  rcases h with rfl | rfl
  · constructor <;> decide +kernel
  · constructor <;> decide +kernel

theorem playRequest_wellFormed : playRequest.WellFormed := by constructor <;> decide +kernel

/-- Both ports are bound in the first round. -/
def boundEnv : HandlerEnv :=
  ⟨RtpConnection.zeroed, fun _ _ => 0, fun _ => ⟨0, 6, true, 7, true⟩, 0, 0, []⟩

def videoOnly : MediaChannelId → Option MediaSource
  | .channel_0 => some (H264Source.createNew 25)
  | .channel_1 => none

end Runs

end RtspServer

end IdealServer
