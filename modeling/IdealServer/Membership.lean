import IdealServer.Transports

/-! Who is in the client map of a session. An entry under a descriptor outlives its connection, and
`addClient` leaves an entry that is there alone. -/
namespace IdealServer
namespace RtspServer

/-- The connection and the session of a DESCRIBE that finds its session. -/
def describes (srv : RtspServer) (ev : ServerEvent) : Option (ConnId × UInt32) :=
  match srv.dispatched ev with
  | none => none
  | some (c, q) =>
    if q.method = .DESCRIBE then
      (srv.lookMediaSession q.getRtspUrlSuffix).1.map (fun found => (c, found.1))
    else none

/-- A DESCRIBE that finds a session comes from a connection that is in no other session. -/
def StaysInOne (srv : RtspServer) (ev : ServerEvent) : Prop :=
  ∀ c id, srv.describes ev = some (c, id) → ∀ id' session, id' ≠ id →
    srv.lookMediaSessionId id' = some session → ∀ fd : ℤ, session.clients[fd]? ≠ some c

section Entries
variable {srv srv' : RtspServer} {ev : ServerEvent} {out : List ServerObs} {id : UInt32}
  {c d : ConnId} {session' : MediaSession} {fd : ℤ}

theorem describes_of_dispatched {q : RtspRequest} {session : MediaSession}
    (hd : srv.dispatched ev = some (c, q)) (hm : q.method = .DESCRIBE)
    (hlook : srv.lookMediaSession q.getRtspUrlSuffix = (some (id, session), srv')) :
    srv.describes ev = some (c, id) := by
  simp only [describes, hd, hm, hlook, Option.map_some, ↓reduceIte]

theorem describes_some (h : srv.describes ev = some (c, id)) : ∃ q session,
    srv.dispatched ev = some (c, q) ∧ q.method = .DESCRIBE ∧
      srv.lookMediaSession q.getRtspUrlSuffix = (some (id, session), srv) := by
  unfold describes at h
  split at h
  · contradiction
  case h_2 d q hdispatch =>
    split at h
    case isFalse => contradiction
    case isTrue hm =>
      obtain ⟨⟨id1,session⟩,hfound,heq⟩ := Option.map_eq_some_iff.mp h
      obtain ⟨rfl,rfl⟩ := Prod.mk.inj heq
      have hlook : srv.lookMediaSession q.getRtspUrlSuffix =
          (some (id1, session), (srv.lookMediaSession q.getRtspUrlSuffix).2) := by rw [← hfound]
      have hsame := (lookMediaSession_some hlook).1
      rw [hsame] at hlook
      exact ⟨q, session, hdispatch, hm, hlook⟩

/-- An entry is an old one, or the one of a connection that has just sent a DESCRIBE. -/
theorem SessionStep.entry (h : SessionStep srv srv' ev out id)
    (ha : srv'.lookMediaSessionId id = some session') (he : session'.clients[fd]? = some d) :
    (∃ session, srv.lookMediaSessionId id = some session ∧ session.clients[fd]? = some d) ∨
      ∃ conn q, srv.rtspConnMap d = some conn ∧ srv.dispatched ev = some (d, q) ∧
        srv.describes ev = some (d, id) ∧ q.method = .DESCRIBE ∧ .command d q ∈ out := by
  cases h with
  | same unchanged => exact Or.inl ⟨session', unchanged ▸ ha, he⟩
  | added session before after sessionId clients =>
    obtain rfl := Option.some.inj (after.symm.trans ha)
    rw [clients] at he
    simp at he
  | removed event after =>
    rw [after] at ha
    contradiction
  | renamed session session1 before after sessionId clients =>
    obtain rfl := Option.some.inj (after.symm.trans ha)
    exact Or.inl ⟨session, before, clients ▸ he⟩
  | joined c conn q session session1 before after sessionId here clients dispatch method found served =>
    obtain rfl := Option.some.inj (after.symm.trans ha)
    rw [clients, MediaSession.addClient_getElem?] at he
    split at he
    case isTrue =>
      obtain rfl := Option.some.inj he
      exact Or.inr ⟨conn, q, here, dispatch, describes_of_dispatched dispatch method found, method,
        served⟩
    case isFalse => exact Or.inl ⟨session, before, he⟩
  | pushed channelId session p before after push =>
    obtain rfl := Option.some.inj (after.symm.trans ha)
    exact Or.inl ⟨session, before, push.old fd d he⟩

theorem SessionStep.sessionId (h : SessionStep srv srv' ev out id)
    (hold : ∀ session, srv.lookMediaSessionId id = some session → session.sessionId = id)
    (ha : srv'.lookMediaSessionId id = some session') : session'.sessionId = id := by
  cases h with
  | same unchanged => exact hold session' (unchanged ▸ ha)
  | added session before after sessionId clients =>
    obtain rfl := Option.some.inj (after.symm.trans ha)
    exact sessionId
  | removed event after =>
    rw [after] at ha
    contradiction
  | renamed session session1 before after sessionId clients =>
    obtain rfl := Option.some.inj (after.symm.trans ha)
    exact sessionId.trans (hold session before)
  | joined c conn q session session1 before after sessionId here clients dispatch method found served =>
    obtain rfl := Option.some.inj (after.symm.trans ha)
    exact sessionId.trans (hold session before)
  | pushed channelId session p before after push =>
    obtain rfl := Option.some.inj (after.symm.trans ha)
    exact hold session before

/-- Every open connection that is in a session refers to that session. -/
structure Members (srv : RtspServer) : Prop where
  key : ∀ id session, srv.lookMediaSessionId id = some session → session.sessionId = id
  known : ∀ id session (fd : ℤ) d, srv.lookMediaSessionId id = some session →
    session.clients[fd]? = some d → d < srv.nextConnId
  refers : ∀ id session (fd : ℤ) d conn, srv.lookMediaSessionId id = some session →
    session.clients[fd]? = some d → srv.rtspConnMap d = some conn → conn.sessionId = id

theorem Members.step (hI : Members srv) (hconns : ConnInvariant srv) (hone : srv.StaysInOne ev)
    (h : srv.step ev = .ok (srv', out)) : Members srv' := by
  refine ⟨?_, ?_, ?_⟩
  · intro id session' ha
    exact (step_session h id).sessionId (hI.key id) ha
  · intro id session' fd d ha he
    obtain ⟨_,hnext⟩ := step_conn h d
    apply Nat.lt_of_lt_of_le _ hnext
    rcases (step_session h id).entry ha he with ⟨session,hb,he⟩ | ⟨conn,q,hd,_⟩
    · exact hI.known id session fd d hb he
    · apply Nat.lt_of_not_le
      intro hle
      rw [hconns.number d hle] at hd
      contradiction
  · intro id session' fd d conn' ha he hd
    have hentry := (step_session h id).entry ha he
    -- only a DESCRIBE on the connection itself changes what it refers to
    cases (step_conn h d).1 with
    | same unchanged unserved =>
      rcases hentry with ⟨session,hb,he⟩ | ⟨conn,q,_,_,_,_,hserved⟩
      · exact hI.refers id session fd d conn' hb he (unchanged ▸ hd)
      · exact absurd hserved (unserved q)
    | opened number next conn1 after sessionId rtpConn name input unserved =>
      rcases hentry with ⟨session,hb,he⟩ | ⟨conn,q,_,_,_,_,hserved⟩
      · have hlt := hI.known id session fd d hb he
        rw [number] at hlt
        exact absurd hlt (Nat.lt_irrefl _)
      · exact absurd hserved (unserved q)
    | closed event after unserved =>
      rw [after] at hd
      contradiction
    | kept conn conn1 before after ops kept read asked served =>
      obtain rfl := Option.some.inj (after.symm.trans hd)
      rcases hentry with ⟨session,hb,he⟩ | ⟨_,q,_,_,_,hm,hserved⟩
      · rw [kept.sessionId]
        exact hI.refers id session fd d conn hb he before
      · exact absurd hm (served q hserved)
    | described conn conn1 input q srv1 calls before after read dispatch method effect obs =>
      obtain rfl := Option.some.inj (after.symm.trans hd)
      cases effect with
      | notFound srv1 rtpConn calls look prepared =>
        rcases hentry with ⟨session,hb,he⟩ | ⟨_,_,_,_,hfinds,_,_⟩
        · exact hI.refers id session fd d conn hb he before
        · simp only [describes, dispatch, method, look, Option.map_none, ↓reduceIte] at hfinds
          contradiction
      | found id1 session1 session2 rtpConn sdp look registered prepared sessionId clients sources =>
        have hfinds := describes_of_dispatched dispatch method look
        have hid : id = id1 := by
          rcases hentry with ⟨session,hb,he⟩ | ⟨_,_,_,_,hfinds',_,_⟩
          · by_contra hne
            exact hone d id1 hfinds id session hne hb fd he
          · exact (Prod.mk.inj (Option.some.inj (hfinds'.symm.trans hfinds))).2
        rw [hid]
        exact hI.key id1 session1 (lookMediaSessionId_of_registered registered)

theorem members_new (ipPort version : Bytes) : Members (RtspServer.new ipPort version) :=
  ⟨fun _ _ h => by contradiction, fun _ _ _ _ h => by contradiction,
    fun _ _ _ _ _ h => by contradiction⟩


theorem lookMediaSession_of_registered {suffix : Bytes} {session : MediaSession}
    (hsuffix : srv.rtspSuffixMap suffix = some id)
    (hregistered : srv.mediaSessions id = some (some session)) :
    srv.lookMediaSession suffix = (some (id, session), srv) := by
  unfold lookMediaSession
  rw [hsuffix]
  dsimp only
  rw [hregistered]

/-- A DESCRIBE in a read of its own. -/
theorem describes_own {conn : RtspConnection} {env : HandlerEnv} {r : Request} {session : MediaSession}
    (hc : srv.rtspConnMap c = some conn) (hidle : conn.input.Idle)
    (hcleared : conn.input.request.Cleared) (hwf : r.WellFormed) (hm : r.method = .DESCRIBE)
    (hlook : srv.lookMediaSession r.suffix = (some (id, session), srv)) :
    srv.describes (.message c r.encode env) = some (c, id) := by
  obtain ⟨_,_,_,hdispatch,_⟩ := @step_own srv c conn env r hc hwf hidle
  have hparsed := parsed_dispatch hwf hidle.1 hcleared
  apply describes_of_dispatched hdispatch ((congrArg Dispatch.method hparsed).trans hm)
  rw [← hlook]
  exact congrArg _ (congrArg Dispatch.urlSuffix hparsed)

end Entries

section Push
variable {srv srv' : RtspServer} {out : List ServerObs} {id : UInt32} {channelId : MediaChannelId}
  {frame : AVFrame} {now : UInt32} {alloc : ℕ → PacketData} {mem : ℕ → Bytes → PacketData}

/-- What a push that reaches the session's source shows. -/
theorem pushFrame_spec {session : MediaSession} (hlook : srv.lookMediaSessionId id = some session)
    (hclients : session.getNumClient ≠ 0)
    (h : srv.pushFrame id channelId frame now alloc mem = .ok (srv', out)) :
    ∃ p, MediaSession.Pushed srv.lock channelId session.clients p ∧
      out = p.packets.map (ServerObs.packet id) ++ p.handed.map (ServerObs.handed id) ∧
      (session.mediaSources channelId ≠ none → ∃ sent,
        handleFrame now alloc (some collect) channelId frame [] = .ok (p.packets, sent)) := by
  unfold pushFrame at h
  rw [hlook] at h
  dsimp only at h
  rw [if_neg hclients] at h
  obtain ⟨⟨ok,session',p⟩,hframe,h⟩ := Runs.bind_ok h
  obtain ⟨_,rfl⟩ := Prod.mk.inj (Except.ok.inj h)
  obtain ⟨_,hpush,hpackets⟩ := MediaSession.handleFrame_spec hframe
  exact ⟨p, hpush, rfl, hpackets⟩

theorem pushFrame_ok (h0 : frame.buffer ≠ []) (hsize : frame.size.toNat < 2^31) :
    ∃ r, srv.pushFrame id channelId frame now alloc mem = .ok r := by
  unfold pushFrame
  split
  · exact ⟨_, rfl⟩
  · split
    · exact ⟨_, rfl⟩
    · obtain ⟨r,hr⟩ := MediaSession.handleFrame_ok h0 hsize
      rw [hr]
      exact ⟨_, rfl⟩

/-- A packet is handed to clients of the session only. -/
theorem handed_client {h : Handed} {id' : UInt32}
    (hpush : srv.pushFrame id channelId frame now alloc mem = .ok (srv', out))
    (hh : .handed id' h ∈ out) : id' = id ∧ ∃ session conn, ∃ fd : ℤ,
      srv.lookMediaSessionId id = some session ∧ session.clients[fd]? = some h.conn ∧
      srv.rtspConnMap h.conn = some conn := by
  cases hlook : srv.lookMediaSessionId id with
  | none =>
    unfold pushFrame at hpush
    rw [hlook] at hpush
    obtain ⟨_,rfl⟩ := Prod.mk.inj (Except.ok.inj hpush)
    contradiction
  | some session =>
    by_cases hclients : session.getNumClient = 0
    · unfold pushFrame at hpush
      rw [hlook] at hpush
      dsimp only at hpush
      rw [if_pos hclients] at hpush
      obtain ⟨_,rfl⟩ := Prod.mk.inj (Except.ok.inj hpush)
      contradiction
    · obtain ⟨p,hp,rfl,_⟩ := pushFrame_spec hlook hclients hpush
      rcases List.mem_append.mp hh with hh | hh
      · obtain ⟨_,_,heq⟩ := List.mem_map.mp hh
        contradiction
      · obtain ⟨x,hx,heq⟩ := List.mem_map.mp hh
        obtain ⟨rfl,rfl⟩ := ServerObs.handed.inj heq
        obtain ⟨_,hreach,fd,hfd⟩ := hp.to_client x hx
        have hlock := MediaSession.lock_isSome_of_reaches hreach
        rw [lock] at hlock
        cases hconn : srv.rtspConnMap x.conn with
        | none =>
          rw [hconn] at hlock
          contradiction
        | some conn => exact ⟨rfl, session, conn, fd, rfl, hfd, rfl⟩

end Push

/-- The open connection is in the session's client map, under its own descriptor. -/
structure Member (srv : RtspServer) (id : UInt32) (c : ConnId) (tcp : TcpHandle) : Prop where
  entry : ∃ session, srv.lookMediaSessionId id = some session ∧ session.clients[tcp.fd]? = some c
  conn : ∃ conn s, srv.rtspConnMap c = some conn ∧ conn.tcpConn = tcp ∧ conn.rtpConn = some s

/-- A member to which every packet of every frame is handed that is pushed to the session. -/
structure Reached (srv : RtspServer) (id : UInt32) (c : ConnId) (tcp : TcpHandle) : Prop where
  member : Member srv id c tcp
  frames : ∀ channelId frame now alloc mem srv' out session,
    srv.step (.pushFrame id channelId frame now alloc mem) = .ok (srv', out) →
    srv.lookMediaSessionId id = some session → session.mediaSources channelId ≠ none →
    ∃ pkts sent, handleFrame now alloc (some collect) channelId frame [] = .ok (pkts, sent) ∧
      ∀ pkt ∈ pkts, ∃ h, .handed id h ∈ out ∧ h.conn = c ∧ h.channelId = channelId ∧
        MediaSession.content h.pkt = MediaSession.content pkt

section Kept
variable {srv srv' : RtspServer} {ev : ServerEvent} {out : List ServerObs} {id : UInt32} {c : ConnId}
  {tcp : TcpHandle}

/-- While the connection is open the send callback can lock it. -/
theorem Member.lock (hm : Member srv id c tcp) : (srv.lock c).isSome := by
  obtain ⟨conn,s,hc,_,hs⟩ := hm.conn
  rw [RtspServer.lock, hc, Option.bind_some, hs]
  rfl

theorem Member.reaches (hm : Member srv id c tcp) (hI : ConnInvariant srv) :
    MediaSession.reaches srv.lock c = true := by
  obtain ⟨conn,s,hc,_,hs⟩ := hm.conn
  have hlock : srv.lock c = some s := by
    rw [RtspServer.lock, hc, Option.bind_some, hs]
  have hid : s.getId ≠ [] := by
    rw [RtpConnection.getId, hI.handle c conn s hc hs]
    exact hI.name c conn hc
  simp only [MediaSession.reaches, hlock, decide_eq_true_eq]
  exact hid

/-- Only the end of the connection or of the session ends the membership. -/
theorem Member.step (hm : Member srv id c tcp) (hI : ConnInvariant srv)
    (hev : ev ≠ .close c ∧ ev ≠ .removeMediaSession id) (h : srv.step ev = .ok (srv', out)) :
    Member srv' id c tcp := by
  obtain ⟨session,hb,he⟩ := hm.entry
  obtain ⟨conn,s,hc,htcp,hs⟩ := hm.conn
  refine ⟨?_, ?_⟩
  · cases step_session h id with
    | same unchanged => exact ⟨session, unchanged.trans hb, he⟩
    | added session1 before after sessionId clients =>
      rw [before] at hb
      contradiction
    | removed event after => exact absurd event hev.2
    | renamed session1 session' before after sessionId clients =>
      obtain rfl := Option.some.inj (before.symm.trans hb)
      exact ⟨session', after, by rw [clients, he]⟩
    | joined d conn1 q session1 session' before after sessionId here clients dispatch method found
        served =>
      obtain rfl := Option.some.inj (before.symm.trans hb)
      refine ⟨session', after, ?_⟩
      -- `addClient` does not replace an entry
      rw [clients, MediaSession.addClient_getElem?]
      split
      case isTrue hnew =>
        rw [← hnew.1, he] at hnew
        obtain ⟨_,hnone⟩ := hnew
        contradiction
      case isFalse => exact he
    | pushed channelId session1 p before after push =>
      obtain rfl := Option.some.inj (before.symm.trans hb)
      exact ⟨_, after, push.kept tcp.fd c he hm.lock⟩
  · cases (step_conn h c).1 with
    | same unchanged unserved => exact ⟨conn, s, unchanged.trans hc, htcp, hs⟩
    | opened number next conn1 after sessionId rtpConn name input unserved =>
      rw [hI.number c (Nat.le_of_eq number.symm)] at hc
      contradiction
    | closed event after unserved => exact absurd event hev.1
    | kept conn1 conn' before after ops kept read asked served =>
      obtain rfl := Option.some.inj (before.symm.trans hc)
      have hsome := kept.ran.isSome
      rw [hs] at hsome
      obtain ⟨s',hs'⟩ := Option.isSome_iff_exists.mp hsome
      exact ⟨conn', s', after, kept.tcpConn.trans htcp, hs'⟩
    | described conn1 conn' input q srv1 calls before after read dispatch method effect obs =>
      obtain rfl := Option.some.inj (before.symm.trans hc)
      obtain ⟨_,_,_,htcp',_⟩ := effect.frame
      obtain ⟨s',hs',_⟩ := effect.rtpConn
      exact ⟨conn', s', after, htcp'.trans htcp, hs'⟩

theorem Member.reached (hm : Member srv id c tcp) (hI : ConnInvariant srv) :
    Reached srv id c tcp := by
  refine ⟨hm, ?_⟩
  intro channelId frame now alloc mem srv' out session hpush hlook hsource
  obtain ⟨session1,hb,he⟩ := hm.entry
  obtain rfl := Option.some.inj (hb.symm.trans hlook)
  have hclients : session1.getNumClient ≠ 0 := by
    intro hzero
    have hempty : session1.clients.isEmpty = true := by
      rw [Std.TreeMap.isEmpty_eq_size_eq_zero]
      exact beq_iff_eq.mpr hzero
    rw [Std.TreeMap.getElem?_of_isEmpty hempty] at he
    contradiction
  obtain ⟨p,hp,rfl,hpackets⟩ := pushFrame_spec hlook hclients hpush
  obtain ⟨sent,hsent⟩ := hpackets hsource
  refine ⟨p.packets, sent, hsent, ?_⟩
  intro pkt hpkt
  obtain ⟨x,hx,hconn,hcontent⟩ := hp.to_all tcp.fd c he (hm.reaches hI) pkt hpkt
  exact ⟨x, List.mem_append_right _ (List.mem_map_of_mem hx), hconn, (hp.to_client x hx).1, hcontent⟩

/-- A DESCRIBE that finds a session is answered with 200, and the connection then is a member of the
session if and only if the entry under its descriptor was free or its own. -/
theorem describe_member (hstep : srv.step ev = .ok (srv', out)) (hd : srv.describes ev = some (c, id)) :
    ∃ conn session, srv.rtspConnMap c = some conn ∧ srv.lookMediaSessionId id = some session ∧
      (∃ q sdp, out = [.command c q, .call c (conn.sendMessage (q.buildDescribeRes 1024 sdp))]) ∧
      (Member srv' id c conn.tcpConn ↔
        session.clients[conn.tcpConn.fd]? = none ∨ session.clients[conn.tcpConn.fd]? = some c) := by
  obtain ⟨q,session,hdispatch,hm,hlook⟩ := describes_some hd
  obtain ⟨conn,input,srv2,conn',calls,hc,heffect,rfl,rfl⟩ := step_described hdispatch hm hstep
  cases heffect with
  | notFound srv2 rtpConn calls look prepared =>
    rw [hlook] at look
    cases look
  | found id1 session1 session' rtpConn sdp look registered prepared sessionId clients sources =>
    rw [hlook] at look
    obtain ⟨rfl,rfl⟩ := Prod.mk.inj (Option.some.inj (Prod.mk.inj look).1)
    refine ⟨conn, session, hc, lookMediaSessionId_of_registered registered, ⟨q, sdp, rfl⟩, ?_⟩
    have hentry : session'.clients[conn.tcpConn.fd]? =
        if session.clients[conn.tcpConn.fd]? = none then some c
        else session.clients[conn.tcpConn.fd]? := by
      rw [clients, MediaSession.addClient_getElem?]
      simp only [true_and]
    have hlook' : RtspServer.lookMediaSessionId ((srv.setSession id session').setConn c
        { conn with input := input, sessionId := session.sessionId, rtpConn := some rtpConn }) id =
        some session' := setSession_self srv id session'
    constructor
    · intro h
      obtain ⟨session2,hb,he⟩ := h.entry
      obtain rfl := Option.some.inj (hlook'.symm.trans hb)
      rw [hentry] at he
      split at he
      case isTrue hnone => exact Or.inl hnone
      case isFalse => exact Or.inr he
    · intro hfree
      refine ⟨⟨session', hlook', ?_⟩, _, rtpConn, setConn_self .., rfl, rfl⟩
      rw [hentry]
      rcases hfree with hfree | hfree
      · rw [if_pos hfree]
      · rw [if_neg (by rw [hfree]; simp), hfree]

/-- A membership lasts until the connection or the session is ended. -/
theorem Member.run {post : List ServerEvent} (hm : Member srv id c tcp) (hI : ConnInvariant srv)
    (hkeeps : ∀ ev ∈ post, ev ≠ .close c ∧ ev ≠ .removeMediaSession id)
    (h : srv.run post = .ok (srv', out)) : ConnInvariant srv' ∧ Member srv' id c tcp :=
  Runs.run_preserves_along (fun s => ConnInvariant s ∧ Member s id c tcp)
    (fun _ _ _ _ hs hev hstep => ⟨hs.1.step hstep, hs.2.step hs.1 hev hstep⟩) ⟨hI, hm⟩
    (Runs.along_of_forall (fun ev hev _ => hkeeps ev hev)) h

end Kept

section Samples

/-- Setting the parameters of the sources does not close anything. -/
theorem Prepared.isClosed {conn : RtspConnection} {s : RtpConnection} (h : Prepared conn s)
    (hold : ∀ s, conn.rtpConn = some s → s.isClosed = false) : s.isClosed = false := by
  obtain ⟨mem,rd,ops,calls,hops,hrun⟩ := h
  apply Runs.run_preserves_along (fun s => s.isClosed = false) _ _
    (Runs.along_of_forall (fun op hop _ => hops op hop)) hrun
  · rintro s op s' out hs (⟨chn,r,rfl⟩ | ⟨chn,p,rfl⟩) hstep
    · obtain ⟨rfl,_⟩ := Prod.mk.inj (Except.ok.inj hstep)
      exact hs
    · obtain ⟨rfl,_⟩ := Prod.mk.inj (Except.ok.inj hstep)
      exact hs
  · cases hr : conn.rtpConn with
    | none => rfl
    | some t => exact hold t hr

/-- An I frame of one byte. -/
def keyFrame : AVFrame := ⟨[0x65], 1, videoFrameI, 90, rfl⟩

/-- A push of it with fixed memory. -/
def pushKeyFrame (id : UInt32) : ServerEvent :=
  .pushFrame id .channel_0 keyFrame 7 (fun _ => PacketData.zeros) (fun _ _ => PacketData.zeros)

/-- Every packet of the frame fits and opens the gate for key frames. -/
theorem keyFrame_packets : ∃ pkts, handleFrame 7 (fun _ => PacketData.zeros) (some collect) .channel_0
    keyFrame [] = .ok (pkts, true) ∧ pkts ≠ [] ∧
    ∀ p ∈ pkts, p.size.toNat = 17 ∧ p.type = videoFrameI := by
  obtain ⟨pkts,hpkts,hcase⟩ := handle_frame_packets 7 (fun _ => PacketData.zeros) .channel_0 keyFrame
    (by decide) (by decide)
  rcases hcase with ⟨_,p,rfl,hp⟩ | ⟨hlarge,_⟩
  · refine ⟨[p], hpkts, by simp, ?_⟩
    intro q hq
    obtain rfl := List.mem_singleton.mp hq
    exact ⟨hp.size_eq, hp.type_eq⟩
  · exact absurd hlarge (by decide)

/-- A member of a session with video is handed a packet of the frame. -/
theorem Member.pushKeyFrame {srv : RtspServer} {id : UInt32} {c : ConnId} {tcp : TcpHandle}
    {session : MediaSession} (hm : Member srv id c tcp) (hI : ConnInvariant srv)
    (hlook : srv.lookMediaSessionId id = some session)
    (hsource : session.mediaSources .channel_0 ≠ none) :
    ∃ srv' out h, srv.step (pushKeyFrame id) = .ok (srv', out) ∧ .handed id h ∈ out ∧
      h.conn = c ∧ h.channelId = .channel_0 ∧ h.pkt.size.toNat = 17 ∧ h.pkt.type = videoFrameI := by
  obtain ⟨⟨srv',out⟩,hpush⟩ := @pushFrame_ok srv id .channel_0 keyFrame 7 (fun _ => PacketData.zeros)
    (fun _ _ => PacketData.zeros) (by decide) (by decide)
  obtain ⟨pkts,sent,hpkts,hall⟩ := (hm.reached hI).frames .channel_0 keyFrame 7 _ _ srv' out session
    hpush hlook hsource
  obtain ⟨pkts',hpkts',hne,hsize⟩ := keyFrame_packets
  obtain ⟨rfl,_⟩ := Prod.mk.inj (Except.ok.inj (hpkts.symm.trans hpkts'))
  obtain ⟨p,hp⟩ := List.exists_mem_of_ne_nil _ hne
  obtain ⟨h,hh,hc,hchannel,hcontent⟩ := hall p hp
  have hsame := congrArg (fun x => (x.2.1, x.2.2.2.1)) hcontent
  obtain ⟨h1,h2⟩ := Prod.mk.inj hsame
  refine ⟨srv', out, h, hpush, hh, hc, hchannel, ?_, h2.trans (hsize p hp).2⟩
  exact (congrArg UInt32.toNat h1).trans (hsize p hp).1

/-- Two sessions, and one client that has not sent anything yet. -/
def twoSessions : List ServerEvent :=
  [.addMediaSession (ascii "s") videoOnly, .addMediaSession (ascii "t") videoOnly,
    .newConnection 5 ⟨1, 2⟩ blankRequest]

/-- The session has this name and this number, a video source and no client. -/
structure Unused (srv : RtspServer) (suffix : Bytes) (id : UInt32) (session : MediaSession) : Prop where
  suffix : srv.rtspSuffixMap suffix = some id
  registered : srv.mediaSessions id = some (some session)
  sessionId : session.sessionId = id
  clients : session.clients = ∅
  source : session.mediaSources .channel_0 ≠ none

theorem Unused.look {srv : RtspServer} {suffix : Bytes} {id : UInt32} {session : MediaSession}
    (h : Unused srv suffix id session) :
    srv.lookMediaSession suffix = (some (id, session), srv) :=
  lookMediaSession_of_registered h.suffix h.registered

theorem run_twoSessions : ∃ srv conn s t, (RtspServer.new [] []).run twoSessions = .ok (srv, []) ∧
    (srv.rtspConnMap 1 = some conn ∧ srv.nextConnId = 2 ∧ conn.tcpConn.fd = 5) ∧
    (conn.input.Idle ∧ conn.input.request.Cleared) ∧ conn.rtpConn = none ∧ Unused srv (ascii "s") 2 s ∧ Unused srv (ascii "t") 3 t ∧
    ∀ id session, srv.lookMediaSessionId id = some session → session.clients = ∅ := by
  refine ⟨(((RtspServer.new [] []).addMediaSession (ascii "s") videoOnly).addMediaSession
    (ascii "t") videoOnly).newConnection 5 ⟨1, 2⟩ blankRequest, _, _, _, rfl, ⟨rfl, rfl, rfl⟩,
    ⟨⟨rfl, Buffer.readable_new⟩, fun _ => ⟨rfl, rfl⟩⟩, rfl, ⟨rfl, rfl, rfl, rfl, by decide⟩,
    ⟨rfl, rfl, rfl, rfl, by decide⟩, ?_⟩
  intro id session hlook
  by_cases h3 : id = 3
  · subst h3
    obtain rfl := Option.some.inj hlook
    rfl
  · by_cases h2 : id = 2
    · subst h2
      obtain rfl := Option.some.inj hlook
      rfl
    · have hnone : (((((RtspServer.new [] []).addMediaSession (ascii "s") videoOnly).addMediaSession
          (ascii "t") videoOnly).newConnection 5 ⟨1, 2⟩ blankRequest).mediaSessions id) = none := by
        refine (Function.update_of_ne h3 ..).trans ?_
        exact Function.update_of_ne h2 ..
      rw [lookMediaSessionId, hnone] at hlook
      contradiction

/-- The first DESCRIBE of the client makes it a member of the session that it names. -/
theorem describe_unused {srv : RtspServer} {conn : RtspConnection} {suffix : Bytes} {id : UInt32}
    {session : MediaSession} (hc : srv.rtspConnMap 1 = some conn)
    (hinput : conn.input.Idle ∧ conn.input.request.Cleared) (hs : Unused srv suffix id session)
    (hwf : (describeRequest suffix).WellFormed) : ∃ conn' session' out,
    srv.describes (.message 1 (describeRequest suffix).encode boundEnv) = some (1, id) ∧
      srv.step (.message 1 (describeRequest suffix).encode boundEnv) =
        .ok ((srv.setSession id session').setConn 1 conn', out) ∧
      (conn'.input.Idle ∧ conn'.input.request.Cleared) ∧ conn'.tcpConn = conn.tcpConn ∧
      (∃ s, conn'.rtpConn = some s ∧ Prepared conn s) ∧ conn'.sessionId = id ∧
      session'.clients = (session.addClient conn.tcpConn.fd 1).2.clients ∧
      session'.mediaSources .channel_0 ≠ none ∧
      Member ((srv.setSession id session').setConn 1 conn') id 1 conn.tcpConn := by
  obtain ⟨conn',session',q,sdp,hstep,hinput',hid,htcp,hrtp,_,hclients,hsources⟩ :=
    @step_describe srv 1 conn boundEnv _ id session hc hinput.1 hinput.2 hwf rfl hs.look
  have hd := @describes_own srv id 1 conn boundEnv _ session hc hinput.1 hinput.2 hwf rfl hs.look
  obtain ⟨conn2,session2,hc2,hlook2,_,hmember⟩ := describe_member hstep hd
  obtain rfl := Option.some.inj (hc.symm.trans hc2)
  obtain rfl := Option.some.inj ((lookMediaSessionId_of_registered hs.registered).symm.trans hlook2)
  refine ⟨conn', session', _, hd, hstep, hinput', htcp, hrtp, hid.trans hs.sessionId,
    hclients, ?_, hmember.mpr (Or.inl ?_)⟩
  · rw [hsources]
    exact hs.source
  · rw [hs.clients]
    rfl

end Samples

/-- In every run in which a DESCRIBE that finds a session always comes from a connection that is in
no other session, a frame that is pushed to a session is handed only to connections that refer to
that session. -/
theorem stream_isolated (ipPort version : Bytes) (evs : List ServerEvent) (srv : RtspServer)
    (out : List ServerObs) (hrun : (RtspServer.new ipPort version).run evs = .ok (srv, out))
    (hone : Runs.Along RtspServer.step StaysInOne (RtspServer.new ipPort version) evs)
    (id : UInt32) (channelId : MediaChannelId) (frame : AVFrame) (now : UInt32)
    (alloc : ℕ → PacketData) (mem : ℕ → Bytes → PacketData) (srv' : RtspServer)
    (out' : List ServerObs)
    (hpush : srv.step (.pushFrame id channelId frame now alloc mem) = .ok (srv', out'))
    (id' : UInt32) (h : Handed) (hh : .handed id' h ∈ out') :
    ∃ conn, srv.rtspConnMap h.conn = some conn ∧ conn.sessionId = id' := by
  have hmembers : ConnInvariant srv ∧ Members srv := by
    apply Runs.run_preserves_along (fun s => ConnInvariant s ∧ Members s) _
      ⟨connInvariant_new ipPort version, members_new ipPort version⟩ hone hrun
    intro s ev s' out hI hev hs
    exact ⟨hI.1.step hs, hI.2.step hI.1 hev hs⟩
  obtain ⟨rfl,session,conn,fd,hlook,hfd,hconn⟩ := handed_client hpush hh
  exact ⟨conn, hconn, hmembers.2.refers id' session fd h.conn conn hlook hfd hconn⟩

/-- The client has asked for the second session and is handed its frame. -/
theorem stream_isolated_described : ∃ srv out srv' out' h conn,
    (RtspServer.new [] []).run (twoSessions ++
      [.message 1 (describeRequest (ascii "t")).encode boundEnv]) = .ok (srv, out) ∧
    srv.step (pushKeyFrame 3) = .ok (srv', out') ∧ .handed 3 h ∈ out' ∧
    srv.rtspConnMap h.conn = some conn ∧ conn.sessionId = 3 := by
  have hwf : (describeRequest (ascii "t")).WellFormed := describeRequest_wellFormed (.inr rfl)
  obtain ⟨srv,conn,_,t,hrun,⟨hc,_⟩,hinput,_,_,ht,hempty⟩ := run_twoSessions
  obtain ⟨conn',t',out,hd,hstep,_,_,_,_,_,hsource,hmember⟩ := describe_unused hc hinput ht hwf
  have hrun' := Runs.run_append_of_ok hrun (Runs.run_single hstep)
  obtain ⟨srv',out',h,hpush,hh,_⟩ := hmember.pushKeyFrame (run_connInvariant hrun')
    (setSession_self srv 3 t') hsource
  have halong : Runs.Along RtspServer.step StaysInOne (RtspServer.new [] []) (twoSessions ++
      [.message 1 (describeRequest (ascii "t")).encode boundEnv]) := by
    apply Runs.along_append
    · apply Runs.along_of_forall
      intro ev hev s c id hdescribes
      simp only [twoSessions, List.mem_cons, List.not_mem_nil, or_false] at hev
      rcases hev with rfl | rfl | rfl <;> simp [describes, dispatched] at hdescribes
    · intro srv1 out1 hrun1
      obtain ⟨rfl,_⟩ := Prod.mk.inj (Except.ok.inj (hrun.symm.trans hrun1))
      -- nobody is in a session yet
      refine ⟨?_, fun _ _ _ => trivial⟩
      intro c id _ id' session _ hlook fd
      rw [hempty id' session hlook]
      simp
  obtain ⟨conn2,hc2,hid⟩ := stream_isolated [] [] _ _ _ hrun' halong 3 .channel_0 keyFrame 7
    (fun _ => PacketData.zeros) (fun _ _ => PacketData.zeros) srv' out' hpush 3 h hh
  exact ⟨_, _, srv', out', h, conn2, hrun', hpush, hh, hc2, hid⟩

/-- The client asks for one session, then for the other one, sets that one up and plays it. It is
handed the frames of both, and its `RtpConnection` sends them. -/
theorem stream_not_isolated : ∃ srv out srv' out' h conn s s' calls,
    (RtspServer.new [] []).run ((twoSessions ++
        [.message 1 (describeRequest (ascii "t")).encode boundEnv]) ++
      [.message 1 (describeRequest (ascii "s")).encode boundEnv,
        .message 1 (setupRequest 5000 5000).encode boundEnv,
        .message 1 playRequest.encode boundEnv]) = .ok (srv, out) ∧
    srv.step (pushKeyFrame 3) = .ok (srv', out') ∧ .handed 3 h ∈ out' ∧ srv.posts h = true ∧
    srv.rtspConnMap h.conn = some conn ∧ conn.sessionId = 2 ∧ conn.rtpConn = some s ∧
    s.sendRtpPacketInLoop h.channelId h.pkt 12 = .ok (s', calls) ∧ calls ≠ [] := by
  have hwft : (describeRequest (ascii "t")).WellFormed := describeRequest_wellFormed (.inr rfl)
  have hwfs : (describeRequest (ascii "s")).WellFormed := describeRequest_wellFormed (.inl rfl)
  obtain ⟨srv,conn,ss,st,hrun,⟨hc,_⟩,hinput,hnone,hs,ht,_⟩ := run_twoSessions
  obtain ⟨conn1,st',out1,_,hstep1,hinput1,htcp1,⟨s1,hs1,hprepared1⟩,_,_,hsource,hmember1⟩ :=
    describe_unused hc hinput ht hwft
  -- the other session is still unused
  have hs' : Unused ((srv.setSession 3 st').setConn 1 conn1) (ascii "s") 2 ss := by
    refine ⟨hs.suffix, ?_, hs.sessionId, hs.clients, hs.source⟩
    exact (Function.update_of_ne (show (2 : UInt32) ≠ 3 by decide) (some (some st'))
      srv.mediaSessions).trans hs.registered
  obtain ⟨conn2,ss',out2,_,hstep2,hinput2,htcp2,⟨s2,hs2,hprepared2⟩,hid2,_,_,_⟩ :=
    describe_unused (setConn_self ..) hinput1 hs' hwfs
  have hlook2 : RtspServer.lookMediaSessionId ((((srv.setSession 3 st').setConn 1 conn1).setSession 2
      ss').setConn 1 conn2) conn2.sessionId = some ss' := by
    rw [hid2]
    exact setSession_self ((srv.setSession 3 st').setConn 1 conn1) 2 ss'
  obtain ⟨input3,t,out3,hinput3,ht3,hstep3⟩ := @step_setupUdp _ 1 conn2 s2 ss' _ boundEnv 5000 5000
    (setConn_self ..) hinput2.1 hinput2.2 (setupRequest_udp ⟨rfl, Or.inl rfl⟩) hs2 hlook2
  obtain ⟨input4,out4,_,hstep4⟩ := @step_play _ 1 { conn2 with input := input3, rtpConn := some t }
    boundEnv playRequest t (setConn_self ..) hinput3.1 hinput3.2 playRequest_wellFormed rfl rfl
  have hrun1 := Runs.run_append_of_ok hrun (Runs.run_single hstep1)
  have hrest := Runs.run_cons_of_ok hstep2 (Runs.run_cons_of_ok hstep3 (Runs.run_single hstep4))
  obtain ⟨hI4,hmember4⟩ := hmember1.run (run_connInvariant hrun1) (by simp) hrest
  have hlook4 (x y z : RtspConnection) : RtspServer.lookMediaSessionId ((((((srv.setSession 3
      st').setConn 1 conn1).setSession 2 ss').setConn 1 x).setConn 1 y).setConn 1 z) 3 = some st' := by
    have hne : (3 : UInt32) ≠ 2 := by decide
    rw [setConn_lookMediaSessionId, setConn_lookMediaSessionId, setConn_lookMediaSessionId,
      setSession_of_ne hne, setConn_lookMediaSessionId, setSession_self]
  obtain ⟨srv',out',h,hpush,hh,hconn,hchannel,hsize,htype⟩ :=
    hmember4.pushKeyFrame hI4 (hlook4 conn2 _ _) hsource
  have hchannel3 : (setupRequest 5000 5000).channel = .channel_0 := by decide
  rw [hchannel3] at ht3
  have hconn2 := (run_connInvariant (Runs.run_append_of_ok hrun1 (Runs.run_single hstep2))).handle 1
    conn2 s2 (setConn_self ..) hs2
  rw [RtpConnection.setupRtpOverUdp_open s2 .channel_0 5000 5000 boundEnv.attempt hconn2] at ht3
  have hplay : (t.play.mediaChannelInfo .channel_0).isPlay = true := by
    rw [ht3]
    rfl
  have hopen : t.play.isClosed = false ∧ t.play.tcpConn = some conn2.tcpConn := by
    rw [ht3]
    refine ⟨hprepared2.isClosed ?_, hconn2⟩
    intro s hs
    obtain rfl := Option.some.inj (hs1.symm.trans hs)
    apply hprepared1.isClosed
    intro s hs
    rw [hnone] at hs
    cases hs
  obtain ⟨s',calls,hsend,hne⟩ := t.play.send_playing h.channelId h.pkt 12 (hchannel ▸ hplay) htype
    (by omega) (by omega)
  have hall := Runs.run_append_of_ok hrun1 hrest
  refine ⟨_, _, srv', out', h, { conn2 with
    input := input4, connState := .START_PLAY, rtpConn := some t.play }, t.play, s', calls, hall, hpush,
    hh, ?_, ?_, hid2, rfl, hsend, hne⟩
  · rw [posts, lock, hconn, setConn_self]
    dsimp only [Option.bind_some]
    rw [RtpConnection.sendRtpPacket, hopen.1, hopen.2]
    rfl
  · rw [hconn]
    exact setConn_self ..

/-- A DESCRIBE that finds a session is answered with 200. The connection then is in the session's
client map, stays there and is handed every packet of every frame, in every run in which neither it
nor the session is ended, if and only if its descriptor's entry was free or its own. -/
theorem client_kept (ipPort version : Bytes) (pre : List ServerEvent) (srv : RtspServer)
    (out : List ServerObs) (hrun : (RtspServer.new ipPort version).run pre = .ok (srv, out))
    (ev : ServerEvent) (srv1 : RtspServer) (out1 : List ServerObs)
    (hstep : srv.step ev = .ok (srv1, out1)) (c : ConnId) (id : UInt32)
    (hd : srv.describes ev = some (c, id)) :
    ∃ conn session, srv.rtspConnMap c = some conn ∧ srv.lookMediaSessionId id = some session ∧
      (∃ q sdp, out1 = [.command c q, .call c (conn.sendMessage (q.buildDescribeRes 1024 sdp))]) ∧
      ((∀ post srv2 out2, srv1.run post = .ok (srv2, out2) →
          (∀ ev ∈ post, ev ≠ .close c ∧ ev ≠ .removeMediaSession id) →
          Reached srv2 id c conn.tcpConn) ↔
        session.clients[conn.tcpConn.fd]? = none ∨ session.clients[conn.tcpConn.fd]? = some c) := by
  have hI := run_connInvariant hrun
  obtain ⟨conn,session,hc,hlook,hanswer,hmember⟩ := describe_member hstep hd
  refine ⟨conn, session, hc, hlook, hanswer, ?_⟩
  rw [← hmember]
  constructor
  · intro h
    exact (h [] srv1 [] rfl (by simp)).member
  · intro hm post srv2 out2 hpost hkeeps
    obtain ⟨hI2,hm2⟩ := hm.run (hI.step hstep) hkeeps hpost
    exact hm2.reached hI2

/-- The first client of a session. -/
theorem client_kept_first : ∃ srv srv1 out1 conn,
    (RtspServer.new [] []).run twoSessions = .ok (srv, []) ∧
    srv.step (.message 1 (describeRequest (ascii "t")).encode boundEnv) = .ok (srv1, out1) ∧
    srv.rtspConnMap 1 = some conn ∧
    ∀ post srv2 out2, srv1.run post = .ok (srv2, out2) →
      (∀ ev ∈ post, ev ≠ .close 1 ∧ ev ≠ .removeMediaSession 3) → Reached srv2 3 1 conn.tcpConn := by
  have hwf : (describeRequest (ascii "t")).WellFormed := describeRequest_wellFormed (.inr rfl)
  obtain ⟨srv,conn,_,t,hrun,⟨hc,_⟩,hinput,_,_,ht,_⟩ := run_twoSessions
  obtain ⟨_,_,out1,hd,hstep,_⟩ := describe_unused hc hinput ht hwf
  obtain ⟨conn2,session,hc2,hlook,_,hiff⟩ := client_kept [] [] _ srv [] hrun _ _ out1 hstep 1 3 hd
  obtain rfl := Option.some.inj
    ((lookMediaSessionId_of_registered ht.registered).symm.trans hlook)
  refine ⟨srv, _, out1, conn2, hrun, hstep, hc2, hiff.mpr (Or.inl ?_)⟩
  rw [ht.clients]
  rfl

/-- A client has gone and its descriptor is used again. The next client is answered 200 and is handed
nothing of the frame. -/
theorem client_left_out : ∃ srv out srv1 out1 conn, ∃ q : RtspRequest, ∃ sdp srv2 out2,
    (RtspServer.new [] []).run ((twoSessions ++
        [.message 1 (describeRequest (ascii "t")).encode boundEnv]) ++
      [.close 1, .newConnection 5 ⟨1, 3⟩ blankRequest]) = .ok (srv, out) ∧
    srv.rtspConnMap 2 = some conn ∧
    srv.step (.message 2 (describeRequest (ascii "t")).encode boundEnv) = .ok (srv1, out1) ∧
    .call 2 (conn.sendMessage (q.buildDescribeRes 1024 sdp)) ∈ out1 ∧
    srv1.step (pushKeyFrame 3) = .ok (srv2, out2) ∧ (∃ pkt, .packet 3 pkt ∈ out2) ∧
    ∀ id h, .handed id h ∈ out2 → h.conn ≠ 2 := by
  have hwf : (describeRequest (ascii "t")).WellFormed := describeRequest_wellFormed (.inr rfl)
  obtain ⟨srv,conn,_,t,hrun,⟨hc,hnext,hfd⟩,hinput,_,_,ht,_⟩ := run_twoSessions
  obtain ⟨conn1,t1,out1,_,hstep1,_,_,_,_,hclients1,hsource1,_⟩ := describe_unused hc hinput ht hwf
  have hrun1 := Runs.run_append_of_ok hrun (Runs.run_single hstep1)
  -- the only entry is that of the first client
  have hentry (fd : ℤ) : t1.clients[fd]? = if fd = 5 then some 1 else none := by
    rw [hclients1, MediaSession.addClient_getElem?, ht.clients, hfd]
    simp
  obtain ⟨srv2,hsrv2⟩ : ∃ srv2, srv2 = (((srv.setSession 3 t1).setConn 1 conn1).onClose 1).1.newConnection
      5 ⟨1, 3⟩ blankRequest := ⟨_, rfl⟩
  have hrun2 : ((srv.setSession 3 t1).setConn 1 conn1).run [.close 1, .newConnection 5 ⟨1, 3⟩
      blankRequest] = .ok (srv2, (((srv.setSession 3 t1).setConn 1 conn1).onClose 1).2 ++ ([] ++ [])) := by
    rw [hsrv2]
    rfl
  obtain ⟨conn2,hc2,hidle,hcleared,hfd2⟩ : ∃ conn, srv2.rtspConnMap 2 = some conn ∧
      conn.input.Idle ∧ conn.input.request.Cleared ∧ conn.tcpConn.fd = 5 := by
    refine ⟨RtspConnection.new blankRequest ⟨(((srv.setSession 3 t1).setConn 1 conn1).onClose 1).1.connName,
      5, ⟨1, 3⟩⟩, ?_, ⟨rfl, Buffer.readable_new⟩, fun _ => ⟨rfl, rfl⟩, rfl⟩
    rw [hsrv2, ← hnext]
    exact setConn_self ..
  have hlook : srv2.lookMediaSession (describeRequest (ascii "t")).suffix = (some (3, t1), srv2) := by
    apply lookMediaSession_of_registered
    · rw [hsrv2]
      exact ht.suffix
    · rw [hsrv2]
      exact Function.update_self (3 : UInt32) (some (some t1)) srv.mediaSessions
  obtain ⟨conn3,t3,q,sdp,hstep3,_,_,_,_,_,hclients3,hsources3⟩ :=
    @step_describe srv2 2 conn2 boundEnv _ 3 t1 hc2 hidle hcleared hwf rfl hlook
  have hentry3 (fd : ℤ) : t3.clients[fd]? = if fd = 5 then some 1 else none := by
    rw [hclients3, MediaSession.addClient_getElem?, hfd2, hentry, hentry]
    simp
  have hlook3 : RtspServer.lookMediaSessionId ((srv2.setSession 3 t3).setConn 2 conn3) 3 = some t3 :=
    setSession_self srv2 3 t3
  obtain ⟨⟨srv4,out4⟩,hpush⟩ := @pushFrame_ok ((srv2.setSession 3 t3).setConn 2 conn3) 3 .channel_0
    keyFrame 7 (fun _ => PacketData.zeros) (fun _ _ => PacketData.zeros) (by decide) (by decide)
  refine ⟨srv2, _, _, _, conn2, q, sdp, srv4, out4, Runs.run_append_of_ok hrun1 hrun2, hc2, hstep3,
    List.mem_cons_of_mem _ List.mem_cons_self, hpush, ?_, ?_⟩
  · have hsome : t3.getNumClient ≠ 0 := by
      intro hzero
      have hempty : t3.clients.isEmpty = true := by
        rw [Std.TreeMap.isEmpty_eq_size_eq_zero]
        exact beq_iff_eq.mpr hzero
      have hfive := hentry3 5
      rw [Std.TreeMap.getElem?_of_isEmpty hempty] at hfive
      cases hfive
    obtain ⟨p,_,hout,hpackets⟩ := pushFrame_spec hlook3 hsome hpush
    obtain ⟨sent,hsent⟩ := hpackets (by rw [hsources3]; exact hsource1)
    obtain ⟨pkts,hpkts,hne,_⟩ := keyFrame_packets
    obtain ⟨hsame,_⟩ := Prod.mk.inj (Except.ok.inj (hsent.symm.trans hpkts))
    obtain ⟨pkt,hpkt⟩ := List.exists_mem_of_ne_nil _ hne
    refine ⟨pkt, ?_⟩
    rw [hout, hsame]
    exact List.mem_append_left _ (List.mem_map_of_mem hpkt)
  · intro id h hh hconn
    obtain ⟨_,session,_,fd,hsession,hfd4,_⟩ := handed_client hpush hh
    obtain rfl := Option.some.inj (hlook3.symm.trans hsession)
    rw [hentry3, hconn] at hfd4
    split at hfd4
    · exact absurd (Option.some.inj hfd4) (by decide)
    · cases hfd4

end RtspServer

end IdealServer
