import IdealServer.Threads

/-! Whether TEARDOWN is final. The flags of an `RtpConnection` that is closed are off, and the closed
flag stops new tasks, but a task that was posted earlier looks at the play flag only. -/
namespace IdealServer

/-- The call hands an RTP packet over: to `sendRtpOverTcp`, to `sendRtpOverUdp` or to the kernel. -/
def Call.OfRtp : Call → Prop
  | .overTcp .. | .overUdp .. | .sendto .. => True
  | _ => False

namespace RtpConnection

/-- The part of the guard that `play`, `record` and `teardown` work on. -/
def streams (s : RtpConnection) (channelId : MediaChannelId) : Bool :=
  (s.mediaChannelInfo channelId).isPlay || (s.mediaChannelInfo channelId).isRecord

/-- From one state to the other no channel has been switched on, and a channel that is still on was
not on when the connection was closed. -/
structure Fades (s s' : RtpConnection) : Prop where
  streams : ∀ chn, s'.streams chn = true → s.streams chn = true
  closed : s.isClosed = true → s'.isClosed = true
  off : s'.isClosed = true → s.isClosed = true ∨ ∀ chn, s'.streams chn = false

section Fading
variable (s : RtpConnection) (c : MediaChannelId)

theorem Fades.of_same {s s' : RtpConnection} (hclosed : s'.isClosed = s.isClosed)
    (hstreams : ∀ chn, s'.streams chn = s.streams chn) : Fades s s' := by
  refine ⟨?_, ?_, ?_⟩
  · intro chn h
    rwa [hstreams] at h
  · intro h
    rwa [hclosed]
  · intro h
    rw [hclosed] at h
    exact Or.inl h

theorem Fades.trans {s s1 s2 : RtpConnection} (h1 : Fades s s1) (h2 : Fades s1 s2) : Fades s s2 := by
  refine ⟨fun chn h => h1.streams chn (h2.streams chn h), fun h => h2.closed (h1.closed h), ?_⟩
  intro h
  rcases h2.off h with hclosed | hoff
  · rcases h1.off hclosed with hfirst | hoff
    · exact Or.inl hfirst
    · right
      intro chn
      by_contra hon
      have hmid := h2.streams chn (Bool.not_eq_false _ ▸ hon)
      rw [hoff chn] at hmid
      cases hmid
  · exact Or.inr hoff

theorem setInfo_streams (f : MediaChannelInfo → MediaChannelInfo)
    (hf : ∀ i, (f i).isPlay = i.isPlay ∧ (f i).isRecord = i.isRecord) (chn : MediaChannelId) :
    (s.setInfo c f).streams chn = s.streams chn := by
  unfold streams
  rw [setInfo_mediaChannelInfo]
  by_cases hc : chn = c
  · subst hc
    rw [Function.update_self, (hf _).1, (hf _).2]
  · rw [Function.update_of_ne hc]

theorem setFrameType_fades (t : UInt8) : Fades s (s.setFrameType t) := by
  apply Fades.of_same
  · unfold setFrameType
    dsimp only
    split <;> rfl
  · intro chn
    rw [streams, setFrameType_mediaChannelInfo]
    rfl

theorem afterHeader_fades (pkt : RtpPacket) : Fades s (s.afterHeader c pkt) :=
  Fades.of_same rfl (setInfo_streams s c _ (fun _ => ⟨rfl, rfl⟩))

theorem teardown_isClosed : s.teardown.isClosed = true := by
  unfold teardown
  split
  case isTrue h => exact h
  case isFalse => rfl

theorem teardown_fades : Fades s s.teardown := by
  by_cases h : s.isClosed = true
  · rw [teardown, if_pos h]
    exact Fades.of_same rfl (fun _ => rfl)
  · have hoff (chn : MediaChannelId) : s.teardown.streams chn = false := by
      rw [teardown, if_neg h]
      rfl
    refine ⟨?_, fun _ => s.teardown_isClosed, fun _ => Or.inr hoff⟩
    intro chn hon
    rw [hoff chn] at hon
    cases hon

/-- A task can only switch channels off, and it is silent where its channel is off. -/
theorem sendRtpPacketInLoop_fades {s' : RtpConnection} {pkt : RtpPacket} {ret : ℤ}
    {calls : List Call} (h : s.sendRtpPacketInLoop c pkt ret = .ok (s', calls)) :
    Fades s s' ∧ (s.streams c = false → calls = []) := by
  have hfirst := s.setFrameType_fades pkt.type
  have hguard : s.streams c = false → (s.setFrameType pkt.type).canSend c = false := by
    intro hoff
    unfold streams at hoff
    rw [canSend, setFrameType_mediaChannelInfo, hoff]
    rfl
  refine ⟨?_, fun hoff => (sendRtpPacketInLoop_discards s c h).mpr (hguard hoff)⟩
  rcases sendRtpPacketInLoop_cases s c h with ⟨_,rfl,_⟩ | ⟨_,data,_,⟨_,rfl,_⟩ | ⟨_,r,hr,rfl,_⟩⟩
  · exact hfirst
  · exact hfirst.trans (afterHeader_fades _ c pkt)
  · have hsecond := hfirst.trans (afterHeader_fades _ c pkt)
    rcases (sendRtpOverUdp_calls _ c hr).1 with hsame | hteardown
    · rwa [hsame]
    · rw [hteardown]
      exact hsecond.trans (teardown_fades _)

theorem bindLoop_calls (attempt : ℕ → UdpAttempt) (left n : ℕ) :
    ∀ x ∈ (bindLoop c attempt left n s).2.2, ¬ x.OfRtp := by
  induction left generalizing n s with
  | zero => simp [bindLoop]
  | succ left ih =>
    unfold bindLoop
    dsimp only
    split
    · split
      · simp [Call.OfRtp]
      · intro x hx
        rcases List.mem_append.mp hx with hround | hrest
        · simp only [List.mem_cons, List.not_mem_nil, or_false] at hround
          rcases hround with rfl | rfl | rfl | rfl <;> exact id
        · exact ih _ (n+1) x hrest
    · intro x hx
      rcases List.mem_append.mp hx with hround | hrest
      · simp only [List.mem_cons, List.not_mem_nil, or_false] at hround
        rcases hround with rfl | rfl <;> exact id
      · exact ih _ (n+1) x hrest

/-- A setup leaves the flags, whether it succeeds or not. -/
theorem setupRtpOverTcp_fades (a b : UInt16) : Fades s (s.setupRtpOverTcp c a b).2 := by
  unfold setupRtpOverTcp
  split
  · exact Fades.of_same rfl (fun _ => rfl)
  · exact Fades.of_same rfl (setInfo_streams s c (fun i =>
      { i with rtpChannel := a, rtcpChannel := b, isSetup := true }) (fun _ => ⟨rfl, rfl⟩))

theorem afterBind_fades : Fades s (s.afterBind c) := by
  refine Fades.of_same (show (s.afterBind c).isClosed = s.isClosed from rfl) ?_
  intro chn
  exact setInfo_streams s c (fun i => { i with isSetup := true }) (fun _ => ⟨rfl, rfl⟩) chn

theorem setupRtpOverUdp_fades (a b : UInt16) (attempt : ℕ → UdpAttempt) :
    Fades s (s.setupRtpOverUdp c a b attempt).2.1 ∧
      ∀ x ∈ (s.setupRtpOverUdp c a b attempt).2.2, ¬ x.OfRtp := by
  cases ht : s.tcpConn with
  | none =>
    rw [setupRtpOverUdp_closed s c a b attempt ht]
    exact ⟨Fades.of_same rfl (fun _ => rfl), by simp⟩
  | some tcp =>
    rw [setupRtpOverUdp_open s c a b attempt ht]
    refine ⟨?_, bindLoop_calls _ c attempt 10 0⟩
    obtain ⟨p,q,x,y,hframe⟩ := bindLoop_frame (s.beforeBind c tcp a b) c attempt 10 0
    have hloop : Fades s (bindLoop c attempt 10 0 (s.beforeBind c tcp a b)).2.1 := by
      rw [hframe]
      exact Fades.of_same rfl (setInfo_streams { s with peerAddr := tcp.peer } c
        (fun i => { i with rtpPort := a, rtcpPort := b }) (fun _ => ⟨rfl, rfl⟩))
    dsimp only
    split
    · exact hloop.trans (afterBind_fades _ c)
    · exact hloop

end Fading

end RtpConnection

namespace RtspServer
variable {srv srv' : RtspServer} {c : ConnId} {conn conn' : RtspConnection} {q : RtspRequest}
  {env : HandlerEnv} {calls : List Call} {out : List ServerObs} {ev : ServerEvent}

/-- What a handler can do to the `RtpConnection` behind `_rtpConnPtr`. -/
inductive Handled (m : Method) (x y : Option RtpConnection) : Prop
  | play (method : m = .PLAY) (s : RtpConnection) (before : x = some s) (after : y = some s.play)
  | teardown (method : m = .TEARDOWN) (s : RtpConnection) (before : x = some s)
      (after : y = some s.teardown)
  /-- Every other handler; a DESCRIBE makes the object where there is none. -/
  | fades (play : m ≠ .PLAY) (teardown : m ≠ .TEARDOWN) (effect : ∀ s', y = some s' →
      (x = none ∧ s'.isClosed = false) ∨ ∃ s, x = some s ∧ RtpConnection.Fades s s')

theorem Handled.of_eq {m : Method} {x : Option RtpConnection} (hplay : m ≠ .PLAY)
    (hteardown : m ≠ .TEARDOWN) : Handled m x x := by
  refine .fades hplay hteardown ?_
  intro s' hs
  exact Or.inr ⟨s', hs, RtpConnection.Fades.of_same rfl (fun _ => rfl)⟩

/-- The setters of a DESCRIBE do not touch the flags. -/
theorem Prepared.fades {s' : RtpConnection} (h : Prepared conn s') :
    (conn.rtpConn = none ∧ s'.isClosed = false) ∨
      ∃ s, conn.rtpConn = some s ∧ RtpConnection.Fades s s' := by
  cases hr : conn.rtpConn with
  | none =>
    refine Or.inl ⟨rfl, h.isClosed ?_⟩
    intro s hs
    rw [hr] at hs
    cases hs
  | some s =>
    refine Or.inr ⟨s, rfl, ?_⟩
    obtain ⟨mem,rd,ops,calls,hops,hrun⟩ := h
    rw [hr] at hrun
    apply Runs.run_preserves_along (fun t => RtpConnection.Fades s t) _ _
      (Runs.along_of_forall (fun op hop _ => hops op hop)) hrun
    · rintro t op t' out ht (⟨chn,r,rfl⟩ | ⟨chn,p,rfl⟩) hstep
      · obtain ⟨rfl,_⟩ := Prod.mk.inj (Except.ok.inj hstep)
        exact ht.trans (RtpConnection.Fades.of_same rfl (t.setInfo_streams chn _ (fun _ => ⟨rfl, rfl⟩)))
      · obtain ⟨rfl,_⟩ := Prod.mk.inj (Except.ok.inj hstep)
        exact ht.trans (RtpConnection.Fades.of_same rfl (t.setInfo_streams chn _ (fun _ => ⟨rfl, rfl⟩)))
    · exact RtpConnection.Fades.of_same rfl (fun _ => rfl)

theorem sendMessage_ofRtp (res : Bytes) : ∀ x ∈ [conn.sendMessage res], ¬ x.OfRtp := by
  intro x hx
  obtain rfl := List.mem_singleton.mp hx
  exact id

theorem handleCmdSetup_handled {session : Option MediaSession}
    (h : conn.handleCmdSetup q session env = .ok (conn', calls)) :
    Handled .SETUP conn.rtpConn conn'.rtpConn ∧ ∀ x ∈ calls, ¬ x.OfRtp := by
  have hsame : Handled .SETUP conn.rtpConn conn.rtpConn := .of_eq (by decide) (by decide)
  unfold RtspConnection.handleCmdSetup at h
  split at h
  · obtain ⟨rfl,rfl⟩ := Prod.mk.inj (Except.ok.inj h)
    exact ⟨hsame, sendMessage_ofRtp _⟩
  · split at h
    · split at h
      · cases h
      case h_2 s hs =>
        obtain ⟨rfl,rfl⟩ := Prod.mk.inj (Except.ok.inj h)
        refine ⟨.fades (by decide) (by decide) ?_, sendMessage_ofRtp _⟩
        intro s' hs'
        have heq : (s.setupRtpOverTcp q.channelId q.getRtpChannel.toUInt16
          q.getRtcpChannel.toUInt16).2 = s' := Option.some.inj hs'
        rw [← heq]
        exact Or.inr ⟨s, hs, s.setupRtpOverTcp_fades ..⟩
    · split at h
      · cases h
      case h_2 s hs =>
        obtain ⟨rfl,rfl⟩ := Prod.mk.inj (Except.ok.inj h)
        obtain ⟨hfades,hcalls⟩ := s.setupRtpOverUdp_fades q.channelId q.getRtpPort q.getRtcpPort env.attempt
        refine ⟨.fades (by decide) (by decide) ?_, ?_⟩
        · intro s' hs'
          have heq : (s.setupRtpOverUdp q.channelId q.getRtpPort q.getRtcpPort env.attempt).2.1 = s' :=
            Option.some.inj hs'
          rw [← heq]
          exact Or.inr ⟨s, hs, hfades⟩
        · intro x hx
          rcases List.mem_append.mp hx with hx | hx
          · exact hcalls x hx
          · exact sendMessage_ofRtp _ x hx
    · obtain ⟨rfl,rfl⟩ := Prod.mk.inj (Except.ok.inj h)
      exact ⟨hsame, sendMessage_ofRtp _⟩

/-- No handler sends RTP; PLAY and TEARDOWN alone switch channels. -/
theorem handleCommand_handled (h : srv.handleCommand c conn q env = .ok (srv', conn', calls)) :
    Handled q.method conn.rtpConn conn'.rtpConn ∧ ∀ x ∈ calls, ¬ x.OfRtp := by
  have hbind {x : Except Fault (RtspConnection × List Call)}
      (h : (do let r ← x; return (srv, r) : Except Fault _) = .ok (srv', conn', calls)) :
      x = .ok (conn', calls) := by
    obtain ⟨r,hr,h⟩ := Runs.bind_ok h
    obtain ⟨rfl,rfl⟩ := Prod.mk.inj (Except.ok.inj h)
    exact hr
  unfold handleCommand at h
  cases hm : q.method with
  | DESCRIBE =>
    rw [hm] at h
    have hdescribe := handleCmdDescribe_cases (Except.ok.inj h)
    refine ⟨.fades (by decide) (by decide) ?_, ?_⟩
    · intro s' hs
      cases hdescribe with
      | notFound srv' rtpConn calls look prepared =>
        obtain rfl := Option.some.inj hs
        exact prepared.fades
      | found id session session' rtpConn sdp look registered prepared sessionId clients sources =>
        obtain rfl := Option.some.inj hs
        exact prepared.fades
    · unfold handleCmdDescribe at h
      have h := Except.ok.inj h
      dsimp only at h
      split at h
      · obtain ⟨_,rfl⟩ := Prod.mk.inj (Prod.mk.inj h).2
        exact sendMessage_ofRtp _
      · obtain ⟨_,rfl⟩ := Prod.mk.inj (Prod.mk.inj h).2
        exact sendMessage_ofRtp _
  | SETUP =>
    rw [hm] at h
    exact handleCmdSetup_handled (hbind h)
  | PLAY =>
    rw [hm] at h
    have h := hbind h
    unfold RtspConnection.handleCmdPlay at h
    split at h
    · cases h
    case h_2 s hs =>
      obtain ⟨rfl,rfl⟩ := Prod.mk.inj (Except.ok.inj h)
      exact ⟨.play rfl s hs rfl, sendMessage_ofRtp _⟩
  | TEARDOWN =>
    rw [hm] at h
    have h := hbind h
    unfold RtspConnection.handleCmdTeardown at h
    split at h
    · cases h
    case h_2 s hs =>
      obtain ⟨rfl,rfl⟩ := Prod.mk.inj (Except.ok.inj h)
      refine ⟨.teardown rfl s hs rfl, ?_⟩
      intro x hx
      simp only [List.mem_cons, List.not_mem_nil, or_false] at hx
      rcases hx with rfl | rfl | rfl <;> exact id
  | GET_PARAMETER =>
    rw [hm] at h
    have h := hbind h
    unfold RtspConnection.handleCmdGetParamter at h
    split at h
    · cases h
    · obtain ⟨rfl,rfl⟩ := Prod.mk.inj (Except.ok.inj h)
      exact ⟨.of_eq (by decide) (by decide), sendMessage_ofRtp _⟩
  | OPTIONS =>
    rw [hm] at h
    obtain ⟨rfl,rfl⟩ := Prod.mk.inj (Prod.mk.inj (Except.ok.inj h)).2
    exact ⟨.of_eq (by decide) (by decide), sendMessage_ofRtp _⟩
  | RTCP =>
    rw [hm] at h
    obtain ⟨rfl,rfl⟩ := Prod.mk.inj (Prod.mk.inj (Except.ok.inj h)).2
    exact ⟨.of_eq (by decide) (by decide), by simp⟩
  | NONE =>
    rw [hm] at h
    obtain ⟨rfl,rfl⟩ := Prod.mk.inj (Prod.mk.inj (Except.ok.inj h)).2
    exact ⟨.of_eq (by decide) (by decide), by simp⟩

theorem handleCommand_rtspConnMap (h : srv.handleCommand c conn q env = .ok (srv', conn', calls)) :
    srv'.rtspConnMap = srv.rtspConnMap := by
  rcases handleCommand_cases h with ⟨_,heffect⟩ | ⟨_,rfl,_⟩
  · exact heffect.frame.1
  · rfl

theorem lock_setConn (srv : RtspServer) (c : ConnId) (conn : RtspConnection) (d : ConnId) :
    (srv.setConn c conn).lock d = if d = c then conn.rtpConn else srv.lock d := by
  by_cases hd : d = c
  · subst hd
    rw [if_pos rfl, lock, setConn_self]
    rfl
  · rw [if_neg hd]
    show (Function.update srv.rtspConnMap c (some conn) d).bind _ = srv.lock d
    rw [Function.update_of_ne hd]
    rfl

/-- The object of a connection changes only with a command on that connection. -/
def Untouched (srv srv' : RtspServer) (ev : ServerEvent) (d : ConnId) : Prop :=
  srv'.lock d = srv.lock d ∧ ∀ q, srv.dispatched ev ≠ some (d, q)

theorem untouched_of_other {d : ConnId} (hlock : srv'.lock d = srv.lock d)
    (hev : ∀ bytes env, ev ≠ .message d bytes env) : Untouched srv srv' ev d := by
  refine ⟨hlock, ?_⟩
  intro q hd
  obtain ⟨bytes,env,_,heq,_⟩ := dispatched_event hd
  exact hev bytes env heq

theorem onMessage_handled {bytes : Bytes} (h : srv.onMessage c bytes env = .ok (srv', out))
    (d : ConnId) : (∀ x, .call d x ∈ out → ¬ x.OfRtp) ∧
      (Untouched srv srv' (.message c bytes env) d ∨
        ∃ q conn, srv.dispatched (.message c bytes env) = some (d, q) ∧ srv.rtspConnMap d = some conn ∧
          Handled q.method (srv.lock d) (srv'.lock d)) := by
  have hother (hd : d ≠ c) (hlock : srv'.lock d = srv.lock d) :
      Untouched srv srv' (.message c bytes env) d := by
    apply untouched_of_other hlock
    intro bytes env heq
    obtain ⟨rfl,_⟩ := ServerEvent.message.inj heq
    exact hd rfl
  unfold onMessage at h
  cases hc : srv.rtspConnMap c with
  | none =>
    rw [hc] at h
    obtain ⟨rfl,rfl⟩ := Prod.mk.inj (Except.ok.inj h)
    refine ⟨by simp, Or.inl ⟨rfl, ?_⟩⟩
    intro q hq
    rw [dispatched, hc] at hq
    cases hq
  | some conn =>
    rw [hc] at h
    obtain ⟨⟨input,events⟩,hread,h⟩ := Runs.bind_ok h
    dsimp only at h
    cases hcommand : commandIn events with
    | none =>
      rw [hcommand] at h
      obtain ⟨rfl,rfl⟩ := Prod.mk.inj (Except.ok.inj h)
      refine ⟨by simp, Or.inl ⟨?_, ?_⟩⟩
      · rw [lock_setConn]
        split
        case isTrue hd =>
          rw [hd, lock, hc]
          rfl
        case isFalse => rfl
      · intro q hq
        rw [dispatched, hc] at hq
        dsimp only at hq
        rw [hread] at hq
        dsimp only at hq
        rw [hcommand] at hq
        cases hq
    | some q =>
      rw [hcommand] at h
      obtain ⟨⟨srv1,conn1,calls⟩,hhandle,h⟩ := Runs.bind_ok h
      obtain ⟨rfl,rfl⟩ := Prod.mk.inj (Except.ok.inj h)
      obtain ⟨hhandled,hcalls⟩ := handleCommand_handled hhandle
      refine ⟨?_, ?_⟩
      · intro x hx
        rcases List.mem_cons.mp hx with hx | hx
        · cases hx
        · obtain ⟨y,hy,heq⟩ := List.mem_map.mp hx
          obtain ⟨_,rfl⟩ := ServerObs.call.inj heq
          exact hcalls y hy
      · by_cases hd : d = c
        · subst hd
          refine Or.inr ⟨q, conn, ?_, hc, ?_⟩
          · simp only [dispatched, hc, hread, hcommand, Option.map_some]
          · rw [lock_setConn, if_pos rfl, lock, hc]
            exact hhandled
        · apply Or.inl (hother hd _)
          rw [lock_setConn, if_neg hd, lock, lock, handleCommand_rtspConnMap hhandle]

/-- What an event that is neither a close nor a task does to an object. -/
theorem step_handled (hI : ConnInvariant srv) (h : srv.step ev = .ok (srv', out)) (hloop : ev.OnLoop)
    (hclose : ∀ c, ev ≠ .close c) (htask : ∀ c ret, ev ≠ .runTask c ret) (d : ConnId) :
    (∀ x, .call d x ∈ out → ¬ x.OfRtp) ∧
      (Untouched srv srv' ev d ∨ ∃ q conn, srv.dispatched ev = some (d, q) ∧
        srv.rtspConnMap d = some conn ∧ Handled q.method (srv.lock d) (srv'.lock d)) := by
  cases ev with
  | newConnection fd peer mem =>
    obtain ⟨rfl,rfl⟩ := Prod.mk.inj (Except.ok.inj h)
    refine ⟨by simp, Or.inl (untouched_of_other ?_ (by simp))⟩
    refine (lock_setConn srv srv.nextConnId (RtspConnection.new mem ⟨srv.connName, fd, peer⟩) d).trans ?_
    split
    case isTrue hd =>
      rw [hd, lock, hI.number _ (Nat.le_refl _)]
      rfl
    case isFalse => rfl
  | message c bytes env => exact onMessage_handled h d
  | close c => exact absurd rfl (hclose c)
  | addMediaSession suffix sources =>
    obtain ⟨rfl,rfl⟩ := Prod.mk.inj (Except.ok.inj h)
    refine ⟨by simp, Or.inl (untouched_of_other ?_ (by simp))⟩
    rw [lock, lock, (addMediaSession_conns suffix sources).1]
  | removeMediaSession id =>
    obtain ⟨srv1,hremove,h⟩ := Runs.bind_ok h
    obtain ⟨rfl,rfl⟩ := Prod.mk.inj (Except.ok.inj h)
    refine ⟨by simp, Or.inl (untouched_of_other ?_ (by simp))⟩
    rw [lock, lock, (removeMediaSession_conns hremove).1]
  | setRtspUrlSuffix id suffix =>
    obtain ⟨rfl,rfl⟩ := Prod.mk.inj (Except.ok.inj h)
    refine ⟨by simp, Or.inl (untouched_of_other ?_ (by simp))⟩
    rw [lock, lock, (setRtspUrlSuffix_conns id suffix).1]
  | pushFrame id channelId frame now alloc mem => exact hloop.elim
  | runTask c ret => exact absurd rfl (htask c ret)

end RtspServer

namespace Threads
variable {t t' : Threads} {ev : ThreadEvent} {out : List ServerObs} {c : ConnId}

/-- A PLAY switches on a channel of a closed `RtpConnection` for which a task is under way. -/
def Revives (t : Threads) : ThreadEvent → Prop
  | .loop ev _ => ∃ c q s, t.srv.dispatched ev = some (c, q) ∧ q.method = .PLAY ∧
      t.object c = some s ∧ s.isClosed = true ∧
      ∃ h ∈ t.tasks, h.conn = c ∧ (s.mediaChannelInfo h.channelId).isSetup = true
  | _ => False

/-- The tasks for a closed object will find their channels off. -/
def Silent (t : Threads) : Prop :=
  ∀ c s, t.object c = some s → s.isClosed = true →
    ∀ h ∈ t.tasks, h.conn = c → s.streams h.channelId = false

/-- All that a step can do to an object: its state after the step. -/
inductive Changed (t : Threads) (ev : ThreadEvent) (c : ConnId) (s' : RtpConnection) : Prop
  | fades (s : RtpConnection) (before : t.object c = some s) (effect : RtpConnection.Fades s s')
  | created (isOpen : s'.isClosed = false) (conn : RtspConnection)
      (here : t.srv.rtspConnMap c = some conn) (without : conn.rtpConn = none)
  | play (event : ServerEvent) (onLoop : event.OnLoop) (is : ev = .loop event onLoop) (q : RtspRequest)
      (dispatch : t.srv.dispatched event = some (c, q)) (method : q.method = .PLAY)
      (s : RtpConnection) (before : t.object c = some s) (after : s' = s.play)

theorem Changed.of_eq {s' : RtpConnection} (h : t.object c = some s') : Changed t ev c s' :=
  .fades s' h (RtpConnection.Fades.of_same rfl (fun _ => rfl))

/-- The only calls of a step that send RTP are those of a task whose channel is on. -/
def Sounds (t : Threads) (c : ConnId) : Prop :=
  ∃ s h, t.object c = some s ∧ h ∈ t.srv.pending ∧ h.conn = c ∧ s.streams h.channelId = true

theorem destroy_ofRtp (s : RtpConnection) : ∀ x ∈ s.destroy, ¬ x.OfRtp := by
  intro x hx
  obtain ⟨chn,_,hx⟩ := List.mem_flatMap.mp hx
  have hclose : ∃ fd, x = .close fd := by
    rcases List.mem_append.mp hx with hx | hx
    · split at hx
      · exact ⟨_, List.mem_singleton.mp hx⟩
      · cases hx
    · split at hx
      · exact ⟨_, List.mem_singleton.mp hx⟩
      · cases hx
  obtain ⟨fd,rfl⟩ := hclose
  exact id

/-- The destruction of an object closes descriptors and sends nothing. -/
theorem destroyed_ofRtp {x : Option RtpConnection} {d : ConnId} {y : Call}
    (h : .call d y ∈ (x.elim [] RtpConnection.destroy).map (ServerObs.call c)) : ¬ y.OfRtp := by
  obtain ⟨z,hz,heq⟩ := List.mem_map.mp h
  obtain ⟨_,rfl⟩ := ServerObs.call.inj heq
  cases x with
  | none => cases hz
  | some s => exact destroy_ofRtp s z hz

theorem loop_object (hI : RtspServer.ConnInvariant t.srv) {event : ServerEvent}
    {onLoop : event.OnLoop} (h : t.loopStep event = .ok (t', out)) :
    (∀ s', t'.object c = some s' → Changed t (.loop event onLoop) c s') ∧
      ∀ x, .call c x ∈ out → x.OfRtp → t.Sounds c := by
  rcases loopStep_cases h with ⟨d,rfl,rfl,rfl⟩ | ⟨d,ret,rfl,htask⟩ | ⟨srv',hstep,rfl,hclose,htask⟩
  · refine ⟨?_, ?_⟩
    · intro s' hs
      rw [object_close] at hs
      split at hs
      · cases hs
      · exact .of_eq hs
    · intro x hx hrtp
      unfold close at hx
      dsimp only at hx
      split at hx
      · cases hx
      · exact absurd hrtp (destroyed_ofRtp hx)
  · rcases runTask_cases htask with
      ⟨_,rfl,rfl⟩ | ⟨task,s,s1,calls,hfind,hs,hsend,_,hself,hother,_,rfl⟩
    · exact ⟨fun s' hs => .of_eq hs, fun x hx => by cases hx⟩
    · obtain ⟨hfades,hsilent⟩ := RtpConnection.sendRtpPacketInLoop_fades s _ hsend
      refine ⟨?_, ?_⟩
      · intro s' hs'
        by_cases hd : c = d
        · subst hd
          obtain rfl := Option.some.inj (hself.symm.trans hs')
          exact .fades s hs hfades
        · rw [hother c hd] at hs'
          exact .of_eq hs'
      · intro x hx hrtp
        obtain ⟨y,hy,heq⟩ := List.mem_map.mp hx
        obtain ⟨rfl,rfl⟩ := ServerObs.call.inj heq
        have hconn := List.find?_some hfind
        refine ⟨s, task, hs, List.mem_of_find?_eq_some hfind, of_decide_eq_true hconn, ?_⟩
        by_contra hoff
        rw [hsilent (Bool.not_eq_true _ ▸ hoff)] at hy
        cases hy
  · obtain ⟨hout,hobject⟩ := RtspServer.step_handled hI hstep onLoop hclose htask c
    refine ⟨?_, fun x hx hrtp => absurd hrtp (hout x hx)⟩
    intro s' hs'
    have hor (s : RtpConnection) (hs : t.srv.lock c = some s) : t.object c = some s := by
      rw [object, hs]
      rfl
    rw [object_srv] at hs'
    rcases hobject with ⟨hsame,_⟩ | ⟨q,conn,hdispatch,hc,hhandled⟩
    · rw [hsame] at hs'
      exact .of_eq hs'
    · cases hhandled with
      | play method s before after =>
        rw [after] at hs'
        exact .play event onLoop rfl q hdispatch method s (hor s before) (Option.some.inj hs').symm
      | teardown method s before after =>
        rw [after] at hs'
        obtain rfl := Option.some.inj hs'
        exact .fades s (hor s before) s.teardown_fades
      | fades play teardown effect =>
        cases hlock : srv'.lock c with
        | some s1 =>
          rw [hlock] at hs'
          obtain rfl := Option.some.inj hs'
          rcases effect s1 hlock with ⟨hnone,hopen⟩ | ⟨s,hs,hfades⟩
          · rw [RtspServer.lock, hc] at hnone
            exact .created hopen conn hc hnone
          · exact .fades s (hor s hs) hfades
        | none =>
          -- there was none before either, as only a close takes one away
          rw [hlock] at hs'
          apply Changed.of_eq
          rw [object]
          cases hbefore : t.srv.lock c with
          | none => exact hs'
          | some s =>
            have hsome := lock_isSome_step hI hstep (hclose c) (hbefore ▸ rfl)
            rw [hlock] at hsome
            cases hsome

theorem step_object (hI : RtspServer.ConnInvariant t.srv) (h : t.step ev = .ok (t', out)) :
    (∀ s', t'.object c = some s' → Changed t ev c s') ∧
      ∀ x, .call c x ∈ out → x.OfRtp → t.Sounds c := by
  cases ev with
  | loop event onLoop => exact loop_object hI h
  | lock d =>
    obtain ⟨rfl,rfl⟩ := Prod.mk.inj (Except.ok.inj h)
    refine ⟨fun s' hs => .of_eq ?_, fun x hx => by cases hx⟩
    rwa [object_lock] at hs
  | check task =>
    obtain ⟨rfl,rfl⟩ := Prod.mk.inj (Except.ok.inj h)
    refine ⟨fun s' hs => .of_eq ?_, fun x hx => by cases hx⟩
    rwa [object_check] at hs
  | post d =>
    obtain ⟨rfl,rfl⟩ := Prod.mk.inj (Except.ok.inj h)
    refine ⟨fun s' hs => .of_eq ?_, fun x hx => by cases hx⟩
    rwa [object_post] at hs
  | release d =>
    rcases release_cases (Except.ok.inj h) with ⟨hsrv,horphans,rfl⟩ | ⟨_,_,hlock,rfl,rfl⟩
    · refine ⟨fun s' hs => .of_eq ?_, fun x hx => by cases hx⟩
      rwa [object, hsrv, horphans] at hs
    · refine ⟨?_, fun x hx hrtp => absurd hrtp (destroyed_ofRtp hx)⟩
      intro s' hs
      apply Changed.of_eq
      replace hs : (t.srv.lock c).or (Function.update t.orphans d none c) = some s' := hs
      by_cases hd : c = d
      · subst hd
        rw [hlock, Function.update_self] at hs
        cases hs
      · rw [Function.update_of_ne hd] at hs
        exact hs
  | expire d =>
    obtain ⟨rfl,rfl⟩ := Prod.mk.inj (Except.ok.inj h)
    refine ⟨?_, fun x hx => by cases hx⟩
    intro s' hs
    replace hs : (t.srv.lock c).or (Function.update t.orphans d
      ((t.orphans d).map (fun s => { s with tcpConn := none })) c) = some s' := hs
    by_cases hd : c = d
    · subst hd
      rw [Function.update_self] at hs
      cases hlock : t.srv.lock c with
      | some s =>
        rw [hlock] at hs
        exact .of_eq (by rw [object, hlock]; exact hs)
      | none =>
        rw [hlock, Option.none_or] at hs
        obtain ⟨s,horphan,rfl⟩ := Option.map_eq_some_iff.mp hs
        refine .fades s ?_ (RtpConnection.Fades.of_same rfl (fun _ => rfl))
        rw [object, hlock]
        exact horphan
    · rw [Function.update_of_ne hd] at hs
      exact .of_eq hs

/-- No task begins in the loop. -/
theorem loopStep_tasks {event : ServerEvent} (onLoop : event.OnLoop)
    (h : t.loopStep event = .ok (t', out)) : ∀ task ∈ t'.tasks, task ∈ t.tasks := by
  intro task htask
  rw [tasks, (loopStep_pointers h).1] at htask
  rcases loopStep_cases h with ⟨d,rfl,rfl,_⟩ | ⟨d,ret,rfl,hrun⟩ | ⟨srv',hstep,rfl,_,hnot⟩
  · rwa [close_srv] at htask
  · rcases runTask_cases hrun with ⟨_,rfl,_⟩ | ⟨_,_,_,_,_,_,_,hpending,_⟩
    · exact htask
    · rw [hpending] at htask
      rcases List.mem_append.mp htask with hold | hold
      · exact List.mem_append_left _ (List.mem_of_mem_eraseP hold)
      · exact List.mem_append_right _ hold
  · rwa [step_pending hstep onLoop hnot] at htask

/-- A task begins only with an object that is open. -/
theorem step_posted (h : t.step ev = .ok (t', out)) : ∀ task ∈ t'.tasks,
    task ∈ t.tasks ∨ ∃ s, t'.object task.conn = some s ∧ s.isClosed = false := by
  intro task htask
  cases ev with
  | loop event onLoop => exact Or.inl (loopStep_tasks onLoop h task htask)
  | lock d =>
    obtain ⟨rfl,_⟩ := Prod.mk.inj (Except.ok.inj h)
    left
    rwa [tasks_lock] at htask
  | check task' =>
    obtain ⟨rfl,_⟩ := Prod.mk.inj (Except.ok.inj h)
    rcases mem_check htask with hold | ⟨rfl,s,hs,hsends⟩
    · exact Or.inl hold
    · refine Or.inr ⟨s, ?_, ?_⟩
      · rw [object_check]
        exact hs
      · rw [RtpConnection.sendRtpPacket, Bool.and_eq_true, Bool.not_eq_true'] at hsends
        exact hsends.1
  | post d =>
    obtain ⟨rfl,_⟩ := Prod.mk.inj (Except.ok.inj h)
    exact Or.inl (mem_post htask)
  | release d =>
    left
    have hframe := @release_frame t d
    rw [show t.release d = (t', out) from Except.ok.inj h] at hframe
    rwa [tasks, hframe.1, hframe.2] at htask
  | expire d =>
    obtain ⟨rfl,_⟩ := Prod.mk.inj (Except.ok.inj h)
    exact Or.inl htask

theorem Silent.step (hs : t.Silent) (hI : RtspServer.ConnInvariant t.srv) (hev : ¬ t.Revives ev)
    (h : t.step ev = .ok (t', out)) : t'.Silent := by
  intro c s' hs' hclosed task htask hconn
  have hold : task ∈ t.tasks := by
    rcases step_posted h task htask with hold | ⟨s,hs,hopen⟩
    · exact hold
    · rw [hconn, hs'] at hs
      obtain rfl := Option.some.inj hs
      rw [hclosed] at hopen
      cases hopen
  cases (step_object hI h).1 s' hs' with
  | fades s before effect =>
    rcases effect.off hclosed with hbefore | hoff
    · by_contra hon
      have hwas := effect.streams task.channelId (Bool.not_eq_false _ ▸ hon)
      rw [hs c s before hbefore task hold hconn] at hwas
      cases hwas
    · exact hoff task.channelId
  | created isOpen conn here without =>
    rw [hclosed] at isOpen
    cases isOpen
  | play event onLoop is q dispatch method s before after =>
    subst is after
    have hoff := hs c s before hclosed task hold hconn
    have hunset : (s.mediaChannelInfo task.channelId).isSetup = false := by
      by_contra hset
      exact hev ⟨c, q, s, dispatch, method, before, hclosed, task, hold, hconn,
        Bool.not_eq_false _ ▸ hset⟩
    unfold RtpConnection.streams at hoff ⊢
    rw [RtpConnection.play]
    dsimp only
    rw [hunset]
    exact hoff

/-- What TEARDOWN has made of a connection, as long as anything of it is there. -/
structure Ended (t : Threads) (c : ConnId) : Prop where
  number : c < t.srv.nextConnId
  kept : t.srv.rtspConnMap c = none ∨ (t.srv.lock c).isSome
  closed : ∀ s, t.object c = some s → s.isClosed = true

/-- The number of a connection is not used again, and a connection keeps its object. -/
theorem kept_step (h : t.step ev = .ok (t', out)) (hnumber : c < t.srv.nextConnId)
    (hkept : t.srv.rtspConnMap c = none ∨ (t.srv.lock c).isSome) :
    c < t'.srv.nextConnId ∧ (t'.srv.rtspConnMap c = none ∨ (t'.srv.lock c).isSome) := by
  rcases step_srv h with ⟨event,out',hstep⟩ | ⟨pending,hsrv⟩
  · obtain ⟨hconn,hnext⟩ := RtspServer.step_conn hstep c
    refine ⟨Nat.lt_of_lt_of_le hnumber hnext, ?_⟩
    unfold RtspServer.lock at hkept ⊢
    cases hconn with
    | same unchanged unserved => rwa [unchanged]
    | opened number next conn' after sessionId rtpConn name input unserved =>
      exact absurd number (Nat.ne_of_lt hnumber)
    | closed event after unserved => exact Or.inl after
    | kept conn conn' before after ops kept read asked served =>
      rw [before] at hkept
      rw [after, Option.bind_some, kept.ran.isSome]
      exact Or.inr (hkept.resolve_left (by simp))
    | described conn conn' input q srv1 calls before after read dispatch method effect obs =>
      rw [after, Option.bind_some]
      exact Or.inr effect.frame.2.2.2.2.2
  · rw [hsrv]
    exact ⟨hnumber, hkept⟩

theorem Ended.step (he : t.Ended c) (hI : RtspServer.ConnInvariant t.srv)
    (h : t.step ev = .ok (t', out)) : t'.Ended c := by
  obtain ⟨hnumber,hkept⟩ := kept_step h he.number he.kept
  refine ⟨hnumber, hkept, ?_⟩
  intro s' hs'
  cases (step_object hI h).1 s' hs' with
  | fades s before effect => exact effect.closed (he.closed s before)
  | created isOpen conn here without =>
    rcases he.kept with hnone | hsome
    · rw [here] at hnone
      cases hnone
    · rw [RtspServer.lock, here, Option.bind_some, without] at hsome
      cases hsome
  | play event onLoop is q dispatch method s before after =>
    rw [after]
    exact he.closed s before

/-- Nothing is sent for a connection that has ended. -/
theorem Ended.quiet (he : t.Ended c) (hs : t.Silent) : ¬ t.Sounds c := by
  rintro ⟨s,task,hobject,htask,hconn,hon⟩
  rw [hs c s hobject (he.closed s hobject) task (List.mem_append_left _ htask) hconn] at hon
  cases hon

/-- A TEARDOWN that is handled ends the connection. -/
theorem ended_of_teardown (hI : RtspServer.ConnInvariant t.srv) {event : ServerEvent}
    {onLoop : event.OnLoop} {q : RtspRequest} (hd : t.srv.dispatched event = some (c, q))
    (hm : q.method = .TEARDOWN) (h : t.step (.loop event onLoop) = .ok (t', out)) : t'.Ended c := by
  obtain ⟨bytes,env,conn,rfl,hc⟩ := RtspServer.dispatched_event hd
  have hnumber : c < t.srv.nextConnId := by
    by_contra hge
    rw [hI.number c (Nat.le_of_not_lt hge)] at hc
    cases hc
  have hloop : t.loopStep (.message c bytes env) = .ok (t', out) := h
  rcases loopStep_cases hloop with ⟨_,hclose,_⟩ | ⟨_,_,htask,_⟩ | ⟨srv',hstep,rfl,hclose,htask⟩
  · cases hclose
  · cases htask
  · obtain ⟨_,hobject⟩ := RtspServer.step_handled hI hstep onLoop hclose htask c
    rcases hobject with ⟨_,hnot⟩ | ⟨q',conn',hdispatch,_,hhandled⟩
    · exact absurd hd (hnot q)
    · obtain ⟨_,rfl⟩ := Prod.mk.inj (Option.some.inj (hdispatch.symm.trans hd))
      cases hhandled with
      | play method s before after =>
        rw [hm] at method
        cases method
      | teardown method s before after =>
        refine ⟨Nat.lt_of_lt_of_le hnumber (RtspServer.step_conn hstep c).2, Or.inr ?_, ?_⟩
        · show (srv'.lock c).isSome
          rw [after]
          rfl
        · intro s' hs'
          rw [object_srv, after] at hs'
          obtain rfl := Option.some.inj hs'
          exact s.teardown_isClosed
      | fades play teardown effect => exact absurd hm teardown

theorem silent_new (ipPort version : Bytes) : (Threads.new ipPort version).Silent := by
  intro c s hs
  cases hs

section Samples
open RtspServer

/-- The client has set up the video channel over UDP. -/
def setupClient : List ServerEvent :=
  describedClient ++ [.message 1 (setupRequest 5000 5000).encode boundEnv]

def teardownRequest : Request :=
  ⟨.TEARDOWN, ascii "h", 554, ascii "s", 3, [cseqHeader 3, ascii "Session: 1"]⟩

theorem teardownRequest_wellFormed : teardownRequest.WellFormed := by constructor <;> decide +kernel

theorem run_setupClient : ∃ srv conn s out, (RtspServer.new [] []).run setupClient = .ok (srv, out) ∧
    srv.rtspConnMap 1 = some conn ∧ (conn.input.Idle ∧ conn.input.request.Cleared) ∧
    conn.rtpConn = some s ∧ s.isClosed = false ∧ s.tcpConn.isSome ∧
    (s.mediaChannelInfo .channel_0).isSetup = true ∧ s.transportMode = .rtpOverUdp := by
  have hwf : (describeRequest (ascii "t")).WellFormed := describeRequest_wellFormed (.inr rfl)
  obtain ⟨srv,conn,_,session,hrun,⟨hc,_⟩,hinput,hnone,_,ht,_⟩ := run_twoSessions
  obtain ⟨conn1,session1,out1,_,hstep1,hinput1,htcp1,⟨s1,hs1,hprepared⟩,hid1,_⟩ :=
    describe_unused hc hinput ht hwf
  have hlook : RtspServer.lookMediaSessionId ((srv.setSession 3 session1).setConn 1 conn1)
      conn1.sessionId = some session1 := by
    rw [hid1]
    exact setSession_self srv 3 session1
  obtain ⟨input2,s,out2,hinput2,hs,hstep2⟩ := @step_setupUdp _ 1 conn1 s1 session1 _ boundEnv 5000 5000
    (setConn_self ..) hinput1.1 hinput1.2 (setupRequest_udp ⟨rfl, Or.inl rfl⟩) hs1 hlook
  have hfirst := Runs.run_append_of_ok hrun (Runs.run_single hstep1)
  have hchannel : (setupRequest 5000 5000).channel = .channel_0 := by decide
  have hconn := (run_connInvariant hfirst).handle 1 conn1 s1 (setConn_self ..) hs1
  have hopen : s1.isClosed = false := by
    apply hprepared.isClosed
    intro s hs
    rw [hnone] at hs
    cases hs
  rw [hchannel, RtpConnection.setupRtpOverUdp_open s1 .channel_0 5000 5000 boundEnv.attempt hconn] at hs
  refine ⟨_, { conn1 with input := input2, rtpConn := some s }, s, _,
    Runs.run_append_of_ok hfirst (Runs.run_single hstep2), setConn_self .., hinput2, rfl, ?_⟩
  rw [hs]
  refine ⟨hopen, ?_, rfl, rfl⟩
  show s1.tcpConn.isSome
  rw [hconn]
  rfl

theorem setupClient_onLoop : ∀ ev ∈ setupClient, ev.OnLoop := by
  simp [setupClient, describedClient, twoSessions, ServerEvent.OnLoop]

/-- A read goes to the server. -/
theorem step_message {t : Threads} {srv' : RtspServer} {out : List ServerObs} {c : ConnId}
    {bytes : Bytes} {env : HandlerEnv} (h : t.srv.step (.message c bytes env) = .ok (srv', out)) :
    t.step (.loop (.message c bytes env) trivial) = .ok ({ t with srv := srv' }, out) := by
  show (t.srv.step (.message c bytes env)).bind _ = _
  rw [h]
  rfl

/-- The client that is set up, in the threads. -/
theorem run_setupThreads : ∃ t conn s out,
    (Threads.new [] []).run (loops setupClient setupClient_onLoop) = .ok (t, out) ∧
    (t.held = [] ∧ t.checked = [] ∧ t.srv.pending = []) ∧
    t.srv.rtspConnMap 1 = some conn ∧ (conn.input.Idle ∧ conn.input.request.Cleared) ∧
    conn.rtpConn = some s ∧ s.isClosed = false ∧ s.sendRtpPacket ∧
    (s.mediaChannelInfo .channel_0).isSetup = true ∧ s.transportMode = .rtpOverUdp := by
  obtain ⟨srv,conn,s,out,hrun,hc,hinput,hs,hopen,htcp,hsetup,hmode⟩ := run_setupClient
  have hother : ∀ ev ∈ setupClient, (∀ c, ev ≠ .close c) ∧ ∀ c ret, ev ≠ .runTask c ret := by
    simp [setupClient, describedClient, twoSessions]
  have hpending : srv.pending = [] := by
    apply Runs.run_preserves_along (fun srv => srv.pending = []) _ rfl _ hrun
    · exact fun _ ev => ev ∈ setupClient
    · intro srv ev srv' out hsrv hev hstep
      exact (step_pending hstep (setupClient_onLoop ev hev) (hother ev hev).2).trans hsrv
    · exact Runs.along_of_forall (fun ev hev _ => hev)
  refine ⟨_, conn, s, out, @run_loops (Threads.new [] []) _ _ _ setupClient_onLoop hother hrun,
    ⟨rfl, rfl, hpending⟩, hc, hinput, hs, hopen, ?_, hsetup, hmode⟩
  rw [RtpConnection.sendRtpPacket, hopen, htcp]
  rfl

/-- The one task that is pending runs. -/
theorem step_keyTask {t : Threads} {conn : RtspConnection} {s s' : RtpConnection} {ret : ℤ}
    {calls : List Call} (hpending : t.srv.pending = [keyTask]) (hc : t.srv.rtspConnMap 1 = some conn)
    (hs : conn.rtpConn = some s)
    (hsend : s.sendRtpPacketInLoop .channel_0 keyPacket ret = .ok (s', calls)) :
    ∃ t', t.step (.loop (.runTask 1 ret) trivial) = .ok (t', calls.map (ServerObs.call 1)) := by
  have hlock : t.srv.lock 1 = some s := by
    rw [RtspServer.lock, hc]
    exact hs
  have hfind : t.srv.pending.find? (fun h => h.conn = 1) = some keyTask := by
    rw [hpending]
    rfl
  refine ⟨?t', ?step⟩
  case step =>
    show t.runTask 1 ret = _
    unfold runTask RtspServer.runTask
    rw [hfind]
    dsimp only
    rw [hlock, hc]
    dsimp only
    rw [hs]
    dsimp only
    rw [show s.sendRtpPacketInLoop keyTask.channelId keyTask.pkt ret = .ok (s', calls) from hsend]
    rfl

/-- No task is under way while the client is set up. -/
theorem not_revives_postKeyPacket : Runs.Along step (fun t ev => ¬ t.Revives ev) (Threads.new [] [])
    (loops setupClient setupClient_onLoop ++ postKeyPacket) := by
  apply Runs.along_append
  · apply Runs.along_of_preserves (fun t => t.tasks = []) rfl
    · intro ev hev t t' out htasks h
      obtain ⟨event,_,rfl⟩ := List.mem_pmap.mp hev
      have hnone := loopStep_tasks (setupClient_onLoop event ‹_›) h
      rw [htasks] at hnone
      exact List.eq_nil_iff_forall_not_mem.mpr (fun task htask => List.not_mem_nil (hnone task htask))
    · intro ev hev t htasks hrevives
      obtain ⟨event,_,rfl⟩ := List.mem_pmap.mp hev
      obtain ⟨_,_,_,_,_,_,_,task,htask,_⟩ := hrevives
      rw [htasks] at htask
      cases htask
  · intro t out _
    apply Runs.along_of_forall
    intro ev hev t hrevives
    simp only [postKeyPacket, checkKeyPacket, List.cons_append, List.nil_append, List.mem_cons,
      List.not_mem_nil, or_false] at hev
    rcases hev with rfl | rfl | rfl <;> exact hrevives

end Samples

/-- In every run in which PLAY never switches on a channel of a closed `RtpConnection` for which a
task is under way, no RTP packet leaves for a connection after its TEARDOWN has been handled. -/
theorem teardown_final (ipPort version : Bytes) (pre : List ThreadEvent) (t : Threads)
    (out : List ServerObs) (hpre : (Threads.new ipPort version).run pre = .ok (t, out))
    (event : ServerEvent) (onLoop : event.OnLoop) (c : ConnId) (q : RtspRequest)
    (hd : t.srv.dispatched event = some (c, q)) (hm : q.method = .TEARDOWN) (t1 : Threads)
    (out1 : List ServerObs) (hstep : t.step (.loop event onLoop) = .ok (t1, out1))
    (post : List ThreadEvent) (t2 : Threads) (out2 : List ServerObs)
    (hpost : t1.run post = .ok (t2, out2))
    (hplay : Runs.Along step (fun t ev => ¬ t.Revives ev) (Threads.new ipPort version)
      (pre ++ .loop event onLoop :: post)) :
    ∀ x, .call c x ∈ out2 → ¬ x.OfRtp := by
  obtain ⟨hplay1,hrest⟩ := Runs.along_split hplay
  obtain ⟨hev,hplay2⟩ := hrest t out hpre
  have hkeep (t : Threads) (ev : ThreadEvent) (t' : Threads) (out : List ServerObs)
      (hI : RtspServer.ConnInvariant t.srv ∧ t.Silent) (hev : ¬ t.Revives ev)
      (h : t.step ev = .ok (t', out)) : RtspServer.ConnInvariant t'.srv ∧ t'.Silent :=
    ⟨connInvariant_step hI.1 h, hI.2.step hI.1 hev h⟩
  have hI : RtspServer.ConnInvariant t.srv ∧ t.Silent :=
    Runs.run_preserves_along _ hkeep
      ⟨RtspServer.connInvariant_new ipPort version, silent_new ipPort version⟩ hplay1 hpre
  have hI1 := hkeep t _ t1 out1 hI hev hstep
  have hended := ended_of_teardown hI.1 hd hm hstep
  intro x hx
  apply Runs.run_emits_along (fun t => (RtspServer.ConnInvariant t.srv ∧ t.Silent) ∧ t.Ended c)
    (fun o => ∀ x, o = .call c x → ¬ x.OfRtp) _ ⟨hI1, hended⟩ (hplay2 t1 out1 hstep) hpost _ hx x rfl
  intro t ev t' out hI hev h
  refine ⟨⟨hkeep t ev t' out hI.1 hev h, hI.2.step hI.1.1 h⟩, ?_⟩
  rintro _ hmem x rfl hrtp
  exact hI.2.quiet hI.1.2 ((step_object hI.1.1 h).2 x hmem hrtp)

/-- The task that was posted before the TEARDOWN runs after it. -/
theorem teardown_final_posted : ∃ t out t1 out1 t2 out2,
    (Threads.new [] []).run (loops setupClient setupClient_onLoop ++ postKeyPacket) = .ok (t, out) ∧
    t.step (.loop (.message 1 teardownRequest.encode RtspServer.boundEnv) trivial) =
      .ok (t1, out1) ∧
    t1.run [.loop (.runTask 1 12) trivial] = .ok (t2, out2) ∧
    ∀ x, .call 1 x ∈ out2 → ¬ x.OfRtp := by
  obtain ⟨t,conn,s,out,hrun,⟨hheld,hchecked,hpending⟩,hc,hinput,hs,hopen,hsends,_⟩ := run_setupThreads
  have hlock : t.srv.lock 1 = some s := by
    rw [RtspServer.lock, hc]
    exact hs
  have hpre := Runs.run_append_of_ok hrun (run_postKeyPacket hlock hsends hheld hchecked)
  obtain ⟨input,q,out1,_,⟨hd,hm⟩,hteardown⟩ := @RtspServer.step_teardown
    { t.srv with pending := t.srv.pending ++ [keyTask] } 1 conn RtspServer.boundEnv teardownRequest s hc
    hinput.1 hinput.2 teardownRequest_wellFormed rfl hs
  have hstep := @step_message { t with held := [1], srv := { t.srv with
    pending := t.srv.pending ++ [keyTask] } } _ _ _ _ _ hteardown
  obtain ⟨⟨s',calls⟩,hsend⟩ := RtpConnection.sendRtpPacketInLoop_ok s.teardown .channel_0 keyPacket 12
    (by decide) (by decide)
  have hconn := RtspServer.setConn_self { t.srv with pending := t.srv.pending ++ [keyTask] } 1
    { conn with input := input, rtpConn := some s.teardown }
  have htasks : t.srv.pending ++ [keyTask] = [keyTask] := by rw [hpending, List.nil_append]
  obtain ⟨t2,htask⟩ := @step_keyTask { t with held := [1], srv := (RtspServer.setConn
    { t.srv with pending := t.srv.pending ++ [keyTask] } 1
    { conn with input := input, rtpConn := some s.teardown }) } _ _ _ 12 _ htasks hconn rfl hsend
  refine ⟨_, _, _, _, t2, _, hpre, hstep, Runs.run_single htask, ?_⟩
  apply teardown_final [] [] _ _ _ hpre (.message 1 teardownRequest.encode RtspServer.boundEnv) trivial
    1 q hd hm _ _ hstep _ t2 _ (Runs.run_single htask)
  apply Runs.along_append
  · exact not_revives_postKeyPacket
  · intro t3 out3 hrun3
    obtain ⟨rfl,_⟩ := Prod.mk.inj (Except.ok.inj (hpre.symm.trans hrun3))
    refine ⟨?_, fun _ _ _ => ⟨?_, fun _ _ _ => trivial⟩⟩
    · rintro ⟨c,q',_,hd',hplay,_⟩
      obtain ⟨_,rfl⟩ := Prod.mk.inj (Option.some.inj (hd.symm.trans hd'))
      rw [hm] at hplay
      cases hplay
    · rintro ⟨c,q',_,hd',_⟩
      cases hd'

/-- A call of `sendRtpPacket` finds the connection open. Then TEARDOWN is handled, the call posts its
task, and PLAY is handled before the task runs. -/
theorem teardown_not_final : ∃ t out q t1 out1 t2 out2 pkt,
    (Threads.new [] []).run (loops setupClient setupClient_onLoop ++ checkKeyPacket) = .ok (t, out) ∧
    (t.srv.dispatched (.message 1 teardownRequest.encode RtspServer.boundEnv) = some (1, q) ∧
      q.method = .TEARDOWN) ∧
    t.step (.loop (.message 1 teardownRequest.encode RtspServer.boundEnv) trivial) =
      .ok (t1, out1) ∧
    t1.run [.post 1, .loop (.message 1 RtspServer.playRequest.encode RtspServer.boundEnv) trivial,
      .loop (.runTask 1 12) trivial] = .ok (t2, out2) ∧
    .call 1 (.overUdp .channel_0 pkt) ∈ out2 := by
  obtain ⟨t,conn,s,out,hrun,⟨hheld,hchecked,hpending⟩,hc,hinput,hs,hopen,hsends,hsetup,hmode⟩ :=
    run_setupThreads
  have hlock : t.srv.lock 1 = some s := by
    rw [RtspServer.lock, hc]
    exact hs
  have hpre := Runs.run_append_of_ok hrun (run_checkKeyPacket hlock hsends hheld hchecked)
  obtain ⟨input,q,out1,hinput1,hd,hteardown⟩ := @RtspServer.step_teardown t.srv 1 conn
    RtspServer.boundEnv teardownRequest s hc hinput.1 hinput.2 teardownRequest_wellFormed rfl hs
  have hstep := @step_message { t with held := [1], checked := [keyTask] } _ _ _ _ _ hteardown
  obtain ⟨srv1,hsrv1⟩ : ∃ srv1 : RtspServer, srv1 = { t.srv.setConn 1
      { conn with input := input, rtpConn := some s.teardown } with pending := [keyTask] } := ⟨_, rfl⟩
  have hpost : step { t with
      held := [1]
      checked := [keyTask]
      srv := t.srv.setConn 1 { conn with input := input, rtpConn := some s.teardown } } (.post 1) =
        .ok ({ t with held := [1], checked := [], srv := srv1 }, []) := by
    rw [hsrv1]
    show Except.ok (post _ 1, []) = _
    unfold post
    simp only [List.find?_cons_of_pos, keyTask, decide_true, List.eraseP_cons_of_pos]
    rw [show (t.srv.setConn 1 { conn with input := input, rtpConn := some s.teardown }).pending = []
      from hpending]
    rfl
  have hc1 : srv1.rtspConnMap 1 = some { conn with input := input, rtpConn := some s.teardown } := by
    rw [hsrv1]
    exact RtspServer.setConn_self t.srv 1 { conn with input := input, rtpConn := some s.teardown }
  obtain ⟨input2,out2,_,hplay⟩ := @RtspServer.step_play srv1 1 _ RtspServer.boundEnv
    RtspServer.playRequest s.teardown hc1 hinput1.1 hinput1.2 RtspServer.playRequest_wellFormed rfl rfl
  have hplay' := @step_message { t with held := [1], checked := [], srv := srv1 } _ _ _ _ _ hplay
  have hon : (s.teardown.play.mediaChannelInfo .channel_0).isPlay = true := by
    have hset : (s.teardown.mediaChannelInfo .channel_0).isSetup = true := by
      rw [RtpConnection.teardown, hopen]
      exact hsetup
    rw [RtpConnection.play]
    dsimp only
    rw [hset]
    rfl
  obtain ⟨s',calls,hsend,hne⟩ := s.teardown.play.send_playing .channel_0 keyPacket 12 hon rfl
    (by decide) (by decide)
  obtain ⟨pkt,hcall⟩ : ∃ pkt, .overUdp .channel_0 pkt ∈ calls := by
    have hudp : s.teardown.play.transportMode = .rtpOverUdp := by
      show s.teardown.transportMode = .rtpOverUdp
      rw [RtpConnection.teardown, hopen]
      exact hmode
    rcases RtpConnection.sendRtpPacketInLoop_cases _ _ hsend with
      ⟨_,_,rfl⟩ | ⟨_,data,_,⟨htcp,_⟩ | ⟨_,r,_,_,rfl⟩⟩
    · exact absurd rfl hne
    · rw [hudp] at htcp
      cases htcp
    · exact ⟨_, List.mem_cons_self⟩
  have hpending2 : (srv1.setConn 1 { conn with
      input := input2, connState := .START_PLAY, rtpConn := some s.teardown.play }).pending =
        [keyTask] := by
    rw [hsrv1]
    rfl
  obtain ⟨t2,htask⟩ := @step_keyTask { t with held := [1], checked := [], srv := (srv1.setConn 1
    { conn with input := input2, connState := .START_PLAY, rtpConn := some s.teardown.play }) } _ _ _ 12
    _ hpending2 (RtspServer.setConn_self ..) rfl hsend
  refine ⟨_, _, q, _, _, t2, _, pkt, hpre, hd, hstep,
    Runs.run_cons_of_ok hpost (Runs.run_cons_of_ok hplay' (Runs.run_single htask)), ?_⟩
  apply List.mem_append_right
  apply List.mem_append_right
  apply List.mem_append_left
  exact List.mem_map.mpr ⟨_, hcall, rfl⟩

end Threads

end IdealServer
