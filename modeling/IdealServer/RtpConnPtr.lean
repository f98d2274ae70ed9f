import IdealServer.ServerSteps

/-! `_rtpConnPtr`: only `handleCmdDescribe` creates it, and four handlers use it. -/
namespace IdealServer
namespace RtspServer

/-- The handlers that go through `_rtpConnPtr`; `session` is the one found under `_sessionId`. -/
def NeedsRtpConn (session : Option MediaSession) (q : RtspRequest) : Prop :=
  match q.method with
  | .PLAY | .TEARDOWN | .GET_PARAMETER => True
  | .SETUP => session.isSome ∧ q.transport ≠ .rtpOverMulticast
  | .OPTIONS | .DESCRIBE | .RTCP | .NONE => False

/-- Where a DESCRIBE has been handled there is an `RtpConnection`, and nowhere else. -/
structure PtrInvariant (srv : RtspServer) (out : List ServerObs) : Prop where
  numbers : ∀ d, srv.nextConnId ≤ d → srv.rtspConnMap d = none ∧ Unserved out d
  rtpConn : ∀ d conn, srv.rtspConnMap d = some conn →
    (conn.rtpConn.isSome ↔ ∃ q, .command d q ∈ out ∧ q.method = .DESCRIBE)

theorem PtrInvariant.step {srv srv' : RtspServer} {acc out : List ServerObs} {ev : ServerEvent}
    (hI : PtrInvariant srv acc) (h : srv.step ev = .ok (srv', out)) :
    PtrInvariant srv' (acc ++ out) := by
  have hunserved {d : ConnId} (h1 : Unserved acc d) (h2 : Unserved out d) :
      Unserved (acc ++ out) d := by
    intro q hq
    rcases List.mem_append.mp hq with hq | hq
    · exact h1 q hq
    · exact h2 q hq
  have hserved {d : ConnId} : (∃ q, .command d q ∈ acc ++ out ∧ q.method = .DESCRIBE) ↔
      (∃ q, .command d q ∈ acc ∧ q.method = .DESCRIBE) ∨
        ∃ q, .command d q ∈ out ∧ q.method = .DESCRIBE := by
    constructor
    · rintro ⟨q,hq,hm⟩
      rcases List.mem_append.mp hq with hq | hq
      · exact Or.inl ⟨q, hq, hm⟩
      · exact Or.inr ⟨q, hq, hm⟩
    · rintro (⟨q,hq,hm⟩ | ⟨q,hq,hm⟩)
      · exact ⟨q, List.mem_append_left _ hq, hm⟩
      · exact ⟨q, List.mem_append_right _ hq, hm⟩
  refine ⟨?_, ?_⟩
  · intro d hd
    obtain ⟨hconn,hnext⟩ := step_conn h d
    have hold := hI.numbers d (Nat.le_trans hnext hd)
    cases hconn with
    | same unchanged unserved => exact ⟨unchanged.trans hold.1, hunserved hold.2 unserved⟩
    | closed event after unserved => exact ⟨after, hunserved hold.2 unserved⟩
    | opened number next conn' after sessionId rtpConn name input unserved =>
      -- the number that has just been given is below the next one
      rw [next, number] at hd
      exact absurd hd (Nat.not_succ_le_self _)
    | kept conn conn' before after ops kept read asked served =>
      rw [hold.1] at before
      contradiction
    | described conn conn' input q srv1 calls before after read dispatch method effect obs =>
      rw [hold.1] at before
      contradiction
  · intro d conn' hd
    rw [hserved]
    obtain ⟨hconn,_⟩ := step_conn h d
    cases hconn with
    | same unchanged unserved =>
      rw [unchanged] at hd
      rw [hI.rtpConn d conn' hd]
      constructor
      · exact Or.inl
      · rintro (hq | ⟨q,hq,_⟩)
        · exact hq
        · exact absurd hq (unserved q)
    | closed event after unserved =>
      rw [after] at hd
      contradiction
    | opened number next conn after sessionId rtpConn name input unserved =>
      obtain rfl := Option.some.inj (after.symm.trans hd)
      rw [rtpConn]
      constructor
      · intro hsome
        contradiction
      · rintro (⟨q,hq,_⟩ | ⟨q,hq,_⟩)
        · exact absurd hq ((hI.numbers d (Nat.le_of_eq number.symm)).2 q)
        · exact absurd hq (unserved q)
    | kept conn conn1 before after ops kept read asked served =>
      obtain rfl := Option.some.inj (after.symm.trans hd)
      rw [kept.ran.isSome, hI.rtpConn d conn before]
      constructor
      · exact Or.inl
      · rintro (hq | ⟨q,hq,hm⟩)
        · exact hq
        · exact absurd hm (served q hq)
    | described conn conn1 input q srv1 calls before after read dispatch method effect obs =>
      obtain rfl := Option.some.inj (after.symm.trans hd)
      obtain ⟨_,_,_,_,_,hsome⟩ := effect.frame
      constructor
      · intro _
        exact Or.inr ⟨q, by rw [obs]; exact List.mem_cons_self, method⟩
      · exact fun _ => hsome

theorem run_ptrInvariant {ipPort version : Bytes} {evs : List ServerEvent} {srv : RtspServer}
    {out : List ServerObs} (h : (RtspServer.new ipPort version).run evs = .ok (srv, out)) :
    PtrInvariant srv out := by
  have hinit : PtrInvariant (RtspServer.new ipPort version) [] :=
    ⟨fun d _ => ⟨rfl, unserved_nil d⟩, fun d conn hd => by contradiction⟩
  exact Runs.run_invariant PtrInvariant (fun _ _ _ _ _ hI hs => hI.step hs) hinit h

/-- A handler goes wrong in one way only. -/
theorem handleCommand_nullPointer {srv : RtspServer} {c : ConnId} {conn : RtspConnection}
    {q : RtspRequest} {env : HandlerEnv} :
    srv.handleCommand c conn q env = .error .nullPointer ↔
      NeedsRtpConn (srv.lookMediaSessionId conn.sessionId) q ∧ conn.rtpConn = none := by
  unfold handleCommand NeedsRtpConn
  cases hm : q.method with
  | OPTIONS => simp
  | DESCRIBE => simp
  | RTCP => simp
  | NONE => simp
  | PLAY =>
    unfold RtspConnection.handleCmdPlay
    cases conn.rtpConn <;> simp [bind, Except.bind, pure, Except.pure]
  | TEARDOWN =>
    unfold RtspConnection.handleCmdTeardown
    cases conn.rtpConn <;> simp [bind, Except.bind, pure, Except.pure]
  | GET_PARAMETER =>
    unfold RtspConnection.handleCmdGetParamter
    cases conn.rtpConn <;> simp [bind, Except.bind, pure, Except.pure]
  | SETUP =>
    unfold RtspConnection.handleCmdSetup
    cases srv.lookMediaSessionId conn.sessionId with
    | none => simp [bind, Except.bind, pure, Except.pure]
    | some session =>
      cases q.transport <;> cases conn.rtpConn <;> simp [bind, Except.bind, pure, Except.pure]

/-- In every run, a command that is dispatched dereferences a null `_rtpConnPtr` unless it does
not need the pointer or a DESCRIBE has been dispatched on its connection before. -/
theorem rtpConnPtr_exists (ipPort version : Bytes) (evs : List ServerEvent) (srv : RtspServer)
    (out : List ServerObs) (hrun : (RtspServer.new ipPort version).run evs = .ok (srv, out))
    (c : ConnId) (conn : RtspConnection) (hc : srv.rtspConnMap c = some conn) (bytes : Bytes)
    (input : RtspInput) (events : List RtspEvent)
    (hread : conn.input.receive bytes = .ok (input, events)) (q : RtspRequest)
    (hq : commandIn events = some q) (env : HandlerEnv) :
    srv.step (.message c bytes env) ≠ .error .nullPointer ↔
      (NeedsRtpConn (srv.lookMediaSessionId conn.sessionId) q →
        ∃ p, .command c p ∈ out ∧ p.method = .DESCRIBE) := by
  have hptr := (run_ptrInvariant hrun).rtpConn c conn hc
  have hstep : srv.step (.message c bytes env) = .error .nullPointer ↔
      srv.handleCommand c { conn with input := input } q env = .error .nullPointer := by
    have hdo := @onMessage_command srv c conn bytes env input events q hc hread hq
    rw [RtspServer.step, hdo]
    cases srv.handleCommand c { conn with input := input } q env with
    | error f => simp [Except.bind]
    | ok r => simp [Except.bind]
  rw [ne_eq, hstep, handleCommand_nullPointer, ← hptr]
  constructor
  · intro h hneeds
    rw [Option.isSome_iff_ne_none]
    exact fun hnone => h ⟨hneeds, hnone⟩
  · rintro h ⟨hneeds,hnone⟩
    have hsome := h hneeds
    rw [hnone] at hsome
    contradiction

/-- A server without sessions to which one client has connected. -/
def oneClient : RtspServer :=
  (RtspServer.new [] []).newConnection 5 ⟨0, 0⟩ blankRequest

theorem run_oneClient : (RtspServer.new [] []).run [.newConnection 5 ⟨0, 0⟩ blankRequest] =
    .ok (oneClient, []) := rfl

/-- A client that begins with PLAY. -/
theorem rtpConnPtr_null : playRequest.WellFormed ∧ playRequest.CSeqFirst ∧
    (RtspServer.new [] []).run [.newConnection 5 ⟨0, 0⟩ blankRequest,
      .message 1 playRequest.encode boundEnv] = .error .nullPointer := by
  have hwf : playRequest.WellFormed := playRequest_wellFormed
  refine ⟨hwf, ⟨[], [ascii "Session: 1"], rfl, by simp⟩, ?_⟩
  obtain ⟨conn,hc,hnew⟩ : ∃ conn, oneClient.rtspConnMap 1 = some conn ∧
      conn = RtspConnection.new blankRequest ⟨(RtspServer.new [] []).connName, 5, ⟨0, 0⟩⟩ :=
    ⟨_, rfl, rfl⟩
  have hidle : conn.input.Idle := by
    rw [hnew]
    exact ⟨rfl, Buffer.readable_new⟩
  have hcleared : conn.input.request.Cleared := by
    rw [hnew]
    exact fun _ => ⟨rfl, rfl⟩
  obtain ⟨input,events,hread,hq,_⟩ := receive_own hwf hidle
  have hmethod : (conn.input.request.parsed playRequest).method = .PLAY :=
    congrArg Dispatch.method (parsed_dispatch hwf hidle.1 hcleared)
  have hfault : oneClient.onMessage 1 playRequest.encode boundEnv = .error .nullPointer := by
    rw [onMessage_command hc hread hq, handleCommand_nullPointer.mpr]
    · rfl
    · refine ⟨?_, by rw [hnew]; rfl⟩
      rw [NeedsRtpConn, hmethod]
      trivial
  clear hwf hread hmethod
  generalize playRequest.encode = bytes at hfault ⊢
  have hstep : oneClient.step (.message 1 bytes boundEnv) = .error .nullPointer := hfault
  have herr := Runs.run_concat_error run_oneClient hstep
  exact herr

/-- A client that begins with DESCRIBE may go on with PLAY. -/
theorem rtpConnPtr_exists_described : ∃ srv out, (RtspServer.new [] []).run
    [.newConnection 5 ⟨0, 0⟩ blankRequest, .message 1 (describeRequest (ascii "s")).encode boundEnv] =
      .ok (srv, out) ∧
    srv.step (.message 1 playRequest.encode boundEnv) ≠ .error .nullPointer := by
  have hwf : (describeRequest (ascii "s")).WellFormed := describeRequest_wellFormed (.inl rfl)
  have hplay : playRequest.WellFormed := playRequest_wellFormed
  obtain ⟨conn,hc,hnew⟩ : ∃ conn, oneClient.rtspConnMap 1 = some conn ∧
      conn = RtspConnection.new blankRequest ⟨(RtspServer.new [] []).connName, 5, ⟨0, 0⟩⟩ :=
    ⟨_, rfl, rfl⟩
  have hidle : conn.input.Idle := by
    rw [hnew]
    exact ⟨rfl, Buffer.readable_new⟩
  have hcleared : conn.input.request.Cleared := by
    rw [hnew]
    exact fun _ => ⟨rfl, rfl⟩
  obtain ⟨input,events,hread,hq,hidle1,_⟩ := receive_own hwf hidle
  generalize hparsed : conn.input.request.parsed (describeRequest (ascii "s")) = q at hq
  have hmethod : q.method = .DESCRIBE := by
    rw [← hparsed]
    exact congrArg Dispatch.method (parsed_dispatch hwf hidle.1 hcleared)
  obtain ⟨srv1,conn1,calls,hhandle⟩ : ∃ srv1 conn1 calls, oneClient.handleCommand 1
      { conn with input := input } q boundEnv = .ok (srv1, conn1, calls) := by
    rw [handleCommand, hmethod]
    exact ⟨_, _, _, rfl⟩
  have hstep : oneClient.step (.message 1 (describeRequest (ascii "s")).encode boundEnv) =
      .ok (srv1.setConn 1 conn1, .command 1 q :: calls.map (ServerObs.call 1)) := by
    rw [RtspServer.step, onMessage_command hc hread hq, hhandle]
    rfl
  have hrun : (RtspServer.new [] []).run [.newConnection 5 ⟨0, 0⟩ blankRequest,
      .message 1 (describeRequest (ascii "s")).encode boundEnv] = .ok (srv1.setConn 1 conn1,
        [] ++ (.command 1 q :: calls.map (ServerObs.call 1) ++ [])) := by
    generalize (describeRequest (ascii "s")).encode = bytes at hstep ⊢
    exact Runs.run_cons_of_ok rfl (Runs.run_cons_of_ok hstep rfl)
  refine ⟨_, _, hrun, ?_⟩
  -- what the handler leaves of the connection
  have hinput : conn1.input = input := by
    rcases handleCommand_cases hhandle with ⟨_,heffect⟩ | ⟨hm,_⟩
    · obtain ⟨_,_,_,_,hinput,_⟩ := heffect.frame
      exact hinput
    · exact absurd hmethod hm
  have hidle1' : conn1.input.Idle := by
    rw [hinput]
    exact hidle1
  obtain ⟨input2,events2,hread2,hq2,_⟩ := receive_own hplay hidle1'
  apply (rtpConnPtr_exists [] [] _ _ _ hrun 1 conn1 (setConn_self ..) _ _ _ hread2 _ hq2
    boundEnv).mpr
  intro _
  exact ⟨q, by simp, hmethod⟩

end RtspServer

end IdealServer
