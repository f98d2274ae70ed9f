import IdealServer.Membership
import IdealServer.Sdp

/-! The answer to a DESCRIBE: the length that it announces, and the description that follows. -/
namespace IdealServer
open Lines

def RtspServer.setVersion (srv : RtspServer) (version : Bytes) : RtspServer :=
  { srv with version := version }

/-- Headers, an empty line and a body. The only length announced is that of the body, and the body
is the description. -/
def Framed (sent sdp : Bytes) : Prop :=
  ∃ headers body, sent = unlines kCRLF (headers ++ [[]]) ++ body ∧
    (∀ l ∈ headers, l ≠ [] ∧ ¬kCRLF <:+: l) ∧
    headers.filter (fun l => (ascii "Content-Length:").isPrefixOf l) =
      [ascii "Content-Length: " ++ Numeral.decimal body.length] ∧ body = sdp

/-- The bytes of the description: of the one there is, or of the one that is to be printed. -/
def MediaSession.describedLength (s : MediaSession) (now : ℤ) (ip sessionName : Bytes) : ℕ :=
  if s.sdp = [] then s.printedLength now ip sessionName else s.sdp.length

theorem RtspServer.lookMediaSession_setVersion (srv : RtspServer) (version suffix : Bytes) :
    ((srv.setVersion version).lookMediaSession suffix).1 = (srv.lookMediaSession suffix).1 := by
  unfold RtspServer.lookMediaSession
  rw [show (srv.setVersion version).rtspSuffixMap = srv.rtspSuffixMap from rfl,
    show (srv.setVersion version).mediaSessions = srv.mediaSessions from rfl]
  cases srv.rtspSuffixMap suffix with
  | none => rfl
  | some id =>
    dsimp only
    cases srv.mediaSessions id with
    | none => rfl
    | some session => cases session <;> rfl

section Framing
variable {q : RtspRequest} {sdp : Bytes} {bufSize : ℕ}

theorem framed_text : Framed ((ServerResponse.describe sdp).text q) sdp := by
  refine ⟨_, sdp, rfl, ServerResponse.headers_unbroken trivial, ?_, rfl⟩
  have hstatus : (ascii "Content-Length:").isPrefixOf (ascii "RTSP/1.0 200 OK") = false := by decide
  have htype : (ascii "Content-Length:").isPrefixOf (ascii "Content-Type: application/sdp") = false := by
    decide
  have hcseq (digits : Bytes) : (ascii "Content-Length:").isPrefixOf (ascii "CSeq: " ++ digits) = false :=
    rfl
  have hlength (digits : Bytes) :
      (ascii "Content-Length:").isPrefixOf (ascii "Content-Length: " ++ digits) = true := rfl
  simp only [ServerResponse.headers, ServerResponse.status, ServerResponse.fields, List.filter_cons,
    hstatus, hcseq, hlength, htype, Bool.false_eq_true, ↓reduceIte, List.filter_nil, printU]

/-- A text that is cut is not framed: with the rest of it the description would be longer. -/
theorem framed_build_iff (hpos : 0 < bufSize) : Framed (q.buildDescribeRes bufSize sdp) sdp ↔
    ((ServerResponse.describe sdp).text q).length < bufSize := by
  have hbuild : q.buildDescribeRes bufSize sdp =
      ((ServerResponse.describe sdp).text q).take (bufSize-1) :=
    (ServerResponse.describe sdp).build_eq q bufSize
  constructor
  · rintro ⟨headers,body,hsent,hheaders,_,rfl⟩
    rw [hbuild] at hsent
    -- what was cut off is put back, and the headers are read a second time
    have hsplit := List.take_append_drop (bufSize-1) ((ServerResponse.describe body).text q)
    have htext : unlines kCRLF ((ServerResponse.describe body).headers q ++ [[]]) ++ body =
        unlines kCRLF (headers ++ [[]]) ++
          (body ++ ((ServerResponse.describe body).text q).drop (bufSize-1)) := by
      rw [← List.append_assoc, ← hsent, hsplit]
      rfl
    have hown : (ServerResponse.describe body).OwnHeader := trivial
    obtain ⟨_,hbody⟩ := unlines_blank_inj (by decide)
      (ServerResponse.headers_unbroken hown) hheaders htext
    have hdrop := List.self_eq_append_right.mp hbody
    rw [List.drop_eq_nil_iff] at hdrop
    omega
  · intro hfit
    rw [hbuild, List.take_of_length_le (by omega)]
    exact framed_text

theorem MediaSession.length_getSdpMessage (s : MediaSession) (now : ℤ) (ip sessionName : Bytes) :
    (s.getSdpMessage now ip sessionName).1.length =
      if s.sdp = [] then min 1023 (s.printedLength now ip sessionName) else s.sdp.length := by
  split
  case isTrue h =>
    rw [s.getSdpMessage_text now ip sessionName h, snprintf, List.nil_append, List.length_take,
      s.length_sdpLines]
  case isFalse h => rw [s.getSdpMessage_cached now ip sessionName h]

/-- The description in its array, and the response in its own. -/
theorem framed_describe_iff {s : MediaSession} {now : ℤ} {ip sessionName : Bytes} :
    Framed (q.buildDescribeRes 1024 (s.getSdpMessage now ip sessionName).1)
        (s.getSdpMessage now ip sessionName).1 ↔
      76+(Numeral.decimal q.getCSeq.toNat).length+
        (Numeral.decimal (s.describedLength now ip sessionName)).length+
        s.describedLength now ip sessionName ≤ 1023 := by
  rw [framed_build_iff (by decide), ServerResponse.length_describe, s.length_getSdpMessage,
    MediaSession.describedLength, Nat.lt_succ_iff]
  split
  · rcases Nat.le_total (s.printedLength now ip sessionName) 1023 with hle | hge
    · rw [Nat.min_eq_right hle]
    · -- a description that fills its array leaves no room for the headers
      rw [Nat.min_eq_left hge]
      constructor <;> intro h <;> omega
  · rfl

/-- What is sent in answer to a DESCRIBE of a registered session. -/
theorem handleCmdDescribe_sent {srv : RtspServer} {id : UInt32} {session : MediaSession}
    (hlook : (srv.lookMediaSession q.getRtspUrlSuffix).1 = some (id, session)) (version : Bytes)
    (c : ConnId) (conn : RtspConnection) (env : HandlerEnv) :
    ((srv.setVersion version).handleCmdDescribe c conn q env).2.2 =
      [conn.sendMessage (q.buildDescribeRes 1024 (session.getSdpMessage env.now env.ip version).1)] := by
  obtain ⟨srv1,hfound⟩ : ∃ srv1, (srv.setVersion version).lookMediaSession q.getRtspUrlSuffix =
      (some (id, session), srv1) :=
    ⟨_, Prod.ext ((srv.lookMediaSession_setVersion version _).trans hlook) rfl⟩
  obtain ⟨rfl,_⟩ := RtspServer.lookMediaSession_some hfound
  have hclient (fd : ℤ) : ((session.addClient fd c).2.getSdpMessage env.now env.ip version).1 =
      (session.getSdpMessage env.now env.ip version).1 := by
    rw [MediaSession.addClient_frame]
    unfold MediaSession.getSdpMessage MediaSession.describeSource
    dsimp only
    split <;> rfl
  unfold RtspServer.handleCmdDescribe
  dsimp only
  rw [hfound]
  dsimp only
  rw [if_neg (MediaSession.getSdpMessage_ne_nil _ _ _)]
  show [conn.sendMessage _] = _
  rw [show (srv.setVersion version).version = version from rfl, hclient]

end Framing

/-- The answer carries the whole description exactly if the headers and the description together
leave room for the NUL in the array of 1024 bytes. -/
theorem describe_framed_iff (srv : RtspServer) (version : Bytes) (c : ConnId)
    (conn : RtspConnection) (q : RtspRequest) (env : HandlerEnv) (id : UInt32)
    (session : MediaSession)
    (hlook : (srv.lookMediaSession q.getRtspUrlSuffix).1 = some (id, session)) :
    (∃ sent, ((srv.setVersion version).handleCmdDescribe c conn q env).2.2 = [conn.sendMessage sent] ∧
        Framed sent (session.getSdpMessage env.now env.ip version).1) ↔
      76+(Numeral.decimal q.getCSeq.toNat).length+
        (Numeral.decimal (session.describedLength env.now env.ip version)).length+
        session.describedLength env.now env.ip version ≤ 1023 := by
  rw [handleCmdDescribe_sent hlook, ← framed_describe_iff]
  constructor
  · rintro ⟨sent,hcalls,hframed⟩
    obtain ⟨_,rfl⟩ := Call.send.inj (List.cons.inj hcalls).1
    exact hframed
  · intro hframed
    exact ⟨_, rfl, hframed⟩

/-- A server with a camera under the suffix `s`, and what a client asks of it. -/
def cameraServer : RtspServer := (RtspServer.new [] []).addMediaSession (ascii "s") RtspServer.videoOnly

def describeCamera : RtspRequest :=
  { blankRequest with requestLineParam := fun key => if key = .url_suffix then some (ascii "s", 0) else none }

def cameraEnv : HandlerEnv :=
  { RtspServer.boundEnv with now := 1700000000, ip := ascii "192.168.0.10" }

theorem cameraServer_look : ∃ session,
    (cameraServer.lookMediaSession describeCamera.getRtspUrlSuffix).1 = some (2, session) ∧
      session.sdp = [] ∧ session.channels = [.channel_0] := ⟨_, rfl, rfl, rfl⟩

theorem describe_framed_camera : ∃ session,
    (cameraServer.lookMediaSession describeCamera.getRtspUrlSuffix).1 = some (2, session) ∧
    ∃ sent, ((cameraServer.setVersion (ascii "camera")).handleCmdDescribe 1
      (RtspConnection.new blankRequest ⟨[], 5, ⟨1, 2⟩⟩) describeCamera cameraEnv).2.2 =
        [(RtspConnection.new blankRequest ⟨[], 5, ⟨1, 2⟩⟩).sendMessage sent] ∧
      Framed sent (session.getSdpMessage 1700000000 (ascii "192.168.0.10") (ascii "camera")).1 := by
  obtain ⟨session,hlook,hsdp,hchannels⟩ := cameraServer_look
  refine ⟨session, hlook, (describe_framed_iff cameraServer (ascii "camera") 1
    (RtspConnection.new blankRequest ⟨[], 5, ⟨1, 2⟩⟩) describeCamera cameraEnv 2 session hlook).mpr ?_⟩
  rw [MediaSession.describedLength, if_pos hsdp, MediaSession.printedLength, hchannels]
  decide

/-- A name of 850 bytes: the description has 984, of which the answer carries 943. -/
theorem describe_framed_fails : ∃ session,
    (cameraServer.lookMediaSession describeCamera.getRtspUrlSuffix).1 = some (2, session) ∧
    ¬∃ sent, ((cameraServer.setVersion (List.replicate 850 97)).handleCmdDescribe 1
      (RtspConnection.new blankRequest ⟨[], 5, ⟨1, 2⟩⟩) describeCamera cameraEnv).2.2 =
        [(RtspConnection.new blankRequest ⟨[], 5, ⟨1, 2⟩⟩).sendMessage sent] ∧
      Framed sent (session.getSdpMessage 1700000000 (ascii "192.168.0.10") (List.replicate 850 97)).1 := by
  obtain ⟨session,hlook,hsdp,hchannels⟩ := cameraServer_look
  refine ⟨session, hlook, ?_⟩
  rintro ⟨sent,hcalls,hframed⟩
  rw [handleCmdDescribe_sent hlook] at hcalls
  obtain ⟨_,rfl⟩ := Call.send.inj (List.cons.inj hcalls).1
  have hroom := framed_describe_iff.mp hframed
  have hclean : ∀ b ∈ List.replicate 850 (97 : UInt8), b ≠ 0 := by
    intro b hb
    rw [List.eq_of_mem_replicate hb]
    decide
  have hname := congrArg List.length (Scanf.cString_eq hclean)
  rw [List.length_replicate] at hname
  generalize List.replicate 850 (97 : UInt8) = name at hname hroom
  have hnotNil : name ≠ [] := by
    rintro rfl
    exact absurd hname (by decide)
  rw [MediaSession.describedLength, if_pos hsdp, MediaSession.printedLength, hchannels,
    if_neg hnotNil, hname] at hroom
  revert hroom
  decide

end IdealServer
