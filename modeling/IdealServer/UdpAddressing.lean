import IdealServer.ServerSteps

/-! The ports of a SETUP over UDP, from the text of the request to the addresses that packets are
sent to. -/
namespace IdealServer
open Search

/-- The value of the header, as clients that want UDP write it. -/
def transportSpec (a b : UInt16) : Bytes :=
  ascii "RTP/AVP;unicast;client_port=" ++ Numeral.decimal a.toNat ++
    45 :: Numeral.decimal b.toNat

def transportHeader (a b : UInt16) : Bytes := ascii "Transport: " ++ transportSpec a b

/-- The channel that the URL of a request names. -/
def Request.channel (r : Request) : MediaChannelId :=
  if (search (ascii "track1") r.url).isSome then .channel_1 else .channel_0

/-- A SETUP that asks for UDP with the client's ports `a` and `b`, and for nothing else. -/
structure Request.SetupUdp (r : Request) (a b : UInt16) : Prop where
  wellFormed : r.WellFormed
  method : r.method = .SETUP
  header : ∃ pre post, r.headers = pre ++ transportHeader a b :: post ∧
    ∀ h ∈ pre, ¬ ascii "RTP/AVP" <:+: h
  no_tcp : ∀ h ∈ r.headers, ¬ ascii "RTP/AVP/TCP" <:+: h

section Text
variable {a b : UInt16} {r : Request} {q : RtspRequest}

theorem transportSpec_no_nul : ∀ x ∈ transportSpec a b, x ≠ 0 := by
  intro x hx
  simp only [transportSpec, List.mem_append, List.mem_cons] at hx
  have hword : ∀ x ∈ ascii "RTP/AVP;unicast;client_port=", x ≠ 0 := by decide +kernel
  rcases hx with (hx | hx) | rfl | hx
  · exact hword x hx
  · exact (digits_token _ x hx).2
  · decide
  · exact (digits_token _ x hx).2

/-- The two numbers behind the third separator are the ports. -/
theorem scan_transportSpec {rest : Bytes} (hout : ∀ x ∈ rest.head?, Numeral.isDigit x = false) :
    Scanf.scan [.skip 59, .lit 59, .skip 59, .lit 59, .skip 61, .lit 61, .uint 16, .lit 45, .uint 16]
      (transportSpec a b ++ rest) = some [.num a.toNat, .num b.toNat] := by
  have htext : transportSpec a b ++ rest = ascii "RTP/AVP" ++ 59 :: (ascii "unicast" ++ 59 ::
      (ascii "client_port" ++ 61 :: (Numeral.decimal a.toNat ++ 45 ::
        (Numeral.decimal b.toNat ++ rest)))) := by
    have hword : ascii "RTP/AVP;unicast;client_port=" = ascii "RTP/AVP" ++ 59 ::
        (ascii "unicast" ++ 59 :: (ascii "client_port" ++ [61])) := by decide
    rw [transportSpec, hword]
    simp
  have hhead (c : UInt8) (s : Bytes) : ∀ x ∈ (c :: s).head?, x = c :=
    fun x hx => (Option.some.inj hx).symm
  have hminus (s : Bytes) : ∀ x ∈ (45 :: s).head?, Numeral.isDigit x = false := by
    intro x hx
    obtain rfl := hhead 45 s x hx
    rfl
  have ha : a.toNat < 2^64 := by
    have := a.toNat_lt
    omega
  have hb : b.toNat < 2^64 := by
    have := b.toNat_lt
    omega
  have hmoda : a.toNat%2^16 = a.toNat := Nat.mod_eq_of_lt a.toNat_lt
  have hmodb : b.toNat%2^16 = b.toNat := Nat.mod_eq_of_lt b.toNat_lt
  rw [htext, Scanf.scan_skip (by decide) (by decide) (hhead _ _), Scanf.scan_lit,
    Scanf.scan_skip (by decide) (by decide) (hhead _ _), Scanf.scan_lit,
    Scanf.scan_skip (by decide) (by decide) (hhead _ _), Scanf.scan_lit,
    Scanf.scan_uint ha (hminus _), Scanf.scan_lit, Scanf.scan_uint hb hout, hmoda, hmodb]
  rfl

theorem scanPair_transport {message rest : Bytes} {pos : ℕ}
    (h : message.drop pos = transportSpec a b ++ kCRLF ++ rest) :
    RtspRequest.scanPair message pos = some (a, b) := by
  have hout : ∀ x ∈ (Scanf.cString (kCRLF ++ rest)).head?, Numeral.isDigit x = false := by
    intro x hx
    obtain rfl := Option.some.inj hx
    rfl
  rw [RtspRequest.scanPair, h, List.append_assoc, Scanf.cString_append transportSpec_no_nul,
    scan_transportSpec hout]
  simp only [UInt16.ofNat_toNat]

/-- The transport of the request is UDP, with the two ports of its header. -/
theorem parseTransport_udp (h : r.SetupUdp a b) : q.parseTransport r.headerText =
    (true, { q with transport := .rtpOverUdp }.setPair .rtp_port .rtcp_port a b) := by
  obtain ⟨pre,post,hheaders,hpre⟩ := h.header
  have htcp : search (ascii "RTP/AVP/TCP") r.headerText = none := by
    rw [search_eq_none]
    exact Lines.not_infix_unlines (by decide) (by decide) (by decide) h.no_tcp
  have hword : search (ascii "RTP/AVP") (transportHeader a b) = some 11 := by
    have hfixed : search (ascii "RTP/AVP") (ascii "Transport: RTP/AVP;unicast;client_port=") =
        some 11 := by decide
    have htext : transportHeader a b = ascii "Transport: RTP/AVP;unicast;client_port=" ++
        (Numeral.decimal a.toNat ++ 45 :: Numeral.decimal b.toNat) := by
      rw [transportHeader, transportSpec, ← List.append_assoc, ← List.append_assoc,
        List.append_assoc]
      rfl
    rw [htext]
    exact search_append_some hfixed
  have havp : search (ascii "RTP/AVP") r.headerText =
      some ((Lines.unlines kCRLF pre).length+11) := by
    rw [Request.headerText, hheaders]
    exact Lines.search_unlines (by decide) (by decide) (by decide) hpre hword
  -- what is left of the text from there on
  have hdrop : r.headerText.drop ((Lines.unlines kCRLF pre).length+11) =
      transportSpec a b ++ kCRLF ++ Lines.unlines kCRLF post := by
    have htext : r.headerText = Lines.unlines kCRLF pre ++ (ascii "Transport: " ++
        (transportSpec a b ++ kCRLF ++ Lines.unlines kCRLF post)) := by
      rw [Request.headerText, hheaders, Lines.unlines_append, Lines.unlines_cons, transportHeader]
      simp only [List.append_assoc]
    rw [htext, ← List.drop_drop, List.drop_left]
    rfl
  have hname : (search (ascii "Transport") r.headerText).isSome = true := by
    cases hs : search (ascii "Transport") r.headerText with
    | some pos => rfl
    | none =>
      have hin : ascii "Transport" <:+: r.headerText := by
        rw [Request.headerText, hheaders, Lines.unlines_append, Lines.unlines_cons]
        exact ⟨Lines.unlines kCRLF pre, ascii ": " ++ transportSpec a b ++ kCRLF ++
          Lines.unlines kCRLF post, by simp [transportHeader, ascii]⟩
      exact absurd hin (search_eq_none.mp hs)
  have hunicast : (search (ascii "unicast")
      (r.headerText.drop ((Lines.unlines kCRLF pre).length+11))).isSome = true := by
    have hfixed : search (ascii "unicast") (ascii "RTP/AVP;unicast;client_port=") = some 8 := by
      decide
    rw [hdrop, transportSpec]
    simp only [List.append_assoc]
    rw [search_append_some hfixed]
    rfl
  obtain ⟨_,hname⟩ := Option.isSome_iff_exists.mp hname
  simp only [RtspRequest.parseTransport, hname, htcp, havp, hunicast, ↓reduceIte,
    scanPair_transport hdrop]

/-- What the handler of the request is told. -/
structure ToldUdp (q : RtspRequest) (channelId : MediaChannelId) (a b : UInt16) : Prop where
  method : q.method = .SETUP
  transport : q.transport = .rtpOverUdp
  channelId : q.channelId = channelId
  rtpPort : q.getRtpPort = a
  rtcpPort : q.getRtcpPort = b

/-- Reading `CSeq` touches no other header. -/
theorem parseCSeq_other (message : Bytes) {k : HeaderLineKey} (hk : k ≠ .cseq) :
    (q.parseCSeq message).2.headerLineParam k = q.headerLineParam k := by
  unfold RtspRequest.parseCSeq
  cases search (ascii "CSeq") message with
  | none => rfl
  | some pos => exact ParamMap.emplace_of_ne _ hk

theorem parseMediaChannel_eq (url : Bytes) (n : UInt32)
    (h : q.requestLineParam .url = some (url, n)) : q.parseMediaChannel =
      { q with channelId :=
        if (search (ascii "track1") url).isSome then .channel_1 else .channel_0 } := by
  rw [RtspRequest.parseMediaChannel, h]
  dsimp only
  split <;> rfl

theorem parsed_setupUdp (h : r.SetupUdp a b) (hs : q.state = .kParseRequestLine)
    (hq : q.Cleared) : ToldUdp (q.parsed r) r.channel a b := by
  obtain ⟨hline,hheader⟩ := hq hs
  obtain ⟨hmethod,hreq,_⟩ := parseCSeq_frame (q.accepted r) r.headerText
  have hcseq : ¬((q.accepted r).parseCSeq r.headerText).1 = false := by
    have hcomplete := headersComplete_headerText h.wellFormed false
    rw [Method.headersComplete, Bool.false_or, Bool.and_eq_true] at hcomplete
    obtain ⟨pos,hpos⟩ := Option.isSome_iff_exists.mp hcomplete.1
    simp only [RtspRequest.parseCSeq, hpos, Bool.true_eq_false, not_false_eq_true]
  have hurl : ((q.accepted r).parseCSeq r.headerText).2.requestLineParam .url =
      some (r.url, 0) := by
    rw [hreq, RtspRequest.accepted, hline]
    rfl
  have hrtp : ((q.accepted r).parseCSeq r.headerText).2.headerLineParam .rtp_port = none := by
    rw [parseCSeq_other _ (by decide), RtspRequest.accepted, hheader]
  have hrtcp : ((q.accepted r).parseCSeq r.headerText).2.headerLineParam .rtcp_port = none := by
    rw [parseCSeq_other _ (by decide), RtspRequest.accepted, hheader]
  have hsetup : ((q.accepted r).parseCSeq r.headerText).2.method = .SETUP :=
    hmethod.trans h.method
  have hparsed : q.parsed r =
      (((q.accepted r).parseCSeq r.headerText).2.parseMethodHeaders r.headerText) := by
    have hif : (q.accepted r).parseHeadersLine r.headerText =
        if ((q.accepted r).parseCSeq r.headerText).1 = false ∧
          ((q.accepted r).parseCSeq r.headerText).2.headerLineParam .cseq = none then
          (false, ((q.accepted r).parseCSeq r.headerText).2)
        else (true, ((q.accepted r).parseCSeq r.headerText).2.parseMethodHeaders r.headerText) :=
      rfl
    rw [RtspRequest.parsed, hif, if_neg (fun hand => hcseq hand.1)]
  generalize ((q.accepted r).parseCSeq r.headerText).2 = p at hurl hrtp hrtcp hsetup hparsed
  have htransport := @parseTransport_udp a b r p h
  have hset : ({ p with transport := .rtpOverUdp }.setPair .rtp_port .rtcp_port
      a b).requestLineParam .url = some (r.url, 0) := hurl
  have hresult : q.parsed r = { ({ p with transport := .rtpOverUdp }.setPair .rtp_port .rtcp_port
      a b) with channelId := r.channel, state := .kGotAll } := by
    rw [hparsed, RtspRequest.parseMethodHeaders, hsetup]
    dsimp only
    rw [htransport]
    dsimp only
    rw [if_pos rfl, parseMediaChannel_eq r.url 0 hset, ← hsetup]
    rfl
  -- the second of the two entries is made in a map that holds the first
  have hports : (p.headerLineParam.emplace .rtp_port ([], a.toUInt32)) .rtcp_port = none := by
    rw [ParamMap.emplace_of_ne _ (by decide), hrtcp]
  rw [hresult]
  refine ⟨hsetup, rfl, rfl, ?_, ?_⟩
  · rw [RtspRequest.getRtpPort, RtspRequest.setPair]
    dsimp only
    rw [ParamMap.emplace_of_ne _ (by decide), ParamMap.emplace_of_none _ hrtp]
    exact UInt16.toUInt16_toUInt32 a
  · rw [RtspRequest.getRtcpPort, RtspRequest.setPair]
    dsimp only
    rw [ParamMap.emplace_of_none _ hports]
    exact UInt16.toUInt16_toUInt32 b

end Text

namespace RtpConnection
variable (s : RtpConnection) (c : MediaChannelId)

@[simp] theorem setFrameType_peers (t : UInt8) :
    (s.setFrameType t).peerRtpAddr = s.peerRtpAddr ∧
      (s.setFrameType t).peerRtcpAddr = s.peerRtcpAddr := by
  unfold setFrameType
  dsimp only
  split <;> exact ⟨rfl, rfl⟩

theorem teardown_peers :
    s.teardown.peerRtpAddr = s.peerRtpAddr ∧ s.teardown.peerRtcpAddr = s.peerRtcpAddr := by
  unfold teardown
  split <;> exact ⟨rfl, rfl⟩

/-- Where a task sends to, and that it leaves both addresses alone. -/
theorem sendRtpPacketInLoop_peers {s' : RtpConnection} {pkt : RtpPacket} {ret : ℤ}
    {calls : List Call} (h : s.sendRtpPacketInLoop c pkt ret = .ok (s', calls)) :
    (s'.peerRtpAddr = s.peerRtpAddr ∧ s'.peerRtcpAddr = s.peerRtcpAddr) ∧
      ∀ fd message addr, .sendto fd message addr ∈ calls → addr = s.peerRtpAddr c := by
  obtain ⟨hrtp,hrtcp⟩ := setFrameType_peers s pkt.type
  rcases sendRtpPacketInLoop_cases s c h with ⟨_,rfl,rfl⟩ | ⟨_,data,_,hsent⟩
  · exact ⟨⟨hrtp, hrtcp⟩, by simp⟩
  · rcases hsent with ⟨_,rfl,r,hr,rfl⟩ | ⟨_,r,hr,rfl,rfl⟩
    · refine ⟨⟨hrtp, hrtcp⟩, ?_⟩
      intro fd message addr hmem
      rcases List.mem_cons.mp hmem with hmem | hmem
      · contradiction
      · obtain ⟨n,m,hsend⟩ := sendRtpOverTcp_calls _ c hr _ hmem
        contradiction
    · obtain ⟨hs,m,hm⟩ := sendRtpOverUdp_calls _ c hr
      refine ⟨?_, ?_⟩
      · rcases hs with hs | hs
        · rw [hs]
          exact ⟨hrtp, hrtcp⟩
        · obtain ⟨h1,h2⟩ := teardown_peers ((s.setFrameType pkt.type).afterHeader c pkt)
          rw [hs]
          exact ⟨h1.trans hrtp, h2.trans hrtcp⟩
      · intro fd message addr hmem
        rw [hm] at hmem
        rcases List.mem_cons.mp hmem with hmem | hmem
        · contradiction
        · obtain ⟨_,_,haddr⟩ := Call.sendto.inj (List.mem_singleton.mp hmem)
          exact haddr.trans (congrFun hrtp c)

/-- A setup that binds its ports takes both addresses from the RTCP port; one that does not
leaves them alone. -/
theorem setupRtpOverUdp_peers {tcp : TcpHandle} (d : MediaChannelId) (a b : UInt16)
    (attempt : ℕ → UdpAttempt) (ht : s.tcpConn = some tcp) :
    (s.setupRtpOverUdp c a b attempt).2.1.peerRtpAddr d =
      (if d = c ∧ (boundRound attempt 0 10).isSome then ⟨tcp.peer.sinAddr, htons b⟩
        else s.peerRtpAddr d) ∧
    (s.setupRtpOverUdp c a b attempt).2.1.peerRtcpAddr d =
      (if d = c ∧ (boundRound attempt 0 10).isSome then ⟨tcp.peer.sinAddr, htons b⟩
        else s.peerRtcpAddr d) := by
  rw [setupRtpOverUdp_open s c a b attempt ht]
  have hout := bindLoop_outcome (s.beforeBind c tcp a b) c attempt 10 0
  obtain ⟨p,q,x,y,hframe⟩ := bindLoop_frame (s.beforeBind c tcp a b) c attempt 10 0
  generalize bindLoop c attempt 10 0 (s.beforeBind c tcp a b) = r at hout hframe ⊢
  obtain ⟨ok,t,calls⟩ := r
  dsimp only at hframe ⊢
  cases hk : boundRound attempt 0 10 with
  | none =>
    obtain ⟨hok,_⟩ := hout.unbound hk
    dsimp only at hok
    rw [hok, if_neg (by simp), if_neg (by simp), if_neg (by simp), hframe]
    exact ⟨rfl, rfl⟩
  | some k =>
    obtain ⟨hok,_⟩ := hout.bound k hk
    dsimp only at hok
    have hport : (t.mediaChannelInfo c).rtcpPort = b := by
      rw [hframe, beforeBind]
      dsimp only
      rw [setInfo_mediaChannelInfo, Function.update_self]
    have hpeer : t.peerAddr = tcp.peer := by
      rw [hframe]
      rfl
    rw [hok, if_pos rfl, afterBind, hport, hpeer]
    by_cases hd : d = c
    · subst hd
      rw [if_pos ⟨rfl, rfl⟩, if_pos ⟨rfl, rfl⟩]
      exact ⟨Function.update_self .., Function.update_self ..⟩
    · rw [if_neg (fun h => hd h.1), if_neg (fun h => hd h.1)]
      constructor
      · exact (Function.update_of_ne hd ..).trans (by rw [hframe]; rfl)
      · exact (Function.update_of_ne hd ..).trans (by rw [hframe]; rfl)

/-- Nothing but a setup over UDP of the channel moves its addresses. -/
theorem step_peers {s' : RtpConnection} {op : RtpOp} {calls : List Call} {tcp : TcpHandle}
    (ht : s.tcpConn = some tcp) (hop : ∀ a b attempt, op ≠ .setupRtpOverUdp c a b attempt)
    (h : s.step op = .ok (s', calls)) :
    s'.peerRtpAddr c = s.peerRtpAddr c ∧ s'.peerRtcpAddr c = s.peerRtcpAddr c := by
  cases op with
  | setupRtpOverUdp d a b attempt =>
    have hd : ¬(c = d ∧ (boundRound attempt 0 10).isSome) := by
      rintro ⟨rfl,_⟩
      exact hop a b attempt rfl
    obtain ⟨h1,h2⟩ := setupRtpOverUdp_peers s d c a b attempt ht
    rw [if_neg hd] at h1 h2
    have hs := congrArg Prod.fst (Except.ok.inj h)
    dsimp only at hs
    rw [← hs]
    exact ⟨h1, h2⟩
  | sendRtpPacketInLoop d pkt ret =>
    obtain ⟨⟨h1,h2⟩,_⟩ := sendRtpPacketInLoop_peers s d h
    rw [h1, h2]
    exact ⟨rfl, rfl⟩
  | setupRtpOverTcp d a b =>
    obtain ⟨rfl,_⟩ := Prod.mk.inj (Except.ok.inj h)
    rw [setupRtpOverTcp, ht]
    exact ⟨rfl, rfl⟩
  | teardown =>
    obtain ⟨rfl,_⟩ := Prod.mk.inj (Except.ok.inj h)
    obtain ⟨h1,h2⟩ := teardown_peers s
    rw [h1, h2]
    exact ⟨rfl, rfl⟩
  | _ =>
    obtain ⟨rfl,_⟩ := Prod.mk.inj (Except.ok.inj h)
    exact ⟨rfl, rfl⟩

theorem run_peers {s s' : RtpConnection} {ops : List RtpOp} {calls : List Call} {tcp : TcpHandle}
    (ht : s.tcpConn = some tcp)
    (hops : ∀ a b attempt, .setupRtpOverUdp c a b attempt ∉ ops)
    (h : s.run ops = .ok (s', calls)) :
    s'.peerRtpAddr c = s.peerRtpAddr c ∧ s'.peerRtcpAddr c = s.peerRtcpAddr c := by
  induction ops generalizing s calls with
  | nil =>
    obtain ⟨rfl,_⟩ := Prod.mk.inj (Except.ok.inj h)
    exact ⟨rfl, rfl⟩
  | cons op ops ih =>
    obtain ⟨s1,o1,o2,h1,h2,_⟩ := Runs.run_cons_ok h
    have hop (a b : UInt16) (attempt : ℕ → UdpAttempt) : op ≠ .setupRtpOverUdp c a b attempt := by
      rintro rfl
      exact hops a b attempt List.mem_cons_self
    have hfirst := step_peers s c ht hop h1
    have hrest := ih (step_fds s ht h1).conn
      (fun a b attempt hmem => hops a b attempt (List.mem_cons_of_mem _ hmem)) h2
    exact ⟨hrest.1.trans hfirst.1, hrest.2.trans hfirst.2⟩

end RtpConnection

theorem htons_injective {a b : UInt16} (h : htons a = htons b) : a = b := by
  have hswap (x : UInt16) : ByteOrder.swap 2 (htons x).toNat = x.toNat := by
    have hlt : ByteOrder.swap 2 x.toNat < 2^16 := ByteOrder.swap_lt 2 x.toNat
    rw [htons, UInt16.toNat_ofNat', Nat.mod_eq_of_lt hlt, ByteOrder.swap_swap]
    exact Nat.mod_eq_of_lt x.toNat_lt
  apply UInt16.toNat_inj.mp
  rw [← hswap a, ← hswap b, h]

namespace RtspServer

section Server
variable {srv srv' : RtspServer} {ev : ServerEvent} {out : List ServerObs} {c : ConnId}
  {channelId : MediaChannelId} {x y : SockAddr}

/-- While the connection is open its `RtpConnection` exists and holds the two addresses. -/
structure HoldsPeers (c : ConnId) (channelId : MediaChannelId) (x y : SockAddr)
    (srv : RtspServer) : Prop where
  conns : ConnInvariant srv
  number : c < srv.nextConnId
  holds : ∀ conn, srv.rtspConnMap c = some conn → ∃ s, conn.rtpConn = some s ∧
    s.peerRtpAddr channelId = x ∧ s.peerRtcpAddr channelId = y

theorem HoldsPeers.step (hI : HoldsPeers c channelId x y srv) (hev : ¬ srv.AsksUdp ev c channelId)
    (h : srv.step ev = .ok (srv', out)) : HoldsPeers c channelId x y srv' := by
  obtain ⟨hconn,hnext⟩ := step_conn h c
  refine ⟨hI.conns.step h, Nat.lt_of_lt_of_le hI.number hnext, ?_⟩
  intro conn' hc
  cases hconn with
  | same unchanged unserved => exact hI.holds conn' (unchanged ▸ hc)
  | opened number next conn1 after sessionId rtpConn name input unserved =>
    have hlt := hI.number
    rw [number] at hlt
    exact absurd hlt (Nat.lt_irrefl _)
  | closed event after unserved =>
    rw [after] at hc
    contradiction
  | kept conn conn1 before after ops kept read asked served =>
    obtain rfl := Option.some.inj (after.symm.trans hc)
    obtain ⟨s,hs,hx,hy⟩ := hI.holds conn before
    have hran := kept.ran
    rw [hs] at hran
    cases hr : conn1.rtpConn with
    | none =>
      rw [hr] at hran
      cases hran
    | some s' =>
      rw [hr] at hran
      cases hran with
      | some _ _ calls run =>
        obtain ⟨h1,h2⟩ := RtpConnection.run_peers channelId (hI.conns.handle c conn s before hs)
          (fun a b attempt hmem => hev (asked channelId a b attempt hmem)) run
        exact ⟨s', rfl, h1.trans hx, h2.trans hy⟩
  | described conn conn1 input q srv1 calls before after read dispatch method effect obs =>
    obtain rfl := Option.some.inj (after.symm.trans hc)
    obtain ⟨s,hs,hx,hy⟩ := hI.holds conn before
    obtain ⟨s',hs',mem,rd,ops,calls',hops,hrun⟩ := effect.rtpConn
    dsimp only at hrun
    rw [hs] at hrun
    have hnot (a b : UInt16) (attempt : ℕ → UdpAttempt) :
        .setupRtpOverUdp channelId a b attempt ∉ ops := by
      intro hmem
      rcases hops _ hmem with ⟨_,_,hop⟩ | ⟨_,_,hop⟩
      · contradiction
      · contradiction
    obtain ⟨h1,h2⟩ := RtpConnection.run_peers channelId (hI.conns.handle c conn s before hs) hnot hrun
    exact ⟨s', hs', h1.trans hx, h2.trans hy⟩

/-- What the handler does with a SETUP over UDP: it answers 500 where there is no session. -/
theorem handleCommand_setupUdp {conn : RtspConnection} {s : RtpConnection} {q : RtspRequest}
    {env : HandlerEnv} {a b : UInt16} (hs : conn.rtpConn = some s)
    (hq : ToldUdp q channelId a b) : ∃ s' calls,
    srv.handleCommand c conn q env = .ok (srv, { conn with rtpConn := some s' }, calls) ∧
      s' = if (srv.lookMediaSessionId conn.sessionId).isSome then
        (s.setupRtpOverUdp channelId a b env.attempt).2.1 else s := by
  rw [handleCommand, hq.method]
  dsimp only
  unfold RtspConnection.handleCmdSetup
  cases srv.lookMediaSessionId conn.sessionId with
  | none =>
    have hsame : ({ conn with rtpConn := some s } : RtspConnection) = conn := by rw [← hs]
    refine ⟨s, [conn.sendMessage (q.buildServerErrorRes 1024)], ?_, rfl⟩
    rw [hsame]
    rfl
  | some session =>
    refine ⟨(s.setupRtpOverUdp channelId a b env.attempt).2.1, ?calls, ?answer, rfl⟩
    case answer =>
      dsimp only
      rw [hq.transport, hs]
      dsimp only
      rw [hq.channelId, hq.rtpPort, hq.rtcpPort]
      rfl

/-- A SETUP over UDP in a read of its own that finds a session. -/
theorem step_setupUdp {conn : RtspConnection} {s : RtpConnection} {session : MediaSession}
    {r : Request} {env : HandlerEnv} {a b : UInt16} (hc : srv.rtspConnMap c = some conn)
    (hidle : conn.input.Idle) (hcleared : conn.input.request.Cleared) (hr : r.SetupUdp a b)
    (hs : conn.rtpConn = some s) (hlook : srv.lookMediaSessionId conn.sessionId = some session) :
    ∃ input t out, (input.Idle ∧ input.request.Cleared) ∧
      t = (s.setupRtpOverUdp r.channel a b env.attempt).2.1 ∧
      srv.step (.message c r.encode env) =
        .ok (srv.setConn c { conn with input := input, rtpConn := some t }, out) := by
  obtain ⟨input,hidle',hcleared',_,hstep⟩ := @step_own srv c conn env r hc hr.wellFormed hidle
  have htold := parsed_setupUdp hr hidle.1 hcleared
  have hs' : ({ conn with input := input } : RtspConnection).rtpConn = some s := hs
  obtain ⟨t,calls,hhandle,ht⟩ := @handleCommand_setupUdp srv c r.channel _ s _ env a b hs' htold
  dsimp only at ht
  rw [hlook, if_pos (Option.isSome_some ..)] at ht
  rw [hhandle] at hstep
  exact ⟨input, t, _, ⟨hidle', hcleared'⟩, ht, hstep⟩

end Server

def setupRequest (a b : UInt16) : Request :=
  ⟨.SETUP, ascii "h", 554, ascii "s/track0", 3, [cseqHeader 3, transportHeader a b]⟩

theorem setupRequest_udp {a b : UInt16} (h : a = 5000 ∧ (b = 5000 ∨ b = 5001)) :
    (setupRequest a b).SetupUdp a b := by
  obtain ⟨rfl,rfl | rfl⟩ := h
  · refine ⟨by constructor <;> decide +kernel, rfl, ⟨[cseqHeader 3], [], rfl, by decide⟩, by decide⟩
  · refine ⟨by constructor <;> decide +kernel, rfl, ⟨[cseqHeader 3], [], rfl, by decide⟩, by decide⟩

end RtspServer

end IdealServer
