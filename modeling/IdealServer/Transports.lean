import IdealServer.UdpAddressing

/-! How the packets of a channel leave. Interleaved numbers, ports and descriptors are kept for each
channel, the transport mode only once. -/
namespace IdealServer

/-- What a setup that succeeds asks for: the interleaved number of the channel, or the socket that
has been bound for it and the client's two ports. -/
inductive Route
  | tcp (rtpChannel : UInt16)
  | udp (fd : ℤ) (rtpPort rtcpPort : UInt16)
deriving DecidableEq, Repr

def Route.mode : Route → TransportMode
  | .tcp _ => .rtpOverTcp
  | .udp _ _ _ => .rtpOverUdp

theorem Route.mode_eq {r r' : Route} (h : r'.mode = .rtpOverTcp ↔ r.mode = .rtpOverTcp) :
    r'.mode = r.mode := by
  cases r with
  | tcp a => exact h.mpr rfl
  | udp fd a b =>
    cases r' with
    | udp fd' a' b' => rfl
    | tcp a' =>
      have hother := h.mp rfl
      contradiction

/-- The setup that an operation makes. -/
def RtpOp.route : RtpOp → Option (MediaChannelId × Route)
  | .setupRtpOverTcp c a _ => some (c, .tcp a)
  | .setupRtpOverUdp c a b attempt =>
    (boundRound attempt 0 10).map (fun k => (c, .udp (attempt k).rtpfd a b))
  | _ => none

/-- The operation is not a setup that fails. -/
def RtpOp.Succeeds : RtpOp → Prop
  | .setupRtpOverUdp _ _ _ attempt => (boundRound attempt 0 10).isSome
  | _ => True

def routes (ops : List RtpOp) : List (MediaChannelId × Route) := ops.filterMap RtpOp.route

/-- The latest setup of the channel. -/
def latestRoute (c : MediaChannelId) (rs : List (MediaChannelId × Route)) : Option Route :=
  (rs.reverse.find? (fun r => r.1 = c)).map Prod.snd

/-- The calls send one packet as the setup says: to the TCP connection with the interleaved number
in its second byte, or from the socket to the client's RTP port. -/
def Route.Carries (tcp : TcpHandle) (calls : List Call) : Route → Prop
  | .tcp a => (∀ fd m addr, .sendto fd m addr ∉ calls) ∧ ∃ message, .send tcp.name message ∈ calls ∧
      message[0]? = some 36 ∧ (message[1]?).map UInt8.toNat = some a.toNat
  | .udp fd a _ => (∀ name m, .send name m ∉ calls) ∧
      ∃ m, .sendto fd m ⟨tcp.peer.sinAddr, htons a⟩ ∈ calls

/-- The number fits into a byte, or the two ports are the same. -/
def Route.Plain : Route → Prop
  | .tcp a => a.toNat < 256
  | .udp _ a b => a = b

namespace RtpConnection

/-- What decides how the packets leave. -/
structure Outlet where
  tcpConn : Option TcpHandle
  transportMode : TransportMode
  rtpChannel : MediaChannelId → UInt16
  rtpfd : MediaChannelId → ℤ
  peerRtpAddr : MediaChannelId → SockAddr

def outlet (s : RtpConnection) : Outlet :=
  ⟨s.tcpConn, s.transportMode, fun c => (s.mediaChannelInfo c).rtpChannel, s.rtpfd, s.peerRtpAddr⟩

section Outlet
variable (s : RtpConnection) (c : MediaChannelId)

@[simp] theorem setInfo_outlet (f : MediaChannelInfo → MediaChannelInfo)
    (hf : ∀ i, (f i).rtpChannel = i.rtpChannel) : (s.setInfo c f).outlet = s.outlet := by
  have hchannel : (fun d => ((s.setInfo c f).mediaChannelInfo d).rtpChannel) =
      fun d => (s.mediaChannelInfo d).rtpChannel := by
    ext d
    by_cases hd : d = c
    · subst hd
      rw [setInfo_mediaChannelInfo, Function.update_self, hf]
    · rw [setInfo_mediaChannelInfo, Function.update_of_ne hd]
  rw [outlet, hchannel]
  rfl

theorem setFrameType_outlet (t : UInt8) : (s.setFrameType t).outlet = s.outlet := by
  unfold setFrameType
  dsimp only
  split <;> rfl

theorem teardown_outlet : s.teardown.outlet = s.outlet := by
  unfold teardown
  split <;> rfl

theorem play_outlet : s.play.outlet = s.outlet := by
  have hchannel : (fun d => (s.play.mediaChannelInfo d).rtpChannel) =
      fun d => (s.mediaChannelInfo d).rtpChannel := by
    ext d
    rw [play]
    dsimp only
    split <;> rfl
  rw [outlet, hchannel]
  rfl

theorem record_outlet : s.record.outlet = s.outlet := by
  have hchannel : (fun d => (s.record.mediaChannelInfo d).rtpChannel) =
      fun d => (s.mediaChannelInfo d).rtpChannel := by
    ext d
    rw [record]
    dsimp only
    split <;> rfl
  rw [outlet, hchannel]
  rfl

theorem afterHeader_outlet (pkt : RtpPacket) : (s.afterHeader c pkt).outlet = s.outlet :=
  setInfo_outlet s c _ (fun _ => rfl)

theorem sendRtpPacketInLoop_outlet {s' : RtpConnection} {pkt : RtpPacket} {ret : ℤ}
    {calls : List Call} (h : s.sendRtpPacketInLoop c pkt ret = .ok (s', calls)) :
    s'.outlet = s.outlet := by
  have hheader := (afterHeader_outlet (s.setFrameType pkt.type) c pkt).trans
    (setFrameType_outlet s pkt.type)
  rcases sendRtpPacketInLoop_cases s c h with ⟨_,rfl,_⟩ | ⟨_,_,_,⟨_,rfl,_⟩ | ⟨_,r,hr,rfl,_⟩⟩
  · exact setFrameType_outlet s pkt.type
  · exact hheader
  · rcases (sendRtpOverUdp_calls _ c hr).1 with hr | hr
    · rw [hr, hheader]
    · rw [hr, teardown_outlet, hheader]

theorem afterBind_outlet : (s.afterBind c).outlet = { s.outlet with
    transportMode := .rtpOverUdp
    peerRtpAddr := Function.update s.peerRtpAddr c
      ⟨s.peerAddr.sinAddr, htons (s.mediaChannelInfo c).rtcpPort⟩ } :=
  setInfo_outlet _ c (fun i => { i with isSetup := true }) (fun _ => rfl)

/-- A setup over UDP that binds its ports writes the cells of its channel, and the transport mode. -/
theorem setupRtpOverUdp_outlet {tcp : TcpHandle} {attempt : ℕ → UdpAttempt} {k : ℕ} (a b : UInt16)
    (ht : s.tcpConn = some tcp) (hk : boundRound attempt 0 10 = some k) :
    (s.setupRtpOverUdp c a b attempt).2.1.outlet = { s.outlet with
      transportMode := .rtpOverUdp
      rtpfd := Function.update s.rtpfd c (attempt k).rtpfd
      peerRtpAddr := Function.update s.peerRtpAddr c ⟨tcp.peer.sinAddr, htons b⟩ } := by
  rw [setupRtpOverUdp_open s c a b attempt ht]
  have hout := bindLoop_outcome (s.beforeBind c tcp a b) c attempt 10 0
  obtain ⟨p,q,x,y,hframe⟩ := bindLoop_frame (s.beforeBind c tcp a b) c attempt 10 0
  obtain ⟨hok,hx,_⟩ := hout.bound k hk
  rw [hframe] at hx
  rw [if_pos hok]
  dsimp only
  rw [afterBind_outlet, hframe]
  have hfd : x = (attempt k).rtpfd := by
    dsimp only at hx
    rwa [Function.update_self] at hx
  have hport : ((s.beforeBind c tcp a b).mediaChannelInfo c).rtcpPort = b := by
    rw [beforeBind, setInfo_mediaChannelInfo, Function.update_self]
  have hbefore : (s.beforeBind c tcp a b).outlet = s.outlet :=
    setInfo_outlet { s with peerAddr := tcp.peer } c _ (fun _ => rfl)
  have hchannel := congrArg Outlet.rtpChannel hbefore
  dsimp only [outlet] at hchannel ⊢
  rw [hport, hfd, hchannel]
  rfl

/-- A packet that is not discarded leaves through one of the two ways, whole. -/
theorem sendRtpPacketInLoop_sent {s' : RtpConnection} {pkt : RtpPacket} {ret : ℤ} {tcp : TcpHandle}
    {calls : List Call} (ht : s.tcpConn = some tcp) (hsize : 16 ≤ pkt.size.toNat)
    (h : s.sendRtpPacketInLoop c pkt ret = .ok (s', calls)) (hne : calls ≠ []) :
    (s.transportMode = .rtpOverTcp ∧ ∃ p message rest, calls = [.overTcp c p, .send tcp.name message] ∧
      message = 36 :: (s.mediaChannelInfo c).rtpChannel.toUInt8 :: rest) ∨
    (s.transportMode ≠ .rtpOverTcp ∧ ∃ p message,
      calls = [.overUdp c p, .sendto (s.rtpfd c) message (s.peerRtpAddr c)]) := by
  have hheader := (afterHeader_outlet (s.setFrameType pkt.type) c pkt).trans
    (setFrameType_outlet s pkt.type)
  rcases sendRtpPacketInLoop_cases s c h with ⟨_,_,rfl⟩ | ⟨_,d,_,⟨hm,rfl,r,hr,rfl⟩ | ⟨hm,r,hr,_,rfl⟩⟩
  · exact absurd rfl hne
  · refine Or.inl ⟨hm, { pkt with data := d }, ?_⟩
    have hconn := congrArg Outlet.tcpConn hheader
    have hchannel := congrFun (congrArg Outlet.rtpChannel hheader) c
    dsimp only [outlet] at hconn hchannel
    rw [sendRtpOverTcp, hconn, ht] at hr
    obtain ⟨e,he,hr⟩ := Runs.bind_ok hr
    obtain ⟨message,hmessage,hr⟩ := Runs.bind_ok hr
    obtain rfl := Except.ok.inj hr
    obtain ⟨x,y,hbytes⟩ : ∃ x y, e.bytes = 36 :: (s.mediaChannelInfo c).rtpChannel.toUInt8 :: x :: y := by
      have hfront := PacketData.write_drop he
      rw [List.drop_zero, hchannel] at hfront
      exact ⟨_, _, hfront⟩
    unfold readBytes at hmessage
    split at hmessage
    case isFalse => contradiction
    case isTrue =>
      obtain ⟨n,hn⟩ := Nat.exists_eq_add_of_le hsize
      obtain rfl := Except.ok.inj hmessage
      refine ⟨_, x :: y.take (13+n), rfl, ?_⟩
      have hlen : 16+n = 13+n+1+1+1 := by omega
      rw [hbytes, List.drop_zero]
      dsimp only
      rw [hn, hlen, List.take_succ_cons, List.take_succ_cons, List.take_succ_cons]
  · refine Or.inr ⟨hm, { pkt with data := d }, ?_⟩
    obtain ⟨_,message,hcalls⟩ := sendRtpOverUdp_calls _ c hr
    have hfd := congrFun (congrArg Outlet.rtpfd hheader) c
    have haddr := congrFun (congrArg Outlet.peerRtpAddr hheader) c
    dsimp only [outlet] at hfd haddr
    rw [hcalls, hfd, haddr]
    exact ⟨message, rfl⟩

end Outlet

/-- After some setups, the cells of each channel are those of its own latest one, and the transport
mode is that of the latest one of all. -/
structure Routed (tcp : TcpHandle) (rs : List (MediaChannelId × Route)) (s : RtpConnection) : Prop where
  conn : s.tcpConn = some tcp
  mode : ∀ c r, rs.getLast? = some (c, r) → s.transportMode = r.mode
  number : ∀ c a, latestRoute c rs = some (.tcp a) → (s.mediaChannelInfo c).rtpChannel = a
  address : ∀ c fd a b, latestRoute c rs = some (.udp fd a b) →
    s.rtpfd c = fd ∧ s.peerRtpAddr c = ⟨tcp.peer.sinAddr, htons b⟩

theorem latestRoute_concat (c d : MediaChannelId) (r : Route) (rs : List (MediaChannelId × Route)) :
    latestRoute c (rs ++ [(d, r)]) = if d = c then some r else latestRoute c rs := by
  unfold latestRoute
  rw [List.reverse_append, List.reverse_singleton, List.singleton_append, List.find?_cons]
  by_cases hd : d = c
  · simp [hd]
  · simp [hd]

theorem Routed.of_outlet {tcp : TcpHandle} {rs : List (MediaChannelId × Route)} {s s' : RtpConnection}
    (h : Routed tcp rs s) (hs : s'.outlet = s.outlet) : Routed tcp rs s' := by
  have hconn := congrArg Outlet.tcpConn hs
  have hmode := congrArg Outlet.transportMode hs
  have hnumber := congrArg Outlet.rtpChannel hs
  have hfd := congrArg Outlet.rtpfd hs
  have haddr := congrArg Outlet.peerRtpAddr hs
  dsimp only [outlet] at hconn hmode hnumber hfd haddr
  refine ⟨hconn.trans h.conn, ?_, ?_, ?_⟩
  · rw [hmode]
    exact h.mode
  · intro c a hlast
    exact (congrFun hnumber c).trans (h.number c a hlast)
  · rw [hfd, haddr]
    exact h.address

theorem Routed.step {tcp : TcpHandle} {rs : List (MediaChannelId × Route)} {s s' : RtpConnection}
    {op : RtpOp} {calls : List Call} (hI : Routed tcp rs s) (hop : op.Succeeds)
    (h : s.step op = .ok (s', calls)) : Routed tcp (rs ++ op.route.toList) s' := by
  have hsame (hroute : op.route = none) (hout : s'.outlet = s.outlet) :
      Routed tcp (rs ++ op.route.toList) s' := by
    rw [hroute, Option.toList_none, List.append_nil]
    exact hI.of_outlet hout
  cases op with
  | setClockRate c r =>
    obtain ⟨rfl,_⟩ := Prod.mk.inj (Except.ok.inj h)
    exact hsame rfl (setInfo_outlet s c _ (fun _ => rfl))
  | setPayloadType c p =>
    obtain ⟨rfl,_⟩ := Prod.mk.inj (Except.ok.inj h)
    exact hsame rfl (setInfo_outlet s c _ (fun _ => rfl))
  | play =>
    obtain ⟨rfl,_⟩ := Prod.mk.inj (Except.ok.inj h)
    exact hsame rfl (play_outlet s)
  | record =>
    obtain ⟨rfl,_⟩ := Prod.mk.inj (Except.ok.inj h)
    exact hsame rfl (record_outlet s)
  | teardown =>
    obtain ⟨rfl,_⟩ := Prod.mk.inj (Except.ok.inj h)
    exact hsame rfl (teardown_outlet s)
  | sendRtpPacketInLoop c pkt ret => exact hsame rfl (sendRtpPacketInLoop_outlet s c h)
  | setupRtpOverTcp c a b =>
    have hs := (Prod.mk.inj (Except.ok.inj h)).1
    rw [setupRtpOverTcp, hI.conn] at hs
    obtain rfl := hs
    refine ⟨hI.conn, ?_, ?_, ?_⟩
    · intro d r hlast
      rw [RtpOp.route, Option.toList_some, List.getLast?_concat] at hlast
      obtain ⟨_,rfl⟩ := Prod.mk.inj (Option.some.inj hlast)
      rfl
    · intro d x hlast
      rw [RtpOp.route, Option.toList_some, latestRoute_concat] at hlast
      dsimp only
      rw [setInfo_mediaChannelInfo]
      split at hlast
      case isTrue hd =>
        obtain rfl := Route.tcp.inj (Option.some.inj hlast)
        rw [hd, Function.update_self]
      case isFalse hd =>
        rw [Function.update_of_ne (fun heq => hd heq.symm)]
        exact hI.number d x hlast
    · intro d fd x y hlast
      rw [RtpOp.route, Option.toList_some, latestRoute_concat] at hlast
      split at hlast
      case isTrue =>
        have hother := Option.some.inj hlast
        contradiction
      case isFalse hd =>
        dsimp only
        rw [Function.update_of_ne (fun heq => hd heq.symm)]
        exact hI.address d fd x y hlast
  | setupRtpOverUdp c a b attempt =>
    obtain ⟨k,hk⟩ := Option.isSome_iff_exists.mp hop
    have hs := (Prod.mk.inj (Except.ok.inj h)).1
    have hout := setupRtpOverUdp_outlet s c a b hI.conn hk
    rw [hs] at hout
    have hconn := congrArg Outlet.tcpConn hout
    have hmode := congrArg Outlet.transportMode hout
    have hnumber := congrArg Outlet.rtpChannel hout
    have hfd := congrArg Outlet.rtpfd hout
    have haddr := congrArg Outlet.peerRtpAddr hout
    dsimp only [outlet] at hconn hmode hnumber hfd haddr
    refine ⟨hconn.trans hI.conn, ?_, ?_, ?_⟩
    · intro d r hlast
      rw [RtpOp.route, hk, Option.map_some, Option.toList_some, List.getLast?_concat] at hlast
      obtain ⟨_,rfl⟩ := Prod.mk.inj (Option.some.inj hlast)
      exact hmode
    · intro d x hlast
      rw [RtpOp.route, hk, Option.map_some, Option.toList_some, latestRoute_concat] at hlast
      split at hlast
      case isTrue =>
        have hother := Option.some.inj hlast
        contradiction
      case isFalse => exact (congrFun hnumber d).trans (hI.number d x hlast)
    · intro d fd x y hlast
      rw [RtpOp.route, hk, Option.map_some, Option.toList_some, latestRoute_concat] at hlast
      rw [hfd, haddr]
      split at hlast
      case isTrue hd =>
        obtain ⟨rfl,rfl,rfl⟩ := Route.udp.inj (Option.some.inj hlast)
        rw [hd, Function.update_self, Function.update_self]
        exact ⟨rfl, rfl⟩
      case isFalse hd =>
        rw [Function.update_of_ne (fun heq => hd heq.symm),
          Function.update_of_ne (fun heq => hd heq.symm)]
        exact hI.address d fd x y hlast

theorem run_routed {tcp : TcpHandle} {rs : List (MediaChannelId × Route)} {s s' : RtpConnection}
    {ops : List RtpOp} {calls : List Call} (hI : Routed tcp rs s) (hops : ∀ op ∈ ops, op.Succeeds)
    (h : s.run ops = .ok (s', calls)) : Routed tcp (rs ++ routes ops) s' := by
  induction ops generalizing rs s calls with
  | nil =>
    obtain ⟨rfl,_⟩ := Prod.mk.inj (Except.ok.inj h)
    rwa [routes, List.filterMap_nil, List.append_nil]
  | cons op ops ih =>
    obtain ⟨s1,o1,o2,h1,h2,_⟩ := Runs.run_cons_ok h
    have hrest := ih (hI.step (hops op List.mem_cons_self) h1)
      (fun o ho => hops o (List.mem_cons_of_mem _ ho)) h2
    have hroutes : routes (op :: ops) = op.route.toList ++ routes ops := by
      unfold routes
      rw [List.filterMap_cons]
      cases op.route <;> rfl
    rwa [hroutes, ← List.append_assoc]

/-- The calls of a packet that has left as the transport mode says. -/
theorem carries_iff {tcp : TcpHandle} {c : MediaChannelId} {r : Route} {s : RtpConnection}
    {calls : List Call} {rs : List (MediaChannelId × Route)} (hI : Routed tcp rs s)
    (hr : latestRoute c rs = some r)
    (hcalls : (s.transportMode = .rtpOverTcp ∧ ∃ p message rest,
        calls = [.overTcp c p, .send tcp.name message] ∧
        message = 36 :: (s.mediaChannelInfo c).rtpChannel.toUInt8 :: rest) ∨
      (s.transportMode ≠ .rtpOverTcp ∧ ∃ p message,
        calls = [.overUdp c p, .sendto (s.rtpfd c) message (s.peerRtpAddr c)])) :
    r.Carries tcp calls ↔ (s.transportMode = .rtpOverTcp ↔ r.mode = .rtpOverTcp) ∧ r.Plain := by
  rcases hcalls with ⟨hmode,p,message,rest,rfl,rfl⟩ | ⟨hmode,p,message,rfl⟩
  · cases r with
    | tcp a =>
      rw [hI.number c a hr]
      have hbyte : a.toUInt8.toNat = a.toNat ↔ a.toNat < 256 := by
        rw [UInt16.toNat_toUInt8]
        omega
      constructor
      · rintro ⟨_,m,hm,_,hnumber⟩
        obtain ⟨_,rfl⟩ : tcp.name = tcp.name ∧ m = 36 :: a.toUInt8 :: rest := by simpa using hm
        exact ⟨⟨fun _ => rfl, fun _ => hmode⟩, hbyte.mp (Option.some.inj hnumber)⟩
      · rintro ⟨_,hplain⟩
        refine ⟨by simp, _, List.mem_cons_of_mem _ List.mem_cons_self, rfl, ?_⟩
        exact congrArg some (hbyte.mpr hplain)
    | udp fd a b =>
      constructor
      · rintro ⟨hnone,_⟩
        exact absurd (List.mem_cons_of_mem _ List.mem_cons_self) (hnone tcp.name _)
      · rintro ⟨⟨hsame,_⟩,_⟩
        have hother := hsame hmode
        contradiction
  · cases r with
    | tcp a =>
      constructor
      · rintro ⟨_,m,hm,_⟩
        simp at hm
      · rintro ⟨⟨_,hsame⟩,_⟩
        exact absurd (hsame rfl) hmode
    | udp fd a b =>
      obtain ⟨hfd,haddr⟩ := hI.address c fd a b hr
      rw [hfd, haddr]
      constructor
      · rintro ⟨_,m,hm⟩
        have hport : htons a = htons b := by
          have heq : Call.sendto fd m ⟨tcp.peer.sinAddr, htons a⟩ =
              .sendto fd message ⟨tcp.peer.sinAddr, htons b⟩ := by simpa using hm
          exact (SockAddr.mk.inj (Call.sendto.inj heq).2.2).2
        refine ⟨⟨fun h => absurd h hmode, fun h => ?_⟩, htons_injective hport⟩
        contradiction
      · rintro ⟨_,hplain⟩
        obtain rfl : a = b := hplain
        exact ⟨by simp, message, by simp⟩

end RtpConnection

/-- In every run in which every setup succeeds, a packet of a channel leaves as the latest setup of
the channel says if and only if the latest setup of all is one for the same transport and the
interleaved number fits into its byte, or the two ports of the client are the same. -/
theorem transport_of_latest_setup (s₀ : RtpConnection) (tcp : TcpHandle) (ht : s₀.tcpConn = some tcp)
    (ops : List RtpOp) (hops : ∀ op ∈ ops, op.Succeeds) (s : RtpConnection) (out : List Call)
    (hrun : s₀.run ops = .ok (s, out)) (c : MediaChannelId) (r : Route)
    (hlatest : latestRoute c (routes ops) = some r) (pkt : RtpPacket) (hsize : 16 ≤ pkt.size.toNat)
    (ret : ℤ) (s' : RtpConnection) (calls : List Call)
    (hsend : s.sendRtpPacketInLoop c pkt ret = .ok (s', calls)) (hsent : calls ≠ []) :
    r.Carries tcp calls ↔
      (∀ d r', (routes ops).getLast? = some (d, r') → r'.mode = r.mode) ∧ r.Plain := by
  have hstart : RtpConnection.Routed tcp [] s₀ :=
    ⟨ht, fun _ _ h => by contradiction, fun _ _ h => by contradiction, fun _ _ _ _ h => by contradiction⟩
  have hI := RtpConnection.run_routed hstart hops hrun
  rw [List.nil_append] at hI
  rw [RtpConnection.carries_iff hI hlatest
    (RtpConnection.sendRtpPacketInLoop_sent s c hI.conn hsize hsend hsent)]
  apply and_congr_left
  intro _
  -- the channel has been set up, so there is a latest setup
  obtain ⟨d,r',hlast⟩ : ∃ d r', (routes ops).getLast? = some (d, r') := by
    cases hl : (routes ops).getLast? with
    | none =>
      rw [List.getLast?_eq_none_iff.mp hl] at hlatest
      contradiction
    | some x => exact ⟨x.1, x.2, rfl⟩
  rw [hI.mode d r' hlast]
  constructor
  · intro hsame e r1 h1
    obtain ⟨_,rfl⟩ := Prod.mk.inj (Option.some.inj (hlast.symm.trans h1))
    exact Route.mode_eq hsame
  · intro hall
    rw [hall d r' hlast]

/-- A packet of an I frame always passes the gate for key frames. -/
theorem RtpConnection.send_playing (s : RtpConnection) (c : MediaChannelId) (pkt : RtpPacket) (ret : ℤ)
    (hplay : (s.mediaChannelInfo c).isPlay = true) (htype : pkt.type = videoFrameI)
    (h4 : 4 ≤ pkt.size.toNat) (hmax : pkt.size.toNat ≤ 1600) :
    ∃ s' calls, s.sendRtpPacketInLoop c pkt ret = .ok (s', calls) ∧ calls ≠ [] := by
  obtain ⟨⟨s',calls⟩,h⟩ := sendRtpPacketInLoop_ok s c pkt ret h4 hmax
  refine ⟨s', calls, h, ?_⟩
  have hgate : (s.setFrameType pkt.type).hasIDRFrame = true := by
    unfold setFrameType
    rw [htype]
    cases s.hasIDRFrame <;> rfl
  rw [ne_eq, sendRtpPacketInLoop_discards s c h, canSend, setFrameType_mediaChannelInfo, hplay, hgate]
  simp

/-- Both channels over UDP, each with one port for everything. -/
theorem transport_of_latest_setup_udp : ∃ s out s' calls,
    (RtpConnection.new .zeroed ⟨ascii "c", 9, ⟨1, 2⟩⟩ (fun _ _ => 0)).run
      [.setupRtpOverUdp .channel_0 5000 5000 (fun _ => ⟨0, 6, true, 7, true⟩),
        .setupRtpOverUdp .channel_1 6000 6000 (fun _ => ⟨0, 8, true, 10, true⟩), .play] =
          .ok (s, out) ∧
    s.sendRtpPacketInLoop .channel_0 ⟨PacketData.zeros, 16, 0, videoFrameI, 1⟩ 12 =
      .ok (s', calls) ∧
    Route.Carries ⟨ascii "c", 9, ⟨1, 2⟩⟩ calls (.udp 6 5000 5000) := by
  obtain ⟨s,out,hrun,hplay⟩ : ∃ s out, (RtpConnection.new .zeroed ⟨ascii "c", 9, ⟨1, 2⟩⟩
      (fun _ _ => 0)).run [.setupRtpOverUdp .channel_0 5000 5000 (fun _ => ⟨0, 6, true, 7, true⟩),
        .setupRtpOverUdp .channel_1 6000 6000 (fun _ => ⟨0, 8, true, 10, true⟩), .play] =
          .ok (s, out) ∧ (s.mediaChannelInfo .channel_0).isPlay = true := ⟨_, _, rfl, rfl⟩
  obtain ⟨s',calls,hsend,hne⟩ := s.send_playing .channel_0
    ⟨PacketData.zeros, 16, 0, videoFrameI, 1⟩ 12 hplay rfl (by decide) (by decide)
  refine ⟨s, out, s', calls, hrun, hsend, ?_⟩
  apply (transport_of_latest_setup _ ⟨ascii "c", 9, ⟨1, 2⟩⟩ rfl _ ?_ s out hrun .channel_0
    (.udp 6 5000 5000) rfl _ (by decide) 12 s' calls hsend hne).mpr
  · refine ⟨?_, rfl⟩
    intro d r' hlast
    obtain ⟨_,rfl⟩ := Prod.mk.inj (Option.some.inj hlast)
    rfl
  · simp [RtpOp.Succeeds]
    decide

/-- The first channel is set up over UDP, then the second one over TCP: packets of the first one now
leave over TCP. -/
theorem transport_of_other_channel : ∃ s out s' calls message,
    (RtpConnection.new .zeroed ⟨ascii "c", 9, ⟨1, 2⟩⟩ (fun _ _ => 0)).run
      [.setupRtpOverUdp .channel_0 5000 5000 (fun _ => ⟨0, 6, true, 7, true⟩),
        .setupRtpOverTcp .channel_1 2 3, .play] = .ok (s, out) ∧
    s.sendRtpPacketInLoop .channel_0 ⟨PacketData.zeros, 16, 0, videoFrameI, 1⟩ 12 =
      .ok (s', calls) ∧
    .send (ascii "c") message ∈ calls ∧
    ¬ Route.Carries ⟨ascii "c", 9, ⟨1, 2⟩⟩ calls (.udp 6 5000 5000) := by
  obtain ⟨s,out,hrun,hplay,hconn,hmode⟩ : ∃ s out, (RtpConnection.new .zeroed ⟨ascii "c", 9, ⟨1, 2⟩⟩
      (fun _ _ => 0)).run [.setupRtpOverUdp .channel_0 5000 5000 (fun _ => ⟨0, 6, true, 7, true⟩),
        .setupRtpOverTcp .channel_1 2 3, .play] = .ok (s, out) ∧
      (s.mediaChannelInfo .channel_0).isPlay = true ∧ s.tcpConn = some ⟨ascii "c", 9, ⟨1, 2⟩⟩ ∧
      s.transportMode = .rtpOverTcp := ⟨_, _, rfl, rfl, rfl, rfl⟩
  obtain ⟨s',calls,hsend,hne⟩ := s.send_playing .channel_0
    ⟨PacketData.zeros, 16, 0, videoFrameI, 1⟩ 12 hplay rfl (by decide) (by decide)
  rcases RtpConnection.sendRtpPacketInLoop_sent s _ hconn (by decide) hsend hne with
    ⟨_,p,message,rest,rfl,_⟩ | ⟨hother,_⟩
  · refine ⟨s, out, s', _, message, hrun, hsend, List.mem_cons_of_mem _ List.mem_cons_self, ?_⟩
    rintro ⟨hnone,_⟩
    exact hnone _ _ (List.mem_cons_of_mem _ List.mem_cons_self)
  · exact absurd hmode hother

end IdealServer
