import IdealServer.H264Source
import IdealServer.SequenceNumbers
import IdealServer.Teardown

/-! The key-frame gate: `setFrameType` opens it at the first packet that has the type of an I frame,
on either channel and whether or not the client is playing. -/
namespace IdealServer

def videoFrameP : UInt8 := 2
def videoFrameB : UInt8 := 3

/-- A client's copy of one of the packets that `handleFrame` makes of a frame. -/
structure FramePacket where
  channelId : MediaChannelId
  frame : AVFrame
  isVideo : frame.type = videoFrameI ∨ frame.type = videoFrameP ∨ frame.type = videoFrameB
  now : UInt32
  alloc : ℕ → PacketData
  packets : List RtpPacket
  ok : Bool
  split : handleFrame now alloc (some collect) channelId frame [] = .ok (packets, ok)
  /-- Its place among the packets of the frame. -/
  index : ℕ
  pkt : RtpPacket
  copy : ∃ p, packets[index]? = some p ∧ pkt = { p with data := pkt.data } ∧ pkt.payload = p.payload

namespace FramePacket

theorem type_eq (p : FramePacket) : p.pkt.type = p.frame.type := by
  obtain ⟨q,hq,hcopy,_⟩ := p.copy
  rw [hcopy]
  exact handleFrame_type p.split q (List.mem_of_getElem? hq)

/-- The first packet of an I frame. -/
def IsKey (p : FramePacket) : Prop := p.frame.type = videoFrameI ∧ p.index = 0

end FramePacket

def RtpOp.isPacket : RtpOp → Bool
  | .sendRtpPacketInLoop .. => true
  | _ => false

/-- What reaches the connection of a client: packets, and what the requests do. -/
inductive GateEvent
  | op (o : RtpOp) (h : o.isPacket = false)
  | packet (p : FramePacket) (ret : ℤ)

namespace RtpConnection

/-- The observations are the packets that are sent. -/
def gateStep (s : RtpConnection) : GateEvent → Except Fault (RtpConnection × List FramePacket)
  | .op o _ => do
    let (s, _) ← s.step o
    return (s, [])
  | .packet p ret => do
    let (s, calls) ← s.sendRtpPacketInLoop p.channelId p.pkt ret
    return (s, if (handed p.channelId calls).isEmpty then [] else [p])

def gateRun : RtpConnection → List GateEvent → Except Fault (RtpConnection × List FramePacket) :=
  Runs.run gateStep

/-- PLAY is handled while the gate is closed, and the packet that opens the gate is the first packet of
its frame and one of channel `c`. -/
def OpensWithKey (c : MediaChannelId) (s : RtpConnection) : GateEvent → Prop
  | .op o _ => o = .play ∨ o = .record → s.hasIDRFrame = false
  | .packet p _ => s.hasIDRFrame = false → p.frame.type = videoFrameI → p.index = 0 ∧ p.channelId = c

/-- What is sent on one channel. -/
def sentOn (c : MediaChannelId) (out : List FramePacket) : List FramePacket :=
  out.filter (fun p => p.channelId = c)

/-- The gate is closed and nothing has been sent, or the first packet is a key packet, or the channel is
off for good. -/
def Keyed (c : MediaChannelId) (s : RtpConnection) (out : List FramePacket) : Prop :=
  (s.hasIDRFrame = false ∧ sentOn c out = []) ∨
  (s.hasIDRFrame = true ∧ ((∃ p rest, sentOn c out = p :: rest ∧ p.IsKey) ∨
    (sentOn c out = [] ∧ s.streams c = false)))

section Gate
variable {s s' : RtpConnection} {c : MediaChannelId} {out acc : List FramePacket}

theorem setFrameType_gate (t : UInt8) : (s.setFrameType t).hasIDRFrame =
    (s.hasIDRFrame || (t = 0 || t = videoFrameI)) := by
  unfold setFrameType
  dsimp only
  cases hgate : s.hasIDRFrame with
  | true => simp
  | false =>
    by_cases ht : t = 0 ∨ t = videoFrameI
    · rw [if_pos ⟨rfl, ht⟩]
      simp [ht]
    · rw [if_neg (fun h => ht h.2)]
      simp [not_or.mp ht]

theorem canSend_eq (t : UInt8) : (s.setFrameType t).canSend c =
    (s.streams c && (s.setFrameType t).hasIDRFrame) := by
  rw [canSend, setFrameType_mediaChannelInfo]
  rfl

theorem afterHeader_gate (t : UInt8) (pkt : RtpPacket) :
    ((s.setFrameType t).afterHeader c pkt).hasIDRFrame = (s.setFrameType t).hasIDRFrame := rfl

theorem teardown_gate : s.teardown.hasIDRFrame = s.hasIDRFrame := by
  unfold teardown
  split <;> rfl

/-- What the task of a packet does to the gate, and when the packet is sent. -/
theorem gateStep_packet {p : FramePacket} {ret : ℤ} (h : s.gateStep (.packet p ret) = .ok (s', out)) :
    s'.hasIDRFrame = (s.hasIDRFrame || decide (p.frame.type = videoFrameI)) ∧
      (∀ chn, s'.streams chn = true → s.streams chn = true) ∧
      out = if s.streams p.channelId && s'.hasIDRFrame then [p] else [] := by
  obtain ⟨⟨s1,calls⟩,hsend,h⟩ := Runs.bind_ok h
  obtain ⟨rfl,rfl⟩ := Prod.mk.inj (Except.ok.inj h)
  have hzero : p.frame.type ≠ 0 := by
    rcases p.isVideo with ht | ht | ht
    · rw [ht]
      decide
    · rw [ht]
      decide
    · rw [ht]
      decide
  have hgate : (s.setFrameType p.pkt.type).hasIDRFrame =
      (s.hasIDRFrame || decide (p.frame.type = videoFrameI)) := by
    rw [setFrameType_gate, p.type_eq, decide_eq_false hzero, Bool.false_or]
  have hfades := (sendRtpPacketInLoop_fades s p.channelId hsend).1.streams
  rcases sendRtpPacketInLoop_cases s p.channelId hsend with ⟨hshut,rfl,rfl⟩ |
    ⟨hopen,data,_,⟨_,rfl,r,hr,rfl⟩ | ⟨_,r,hr,rfl,rfl⟩⟩
  · refine ⟨hgate, hfades, ?_⟩
    rw [canSend_eq] at hshut
    rw [hshut]
    rfl
  · refine ⟨hgate, hfades, ?_⟩
    rw [canSend_eq] at hopen
    rw [afterHeader_gate, hopen, overTcp_handed _ p.channelId p.channelId hr, if_pos rfl]
    rfl
  · have hs : r.2.1.hasIDRFrame = (s.setFrameType p.pkt.type).hasIDRFrame := by
      rcases (sendRtpOverUdp_calls _ p.channelId hr).1 with hsame | hteardown
      · rw [hsame, afterHeader_gate]
      · rw [hteardown, teardown_gate, afterHeader_gate]
    refine ⟨hs.trans hgate, hfades, ?_⟩
    rw [canSend_eq] at hopen
    rw [hs, hopen, overUdp_handed _ p.channelId p.channelId hr, if_pos rfl]
    rfl

theorem setupRtpOverUdp_gate (d : MediaChannelId) (a b : UInt16) (attempt : ℕ → UdpAttempt) :
    (s.setupRtpOverUdp d a b attempt).2.1.hasIDRFrame = s.hasIDRFrame := by
  cases ht : s.tcpConn with
  | none => rw [setupRtpOverUdp_closed s d a b attempt ht]
  | some tcp =>
    rw [setupRtpOverUdp_open s d a b attempt ht]
    obtain ⟨p,q,x,y,hframe⟩ := bindLoop_frame (s.beforeBind d tcp a b) d attempt 10 0
    dsimp only
    split
    · show (bindLoop d attempt 10 0 (s.beforeBind d tcp a b)).2.1.hasIDRFrame = _
      rw [hframe]
      rfl
    · rw [hframe]
      rfl

/-- The other operations leave the gate, and only PLAY and RECORD can switch a channel on. -/
theorem step_gate {o : RtpOp} {calls : List Call} (ho : o.isPacket = false)
    (h : s.step o = .ok (s', calls)) : s'.hasIDRFrame = s.hasIDRFrame ∧
      (o ≠ .play → o ≠ .record → ∀ chn, s'.streams chn = true → s.streams chn = true) := by
  cases o with
  | sendRtpPacketInLoop d pkt ret => cases ho
  | setClockRate d r =>
    obtain ⟨rfl,_⟩ := Prod.mk.inj (Except.ok.inj h)
    have hfades : Fades s (s.setClockRate d r) := Fades.of_same rfl
      (setInfo_streams s d (fun i => { i with clockRate := r }) (fun _ => ⟨rfl, rfl⟩))
    exact ⟨rfl, fun _ _ => hfades.streams⟩
  | setPayloadType d p =>
    obtain ⟨rfl,_⟩ := Prod.mk.inj (Except.ok.inj h)
    have hfades : Fades s (s.setPayloadType d p) := Fades.of_same rfl (setInfo_streams s d (fun i =>
      { i with rtpHeader := { i.rtpHeader with payload := BitVec.ofNat 7 p.toNat } })
      (fun _ => ⟨rfl, rfl⟩))
    exact ⟨rfl, fun _ _ => hfades.streams⟩
  | setupRtpOverTcp d a b =>
    obtain ⟨rfl,_⟩ := Prod.mk.inj (Except.ok.inj h)
    refine ⟨?_, fun _ _ => (setupRtpOverTcp_fades s d a b).streams⟩
    unfold setupRtpOverTcp
    split <;> rfl
  | setupRtpOverUdp d a b attempt =>
    have hfades := (setupRtpOverUdp_fades s d a b attempt).1
    have hgate := @setupRtpOverUdp_gate s d a b attempt
    rw [Except.ok.inj h] at hfades hgate
    exact ⟨hgate, fun _ _ => hfades.streams⟩
  | play =>
    obtain ⟨rfl,_⟩ := Prod.mk.inj (Except.ok.inj h)
    exact ⟨rfl, fun hne => absurd rfl hne⟩
  | record =>
    obtain ⟨rfl,_⟩ := Prod.mk.inj (Except.ok.inj h)
    exact ⟨rfl, fun _ hne => absurd rfl hne⟩
  | teardown =>
    obtain ⟨rfl,_⟩ := Prod.mk.inj (Except.ok.inj h)
    exact ⟨teardown_gate, fun _ _ => (teardown_fades s).streams⟩

theorem sentOn_append (a b : List FramePacket) : sentOn c (a ++ b) = sentOn c a ++ sentOn c b :=
  List.filter_append ..

theorem sentOn_single_of_ne {p : FramePacket} (h : p.channelId ≠ c) : sentOn c [p] = [] := by
  rw [sentOn, List.filter_cons_of_neg (by simp [h]), List.filter_nil]

theorem sentOn_single {p : FramePacket} (h : p.channelId = c) : sentOn c [p] = [p] := by
  rw [sentOn, List.filter_cons_of_pos (by simp [h]), List.filter_nil]

theorem Keyed.packet (hK : Keyed c s acc) {p : FramePacket} {ret : ℤ}
    (hkey : OpensWithKey c s (.packet p ret)) (h : s.gateStep (.packet p ret) = .ok (s', out)) :
    Keyed c s' (acc ++ out) := by
  obtain ⟨hgate,hfades,rfl⟩ := gateStep_packet h
  rcases hK with ⟨hclosed,hnil⟩ | ⟨hopen,hfirst⟩
  · rw [hclosed, Bool.false_or] at hgate
    by_cases htype : p.frame.type = videoFrameI
    · -- the packet that opens the gate
      rw [decide_eq_true htype] at hgate
      obtain ⟨hindex,hchannel⟩ := hkey hclosed htype
      refine Or.inr ⟨hgate, ?_⟩
      rw [hgate, Bool.and_true, hchannel]
      cases hon : s.streams c with
      | true =>
        left
        refine ⟨p, [], ?_, htype, hindex⟩
        rw [if_pos rfl, sentOn_append, hnil, sentOn_single hchannel]
        rfl
      | false =>
        right
        rw [if_neg Bool.false_ne_true, List.append_nil]
        refine ⟨hnil, ?_⟩
        by_contra hon'
        rw [hfades c (Bool.not_eq_false _ ▸ hon')] at hon
        cases hon
    · rw [decide_eq_false htype] at hgate
      refine Or.inl ⟨hgate, ?_⟩
      rw [hgate, Bool.and_false, if_neg Bool.false_ne_true, List.append_nil]
      exact hnil
  · rw [hopen, Bool.true_or] at hgate
    refine Or.inr ⟨hgate, ?_⟩
    rw [hgate, Bool.and_true]
    rcases hfirst with ⟨q,rest,hq,hfirst⟩ | ⟨hnil,hoff⟩
    · left
      refine ⟨q, rest ++ sentOn c (if s.streams p.channelId then [p] else []), ?_, hfirst⟩
      rw [sentOn_append, hq]
      rfl
    · right
      constructor
      · rw [sentOn_append, hnil, List.nil_append]
        by_cases hchannel : p.channelId = c
        · rw [hchannel, hoff]
          rfl
        · split
          · exact sentOn_single_of_ne hchannel
          · rfl
      · by_contra hon
        rw [hfades c (Bool.not_eq_false _ ▸ hon)] at hoff
        cases hoff

theorem Keyed.op (hK : Keyed c s acc) {o : RtpOp} {ho : o.isPacket = false}
    (hkey : OpensWithKey c s (.op o ho)) (h : s.gateStep (.op o ho) = .ok (s', out)) :
    Keyed c s' (acc ++ out) := by
  obtain ⟨⟨s1,calls⟩,hstep,h⟩ := Runs.bind_ok h
  obtain ⟨rfl,rfl⟩ := Prod.mk.inj (Except.ok.inj h)
  obtain ⟨hgate,hfades⟩ := step_gate ho hstep
  rw [List.append_nil]
  rcases hK with ⟨hclosed,hnil⟩ | ⟨hopen,hfirst⟩
  · exact Or.inl ⟨hgate.trans hclosed, hnil⟩
  · have hother : o ≠ .play ∧ o ≠ .record := by
      rw [← not_or]
      intro hplay
      rw [hkey hplay] at hopen
      cases hopen
    refine Or.inr ⟨hgate.trans hopen, hfirst.imp_right (fun ⟨hnil,hoff⟩ => ⟨hnil, ?_⟩)⟩
    by_contra hon
    rw [hfades hother.1 hother.2 c (Bool.not_eq_false _ ▸ hon)] at hoff
    cases hoff

theorem Keyed.step (hK : Keyed c s acc) {ev : GateEvent} (hkey : OpensWithKey c s ev)
    (h : s.gateStep ev = .ok (s', out)) : Keyed c s' (acc ++ out) := by
  cases ev with
  | op o ho => exact hK.op hkey h
  | packet p ret => exact hK.packet hkey h

end Gate

end RtpConnection
open RtpConnection

/-- From a PLAY on, the first packet that is sent on a channel is the first packet of an I frame, if the
gate is closed when PLAY is handled and the packet that opens it is the first packet of an I frame of that
channel. -/
theorem first_packet_is_key (s s' : RtpConnection) (c : MediaChannelId) (evs : List GateEvent)
    (out : List FramePacket)
    (hkey : Runs.Along RtpConnection.gateStep (OpensWithKey c) s (.op .play rfl :: evs))
    (hrun : s.gateRun (.op .play rfl :: evs) = .ok (s', out)) :
    ∀ p rest, sentOn c out = p :: rest → p.frame.type = videoFrameI ∧ p.index = 0 := by
  have hclosed : s.hasIDRFrame = false := hkey.1 (Or.inl rfl)
  have hK : Keyed c s' ([] ++ out) := Runs.run_invariant_along (Keyed c)
    (fun s acc ev s' out hK hP hok => hK.step hP hok) (Or.inl ⟨hclosed, rfl⟩) hkey hrun
  intro p rest hsent
  rw [List.nil_append] at hK
  rcases hK with ⟨_,hnil⟩ | ⟨_,⟨q,rest',hq,hfirst⟩ | ⟨hnil,_⟩⟩
  · rw [hsent] at hnil
    cases hnil
  · rw [hsent] at hq
    obtain ⟨rfl,_⟩ := List.cons.inj hq
    exact hfirst
  · rw [hsent] at hnil
    cases hnil

/-- A frame of one byte is one packet. -/
theorem exists_framePacket (t : UInt8) (ht : t = videoFrameI ∨ t = videoFrameP ∨ t = videoFrameB) :
    ∃ p : FramePacket, p.channelId = .channel_0 ∧ p.frame.type = t ∧ p.index = 0 ∧
      4 ≤ p.pkt.size.toNat ∧ p.pkt.size.toNat ≤ 1600 := by
  obtain ⟨pkts,hsplit,hcase⟩ := handle_frame_packets 7 (fun _ => PacketData.zeros) .channel_0
    ⟨[0x65], 1, t, 90, rfl⟩ (by simp) (show (1:UInt32).toNat < 2^31 by decide)
  rcases hcase with ⟨_,p,rfl,hp⟩ | ⟨hlarge,_⟩
  · refine ⟨⟨.channel_0, ⟨[0x65], 1, t, 90, rfl⟩, ht, 7, fun _ => PacketData.zeros, [p], true, hsplit, 0,
      p, p, rfl, rfl, rfl⟩, rfl, rfl, rfl, ?_, ?_⟩
    · rw [hp.size_eq]
      exact Nat.le_add_left 4 13
    · rw [hp.size_eq]
      exact Nat.le_add_right 17 1583
  · exact absurd hlarge (show ¬ maxRtpPayloadSize < 1 by decide)

/-- A packet of a channel that is off only moves the gate. -/
theorem gateStep_off {s : RtpConnection} {p : FramePacket} (hoff : s.streams p.channelId = false) :
    s.gateStep (.packet p 0) = .ok (s.setFrameType p.frame.type, []) := by
  have hshut : (s.setFrameType p.frame.type).canSend p.channelId = false := by
    rw [canSend_eq, hoff]
    rfl
  simp only [gateStep, sendRtpPacketInLoop, p.type_eq, setRtpHeader_discarded _ _ _ hshut, bind, Except.bind,
    hshut, Bool.false_eq_true, ↓reduceIte, pure, Except.pure, handed, List.filterMap_nil,
    List.isEmpty_nil]

theorem gateStep_packet_ok {s : RtpConnection} {p : FramePacket} (h4 : 4 ≤ p.pkt.size.toNat)
    (hmax : p.pkt.size.toNat ≤ 1600) : ∃ s', s.gateStep (.packet p 0) = .ok (s', if
      s.streams p.channelId && (s.hasIDRFrame || decide (p.frame.type = videoFrameI)) then [p] else []) ∧
      s'.hasIDRFrame = (s.hasIDRFrame || decide (p.frame.type = videoFrameI)) := by
  obtain ⟨⟨s1,calls⟩,hsend⟩ := sendRtpPacketInLoop_ok s p.channelId p.pkt 0 h4 hmax
  have hstep : s.gateStep (.packet p 0) =
      .ok (s1, if (handed p.channelId calls).isEmpty then [] else [p]) := by
    simp only [gateStep, hsend, bind, Except.bind, pure, Except.pure]
  obtain ⟨hgate,_,hout⟩ := gateStep_packet hstep
  rw [hout, hgate] at hstep
  exact ⟨s1, hstep, hgate⟩

/-- The client is set up and plays, then an I frame comes. -/
theorem first_packet_is_key_ok : ∃ p : FramePacket, ∃ s',
    (RtpConnection.new .zeroed ⟨[], 9, ⟨0, 0⟩⟩ (fun _ _ => 0)).setupRtpOverTcp .channel_0 0 1 = (true, s') ∧
    ∃ s2, s'.gateRun [.op .play rfl, .packet p 0] = .ok (s2, [p]) ∧ p.frame.type = videoFrameI ∧
      p.index = 0 := by
  obtain ⟨p,hchannel,htype,hindex,h4,hmax⟩ := exists_framePacket videoFrameI (Or.inl rfl)
  obtain ⟨s',hs'⟩ : ∃ s', s' = ((RtpConnection.new .zeroed ⟨[], 9, ⟨0, 0⟩⟩ (fun _ _ => 0)).setupRtpOverTcp
    .channel_0 0 1).2 := ⟨_, rfl⟩
  have hon : s'.play.streams p.channelId = true := by
    rw [hchannel, hs']
    rfl
  obtain ⟨s2,hstep,_⟩ := @gateStep_packet_ok s'.play p h4 hmax
  rw [hon, htype, decide_eq_true rfl, Bool.or_true, Bool.and_true, if_pos rfl] at hstep
  have hrun : s'.gateRun [.op .play rfl, .packet p 0] = .ok (s2, [] ++ ([p] ++ [])) :=
    Runs.run_cons_of_ok rfl (Runs.run_single hstep)
  refine ⟨p, s', by rw [hs']; rfl, s2, hrun, ?_⟩
  apply first_packet_is_key s' s2 .channel_0 [.packet p 0] [p] _ hrun p []
  · rw [sentOn_single hchannel]
  · apply @Runs.along_cons _ _ _ _ _ _ _ s'.play _ _ [] _ rfl
    · exact Runs.along_cons (fun _ _ => ⟨hindex, hchannel⟩) hstep trivial
    · intro _
      rw [hs']
      rfl

/-- An I frame opens the gate of a client that has not been set up; the first packet after its PLAY is
one of a P frame. -/
theorem first_packet_not_key : ∃ i p : FramePacket, i.frame.type = videoFrameI ∧
    p.frame.type = videoFrameP ∧ ∃ s',
      (RtpConnection.new .zeroed ⟨[], 9, ⟨0, 0⟩⟩ (fun _ _ => 0)).gateRun
        [.packet i 0, .op (.setupRtpOverTcp .channel_0 0 1) rfl, .op .play rfl, .packet p 0] =
      .ok (s', [p]) := by
  obtain ⟨i,hi,hitype,_,_,_⟩ := exists_framePacket videoFrameI (Or.inl rfl)
  obtain ⟨p,hp,hptype,_,hp4,hpmax⟩ := exists_framePacket videoFrameP (Or.inr (Or.inl rfl))
  obtain ⟨s,hs⟩ : ∃ s, s = ((RtpConnection.new .zeroed ⟨[], 9, ⟨0, 0⟩⟩ (fun _ _ => 0)).setFrameType
    videoFrameI) := ⟨_, rfl⟩
  have hfirst : (RtpConnection.new .zeroed ⟨[], 9, ⟨0, 0⟩⟩ (fun _ _ => 0)).gateStep (.packet i 0) =
      .ok (s, []) := by
    rw [gateStep_off (by rw [hi]; rfl), hitype, hs]
  obtain ⟨s',hlast,_⟩ := @gateStep_packet_ok (s.setupRtpOverTcp .channel_0 0 1).2.play p hp4 hpmax
  have hon : (s.setupRtpOverTcp .channel_0 0 1).2.play.streams p.channelId = true := by
    rw [hp, hs]
    rfl
  have hgate : (s.setupRtpOverTcp .channel_0 0 1).2.play.hasIDRFrame = true := by
    rw [hs]
    rfl
  rw [hon, hgate, Bool.true_or, Bool.and_true, if_pos rfl] at hlast
  have hrun : (RtpConnection.new .zeroed ⟨[], 9, ⟨0, 0⟩⟩ (fun _ _ => 0)).gateRun
      [.packet i 0, .op (.setupRtpOverTcp .channel_0 0 1) rfl, .op .play rfl, .packet p 0] =
      .ok (s', [] ++ ([] ++ ([] ++ ([p] ++ [])))) :=
    Runs.run_cons_of_ok hfirst (Runs.run_cons_of_ok rfl (Runs.run_cons_of_ok rfl (Runs.run_single hlast)))
  exact ⟨i, p, hitype, hptype, s', hrun⟩

end IdealServer
