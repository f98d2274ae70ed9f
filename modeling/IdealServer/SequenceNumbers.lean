import IdealServer.RtpConnection

/-! The sequence numbers of the packets that one channel hands to its transport: they count up
from the number the channel started with, whatever else happens on the connection. -/
namespace IdealServer

/-- The packet of a call to `sendRtpOverTcp` or `sendRtpOverUdp` on channel `c`. -/
def Call.handed (c : MediaChannelId) : Call → Option RtpPacket
  | .overTcp d pkt => if d = c then some pkt else none
  | .overUdp d pkt => if d = c then some pkt else none
  | _ => none

/-- The packets handed to the transport of channel `c`, in order. -/
def handed (c : MediaChannelId) (calls : List Call) : List RtpPacket :=
  calls.filterMap (Call.handed c)

/-- The sequence number that stands in a packet: bytes 2 and 3 of the RTP header. -/
def RtpPacket.seq (p : RtpPacket) : UInt16 :=
  UInt16.ofNat (ByteOrder.ofBE ((p.data.bytes.drop (rtpTcpHeadSize+2)).take 2))

@[simp] theorem handed_append (c : MediaChannelId) (a b : List Call) :
    handed c (a ++ b) = handed c a ++ handed c b := List.filterMap_append

theorem handed_eq_nil {c : MediaChannelId} {calls : List Call}
    (h : ∀ x ∈ calls, Call.handed c x = none) : handed c calls = [] :=
  List.filterMap_eq_nil_iff.mpr h

/-- A swapped 16-bit field reads back as its value in wire order. -/
theorem ofBE_htons (x : UInt16) : ByteOrder.ofBE (ByteOrder.toLE 2 (htons x).toNat) = x.toNat := by
  have hlt : ByteOrder.swap 2 x.toNat < 2^16 := ByteOrder.swap_lt 2 x.toNat
  have hx : x.toNat < 256^2 := x.toNat_lt
  rw [htons, UInt16.toNat_ofNat', Nat.mod_eq_of_lt hlt, ByteOrder.toLE_swap, ByteOrder.ofBE_toBE,
    Nat.mod_eq_of_lt hx]

theorem header_seq_bytes (h : RtpHeader) (tail : Bytes) :
    ((h.bytes ++ tail).drop 2).take 2 = ByteOrder.toLE 2 h.seq.toNat := by
  have hl : (ByteOrder.toLE 2 h.seq.toNat).length = 2 := ByteOrder.length_toLE 2 _
  simp only [RtpHeader.bytes, List.cons_append, List.drop_succ_cons, List.drop_zero,
    List.append_assoc]
  rw [List.take_append_of_le_length hl.ge, List.take_of_length_le hl.le]

/-- A packet that carries a header carries the header's sequence number. -/
theorem seq_of_header {d e : PacketData} {h : RtpHeader} {n : UInt16} {pkt : RtpPacket}
    (hw : d.write rtpTcpHeadSize h.bytes = .ok e) (hs : h.seq = htons n) (hp : pkt.data = e) :
    pkt.seq = n := by
  have hd := PacketData.write_drop hw
  rw [RtpPacket.seq, hp, ← List.drop_drop, hd, header_seq_bytes, hs, ofBE_htons]
  exact UInt16.ofNat_toNat

namespace RtpConnection
variable (s : RtpConnection) (c d : MediaChannelId)

/-- The counter from which channel `c` takes its next number. -/
def packetSeq : UInt16 := (s.mediaChannelInfo c).packetSeq

theorem setInfo_packetSeq (f : MediaChannelInfo → MediaChannelInfo)
    (hf : ∀ i, (f i).packetSeq = i.packetSeq) : (s.setInfo d f).packetSeq c = s.packetSeq c := by
  by_cases hd : c = d
  · subst hd
    simp only [packetSeq, setInfo_mediaChannelInfo, Function.update_self, hf]
  · simp only [packetSeq, setInfo_mediaChannelInfo, Function.update_of_ne hd]

theorem afterHeader_packetSeq (pkt : RtpPacket) :
    (s.afterHeader d pkt).packetSeq c = if d = c then s.packetSeq c+1 else s.packetSeq c := by
  split
  case isTrue hd =>
    subst hd
    simp only [packetSeq, afterHeader, setInfo_mediaChannelInfo, Function.update_self]
  case isFalse hd =>
    have hcd : c ≠ d := fun h => hd h.symm
    simp only [packetSeq, afterHeader, setInfo_mediaChannelInfo, Function.update_of_ne hcd]

theorem setFrameType_packetSeq (t : UInt8) : (s.setFrameType t).packetSeq c = s.packetSeq c := by
  rw [packetSeq, setFrameType_mediaChannelInfo, packetSeq]

theorem teardown_packetSeq : s.teardown.packetSeq c = s.packetSeq c := by
  unfold teardown packetSeq
  split <;> rfl

theorem play_packetSeq : s.play.packetSeq c = s.packetSeq c := by
  simp only [play, packetSeq]
  split <;> rfl

theorem record_packetSeq : s.record.packetSeq c = s.packetSeq c := by
  simp only [record, packetSeq]
  split <;> rfl

theorem setupRtpOverTcp_packetSeq (a b : UInt16) :
    (s.setupRtpOverTcp d a b).2.packetSeq c = s.packetSeq c := by
  unfold setupRtpOverTcp
  split
  · rfl
  · exact setInfo_packetSeq s c d (fun i =>
      { i with rtpChannel := a, rtcpChannel := b, isSetup := true }) (fun _ => rfl)

/-- `bindLoop` calls nothing but `socket` and `close`. -/
theorem bindLoop_handed (attempt : ℕ → UdpAttempt) (left n : ℕ) :
    handed c (bindLoop d attempt left n s).2.2 = [] := by
  induction left generalizing n s with
  | zero => rfl
  | succ left ih =>
    unfold bindLoop
    dsimp only
    split
    · split
      · rfl
      · rw [handed_append, ih]
        rfl
    · rw [handed_append, ih]
      rfl

theorem setupRtpOverUdp_packetSeq (a b : UInt16) (attempt : ℕ → UdpAttempt) :
    (s.setupRtpOverUdp d a b attempt).2.1.packetSeq c = s.packetSeq c ∧
      handed c (s.setupRtpOverUdp d a b attempt).2.2 = [] := by
  cases ht : s.tcpConn with
  | none =>
    rw [setupRtpOverUdp_closed s d a b attempt ht]
    exact ⟨rfl, rfl⟩
  | some tcp =>
    rw [setupRtpOverUdp_open s d a b attempt ht]
    have hbefore : (s.beforeBind d tcp a b).packetSeq c = s.packetSeq c :=
      setInfo_packetSeq { s with peerAddr := tcp.peer } c d
        (fun i => { i with rtpPort := a, rtcpPort := b }) (fun _ => rfl)
    have hloop : (bindLoop d attempt 10 0 (s.beforeBind d tcp a b)).2.1.packetSeq c =
        s.packetSeq c := by
      obtain ⟨p,q,x,y,h⟩ := bindLoop_frame (s.beforeBind d tcp a b) d attempt 10 0
      rw [h, ← hbefore]
      rfl
    refine ⟨?_, bindLoop_handed _ c d attempt 10 0⟩
    dsimp only
    split
    · rw [← hloop]
      exact setInfo_packetSeq _ c d (fun i => { i with isSetup := true }) (fun _ => rfl)
    · exact hloop

theorem overTcp_handed {pkt q : RtpPacket} {r : ℤ × List Call}
    (h : s.sendRtpOverTcp d q = .ok r) :
    handed c (.overTcp d pkt :: r.2) = if d = c then [pkt] else [] := by
  have hr : handed c r.2 = [] := by
    apply handed_eq_nil
    intro x hx
    obtain ⟨n,m,rfl⟩ := sendRtpOverTcp_calls s d h x hx
    rfl
  rw [handed] at hr ⊢
  rw [List.filterMap_cons, hr, Call.handed]
  by_cases hd : d = c
  · simp only [if_pos hd]
  · simp only [if_neg hd]

theorem overUdp_handed {pkt q : RtpPacket} {ret : ℤ} {r : ℤ × RtpConnection × List Call}
    (h : s.sendRtpOverUdp d q ret = .ok r) :
    handed c (.overUdp d pkt :: r.2.2) = if d = c then [pkt] else [] := by
  obtain ⟨m,hm⟩ := (sendRtpOverUdp_calls s d h).2
  rw [hm, handed, List.filterMap_cons, Call.handed]
  by_cases hd : d = c
  · simp only [if_pos hd]
    rfl
  · simp only [if_neg hd]
    rfl

/-- One task hands over nothing and leaves the counter alone, or hands over one packet with the
number the counter shows and moves the counter on. -/
theorem sendRtpPacketInLoop_packetSeq {s' : RtpConnection} {pkt : RtpPacket} {ret : ℤ}
    {calls : List Call} (h : s.sendRtpPacketInLoop d pkt ret = .ok (s', calls)) :
    (handed c calls = [] ∧ s'.packetSeq c = s.packetSeq c) ∨
    (∃ p, handed c calls = [p] ∧ p.seq = s.packetSeq c ∧ s'.packetSeq c = s.packetSeq c+1) := by
  have hafter := afterHeader_packetSeq (s.setFrameType pkt.type) c d pkt
  rw [setFrameType_packetSeq] at hafter
  have split (p : RtpPacket) (hp : d = c → p.seq = s.packetSeq c)
      (hs : s'.packetSeq c = ((s.setFrameType pkt.type).afterHeader d pkt).packetSeq c)
      (hc : handed c calls = if d = c then [p] else []) :
      (handed c calls = [] ∧ s'.packetSeq c = s.packetSeq c) ∨
      (∃ p, handed c calls = [p] ∧ p.seq = s.packetSeq c ∧
        s'.packetSeq c = s.packetSeq c+1) := by
    by_cases hd : d = c
    · rw [if_pos hd] at hc hafter
      exact Or.inr ⟨p, hc, hp hd, hs.trans hafter⟩
    · rw [if_neg hd] at hc hafter
      exact Or.inl ⟨hc, hs.trans hafter⟩
  rcases sendRtpPacketInLoop_cases s d h with ⟨_,rfl,rfl⟩ | ⟨_,data,hw,hsent⟩
  · exact Or.inl ⟨rfl, setFrameType_packetSeq s c pkt.type⟩
  · have hseq (hd : d = c) : RtpPacket.seq { pkt with data := data } = s.packetSeq c := by
      subst hd
      rw [← setFrameType_packetSeq s d pkt.type]
      exact seq_of_header hw rfl rfl
    rcases hsent with ⟨_,rfl,r,hr,rfl⟩ | ⟨_,r,hr,rfl,rfl⟩
    · exact split _ hseq rfl (overTcp_handed _ c d hr)
    · have hs : r.2.1.packetSeq c =
          ((s.setFrameType pkt.type).afterHeader d pkt).packetSeq c := by
        rcases (sendRtpOverUdp_calls _ d hr).1 with h1 | h1
        · rw [h1]
        · rw [h1, teardown_packetSeq]
      exact split _ hseq hs (overUdp_handed _ c d hr)

/-- The same for every operation. -/
theorem step_packetSeq {s' : RtpConnection} {op : RtpOp} {calls : List Call}
    (h : s.step op = .ok (s', calls)) :
    (handed c calls = [] ∧ s'.packetSeq c = s.packetSeq c) ∨
    (∃ p, handed c calls = [p] ∧ p.seq = s.packetSeq c ∧ s'.packetSeq c = s.packetSeq c+1) := by
  cases op with
  | sendRtpPacketInLoop d pkt ret => exact sendRtpPacketInLoop_packetSeq s c d h
  | setClockRate d r =>
    obtain ⟨rfl,rfl⟩ := Prod.mk.inj (Except.ok.inj h)
    exact Or.inl ⟨rfl, setInfo_packetSeq s c d _ (fun _ => rfl)⟩
  | setPayloadType d p =>
    obtain ⟨rfl,rfl⟩ := Prod.mk.inj (Except.ok.inj h)
    exact Or.inl ⟨rfl, setInfo_packetSeq s c d _ (fun _ => rfl)⟩
  | setupRtpOverTcp d a b =>
    obtain ⟨rfl,rfl⟩ := Prod.mk.inj (Except.ok.inj h)
    exact Or.inl ⟨rfl, setupRtpOverTcp_packetSeq s c d a b⟩
  | setupRtpOverUdp d a b attempt =>
    have hu := setupRtpOverUdp_packetSeq s c d a b attempt
    rw [Except.ok.inj h] at hu
    exact Or.inl ⟨hu.2, hu.1⟩
  | play =>
    obtain ⟨rfl,rfl⟩ := Prod.mk.inj (Except.ok.inj h)
    exact Or.inl ⟨rfl, play_packetSeq s c⟩
  | record =>
    obtain ⟨rfl,rfl⟩ := Prod.mk.inj (Except.ok.inj h)
    exact Or.inl ⟨rfl, record_packetSeq s c⟩
  | teardown =>
    obtain ⟨rfl,rfl⟩ := Prod.mk.inj (Except.ok.inj h)
    exact Or.inl ⟨rfl, teardown_packetSeq s c⟩

theorem sendRtpOverTcp_ok (pkt : RtpPacket) (hmax : pkt.size.toNat ≤ 1600) :
    ∃ r, s.sendRtpOverTcp d pkt = .ok r := by
  unfold sendRtpOverTcp
  cases s.tcpConn with
  | none => exact ⟨_, rfl⟩
  | some tcp =>
    dsimp only
    generalize hhead : ([36, _, _, _] : Bytes) = head
    obtain ⟨data,hdata⟩ := PacketData.write_ok pkt.data 0 head (by rw [← hhead]; simp)
    have hread : readBytes data.bytes 0 pkt.size.toNat =
        .ok ((data.bytes.drop 0).take pkt.size.toNat) :=
      readBytes_eq _ _ _ (by rw [data.size_eq]; omega)
    simp only [hdata, hread, bind, Except.bind]
    exact ⟨_, rfl⟩

theorem sendRtpOverUdp_ok (pkt : RtpPacket) (ret : ℤ) (h4 : 4 ≤ pkt.size.toNat)
    (hmax : pkt.size.toNat ≤ 1600) : ∃ r, s.sendRtpOverUdp d pkt ret = .ok r := by
  have hsub : (pkt.size-4).toNat = pkt.size.toNat-4 := by
    rw [UInt32.toNat_sub]
    simp only [UInt32.reduceToNat]
    have := pkt.size.toNat_lt
    omega
  have hread : readBytes pkt.data.bytes 4 (pkt.size-4).toNat =
      .ok ((pkt.data.bytes.drop 4).take (pkt.size-4).toNat) :=
    readBytes_eq _ _ _ (by rw [pkt.data.size_eq, hsub]; omega)
  simp only [sendRtpOverUdp, hread, bind, Except.bind]
  by_cases hret : ret < 0
  · rw [if_pos hret]
    exact ⟨_, rfl⟩
  · rw [if_neg hret]
    exact ⟨_, rfl⟩

/-- A task that is given a packet with room for its head runs to its end. -/
theorem sendRtpPacketInLoop_ok (pkt : RtpPacket) (ret : ℤ) (h4 : 4 ≤ pkt.size.toNat)
    (hmax : pkt.size.toNat ≤ 1600) : ∃ r, s.sendRtpPacketInLoop d pkt ret = .ok r := by
  by_cases hg : (s.setFrameType pkt.type).canSend d = true
  · obtain ⟨data,_,hset⟩ := setRtpHeader_sent (s.setFrameType pkt.type) d pkt hg
    simp only [sendRtpPacketInLoop, hset, bind, Except.bind, afterHeader_canSend, hg, ↓reduceIte]
    by_cases ht : ((s.setFrameType pkt.type).afterHeader d pkt).transportMode = .rtpOverTcp
    · obtain ⟨r,hr⟩ := sendRtpOverTcp_ok ((s.setFrameType pkt.type).afterHeader d pkt) d
        { pkt with data := data } hmax
      rw [if_pos ht, hr]
      exact ⟨_, rfl⟩
    · obtain ⟨r,hr⟩ := sendRtpOverUdp_ok ((s.setFrameType pkt.type).afterHeader d pkt) d
        { pkt with data := data } ret h4 hmax
      rw [if_neg ht, hr]
      exact ⟨_, rfl⟩
  · have hf := Bool.not_eq_true _ ▸ hg
    simp only [sendRtpPacketInLoop, setRtpHeader_discarded _ _ _ hf, bind, Except.bind, hf]
    exact ⟨_, rfl⟩

/-- Every packet of the run has room for its head and fits its buffer. -/
def OpFits : RtpOp → Prop
  | .sendRtpPacketInLoop _ pkt _ => 4 ≤ pkt.size.toNat ∧ pkt.size.toNat ≤ 1600
  | _ => True

theorem run_ok (ops : List RtpOp) (h : ∀ op ∈ ops, OpFits op) :
    ∃ s' calls, s.run ops = .ok (s', calls) := by
  apply Runs.run_total OpFits _ s ops h
  intro t op hop
  cases op with
  | sendRtpPacketInLoop e pkt ret => exact sendRtpPacketInLoop_ok t e pkt ret hop.1 hop.2
  | _ => exact ⟨_, rfl⟩

end RtpConnection

/-- In every run the packets that a channel hands over are numbered consecutively modulo `2^16`,
from the counter the channel had at the start. -/
theorem sequence_numbers_consecutive (s s' : RtpConnection) (ops : List RtpOp)
    (calls : List Call) (c : MediaChannelId) (h : s.run ops = .ok (s', calls)) :
    (handed c calls).map RtpPacket.seq =
      (List.range (handed c calls).length).map
        (fun i => (s.mediaChannelInfo c).packetSeq + UInt16.ofNat i) := by
  -- `acc` is what has been emitted so far: the counter is ahead of the start by its length
  let I (t : RtpConnection) (acc : List Call) : Prop :=
    t.packetSeq c = s.packetSeq c + UInt16.ofNat (handed c acc).length ∧
    (handed c acc).map RtpPacket.seq =
      (List.range (handed c acc).length).map (fun i => s.packetSeq c + UInt16.ofNat i)
  have hstep : ∀ t acc op t' out, I t acc → t.step op = .ok (t', out) → I t' (acc ++ out) := by
    intro t acc op t' out ⟨hcount,hseqs⟩ ht
    rcases RtpConnection.step_packetSeq t c ht with ⟨hnil,hsame⟩ | ⟨p,hone,hp,hnext⟩
    · have happ : handed c (acc ++ out) = handed c acc := by
        rw [handed_append, hnil, List.append_nil]
      exact ⟨by rw [hsame, hcount, happ], by rw [happ, hseqs]⟩
    · have happ : handed c (acc ++ out) = handed c acc ++ [p] := by rw [handed_append, hone]
      have hlen : (handed c acc ++ [p]).length = (handed c acc).length+1 := List.length_append
      refine ⟨?_, ?_⟩
      · rw [hnext, hcount, happ, hlen, UInt16.ofNat_add, UInt16.add_assoc]
        rfl
      · rw [happ, List.map_append, hseqs, hlen, List.range_succ, List.map_append, List.map_cons,
          List.map_nil, List.map_cons, List.map_nil, hp, hcount]
  have h0 : I s [] := ⟨by simp [handed], rfl⟩
  have hrun := Runs.run_invariant I hstep h0 h
  rw [List.nil_append] at hrun
  exact hrun.2

/-- The client plays over TCP, and one of the packets is for the channel it did not set up. -/
def interleavedOps : List RtpOp :=
  let pkt : RtpPacket := ⟨PacketData.zeros, 16, 0, videoFrameI, 1⟩
  [.setClockRate .channel_0 90000, .setupRtpOverTcp .channel_0 0 1, .play,
    .sendRtpPacketInLoop .channel_0 pkt 0, .sendRtpPacketInLoop .channel_1 pkt 0,
    .sendRtpPacketInLoop .channel_0 pkt 0]

theorem interleavedOps_fit (op : RtpOp) (h : op ∈ interleavedOps) : RtpConnection.OpFits op := by
  simp only [interleavedOps, List.mem_cons, List.not_mem_nil, or_false] at h
  rcases h with rfl | rfl | rfl | rfl | rfl | rfl
  · trivial
  · trivial
  · trivial
  · exact ⟨by decide, by decide⟩
  · exact ⟨by decide, by decide⟩
  · exact ⟨by decide, by decide⟩

/-- From a counter that wraps within the run. -/
theorem sequence_numbers_consecutive_interleaved :
    ∃ s' calls, (RtpConnection.new .zeroed ⟨ascii "c", 9, ⟨0, 0⟩⟩ (fun _ _ => 65534)).run
        interleavedOps = .ok (s', calls) ∧
      (handed .channel_0 calls).map RtpPacket.seq =
        (List.range (handed .channel_0 calls).length).map (fun i => 65534 + UInt16.ofNat i) := by
  obtain ⟨s',calls,h⟩ := RtpConnection.run_ok
    (.new .zeroed ⟨ascii "c", 9, ⟨0, 0⟩⟩ (fun _ _ => 65534)) interleavedOps interleavedOps_fit
  exact ⟨s', calls, h, sequence_numbers_consecutive _ s' _ calls .channel_0 h⟩

end IdealServer
