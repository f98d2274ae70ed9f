import IdealServer.Rtp
import IdealServer.FuA
import IdealServer.Runs
import Mathlib.Tactic.Common

/-! `H264Source::handleFrame`: a frame becomes one packet, or a run of FU-A packets. -/
namespace IdealServer

section HandleFrame
variable {σ : Type}

/-- A send callback acts on the state of whoever registered it. -/
abbrev SendFrameCallback (σ : Type) :=
  σ → MediaChannelId → RtpPacket → Except Fault (σ × Bool)

/-- `if(_sendFrameCallback)` and the call itself. -/
def sendFrame (cb : Option (SendFrameCallback σ)) (channelId : MediaChannelId) (pkt : RtpPacket)
    (s : σ) : Except Fault (σ × Bool) :=
  match cb with
  | some f => f s channelId pkt
  | none => .ok (s, true)

/-- The `while` loop and the block behind it. `frameBuf` is the offset of the pointer in the
frame, `fuA0` and `fuA1` are the array `FU_A`, and `alloc k` is the memory of the `k`-th packet. -/
def sendFragments (alloc : ℕ → PacketData) (cb : Option (SendFrameCallback σ))
    (channelId : MediaChannelId) (frame : AVFrame) (fuA0 : UInt8) (k frameBuf : ℕ)
    (frameSize : UInt32) (fuA1 : UInt8) (s : σ) : Except Fault (σ × Bool) :=
  if _h : maxRtpPayloadSize < frameSize+2 then do
    let data ← (alloc k).write (rtpHeaderSize+4) [fuA0]
    let data ← data.write (rtpHeaderSize+5) [fuA1]
    let src ← readBytes frame.buffer frameBuf (maxRtpPayloadSize-2).toNat
    let data ← data.write (4+rtpHeaderSize+2) src
    let (s, ok) ← sendFrame cb channelId
      ⟨data, 4+UInt32.ofNat rtpHeaderSize+maxRtpPayloadSize, frame.timestamp, frame.type, 0⟩ s
    if ok = false then
      return (s, false)
    sendFragments alloc cb channelId frame fuA0 (k+1) (frameBuf+(maxRtpPayloadSize-2).toNat)
      (frameSize-(maxRtpPayloadSize-2)) (fuA1 &&& ~~~0x80) s
  else do
    let fuA1 := fuA1 ||| 0x40
    let data ← (alloc k).write (rtpHeaderSize+4) [fuA0]
    let data ← data.write (rtpHeaderSize+5) [fuA1]
    let src ← readBytes frame.buffer frameBuf frameSize.toNat
    let data ← data.write (4+rtpHeaderSize+2) src
    sendFrame cb channelId
      ⟨data, 4+UInt32.ofNat rtpHeaderSize+2+frameSize, frame.timestamp, frame.type, 1⟩ s
termination_by frameSize.toNat
decreasing_by
  apply UInt32.lt_iff_toNat_lt.mp
  simp only [maxRtpPayloadSize] at _h ⊢
  grind

/-- `now` is the clock that `getTimestamp` reads. -/
def handleFrame (now : UInt32) (alloc : ℕ → PacketData) (cb : Option (SendFrameCallback σ))
    (channelId : MediaChannelId) (frame : AVFrame) (s : σ) : Except Fault (σ × Bool) :=
  let frame := if frame.timestamp = 0 then { frame with timestamp := now } else frame
  if frame.size ≤ maxRtpPayloadSize then do
    let src ← readBytes frame.buffer 0 frame.size.toNat
    let data ← (alloc 0).write (4+rtpHeaderSize) src
    sendFrame cb channelId
      ⟨data, frame.size+4+UInt32.ofNat rtpHeaderSize, frame.timestamp, frame.type, 1⟩ s
  else
    match frame.buffer[0]? with
    | none => .error .outOfBounds
    | some nal =>
      sendFragments alloc cb channelId frame ((nal &&& 0xE0) ||| 28) 0 1 (frame.size-1)
        (0x80 ||| (nal &&& 0x1f)) s

section Simulates
variable {τ : Type} {alloc : ℕ → PacketData} {f : SendFrameCallback σ} {g : SendFrameCallback τ}
  {channelId : MediaChannelId} {frame : AVFrame} {R : σ → τ → Prop} {s s' : σ} {t : τ} {ok : Bool}

/-- A callback that does in its own state what another one does makes the loop do the same. None of
the packets that it is asked about is larger than 1436 bytes, and all have the type of the frame. -/
theorem sendFragments_simulates
    (hfg : ∀ s t pkt s' ok, pkt.size.toNat ≤ 1436 → pkt.type = frame.type → R s t →
      f s channelId pkt = .ok (s', ok) → ∃ t', g t channelId pkt = .ok (t', ok) ∧ R s' t') {fuA0 fuA1 : UInt8} {k frameBuf : ℕ}
    {frameSize : UInt32} (hR : R s t)
    (h : sendFragments alloc (some f) channelId frame fuA0 k frameBuf frameSize fuA1 s =
      .ok (s', ok)) :
    ∃ t', sendFragments alloc (some g) channelId frame fuA0 k frameBuf frameSize fuA1 t =
      .ok (t', ok) ∧ R s' t' := by
  have hfull : (4+UInt32.ofNat rtpHeaderSize+maxRtpPayloadSize).toNat ≤ 1436 := by decide
  induction hn : frameSize.toNat using Nat.strong_induction_on generalizing k frameBuf frameSize
    fuA1 s t with
  | h n ih =>
    rw [sendFragments] at h ⊢
    split at h
    case isTrue hlarge =>
      obtain ⟨d1,h1,h⟩ := Runs.bind_ok h
      obtain ⟨d2,h2,h⟩ := Runs.bind_ok h
      obtain ⟨src,hsrc,h⟩ := Runs.bind_ok h
      obtain ⟨d3,h3,h⟩ := Runs.bind_ok h
      obtain ⟨⟨s1,ok1⟩,hsend,h⟩ := Runs.bind_ok h
      obtain ⟨t1,hsend',hR1⟩ := hfg s t
        ⟨d3, 4+UInt32.ofNat rtpHeaderSize+maxRtpPayloadSize, frame.timestamp, frame.type, 0⟩ s1 ok1
        hfull rfl hR hsend
      simp only [dif_pos hlarge, h1, h2, hsrc, h3, sendFrame, hsend', bind, Except.bind]
      dsimp only at h
      by_cases hok : ok1 = false
      · rw [if_pos hok] at h ⊢
        obtain ⟨rfl,rfl⟩ := Prod.mk.inj (Except.ok.inj h)
        exact ⟨t1, rfl, hR1⟩
      · rw [if_neg hok] at h ⊢
        have hless : (frameSize-(maxRtpPayloadSize-2)).toNat < n := by
          rw [← hn]
          apply UInt32.lt_iff_toNat_lt.mp
          simp only [maxRtpPayloadSize] at hlarge ⊢
          grind
        exact ih _ hless hR1 h rfl
    case isFalse hsmall =>
      obtain ⟨d1,h1,h⟩ := Runs.bind_ok h
      obtain ⟨d2,h2,h⟩ := Runs.bind_ok h
      obtain ⟨src,hsrc,h⟩ := Runs.bind_ok h
      obtain ⟨d3,h3,h⟩ := Runs.bind_ok h
      simp only [dif_neg hsmall, h1, h2, hsrc, h3, sendFrame, bind, Except.bind]
      apply hfg s t _ s' ok _ rfl hR h
      rw [UInt32.lt_iff_toNat_lt, UInt32.toNat_add] at hsmall
      simp only [maxRtpPayloadSize, rtpHeaderSize, UInt32.toNat_add, UInt32.reduceOfNat,
        UInt32.reduceAdd, UInt32.reduceToNat] at hsmall ⊢
      omega

theorem handleFrame_simulates
    (hfg : ∀ s t pkt s' ok, pkt.size.toNat ≤ 1436 → pkt.type = frame.type → R s t →
      f s channelId pkt = .ok (s', ok) → ∃ t', g t channelId pkt = .ok (t', ok) ∧ R s' t') {now : UInt32} (hR : R s t)
    (h : handleFrame now alloc (some f) channelId frame s = .ok (s', ok)) :
    ∃ t', handleFrame now alloc (some g) channelId frame t = .ok (t', ok) ∧ R s' t' := by
  unfold handleFrame at h ⊢
  dsimp only at h ⊢
  have htype : (if frame.timestamp = 0 then { frame with timestamp := now } else frame).type =
      frame.type := by
    split <;> rfl
  generalize (if frame.timestamp = 0 then { frame with timestamp := now } else frame) = stamped
    at h htype ⊢
  split at h
  case isTrue hsmall =>
    obtain ⟨src,hsrc,h⟩ := Runs.bind_ok h
    obtain ⟨d,hd,h⟩ := Runs.bind_ok h
    simp only [if_pos hsmall, hsrc, hd, sendFrame, bind, Except.bind]
    apply hfg s t _ s' ok _ htype hR h
    rw [UInt32.le_iff_toNat_le] at hsmall
    simp only [maxRtpPayloadSize, rtpHeaderSize, UInt32.toNat_add, UInt32.reduceOfNat,
      UInt32.reduceToNat] at hsmall ⊢
    omega
  case isFalse hlarge =>
    rw [if_neg hlarge]
    split at h
    · contradiction
    case h_2 nal hnal =>
      rw [← htype] at hfg
      exact sendFragments_simulates hfg hR h

end Simulates

end HandleFrame

/-- The frame's timestamp once `handleFrame` has filled in a missing one. -/
def AVFrame.stamp (now : UInt32) (frame : AVFrame) : UInt32 :=
  if frame.timestamp = 0 then now else frame.timestamp

theorem AVFrame.stamped_eq (now : UInt32) (frame : AVFrame) :
    (if frame.timestamp = 0 then { frame with timestamp := now } else frame) =
      { frame with timestamp := frame.stamp now } := by
  unfold AVFrame.stamp
  split <;> rfl

/-- A callback that keeps every packet it is handed and always succeeds. -/
def collect : SendFrameCallback (List RtpPacket) := fun s _ pkt => .ok (s ++ [pkt], true)

/-- Every packet of a frame has its type. -/
theorem handleFrame_type {now : UInt32} {alloc : ℕ → PacketData} {channelId : MediaChannelId}
    {frame : AVFrame} {pkts : List RtpPacket} {ok : Bool}
    (h : handleFrame now alloc (some collect) channelId frame [] = .ok (pkts, ok)) :
    ∀ p ∈ pkts, p.type = frame.type := by
  have hstep (s t : List RtpPacket) (pkt : RtpPacket) (s' : List RtpPacket) (b : Bool)
      (_ : pkt.size.toNat ≤ 1436) (htype : pkt.type = frame.type)
      (hR : ∀ p ∈ s, p.type = frame.type) (hs : collect s channelId pkt = .ok (s', b)) :
      ∃ t', collect t channelId pkt = .ok (t', b) ∧ ∀ p ∈ s', p.type = frame.type := by
    obtain ⟨rfl,rfl⟩ := Prod.mk.inj (Except.ok.inj hs)
    refine ⟨_, rfl, ?_⟩
    intro p hp
    rcases List.mem_append.mp hp with hp | hp
    · exact hR p hp
    · rw [List.mem_singleton.mp hp]
      exact htype
  obtain ⟨_,_,htypes⟩ := @handleFrame_simulates _ _ _ _ _ _ _
    (fun s _ => ∀ p ∈ s, p.type = frame.type) _ _ [] _ hstep _ (fun p hp => by cases hp) h
  exact htypes

/-- The receiver looks at nothing but the payloads of a frame's packets. -/
def receiveFrame (pkts : List RtpPacket) : Option Bytes := FuA.receive (pkts.map RtpPacket.payload)

/-- The packet brings `payload` and the attributes of its frame. -/
structure RtpPacket.Carries (p : RtpPacket) (payload : Bytes) (ts : UInt32) (type last : UInt8) :
    Prop where
  payload_eq : p.payload = payload
  size_eq : p.size.toNat = rtpTcpHeadSize+rtpHeaderSize+payload.length
  timestamp_eq : p.timestamp = ts
  type_eq : p.type = type
  last_eq : p.last = last

theorem carries_of_write {d e : PacketData} {payload : Bytes} {size ts : UInt32} {type last : UInt8}
    (h : d.write (rtpTcpHeadSize+rtpHeaderSize) payload = .ok e)
    (hs : size.toNat = rtpTcpHeadSize+rtpHeaderSize+payload.length) :
    RtpPacket.Carries ⟨e, size, ts, type, last⟩ payload ts type last := by
  refine ⟨?_, hs, rfl, rfl, rfl⟩
  have hd := PacketData.write_drop h
  rw [RtpPacket.payload, hd, hs, Nat.add_sub_cancel_left, List.take_left]

/-- The three stores of a fragment are one copy of its encoding. -/
theorem write_fragment (d : PacketData) (a b : UInt8) (piece : Bytes)
    (h : piece.length ≤ 1418) :
    ∃ d1 d2 d3, d.write (rtpHeaderSize+4) [a] = .ok d1 ∧ d1.write (rtpHeaderSize+5) [b] = .ok d2 ∧
      d2.write (4+rtpHeaderSize+2) piece = .ok d3 ∧
      d.write (rtpTcpHeadSize+rtpHeaderSize) (a :: b :: piece) = .ok d3 := by
  obtain ⟨d1,h1⟩ := PacketData.write_ok d (rtpHeaderSize+4) [a] (by simp [rtpHeaderSize])
  obtain ⟨d2,h2⟩ := PacketData.write_ok d1 (rtpHeaderSize+5) [b] (by simp [rtpHeaderSize])
  obtain ⟨d3,h3⟩ := PacketData.write_ok d2 (4+rtpHeaderSize+2) piece
    (by simp only [rtpHeaderSize]; omega)
  refine ⟨d1, d2, d3, h1, h2, h3, ?_⟩
  have h12 : d.write (rtpHeaderSize+4) [a,b] = .ok d2 := PacketData.write_append h1 h2
  exact PacketData.write_append h12 h3

theorem piece_size : (maxRtpPayloadSize-2).toNat = 1418 := rfl

theorem header_clear_start (s : Bool) (nal : UInt8) :
    FuA.header s false nal &&& ~~~0x80 = FuA.header false false nal := by
  revert nal
  cases s <;> exact FuA.byte_forall _ (by decide +kernel)

theorem header_set_end (s : Bool) (nal : UInt8) :
    FuA.header s false nal ||| 0x40 = FuA.header s true nal := by
  revert nal
  cases s <;> exact FuA.byte_forall _ (by decide +kernel)

/-- The packet of one fragment: the frame's last packet is the one with the end bit. -/
def CarriesFragment (frame : AVFrame) (p : RtpPacket) (f : FuA.Fragment) : Prop :=
  p.Carries f.encode frame.timestamp frame.type (if f.header &&& 0x40 ≠ 0 then 1 else 0)

/-- The loop hands over the fragments of the bytes it has not sent yet, in order. -/
theorem send_fragments_collect (alloc : ℕ → PacketData) (channelId : MediaChannelId)
    (frame : AVFrame) (nal : UInt8) (start : Bool) (body : Bytes) (k pos : ℕ)
    (frameSize : UInt32) (sent : List RtpPacket) (hbody : frame.buffer.drop pos = body)
    (hpos : pos ≤ frame.buffer.length) (hsize : frameSize.toNat = body.length)
    (hmax : body.length < 2^31) :
    ∃ pkts, sendFragments alloc (some collect) channelId frame (FuA.indicator nal) k pos frameSize
        (FuA.header start false nal) sent = .ok (sent ++ pkts, true) ∧
      List.Forall₂ (CarriesFragment frame) pkts (FuA.fragment 1418 nal start body) := by
  -- the induction follows the pieces that the abstract fragmentation cuts
  induction start, body using FuA.fragment.induct 1418 generalizing k pos frameSize sent with
  | case1 start body h ih =>
    have hlen : body.length = frame.buffer.length-pos := by rw [← hbody, List.length_drop]
    have hcond : maxRtpPayloadSize < frameSize+2 := by
      rw [UInt32.lt_iff_toNat_lt, UInt32.toNat_add]
      simp only [maxRtpPayloadSize, UInt32.reduceToNat]
      omega
    have hnext : (frameSize-(maxRtpPayloadSize-2)).toNat = (body.drop 1418).length := by
      rw [List.length_drop, UInt32.toNat_sub, piece_size]
      omega
    have hread : readBytes frame.buffer pos (maxRtpPayloadSize-2).toNat = .ok (body.take 1418) := by
      rw [piece_size, readBytes_eq _ _ _ (by omega), hbody]
    obtain ⟨d1,d2,d3,h1,h2,h3,hw⟩ := write_fragment (alloc k) (FuA.indicator nal)
      (FuA.header start false nal) (body.take 1418) (by rw [List.length_take]; omega)
    obtain ⟨pkts,hrun,hall⟩ := ih (k+1) (pos+1418) (frameSize-(maxRtpPayloadSize-2))
      (sent ++ [⟨d3, 4+UInt32.ofNat rtpHeaderSize+maxRtpPayloadSize, frame.timestamp,
        frame.type, 0⟩])
      (by rw [← hbody, List.drop_drop]) (by omega) hnext (by rw [List.length_drop]; omega)
    refine ⟨⟨d3, 4+UInt32.ofNat rtpHeaderSize+maxRtpPayloadSize, frame.timestamp, frame.type, 0⟩ ::
      pkts, ?_, ?_⟩
    · rw [sendFragments, dif_pos hcond, h1]
      simp only [bind, Except.bind, h2, hread, h3, sendFrame, collect, header_clear_start,
        reduceCtorEq, ↓reduceIte]
      rw [List.append_cons sent _ pkts]
      exact hrun
    · rw [FuA.fragment_step _ _ _ _ h.1 h.2]
      refine List.Forall₂.cons ?_ hall
      have hbit : ¬FuA.header start false nal &&& 0x40 ≠ 0 := by
        rw [FuA.header_end_bit]
        exact Bool.false_ne_true
      rw [CarriesFragment, if_neg hbit]
      apply carries_of_write hw
      simp only [List.length_cons, List.length_take, rtpTcpHeadSize, rtpHeaderSize]
      rw [Nat.min_eq_left (by omega)]
      rfl
  | case2 start body h =>
    have hle : body.length ≤ 1418 := by omega
    have hlen : body.length = frame.buffer.length-pos := by rw [← hbody, List.length_drop]
    have hcond : ¬maxRtpPayloadSize < frameSize+2 := by
      rw [UInt32.lt_iff_toNat_lt, UInt32.toNat_add]
      simp only [maxRtpPayloadSize, UInt32.reduceToNat]
      omega
    have hread : readBytes frame.buffer pos frameSize.toNat = .ok body := by
      rw [readBytes_eq _ _ _ (by omega), hbody, hsize, List.take_length]
    obtain ⟨d1,d2,d3,h1,h2,h3,hw⟩ := write_fragment (alloc k) (FuA.indicator nal)
      (FuA.header start true nal) body hle
    refine ⟨[⟨d3, 4+UInt32.ofNat rtpHeaderSize+2+frameSize, frame.timestamp, frame.type, 1⟩],
      ?_, ?_⟩
    · rw [sendFragments, dif_neg hcond, header_set_end, h1]
      simp only [bind, Except.bind, h2, hread, h3, sendFrame, collect]
    · rw [FuA.fragment_last _ _ _ _ hle]
      refine List.Forall₂.cons ?_ List.Forall₂.nil
      have hbit : FuA.header start true nal &&& 0x40 ≠ 0 := (FuA.header_end_bit _ _ _).mpr rfl
      rw [CarriesFragment, if_pos hbit]
      apply carries_of_write hw
      rw [UInt32.toNat_add, hsize]
      simp only [List.length_cons, rtpTcpHeadSize, rtpHeaderSize, UInt32.reduceOfNat,
        UInt32.reduceAdd, UInt32.reduceToNat]
      omega

theorem carries_of_getElem? {frame : AVFrame} {pkts : List RtpPacket} {fs : List FuA.Fragment}
    (h : List.Forall₂ (CarriesFragment frame) pkts fs) {i : ℕ} {p : RtpPacket}
    (hp : pkts[i]? = some p) : ∃ f, fs[i]? = some f ∧ CarriesFragment frame p f := by
  induction h generalizing i with
  | nil => simp at hp
  | cons hc ht ih =>
    cases i with
    | zero =>
      obtain rfl := Option.some_inj.mp hp
      exact ⟨_, rfl, hc⟩
    | succ i => exact ih hp

theorem payload_map_of_carries {frame : AVFrame} {pkts : List RtpPacket} {fs : List FuA.Fragment}
    (h : List.Forall₂ (CarriesFragment frame) pkts fs) :
    pkts.map RtpPacket.payload = fs.map FuA.Fragment.encode := by
  induction h with
  | nil => rfl
  | cons hc _ ih => rw [List.map_cons, List.map_cons, ih, hc.payload_eq]

/-- What `handleFrame` hands to a callback that never fails, frame by frame size. -/
theorem handle_frame_packets (now : UInt32) (alloc : ℕ → PacketData) (channelId : MediaChannelId)
    (frame : AVFrame) (h0 : frame.buffer ≠ []) (hsize : frame.size.toNat < 2^31) :
    ∃ pkts, handleFrame now alloc (some collect) channelId frame [] = .ok (pkts, true) ∧
      ((frame.size ≤ maxRtpPayloadSize ∧ ∃ p, pkts = [p] ∧
          p.Carries frame.buffer (frame.stamp now) frame.type 1) ∨
        (maxRtpPayloadSize < frame.size ∧ ∃ nal body, frame.buffer = nal :: body ∧
          List.Forall₂ (CarriesFragment { frame with timestamp := frame.stamp now }) pkts
            (FuA.fragment 1418 nal true body))) := by
  obtain ⟨nal,body,hcons⟩ := List.exists_cons_of_ne_nil h0
  have hlen := frame.size_eq
  unfold handleFrame
  simp only [frame.stamped_eq now]
  by_cases hle : frame.size ≤ maxRtpPayloadSize
  · have hle' : frame.size.toNat ≤ 1420 := UInt32.le_iff_toNat_le.mp hle
    have hread : readBytes frame.buffer 0 frame.size.toNat = .ok frame.buffer := by
      rw [readBytes_eq _ _ _ (by omega), List.drop_zero, ← hlen, List.take_length]
    obtain ⟨d,hd⟩ := PacketData.write_ok (alloc 0) (4+rtpHeaderSize) frame.buffer
      (by simp only [rtpHeaderSize]; omega)
    refine ⟨[⟨d, frame.size+4+UInt32.ofNat rtpHeaderSize, frame.stamp now, frame.type, 1⟩],
      ?_, Or.inl ⟨hle, _, rfl, ?_⟩⟩
    · rw [if_pos hle]
      simp only [hread, bind, Except.bind, hd, sendFrame, collect, List.nil_append]
    · apply carries_of_write hd
      simp only [UInt32.toNat_add, rtpTcpHeadSize, rtpHeaderSize, UInt32.reduceOfNat,
        UInt32.reduceToNat]
      omega
  · have hlt : maxRtpPayloadSize < frame.size := UInt32.not_le.mp hle
    have hlt' : 1420 < frame.size.toNat := UInt32.lt_iff_toNat_lt.mp hlt
    have hbody : body.length+1 = frame.size.toNat := by
      rw [← hlen, hcons, List.length_cons]
    obtain ⟨pkts,hrun,hall⟩ := send_fragments_collect alloc channelId
      { frame with timestamp := frame.stamp now } nal true body 0 1 (frame.size-1) []
      (by dsimp only; rw [hcons]; rfl) (by dsimp only; omega)
      (by rw [UInt32.toNat_sub]; simp only [UInt32.reduceToNat]; omega) (by omega)
    refine ⟨pkts, ?_, Or.inr ⟨hlt, nal, body, hcons, hall⟩⟩
    have hhead : frame.buffer[0]? = some nal := by rw [hcons]; rfl
    have hstart : 0x80 ||| (nal &&& 0x1f) = FuA.header true false nal := by
      simp only [FuA.header, ↓reduceIte, Bool.false_eq_true]
      rfl
    rw [if_neg hle]
    simp only [hhead, hstart]
    exact hrun

/-- Packetization loses nothing, and the packets of one frame are marked as RFC 3984 asks. -/
theorem handle_frame_lossless (now : UInt32) (alloc : ℕ → PacketData) (channelId : MediaChannelId)
    (frame : AVFrame) (h0 : frame.buffer ≠ []) (hsize : frame.size.toNat < 2^31) :
    ∃ pkts, handleFrame now alloc (some collect) channelId frame [] = .ok (pkts, true) ∧
      receiveFrame pkts = some frame.buffer ∧
      (∀ i p, pkts[i]? = some p → p.timestamp = frame.stamp now ∧ p.type = frame.type ∧
        p.size.toNat ≤ 4+12+1420 ∧ (p.last = 1 ↔ i+1 = pkts.length)) ∧
      (maxRtpPayloadSize < frame.size → ∀ i p, pkts[i]? = some p →
        ∃ f, FuA.Fragment.decode p.payload = some f ∧ (f.IsStart ↔ i = 0) ∧
          (f.IsEnd ↔ i+1 = pkts.length) ∧ ¬(f.IsStart ∧ f.IsEnd) ∧ f.payload ≠ []) := by
  obtain ⟨pkts,hrun,hcase⟩ := handle_frame_packets now alloc channelId frame h0 hsize
  have hlen := frame.size_eq
  refine ⟨pkts, hrun, ?_⟩
  rcases hcase with ⟨hle,p,rfl,hp⟩ | ⟨hlt,nal,body,hcons,hall⟩
  · have hle' : frame.size.toNat ≤ 1420 := UInt32.le_iff_toNat_le.mp hle
    refine ⟨?_, ?_, fun hlt => absurd hle (UInt32.not_le.mpr hlt)⟩
    · simp only [receiveFrame, List.map_cons, List.map_nil, FuA.receive, hp.payload_eq]
    · intro i p' hp'
      cases i with
      | zero =>
        obtain rfl := Option.some_inj.mp hp'
        refine ⟨hp.timestamp_eq, hp.type_eq, ?_, by simp [hp.last_eq]⟩
        rw [hp.size_eq]
        simp only [rtpTcpHeadSize, rtpHeaderSize]
        omega
      | succ i => simp at hp'
  · have hlt' : 1420 < frame.size.toNat := UInt32.lt_iff_toNat_lt.mp hlt
    have hbody : body.length+1 = frame.size.toNat := by
      rw [← hlen, hcons, List.length_cons]
    have hne : body ≠ [] := List.ne_nil_of_length_pos (by omega)
    have hcount := hall.length_eq
    refine ⟨?_, ?_, ?_⟩
    · rw [receiveFrame, payload_map_of_carries hall, hcons]
      exact FuA.receive_fragment 1418 nal body (by decide) (by omega)
    · intro i p hp
      obtain ⟨f,hf,hc⟩ := carries_of_getElem? hall hp
      obtain ⟨_,hend⟩ := FuA.fragment_flags 1418 nal true body i f hf
      obtain ⟨_,hmax⟩ := FuA.fragment_payload_length 1418 nal true body (by decide) hne f
        (List.mem_of_getElem? hf)
      refine ⟨hc.timestamp_eq, hc.type_eq, ?_, ?_⟩
      · rw [hc.size_eq]
        simp only [FuA.Fragment.encode, List.length_cons, rtpTcpHeadSize, rtpHeaderSize]
        omega
      · rw [hc.last_eq, hcount, ← hend, FuA.Fragment.IsEnd]
        split_ifs with hbit
        · simp [hbit]
        · simp [hbit]
    · intro _ i p hp
      obtain ⟨f,hf,hc⟩ := carries_of_getElem? hall hp
      obtain ⟨hstart,hend⟩ := FuA.fragment_flags 1418 nal true body i f hf
      obtain ⟨hpay,_⟩ := FuA.fragment_payload_length 1418 nal true body (by decide) hne f
        (List.mem_of_getElem? hf)
      have htype : f.indicator &&& 0x1F = 28 := by
        rw [FuA.fragment_indicator _ _ _ _ f (List.mem_of_getElem? hf), FuA.indicator_type]
      have hmany : 1 < (FuA.fragment 1418 nal true body).length := by
        have hpos := List.length_pos_of_ne_nil
          (FuA.fragment_ne_nil 1418 nal false (body.drop 1418))
        rw [FuA.fragment_step _ _ _ _ (by decide) (by omega), List.length_cons]
        omega
      refine ⟨f, ?_, hstart.trans (by simp), by rw [hend, hcount], ?_, hpay⟩
      · rw [hc.payload_eq, FuA.decode_encode f htype]
      · rintro ⟨hs,he⟩
        have hi := (hstart.mp hs).2
        have hl := hend.mp he
        omega

/-- The smallest frame that is fragmented. -/
theorem handle_frame_lossless_1421 :
    ∃ pkts, handleFrame 7 (fun _ => PacketData.zeros) (some collect) .channel_0
        ⟨List.replicate 1421 0x65, 1421, videoFrameI, 90, List.length_replicate⟩ [] =
          .ok (pkts, true) ∧ receiveFrame pkts = some (List.replicate 1421 0x65) := by
  obtain ⟨pkts,hrun,hrecv,_⟩ := handle_frame_lossless 7 (fun _ => PacketData.zeros) .channel_0
    ⟨List.replicate 1421 0x65, 1421, videoFrameI, 90, List.length_replicate⟩
    (List.ne_nil_of_length_pos (by rw [List.length_replicate]; decide)) (by decide)
  exact ⟨pkts, hrun, hrecv⟩

end IdealServer
