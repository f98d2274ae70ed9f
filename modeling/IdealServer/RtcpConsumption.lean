import IdealServer.RtspDispatch
import Mathlib.Algebra.Group.Nat.Defs

/-! What `handleRtspMessage` removes of a buffer that begins with interleaved data, `$`, a channel and a
length of two bytes. -/
namespace IdealServer

section Size
variable {hi lo : UInt8}

theorem toNat_signExtend (b : UInt8) :
    (b.toBitVec.signExtend 32).toNat = if 128 ≤ b.toNat then 2^32-256+b.toNat else b.toNat := by
  rw [BitVec.toNat_signExtend, BitVec.toNat_setWidth, BitVec.msb_eq_decide]
  have hb : b.toBitVec.toNat = b.toNat := rfl
  have hlt := b.toNat_lt
  rw [hb, Nat.mod_eq_of_lt (by omega)]
  by_cases h : 128 ≤ b.toNat
  · rw [if_pos h, decide_eq_true (by omega), if_pos rfl]
    omega
  · rw [if_neg h, decide_eq_false (by omega), if_neg (by decide)]
    omega

/-- A second byte without the sign bit. -/
theorem rtcpSize_of_lt (h : lo.toNat < 128) : (rtcpSize hi lo).toNat =
    if 128 ≤ hi.toNat then 2^32-65536+256*hi.toNat+lo.toNat else 256*hi.toNat+lo.toNat := by
  have hhi := hi.toNat_lt
  have hshift : ((hi.toBitVec.signExtend 32).toNat <<< 8)%2^32 =
      (if 128 ≤ hi.toNat then 2^24-256+hi.toNat else hi.toNat) <<< 8 := by
    rw [toNat_signExtend, Nat.shiftLeft_eq, Nat.shiftLeft_eq]
    split
    · omega
    · omega
  have hlo : (lo.toBitVec.signExtend 32).toNat = lo.toNat := by rw [toNat_signExtend, if_neg (by omega)]
  have hfits : lo.toNat < 2^8 := lo.toNat_lt
  calc (rtcpSize hi lo).toNat
      = ((hi.toBitVec.signExtend 32).toNat <<< 8)%2^32 ||| (lo.toBitVec.signExtend 32).toNat := by
        rw [rtcpSize, UInt32.toNat_ofBitVec, BitVec.toNat_or, BitVec.toNat_shiftLeft]
    _ = (if 128 ≤ hi.toNat then 2^24-256+hi.toNat else hi.toNat) <<< 8+lo.toNat := by
        rw [hshift, hlo, Nat.shiftLeft_add_eq_or_of_lt hfits]
    _ = if 128 ≤ hi.toNat then 2^32-65536+256*hi.toNat+lo.toNat else 256*hi.toNat+lo.toNat := by
        rw [Nat.shiftLeft_eq]
        split
        · omega
        · omega

/-- The sign bit of the second byte covers the first byte. -/
theorem rtcpSize_of_ge (h : 128 ≤ lo.toNat) : (rtcpSize hi lo).toNat = 2^32-256+lo.toNat := by
  have hmsb : lo.toBitVec.msb = true := by
    rw [BitVec.msb_eq_decide]
    exact decide_eq_true h
  have hor : hi.toBitVec.signExtend 32 <<< 8 ||| lo.toBitVec.signExtend 32 = lo.toBitVec.signExtend 32 := by
    ext i hi
    rw [BitVec.getElem_or, BitVec.getElem_signExtend, BitVec.getElem_shiftLeft]
    by_cases hlow : i < 8
    · simp [hlow]
    · simp [hlow, hmsb]
  unfold rtcpSize
  rw [hor, UInt32.toNat_ofBitVec, toNat_signExtend, if_pos h]

end Size

/-- The four bytes of the header and what they announce. -/
def packetSize (hi lo : UInt8) : ℕ := 256*hi.toNat+lo.toNat+4

/-- What is left when a packet that has arrived as a whole is removed. -/
def behindPacket (b : Bytes) : Bytes :=
  match b with
  | _ :: _ :: hi :: lo :: _ => if packetSize hi lo ≤ b.length then b.drop (packetSize hi lo) else b
  | _ => b

/-- The buffer ends with its packet, whose length has no sign bit; or the length wraps around, and the packet
is not complete. Of four bytes or fewer nothing is removed. -/
def PacketExact (b : Bytes) : Prop :=
  match b with
  | _ :: _ :: hi :: lo :: rest =>
    if rest = [] then packetSize hi lo ≠ 4
    else hi.toNat < 128 ∧ lo.toNat < 128 ∧ b.length = packetSize hi lo ∨
      252 ≤ lo.toNat ∧ b.length < packetSize hi lo
  | _ => True

section Total
variable {hi lo : UInt8}

theorem rtcpTotal_toNat (hi lo : UInt8) : (rtcpSize hi lo+4).toNat = ((rtcpSize hi lo).toNat+4)%2^32 :=
  UInt32.toNat_add _ _

theorem rtcpTotal_plain (hhi : hi.toNat < 128) (hlo : lo.toNat < 128) :
    (rtcpSize hi lo+4).toNat = packetSize hi lo := by
  rw [rtcpTotal_toNat, rtcpSize_of_lt hlo, if_neg (by omega), packetSize]
  omega

/-- A length with a sign bit is taken for one that no buffer holds. -/
theorem rtcpTotal_signed (h : 128 ≤ hi.toNat ∧ lo.toNat < 128 ∨ 128 ≤ lo.toNat ∧ lo.toNat < 252) :
    2048 < (rtcpSize hi lo+4).toNat := by
  have hhi := hi.toNat_lt
  rw [rtcpTotal_toNat]
  rcases h with ⟨hhigh,hlo⟩ | ⟨hlo,hlt⟩
  · rw [rtcpSize_of_lt hlo, if_pos hhigh]
    omega
  · rw [rtcpSize_of_ge hlo]
    omega

theorem rtcpTotal_wraps (h : 252 ≤ lo.toNat) : (rtcpSize hi lo+4).toNat < 4 := by
  have hlo := lo.toNat_lt
  rw [rtcpTotal_toNat, rtcpSize_of_ge (by omega)]
  omega

end Total

section Packet
variable {b : Bytes}

theorem drop_ne_self {n : ℕ} (hn : 0 < n) (hb : n ≤ b.length) : b.drop n ≠ b := by
  intro heq
  have hlength := congrArg List.length heq
  rw [List.length_drop] at hlength
  omega

/-- A packet with at least one byte behind its header. -/
theorem rtcpBytes_packet {c hi lo y : UInt8} {rest : Bytes} (hb : b = 36 :: c :: hi :: lo :: y :: rest)
    (hlen : b.length ≤ 2048) : rtcpBytes b = .ok (behindPacket b) ↔
      hi.toNat < 128 ∧ lo.toNat < 128 ∧ b.length = packetSize hi lo ∨
        252 ≤ lo.toNat ∧ b.length < packetSize hi lo := by
  have hrtcp : rtcpBytes b = if b.length ≤ (rtcpSize hi lo+4).toNat then
      (if (rtcpSize hi lo+4).toNat ≤ b.length then .ok [] else .error .assertFailed) else .ok b := by
    rw [hb]
    rfl
  have hbehind : behindPacket b = if packetSize hi lo ≤ b.length then b.drop (packetSize hi lo) else b := by
    rw [hb]
    rfl
  have hfour : 4 < b.length := by
    rw [hb]
    simp
  have hpos : 0 < packetSize hi lo := Nat.succ_pos _
  rw [hrtcp, hbehind]
  by_cases hwraps : 252 ≤ lo.toNat
  · -- nothing is removed
    have htotal := @rtcpTotal_wraps hi lo hwraps
    rw [if_neg (by omega)]
    by_cases hcomplete : packetSize hi lo ≤ b.length
    · rw [if_pos hcomplete]
      constructor
      · exact fun h => absurd (Except.ok.inj h).symm (drop_ne_self hpos hcomplete)
      · intro h
        omega
    · rw [if_neg hcomplete]
      exact ⟨fun _ => Or.inr ⟨hwraps, Nat.lt_of_not_le hcomplete⟩, fun _ => rfl⟩
  · by_cases hplain : hi.toNat < 128 ∧ lo.toNat < 128
    · rw [rtcpTotal_plain hplain.1 hplain.2]
      -- the comparison goes the wrong way, so that only equality does what it should
      rcases Nat.lt_trichotomy b.length (packetSize hi lo) with hlt | heq | hgt
      · rw [if_pos hlt.le, if_neg (Nat.not_le.mpr hlt)]
        constructor
        · intro h
          cases h
        · intro h
          omega
      · rw [if_pos heq.le, if_pos heq.ge, if_pos heq.ge, ← heq, List.drop_length]
        exact ⟨fun _ => Or.inl ⟨hplain.1, hplain.2, rfl⟩, fun _ => rfl⟩
      · rw [if_neg (Nat.not_le.mpr hgt), if_pos hgt.le]
        constructor
        · exact fun h => absurd (Except.ok.inj h).symm (drop_ne_self hpos hgt.le)
        · intro h
          omega
    · -- more is to be retrieved than is readable
      have htotal := @rtcpTotal_signed hi lo (by omega)
      rw [if_pos (by omega), if_neg (by omega)]
      constructor
      · intro h
        cases h
      · intro h
        omega

theorem rtcpBytes_exact (hmark : b.head? = some 36) (hlen : b.length ≤ 2048) :
    rtcpBytes b = .ok (behindPacket b) ↔ PacketExact b := by
  obtain ⟨xs,rfl⟩ : ∃ xs, b = 36 :: xs := by
    cases b with
    | nil => cases hmark
    | cons x xs => exact ⟨xs, by rw [Option.some.inj hmark]⟩
  match xs with
  | [] => exact ⟨fun _ => trivial, fun _ => rfl⟩
  | [_] => exact ⟨fun _ => trivial, fun _ => rfl⟩
  | [_, _] => exact ⟨fun _ => trivial, fun _ => rfl⟩
  | [c, hi, lo] =>
    show Except.ok [36, c, hi, lo] = Except.ok (behindPacket [36, c, hi, lo]) ↔ packetSize hi lo ≠ 4
    have hbehind : behindPacket [36, c, hi, lo] = if packetSize hi lo ≤ 4 then
        [36, c, hi, lo].drop (packetSize hi lo) else [36, c, hi, lo] := rfl
    rw [hbehind]
    by_cases hempty : packetSize hi lo = 4
    · rw [hempty, if_pos le_rfl]
      exact ⟨fun h => (by cases h), fun h => absurd rfl h⟩
    · have hgt : ¬packetSize hi lo ≤ 4 := by
        unfold packetSize at hempty ⊢
        omega
      rw [if_neg hgt]
      exact ⟨fun _ => hempty, fun _ => rfl⟩
  | c :: hi :: lo :: y :: rest => exact rtcpBytes_packet rfl hlen

theorem length_rtcpBytes {b' : Bytes} (h : rtcpBytes b = .ok b') : b'.length ≤ b.length := by
  unfold rtcpBytes at h
  split at h
  · split at h
    · split at h
      · rw [← Except.ok.inj h]
        exact Nat.zero_le _
      · cases h
    · rw [Except.ok.inj h]
  · rw [Except.ok.inj h]

end Packet

section Message
variable {s : RtspInput}

/-- With `$` in front the call is nothing but `handleRtcp`. -/
theorem handleRtspMessage_rtcp (hmark : s.buffer.readable.head? = some 36) :
    handleRtspMessage s = (handleRtcp s.buffer).bind (fun buffer =>
      if maxRtspMessageSize < buffer.readableBytes then
        .ok (⟨{ s.request with method := .RTCP }, buffer.retrieveAll⟩, [])
      else .ok (⟨{ s.request with method := .RTCP }, buffer⟩, [])) := by
  have hpeek : s.buffer.peekAt 0 = .ok 36 := by
    apply s.buffer.peekAt_readable
    rwa [← List.head?_eq_getElem?]
  have hparse : s.request.parseRequest s.buffer =
      .ok (true, { s.request with method := .RTCP }, s.buffer, []) := by
    unfold RtspRequest.parseRequest
    rw [hpeek]
    simp only [bind, Except.bind]
    rw [if_pos trivial]
    rfl
  unfold handleRtspMessage handleRtspRequest
  rw [hparse]
  simp only [bind, Except.bind, pure, Except.pure, Bool.true_eq_false, if_false, if_true]
  cases handleRtcp s.buffer with
  | error f => rfl
  | ok buffer => rfl

theorem handleRtspMessage_iff (hmark : s.buffer.readable.head? = some 36)
    (hlen : s.buffer.readable.length ≤ 2048) (b : Bytes) :
    (∃ s' events, handleRtspMessage s = .ok (s', events) ∧ s'.buffer.readable = b) ↔
      rtcpBytes s.buffer.readable = .ok b := by
  have hrtcp := @handleRtcp_bytes s.buffer
  rw [handleRtspMessage_rtcp hmark]
  cases hb : rtcpBytes s.buffer.readable with
  | error f =>
    rw [hb] at hrtcp
    dsimp only at hrtcp
    rw [hrtcp]
    constructor
    · rintro ⟨s',events,h,_⟩
      cases h
    · intro h
      cases h
  | ok b' =>
    rw [hb] at hrtcp
    obtain ⟨buffer,hok,hread⟩ := hrtcp
    have hshort : ¬maxRtspMessageSize < buffer.readableBytes := by
      have hle := length_rtcpBytes hb
      rw [← Buffer.length_readable, hread, maxRtspMessageSize]
      omega
    rw [hok]
    simp only [Except.bind, if_neg hshort]
    constructor
    · rintro ⟨s',events,h,hs'⟩
      obtain ⟨rfl,_⟩ := Prod.mk.inj (Except.ok.inj h)
      rw [← hs', ← hread]
    · intro h
      exact ⟨_, _, rfl, hread.trans (Except.ok.inj h)⟩

end Message

/-- Of a buffer that begins with interleaved data one call removes the packet, if it is complete, and nothing
otherwise, without retrieving more than is readable, exactly if the buffer is of the kind `PacketExact`. -/
theorem rtcp_consumed (s : RtspInput) (hmark : s.buffer.readable.head? = some 36)
    (hlen : s.buffer.readableBytes ≤ 2048) :
    (∃ s' events, handleRtspMessage s = .ok (s', events) ∧
      s'.buffer.readable = behindPacket s.buffer.readable) ↔ PacketExact s.buffer.readable := by
  rw [← Buffer.length_readable] at hlen
  rw [handleRtspMessage_iff hmark hlen]
  exact rtcpBytes_exact hmark hlen

/-- Any bytes may be in the buffer. -/
theorem exists_input (bytes : Bytes) : ∃ s : RtspInput, s.buffer.readable = bytes := by
  obtain ⟨buffer,_,hread⟩ := Buffer.new.append_ok bytes
  exact ⟨⟨⟨.NONE, .channel_0, .rtpOverTcp, fun _ => none, fun _ => none, .kParseRequestLine⟩, buffer⟩, hread⟩

/-- A packet of one byte that is all there is. -/
theorem rtcp_consumed_alone : ∃ s s' : RtspInput, ∃ events, s.buffer.readable = [36, 0, 0, 1, 7] ∧
    handleRtspMessage s = .ok (s', events) ∧ s'.buffer.readable = [] := by
  obtain ⟨s,hread⟩ := exists_input [36, 0, 0, 1, 7]
  have hlen : s.buffer.readableBytes ≤ 2048 := by
    rw [← Buffer.length_readable, hread]
    decide
  have hexact : PacketExact s.buffer.readable := by
    rw [hread]
    exact Or.inl (by decide)
  obtain ⟨s',events,hok,hs'⟩ := (rtcp_consumed s (by rw [hread]; rfl) hlen).mpr hexact
  rw [hread] at hs'
  exact ⟨s, s', events, hread, hok, hs'⟩

/-- A packet stays where it is if a request follows it, and if one of its bytes is missing, more is retrieved
than is readable. -/
theorem rtcp_consumed_fails :
    (∃ s s' : RtspInput, ∃ events, s.buffer.readable = [36, 0, 0, 1, 7, 79] ∧
      handleRtspMessage s = .ok (s', events) ∧ s'.buffer.readable = [36, 0, 0, 1, 7, 79]) ∧
    ∃ s : RtspInput, s.buffer.readable = [36, 0, 0, 2, 7] ∧ ¬∃ s' events, handleRtspMessage s = .ok (s', events) := by
  constructor
  · obtain ⟨s,hread⟩ := exists_input [36, 0, 0, 1, 7, 79]
    have hmessage := @handleRtspMessage_iff s (by rw [hread]; rfl) (by rw [hread]; decide)
    obtain ⟨s',events,hok,hs'⟩ := (hmessage [36, 0, 0, 1, 7, 79]).mpr (by rw [hread]; rfl)
    exact ⟨s, s', events, hread, hok, hs'⟩
  · obtain ⟨s,hread⟩ := exists_input [36, 0, 0, 2, 7]
    have hmessage := @handleRtspMessage_iff s (by rw [hread]; rfl) (by rw [hread]; decide)
    refine ⟨s, hread, ?_⟩
    rintro ⟨s',events,hok⟩
    have hrtcp := (hmessage s'.buffer.readable).mp ⟨s', events, hok, rfl⟩
    rw [hread] at hrtcp
    cases hrtcp

end IdealServer
