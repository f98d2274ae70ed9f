import IdealServer.H264Source

/-! The accesses of `H264Source::handleFrame` to the packets and to the frame. -/
namespace IdealServer

section FrameBounds
variable {σ : Type}

/-- A callback that is defined on every packet. -/
def returning (f : σ → MediaChannelId → RtpPacket → σ × Bool) : SendFrameCallback σ :=
  fun s channelId pkt => .ok (f s channelId pkt)

theorem sendFrame_returning (f : Option (σ → MediaChannelId → RtpPacket → σ × Bool))
    (channelId : MediaChannelId) (pkt : RtpPacket) (s : σ) :
    ∃ s' ok, sendFrame (f.map returning) channelId pkt s = .ok (s', ok) := by
  cases f with
  | none => exact ⟨s, true, rfl⟩
  | some f => exact ⟨(f s channelId pkt).1, (f s channelId pkt).2, rfl⟩

/-- While the rest of the frame is what `frameSize` counts, the loop comes to its end and stays inside
both arrays. A `frameSize` of `2^32-2` would make its test wrap. -/
theorem sendFragments_in_bounds (alloc : ℕ → PacketData)
    (f : Option (σ → MediaChannelId → RtpPacket → σ × Bool)) (channelId : MediaChannelId)
    (frame : AVFrame) (fuA0 : UInt8) {k frameBuf : ℕ} {frameSize : UInt32} {fuA1 : UInt8} {s : σ}
    (hrest : frameBuf+frameSize.toNat = frame.buffer.length) (hsize : frameSize.toNat < 2^32-2) :
    ∃ r, sendFragments alloc (f.map returning) channelId frame fuA0 k frameBuf frameSize fuA1 s =
      .ok r := by
  have hadd : (frameSize+2).toNat = frameSize.toNat+2 := by
    rw [UInt32.toNat_add]
    simp only [UInt32.reduceToNat]
    omega
  induction hn : frameSize.toNat using Nat.strong_induction_on generalizing k frameBuf frameSize
    fuA1 s with
  | h n ih =>
    by_cases hlarge : maxRtpPayloadSize < frameSize+2
    · have hlt : 1420 < frameSize.toNat+2 := by
        rw [← hadd]
        exact UInt32.lt_iff_toNat_lt.mp hlarge
      have hnext : (frameSize-(maxRtpPayloadSize-2)).toNat = frameSize.toNat-1418 := by
        rw [UInt32.toNat_sub, piece_size]
        omega
      have hread : readBytes frame.buffer frameBuf (maxRtpPayloadSize-2).toNat =
          .ok ((frame.buffer.drop frameBuf).take 1418) := by
        apply readBytes_eq
        rw [piece_size]
        omega
      obtain ⟨d1,d2,d3,h1,h2,h3,_⟩ := write_fragment (alloc k) fuA0 fuA1
        ((frame.buffer.drop frameBuf).take 1418) (List.length_take_le _ _)
      obtain ⟨s1,ok,hsend⟩ := sendFrame_returning f channelId
        ⟨d3, 4+UInt32.ofNat rtpHeaderSize+maxRtpPayloadSize, frame.timestamp, frame.type, 0⟩ s
      rw [sendFragments, dif_pos hlarge]
      simp only [h1, h2, h3, hread, hsend, bind, Except.bind]
      by_cases hok : ok = false
      · exact ⟨(s1, false), if_pos hok⟩
      · rw [if_neg hok]
        have hnextAdd : (frameSize-(maxRtpPayloadSize-2)+2).toNat =
            (frameSize-(maxRtpPayloadSize-2)).toNat+2 := by
          rw [UInt32.toNat_add, hnext]
          simp only [UInt32.reduceToNat]
          omega
        apply ih (frameSize.toNat-1418) (by omega) _ _ hnextAdd hnext
        · rw [hnext, piece_size]
          omega
        · omega
    · have hle : frameSize.toNat ≤ 1418 := by
        rw [UInt32.lt_iff_toNat_lt, hadd] at hlarge
        simp only [maxRtpPayloadSize, UInt32.reduceToNat] at hlarge
        omega
      have hread : readBytes frame.buffer frameBuf frameSize.toNat =
          .ok ((frame.buffer.drop frameBuf).take frameSize.toNat) :=
        readBytes_eq _ _ _ (by omega)
      obtain ⟨d1,d2,d3,h1,h2,h3,_⟩ := write_fragment (alloc k) fuA0 (fuA1 ||| 0x40)
        ((frame.buffer.drop frameBuf).take frameSize.toNat)
        (Nat.le_trans (List.length_take_le _ _) hle)
      obtain ⟨s1,ok,hsend⟩ := sendFrame_returning f channelId
        ⟨d3, 4+UInt32.ofNat rtpHeaderSize+2+frameSize, frame.timestamp, frame.type, 1⟩ s
      rw [sendFragments, dif_neg hlarge]
      simp only [h1, h2, h3, hread, hsend, bind, Except.bind]
      exact ⟨(s1, ok), rfl⟩

/-- The test of the loop is `0 > 1420`, and the rest of the frame is copied into one packet. -/
theorem sendFragments_wrapped (alloc : ℕ → PacketData) (cb : Option (SendFrameCallback σ))
    (channelId : MediaChannelId) (frame : AVFrame) (fuA0 fuA1 : UInt8) (k : ℕ) (s : σ)
    (hrest : frame.buffer.length = 2^32-1) :
    sendFragments alloc cb channelId frame fuA0 k 1 0xFFFFFFFE fuA1 s = .error .outOfBounds := by
  have hstop : ¬maxRtpPayloadSize < 0xFFFFFFFE+2 := by decide
  have hsize : (0xFFFFFFFE:UInt32).toNat = 2^32-2 := rfl
  have hread : readBytes frame.buffer 1 (0xFFFFFFFE:UInt32).toNat =
      .ok ((frame.buffer.drop 1).take (2^32-2)) := by
    rw [readBytes_eq _ _ _ (by omega), hsize]
  obtain ⟨d1,h1⟩ := PacketData.write_ok (alloc k) (rtpHeaderSize+4) [fuA0]
    (by simp [rtpHeaderSize])
  obtain ⟨d2,h2⟩ := PacketData.write_ok d1 (rtpHeaderSize+5) [fuA1 ||| 0x40]
    (by simp [rtpHeaderSize])
  have h3 : d2.write (4+rtpHeaderSize+2) ((frame.buffer.drop 1).take (2^32-2)) =
      .error .outOfBounds := by
    rw [PacketData.write, dif_neg]
    rw [List.length_take, List.length_drop, hrest]
    simp only [rtpHeaderSize]
    omega
  rw [sendFragments, dif_neg hstop]
  simp only [h1, h2, h3, hread, bind, Except.bind]

theorem handleFrame_wrapped (now : UInt32) (alloc : ℕ → PacketData)
    (cb : Option (SendFrameCallback σ)) (channelId : MediaChannelId) (frame : AVFrame) (s : σ)
    (h : frame.size = 0xFFFFFFFF) :
    handleFrame now alloc cb channelId frame s = .error .outOfBounds := by
  have hlen : frame.buffer.length = 2^32-1 := by
    rw [frame.size_eq, h]
    rfl
  have hlarge : ¬frame.size ≤ maxRtpPayloadSize := by
    rw [h]
    decide
  have hpos : 0 < frame.buffer.length := by omega
  have hhead : frame.buffer[0]? = some frame.buffer[0] := List.getElem?_eq_getElem hpos
  have hpred : frame.size-1 = 0xFFFFFFFE := by
    rw [h]
    rfl
  unfold handleFrame
  simp only [frame.stamped_eq now, if_neg hlarge, hhead]
  rw [hpred]
  exact sendFragments_wrapped alloc cb channelId _ _ _ _ _ hlen

/-- With a callback that is defined on every packet, `handleFrame` returns, after finitely many packets
and with every index inside the packet and inside the frame, for every size of a frame but the
largest one. -/
theorem handleFrame_in_bounds_iff (now : UInt32) (alloc : ℕ → PacketData)
    (f : Option (σ → MediaChannelId → RtpPacket → σ × Bool)) (channelId : MediaChannelId)
    (frame : AVFrame) (s : σ) :
    (∃ r, handleFrame now alloc (f.map returning) channelId frame s = .ok r) ↔
      frame.size ≠ 0xFFFFFFFF := by
  have hlen := frame.size_eq
  constructor
  · rintro ⟨r,hr⟩ hsize
    rw [handleFrame_wrapped now alloc _ channelId frame s hsize] at hr
    cases hr
  · intro hsize
    unfold handleFrame
    simp only [frame.stamped_eq now]
    by_cases hle : frame.size ≤ maxRtpPayloadSize
    · have hle' : frame.size.toNat ≤ 1420 := UInt32.le_iff_toNat_le.mp hle
      have hread : readBytes frame.buffer 0 frame.size.toNat = .ok frame.buffer := by
        rw [readBytes_eq _ _ _ (by omega), List.drop_zero, ← hlen, List.take_length]
      obtain ⟨d,hd⟩ := PacketData.write_ok (alloc 0) (4+rtpHeaderSize) frame.buffer
        (by simp only [rtpHeaderSize]; omega)
      obtain ⟨s1,ok,hsend⟩ := sendFrame_returning f channelId
        ⟨d, frame.size+4+UInt32.ofNat rtpHeaderSize, frame.stamp now, frame.type, 1⟩ s
      rw [if_pos hle]
      simp only [hread, hd, hsend, bind, Except.bind]
      exact ⟨(s1, ok), rfl⟩
    · have hlt : 1420 < frame.size.toNat :=
        UInt32.lt_iff_toNat_lt.mp (UInt32.not_le.mp hle)
      have hmax : frame.size.toNat ≠ 2^32-1 := by
        intro h
        apply hsize
        apply UInt32.toNat_inj.mp
        rw [h]
        rfl
      have hbound := frame.size.toNat_lt
      have hpred : (frame.size-1).toNat = frame.size.toNat-1 := by
        rw [UInt32.toNat_sub]
        simp only [UInt32.reduceToNat]
        omega
      have hpos : 0 < frame.buffer.length := by omega
      have hhead : frame.buffer[0]? = some frame.buffer[0] := List.getElem?_eq_getElem hpos
      rw [if_neg hle]
      simp only [hhead]
      apply sendFragments_in_bounds
      · dsimp only
        rw [hpred]
        omega
      · rw [hpred]
        omega

/-- A frame of `2^32-1` bytes. -/
theorem handleFrame_in_bounds_fails :
    ¬∃ r, handleFrame 7 (fun _ => PacketData.zeros) (some (returning (fun n _ _ => (n+1, true))))
      .channel_0 ⟨List.replicate 0xFFFFFFFF 0x65, 0xFFFFFFFF, videoFrameI, 90,
        List.length_replicate⟩ (0:ℕ) = .ok r := by
  rintro ⟨r,hr⟩
  rw [handleFrame_wrapped _ _ _ _ _ _ rfl] at hr
  cases hr

end FrameBounds

end IdealServer
