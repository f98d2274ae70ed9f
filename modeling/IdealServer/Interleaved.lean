import IdealServer.Framing
import IdealServer.OutgoingStream
import IdealServer.ResponseText
import IdealServer.SequenceNumbers

/-! The stream of a connection that carries RTP packets between RTSP responses, and the reader of the
other side. -/
namespace IdealServer

/-- What the reader distinguishes. -/
inductive WireItem
  | interleaved (channel : UInt8) (bytes : Bytes)
  | response (text : Bytes)
deriving DecidableEq, Repr

/-- `'$'` -/
def dollar : UInt8 := 36

namespace WireItem

def encode : WireItem → Bytes
  | .interleaved channel bytes => dollar :: channel :: (ByteOrder.toBE 2 bytes.length ++ bytes)
  | .response text => text

/-- The text of a response goes up to its first empty line. -/
def readText (bs : Bytes) : Option (WireItem × Bytes) :=
  (Search.search (kCRLF ++ kCRLF) bs).map (fun n => (.response (bs.take (n+4)), bs.drop (n+4)))

def readInterleaved : Bytes → Option (WireItem × Bytes)
  | channel :: rest =>
    let n := ByteOrder.ofBE (rest.take 2)
    if 2+n ≤ rest.length then
      some (.interleaved channel ((rest.drop 2).take n), (rest.drop 2).drop n)
    else none
  | [] => none

def read : Bytes → Option (WireItem × Bytes)
  | [] => none
  | b :: rest => if b = dollar then readInterleaved rest else readText (b :: rest)

/-- A text of lines that are not empty, and an empty one. -/
structure IsResponse (text : Bytes) : Prop where
  head : ∀ b ∈ text.head?, b ≠ dollar
  lines : ∃ ls : List Bytes, ls ≠ [] ∧ (∀ l ∈ ls, ¬ kCRLF <:+: l ∧ l ≠ []) ∧
    text = Lines.unlines kCRLF (ls ++ [[]])

theorem reads_interleaved (channel : UInt8) {bytes : Bytes} (hlen : bytes.length < 2^16) :
    Framing.Reads read encode (.interleaved channel bytes) := by
  refine ⟨List.cons_ne_nil _ _, ?_⟩
  intro rest
  have hn : (ByteOrder.toBE 2 bytes.length).length = 2 := ByteOrder.length_toBE 2 _
  have hvalue : ByteOrder.ofBE (ByteOrder.toBE 2 bytes.length) = bytes.length := by
    rw [ByteOrder.ofBE_toBE]
    exact Nat.mod_eq_of_lt hlen
  have hread : read ((interleaved channel bytes).encode ++ rest) =
      readInterleaved (channel :: (ByteOrder.toBE 2 bytes.length ++ bytes ++ rest)) := by
    rw [encode, List.cons_append, read, if_pos rfl, List.cons_append]
  rw [hread, List.append_assoc]
  dsimp only [readInterleaved]
  rw [List.take_left' hn, List.drop_left' hn, hvalue, List.take_left, List.drop_left, if_pos]
  rw [List.length_append, List.length_append, hn]
  omega

theorem reads_response {text : Bytes} (h : IsResponse text) :
    Framing.Reads read encode (.response text) := by
  obtain ⟨ls,hne,hls,htext⟩ := h.lines
  obtain ⟨l,ls',rfl⟩ := List.exists_cons_of_ne_nil hne
  obtain ⟨hl,hlne⟩ := hls l List.mem_cons_self
  have hcons : text ≠ [] := by
    rw [htext, List.cons_append, Lines.unlines_cons]
    exact fun hnil => hlne (List.append_eq_nil_iff.mp (List.append_eq_nil_iff.mp hnil).1).1
  refine ⟨hcons, ?_⟩
  intro rest
  -- the empty line is the first one: none of the lines before it is empty
  have hsearch : Search.search (kCRLF ++ kCRLF) (text ++ rest) =
      some ((Lines.unlines kCRLF ls').length+l.length) := by
    rw [htext]
    exact Lines.search_blank_first (by decide) hl (fun m hm => (hls m (List.mem_cons_of_mem _ hm)).1)
      (fun m hm => (hls m (List.mem_cons_of_mem _ hm)).2)
  have hlength : text.length = (Lines.unlines kCRLF ls').length+l.length+4 := by
    rw [htext, List.cons_append, Lines.unlines_cons, Lines.unlines_append, List.length_append,
      List.length_append, List.length_append]
    show l.length+2+((Lines.unlines kCRLF ls').length+2) = _
    omega
  obtain ⟨b,bs,hb⟩ := List.exists_cons_of_ne_nil hcons
  have hhead : b ≠ dollar := h.head b (by rw [hb]; rfl)
  show read (text ++ rest) = _
  have hread : read (text ++ rest) = readText (text ++ rest) := by
    rw [hb, List.cons_append]
    exact if_neg hhead
  rw [hread, readText, hsearch, Option.map_some, ← hlength, List.take_left, List.drop_left]

end WireItem

/-- The fixed header of an RTP packet, with what follows it and its contributing sources. -/
structure RtpFields where
  version : ℕ
  padding : ℕ
  extension : ℕ
  csrcCount : ℕ
  marker : ℕ
  payloadType : ℕ
  sequenceNumber : ℕ
  timestamp : ℕ
  ssrc : ℕ
  payload : Bytes
deriving DecidableEq, Repr

def RtpFields.read : Bytes → Option RtpFields
  | b0 :: b1 :: rest =>
    if 10 ≤ rest.length then
      some {
        version := b0.toNat/64
        padding := b0.toNat/32%2
        extension := b0.toNat/16%2
        csrcCount := b0.toNat%16
        marker := b1.toNat/128
        payloadType := b1.toNat%128
        sequenceNumber := ByteOrder.ofBE (rest.take 2)
        timestamp := ByteOrder.ofBE ((rest.drop 2).take 4)
        ssrc := ByteOrder.ofBE ((rest.drop 6).take 4)
        payload := rest.drop (10+4*(b0.toNat%16)) }
    else none
  | _ => none

/-- What the reader finds in the image of a header in memory. -/
theorem RtpFields.read_header (h : RtpHeader) (payload : Bytes) (hcc : h.cc = 0) :
    RtpFields.read (h.bytes ++ payload) = some {
      version := h.version.toNat
      padding := h.padding.toNat
      extension := h.extension.toNat
      csrcCount := 0
      marker := h.marker.toNat
      payloadType := h.payload.toNat
      sequenceNumber := ByteOrder.ofBE (ByteOrder.toLE 2 h.seq.toNat)
      timestamp := ByteOrder.ofBE (ByteOrder.toLE 4 h.ts.toNat)
      ssrc := ByteOrder.ofBE (ByteOrder.toLE 4 h.ssrc.toNat)
      payload := payload } := by
  have hversion := h.version.isLt
  have hpadding := h.padding.isLt
  have hextension := h.extension.isLt
  have hpayload := h.payload.isLt
  have hmarker := h.marker.isLt
  have hzero : h.cc.toNat = 0 := by rw [hcc]; rfl
  have h0 : (UInt8.ofNat (h.cc.toNat+16*h.extension.toNat+32*h.padding.toNat+64*h.version.toNat)).toNat =
      16*h.extension.toNat+32*h.padding.toNat+64*h.version.toNat := by
    rw [UInt8.toNat_ofNat', hzero]
    omega
  have h1 : (UInt8.ofNat (h.payload.toNat+128*h.marker.toNat)).toNat =
      h.payload.toNat+128*h.marker.toNat := by
    rw [UInt8.toNat_ofNat']
    omega
  have hl2 : (ByteOrder.toLE 2 h.seq.toNat).length = 2 := ByteOrder.length_toLE 2 _
  have hl4 (x : ℕ) : (ByteOrder.toLE 4 x).length = 4 := ByteOrder.length_toLE 4 x
  unfold RtpHeader.bytes
  dsimp only [List.cons_append, RtpFields.read]
  rw [h0, h1]
  generalize ByteOrder.toLE 2 h.seq.toNat = seq at hl2
  have hts := hl4 h.ts.toNat
  generalize ByteOrder.toLE 4 h.ts.toNat = ts at hts
  have hssrc := hl4 h.ssrc.toNat
  generalize ByteOrder.toLE 4 h.ssrc.toNat = ssrc at hssrc
  have hlen : 10 ≤ (seq ++ ts ++ ssrc ++ payload).length := by
    simp only [List.length_append]
    omega
  have hseq : (seq ++ ts ++ ssrc ++ payload).take 2 = seq := by
    rw [List.append_assoc, List.append_assoc, List.take_left' hl2]
  have hd2 : (seq ++ ts ++ ssrc ++ payload).drop 2 = ts ++ (ssrc ++ payload) := by
    rw [List.append_assoc, List.append_assoc, List.drop_left' hl2]
  have hd6 : (seq ++ ts ++ ssrc ++ payload).drop 6 = ssrc ++ payload := by
    rw [show 6 = 2+4 from rfl, ← List.drop_drop, hd2, List.drop_left' hts]
  have hd10 : (seq ++ ts ++ ssrc ++ payload).drop 10 = payload := by
    rw [show 10 = 6+4 from rfl, ← List.drop_drop, hd6, List.drop_left' hssrc]
  have hcount : (16*h.extension.toNat+32*h.padding.toNat+64*h.version.toNat)%16 = 0 := by omega
  rw [if_pos hlen, hcount, hseq, hd2, hd6, hd10, List.take_left' hts, List.take_left' hssrc]
  congr 2 <;> omega

/-- The responses without a body; the handlers build them in arrays of 1024 bytes. -/
inductive Response
  | option (r : RtspRequest)
  | setupTcp (r : RtspRequest) (rtpChn rtcpChn : UInt16) (sessionId : UInt32)
  | play (r : RtspRequest) (sessionId : UInt32)
  | getParamter (r : RtspRequest) (sessionId : UInt32)

def Response.text : Response → Bytes
  | .option r => r.buildOptionRes 1024
  | .setupTcp r rtpChn rtcpChn sessionId => r.buildSetupTcpRes 1024 rtpChn rtcpChn sessionId
  | .play r sessionId => r.buildPlayRes 1024 none sessionId
  | .getParamter r sessionId => r.buildGetParamterRes 1024 sessionId

section Responses

theorem length_printU {n : ℕ} (h : n < 2^32) : (printU n).length ≤ 10 :=
  Numeral.length_decimal_le (by omega) (by omega)

theorem length_printD (x : UInt32) : (printD x).length ≤ 11 := by
  have hx := x.toNat_lt
  unfold printD
  split
  · exact (length_printU (by omega)).trans (by omega)
  · have h := @length_printU (2^32-x.toNat) (by omega)
    rw [List.length_cons]
    exact Nat.succ_le_succ h

/-- The lines of a successful response without a body are read as a response. -/
theorem isResponse_build {q : RtspRequest} {resp : ServerResponse}
    (hok : resp.status = ascii "RTSP/1.0 200 OK") (hbody : resp.body = []) (hown : resp.OwnHeader)
    (hfit : (resp.text q).length < 1024) : WireItem.IsResponse (resp.build q 1024) := by
  have htext : resp.build q 1024 = Lines.unlines kCRLF (resp.headers q ++ [[]]) := by
    rw [ServerResponse.build_text hfit, ServerResponse.text, hbody, List.append_nil]
  refine ⟨?_, resp.headers q, List.cons_ne_nil _ _, ?_, htext⟩
  · intro b hb
    have hhead : (resp.build q 1024).head? = some 82 := by
      rw [htext, ServerResponse.headers, hok]
      rfl
    rw [hhead] at hb
    obtain rfl := Option.some.inj hb
    decide
  · intro l hl
    obtain ⟨hne,hunbroken⟩ := ServerResponse.headers_unbroken hown l hl
    exact ⟨hunbroken, hne⟩

theorem isResponse_text (res : Response) : WireItem.IsResponse res.text := by
  have hcseq (r : RtspRequest) := length_printU r.getCSeq.toNat_lt
  have hsigned (r : RtspRequest) := length_printD r.getCSeq
  have hchn (chn : UInt16) := @length_printU chn.toNat (by have := chn.toNat_lt; omega)
  have hid (sessionId : UInt32) := length_printU sessionId.toNat_lt
  have hok : (ascii "RTSP/1.0 200 OK").length = 15 := by simp [ascii]
  have hname : (ascii "CSeq: ").length = 6 := by simp [ascii]
  have hpublic : (ascii "Public: OPTIONS, DESCRIBE, SETUP, TRARDOWN, PLAT").length = 48 := by simp [ascii]
  have htransport : (ascii "Transport: RTP/AVP/TCP;unicast;interleaved=").length = 43 := by simp [ascii]
  have hdash : (ascii "-").length = 1 := by simp [ascii]
  have hsession : (ascii "Session: ").length = 9 := by simp [ascii]
  have hrange : (ascii "Range: npt=0.000-").length = 17 := by simp [ascii]
  have htimeout : (ascii "; timeout=60").length = 12 := by simp [ascii]
  have hcrlf : kCRLF.length = 2 := rfl
  cases res with
  | option r =>
    have hc := hcseq r
    apply @isResponse_build r .option rfl rfl trivial
    simp [ServerResponse.text, ServerResponse.headers, ServerResponse.status,
      ServerResponse.printCSeq, ServerResponse.signed, ServerResponse.fields, ServerResponse.body,
      hok, hname, hpublic, hcrlf]
    omega
  | setupTcp r rtpChn rtcpChn sessionId =>
    have hc := hcseq r
    have hrtp := hchn rtpChn
    have hrtcp := hchn rtcpChn
    have hi := hid sessionId
    apply @isResponse_build r (.setupTcp rtpChn rtcpChn sessionId) rfl rfl trivial
    simp [ServerResponse.text, ServerResponse.headers, ServerResponse.status,
      ServerResponse.printCSeq, ServerResponse.signed, ServerResponse.fields,
      ServerResponse.sessionField, ServerResponse.body, hok, hname, htransport, hdash, hsession, hcrlf]
    omega
  | play r sessionId =>
    have hc := hsigned r
    have hi := hid sessionId
    apply @isResponse_build r (.play none sessionId) rfl rfl trivial
    simp [ServerResponse.text, ServerResponse.headers, ServerResponse.status,
      ServerResponse.printCSeq, ServerResponse.signed, ServerResponse.fields,
      ServerResponse.sessionField, ServerResponse.body, hok, hname, hrange, hsession, htimeout, hcrlf]
    omega
  | getParamter r sessionId =>
    have hc := hsigned r
    have hi := hid sessionId
    apply @isResponse_build r (.getParamter sessionId) rfl rfl trivial
    simp [ServerResponse.text, ServerResponse.headers, ServerResponse.status,
      ServerResponse.printCSeq, ServerResponse.signed, ServerResponse.fields,
      ServerResponse.sessionField, ServerResponse.body, hok, hname, hsession, hcrlf]
    omega

end Responses

/-- What the constructor writes into a header and nothing changes afterwards. -/
structure RtpHeader.Fixed (h : RtpHeader) (ssrc : UInt32) : Prop where
  cc : h.cc = 0
  extension : h.extension = 0
  padding : h.padding = 0
  version : h.version = rtpVersion
  ssrc : h.ssrc = htonl ssrc

namespace RtpConnection
variable {s s' : RtpConnection} {ssrc : MediaChannelId → UInt32} {c d : MediaChannelId}

def Fixed (s : RtpConnection) (ssrc : MediaChannelId → UInt32) : Prop :=
  s.tcpConn.isSome = true ∧ ∀ c, (s.mediaChannelInfo c).rtpHeader.Fixed (ssrc c)

theorem fixed_new (mem : RtpConnection) (tcpConn : TcpHandle) (rd : MediaChannelId → ℕ → UInt32) :
    (new mem tcpConn rd).Fixed (fun c => rd c 2) := ⟨rfl, fun _ => ⟨rfl, rfl, rfl, rfl, rfl⟩⟩

theorem Fixed.setInfo (h : s.Fixed ssrc) {f : MediaChannelInfo → MediaChannelInfo}
    (hf : ∀ i, i.rtpHeader.Fixed (ssrc d) → (f i).rtpHeader.Fixed (ssrc d)) :
    (s.setInfo d f).Fixed ssrc := by
  refine ⟨h.1, ?_⟩
  intro c
  rw [setInfo_mediaChannelInfo]
  by_cases hd : c = d
  · rw [hd, Function.update_self]
    exact hf _ (h.2 d)
  · rw [Function.update_of_ne hd]
    exact h.2 c

theorem Fixed.setFrameType (h : s.Fixed ssrc) (frameType : UInt8) :
    (s.setFrameType frameType).Fixed ssrc := by
  refine ⟨?_, ?_⟩
  · rw [setFrameType_tcpConn]
    exact h.1
  · intro c
    rw [setFrameType_mediaChannelInfo]
    exact h.2 c

theorem Fixed.afterHeader (h : s.Fixed ssrc) (pkt : RtpPacket) : (s.afterHeader d pkt).Fixed ssrc := by
  apply h.setInfo
  intro i _
  exact ⟨(h.2 d).cc, (h.2 d).extension, (h.2 d).padding, (h.2 d).version, (h.2 d).ssrc⟩

theorem Fixed.teardown (h : s.Fixed ssrc) : s.teardown.Fixed ssrc := by
  unfold RtpConnection.teardown
  split
  · exact h
  · exact ⟨h.1, h.2⟩

theorem Fixed.sendRtpPacketInLoop (h : s.Fixed ssrc) {pkt : RtpPacket} {ret : ℤ} {calls : List Call}
    (hs : s.sendRtpPacketInLoop d pkt ret = .ok (s', calls)) : s'.Fixed ssrc := by
  have hafter := (h.setFrameType pkt.type).afterHeader (d := d) pkt
  rcases sendRtpPacketInLoop_cases s d hs with ⟨_,rfl,_⟩ | ⟨_,data,_,⟨_,rfl,_⟩ | ⟨_,r,hr,rfl,_⟩⟩
  · exact h.setFrameType pkt.type
  · exact hafter
  · rcases (sendRtpOverUdp_calls _ d hr).1 with hsame | hdown
    · rw [hsame]
      exact hafter
    · rw [hdown]
      exact hafter.teardown

theorem Fixed.setupRtpOverUdp (h : s.Fixed ssrc) (a b : UInt16) (attempt : ℕ → UdpAttempt) :
    (s.setupRtpOverUdp d a b attempt).2.1.Fixed ssrc := by
  obtain ⟨tcp,htcp⟩ := Option.isSome_iff_exists.mp h.1
  rw [setupRtpOverUdp_open s d a b attempt htcp]
  have hbefore : (s.beforeBind d tcp a b).Fixed ssrc :=
    Fixed.setInfo (show Fixed { s with peerAddr := tcp.peer } ssrc from h) (fun _ hi => hi)
  have hloop : (bindLoop d attempt 10 0 (s.beforeBind d tcp a b)).2.1.Fixed ssrc := by
    obtain ⟨p,q,x,y,hframe⟩ := bindLoop_frame (s.beforeBind d tcp a b) d attempt 10 0
    rw [hframe]
    exact hbefore
  dsimp only
  split
  · exact Fixed.setInfo (show Fixed { (bindLoop d attempt 10 0 (s.beforeBind d tcp a b)).2.1 with
      peerRtpAddr := _, peerRtcpAddr := _, transportMode := .rtpOverUdp } ssrc from hloop)
      (fun _ hi => hi)
  · exact hloop

theorem Fixed.step (h : s.Fixed ssrc) {op : RtpOp} {calls : List Call}
    (hs : s.step op = .ok (s', calls)) : s'.Fixed ssrc := by
  cases op with
  | sendRtpPacketInLoop d pkt ret => exact h.sendRtpPacketInLoop hs
  | setClockRate d r =>
    obtain ⟨rfl,_⟩ := Prod.mk.inj (Except.ok.inj hs)
    exact h.setInfo (fun _ hi => hi)
  | setPayloadType d p =>
    obtain ⟨rfl,_⟩ := Prod.mk.inj (Except.ok.inj hs)
    exact h.setInfo (fun _ hi => ⟨hi.cc, hi.extension, hi.padding, hi.version, hi.ssrc⟩)
  | setupRtpOverTcp d a b =>
    obtain ⟨rfl,_⟩ := Prod.mk.inj (Except.ok.inj hs)
    unfold RtpConnection.setupRtpOverTcp
    split
    · exact h
    · have hset : (s.setInfo d (fun i =>
          { i with rtpChannel := a, rtcpChannel := b, isSetup := true })).Fixed ssrc :=
        h.setInfo (fun _ hi => hi)
      exact ⟨hset.1, hset.2⟩
  | setupRtpOverUdp d a b attempt =>
    have hu := h.setupRtpOverUdp (d := d) a b attempt
    rw [Except.ok.inj hs] at hu
    exact hu
  | play =>
    obtain ⟨rfl,_⟩ := Prod.mk.inj (Except.ok.inj hs)
    refine ⟨h.1, fun c => ?_⟩
    dsimp only [RtpConnection.play]
    split
    · exact h.2 c
    · exact h.2 c
  | record =>
    obtain ⟨rfl,_⟩ := Prod.mk.inj (Except.ok.inj hs)
    refine ⟨h.1, fun c => ?_⟩
    dsimp only [RtpConnection.record]
    split
    · exact h.2 c
    · exact h.2 c
  | teardown =>
    obtain ⟨rfl,_⟩ := Prod.mk.inj (Except.ok.inj hs)
    exact h.teardown

/-- The two bytes of the length are in network order. -/
theorem length_bytes (x : UInt32) :
    [((x &&& 0xFF00) >>> 8).toUInt8, (x &&& 0xFF).toUInt8] = ByteOrder.toBE 2 x.toNat := by
  have hhigh : ((x &&& 0xFF00) >>> 8).toUInt8 = UInt8.ofNat (x.toNat/256) := by
    apply UInt8.toNat_inj.mp
    rw [UInt8.toNat_ofNat', UInt32.toNat_toUInt8, UInt32.toNat_shiftRight, UInt32.toNat_and,
      Nat.shiftRight_and_distrib]
    show (x.toNat >>> 8 &&& 2^8-1)%2^8 = x.toNat/256%2^8
    rw [Nat.and_two_pow_sub_one_eq_mod, Nat.shiftRight_eq_div_pow, Nat.mod_mod]
  have hlow : (x &&& 0xFF).toUInt8 = UInt8.ofNat x.toNat := by
    apply UInt8.toNat_inj.mp
    rw [UInt8.toNat_ofNat', UInt32.toNat_toUInt8, UInt32.toNat_and]
    show (x.toNat &&& 2^8-1)%2^8 = x.toNat%2^8
    rw [Nat.and_two_pow_sub_one_eq_mod, Nat.mod_mod]
  rw [hhigh, hlow]
  rfl

/-- The packet as it stands behind the four bytes of its head. -/
def image (s : RtpConnection) (c : MediaChannelId) (pkt : RtpPacket) : Bytes :=
  (s.nextHeader c pkt).bytes ++ pkt.payload

theorem length_image {pkt : RtpPacket} (hmin : 16 ≤ pkt.size.toNat) (hmax : pkt.size.toNat ≤ 1600) :
    (s.image c pkt).length = pkt.size.toNat-4 := by
  rw [image, List.length_append, RtpHeader.length_bytes, RtpPacket.payload, List.length_take,
    List.length_drop, pkt.data.size_eq]
  show 12+min (pkt.size.toNat-(4+12)) (1600-(4+12)) = _
  omega

/-- The message of `sendRtpOverTcp`. -/
theorem sendRtpOverTcp_message {tcp : TcpHandle} (htcp : s'.tcpConn = some tcp) {pkt : RtpPacket}
    {data : PacketData} (hmin : 16 ≤ pkt.size.toNat) (hmax : pkt.size.toNat ≤ 1600)
    (hdata : pkt.data.write rtpTcpHeadSize (s.nextHeader c pkt).bytes = .ok data) :
    s'.sendRtpOverTcp c { pkt with data := data } = .ok (pkt.size.toNat,
      [.send tcp.name (WireItem.encode (.interleaved (s'.mediaChannelInfo c).rtpChannel.toUInt8
        (s.image c pkt)))]) := by
  have hsub : (pkt.size-4).toNat = pkt.size.toNat-4 := by
    rw [UInt32.toNat_sub]
    simp only [UInt32.reduceToNat]
    have := pkt.size.toNat_lt
    omega
  have hhead := length_bytes (pkt.size-4)
  rw [hsub] at hhead
  unfold sendRtpOverTcp
  rw [htcp]
  dsimp only
  rw [hhead]
  have hlen : (36 :: (s'.mediaChannelInfo c).rtpChannel.toUInt8 ::
      ByteOrder.toBE 2 (pkt.size.toNat-4)).length = 4 := by
    rw [List.length_cons, List.length_cons, ByteOrder.length_toBE]
  generalize hsrc : 36 :: (s'.mediaChannelInfo c).rtpChannel.toUInt8 ::
    ByteOrder.toBE 2 (pkt.size.toNat-4) = src at hlen
  obtain ⟨whole,hwhole⟩ := PacketData.write_ok data 0 src (by omega)
  have hbytes := (PacketData.write_bytes hwhole).2
  have hrest := PacketData.write_drop hdata
  have hheader := RtpHeader.length_bytes (s.nextHeader c pkt)
  have hread : readBytes whole.bytes 0 pkt.size.toNat = .ok (src ++ s.image c pkt) := by
    rw [readBytes_eq _ _ _ (by rw [whole.size_eq]; omega), List.drop_zero, hbytes, List.take_zero,
      List.nil_append, hlen, Nat.zero_add, show 4 = rtpTcpHeadSize from rfl, hrest, hheader]
    rw [List.take_append, List.take_of_length_le (by omega), hlen, List.take_append,
      List.take_of_length_le (by rw [hheader]; show 12 ≤ _; omega), hheader]
    show _ = Except.ok (src ++ ((s.nextHeader c pkt).bytes ++ _))
    rw [RtpPacket.payload, Nat.sub_sub]
    rfl
  rw [hwhole]
  show (readBytes whole.bytes 0 pkt.size.toNat >>= _) = _
  rw [hread]
  show Except.ok _ = _
  rw [← hsrc, WireItem.encode, length_image hmin hmax]
  rfl

theorem ofBE_htonl (x : UInt32) : ByteOrder.ofBE (ByteOrder.toLE 4 (htonl x).toNat) = x.toNat := by
  have hlt : ByteOrder.swap 4 x.toNat < 2^32 := ByteOrder.swap_lt 4 x.toNat
  have hx : x.toNat < 256^4 := x.toNat_lt
  rw [htonl, UInt32.toNat_ofNat', Nat.mod_eq_of_lt hlt, ByteOrder.toLE_swap, ByteOrder.ofBE_toBE,
    Nat.mod_eq_of_lt hx]

/-- The fields that the reader finds in a packet. -/
theorem read_image (h : s.Fixed ssrc) (c : MediaChannelId) (pkt : RtpPacket) :
    RtpFields.read (s.image c pkt) = some {
      version := 2
      padding := 0
      extension := 0
      csrcCount := 0
      marker := pkt.last.toNat%2
      payloadType := (s.mediaChannelInfo c).rtpHeader.payload.toNat
      sequenceNumber := (s.packetSeq c).toNat
      timestamp := pkt.timestamp.toNat
      ssrc := (ssrc c).toNat
      payload := pkt.payload } := by
  have hfixed := h.2 c
  have hcc : (s.nextHeader c pkt).cc = 0 := hfixed.cc
  rw [image, RtpFields.read_header _ _ hcc]
  unfold nextHeader
  dsimp only
  rw [hfixed.version, hfixed.padding, hfixed.extension, hfixed.ssrc, ofBE_htons, ofBE_htonl, ofBE_htonl,
    BitVec.toNat_ofNat]
  rfl

end RtpConnection

/-- An RTP packet with the number assigned to it, or a response. -/
inductive Sent
  | rtp (channelId : MediaChannelId) (pkt : RtpPacket) (seq : UInt16)
  | response (res : Response)

inductive WireOutput
  | effect (e : TcpEffect)
  | sent (x : Sent)

/-- An `RtspConnection` that plays, with its `TcpConnection`. -/
structure WireState where
  rtp : RtpConnection
  tcp : TcpConnection

/-- What the loop thread does, and what `write(2)` answers. -/
inductive WireEvent
  | sendRtpPacket (channelId : MediaChannelId) (pkt : RtpPacket) (w : SysWrite)
  | sendMessage (res : Response) (w : SysWrite)
  | handleWrite (w : SysWrite)

namespace WireState

/-- `TcpConnection::send` on the loop thread. -/
def send (tcp : TcpConnection) (message : Bytes) (w : SysWrite) :
    Except Fault (TcpConnection × List TcpEffect) :=
  if tcp.state = .kConnected then tcp.sendInLoop message w else .ok (tcp, [])

/-- The same for the message of each call. -/
def sendCalls (tcp : TcpConnection) (w : SysWrite) :
    List Call → Except Fault (TcpConnection × List TcpEffect)
  | [] => .ok (tcp, [])
  | .send _ message :: calls => do
    let (tcp, effects) ← send tcp message w
    let (tcp, more) ← sendCalls tcp w calls
    return (tcp, effects ++ more)
  | _ :: calls => sendCalls tcp w calls

def step (s : WireState) : WireEvent → Except Fault (WireState × List WireOutput)
  | .sendRtpPacket c pkt w => do
    let (rtp, calls) ← s.rtp.sendRtpPacketInLoop c pkt 0
    let (tcp, effects) ← sendCalls s.tcp w calls
    -- a packet that is discarded is not sent
    let sent :=
      if (s.rtp.setFrameType pkt.type).canSend c then [WireOutput.sent (.rtp c pkt (s.rtp.packetSeq c))]
      else []
    return (⟨rtp, tcp⟩, effects.map WireOutput.effect ++ sent)
  | .sendMessage res w => do
    let (tcp, effects) ← send s.tcp res.text w
    return ({ s with tcp := tcp }, effects.map WireOutput.effect ++ [.sent (.response res)])
  | .handleWrite w => do
    let (tcp, effects) ← s.tcp.handleWrite w
    return ({ s with tcp := tcp }, effects.map WireOutput.effect)

def run : WireState → List WireEvent → Except Fault (WireState × List WireOutput) := Runs.run step

end WireState

/-- What an event asks to send, and what was sent. -/
def WireEvent.message : WireEvent → Option ((MediaChannelId × RtpPacket) ⊕ Response)
  | .sendRtpPacket c pkt _ => some (.inl (c, pkt))
  | .sendMessage res _ => some (.inr res)
  | .handleWrite _ => none

def Sent.message : Sent → (MediaChannelId × RtpPacket) ⊕ Response
  | .rtp c pkt _ => .inl (c, pkt)
  | .response res => .inr res

def effectsOf (out : List WireOutput) : List TcpEffect :=
  out.filterMap (fun o =>
    match o with
    | .effect e => some e
    | .sent _ => none)

def sentOf (out : List WireOutput) : List Sent :=
  out.filterMap (fun o =>
    match o with
    | .effect _ => none
    | .sent x => some x)

/-- The channel of an interleaved number. -/
def RtpConnection.channelOf (s : RtpConnection) (channel : UInt8) : Option MediaChannelId :=
  mediaChannels.find? (fun c => (s.mediaChannelInfo c).rtpChannel.toNat = channel.toNat)

/-- What the reader recovers is what was sent. `last` has one bit in the header. -/
def Recovers (s : RtpConnection) (ssrc : MediaChannelId → UInt32) : Sent → WireItem → Prop
  | .rtp c pkt seq, .interleaved channel bytes => s.channelOf channel = some c ∧ ∃ f,
    RtpFields.read bytes = some f ∧ f.version = 2 ∧ f.padding = 0 ∧ f.extension = 0 ∧ f.csrcCount = 0 ∧
      f.marker = pkt.last.toNat%2 ∧ (pkt.last ≤ 1 → f.marker = pkt.last.toNat) ∧
      f.payloadType = (s.mediaChannelInfo c).rtpHeader.payload.toNat ∧
      f.sequenceNumber = seq.toNat ∧ f.timestamp = pkt.timestamp.toNat ∧
      f.ssrc = (ssrc c).toNat ∧ f.payload = pkt.payload
  | .response res, .response text => text = res.text
  | _, _ => False

section Streams
variable {s0 : RtpConnection} {ssrc : MediaChannelId → UInt32}

@[simp] theorem effectsOf_append (a b : List WireOutput) :
    effectsOf (a ++ b) = effectsOf a ++ effectsOf b := List.filterMap_append

@[simp] theorem sentOf_append (a b : List WireOutput) :
    sentOf (a ++ b) = sentOf a ++ sentOf b := List.filterMap_append

@[simp] theorem effectsOf_effects (effects : List TcpEffect) :
    effectsOf (effects.map WireOutput.effect) = effects := by
  rw [effectsOf, List.filterMap_map]
  exact List.filterMap_some

@[simp] theorem sentOf_effects (effects : List TcpEffect) :
    sentOf (effects.map WireOutput.effect) = [] := by
  rw [sentOf, List.filterMap_map, List.filterMap_eq_nil_iff]
  intro e _
  rfl

/-- What the sends of a stream do not change. -/
structure SameChannels (s0 s : RtpConnection) (ssrc : MediaChannelId → UInt32) : Prop where
  fixed : s.Fixed ssrc
  mode : s.transportMode = .rtpOverTcp
  channel : ∀ c, (s.mediaChannelInfo c).rtpChannel = (s0.mediaChannelInfo c).rtpChannel
  payload : ∀ c, (s.mediaChannelInfo c).rtpHeader.payload = (s0.mediaChannelInfo c).rtpHeader.payload
  plays : ∀ c, (s.mediaChannelInfo c).isPlay = true
  gate : s0.hasIDRFrame = true → s.hasIDRFrame = true

theorem SameChannels.setFrameType {s : RtpConnection} (h : SameChannels s0 s ssrc) (t : UInt8) :
    SameChannels s0 (s.setFrameType t) ssrc := by
  refine ⟨h.fixed.setFrameType t, ?_, ?_, ?_, ?_, ?_⟩
  · rw [RtpConnection.setFrameType_transportMode]
    exact h.mode
  · rw [RtpConnection.setFrameType_mediaChannelInfo]
    exact h.channel
  · rw [RtpConnection.setFrameType_mediaChannelInfo]
    exact h.payload
  · rw [RtpConnection.setFrameType_mediaChannelInfo]
    exact h.plays
  · intro h0
    unfold RtpConnection.setFrameType
    dsimp only
    split
    · rfl
    · exact h.gate h0

theorem SameChannels.canSend {s : RtpConnection} (h : SameChannels s0 s ssrc)
    (h0 : s0.hasIDRFrame = true) (c : MediaChannelId) : s.canSend c = true := by
  rw [RtpConnection.canSend, h.plays c, h.gate h0]
  rfl

theorem SameChannels.afterHeader {s : RtpConnection} (h : SameChannels s0 s ssrc) (c : MediaChannelId)
    (pkt : RtpPacket) : SameChannels s0 (s.afterHeader c pkt) ssrc := by
  refine ⟨h.fixed.afterHeader pkt, h.mode, ?_, ?_, ?_, h.gate⟩
  · intro d
    rw [← h.channel d, RtpConnection.afterHeader, RtpConnection.setInfo_mediaChannelInfo]
    by_cases hd : d = c
    · rw [hd, Function.update_self]
    · rw [Function.update_of_ne hd]
  · intro d
    rw [← h.payload d, RtpConnection.afterHeader, RtpConnection.setInfo_mediaChannelInfo]
    by_cases hd : d = c
    · rw [hd, Function.update_self]
      rfl
    · rw [Function.update_of_ne hd]
  · intro d
    rw [← h.plays d, RtpConnection.afterHeader, RtpConnection.setInfo_mediaChannelInfo]
    by_cases hd : d = c
    · rw [hd, Function.update_self]
    · rw [Function.update_of_ne hd]

/-- What `sendRtpPacketInLoop` hands to the connection. -/
theorem sendRtpPacketInLoop_message {s : RtpConnection} (h : SameChannels s0 s ssrc)
    (c : MediaChannelId) {pkt : RtpPacket} (hmin : 16 ≤ pkt.size.toNat)
    (hmax : pkt.size.toNat ≤ 1600) : ∃ s' calls, s.sendRtpPacketInLoop c pkt 0 = .ok (s', calls) ∧
      SameChannels s0 s' ssrc ∧
      if (s.setFrameType pkt.type).canSend c = true then ∃ q n, calls = [.overTcp c q, .send n
        (WireItem.encode (.interleaved (s0.mediaChannelInfo c).rtpChannel.toUInt8
          ((s.setFrameType pkt.type).image c pkt)))]
      else calls = [] := by
  have hframe := h.setFrameType pkt.type
  have hafter := hframe.afterHeader c pkt
  obtain ⟨⟨s',calls⟩,hrun⟩ := RtpConnection.sendRtpPacketInLoop_ok s c pkt 0 (by omega) hmax
  refine ⟨s', calls, hrun, ?_⟩
  rcases RtpConnection.sendRtpPacketInLoop_cases s c hrun with ⟨hgate,rfl,rfl⟩ |
    ⟨hgate,data,hdata,⟨_,rfl,r,hr,rfl⟩ | ⟨hmode,_⟩⟩
  · exact ⟨hframe, by rw [if_neg (by rw [hgate]; exact Bool.false_ne_true)]⟩
  · refine ⟨hafter, ?_⟩
    rw [if_pos hgate]
    obtain ⟨tcp,htcp⟩ := Option.isSome_iff_exists.mp hafter.fixed.1
    have hmessage := RtpConnection.sendRtpOverTcp_message htcp hmin hmax hdata
    obtain rfl := Except.ok.inj (hr.symm.trans hmessage)
    rw [hafter.channel c]
    exact ⟨_, _, rfl⟩
  · exact absurd h.mode hmode

/-- No write fails on a closed connection, and every packet has room for its headers. -/
def WireEvent.Fits : WireEvent → Prop
  | .sendRtpPacket _ pkt w => 16 ≤ pkt.size.toNat ∧ pkt.size.toNat ≤ 1600 ∧
    w ≠ .failed EPIPE ∧ w ≠ .failed ECONNRESET
  | .sendMessage _ w => w ≠ .failed EPIPE ∧ w ≠ .failed ECONNRESET
  | .handleWrite _ => True

theorem send_stream {tcp : TcpConnection} (hs : tcp.Synced) (hstate : tcp.state = .kConnected)
    (message : Bytes) {w : SysWrite} (hpipe : w ≠ .failed EPIPE) (hreset : w ≠ .failed ECONNRESET) :
    ∃ tcp' effects, WireState.send tcp message w = .ok (tcp', effects) ∧ tcp'.Synced ∧
      tcp'.state = .kConnected ∧ written effects ++ tcp'.outputBuffer.readable =
        tcp.outputBuffer.readable ++ message := by
  have hopen : tcp.state ≠ .kDisconnected := by
    rw [hstate]
    exact fun h => by cases h
  obtain ⟨tcp',effects,hsend,hs',hstate',hstream⟩ := tcp.sendInLoop_stream hs hopen message w
  refine ⟨tcp', effects, ?_, hs', hstate'.trans hstate, ?_⟩
  · rw [WireState.send, if_pos hstate, hsend]
  · have hkeeps : ¬ tcp.dropsMessage w = true := by
      rw [TcpConnection.dropsMessage, Bool.and_eq_true, Bool.or_eq_true, decide_eq_true_iff,
        decide_eq_true_iff]
      exact fun h => h.2.elim hpipe hreset
    rw [hstream, if_neg hkeeps]

/-- The stream so far is made of the items that were sent so far. -/
structure Streamed (s0 : RtpConnection) (ssrc : MediaChannelId → UInt32) (s : WireState)
    (out : List WireOutput) : Prop where
  synced : s.tcp.Synced
  connected : s.tcp.state = .kConnected
  channels : SameChannels s0 s.rtp ssrc
  stream : ∃ items, written (effectsOf out) ++ s.tcp.outputBuffer.readable =
      items.flatMap WireItem.encode ∧
    (∀ i ∈ items, Framing.Reads WireItem.read WireItem.encode i) ∧
    List.Forall₂ (Recovers s0 ssrc) (sentOf out) items

/-- One more item at the end of the stream. -/
theorem Streamed.append {s : WireState} {out : List WireOutput} (h : Streamed s0 ssrc s out)
    {rtp : RtpConnection} {tcp : TcpConnection} {effects : List TcpEffect} {x : Sent} {i : WireItem}
    (hsynced : tcp.Synced) (hconnected : tcp.state = .kConnected) (hchannels : SameChannels s0 rtp ssrc)
    (hstream : written effects ++ tcp.outputBuffer.readable =
      s.tcp.outputBuffer.readable ++ i.encode)
    (hreads : Framing.Reads WireItem.read WireItem.encode i) (hrecovers : Recovers s0 ssrc x i) :
    Streamed s0 ssrc ⟨rtp, tcp⟩ (out ++ (effects.map WireOutput.effect ++ [.sent x])) := by
  obtain ⟨items,hitems,hall,hsame⟩ := h.stream
  refine ⟨hsynced, hconnected, hchannels, items ++ [i], ?_, ?_, ?_⟩
  · have hnone : effectsOf [.sent x] = [] := rfl
    rw [effectsOf_append, effectsOf_append, effectsOf_effects, hnone, List.append_nil, written_append]
    calc
      written (effectsOf out) ++ written effects ++ tcp.outputBuffer.readable
        = (written (effectsOf out) ++ s.tcp.outputBuffer.readable) ++ i.encode := by
          rw [List.append_assoc, hstream, List.append_assoc]
      _ = (items ++ [i]).flatMap WireItem.encode := by
          rw [hitems, List.flatMap_append, List.flatMap_singleton]
  · intro j hj
    rcases List.mem_append.mp hj with hj | hj
    · exact hall j hj
    · rw [List.mem_singleton.mp hj]
      exact hreads
  · have hone : sentOf [.sent x] = [x] := rfl
    rw [sentOf_append, sentOf_append, sentOf_effects, hone, List.nil_append]
    exact List.rel_append hsame (List.Forall₂.cons hrecovers List.Forall₂.nil)

theorem Streamed.step {s : WireState} {out : List WireOutput} (h : Streamed s0 ssrc s out)
    (hchannel : ∀ c, s0.channelOf (s0.mediaChannelInfo c).rtpChannel.toUInt8 = some c)
    {ev : WireEvent} (hev : ev.Fits) : ∃ s' out', s.step ev = .ok (s', out') ∧
      Streamed s0 ssrc s' (out ++ out') ∧
      (s0.hasIDRFrame = true → (sentOf out').map Sent.message = ev.message.toList) := by
  cases ev with
  | sendRtpPacket c pkt w =>
    obtain ⟨hmin,hmax,hpipe,hreset⟩ := hev
    obtain ⟨rtp,calls,hrtp,hsame,hcalls⟩ := sendRtpPacketInLoop_message h.channels c hmin hmax
    dsimp only [WireState.step]
    rw [hrtp]
    by_cases hgate : (s.rtp.setFrameType pkt.type).canSend c = true
    · rw [if_pos hgate] at hcalls
      obtain ⟨q,n,rfl⟩ := hcalls
      obtain ⟨tcp,effects,hsend,hsynced,hconnected,hstream⟩ := send_stream h.synced h.connected
        (WireItem.encode (.interleaved (s0.mediaChannelInfo c).rtpChannel.toUInt8
          ((s.rtp.setFrameType pkt.type).image c pkt))) hpipe hreset
      have hcalled : WireState.sendCalls s.tcp w [.overTcp c q, .send n
          (WireItem.encode (.interleaved (s0.mediaChannelInfo c).rtpChannel.toUInt8
            ((s.rtp.setFrameType pkt.type).image c pkt)))] = .ok (tcp, effects ++ []) := by
        simp only [WireState.sendCalls, hsend, bind, Except.bind, pure, Except.pure]
      refine ⟨⟨rtp, tcp⟩, (effects ++ []).map WireOutput.effect ++
        [.sent (.rtp c pkt (s.rtp.packetSeq c))], ?_, ?_, ?_⟩
      · simp only [hcalled, bind, Except.bind, pure, Except.pure, if_pos hgate]
      · rw [List.append_nil]
        have hframe := h.channels.setFrameType pkt.type
        have hlen := RtpConnection.length_image (s := s.rtp.setFrameType pkt.type) (c := c) hmin hmax
        refine h.append hsynced hconnected hsame hstream
          (WireItem.reads_interleaved _ (by rw [hlen]; omega)) ⟨hchannel c, _,
            RtpConnection.read_image hframe.fixed c pkt, rfl, rfl, rfl, rfl, rfl, ?_, ?_, ?_, rfl, rfl,
            rfl⟩
        · intro hlast
          have hle : pkt.last.toNat ≤ 1 := hlast
          exact Nat.mod_eq_of_lt (by omega)
        · exact congrArg BitVec.toNat (hframe.payload c)
        · rw [RtpConnection.setFrameType_packetSeq]
      · intro _
        rw [sentOf_append, sentOf_effects]
        rfl
    · rw [if_neg hgate] at hcalls
      subst hcalls
      refine ⟨⟨rtp, s.tcp⟩, [], ?_, ?_, ?_⟩
      · simp only [WireState.sendCalls, bind, Except.bind, pure, Except.pure, if_neg hgate,
          List.map_nil, List.append_nil]
      · rw [List.append_nil]
        exact ⟨h.synced, h.connected, hsame, h.stream⟩
      · exact fun h0 => absurd ((h.channels.setFrameType pkt.type).canSend h0 c) hgate
  | sendMessage res w =>
    obtain ⟨tcp,effects,hsend,hsynced,hconnected,hstream⟩ := send_stream h.synced h.connected res.text
      hev.1 hev.2
    refine ⟨⟨s.rtp, tcp⟩, effects.map WireOutput.effect ++ [.sent (.response res)], ?_, ?_, ?_⟩
    · simp only [WireState.step, hsend, bind, Except.bind, pure, Except.pure]
    · exact @Streamed.append s0 ssrc s out h s.rtp tcp effects (.response res) (.response res.text)
        hsynced hconnected h.channels hstream (WireItem.reads_response (isResponse_text res)) rfl
    · intro _
      rw [sentOf_append, sentOf_effects]
      rfl
  | handleWrite w =>
    obtain ⟨tcp,effects,hwrite,hsynced,hstate,hstream⟩ := s.tcp.handleWrite_stream h.synced w
    refine ⟨⟨s.rtp, tcp⟩, effects.map WireOutput.effect, ?_, ?_, ?_⟩
    · simp only [WireState.step, hwrite, bind, Except.bind, pure, Except.pure]
    · obtain ⟨items,hitems,hall,hsame⟩ := h.stream
      refine ⟨hsynced, hstate.trans h.connected, h.channels, items, ?_, hall, ?_⟩
      · rw [effectsOf_append, effectsOf_effects, written_append, List.append_assoc, hstream, hitems]
      · rw [sentOf_append, sentOf_effects, List.append_nil]
        exact hsame
    · intro _
      rw [sentOf_effects]
      rfl

theorem channelOf_self
    (hdistinct : (s0.mediaChannelInfo .channel_0).rtpChannel ≠ (s0.mediaChannelInfo .channel_1).rtpChannel)
    (hsmall : ∀ c, (s0.mediaChannelInfo c).rtpChannel.toNat < 256) (c : MediaChannelId) :
    s0.channelOf (s0.mediaChannelInfo c).rtpChannel.toUInt8 = some c := by
  have hbyte : (s0.mediaChannelInfo c).rtpChannel.toUInt8.toNat =
      (s0.mediaChannelInfo c).rtpChannel.toNat := by
    rw [UInt16.toNat_toUInt8]
    exact Nat.mod_eq_of_lt (hsmall c)
  rw [RtpConnection.channelOf, hbyte]
  cases c with
  | channel_0 => exact List.find?_cons_of_pos (decide_eq_true rfl)
  | channel_1 =>
    have hne : ¬ decide ((s0.mediaChannelInfo .channel_0).rtpChannel.toNat =
        (s0.mediaChannelInfo .channel_1).rtpChannel.toNat) = true := by
      rw [decide_eq_true_iff]
      exact fun h => hdistinct (UInt16.toNat_inj.mp h)
    simp only [mediaChannels, List.find?_cons, eq_false_of_ne_true hne, decide_true]

end Streams

/-- The stream of an established connection on which a playing client is sent packets and responses,
in any order, is read back as what was sent: the channel of every packet, the fields of its header, the
number assigned to it and its payload, and the text of every response. Once the key frame has come
nothing is discarded. -/
theorem interleaved_stream (mem : RtpConnection) (handle : TcpHandle) (rd : MediaChannelId → ℕ → UInt32)
    (ops : List RtpOp) (rtp : RtpConnection) (calls : List Call)
    (hrtp : RtpConnection.run (.new mem handle rd) ops = .ok (rtp, calls))
    (hmode : rtp.transportMode = .rtpOverTcp) (hplay : ∀ c, (rtp.mediaChannelInfo c).isPlay = true)
    (hdistinct : (rtp.mediaChannelInfo .channel_0).rtpChannel ≠
      (rtp.mediaChannelInfo .channel_1).rtpChannel)
    (hsmall : ∀ c, (rtp.mediaChannelInfo c).rtpChannel.toNat < 256)
    (m : ℕ) (b h : Bool) (evs : List WireEvent) (hfits : ∀ ev ∈ evs, ev.Fits) : ∃ s out items,
    WireState.run ⟨rtp, TcpConnection.established m b h⟩ evs = .ok (s, out) ∧
      Framing.decode WireItem.read (written (effectsOf out) ++ s.tcp.outputBuffer.readable) =
        some items ∧
      List.Forall₂ (Recovers rtp (fun c => rd c 2)) (sentOf out) items ∧
      (rtp.hasIDRFrame = true → (sentOf out).map Sent.message = evs.filterMap WireEvent.message) := by
  have hfixed : rtp.Fixed (fun c => rd c 2) := by
    apply Runs.run_preserves (fun s => RtpConnection.Fixed s (fun c => rd c 2)) _
      (RtpConnection.fixed_new mem handle rd) hrtp
    intro s op s' out hs hstep
    exact hs.step hstep
  let I (s : WireState) (left : List WireEvent) (out : List WireOutput) : Prop :=
    Streamed rtp (fun c => rd c 2) s out ∧ (rtp.hasIDRFrame = true →
      (sentOf out).map Sent.message ++ left.filterMap WireEvent.message =
        evs.filterMap WireEvent.message)
  have h0 : I ⟨rtp, TcpConnection.established m b h⟩ evs [] :=
    ⟨⟨TcpConnection.synced_established m b h, rfl,
      ⟨hfixed, hmode, fun _ => rfl, fun _ => rfl, hplay, id⟩, [], rfl,
      fun _ h => (by cases h), List.Forall₂.nil⟩, fun _ => rfl⟩
  have hstep (s : WireState) (ev : WireEvent) (left : List WireEvent) (out : List WireOutput)
      (hI : I s (ev :: left) out) (hev : ev.Fits) :
      ∃ s' out', s.step ev = .ok (s', out') ∧ I s' left (out ++ out') := by
    obtain ⟨s',out',hs,hstreamed,hsent⟩ := hI.1.step (channelOf_self hdistinct hsmall) hev
    refine ⟨s', out', hs, hstreamed, ?_⟩
    intro hidr
    rw [← hI.2 hidr, sentOf_append, List.map_append, hsent hidr, List.append_assoc]
    congr 1
    cases hmessage : ev.message with
    | none => rw [List.filterMap_cons_none hmessage]; rfl
    | some x => rw [List.filterMap_cons_some hmessage]; rfl
  obtain ⟨s,out,hrun,hI⟩ := Runs.run_along I hstep h0 (Runs.along_of_forall (fun ev hev _ => hfits ev hev))
  obtain ⟨items,hitems,hreads,hsame⟩ := hI.1.stream
  refine ⟨s, out, items, hrun, ?_, hsame, ?_⟩
  · rw [List.nil_append] at hitems
    rw [hitems]
    exact Framing.decode_flatMap hreads
  · intro hidr
    have hall := hI.2 hidr
    rw [List.filterMap_nil, List.append_nil] at hall
    exact hall

/-- Both channels over TCP, and playing. -/
def playingOps : List RtpOp :=
  [.setupRtpOverTcp .channel_0 0 1, .setupRtpOverTcp .channel_1 2 3, .play]

/-- A packet that waits behind its first bytes, and a response behind it. -/
def mixedEvents : List WireEvent :=
  [.sendRtpPacket .channel_1 ⟨PacketData.zeros, 16, 0, videoFrameI, 1⟩ (.wrote 5),
    .sendMessage (.getParamter
      (.new ⟨.NONE, .channel_0, .rtpOverTcp, fun _ => none, fun _ => none, .kGotAll⟩) 7) (.wrote 0),
    .handleWrite (.wrote 20)]

theorem interleaved_stream_two : ∃ rtp calls s out items,
    RtpConnection.run (.new .zeroed ⟨[], 7, ⟨0, 0⟩⟩ (fun _ _ => 5)) playingOps = .ok (rtp, calls) ∧
    WireState.run ⟨rtp, .established 100 false false⟩ mixedEvents = .ok (s, out) ∧
    Framing.decode WireItem.read (written (effectsOf out) ++ s.tcp.outputBuffer.readable) =
      some items ∧
    List.Forall₂ (Recovers rtp (fun _ => 5)) (sentOf out) items := by
  have hfits (ev : WireEvent) (hev : ev ∈ mixedEvents) : ev.Fits := by
    simp only [mixedEvents, List.mem_cons, List.not_mem_nil, or_false] at hev
    rcases hev with rfl | rfl | rfl
    · exact ⟨by decide, by decide, by decide, by decide⟩
    · exact ⟨by decide, by decide⟩
    · trivial
  have hplay (c : MediaChannelId) : (((((RtpConnection.new .zeroed ⟨[], 7, ⟨0, 0⟩⟩
      (fun _ _ => 5)).setupRtpOverTcp .channel_0 0 1).2.setupRtpOverTcp
        .channel_1 2 3).2.play).mediaChannelInfo c).isPlay = true := by
    cases c <;> rfl
  have hsmall (c : MediaChannelId) : (((((RtpConnection.new .zeroed ⟨[], 7, ⟨0, 0⟩⟩
      (fun _ _ => 5)).setupRtpOverTcp .channel_0 0 1).2.setupRtpOverTcp
        .channel_1 2 3).2.play).mediaChannelInfo c).rtpChannel.toNat < 256 := by
    cases c <;> decide
  obtain ⟨s,out,items,hrun,hdecode,hsame,_⟩ := interleaved_stream .zeroed ⟨[], 7, ⟨0, 0⟩⟩
    (fun _ _ => 5) playingOps _ _ rfl rfl hplay (by decide) hsmall 100 false false mixedEvents hfits
  exact ⟨_, _, s, out, items, rfl, hrun, hdecode, hsame⟩

end IdealServer
