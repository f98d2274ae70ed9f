import IdealServer.Basics
import IdealServer.ByteOrder
import Mathlib.Data.BitVec

/-! The data of `Media.h` and `Rtp.h`: frames, packets and the RTP header with its memory image
on a little-endian host. -/
namespace IdealServer

inductive MediaChannelId
  | channel_0
  | channel_1
deriving DecidableEq, Repr

/-- The loops `for(int chn = 0; chn < MAX_MEDIA_CHANNEL; ++chn)`. -/
def mediaChannels : List MediaChannelId := [.channel_0, .channel_1]

theorem mem_mediaChannels (c : MediaChannelId) : c ∈ mediaChannels := by
  cases c <;> decide

inductive TransportMode
  | rtpOverTcp
  | rtpOverUdp
  | rtpOverMulticast
deriving DecidableEq, Repr

def videoFrameI : UInt8 := 1

def rtpVersion : BitVec 2 := 2
def rtpHeaderSize : ℕ := 12
def rtpTcpHeadSize : ℕ := 4
def maxRtpPayloadSize : UInt32 := 1420

def htons (x : UInt16) : UInt16 := UInt16.ofNat (ByteOrder.swap 2 x.toNat)
def htonl (x : UInt32) : UInt32 := UInt32.ofNat (ByteOrder.swap 4 x.toNat)

/-- The bit fields of one byte, low bits first; `seq`, `ts` and `ssrc` hold swapped values. -/
structure RtpHeader where
  cc : BitVec 4
  extension : BitVec 1
  padding : BitVec 1
  version : BitVec 2
  payload : BitVec 7
  marker : BitVec 1
  seq : UInt16
  ts : UInt32
  ssrc : UInt32
deriving DecidableEq, Repr

/-- What `memset` leaves. -/
def RtpHeader.zero : RtpHeader := ⟨0, 0, 0, 0, 0, 0, 0, 0, 0⟩

/-- The twelve bytes of the structure in memory. -/
def RtpHeader.bytes (h : RtpHeader) : Bytes :=
  UInt8.ofNat (h.cc.toNat+16*h.extension.toNat+32*h.padding.toNat+64*h.version.toNat) ::
  UInt8.ofNat (h.payload.toNat+128*h.marker.toNat) ::
  (ByteOrder.toLE 2 h.seq.toNat ++ ByteOrder.toLE 4 h.ts.toNat ++ ByteOrder.toLE 4 h.ssrc.toNat)

@[simp] theorem RtpHeader.length_bytes (h : RtpHeader) : h.bytes.length = rtpHeaderSize := by
  simp [RtpHeader.bytes, rtpHeaderSize]

structure MediaChannelInfo where
  rtpHeader : RtpHeader
  rtpChannel : UInt16
  rtcpChannel : UInt16
  rtpPort : UInt16
  rtcpPort : UInt16
  packetSeq : UInt16
  clockRate : UInt32
  isSetup : Bool
  isPlay : Bool
  isRecord : Bool
deriving DecidableEq, Repr

def MediaChannelInfo.zero : MediaChannelInfo :=
  ⟨RtpHeader.zero, 0, 0, 0, 0, 0, 0, false, false, false⟩

/-- The array that `RtpPacket()` allocates. -/
structure PacketData where
  bytes : Bytes
  size_eq : bytes.length = 1600
deriving DecidableEq

def PacketData.zeros : PacketData := ⟨List.replicate 1600 0, List.length_replicate⟩

/-- `memcpy` into the array. -/
def PacketData.write (d : PacketData) (off : ℕ) (src : Bytes) : Except Fault PacketData :=
  if h : off+src.length ≤ 1600 then
    .ok ⟨d.bytes.take off ++ src ++ d.bytes.drop (off+src.length), by
      have := d.size_eq
      simp only [List.length_append, List.length_take, List.length_drop]
      omega⟩
  else .error .outOfBounds

theorem PacketData.write_error {d : PacketData} {off : ℕ} {src : Bytes} {e : Fault}
    (h : d.write off src = .error e) : e = .outOfBounds := by
  unfold PacketData.write at h
  split at h
  · cases h
  · exact (Except.error.inj h).symm

structure RtpPacket where
  data : PacketData
  size : UInt32
  timestamp : UInt32
  type : UInt8
  last : UInt8
deriving DecidableEq

/-- `RtpPacket()` over the memory that `new` returned. -/
def RtpPacket.new (mem : PacketData) : RtpPacket := ⟨mem, 0, 0, 0, 0⟩

/-- The bytes behind the four reserved ones and the RTP header. -/
def RtpPacket.payload (p : RtpPacket) : Bytes :=
  (p.data.bytes.drop (rtpTcpHeadSize+rtpHeaderSize)).take
    (p.size.toNat-(rtpTcpHeadSize+rtpHeaderSize))

/-- A frame owns exactly the bytes its size announces. -/
structure AVFrame where
  buffer : Bytes
  size : UInt32
  type : UInt8
  timestamp : UInt32
  size_eq : buffer.length = size.toNat
deriving DecidableEq

section PacketDataLemmas
variable {d e g : PacketData} {off : ℕ} {src tail : Bytes}

theorem PacketData.write_ok (d : PacketData) (off : ℕ) (src : Bytes)
    (h : off+src.length ≤ 1600) : ∃ e, d.write off src = .ok e := ⟨_, dif_pos h⟩

theorem PacketData.write_bytes (h : d.write off src = .ok e) :
    off+src.length ≤ 1600 ∧
      e.bytes = d.bytes.take off ++ src ++ d.bytes.drop (off+src.length) := by
  unfold PacketData.write at h
  split at h
  case isTrue hle =>
    obtain rfl := Except.ok.inj h
    exact ⟨hle, rfl⟩
  case isFalse => contradiction

/-- Reading from the start of the written region sees the source first. -/
theorem PacketData.write_drop (h : d.write off src = .ok e) :
    e.bytes.drop off = src ++ d.bytes.drop (off+src.length) := by
  obtain ⟨hle, he⟩ := PacketData.write_bytes h
  have hd := d.size_eq
  have ht : (d.bytes.take off).length = off := by rw [List.length_take]; omega
  rw [he, List.append_assoc, List.drop_append, List.drop_of_length_le (by omega), ht,
    Nat.sub_self, List.drop_zero, List.nil_append]

/-- Two adjacent copies are one copy of the concatenation. -/
theorem PacketData.write_append (h : d.write off src = .ok e)
    (ht : e.write (off+src.length) tail = .ok g) : d.write off (src ++ tail) = .ok g := by
  obtain ⟨hle, he⟩ := PacketData.write_bytes h
  obtain ⟨hle', hg⟩ := PacketData.write_bytes ht
  have hd := d.size_eq
  have hlen : (d.bytes.take off ++ src).length = off+src.length := by
    rw [List.length_append, List.length_take]
    omega
  have hfront : e.bytes.take (off+src.length) = d.bytes.take off ++ src := by
    rw [he, List.take_append_of_le_length hlen.ge, List.take_of_length_le hlen.le]
  have hback : e.bytes.drop (off+src.length+tail.length) =
      d.bytes.drop (off+(src ++ tail).length) := by
    rw [he, List.drop_append, List.drop_of_length_le (by omega), List.nil_append, hlen,
      List.drop_drop, List.length_append]
    congr 1
    omega
  rw [PacketData.write, dif_pos (by rw [List.length_append]; omega)]
  congr 1
  cases g
  simp only [PacketData.mk.injEq] at hg ⊢
  rw [hg, hfront, hback]
  simp only [List.append_assoc]

end PacketDataLemmas

end IdealServer
