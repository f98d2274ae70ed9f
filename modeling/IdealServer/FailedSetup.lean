import IdealServer.Descriptors

/-! What `setupRtpOverUdp` leaves behind where it returns false. -/
namespace IdealServer

/-- The random port of a round. -/
def UdpAttempt.port (a : UdpAttempt) : UInt16 := (a.rd &&& 0xfffe).toUInt16

/-- The descriptor from the last of the rounds that got as far as the second socket, or `x`. -/
def lastRtcpfd (attempt : ℕ → UdpAttempt) (n left : ℕ) (x : ℤ) : ℤ :=
  ((((List.range' n left).filter (fun k => (attempt k).rtpBind)).getLast?).map
    (fun k => (attempt k).rtcpfd)).getD x

theorem lastRtcpfd_succ (attempt : ℕ → UdpAttempt) (n left : ℕ) (x : ℤ) :
    lastRtcpfd attempt n (left+1) x =
      lastRtcpfd attempt (n+1) left (if (attempt n).rtpBind then (attempt n).rtcpfd else x) := by
  unfold lastRtcpfd
  rw [List.range'_succ]
  by_cases h : (attempt n).rtpBind = true
  · have hfilter := @List.filter_cons_of_pos _ (fun k => (attempt k).rtpBind) n
      (List.range' (n+1) left) h
    rw [hfilter, if_pos h, List.getLast?_cons]
    cases ((List.range' (n+1) left).filter (fun k => (attempt k).rtpBind)).getLast? <;> rfl
  · have hfilter := @List.filter_cons_of_neg _ (fun k => (attempt k).rtpBind) n
      (List.range' (n+1) left) h
    rw [hfilter, if_neg h]

def MediaChannelInfo.withPorts (i : MediaChannelInfo) (rtpPort rtcpPort : UInt16) :
    MediaChannelInfo := { i with rtpPort := rtpPort, rtcpPort := rtcpPort }

namespace RtpConnection
variable (s : RtpConnection) (c : MediaChannelId)

theorem not_bound_of_unbound {attempt : ℕ → UdpAttempt} {n left : ℕ}
    (h : boundRound attempt n (left+1) = none) :
    ((attempt n).rtpBind && (attempt n).rtcpBind) = false := by
  by_contra hb
  rw [boundRound_here (Bool.not_eq_false _ ▸ hb)] at h
  cases h

/-- The transport of a channel is the one of another state. -/
structure SameTransport (s s' : RtpConnection) (c : MediaChannelId) : Prop where
  rtpfd : s'.rtpfd c = s.rtpfd c
  rtcpfd : s'.rtcpfd c = s.rtcpfd c
  localRtpPort : s'.localRtpPort c = s.localRtpPort c
  localRtcpPort : s'.localRtcpPort c = s.localRtcpPort c
  rtpPort : (s'.mediaChannelInfo c).rtpPort = (s.mediaChannelInfo c).rtpPort
  rtcpPort : (s'.mediaChannelInfo c).rtcpPort = (s.mediaChannelInfo c).rtcpPort
  isSetup : (s'.mediaChannelInfo c).isSetup = (s.mediaChannelInfo c).isSetup
  peerAddr : s'.peerAddr = s.peerAddr
  peerRtpAddr : s'.peerRtpAddr c = s.peerRtpAddr c
  peerRtcpAddr : s'.peerRtcpAddr c = s.peerRtcpAddr c
  transportMode : s'.transportMode = s.transportMode

/-- Where the setup fails, the transport is as before and all sockets of the rounds are closed. -/
def FailsQuietly (a b : UInt16) (attempt : ℕ → UdpAttempt) : Prop :=
  (s.setupRtpOverUdp c a b attempt).1 = false →
    SameTransport s (s.setupRtpOverUdp c a b attempt).2.1 c ∧
      Ledger.settle [] (ledger (s.setupRtpOverUdp c a b attempt).2.2) = some []

/-- The peer, the two ports and the last of the rounds are what the channel holds already. -/
structure WritesWhatIsThere (tcp : TcpHandle) (a b : UInt16) (attempt : ℕ → UdpAttempt) : Prop where
  peerAddr : tcp.peer = s.peerAddr
  rtpPort : a = (s.mediaChannelInfo c).rtpPort
  rtcpPort : b = (s.mediaChannelInfo c).rtcpPort
  localRtpPort : (attempt 9).port = s.localRtpPort c
  localRtcpPort : (attempt 9).port+1 = s.localRtcpPort c
  rtpfd : (attempt 9).rtpfd = s.rtpfd c
  rtcpfd : lastRtcpfd attempt 0 10 (s.rtcpfd c) = s.rtcpfd c

/-- The cells after rounds that have all failed. -/
theorem bindLoop_unbound (attempt : ℕ → UdpAttempt) (left n : ℕ)
    (h : boundRound attempt n (left+1) = none) :
    (bindLoop c attempt (left+1) n s).2.1 = { s with
      localRtpPort := Function.update s.localRtpPort c (attempt (n+left)).port
      localRtcpPort := Function.update s.localRtcpPort c ((attempt (n+left)).port+1)
      rtpfd := Function.update s.rtpfd c (attempt (n+left)).rtpfd
      rtcpfd := Function.update s.rtcpfd c (lastRtcpfd attempt n (left+1) (s.rtcpfd c)) } := by
  -- the induction is on the rounds that are left, and each later one overwrites the cells again
  induction left generalizing n s with
  | zero =>
    have hf := not_bound_of_unbound h
    rw [lastRtcpfd_succ]
    unfold bindLoop
    by_cases h1 : (attempt n).rtpBind = true
    · have h2 : (attempt n).rtcpBind = false := by rwa [h1, Bool.true_and] at hf
      simp only [h1, h2, if_true, Bool.false_eq_true, if_false, bindLoop]
      rfl
    · simp only [if_neg h1, bindLoop, lastRtcpfd, List.range'_zero, List.filter_nil,
        List.getLast?_nil, Option.map_none, Option.getD_none, Function.update_eq_self]
      rfl
  | succ left ih =>
    have hf := not_bound_of_unbound h
    have hlater : boundRound attempt (n+1) (left+1) = none := by
      rwa [boundRound_later hf] at h
    have hindex : n+1+left = n+(left+1) := by omega
    rw [lastRtcpfd_succ, bindLoop]
    by_cases h1 : (attempt n).rtpBind = true
    · have h2 : (attempt n).rtcpBind = false := by rwa [h1, Bool.true_and] at hf
      simp only [h1, h2, if_true, Bool.false_eq_true, if_false]
      rw [ih _ (n+1) hlater]
      simp only [Function.update_idem, Function.update_self, hindex]
    · simp only [if_neg h1]
      rw [ih _ (n+1) hlater]
      simp only [Function.update_idem, hindex]

theorem setupRtpOverUdp_unbound {tcp : TcpHandle} (a b : UInt16) {attempt : ℕ → UdpAttempt}
    (ht : s.tcpConn = some tcp) (h : boundRound attempt 0 10 = none) :
    (s.setupRtpOverUdp c a b attempt).1 = false ∧
    (s.setupRtpOverUdp c a b attempt).2.1 = { s with
      peerAddr := tcp.peer
      mediaChannelInfo := Function.update s.mediaChannelInfo c
        ((s.mediaChannelInfo c).withPorts a b)
      localRtpPort := Function.update s.localRtpPort c (attempt 9).port
      localRtcpPort := Function.update s.localRtcpPort c ((attempt 9).port+1)
      rtpfd := Function.update s.rtpfd c (attempt 9).rtpfd
      rtcpfd := Function.update s.rtcpfd c (lastRtcpfd attempt 0 10 (s.rtcpfd c)) } ∧
    Ledger.settle [] (ledger (s.setupRtpOverUdp c a b attempt).2.2) = some [] := by
  obtain ⟨hfalse,_,hsettle⟩ := (bindLoop_outcome (s.beforeBind c tcp a b) c attempt 10 0).unbound h
  rw [setupRtpOverUdp_open s c a b attempt ht, hfalse]
  refine ⟨rfl, ?_, hsettle []⟩
  rw [if_neg Bool.false_ne_true, bindLoop_unbound (s.beforeBind c tcp a b) c attempt 9 0 h]
  rfl

/-- A channel whose descriptor the last round does not happen to get again has lost it. -/
theorem setupRtpOverUdp_loses_fd {tcp : TcpHandle} (a b : UInt16) {attempt : ℕ → UdpAttempt}
    (ht : s.tcpConn = some tcp) (h : boundRound attempt 0 10 = none)
    (hfd : (attempt 9).rtpfd ≠ s.rtpfd c) : ¬s.FailsQuietly c a b attempt := by
  obtain ⟨hfalse,hstate,_⟩ := s.setupRtpOverUdp_unbound c a b ht h
  intro hquiet
  have hsame := (hquiet hfalse).1.rtpfd
  rw [hstate] at hsame
  exact hfd ((Function.update_self ..).symm.trans hsame)

/-- A failure is quiet where the connection is gone, and else only where every cell that the rounds
overwrite held that value before. -/
theorem failsQuietly_iff (a b : UInt16) (attempt : ℕ → UdpAttempt) :
    s.FailsQuietly c a b attempt ↔ s.tcpConn = none ∨ (boundRound attempt 0 10).isSome ∨
      ∃ tcp, s.tcpConn = some tcp ∧ s.WritesWhatIsThere c tcp a b attempt := by
  unfold FailsQuietly
  cases ht : s.tcpConn with
  | none =>
    rw [setupRtpOverUdp_closed s c a b attempt ht]
    constructor
    · intro _
      exact .inl rfl
    · intro _ _
      exact ⟨⟨rfl, rfl, rfl, rfl, rfl, rfl, rfl, rfl, rfl, rfl, rfl⟩, rfl⟩
  | some tcp =>
    cases hbound : boundRound attempt 0 10 with
    | some k =>
      have htrue := ((bindLoop_outcome (s.beforeBind c tcp a b) c attempt 10 0).bound k hbound).1
      rw [setupRtpOverUdp_open s c a b attempt ht, htrue]
      constructor
      · intro _
        exact .inr (.inl rfl)
      · intro _ hfalse
        cases hfalse
    | none =>
      obtain ⟨hfalse,hstate,hsettle⟩ := s.setupRtpOverUdp_unbound c a b ht hbound
      rw [hfalse, hstate]
      constructor
      · intro hquiet
        obtain ⟨hsame,_⟩ := hquiet rfl
        refine .inr (.inr ⟨tcp, rfl, ?_⟩)
        have hinfo : Function.update s.mediaChannelInfo c
            ((s.mediaChannelInfo c).withPorts a b) c = (s.mediaChannelInfo c).withPorts a b :=
          Function.update_self ..
        refine ⟨hsame.peerAddr, ?_, ?_, ?_, ?_, ?_, ?_⟩
        · have h := hsame.rtpPort
          dsimp only at h
          rwa [hinfo] at h
        · have h := hsame.rtcpPort
          dsimp only at h
          rwa [hinfo] at h
        · exact (Function.update_self ..).symm.trans hsame.localRtpPort
        · exact (Function.update_self ..).symm.trans hsame.localRtcpPort
        · exact (Function.update_self ..).symm.trans hsame.rtpfd
        · exact (Function.update_self ..).symm.trans hsame.rtcpfd
      · rintro (hnone | hsome | ⟨tcp',htcp,hthere⟩) _
        · cases hnone
        · cases hsome
        · obtain rfl := Option.some.inj htcp
          have hinfo : Function.update s.mediaChannelInfo c
              ((s.mediaChannelInfo c).withPorts a b) c = s.mediaChannelInfo c := by
            rw [Function.update_self, MediaChannelInfo.withPorts, hthere.rtpPort, hthere.rtcpPort]
          refine ⟨⟨?_, ?_, ?_, ?_, ?_, ?_, ?_, hthere.peerAddr, rfl, rfl, rfl⟩, hsettle⟩
          · exact (Function.update_self ..).trans hthere.rtpfd
          · exact (Function.update_self ..).trans hthere.rtcpfd
          · exact (Function.update_self ..).trans hthere.localRtpPort
          · exact (Function.update_self ..).trans hthere.localRtcpPort
          · dsimp only
            rw [hinfo]
          · dsimp only
            rw [hinfo]
          · dsimp only
            rw [hinfo]

/-- The channel plays over UDP, and all ports of a second setup are taken. -/
theorem failsQuietly_fails :
    ¬(((RtpConnection.new zeroed ⟨ascii "c", 5, ⟨1, 2⟩⟩ (fun _ _ => 0)).setupRtpOverUdp .channel_0
      5000 5001 (fun _ => ⟨100, 7, true, 8, true⟩)).2.1.play).FailsQuietly .channel_0 6000 6001
        (fun _ => ⟨200, 9, false, 10, false⟩) := by
  apply setupRtpOverUdp_loses_fd _ _ _ _ rfl rfl
  decide

end RtpConnection

end IdealServer
