import IdealServer.Ledger
import IdealServer.SequenceNumbers

/-! The descriptors an `RtpConnection` opens and closes. Its two arrays hold borrowed, owned and
already closed descriptors alike, and the destructor closes every positive entry. -/
namespace IdealServer

def Call.event : Call → Option (Ledger.Event ℤ)
  | .socket fd => some (.acquire fd)
  | .close fd => some (.release fd)
  | _ => none

/-- The calls as the kernel's table of descriptors sees them. -/
def ledger (calls : List Call) : List (Ledger.Event ℤ) := calls.filterMap Call.event

def Call.opened : Call → Option ℤ
  | .socket fd => some fd
  | _ => none

/-- What `::socket` returned, in order. -/
def opened (calls : List Call) : List ℤ := calls.filterMap Call.opened

/-- Every close is of a descriptor that is open and was opened by these calls, everything opened
is closed in the end, and the descriptor of the TCP connection is never closed. -/
def OwnsDescriptors (tcp : TcpHandle) (calls : List Call) : Prop :=
  Ledger.settle [] (ledger calls) = some [] ∧ Call.close tcp.fd ∉ calls

/-- The round of the loop in which both ports are bound. -/
def boundRound (attempt : ℕ → UdpAttempt) (n left : ℕ) : Option ℕ :=
  (List.range' n left).find? (fun k => (attempt k).rtpBind && (attempt k).rtcpBind)

/-- The operation is a setup of the channel. -/
def RtpOp.setsUp (c : MediaChannelId) : RtpOp → Bool
  | .setupRtpOverTcp d _ _ => d = c
  | .setupRtpOverUdp d _ _ _ => d = c
  | _ => false

/-- The operation is a setup over UDP that binds its two ports. -/
def RtpOp.binds : RtpOp → Bool
  | .setupRtpOverUdp _ _ _ attempt => (boundRound attempt 0 10).isSome
  | _ => false

/-- The two descriptors that such a setup leaves open. -/
def RtpOp.acquired : RtpOp → List ℤ
  | .setupRtpOverUdp _ _ _ attempt =>
    match boundRound attempt 0 10 with
    | some k => [(attempt k).rtcpfd, (attempt k).rtpfd]
    | none => []
  | _ => []

/-- The setups of one channel. -/
def setups (c : MediaChannelId) (ops : List RtpOp) : List RtpOp := ops.filter (RtpOp.setsUp c)

/-- The last setup of the channel, if there is one, binds ports, and no other one does. -/
def SoleBinding (c : MediaChannelId) (ops : List RtpOp) : Prop :=
  (∀ op ∈ (setups c ops).getLast?, op.binds = true) ∧ (setups c ops).countP RtpOp.binds ≤ 1

instance (c : MediaChannelId) (ops : List RtpOp) : Decidable (SoleBinding c ops) :=
  inferInstanceAs (Decidable (_ ∧ _))

@[simp] theorem ledger_append (a b : List Call) : ledger (a ++ b) = ledger a ++ ledger b :=
  List.filterMap_append

@[simp] theorem opened_append (a b : List Call) : opened (a ++ b) = opened a ++ opened b :=
  List.filterMap_append

theorem mem_opened {fd : ℤ} {calls : List Call} : fd ∈ opened calls ↔ Call.socket fd ∈ calls := by
  rw [opened, List.mem_filterMap]
  constructor
  · rintro ⟨x,hx,hfd⟩
    cases x with
    | socket y =>
      obtain rfl := Option.some.inj hfd
      exact hx
    | _ => contradiction
  · intro h
    exact ⟨_, h, rfl⟩

theorem acquired_eq_nil {op : RtpOp} (h : op.binds = false) : op.acquired = [] := by
  cases op with
  | setupRtpOverUdp c a b attempt =>
    have hn : boundRound attempt 0 10 = none := by
      rwa [RtpOp.binds, Option.isSome_eq_false_iff, Option.isNone_iff_eq_none] at h
    simp only [RtpOp.acquired, hn]
  | _ => rfl

theorem binds_of_acquired {op : RtpOp} (h : op.acquired ≠ []) : op.binds = true := by
  by_contra hb
  exact h (acquired_eq_nil (Bool.eq_false_iff.mpr hb))

theorem length_acquired {op : RtpOp} (h : op.binds = true) : op.acquired.length = 2 := by
  cases op with
  | setupRtpOverUdp c a b attempt =>
    obtain ⟨k,hk⟩ := Option.isSome_iff_exists.mp h
    simp only [RtpOp.acquired, hk, List.length_cons, List.length_nil]
  | _ => contradiction

namespace RtpConnection
variable (s : RtpConnection) (c : MediaChannelId)

/-- What the loop leaves in the two cells of its channel and in the ledger. -/
structure BindOutcome (attempt : ℕ → UdpAttempt) (n left : ℕ)
    (r : Bool × RtpConnection × List Call) : Prop where
  bound : ∀ k, boundRound attempt n left = some k →
    r.1 = true ∧ r.2.1.rtpfd c = (attempt k).rtpfd ∧ r.2.1.rtcpfd c = (attempt k).rtcpfd ∧
      (attempt k).rtpfd ∈ opened r.2.2 ∧ (attempt k).rtcpfd ∈ opened r.2.2 ∧
      ∀ held, Ledger.settle held (ledger r.2.2) =
        some ((attempt k).rtcpfd :: (attempt k).rtpfd :: held)
  unbound : boundRound attempt n left = none →
    r.1 = false ∧ (r.2.1.rtpfd c ∈ opened r.2.2 ∨ (left = 0 ∧ r.2.1 = s)) ∧
      ∀ held, Ledger.settle held (ledger r.2.2) = some held

theorem boundRound_here {attempt : ℕ → UdpAttempt} {n left : ℕ}
    (h : ((attempt n).rtpBind && (attempt n).rtcpBind) = true) :
    boundRound attempt n (left+1) = some n := by
  rw [boundRound, List.range'_succ]
  exact List.find?_cons_of_pos h

theorem boundRound_later {attempt : ℕ → UdpAttempt} {n left : ℕ}
    (h : ((attempt n).rtpBind && (attempt n).rtcpBind) = false) :
    boundRound attempt n (left+1) = boundRound attempt (n+1) left := by
  rw [boundRound, List.range'_succ]
  exact List.find?_cons_of_neg (Bool.eq_false_iff.mp h)

/-- A round that fails closes what it opened and leaves the number of its first socket behind. -/
theorem BindOutcome.failed_round {attempt : ℕ → UdpAttempt} {n left : ℕ} {t : RtpConnection}
    {r : Bool × RtpConnection × List Call} {pre : List Call}
    (hf : ((attempt n).rtpBind && (attempt n).rtcpBind) = false)
    (ht : t.rtpfd c ∈ opened pre) (hpre : ∀ held, Ledger.settle held (ledger pre) = some held)
    (h : BindOutcome t c attempt (n+1) left r) :
    BindOutcome s c attempt n (left+1) (r.1, r.2.1, pre ++ r.2.2) := by
  have hl (held : List ℤ) : Ledger.settle held (ledger (pre ++ r.2.2)) =
      Ledger.settle held (ledger r.2.2) := by
    rw [ledger_append, Ledger.settle_append (hpre held)]
  have ho (fd : ℤ) (hfd : fd ∈ opened r.2.2) : fd ∈ opened (pre ++ r.2.2) := by
    rw [opened_append]
    exact List.mem_append_right _ hfd
  refine ⟨?_, ?_⟩
  · intro k hk
    rw [boundRound_later hf] at hk
    obtain ⟨h1,h2,h3,h4,h5,h6⟩ := h.bound k hk
    exact ⟨h1, h2, h3, ho _ h4, ho _ h5, fun held => by rw [hl, h6]⟩
  · intro hn
    rw [boundRound_later hf] at hn
    obtain ⟨h1,h2,h3⟩ := h.unbound hn
    refine ⟨h1, Or.inl ?_, fun held => by rw [hl, h3]⟩
    rcases h2 with h2 | ⟨_,h2⟩
    · exact ho _ h2
    · -- no round is left: the cell still holds what this round put there
      dsimp only
      rw [h2, opened_append]
      exact List.mem_append_left _ ht

theorem bindLoop_outcome (attempt : ℕ → UdpAttempt) (left n : ℕ) :
    BindOutcome s c attempt n left (bindLoop c attempt left n s) := by
  induction left generalizing n s with
  | zero =>
    refine ⟨?_, ?_⟩
    · intro k hk
      contradiction
    · intro _
      exact ⟨rfl, Or.inr ⟨rfl, rfl⟩, fun _ => rfl⟩
  | succ left ih =>
    unfold bindLoop
    dsimp only
    by_cases h1 : (attempt n).rtpBind = true
    · rw [if_pos h1]
      by_cases h2 : (attempt n).rtcpBind = true
      · rw [if_pos h2]
        have hhere : boundRound attempt n (left+1) = some n :=
          boundRound_here (Bool.and_eq_true_iff.mpr ⟨h1, h2⟩)
        refine ⟨?_, ?_⟩
        · intro k hk
          obtain rfl := Option.some.inj (hhere.symm.trans hk)
          exact ⟨rfl, Function.update_self .., Function.update_self .., by simp [opened,
            Call.opened], by simp [opened, Call.opened], fun _ => rfl⟩
        · intro hn
          rw [hhere] at hn
          contradiction
      · rw [if_neg h2]
        have hf : ((attempt n).rtpBind && (attempt n).rtcpBind) = false := by
          rw [Bool.eq_false_iff.mpr h2, Bool.and_false]
        apply BindOutcome.failed_round s c hf ?_ ?_ (ih _ (n+1))
        · dsimp only
          rw [Function.update_self]
          simp [opened, Call.opened]
        · intro held
          change Ledger.settle held [.acquire _, .acquire _, .release _, .release _] = _
          rw [Ledger.settle, Ledger.settle_acquire_release, Ledger.settle,
            if_pos List.mem_cons_self, List.erase_cons_head, Ledger.settle]
    · rw [if_neg h1]
      have hf : ((attempt n).rtpBind && (attempt n).rtcpBind) = false := by
        rw [Bool.eq_false_iff.mpr h1, Bool.false_and]
      apply BindOutcome.failed_round s c hf ?_ ?_ (ih _ (n+1))
      · dsimp only
        rw [Function.update_self]
        simp [opened, Call.opened]
      · intro held
        change Ledger.settle held [.acquire _, .release _] = _
        rw [Ledger.settle_acquire_release, Ledger.settle]

@[simp] theorem setFrameType_fds (ty : UInt8) :
    (s.setFrameType ty).rtpfd = s.rtpfd ∧ (s.setFrameType ty).rtcpfd = s.rtcpfd := by
  unfold setFrameType
  dsimp only
  split <;> exact ⟨rfl, rfl⟩

theorem teardown_fds :
    s.teardown.tcpConn = s.tcpConn ∧ s.teardown.rtpfd = s.rtpfd ∧
      s.teardown.rtcpfd = s.rtcpfd := by
  unfold teardown
  split <;> exact ⟨rfl, rfl, rfl⟩

/-- What one operation does to the cells and to the ledger while the TCP connection lives. -/
structure StepFds (tcp : TcpHandle) (s : RtpConnection) (op : RtpOp) (s' : RtpConnection)
    (calls : List Call) : Prop where
  conn : s'.tcpConn = some tcp
  settles : ∀ held, Ledger.settle held (ledger calls) = some (op.acquired ++ held)
  acquired_opened : ∀ fd ∈ op.acquired, fd ∈ opened calls
  other : ∀ c, op.setsUp c = false → s'.rtpfd c = s.rtpfd c ∧ s'.rtcpfd c = s.rtcpfd c
  own : ∀ c, op.setsUp c = true → op.acquired = [s'.rtcpfd c, s'.rtpfd c] ∨
    (op.acquired = [] ∧ (s'.rtpfd c = tcp.fd ∨ s'.rtpfd c ∈ opened calls))

theorem StepFds.of_unchanged {tcp : TcpHandle} {s s' : RtpConnection} {op : RtpOp}
    {calls : List Call} (hop : op.acquired = []) (hset : ∀ c, op.setsUp c = false)
    (hconn : s'.tcpConn = some tcp) (hrtp : s'.rtpfd = s.rtpfd) (hrtcp : s'.rtcpfd = s.rtcpfd)
    (hcalls : ledger calls = []) : StepFds tcp s op s' calls := by
  refine ⟨hconn, ?_, ?_, ?_, ?_⟩
  · intro held
    rw [hcalls, hop]
    rfl
  · intro fd hfd
    rw [hop] at hfd
    contradiction
  · intro c _
    exact ⟨congrFun hrtp c, congrFun hrtcp c⟩
  · intro c hc
    rw [hset c] at hc
    contradiction

theorem sendRtpPacketInLoop_fds {tcp : TcpHandle} {s' : RtpConnection} {pkt : RtpPacket}
    {ret : ℤ} {calls : List Call} (ht : s.tcpConn = some tcp)
    (h : s.sendRtpPacketInLoop c pkt ret = .ok (s', calls)) :
    StepFds tcp s (.sendRtpPacketInLoop c pkt ret) s' calls := by
  have hconn : (s.setFrameType pkt.type).tcpConn = some tcp := by rw [setFrameType_tcpConn, ht]
  obtain ⟨hrtp,hrtcp⟩ := setFrameType_fds s pkt.type
  rcases sendRtpPacketInLoop_cases s c h with ⟨_,rfl,rfl⟩ | ⟨_,data,_,hsent⟩
  · exact StepFds.of_unchanged rfl (fun _ => rfl) hconn hrtp hrtcp rfl
  · rcases hsent with ⟨_,rfl,r,hr,rfl⟩ | ⟨_,r,hr,rfl,rfl⟩
    · refine StepFds.of_unchanged rfl (fun _ => rfl) hconn hrtp hrtcp ?_
      apply List.filterMap_eq_nil_iff.mpr
      intro x hx
      rcases List.mem_cons.mp hx with rfl | hx
      · rfl
      · obtain ⟨n,m,rfl⟩ := sendRtpOverTcp_calls _ c hr x hx
        rfl
    · obtain ⟨hs,m,hm⟩ := sendRtpOverUdp_calls _ c hr
      have hl : ledger (.overUdp c { pkt with data := data } :: r.2.2) = [] := by
        rw [hm]
        rfl
      rcases hs with hs | hs
      · rw [hs]
        exact StepFds.of_unchanged rfl (fun _ => rfl) hconn hrtp hrtcp hl
      · obtain ⟨h1,h2,h3⟩ := teardown_fds ((s.setFrameType pkt.type).afterHeader c pkt)
        rw [hs]
        exact StepFds.of_unchanged rfl (fun _ => rfl) (h1.trans hconn) (h2.trans hrtp)
          (h3.trans hrtcp) hl

theorem setupRtpOverTcp_fds {tcp : TcpHandle} (a b : UInt16) (ht : s.tcpConn = some tcp) :
    StepFds tcp s (.setupRtpOverTcp c a b) (s.setupRtpOverTcp c a b).2 [] := by
  unfold setupRtpOverTcp
  rw [ht]
  refine ⟨ht, fun _ => rfl, ?_, ?_, ?_⟩
  · intro fd hfd
    contradiction
  · intro d hd
    have hne : d ≠ c := fun h => of_decide_eq_false hd h.symm
    exact ⟨Function.update_of_ne hne .., Function.update_of_ne hne ..⟩
  · intro d hd
    obtain rfl := of_decide_eq_true hd
    exact Or.inr ⟨rfl, Or.inl (Function.update_self ..)⟩

theorem setupRtpOverUdp_fds {tcp : TcpHandle} (a b : UInt16) (attempt : ℕ → UdpAttempt)
    (ht : s.tcpConn = some tcp) :
    StepFds tcp s (.setupRtpOverUdp c a b attempt) (s.setupRtpOverUdp c a b attempt).2.1
      (s.setupRtpOverUdp c a b attempt).2.2 := by
  rw [setupRtpOverUdp_open s c a b attempt ht]
  have hout := bindLoop_outcome (s.beforeBind c tcp a b) c attempt 10 0
  obtain ⟨p,q,x,y,hframe⟩ := bindLoop_frame (s.beforeBind c tcp a b) c attempt 10 0
  generalize bindLoop c attempt 10 0 (s.beforeBind c tcp a b) = r at hout hframe ⊢
  obtain ⟨ok,t,calls⟩ := r
  dsimp only at hframe ⊢
  -- what follows the loop does not touch the cells
  have hend : (if ok = true then t.afterBind c else t).tcpConn = t.tcpConn ∧
      (if ok = true then t.afterBind c else t).rtpfd = t.rtpfd ∧
      (if ok = true then t.afterBind c else t).rtcpfd = t.rtcpfd := by
    split <;> exact ⟨rfl, rfl, rfl⟩
  obtain ⟨h1,h2,h3⟩ := hend
  have hconn : t.tcpConn = some tcp := by
    rw [hframe]
    exact ht
  have hother (d : MediaChannelId) (hd : RtpOp.setsUp d (.setupRtpOverUdp c a b attempt) = false) :
      t.rtpfd d = s.rtpfd d ∧ t.rtcpfd d = s.rtcpfd d := by
    have hne : d ≠ c := fun h => of_decide_eq_false hd h.symm
    rw [hframe]
    exact ⟨Function.update_of_ne hne .., Function.update_of_ne hne ..⟩
  cases hk : boundRound attempt 0 10 with
  | some k =>
    obtain ⟨_,hx,hy,ho,ho',hs⟩ := hout.bound k hk
    have hacq : RtpOp.acquired (.setupRtpOverUdp c a b attempt) = [t.rtcpfd c, t.rtpfd c] := by
      dsimp only at hx hy
      simp only [RtpOp.acquired, hk, hx, hy]
    refine ⟨h1.trans hconn, ?_, ?_, ?_, ?_⟩
    · intro held
      rw [hs, hacq, hx, hy]
      rfl
    · intro fd hfd
      rw [hacq] at hfd
      rcases List.mem_cons.mp hfd with rfl | hfd
      · rwa [hy]
      · rwa [List.mem_singleton.mp hfd, hx]
    · intro d hd
      rw [h2, h3]
      exact hother d hd
    · intro d hd
      obtain rfl := of_decide_eq_true hd
      rw [h2, h3]
      exact Or.inl hacq
  | none =>
    obtain ⟨_,hfd,hs⟩ := hout.unbound hk
    have hacq : RtpOp.acquired (.setupRtpOverUdp c a b attempt) = [] := by
      simp only [RtpOp.acquired, hk]
    refine ⟨h1.trans hconn, ?_, ?_, ?_, ?_⟩
    · intro held
      rw [hs, hacq]
      rfl
    · intro fd hfd
      rw [hacq] at hfd
      contradiction
    · intro d hd
      rw [h2, h3]
      exact hother d hd
    · intro d hd
      obtain rfl := of_decide_eq_true hd
      rw [h2]
      rcases hfd with hfd | ⟨h10,_⟩
      · exact Or.inr ⟨hacq, Or.inr hfd⟩
      · contradiction

theorem step_fds {tcp : TcpHandle} {s' : RtpConnection} {op : RtpOp} {calls : List Call}
    (ht : s.tcpConn = some tcp) (h : s.step op = .ok (s', calls)) :
    StepFds tcp s op s' calls := by
  cases op with
  | setupRtpOverTcp d a b =>
    obtain ⟨rfl,rfl⟩ := Prod.mk.inj (Except.ok.inj h)
    exact setupRtpOverTcp_fds s d a b ht
  | setupRtpOverUdp d a b attempt =>
    have hu := setupRtpOverUdp_fds s d a b attempt ht
    rwa [Except.ok.inj h] at hu
  | sendRtpPacketInLoop d pkt ret => exact sendRtpPacketInLoop_fds s d ht h
  | teardown =>
    obtain ⟨rfl,rfl⟩ := Prod.mk.inj (Except.ok.inj h)
    obtain ⟨h1,h2,h3⟩ := teardown_fds s
    exact StepFds.of_unchanged rfl (fun _ => rfl) (h1.trans ht) h2 h3 rfl
  | _ =>
    obtain ⟨rfl,rfl⟩ := Prod.mk.inj (Except.ok.inj h)
    exact StepFds.of_unchanged rfl (fun _ => rfl) ht rfl rfl rfl

/-- What is known after a run that started in the constructor. -/
structure FdInvariant (tcp : TcpHandle) (ops : List RtpOp) (s : RtpConnection)
    (calls : List Call) : Prop where
  conn : s.tcpConn = some tcp
  held : ∃ held, Ledger.settle [] (ledger calls) = some held ∧
    held.Perm (ops.flatMap RtpOp.acquired)
  acquired_opened : ∀ fd ∈ ops.flatMap RtpOp.acquired, fd ∈ opened calls
  untouched : ∀ c, setups c ops = [] → s.rtpfd c = 0 ∧ s.rtcpfd c = 0
  /-- The last setup of a channel acquired what its cells hold, or it acquired nothing and the
  first cell holds a number that is not the connection's own. -/
  last : ∀ c, ∀ op ∈ (setups c ops).getLast?, op.acquired = [s.rtcpfd c, s.rtpfd c] ∨
    (op.acquired = [] ∧ (s.rtpfd c = tcp.fd ∨ (s.rtpfd c ∈ opened calls ∧
      ((opened calls).Nodup → s.rtpfd c ∉ ops.flatMap RtpOp.acquired))))

theorem setups_append_of_other {c : MediaChannelId} {ops : List RtpOp} {op : RtpOp}
    (h : op.setsUp c = false) : setups c (ops ++ [op]) = setups c ops := by
  rw [setups, List.filter_append, List.filter_cons_of_neg (by rw [h]; decide), List.filter_nil,
    List.append_nil, setups]

theorem setups_append_of_own {c : MediaChannelId} {ops : List RtpOp} {op : RtpOp}
    (h : op.setsUp c = true) : setups c (ops ++ [op]) = setups c ops ++ [op] := by
  rw [setups, List.filter_append, List.filter_cons_of_pos h, List.filter_nil, setups]

theorem FdInvariant.step {tcp : TcpHandle} {ops : List RtpOp} {s s' : RtpConnection} {op : RtpOp}
    {calls out : List Call} (hi : FdInvariant tcp ops s calls)
    (hs : StepFds tcp s op s' out) : FdInvariant tcp (ops ++ [op]) s' (calls ++ out) := by
  have hacq : (ops ++ [op]).flatMap RtpOp.acquired =
      ops.flatMap RtpOp.acquired ++ op.acquired := by
    rw [List.flatMap_append, List.flatMap_singleton]
  refine ⟨hs.conn, ?_, ?_, ?_, ?_⟩
  · obtain ⟨held,hh,hp⟩ := hi.held
    refine ⟨op.acquired ++ held, ?_, ?_⟩
    · rw [ledger_append, Ledger.settle_append hh, hs.settles]
    · rw [hacq]
      exact (hp.append_left _).trans List.perm_append_comm
  · intro fd hfd
    rw [hacq] at hfd
    rw [opened_append]
    rcases List.mem_append.mp hfd with hfd | hfd
    · exact List.mem_append_left _ (hi.acquired_opened fd hfd)
    · exact List.mem_append_right _ (hs.acquired_opened fd hfd)
  · intro c hc
    cases hset : op.setsUp c with
    | true =>
      rw [setups_append_of_own hset] at hc
      exact absurd hc (List.append_ne_nil_of_right_ne_nil _ (List.cons_ne_nil op []))
    | false =>
      rw [setups_append_of_other hset] at hc
      obtain ⟨h1,h2⟩ := hs.other c hset
      rw [h1, h2]
      exact hi.untouched c hc
  · intro c o ho
    cases hset : op.setsUp c with
    | true =>
      rw [setups_append_of_own hset, List.getLast?_concat] at ho
      obtain rfl := Option.some.inj ho
      rcases hs.own c hset with h | ⟨h0,h | h⟩
      · exact Or.inl h
      · exact Or.inr ⟨h0, Or.inl h⟩
      · refine Or.inr ⟨h0, Or.inr ⟨?_, ?_⟩⟩
        · rw [opened_append]
          exact List.mem_append_right _ h
        · -- this step opened the number, so no earlier one did
          intro hn hm
          rw [hacq, h0, List.append_nil] at hm
          rw [opened_append] at hn
          exact List.disjoint_of_nodup_append hn (hi.acquired_opened _ hm) h
    | false =>
      rw [setups_append_of_other hset] at ho
      obtain ⟨h1,h2⟩ := hs.other c hset
      rw [h1, h2]
      rcases hi.last c o ho with h | ⟨h0,h | ⟨h,hnew⟩⟩
      · exact Or.inl h
      · exact Or.inr ⟨h0, Or.inl h⟩
      · refine Or.inr ⟨h0, Or.inr ⟨?_, ?_⟩⟩
        · rw [opened_append]
          exact List.mem_append_left _ h
        · intro hn hm
          rw [opened_append] at hn
          rw [hacq] at hm
          rcases List.mem_append.mp hm with hm | hm
          · exact hnew (List.Nodup.of_append_left hn) hm
          · exact List.disjoint_of_nodup_append hn h (hs.acquired_opened _ hm)

theorem run_fds (mem : RtpConnection) (tcp : TcpHandle) (rd : MediaChannelId → ℕ → UInt32)
    {s' : RtpConnection} {ops : List RtpOp} {calls : List Call}
    (h : (new mem tcp rd).run ops = .ok (s', calls)) : FdInvariant tcp ops s' calls := by
  induction ops using List.reverseRecOn generalizing s' calls with
  | nil =>
    obtain ⟨rfl,rfl⟩ := Prod.mk.inj (Except.ok.inj h)
    refine ⟨rfl, ⟨[], rfl, List.Perm.refl _⟩, ?_, ?_, ?_⟩
    · intro fd hfd
      contradiction
    · intro c _
      exact ⟨rfl, rfl⟩
    · intro c op hop
      contradiction
  | append_singleton ops op ih =>
    obtain ⟨s1,o1,o2,h1,h2,rfl⟩ := Runs.run_append_ok h
    obtain ⟨s2,o3,o4,h3,h4,rfl⟩ := Runs.run_cons_ok h2
    obtain ⟨rfl,rfl⟩ := Prod.mk.inj (Except.ok.inj h4)
    rw [List.append_nil]
    exact (ih h1).step (step_fds s1 (ih h1).conn h3)

/-- The entries of one channel that the destructor closes. -/
def cells : List ℤ :=
  (if 0 < s.rtpfd c then [s.rtpfd c] else []) ++ (if 0 < s.rtcpfd c then [s.rtcpfd c] else [])

theorem ledger_destroy :
    ledger s.destroy = (mediaChannels.flatMap s.cells).map Ledger.Event.release := by
  have hone (x : ℤ) : (if 0 < x then [Call.close x] else []).filterMap Call.event =
      (if 0 < x then [x] else []).map Ledger.Event.release := by
    split <;> rfl
  simp only [destroy, ledger, mediaChannels, cells, List.flatMap_cons, List.flatMap_nil,
    List.append_nil, List.filterMap_append, hone, List.map_append]

/-- The destructor settles the ledger exactly when it closes what the setups left open. -/
theorem settled_iff_perm {tcp : TcpHandle} {ops : List RtpOp} {calls : List Call}
    (hi : FdInvariant tcp ops s calls) :
    Ledger.settle [] (ledger (calls ++ s.destroy)) = some [] ↔
      (ops.flatMap RtpOp.acquired).Perm (mediaChannels.flatMap s.cells) := by
  obtain ⟨held,hh,hp⟩ := hi.held
  rw [ledger_append, Ledger.settle_append hh, ledger_destroy, Ledger.settle_releases]
  exact ⟨fun h => hp.symm.trans h, fun h => hp.trans h⟩

theorem acquired_of_other {op : RtpOp} (h : ∀ c, op.setsUp c = false) : op.acquired = [] := by
  cases op with
  | setupRtpOverUdp c a b attempt => exact absurd (h c) (by simp [RtpOp.setsUp])
  | _ => rfl

theorem setsUp_of_ne {op : RtpOp} {c d : MediaChannelId} (h : op.setsUp c = true) (hd : d ≠ c) :
    op.setsUp d = false := by
  cases op with
  | setupRtpOverUdp e a b attempt =>
    obtain rfl := of_decide_eq_true h
    exact decide_eq_false (fun he => hd he.symm)
  | setupRtpOverTcp e a b =>
    obtain rfl := of_decide_eq_true h
    exact decide_eq_false (fun he => hd he.symm)
  | _ => contradiction

/-- What is acquired is acquired by the setups of one channel or the other. -/
theorem acquired_perm_channels (ops : List RtpOp) :
    (ops.flatMap RtpOp.acquired).Perm
      (mediaChannels.flatMap (fun c => (setups c ops).flatMap RtpOp.acquired)) := by
  simp only [mediaChannels, List.flatMap_cons, List.flatMap_nil, List.append_nil]
  induction ops with
  | nil => exact List.Perm.refl _
  | cons op ops ih =>
    rw [List.flatMap_cons]
    by_cases h0 : op.setsUp .channel_0 = true
    · have h1 : op.setsUp .channel_1 = false := setsUp_of_ne h0 (by decide)
      rw [setups, List.filter_cons_of_pos h0, setups, List.filter_cons_of_neg (by rw [h1]; decide),
        List.flatMap_cons, List.append_assoc]
      exact ih.append_left _
    · have h0' := Bool.eq_false_iff.mpr h0
      rw [setups, List.filter_cons_of_neg h0]
      by_cases h1 : op.setsUp .channel_1 = true
      · rw [setups, List.filter_cons_of_pos h1, List.flatMap_cons]
        refine (ih.append_left _).trans ?_
        rw [← List.append_assoc, ← List.append_assoc]
        exact List.perm_append_comm.append_right _
      · have h1' := Bool.eq_false_iff.mpr h1
        have hnil : op.acquired = [] := by
          apply acquired_of_other
          intro c
          cases c with
          | channel_0 => exact h0'
          | channel_1 => exact h1'
        rw [setups, List.filter_cons_of_neg h1, hnil]
        exact ih

theorem flatMap_acquired_unbound {l : List RtpOp} (h : l.countP RtpOp.binds = 0) :
    l.flatMap RtpOp.acquired = [] := by
  rw [List.countP_eq_zero] at h
  rw [List.flatMap_eq_nil_iff]
  intro op hop
  exact acquired_eq_nil (Bool.eq_false_iff.mpr (h op hop))

theorem length_flatMap_acquired (l : List RtpOp) :
    (l.flatMap RtpOp.acquired).length = 2*l.countP RtpOp.binds := by
  induction l with
  | nil => rfl
  | cons op l ih =>
    rw [List.flatMap_cons, List.length_append, ih]
    by_cases hb : op.binds = true
    · rw [length_acquired hb, List.countP_cons_of_pos hb]
      omega
    · rw [acquired_eq_nil (Bool.eq_false_iff.mpr hb), List.countP_cons_of_neg hb]
      simp

/-- A channel whose only binding is its last setup holds what it acquired. -/
theorem cells_perm_of_sole {tcp : TcpHandle} {ops : List RtpOp} {calls : List Call}
    (hi : FdInvariant tcp ops s calls) (hpos : ∀ fd ∈ opened calls, 0 < fd)
    (hc : SoleBinding c ops) : ((setups c ops).flatMap RtpOp.acquired).Perm (s.cells c) := by
  rcases List.eq_nil_or_concat (setups c ops) with hn | ⟨pre,op,hpre⟩
  · obtain ⟨h1,h2⟩ := hi.untouched c hn
    rw [hn, cells, h1, h2]
    exact List.Perm.refl _
  · have hlast : op ∈ (setups c ops).getLast? := by
      rw [hpre, List.concat_eq_append, List.getLast?_concat]
      rfl
    have hb := hc.1 op hlast
    have hmem : op ∈ ops := List.mem_of_mem_filter (List.mem_of_getLast? hlast)
    have hcount := hc.2
    rw [hpre, List.concat_eq_append, List.countP_append, List.countP_singleton, if_pos hb]
      at hcount
    rw [hpre, List.concat_eq_append, List.flatMap_append, flatMap_acquired_unbound (by omega),
      List.nil_append, List.flatMap_singleton]
    rcases hi.last c op hlast with h | ⟨h,_⟩
    · have hfd (x : ℤ) (hx : x ∈ op.acquired) : 0 < x :=
        hpos x (hi.acquired_opened x (List.mem_flatMap.mpr ⟨op, hmem, hx⟩))
      rw [h] at hfd ⊢
      rw [cells, if_pos (hfd _ (by simp)), if_pos (hfd _ (by simp))]
      exact List.Perm.swap _ _ []
    · have hl := length_acquired hb
      rw [h] at hl
      contradiction

/-- In a settled run the last setup of a channel has bound its ports, and the cells hold two
descriptors. -/
theorem last_binds_of_settled {tcp : TcpHandle} {ops : List RtpOp} {calls : List Call}
    {op : RtpOp} (hi : FdInvariant tcp ops s calls) (htcp : 0 < tcp.fd)
    (hfd : ∀ fd ∈ opened calls, 0 < fd ∧ fd ≠ tcp.fd) (hn : (opened calls).Nodup)
    (hp : (ops.flatMap RtpOp.acquired).Perm (mediaChannels.flatMap s.cells))
    (hlast : op ∈ (setups c ops).getLast?) : op.binds = true ∧ (s.cells c).length = 2 := by
  have hmem : op ∈ ops := List.mem_of_mem_filter (List.mem_of_getLast? hlast)
  have hcell (h : 0 < s.rtpfd c) : s.rtpfd c ∈ ops.flatMap RtpOp.acquired := by
    apply hp.mem_iff.mpr
    apply List.mem_flatMap.mpr
    exact ⟨c, mem_mediaChannels c, by rw [cells, if_pos h]; simp⟩
  rcases hi.last c op hlast with h | ⟨_,h | ⟨h,hnew⟩⟩
  · have hpos (x : ℤ) (hx : x ∈ op.acquired) : 0 < x :=
      (hfd x (hi.acquired_opened x (List.mem_flatMap.mpr ⟨op, hmem, hx⟩))).1
    refine ⟨binds_of_acquired (by rw [h]; exact List.cons_ne_nil _ _), ?_⟩
    rw [h] at hpos
    rw [cells, if_pos (hpos _ (by simp)), if_pos (hpos _ (by simp))]
    rfl
  · have hm := hcell (by rw [h]; exact htcp)
    exact absurd h (hfd _ (hi.acquired_opened _ hm)).2
  · exact absurd (hcell (hfd _ h).1) (hnew hn)

end RtpConnection

/-- A settled run never closes the descriptor it borrowed. -/
theorem close_tcp_not_mem {tcp : TcpHandle} {calls : List Call}
    (hs : Ledger.settle [] (ledger calls) = some []) (hfd : ∀ fd ∈ opened calls, fd ≠ tcp.fd) :
    Call.close tcp.fd ∉ calls := by
  intro hm
  have he : Ledger.Event.release tcp.fd ∈ ledger calls := List.mem_filterMap.mpr ⟨_, hm, rfl⟩
  rcases Ledger.mem_of_release hs he with h | h
  · contradiction
  · obtain ⟨x,hx,hxe⟩ := List.mem_filterMap.mp h
    cases x with
    | socket y =>
      obtain rfl := Ledger.Event.acquire.inj (Option.some.inj hxe)
      exact hfd _ (mem_opened.mpr hx) rfl
    | close y =>
      have hne := Option.some.inj hxe
      contradiction
    | _ => contradiction

theorem opened_destroy (s : RtpConnection) : opened s.destroy = [] := by
  have hone (x : ℤ) : (if 0 < x then [Call.close x] else []).filterMap Call.opened = [] := by
    split <;> rfl
  simp only [opened, RtpConnection.destroy, mediaChannels, List.flatMap_cons, List.flatMap_nil,
    List.append_nil, List.filterMap_append, hone]

/-- If on every channel the only binding is the last setup, then the destructor leaves the
descriptors in order. Where the kernel gives out no number twice this is also necessary. -/
theorem descriptors_owned (mem : RtpConnection) (tcp : TcpHandle)
    (rd : MediaChannelId → ℕ → UInt32) (ops : List RtpOp) (s' : RtpConnection)
    (calls : List Call) (h : (RtpConnection.new mem tcp rd).run ops = .ok (s', calls))
    (htcp : 0 < tcp.fd) (hfd : ∀ fd ∈ opened calls, 0 < fd ∧ fd ≠ tcp.fd) :
    ((∀ c, SoleBinding c ops) → OwnsDescriptors tcp (calls ++ s'.destroy)) ∧
    ((opened calls).Nodup → OwnsDescriptors tcp (calls ++ s'.destroy) →
      ∀ c, SoleBinding c ops) := by
  have hi := RtpConnection.run_fds mem tcp rd h
  have hchannels := RtpConnection.acquired_perm_channels ops
  refine ⟨?_, ?_⟩
  · intro hc
    have hsettled : Ledger.settle [] (ledger (calls ++ s'.destroy)) = some [] := by
      apply (RtpConnection.settled_iff_perm s' hi).mpr
      apply hchannels.trans
      apply List.Perm.flatMap_left
      intro c _
      exact RtpConnection.cells_perm_of_sole s' c hi (fun fd hf => (hfd fd hf).1) (hc c)
    refine ⟨hsettled, close_tcp_not_mem hsettled ?_⟩
    intro fd hf
    rw [opened_append, opened_destroy, List.append_nil] at hf
    exact (hfd fd hf).2
  · intro hn hown
    have hp := (RtpConnection.settled_iff_perm s' hi).mp hown.1
    have hlast (c : MediaChannelId) (op : RtpOp) (hop : op ∈ (setups c ops).getLast?) :=
      RtpConnection.last_binds_of_settled s' c hi htcp hfd hn hp hop
    -- every channel holds at most two descriptors, and two for every binding have to be closed
    have hcount : 2*(setups .channel_0 ops).countP RtpOp.binds +
        2*(setups .channel_1 ops).countP RtpOp.binds =
        (s'.cells .channel_0).length + (s'.cells .channel_1).length := by
      have hl := (hchannels.symm.trans hp).length_eq
      simpa only [mediaChannels, List.flatMap_cons, List.flatMap_nil, List.append_nil,
        List.length_append, RtpConnection.length_flatMap_acquired] using hl
    have hcells (c : MediaChannelId) :
        (setups c ops).countP RtpOp.binds = 0 ∧ (s'.cells c).length = 0 ∨
        1 ≤ (setups c ops).countP RtpOp.binds ∧ (s'.cells c).length = 2 := by
      rcases List.eq_nil_or_concat (setups c ops) with hnil | ⟨pre,op,hpre⟩
      · obtain ⟨h1,h2⟩ := hi.untouched c hnil
        refine Or.inl ⟨by rw [hnil]; rfl, ?_⟩
        rw [RtpConnection.cells, h1, h2]
        rfl
      · have hop : op ∈ (setups c ops).getLast? := by
          rw [hpre, List.concat_eq_append, List.getLast?_concat]
          rfl
        obtain ⟨hb,hl⟩ := hlast c op hop
        refine Or.inr ⟨?_, hl⟩
        apply List.countP_pos_iff.mpr
        exact ⟨op, List.mem_of_getLast? hop, hb⟩
    intro c
    refine ⟨fun op hop => (hlast c op hop).1, ?_⟩
    have h0 := hcells .channel_0
    have h1 := hcells .channel_1
    cases c with
    | channel_0 => omega
    | channel_1 => omega

/-- Two ports are bound in the third round, after one failure of each kind. -/
def threeRounds : ℕ → UdpAttempt
  | 0 => ⟨5000, 20, false, 0, false⟩
  | 1 => ⟨5002, 21, true, 22, false⟩
  | _ => ⟨5004, 23, true, 24, true⟩

/-- A client that sets a channel up over TCP and then, instead, over UDP. -/
def udpOps : List RtpOp :=
  [.setupRtpOverTcp .channel_0 0 1, .setupRtpOverUdp .channel_0 6000 6001 threeRounds, .play]

theorem descriptors_owned_udp :
    ∃ s' calls, (RtpConnection.new .zeroed ⟨ascii "c", 9, ⟨0, 0⟩⟩ (fun _ _ => 0)).run udpOps =
        .ok (s', calls) ∧ OwnsDescriptors ⟨ascii "c", 9, ⟨0, 0⟩⟩ (calls ++ s'.destroy) := by
  refine ⟨_, _, rfl, ?_⟩
  refine (descriptors_owned .zeroed ⟨ascii "c", 9, ⟨0, 0⟩⟩ (fun _ _ => 0) udpOps _ _ rfl
    (by decide) (by decide)).1 ?_
  intro c
  cases c <;> decide

/-- One setup over TCP is enough for the destructor to close a descriptor it does not own. -/
theorem descriptors_not_owned_tcp :
    ¬ ∀ (mem : RtpConnection) (tcp : TcpHandle) (rd : MediaChannelId → ℕ → UInt32)
      (ops : List RtpOp) (s' : RtpConnection) (calls : List Call),
      (RtpConnection.new mem tcp rd).run ops = .ok (s', calls) → 0 < tcp.fd →
      (∀ fd ∈ opened calls, 0 < fd ∧ fd ≠ tcp.fd) → OwnsDescriptors tcp (calls ++ s'.destroy) := by
  intro hall
  have h := hall .zeroed ⟨ascii "c", 9, ⟨0, 0⟩⟩ (fun _ _ => 0)
    [.setupRtpOverTcp .channel_0 0 1] _ _ rfl (by decide) (by decide)
  exact h.2 (by decide)

end IdealServer
