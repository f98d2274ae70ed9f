import IdealServer.EpollPoller

/-! Whether the kernel watches channels that ask for nothing. It reports `EPOLLHUP` and `EPOLLERR` for
every descriptor in its set, whatever the mask is. -/
namespace IdealServer

/-- The channel has no events and is in the set all the same. -/
def Channel.Idle (ch : Channel) : Prop := ch.isNoneEvent = true ∧ ch.label = .kAdded

namespace EpollPoller

/-- No channel without events is registered. -/
def Quiet (s : EpollPoller) : Prop :=
  ∀ p c, s.live p = some c → c.channel.isNoneEvent = true → s.interest c.fd = none

/-- An operation that takes the last interest from a channel takes it from one that is in the set. -/
def Effective (s : EpollPoller) : PollerOp → Prop
  | .disableReading p => ∀ c, s.live p = some c → c.channel.writing = true ∨ c.channel.label = .kAdded
  | .disableWriting p => ∀ c, s.live p = some c → c.channel.reading = true ∨ c.channel.label = .kAdded
  | .disableAll p => ∀ c, s.live p = some c → c.channel.label = .kAdded
  | .create _ _ | .enableReading _ | .enableWriting _ | .remove _ | .destroy _ => True

end EpollPoller

/-- `update` adds a channel without events where it was not in the set, and deletes it where it was. -/
theorem Channel.idle_update (ch : Channel) :
    ch.update.Idle ↔ ch.isNoneEvent = true ∧ ch.label ≠ .kAdded := by
  have hnone : ch.update.isNoneEvent = ch.isNoneEvent := rfl
  unfold Idle
  rw [hnone]
  apply and_congr_right
  intro h
  unfold update
  cases hlabel : ch.label <;> simp [h]

theorem Channel.not_idle_of_kNew {ch : Channel} (h : ch.label = .kNew) : ¬ch.Idle := by
  intro hidle
  rw [hidle.2] at h
  cases h

namespace EpollPoller

variable {s s' : EpollPoller} {p : ChannelPtr} {c : LiveChannel} {calls : List EpollCall}

theorem Consistent.quiet_iff (h : s.Consistent) :
    s.Quiet ↔ ∀ p c, s.live p = some c → ¬c.channel.Idle := by
  have hmask {p : ChannelPtr} {c : LiveChannel} (hp : s.live p = some c) :
      s.interest c.fd = none ↔ c.channel.label ≠ .kAdded := by
    rw [h.mask p c hp, LiveChannel.mask]
    split
    case isTrue hadded => simp [hadded]
    case isFalse hnot => simp [hnot]
  constructor
  · intro hq p c hp hidle
    exact (hmask hp).mp (hq p c hp hidle.1) hidle.2
  · intro hq p c hp hnone
    apply (hmask hp).mpr
    intro hadded
    exact hq p c hp ⟨hnone, hadded⟩

/-- Where one channel changes, it alone decides. -/
theorem Consistent.quiet_update (h : s.Consistent) (hq : s.Quiet) (h' : s'.Consistent)
    {v : Option LiveChannel} (hlive : s'.live = Function.update s.live p v) :
    s'.Quiet ↔ ∀ c, v = some c → ¬c.channel.Idle := by
  rw [h.quiet_iff] at hq
  rw [h'.quiet_iff, hlive]
  constructor
  · intro hall c hc
    apply hall p c
    rw [Function.update_self, hc]
  · intro hone q c hc
    by_cases hqp : q = p
    · rw [hqp, Function.update_self] at hc
      exact hone c hc
    · rw [Function.update_of_ne hqp] at hc
      exact hq q c hc

/-- The same for an operation on the events of a channel. -/
theorem Consistent.quiet_modify (h : s.Consistent) (hq : s.Quiet) (hp : (s.live p).isSome = true)
    {f : Channel → Channel} (hf : ∀ ch, (f ch).label = ch.label) : ∃ s' calls,
    s.modify p f = .ok (s', calls) ∧ s'.Consistent ∧
    (s'.Quiet ↔ ∀ c, s.live p = some c → (f c.channel).isNoneEvent = true → c.channel.label = .kAdded) := by
  obtain ⟨c,hc⟩ := Option.isSome_iff_exists.mp hp
  obtain ⟨s',calls,hok,hs',_,hlive⟩ := h.modify hc (hf c.channel)
  refine ⟨s', calls, hok, hs', ?_⟩
  rw [h.quiet_update hq hs' hlive]
  have hidle := Channel.idle_update (f c.channel)
  rw [hf] at hidle
  constructor
  · intro hall d hd hnone
    rw [hc] at hd
    cases hd
    by_contra hne
    exact hall _ rfl (hidle.mpr ⟨hnone, hne⟩)
  · intro hall d hd hbad
    cases hd
    obtain ⟨hnone,hne⟩ := hidle.mp hbad
    exact hne (hall c hc hnone)

theorem Consistent.quiet_step (h : s.Consistent) (hq : s.Quiet) {op : PollerOp} (hop : s.Allowed op) :
    ∃ s' calls, s.step op = .ok (s', calls) ∧ s'.Consistent ∧ (s'.Quiet ↔ s.Effective op) := by
  cases op with
  | create p fd =>
    obtain ⟨hnone,hfree⟩ := hop
    have hs' := h.create hnone hfree
    refine ⟨_, [], rfl, hs', ?_⟩
    rw [h.quiet_update hq hs' rfl]
    refine iff_of_true ?_ trivial
    intro c hc
    cases hc
    exact Channel.not_idle_of_kNew rfl
  | enableReading p =>
    obtain ⟨s',calls,hok,hs',hiff⟩ :=
      h.quiet_modify hq hop (f := fun ch => { ch with reading := true }) (fun _ => rfl)
    refine ⟨s', calls, hok, hs', ?_⟩
    rw [hiff]
    exact iff_of_true (fun c _ hnone => by cases hnone) trivial
  | disableReading p =>
    obtain ⟨s',calls,hok,hs',hiff⟩ :=
      h.quiet_modify hq hop (f := fun ch => { ch with reading := false }) (fun _ => rfl)
    refine ⟨s', calls, hok, hs', ?_⟩
    rw [hiff]
    apply forall₂_congr
    intro c _
    cases c.channel.writing <;> simp [Channel.isNoneEvent]
  | enableWriting p =>
    obtain ⟨s',calls,hok,hs',hiff⟩ :=
      h.quiet_modify hq hop (f := fun ch => { ch with writing := true }) (fun _ => rfl)
    refine ⟨s', calls, hok, hs', ?_⟩
    rw [hiff]
    refine iff_of_true ?_ trivial
    intro c _ hnone
    simp [Channel.isNoneEvent] at hnone
  | disableWriting p =>
    obtain ⟨s',calls,hok,hs',hiff⟩ :=
      h.quiet_modify hq hop (f := fun ch => { ch with writing := false }) (fun _ => rfl)
    refine ⟨s', calls, hok, hs', ?_⟩
    rw [hiff]
    apply forall₂_congr
    intro c _
    cases c.channel.reading <;> simp [Channel.isNoneEvent]
  | disableAll p =>
    obtain ⟨s',calls,hok,hs',hiff⟩ :=
      h.quiet_modify hq hop (f := fun ch => { ch with reading := false, writing := false }) (fun _ => rfl)
    refine ⟨s', calls, hok, hs', ?_⟩
    rw [hiff]
    apply forall₂_congr
    intro c _
    simp [Channel.isNoneEvent]
  | remove p =>
    obtain ⟨c,hp,hnone,hadded⟩ := hop
    obtain ⟨s',calls,hok,hs',_,hlive⟩ := h.remove hp hnone hadded
    refine ⟨s', calls, hok, hs', ?_⟩
    rw [h.quiet_update hq hs' hlive]
    refine iff_of_true ?_ trivial
    intro d hd
    cases hd
    exact Channel.not_idle_of_kNew rfl
  | destroy p =>
    obtain ⟨c,hp,hadded⟩ := hop
    obtain ⟨s',hok,hs',hlive⟩ := h.destroy hp hadded
    refine ⟨s', [], hok, hs', ?_⟩
    rw [h.quiet_update hq hs' hlive]
    exact iff_of_true (fun d hd => by cases hd) trivial

end EpollPoller

/-- In the runs in which channels have their descriptors to themselves, a channel without events is
never registered exactly if every operation that leaves a channel without events finds it registered. -/
theorem idle_not_polled (ops : List PollerOp)
    (h : Runs.Along EpollPoller.step EpollPoller.Allowed EpollPoller.new ops) :
    (∀ n s calls, EpollPoller.new.run (ops.take n) = .ok (s, calls) → s.Quiet) ↔
    Runs.Along EpollPoller.step EpollPoller.Effective EpollPoller.new ops := by
  have hstep (s : EpollPoller) (op : PollerOp) (hs : s.Consistent) (hq : s.Quiet) (hop : s.Allowed op) :
      (∃ s' calls, s.step op = .ok (s', calls) ∧ s'.Consistent ∧ (s'.Quiet ↔ s.Effective op)) ∨
      (∃ fault, s.step op = .error fault ∧ s.Effective op) := Or.inl (hs.quiet_step hq hop)
  have hnew : EpollPoller.new.Quiet := fun p c hp => by cases hp
  exact Runs.along_iff EpollPoller.Consistent EpollPoller.Quiet hstep EpollPoller.consistent_new hnew h

/-- A channel that turns from reading to writing, stops and starts again. -/
theorem idle_not_polled_toggled :
    let ops := [.create 1 7, .enableReading 1, .enableWriting 1, .disableReading 1, .disableAll 1, .enableWriting 1]
    Runs.Along EpollPoller.step EpollPoller.Effective EpollPoller.new ops ∧
      ∀ n s calls, EpollPoller.new.run (ops.take n) = .ok (s, calls) → s.Quiet := by
  intro ops
  have heffective : Runs.Along EpollPoller.step EpollPoller.Effective EpollPoller.new ops := by
    refine Runs.along_cons trivial rfl ?_
    refine Runs.along_cons trivial rfl ?_
    refine Runs.along_cons trivial rfl ?_
    refine Runs.along_cons (fun c hc => by cases hc; exact Or.inl rfl) rfl ?_
    refine Runs.along_cons (fun c hc => by cases hc; rfl) rfl ?_
    exact Runs.along_cons trivial rfl trivial
  refine ⟨heffective, (idle_not_polled ops ?_).mpr heffective⟩
  refine Runs.along_cons ⟨rfl, fun q c hq => (by cases hq)⟩ rfl ?_
  refine Runs.along_cons rfl rfl ?_
  refine Runs.along_cons rfl rfl ?_
  refine Runs.along_cons rfl rfl ?_
  refine Runs.along_cons rfl rfl ?_
  exact Runs.along_cons rfl rfl trivial

/-- `connectEstablished`, `handleClose` and `stopReadInLoop` of a connection, and what they do to its
channel. -/
theorem idle_not_polled_fails :
    (∃ c c' e e', (TcpConnection.new 0 false false).connectEstablished = .ok (c, e) ∧
      c.handleClose = .ok (c', e') ∧ c'.stopReadInLoop.channel = ⟨false, false, true, .kAdded⟩) ∧
    ∃ s calls, Runs.Along EpollPoller.step EpollPoller.Allowed EpollPoller.new
        [.create 1 7, .enableReading 1, .disableAll 1, .disableReading 1] ∧
      EpollPoller.new.run [.create 1 7, .enableReading 1, .disableAll 1, .disableReading 1] =
        .ok (s, calls) ∧
      s.live 1 = some ⟨7, ⟨false, false, true, .kAdded⟩⟩ ∧ s.interest 7 = some (0, 1) ∧ ¬s.Quiet := by
  refine ⟨⟨_, _, _, _, rfl, rfl, rfl⟩, _, _, ?_, rfl, rfl, rfl, ?_⟩
  · refine Runs.along_cons ⟨rfl, fun q c hq => (by cases hq)⟩ rfl ?_
    refine Runs.along_cons rfl rfl ?_
    refine Runs.along_cons rfl rfl ?_
    exact Runs.along_cons rfl rfl trivial
  · intro hq
    cases hq 1 _ rfl rfl

end IdealServer
