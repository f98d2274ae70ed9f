import IdealServer.Runs
import IdealServer.TcpConnection
import Mathlib.Logic.Function.Basic

/-! The channels of a loop, the map of its poller and the interest set of the kernel. -/
namespace IdealServer

def kReadEvent : ℕ := 3
def kWriteEvent : ℕ := 4

/-- `events()` as a mask. -/
def Channel.events (ch : Channel) : ℕ :=
  (if ch.reading then kReadEvent else 0)+(if ch.writing then kWriteEvent else 0)

/-- A `Channel` with its descriptor. -/
structure LiveChannel where
  fd : ℤ
  channel : Channel
deriving DecidableEq, Repr

abbrev ChannelPtr := ℕ

inductive EpollCtl
  | ADD
  | MOD
  | DEL
deriving DecidableEq, Repr

/-- A call of `epoll_ctl`, and whether the kernel finds the descriptor in its set. -/
structure EpollCall where
  op : EpollCtl
  fd : ℤ
  found : Bool
deriving DecidableEq, Repr

/-- The call does not fail with `EEXIST` or `ENOENT`. -/
def EpollCall.Valid (call : EpollCall) : Prop :=
  match call.op with
  | .ADD => call.found = false
  | .MOD => call.found = true
  | .DEL => call.found = true

structure EpollPoller where
  /-- The channels that exist. -/
  live : ChannelPtr → Option LiveChannel
  /-- `_channels` -/
  channels : ℤ → Option ChannelPtr
  /-- What the kernel holds: `events` and `data.ptr`. -/
  interest : ℤ → Option (ℕ × ChannelPtr)

namespace EpollPoller

def new : EpollPoller := ⟨fun _ => none, fun _ => none, fun _ => none⟩

def set (s : EpollPoller) (p : ChannelPtr) (c : LiveChannel) : EpollPoller :=
  { s with live := Function.update s.live p (some c) }

def setLabel (s : EpollPoller) (p : ChannelPtr) (c : LiveChannel) (label : PollerLabel) : EpollPoller :=
  s.set p { c with channel := { c.channel with label := label } }

/-- `EpollPoller::update`. A call that fails aborts, but for `DEL`, which is only logged. -/
def update (s : EpollPoller) (op : EpollCtl) (p : ChannelPtr) (c : LiveChannel) :
    Except Fault (EpollPoller × List EpollCall) :=
  let call : EpollCall := ⟨op, c.fd, (s.interest c.fd).isSome⟩
  let entry := some (c.channel.events, p)
  match op with
  | .ADD =>
    if call.found then .error .assertFailed
    else .ok ({ s with interest := Function.update s.interest c.fd entry }, [call])
  | .MOD =>
    if call.found then .ok ({ s with interest := Function.update s.interest c.fd entry }, [call])
    else .error .assertFailed
  | .DEL => .ok ({ s with interest := Function.update s.interest c.fd none }, [call])

def updateChannel (s : EpollPoller) (p : ChannelPtr) (c : LiveChannel) :
    Except Fault (EpollPoller × List EpollCall) :=
  match c.channel.label with
  | .kNew =>
    if s.channels c.fd = none then
      ({ s with channels := Function.update s.channels c.fd (some p) }.setLabel p c .kAdded).update .ADD p c
    else .error .assertFailed
  | .kDeleted =>
    if s.channels c.fd = some p then (s.setLabel p c .kAdded).update .ADD p c else .error .assertFailed
  | .kAdded =>
    if s.channels c.fd = some p then
      if c.channel.isNoneEvent then (s.update .DEL p c).map (fun r => (r.1.setLabel p c .kDeleted, r.2))
      else s.update .MOD p c
    else .error .assertFailed

def removeChannel (s : EpollPoller) (p : ChannelPtr) (c : LiveChannel) :
    Except Fault (EpollPoller × List EpollCall) :=
  if s.channels c.fd = some p ∧ c.channel.isNoneEvent = true ∧ c.channel.label ≠ .kNew then
    let s := { s with channels := Function.update s.channels c.fd none }
    let r := if c.channel.label = .kAdded then s.update .DEL p c else .ok (s, [])
    r.map (fun r => (r.1.setLabel p c .kNew, r.2))
  else .error .assertFailed

/-- A change of `_events` and `Channel::update`. -/
def modify (s : EpollPoller) (p : ChannelPtr) (f : Channel → Channel) :
    Except Fault (EpollPoller × List EpollCall) :=
  match s.live p with
  | none => .error .danglingPointer
  | some c =>
    let c := { c with channel := { f c.channel with addedToLoop := true } }
    (s.set p c).updateChannel p c

/-- `Channel::remove` -/
def remove (s : EpollPoller) (p : ChannelPtr) : Except Fault (EpollPoller × List EpollCall) :=
  match s.live p with
  | none => .error .danglingPointer
  | some c =>
    if c.channel.isNoneEvent then
      let c := { c with channel := { c.channel with addedToLoop := false } }
      (s.set p c).removeChannel p c
    else .error .assertFailed

/-- The destructor of `Channel`. -/
def destroy (s : EpollPoller) (p : ChannelPtr) : Except Fault (EpollPoller × List EpollCall) :=
  match s.live p with
  | none => .error .danglingPointer
  | some c =>
    if c.channel.addedToLoop = true ∨ s.channels c.fd = some p then .error .assertFailed
    else .ok ({ s with live := Function.update s.live p none }, [])

end EpollPoller

inductive PollerOp
  | create (p : ChannelPtr) (fd : ℤ)
  | enableReading (p : ChannelPtr)
  | disableReading (p : ChannelPtr)
  | enableWriting (p : ChannelPtr)
  | disableWriting (p : ChannelPtr)
  | disableAll (p : ChannelPtr)
  | remove (p : ChannelPtr)
  | destroy (p : ChannelPtr)

namespace EpollPoller

def step (s : EpollPoller) : PollerOp → Except Fault (EpollPoller × List EpollCall)
  | .create p fd => .ok (s.set p ⟨fd, Channel.new⟩, [])
  | .enableReading p => s.modify p (fun ch => { ch with reading := true })
  | .disableReading p => s.modify p (fun ch => { ch with reading := false })
  | .enableWriting p => s.modify p (fun ch => { ch with writing := true })
  | .disableWriting p => s.modify p (fun ch => { ch with writing := false })
  | .disableAll p => s.modify p (fun ch => { ch with reading := false, writing := false })
  | .remove p => s.remove p
  | .destroy p => s.destroy p

def run : EpollPoller → List PollerOp → Except Fault (EpollPoller × List EpollCall) := Runs.run step

/-- A descriptor has one channel at a time, a channel is removed without events after it has been
updated, and destroyed when it is not registered. -/
def Allowed (s : EpollPoller) : PollerOp → Prop
  | .create p fd => s.live p = none ∧ ∀ q c, s.live q = some c → c.fd ≠ fd
  | .remove p => ∃ c, s.live p = some c ∧ c.channel.isNoneEvent = true ∧ c.channel.addedToLoop = true
  | .destroy p => ∃ c, s.live p = some c ∧ c.channel.addedToLoop = false
  | .enableReading p => (s.live p).isSome = true
  | .disableReading p => (s.live p).isSome = true
  | .enableWriting p => (s.live p).isSome = true
  | .disableWriting p => (s.live p).isSome = true
  | .disableAll p => (s.live p).isSome = true

end EpollPoller

/-- What the map and the kernel should hold for a channel. -/
def LiveChannel.entry (c : LiveChannel) (p : ChannelPtr) : Option ChannelPtr :=
  if c.channel.label = .kNew then none else some p

def LiveChannel.mask (c : LiveChannel) (p : ChannelPtr) : Option (ℕ × ChannelPtr) :=
  if c.channel.label = .kAdded then some (c.channel.events, p) else none

namespace EpollPoller

structure Consistent (s : EpollPoller) : Prop where
  unique : ∀ p q c d, s.live p = some c → s.live q = some d → c.fd = d.fd → p = q
  added : ∀ p c, s.live p = some c → (c.channel.addedToLoop = true ↔ c.channel.label ≠ .kNew)
  entry : ∀ p c, s.live p = some c → s.channels c.fd = c.entry p
  mask : ∀ p c, s.live p = some c → s.interest c.fd = c.mask p
  free : ∀ fd, (∀ p c, s.live p = some c → c.fd ≠ fd) → s.channels fd = none ∧ s.interest fd = none

variable {s : EpollPoller} {p : ChannelPtr} {c c' : LiveChannel}

theorem consistent_new : new.Consistent :=
  ⟨fun _ _ _ _ h => (by cases h), fun _ _ h => (by cases h), fun _ _ h => (by cases h),
    fun _ _ h => (by cases h), fun _ _ => ⟨rfl, rfl⟩⟩

/-- One channel changes, and the map and the kernel follow. -/
theorem Consistent.change (h : s.Consistent) (hp : s.live p = some c) (hfd : c'.fd = c.fd)
    (hadded : c'.channel.addedToLoop = true ↔ c'.channel.label ≠ .kNew) :
    Consistent ⟨Function.update s.live p (some c'), Function.update s.channels c.fd (c'.entry p),
      Function.update s.interest c.fd (c'.mask p)⟩ := by
  -- a channel of the new state is the one that changed, or an old one with another descriptor
  have hcases {q : ChannelPtr} {d : LiveChannel} (hq : Function.update s.live p (some c') q = some d) :
      (q = p ∧ d = c') ∨ (q ≠ p ∧ s.live q = some d ∧ d.fd ≠ c.fd) := by
    by_cases hqp : q = p
    · rw [hqp, Function.update_self] at hq
      exact Or.inl ⟨hqp, (Option.some.inj hq).symm⟩
    · rw [Function.update_of_ne hqp] at hq
      exact Or.inr ⟨hqp, hq, fun hsame => hqp (h.unique q p d c hq hp hsame)⟩
  refine ⟨?_, ?_, ?_, ?_, ?_⟩
  · intro q r d e hq hr hsame
    rcases hcases hq with ⟨rfl,rfl⟩ | ⟨_,hq,hne⟩
    · rcases hcases hr with ⟨rfl,_⟩ | ⟨_,_,hne⟩
      · rfl
      · exact absurd (hsame.symm.trans hfd) hne
    · rcases hcases hr with ⟨_,rfl⟩ | ⟨_,hr,_⟩
      · exact absurd (hsame.trans hfd) hne
      · exact h.unique q r d e hq hr hsame
  · intro q d hq
    rcases hcases hq with ⟨_,rfl⟩ | ⟨_,hq,_⟩
    · exact hadded
    · exact h.added q d hq
  · intro q d hq
    rcases hcases hq with ⟨rfl,rfl⟩ | ⟨_,hq,hne⟩
    · dsimp only
      rw [hfd, Function.update_self]
    · dsimp only
      rw [Function.update_of_ne hne]
      exact h.entry q d hq
  · intro q d hq
    rcases hcases hq with ⟨rfl,rfl⟩ | ⟨_,hq,hne⟩
    · dsimp only
      rw [hfd, Function.update_self]
    · dsimp only
      rw [Function.update_of_ne hne]
      exact h.mask q d hq
  · intro fd hfree
    have hne : fd ≠ c.fd := by
      intro hsame
      exact hfree p c' (Function.update_self ..) (hfd.trans hsame.symm)
    dsimp only
    rw [Function.update_of_ne hne, Function.update_of_ne hne]
    apply h.free
    intro q d hq
    by_cases hqp : q = p
    · rw [hqp, hp] at hq
      rw [← Option.some.inj hq]
      exact hne.symm
    · exact hfree q d ((Function.update_of_ne hqp _ _).trans hq)

/-- The three cases of `updateChannel`. -/
theorem updateChannel_ok (hp : s.live p = some c) (hentry : s.channels c.fd = c.entry p)
    (hfound : (s.interest c.fd).isSome = decide (c.channel.label = .kAdded)) : ∃ label calls,
    s.updateChannel p c = .ok (⟨Function.update s.live p (some { c with
        channel := { c.channel with label := label } }),
      Function.update s.channels c.fd (some p),
      Function.update s.interest c.fd
        (if label = .kAdded then some (c.channel.events, p) else none)⟩, calls) ∧
    { c.channel with addedToLoop := true, label := label } = c.channel.update ∧
    ∀ call ∈ calls, call.Valid := by
  unfold LiveChannel.entry at hentry
  cases hlabel : c.channel.label with
  | kNew =>
    rw [hlabel] at hentry hfound
    replace hentry : s.channels c.fd = none := hentry
    replace hfound : (s.interest c.fd).isSome = false := hfound
    refine ⟨.kAdded, [⟨.ADD, c.fd, false⟩], ?_, ?_, ?_⟩
    · dsimp only [updateChannel]
      rw [hlabel]
      dsimp only
      rw [if_pos hentry]
      dsimp only [update, setLabel, set]
      rw [hfound]
      rfl
    · rw [Channel.update, hlabel]
    · intro call hcall
      rw [List.mem_singleton.mp hcall]
      rfl
  | kDeleted =>
    rw [hlabel] at hentry hfound
    replace hentry : s.channels c.fd = some p := hentry
    replace hfound : (s.interest c.fd).isSome = false := hfound
    have hsame : Function.update s.channels c.fd (some p) = s.channels := by
      rw [← hentry, Function.update_eq_self]
    refine ⟨.kAdded, [⟨.ADD, c.fd, false⟩], ?_, ?_, ?_⟩
    · dsimp only [updateChannel]
      rw [hlabel]
      dsimp only
      rw [if_pos hentry, hsame]
      dsimp only [update, setLabel, set]
      rw [hfound]
      rfl
    · rw [Channel.update, hlabel]
    · intro call hcall
      rw [List.mem_singleton.mp hcall]
      rfl
  | kAdded =>
    rw [hlabel] at hentry hfound
    replace hentry : s.channels c.fd = some p := hentry
    replace hfound : (s.interest c.fd).isSome = true := hfound
    have hsame : Function.update s.channels c.fd (some p) = s.channels := by
      rw [← hentry, Function.update_eq_self]
    cases hnone : c.channel.isNoneEvent with
    | true =>
      refine ⟨.kDeleted, [⟨.DEL, c.fd, true⟩], ?_, ?_, ?_⟩
      · dsimp only [updateChannel]
        rw [hlabel]
        dsimp only
        rw [if_pos hentry, hnone, if_pos rfl, hsame]
        dsimp only [update, setLabel, set]
        rw [hfound]
        rfl
      · rw [Channel.update, hlabel]
        dsimp only
        rw [hnone]
        rfl
      · intro call hcall
        rw [List.mem_singleton.mp hcall]
        rfl
    | false =>
      refine ⟨.kAdded, [⟨.MOD, c.fd, true⟩], ?_, ?_, ?_⟩
      · dsimp only [updateChannel]
        rw [hlabel]
        dsimp only
        rw [if_pos hentry, hnone, if_neg Bool.false_ne_true, hsame]
        have hlive : Function.update s.live p (some { c with
            channel := { c.channel with label := .kAdded } }) = s.live := by
          rw [← hlabel, ← hp, Function.update_eq_self]
        dsimp only [update]
        rw [hfound, hlive]
        rfl
      · rw [Channel.update, hlabel]
        dsimp only
        rw [hnone]
        rfl
      · intro call hcall
        rw [List.mem_singleton.mp hcall]
        rfl

theorem Consistent.modify (h : s.Consistent) (hp : s.live p = some c) {f : Channel → Channel}
    (hf : (f c.channel).label = c.channel.label) : ∃ s' calls, s.modify p f = .ok (s', calls) ∧
    s'.Consistent ∧ (∀ call ∈ calls, call.Valid) ∧
    s'.live = Function.update s.live p (some ⟨c.fd, (f c.channel).update⟩) := by
  have hmask := h.mask p c hp
  unfold LiveChannel.mask at hmask
  unfold EpollPoller.modify
  rw [hp]
  dsimp only
  have hfound : ((s.set p { c with channel := { f c.channel with addedToLoop := true } }).interest
      c.fd).isSome = decide ((f c.channel).label = .kAdded) := by
    show (s.interest c.fd).isSome = _
    rw [hmask, hf]
    split
    case isTrue hadded => rw [decide_eq_true hadded]; rfl
    case isFalse hnot => rw [decide_eq_false hnot]; rfl
  have hentry : (s.set p { c with channel := { f c.channel with addedToLoop := true } }).channels c.fd =
      LiveChannel.entry { c with channel := { f c.channel with addedToLoop := true } } p := by
    show s.channels c.fd = _
    rw [h.entry p c hp, LiveChannel.entry, LiveChannel.entry, hf]
  obtain ⟨label,calls,hok,hupdate,hvalid⟩ := @updateChannel_ok
    (s.set p { c with channel := { f c.channel with addedToLoop := true } }) p
    { c with channel := { f c.channel with addedToLoop := true } } (Function.update_self ..) hentry hfound
  dsimp only [set] at hok
  rw [Function.update_idem] at hok
  refine ⟨_, calls, hok, ?_, hvalid, congrArg (fun ch => Function.update s.live p (some ⟨c.fd, ch⟩)) hupdate⟩
  have hnew : ({ f c.channel with addedToLoop := true, label := label } : Channel).label ≠ .kNew := by
    have hlabel := Channel.update_label { f c.channel with addedToLoop := true }
    rw [← hupdate] at hlabel
    exact hlabel
  have hchange := @Consistent.change s p c
    { c with channel := { f c.channel with addedToLoop := true, label := label } } h hp rfl
    ⟨fun _ => hnew, fun _ => rfl⟩
  unfold LiveChannel.entry LiveChannel.mask at hchange
  rw [if_neg hnew] at hchange
  exact hchange

theorem Consistent.remove (h : s.Consistent) (hp : s.live p = some c)
    (hnone : c.channel.isNoneEvent = true) (hadded : c.channel.addedToLoop = true) : ∃ s' calls,
    s.remove p = .ok (s', calls) ∧ s'.Consistent ∧ (∀ call ∈ calls, call.Valid) ∧
    s'.live = Function.update s.live p
      (some { c with channel := { c.channel with addedToLoop := false, label := .kNew } }) := by
  have hlabel : c.channel.label ≠ .kNew := (h.added p c hp).mp hadded
  have hentry := h.entry p c hp
  have hmask := h.mask p c hp
  unfold LiveChannel.entry at hentry
  unfold LiveChannel.mask at hmask
  rw [if_neg hlabel] at hentry
  have hchange := @Consistent.change s p c
    { c with channel := { c.channel with addedToLoop := false, label := .kNew } } h hp rfl
    ⟨fun h => (by cases h), fun h => absurd rfl h⟩
  unfold EpollPoller.remove
  rw [hp]
  dsimp only
  rw [if_pos hnone]
  dsimp only [removeChannel, set]
  rw [if_pos ⟨hentry, hnone, hlabel⟩]
  by_cases hkadded : c.channel.label = .kAdded
  · rw [if_pos hkadded] at hmask ⊢
    refine ⟨_, [⟨.DEL, c.fd, true⟩], ?_, hchange, ?_, rfl⟩
    · dsimp only [update]
      rw [hmask]
      dsimp only [Except.map, setLabel, set]
      rw [Function.update_idem]
      rfl
    · intro call hcall
      rw [List.mem_singleton.mp hcall]
      rfl
  · rw [if_neg hkadded] at hmask ⊢
    have hsame : Function.update s.interest c.fd none = s.interest := by
      rw [← hmask, Function.update_eq_self]
    refine ⟨_, [], ?_, hchange, fun call hcall => (by cases hcall), rfl⟩
    have hnew : LiveChannel.mask
        { c with channel := { c.channel with addedToLoop := false, label := .kNew } } p = none := rfl
    rw [hnew, hsame]
    dsimp only [Except.map, setLabel, set]
    rw [Function.update_idem]
    rfl

theorem Consistent.create (h : s.Consistent) {fd : ℤ} (hnone : s.live p = none)
    (hfree : ∀ q c, s.live q = some c → c.fd ≠ fd) :
    (s.set p ⟨fd, Channel.new⟩).Consistent := by
  obtain ⟨hchannels,hinterest⟩ := h.free fd hfree
  have hcases {q : ChannelPtr} {d : LiveChannel}
      (hq : Function.update s.live p (some ⟨fd, Channel.new⟩) q = some d) :
      (q = p ∧ d = ⟨fd, Channel.new⟩) ∨ (q ≠ p ∧ s.live q = some d ∧ d.fd ≠ fd) := by
    by_cases hqp : q = p
    · rw [hqp, Function.update_self] at hq
      exact Or.inl ⟨hqp, (Option.some.inj hq).symm⟩
    · rw [Function.update_of_ne hqp] at hq
      exact Or.inr ⟨hqp, hq, hfree q d hq⟩
  refine ⟨?_, ?_, ?_, ?_, ?_⟩
  · intro q r d e hq hr hsame
    rcases hcases hq with ⟨rfl,rfl⟩ | ⟨_,hq,hne⟩
    · rcases hcases hr with ⟨rfl,_⟩ | ⟨_,_,hne⟩
      · rfl
      · exact absurd hsame.symm hne
    · rcases hcases hr with ⟨_,rfl⟩ | ⟨_,hr,_⟩
      · exact absurd hsame hne
      · exact h.unique q r d e hq hr hsame
  · intro q d hq
    rcases hcases hq with ⟨_,rfl⟩ | ⟨_,hq,_⟩
    · exact ⟨fun h => (by cases h), fun h => absurd rfl h⟩
    · exact h.added q d hq
  · intro q d hq
    rcases hcases hq with ⟨_,rfl⟩ | ⟨_,hq,_⟩
    · exact hchannels
    · exact h.entry q d hq
  · intro q d hq
    rcases hcases hq with ⟨_,rfl⟩ | ⟨_,hq,_⟩
    · exact hinterest
    · exact h.mask q d hq
  · intro fd' hfree'
    apply h.free
    intro q d hq
    by_cases hqp : q = p
    · rw [hqp, hnone] at hq
      cases hq
    · exact hfree' q d ((Function.update_of_ne hqp _ _).trans hq)

theorem Consistent.destroy (h : s.Consistent) (hp : s.live p = some c)
    (hadded : c.channel.addedToLoop = false) : ∃ s', s.destroy p = .ok (s', []) ∧ s'.Consistent ∧
    s'.live = Function.update s.live p none := by
  have hlabel : c.channel.label = .kNew := by
    by_contra hne
    cases hadded.symm.trans ((h.added p c hp).mpr hne)
  have hentry : s.channels c.fd = none := by rw [h.entry p c hp, LiveChannel.entry, if_pos hlabel]
  have hmask : s.interest c.fd = none := by
    rw [h.mask p c hp, LiveChannel.mask, hlabel, if_neg (fun h => by cases h)]
  have hold {q : ChannelPtr} {d : LiveChannel} (hq : Function.update s.live p none q = some d) :
      q ≠ p ∧ s.live q = some d := by
    by_cases hqp : q = p
    · rw [hqp, Function.update_self] at hq
      cases hq
    · exact ⟨hqp, (Function.update_of_ne hqp _ _).symm.trans hq⟩
  unfold EpollPoller.destroy
  rw [hp]
  dsimp only
  rw [if_neg (by rw [hadded, hentry]; simp)]
  refine ⟨_, rfl, ⟨?_, ?_, ?_, ?_, ?_⟩, rfl⟩
  · exact fun q r d e hq hr => h.unique q r d e (hold hq).2 (hold hr).2
  · exact fun q d hq => h.added q d (hold hq).2
  · exact fun q d hq => h.entry q d (hold hq).2
  · exact fun q d hq => h.mask q d (hold hq).2
  · intro fd hfree
    by_cases hfd : fd = c.fd
    · rw [hfd]
      exact ⟨hentry, hmask⟩
    · apply h.free
      intro q d hq
      by_cases hqp : q = p
      · rw [hqp, hp] at hq
        rw [← Option.some.inj hq]
        exact Ne.symm hfd
      · exact hfree q d ((Function.update_of_ne hqp _ _).trans hq)

theorem Consistent.step (h : s.Consistent) {op : PollerOp} (hop : s.Allowed op) : ∃ s' calls,
    s.step op = .ok (s', calls) ∧ s'.Consistent ∧ (∀ call ∈ calls, call.Valid) := by
  have hmodify {p : ChannelPtr} (hlive : (s.live p).isSome = true) (f : Channel → Channel)
      (hf : ∀ ch, (f ch).label = ch.label) : ∃ s' calls, s.modify p f = .ok (s', calls) ∧
      s'.Consistent ∧ (∀ call ∈ calls, call.Valid) := by
    obtain ⟨c,hp⟩ := Option.isSome_iff_exists.mp hlive
    obtain ⟨s',calls,hok,hs',hvalid,_⟩ := h.modify hp (hf c.channel)
    exact ⟨s', calls, hok, hs', hvalid⟩
  cases op with
  | create p fd =>
    obtain ⟨hnone,hfree⟩ := hop
    exact ⟨_, [], rfl, h.create hnone hfree, fun call hcall => by cases hcall⟩
  | enableReading p => exact hmodify hop (fun ch => { ch with reading := true }) (fun _ => rfl)
  | disableReading p => exact hmodify hop (fun ch => { ch with reading := false }) (fun _ => rfl)
  | enableWriting p => exact hmodify hop (fun ch => { ch with writing := true }) (fun _ => rfl)
  | disableWriting p => exact hmodify hop (fun ch => { ch with writing := false }) (fun _ => rfl)
  | disableAll p => exact hmodify hop (fun ch => { ch with reading := false, writing := false }) (fun _ => rfl)
  | remove p =>
    obtain ⟨c,hp,hnone,hadded⟩ := hop
    obtain ⟨s',calls,hok,hs',hvalid,_⟩ := h.remove hp hnone hadded
    exact ⟨s', calls, hok, hs', hvalid⟩
  | destroy p =>
    obtain ⟨c,hp,hadded⟩ := hop
    obtain ⟨s',hok,hs',_⟩ := h.destroy hp hadded
    exact ⟨s', [], hok, hs', fun call hcall => by cases hcall⟩

end EpollPoller

theorem LiveChannel.entry_isSome (c : LiveChannel) (p : ChannelPtr) :
    (c.entry p).isSome = true ↔ c.channel.label = .kAdded ∨ c.channel.label = .kDeleted := by
  unfold LiveChannel.entry
  cases c.channel.label <;> simp

theorem LiveChannel.mask_isSome (c : LiveChannel) (p : ChannelPtr) :
    (c.mask p).isSome = true ↔ c.channel.label = .kAdded := by
  unfold LiveChannel.mask
  cases c.channel.label <;> simp

/-- In every run of operations on channels that have their descriptors to themselves, no assertion and
no call of `epoll_ctl` fails, and the labels, the map and the kernel agree after every operation. -/
theorem poller_consistent (ops : List PollerOp)
    (h : Runs.Along EpollPoller.step EpollPoller.Allowed EpollPoller.new ops) :
    ∃ s calls, EpollPoller.new.run ops = .ok (s, calls) ∧ (∀ call ∈ calls, call.Valid) ∧
    (∀ p c, s.live p = some c →
      ((s.channels c.fd).isSome = true ↔ c.channel.label = .kAdded ∨ c.channel.label = .kDeleted) ∧
      (∀ q, s.channels c.fd = some q → q = p) ∧
      ((s.interest c.fd).isSome = true ↔ c.channel.label = .kAdded) ∧
      (∀ mask q, s.interest c.fd = some (mask, q) → mask = c.channel.events ∧ q = p)) ∧
    ∀ fd, (∀ p c, s.live p = some c → c.fd ≠ fd) → s.channels fd = none ∧ s.interest fd = none := by
  let I (s : EpollPoller) (_ : List PollerOp) (calls : List EpollCall) : Prop :=
    s.Consistent ∧ ∀ call ∈ calls, call.Valid
  have hstep (s : EpollPoller) (op : PollerOp) (rest : List PollerOp) (calls : List EpollCall)
      (hI : I s (op :: rest) calls) (hop : s.Allowed op) :
      ∃ s' new, s.step op = .ok (s', new) ∧ I s' rest (calls ++ new) := by
    obtain ⟨s',new,hok,hs',hvalid⟩ := hI.1.step hop
    refine ⟨s', new, hok, hs', ?_⟩
    intro call hcall
    rcases List.mem_append.mp hcall with hcall | hcall
    · exact hI.2 call hcall
    · exact hvalid call hcall
  have hnew : I EpollPoller.new ops [] :=
    ⟨EpollPoller.consistent_new, fun call hcall => by cases hcall⟩
  obtain ⟨s,calls,hrun,hs,hvalid⟩ := Runs.run_along I hstep hnew h
  refine ⟨s, calls, hrun, hvalid, ?_, hs.free⟩
  intro p c hp
  rw [hs.entry p c hp, hs.mask p c hp]
  refine ⟨c.entry_isSome p, ?_, c.mask_isSome p, ?_⟩
  · intro q hq
    unfold LiveChannel.entry at hq
    split at hq
    · cases hq
    · exact (Option.some.inj hq).symm
  · intro mask q hq
    unfold LiveChannel.mask at hq
    split at hq
    · obtain ⟨hmask,hptr⟩ := Prod.mk.inj (Option.some.inj hq)
      exact ⟨hmask.symm, hptr.symm⟩
    · cases hq

/-- A channel that stops and starts again, is removed, and gives its descriptor to another one. -/
theorem poller_consistent_reused : ∃ s calls, EpollPoller.new.run [.create 1 7, .enableReading 1,
      .enableWriting 1, .disableAll 1, .enableReading 1, .disableAll 1, .remove 1, .destroy 1, .create 1 7,
      .enableWriting 1] = .ok (s, calls) ∧ (∀ call ∈ calls, call.Valid) ∧
    s.live 1 = some ⟨7, ⟨false, true, true, .kAdded⟩⟩ ∧ s.channels 7 = some 1 ∧
    s.interest 7 = some (kWriteEvent, 1) := by
  have hfree (live : ChannelPtr → Option LiveChannel) (hlive : ∀ q, live q = none) (q : ChannelPtr)
      (c : LiveChannel) (hq : live q = some c) : c.fd ≠ 7 := by
    cases (hlive q).symm.trans hq
  have hallowed : Runs.Along EpollPoller.step EpollPoller.Allowed EpollPoller.new [.create 1 7,
      .enableReading 1, .enableWriting 1, .disableAll 1, .enableReading 1, .disableAll 1, .remove 1,
      .destroy 1, .create 1 7, .enableWriting 1] := by
    refine Runs.along_cons ⟨rfl, hfree _ (fun _ => rfl)⟩ rfl ?_
    refine Runs.along_cons rfl rfl ?_
    refine Runs.along_cons rfl rfl ?_
    refine Runs.along_cons rfl rfl ?_
    refine Runs.along_cons rfl rfl ?_
    refine Runs.along_cons rfl rfl ?_
    refine Runs.along_cons ⟨_, rfl, rfl, rfl⟩ rfl ?_
    refine Runs.along_cons ⟨_, rfl, rfl⟩ rfl ?_
    -- nothing is left of the first channel
    refine Runs.along_cons ⟨rfl, hfree _ ?_⟩ rfl ?_
    · intro q
      by_cases hq : q = 1
      · rw [hq]
        rfl
      · simp only [EpollPoller.set, EpollPoller.setLabel, EpollPoller.new, Function.update_of_ne hq]
    · exact Runs.along_cons rfl rfl trivial
  obtain ⟨s,calls,hrun,hvalid,hlive,_⟩ := poller_consistent _ hallowed
  refine ⟨s, calls, hrun, hvalid, ?_⟩
  obtain ⟨rfl,_⟩ := Prod.mk.inj (Except.ok.inj (hrun.symm.trans rfl))
  exact ⟨rfl, rfl, rfl⟩

end IdealServer
