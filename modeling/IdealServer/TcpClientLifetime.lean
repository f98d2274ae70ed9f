import IdealServer.TcpClient

/-! `~TcpClient` at any moment of a run, and the `Connector` that outlives it for a second or not at
all. -/
namespace IdealServer

inductive ClientPhase
  | alive
  /-- The timer of `removeConnector` holds the `Connector`. -/
  | kept (due : Timestamp)
  /-- The `Connector` is gone as well. -/
  | destroyed
deriving DecidableEq, Repr

structure ClientLifetime where
  client : TcpClient
  phase : ClientPhase
deriving DecidableEq, Repr

inductive LifetimeEvent
  | client (event : TcpClientEvent)
  | destroy
  /-- The timer of `removeConnector` has run and is deleted. -/
  | removeConnector

/-- The event is a callback of the connector, where there is one to be called. -/
def TcpClientEvent.calls (event : TcpClientEvent) (s : Connector) : Bool :=
  match event with
  | .handleEvent _ _ _ _ => s.registered
  | .functor _ => s.pendingFunctors ≠ []
  | .timer due _ => due ∈ s.timers
  | .connect _ _ | .disconnect | .stop | .wait _ | .removeConnection _ => false

namespace ClientLifetime

def new (now : Timestamp) : ClientLifetime := ⟨TcpClient.new now, .alive⟩

/-- `~Connector` -/
def destroyConnector (s : ClientLifetime) : Except ConnectorFault (ClientLifetime × List ConnectorObs) :=
  if s.client.connector.channel = none then .ok ({ s with phase := .destroyed }, [])
  else .error .destructor

/-- `~TcpClient`. Without a connection the connector is stopped and kept for a second. -/
def destroy (s : ClientLifetime) : Except ConnectorFault (ClientLifetime × List ConnectorObs) :=
  if s.client.connection.isSome then s.destroyConnector
  else
    let client := { s.client with connector := s.client.connector.stop }
    .ok (⟨client, .kept (dueAfter s.client.connector.now 1000000)⟩, [])

def step (s : ClientLifetime) : LifetimeEvent → Except ConnectorFault (ClientLifetime × List ConnectorObs)
  | .client event =>
    if s.phase = .destroyed ∧ event.calls s.client.connector then .error .danglingPointer
    else (s.client.step event).map (fun r => ({ s with client := r.1 }, r.2))
  | .destroy => s.destroy
  | .removeConnector => s.destroyConnector

def run : ClientLifetime → List LifetimeEvent → Except ConnectorFault (ClientLifetime × List ConnectorObs) :=
  Runs.run step

/-- The client is used until it is destroyed. From then on time passes only while nothing is queued, and
not beyond the timers that are still to run; the timers of a batch are deleted after all have run. -/
def Allowed (s : ClientLifetime) : LifetimeEvent → Prop
  | .client (.connect _ _) | .client .disconnect | .client .stop | .destroy => s.phase = .alive
  | .client (.wait microseconds) => s.phase ≠ .alive → s.client.connector.pendingFunctors = [] ∧
    (∀ due ∈ s.client.connector.timers, dueAfter s.client.connector.now microseconds ≤ due) ∧
    ∀ due, s.phase = .kept due → dueAfter s.client.connector.now microseconds ≤ due
  | .removeConnector => ∃ due, s.phase = .kept due ∧ due ≤ s.client.connector.now ∧
    ∀ due ∈ s.client.connector.timers, s.client.connector.now < due
  | .client (.handleEvent _ _ _ _) | .client (.functor _) | .client (.timer _ _)
  | .client (.removeConnection _) => True

/-- What the connector may leave behind when the client is destroyed. -/
def Settled (s : ClientLifetime) : LifetimeEvent → Prop
  | .destroy =>
    if s.client.connection.isSome then s.client.connector.channel = none ∧
      s.client.connector.pendingFunctors = [] ∧ s.client.connector.timers = []
    else ∀ due ∈ s.client.connector.timers, due ≤ dueAfter s.client.connector.now 1000000
  | .client _ | .removeConnector => True

end ClientLifetime

namespace Connector

/-- In the runs without `restart`, a channel is registered only in `kConnecting`, and a removed one has
its `resetChannel` queued. -/
structure Tracked (s : Connector) : Prop where
  watching : s.Watching
  registered : s.registered = true → s.state = .kConnecting
  resets : s.pendingFunctors.count .resetChannel = if s.removed then 1 else 0

variable {s s' : Connector} {fd : ℕ} {errno err : ℤ} {out : List ConnectorObs}

theorem tracked_new (now : Timestamp) : (new now).Tracked :=
  ⟨watching_new now, fun h => (by cases h), rfl⟩

theorem Tracked.frame (h : s.Tracked) (hchannel : s'.channel = s.channel) (hstate : s'.state = s.state)
    (hresets : s'.pendingFunctors.count .resetChannel = s.pendingFunctors.count .resetChannel) :
    s'.Tracked := by
  have hregistered : s'.registered = s.registered := by
    rw [Connector.registered, Connector.registered, hchannel]
  have hremoved : s'.removed = s.removed := by rw [removed, removed, hchannel]
  refine ⟨⟨?_, ?_⟩, ?_, ?_⟩
  · rw [hchannel, hstate]
    exact h.watching.connecting
  · rw [hchannel]
    exact h.watching.channel
  · rw [hregistered, hstate]
    exact h.registered
  · rw [hresets, hremoved]
    exact h.resets

theorem Tracked.startInLoop (h : s.Tracked) (hok : s.startInLoop errno = .ok (s', out)) : s'.Tracked := by
  unfold Connector.startInLoop at hok
  split at hok
  case isFalse => cases hok
  case isTrue hs =>
    split at hok
    case isFalse =>
      obtain ⟨rfl,_⟩ := Prod.mk.inj (Except.ok.inj hok)
      exact h
    case isTrue =>
      unfold Connector.connect at hok
      dsimp only at hok
      split at hok
      · obtain ⟨s1,h1,hok⟩ := Runs.map_ok hok
        obtain ⟨rfl,_⟩ := Prod.mk.inj hok
        unfold Connector.connecting at h1
        split at h1
        case isFalse => cases h1
        case isTrue hnone =>
          obtain rfl := Except.ok.inj h1
          replace hnone : s.channel = none := hnone
          have hresets := h.resets
          rw [removed, hnone] at hresets
          refine ⟨⟨fun _ => ⟨_, rfl⟩, ?_⟩, fun _ => rfl, hresets⟩
          intro c hc
          cases hc
          exact Or.inl rfl
      · split at hok
        · obtain ⟨rfl,_⟩ := Prod.mk.inj (Except.ok.inj hok)
          apply h.frame
          · rw [retry_channel]
          · rw [retry_state, hs]
          · rw [retry_pendingFunctors]
        · obtain ⟨rfl,_⟩ := Prod.mk.inj (Except.ok.inj hok)
          exact h.frame rfl rfl rfl

/-- What a function leaves that has ended an attempt. -/
structure Ended (s s' : Connector) : Prop where
  channel : ∃ fd, s'.channel = some ⟨fd, Channel.new⟩
  state : s'.state ≠ .kConnecting
  pendingFunctors : s'.pendingFunctors = s.pendingFunctors ++ [.resetChannel]
  wanted : s'.wanted = s.wanted
  timers : s.wanted = false → s'.timers = s.timers
  now : s'.now = s.now

theorem Ended.tracked (h : s.Tracked) (hs : s.state = .kConnecting) (hended : Ended s s') : s'.Tracked := by
  obtain ⟨fd,hchannel⟩ := hended.channel
  obtain ⟨fd',hold⟩ := h.watching.connecting hs
  have hresets := h.resets
  rw [removed, hold] at hresets
  refine ⟨watching_removed hchannel hended.state, ?_, ?_⟩
  · intro hr
    rw [Connector.registered, hchannel] at hr
    cases hr
  · rw [hended.pendingFunctors, List.count_append, hresets, removed, hchannel]
    rfl

theorem ended_retry (hchannel : s'.channel = some ⟨fd, Channel.new⟩)
    (hqueue : s'.pendingFunctors = s.pendingFunctors ++ [.resetChannel]) (hwanted : s'.wanted = s.wanted)
    (htimers : s'.timers = s.timers) (hnow : s'.now = s.now) : Ended s (s'.retry fd).1 := by
  refine ⟨⟨fd, ?_⟩, ?_, ?_, ?_, ?_, ?_⟩
  · rw [retry_channel, hchannel]
  · rw [retry_state]
    intro h
    cases h
  · rw [retry_pendingFunctors, hqueue]
  · rw [retry_wanted, hwanted]
  · intro h
    rw [retry_timers, hwanted, h, htimers]
    rfl
  · rw [retry_now, hnow]

theorem Watching.stopInLoop_cases (h : s.Watching) (hok : s.stopInLoop = .ok (s', out)) :
    (s.state ≠ .kConnecting ∧ s' = s) ∨ (s.state = .kConnecting ∧ Ended s s') := by
  unfold Connector.stopInLoop at hok
  split at hok
  case isTrue hs =>
    obtain ⟨fd,hchannel⟩ := h.connecting hs
    have heq := @removeAndResetChannel_eq { s with state := .kDisconnected } fd hchannel
    dsimp only at hok
    rw [heq] at hok
    obtain ⟨rfl,_⟩ := Prod.mk.inj (Except.ok.inj hok)
    exact Or.inr ⟨hs, ended_retry rfl rfl rfl rfl rfl⟩
  case isFalse hs =>
    obtain ⟨rfl,_⟩ := Prod.mk.inj (Except.ok.inj hok)
    exact Or.inl ⟨hs, rfl⟩

theorem Watching.handleError_cases (h : s.Watching) (hok : s.handleError = .ok (s', out)) :
    (s.state ≠ .kConnecting ∧ s' = s) ∨ (s.state = .kConnecting ∧ Ended s s') := by
  unfold Connector.handleError at hok
  split at hok
  case isTrue hs =>
    obtain ⟨fd,hchannel⟩ := h.connecting hs
    rw [removeAndResetChannel_eq hchannel] at hok
    obtain ⟨rfl,_⟩ := Prod.mk.inj (Except.ok.inj hok)
    exact Or.inr ⟨hs, ended_retry rfl rfl rfl rfl rfl⟩
  case isFalse hs =>
    obtain ⟨rfl,_⟩ := Prod.mk.inj (Except.ok.inj hok)
    exact Or.inl ⟨hs, rfl⟩

theorem Watching.handleWrite_cases (h : s.Watching) {isSelfConnect : Bool}
    (hok : s.handleWrite err isSelfConnect = .ok (s', out)) :
    (s.state ≠ .kConnecting ∧ s' = s) ∨ (s.state = .kConnecting ∧ Ended s s') := by
  unfold Connector.handleWrite at hok
  split at hok
  case isTrue hs =>
    obtain ⟨fd,hchannel⟩ := h.connecting hs
    rw [removeAndResetChannel_eq hchannel] at hok
    obtain ⟨r,hr,hok⟩ := Runs.map_ok hok
    obtain rfl := Except.ok.inj hr
    refine Or.inr ⟨hs, ?_⟩
    dsimp only at hok
    split at hok
    · obtain ⟨rfl,_⟩ := Prod.mk.inj hok
      exact ended_retry rfl rfl rfl rfl rfl
    · split at hok
      · obtain ⟨rfl,_⟩ := Prod.mk.inj hok
        exact ended_retry rfl rfl rfl rfl rfl
      · obtain ⟨rfl,_⟩ := Prod.mk.inj hok
        exact ⟨⟨fd, rfl⟩, fun h => (by cases h), rfl, rfl, fun _ => rfl, rfl⟩
  case isFalse hs =>
    split at hok
    · obtain ⟨rfl,_⟩ := Prod.mk.inj (Except.ok.inj hok)
      exact Or.inl ⟨hs, rfl⟩
    · cases hok

theorem Tracked.handleEvent_cases (h : s.Tracked) {error write isSelfConnect : Bool}
    (hok : s.handleEvent error write err isSelfConnect = .ok (s', out)) :
    s' = s ∨ (s.registered = true ∧ s.state = .kConnecting ∧ Ended s s') := by
  unfold Connector.handleEvent at hok
  split at hok
  case isFalse =>
    obtain ⟨rfl,_⟩ := Prod.mk.inj (Except.ok.inj hok)
    exact Or.inl rfl
  case isTrue hr =>
    have hs := h.registered hr
    obtain ⟨⟨s1,out1⟩,h1,hok⟩ := Runs.bind_ok hok
    obtain ⟨⟨s2,out2⟩,h2,hok⟩ := Runs.map_ok hok
    obtain ⟨rfl,_⟩ := Prod.mk.inj hok
    dsimp only at h2
    have hfirst : s1 = s ∨ Ended s s1 := by
      split at h1
      · rcases h.watching.handleError_cases h1 with ⟨hne,_⟩ | ⟨_,hended⟩
        · exact absurd hs hne
        · exact Or.inr hended
      · exact Or.inl (Prod.mk.inj (Except.ok.inj h1)).1.symm
    rcases hfirst with rfl | hended
    · split at h2
      · rcases h.watching.handleWrite_cases h2 with ⟨hne,_⟩ | ⟨_,hended⟩
        · exact absurd hs hne
        · exact Or.inr ⟨hr, hs, hended⟩
      · exact Or.inl (Prod.mk.inj (Except.ok.inj h2)).1.symm
    · -- the attempt is over, and the write changes nothing
      refine Or.inr ⟨hr, hs, ?_⟩
      have hw := (hended.tracked h hs).watching
      split at h2
      · rcases hw.handleWrite_cases h2 with ⟨_,rfl⟩ | ⟨hs1,_⟩
        · exact hended
        · exact absurd hs1 hended.state
      · obtain ⟨rfl,_⟩ := Prod.mk.inj (Except.ok.inj h2)
        exact hended

theorem Watching.resetChannel_cases (h : s.Watching) (hok : s.resetChannel = .ok (s', out)) :
    (s.channel = none ∧ s' = s) ∨
    ((∃ fd, s.channel = some ⟨fd, Channel.new⟩) ∧ s' = { s with channel := none }) := by
  unfold Connector.resetChannel at hok
  rcases h.cases with hnone | ⟨fd,hchannel⟩ | ⟨fd,hchannel⟩
  · rw [hnone] at hok
    obtain ⟨rfl,_⟩ := Prod.mk.inj (Except.ok.inj hok)
    exact Or.inl ⟨hnone, rfl⟩
  · rw [hchannel] at hok
    cases hok
  · rw [hchannel] at hok
    obtain ⟨rfl,_⟩ := Prod.mk.inj (Except.ok.inj hok)
    exact Or.inr ⟨⟨fd, hchannel⟩, rfl⟩

theorem Tracked.functor (h : s.Tracked) (hok : s.doPendingFunctor errno = .ok (s', out)) : s'.Tracked := by
  unfold doPendingFunctor at hok
  cases hqueue : s.pendingFunctors with
  | nil =>
    rw [hqueue] at hok
    obtain ⟨rfl,_⟩ := Prod.mk.inj (Except.ok.inj hok)
    exact h
  | cons f rest =>
    rw [hqueue] at hok
    have hpop (hf : f ≠ .resetChannel) : { s with pendingFunctors := rest }.Tracked := by
      refine h.frame rfl rfl ?_
      rw [hqueue, List.count_cons_of_ne hf]
    cases f with
    | startInLoop => exact (hpop (fun h => by cases h)).startInLoop hok
    | stopInLoop =>
      have ht := hpop (fun h => by cases h)
      rcases ht.watching.stopInLoop_cases hok with ⟨_,rfl⟩ | ⟨hs,hended⟩
      · exact ht
      · exact hended.tracked ht hs
    | resetChannel =>
      have hresets := h.resets
      rw [hqueue, List.count_cons_self] at hresets
      have hw : { s with pendingFunctors := rest }.Watching := ⟨h.watching.connecting, h.watching.channel⟩
      rcases hw.resetChannel_cases hok with ⟨hnone,_⟩ | ⟨⟨fd,hchannel⟩,rfl⟩
      · replace hnone : s.channel = none := hnone
        rw [removed, hnone] at hresets
        cases hresets
      · replace hchannel : s.channel = some ⟨fd, Channel.new⟩ := hchannel
        rw [removed, hchannel] at hresets
        have hnot : s.state ≠ .kConnecting := by
          intro hs
          obtain ⟨fd',hfd'⟩ := h.watching.connecting hs
          rw [hchannel] at hfd'
          cases hfd'
        exact ⟨⟨fun hs => absurd hs hnot, fun _ h => (by cases h)⟩, fun hr => (by cases hr),
          Nat.succ.inj hresets⟩

theorem Tracked.step (h : s.Tracked) {event : ConnectorEvent} (hevent : ∀ errno, event ≠ .restart errno)
    (hok : s.step event = .ok (s', out)) : s'.Tracked := by
  cases event with
  | start inLoop errno =>
    change s.start inLoop errno = .ok (s', out) at hok
    unfold Connector.start at hok
    dsimp only at hok
    have hwanted : { s with wanted := true }.Tracked := h.frame rfl rfl rfl
    split at hok
    · exact hwanted.startInLoop hok
    · obtain ⟨rfl,_⟩ := Prod.mk.inj (Except.ok.inj hok)
      exact hwanted.frame rfl rfl (by simp [queueInLoop])
  | stop =>
    obtain ⟨rfl,_⟩ := Prod.mk.inj (Except.ok.inj hok)
    exact h.frame rfl rfl (by simp [Connector.stop, queueInLoop])
  | restart errno => exact absurd rfl (hevent errno)
  | handleEvent error write err isSelfConnect =>
    rcases h.handleEvent_cases hok with rfl | ⟨_,hs,hended⟩
    · exact h
    · exact hended.tracked h hs
  | functor errno => exact h.functor hok
  | timer due errno =>
    change s.runTimer due errno = .ok (s', out) at hok
    unfold runTimer at hok
    split at hok
    · have ht : { s with timers := s.timers.erase due }.Tracked := h.frame rfl rfl rfl
      exact ht.startInLoop hok
    · obtain ⟨rfl,_⟩ := Prod.mk.inj (Except.ok.inj hok)
      exact h
  | wait microseconds =>
    obtain ⟨rfl,_⟩ := Prod.mk.inj (Except.ok.inj hok)
    exact h.frame rfl rfl rfl

/-- A connector that is stopped and kept until `due`. Time passes only after its functors have run. -/
structure Kept (s : Connector) (due : Timestamp) : Prop where
  tracked : s.Tracked
  wanted : s.wanted = false
  timers : ∀ t ∈ s.timers, t ≤ due
  stopping : .stopInLoop ∈ s.pendingFunctors ∨ s.state ≠ .kConnecting
  drained : s.now < due ∨ (s.pendingFunctors = [] ∧ s.channel = none)

variable {due : Timestamp}

theorem startInLoop_unwanted (hw : s.wanted = false) (hok : s.startInLoop errno = .ok (s', out)) : s' = s := by
  unfold Connector.startInLoop at hok
  rw [hw, if_neg Bool.false_ne_true] at hok
  split at hok
  · exact (Prod.mk.inj (Except.ok.inj hok)).1.symm
  · cases hok

theorem Kept.ended (h : s.Kept due) (hs : s.state = .kConnecting) (hended : Ended s s') : s'.Kept due := by
  obtain ⟨fd,hchannel⟩ := h.tracked.watching.connecting hs
  refine ⟨hended.tracked h.tracked hs, hended.wanted.trans h.wanted, ?_, Or.inr hended.state, Or.inl ?_⟩
  · rw [hended.timers h.wanted]
    exact h.timers
  · rw [hended.now]
    rcases h.drained with hnow | ⟨_,hnone⟩
    · exact hnow
    · cases hnone.symm.trans hchannel

theorem Kept.functor (h : s.Kept due) (hok : s.doPendingFunctor errno = .ok (s', out)) : s'.Kept due := by
  have htracked := h.tracked.functor hok
  unfold doPendingFunctor at hok
  cases hqueue : s.pendingFunctors with
  | nil =>
    rw [hqueue] at hok
    obtain ⟨rfl,_⟩ := Prod.mk.inj (Except.ok.inj hok)
    exact h
  | cons f rest =>
    rw [hqueue] at hok
    have hnow : s.now < due := by
      rcases h.drained with hnow | ⟨hnil,_⟩
      · exact hnow
      · cases hnil.symm.trans hqueue
    have hrest (hf : f ≠ .stopInLoop) : .stopInLoop ∈ rest ∨ s.state ≠ .kConnecting := by
      have hstopping := h.stopping
      rw [hqueue] at hstopping
      exact hstopping.imp_left (fun hmem => (List.mem_cons.mp hmem).resolve_left hf.symm)
    cases f with
    | startInLoop =>
      have hw : { s with pendingFunctors := rest }.wanted = false := h.wanted
      obtain rfl := startInLoop_unwanted hw hok
      exact ⟨htracked, h.wanted, h.timers, hrest (fun h => by cases h), Or.inl hnow⟩
    | stopInLoop =>
      have hw : { s with pendingFunctors := rest }.Watching :=
        ⟨h.tracked.watching.connecting, h.tracked.watching.channel⟩
      rcases hw.stopInLoop_cases hok with ⟨hne,rfl⟩ | ⟨_,hended⟩
      · exact ⟨htracked, h.wanted, h.timers, Or.inr hne, Or.inl hnow⟩
      · refine ⟨htracked, hended.wanted.trans h.wanted, ?_, Or.inr hended.state, Or.inl ?_⟩
        · rw [hended.timers h.wanted]
          exact h.timers
        · rw [hended.now]
          exact hnow
    | resetChannel =>
      have hw : { s with pendingFunctors := rest }.Watching :=
        ⟨h.tracked.watching.connecting, h.tracked.watching.channel⟩
      rcases hw.resetChannel_cases hok with ⟨_,rfl⟩ | ⟨_,rfl⟩
      · exact ⟨htracked, h.wanted, h.timers, hrest (fun h => by cases h), Or.inl hnow⟩
      · exact ⟨htracked, h.wanted, h.timers, hrest (fun h => by cases h), Or.inl hnow⟩

theorem Kept.timer (h : s.Kept due) {t : Timestamp} (hok : s.runTimer t errno = .ok (s', out)) :
    s'.Kept due := by
  unfold runTimer at hok
  split at hok
  · have hw : { s with timers := s.timers.erase t }.wanted = false := h.wanted
    obtain rfl := startInLoop_unwanted hw hok
    exact ⟨h.tracked.frame rfl rfl rfl, h.wanted, fun u hu => h.timers u (List.mem_of_mem_erase hu), h.stopping,
      h.drained⟩
  · obtain ⟨rfl,_⟩ := Prod.mk.inj (Except.ok.inj hok)
    exact h

/-- Nothing is queued, so that the channel is gone. -/
theorem Kept.wait (h : s.Kept due) (hqueue : s.pendingFunctors = []) (now : Timestamp) :
    { s with now := now }.Kept due := by
  have hstate : s.state ≠ .kConnecting := by
    have hstopping := h.stopping
    rw [hqueue] at hstopping
    exact hstopping.resolve_left List.not_mem_nil
  have hnone : s.channel = none := by
    rcases h.tracked.watching.cases with hnone | ⟨fd,hchannel⟩ | ⟨fd,hchannel⟩
    · exact hnone
    · exact absurd (h.tracked.registered (by rw [Connector.registered, hchannel]; rfl)) hstate
    · have hresets := h.tracked.resets
      rw [hqueue, removed, hchannel] at hresets
      cases hresets
  exact ⟨h.tracked.frame rfl rfl rfl, h.wanted, h.timers, h.stopping, Or.inr ⟨hqueue, hnone⟩⟩

/-- None of its own functions fails as a destroyed connector would. -/
def OwnFault (f : ConnectorFault) : Prop := f ≠ .destructor ∧ f ≠ .danglingPointer

theorem startInLoop_error {f : ConnectorFault} (h : s.startInLoop errno = .error f) : OwnFault f := by
  unfold Connector.startInLoop at h
  split at h
  · split at h
    · unfold Connector.connect at h
      dsimp only at h
      split at h
      · have hconnecting := Runs.map_error h
        unfold Connector.connecting at hconnecting
        split at hconnecting
        · cases hconnecting
        · cases hconnecting
          exact ⟨fun h => (by cases h), fun h => (by cases h)⟩
      · split at h <;> cases h
    · cases h
  · cases h
    exact ⟨fun h => (by cases h), fun h => (by cases h)⟩

theorem removeAndResetChannel_error {f : ConnectorFault} (h : s.removeAndResetChannel = .error f) :
    OwnFault f := by
  unfold removeAndResetChannel at h
  split at h
  · cases h
    exact ⟨fun h => (by cases h), fun h => (by cases h)⟩
  · split at h
    · cases h
      exact ⟨fun h => (by cases h), fun h => (by cases h)⟩
    · cases h

theorem stopInLoop_error {f : ConnectorFault} (h : s.stopInLoop = .error f) : OwnFault f := by
  unfold Connector.stopInLoop at h
  split at h
  · exact removeAndResetChannel_error (Runs.map_error h)
  · cases h

theorem handleEvent_error {f : ConnectorFault} {error write isSelfConnect : Bool}
    (h : s.handleEvent error write err isSelfConnect = .error f) : OwnFault f := by
  unfold Connector.handleEvent at h
  split at h
  case isFalse => cases h
  case isTrue =>
    rcases Runs.bind_error h with h1 | ⟨⟨s1,out1⟩,_,h2⟩
    · split at h1
      · unfold Connector.handleError at h1
        split at h1
        · exact removeAndResetChannel_error (Runs.map_error h1)
        · cases h1
      · cases h1
    · have h2 := Runs.map_error h2
      dsimp only at h2
      split at h2
      · unfold Connector.handleWrite at h2
        split at h2
        · exact removeAndResetChannel_error (Runs.map_error h2)
        · split at h2
          · cases h2
          · cases h2
            exact ⟨fun h => (by cases h), fun h => (by cases h)⟩
      · cases h2

theorem step_error {f : ConnectorFault} {event : ConnectorEvent} (h : s.step event = .error f) :
    OwnFault f := by
  cases event with
  | start inLoop errno =>
    change s.start inLoop errno = .error f at h
    unfold Connector.start at h
    dsimp only at h
    split at h
    · exact startInLoop_error h
    · cases h
  | stop => cases h
  | restart errno =>
    change s.restart errno = .error f at h
    unfold Connector.restart at h
    exact startInLoop_error h
  | handleEvent error write err isSelfConnect => exact handleEvent_error h
  | functor errno =>
    change s.doPendingFunctor errno = .error f at h
    unfold doPendingFunctor at h
    cases hqueue : s.pendingFunctors with
    | nil =>
      rw [hqueue] at h
      cases h
    | cons g rest =>
      rw [hqueue] at h
      cases g with
      | startInLoop => exact startInLoop_error h
      | stopInLoop => exact stopInLoop_error h
      | resetChannel =>
        replace h : { s with pendingFunctors := rest }.resetChannel = .error f := h
        unfold Connector.resetChannel at h
        split at h
        · cases h
        · split at h
          · cases h
            exact ⟨fun h => (by cases h), fun h => (by cases h)⟩
          · cases h
  | timer due errno =>
    change s.runTimer due errno = .error f at h
    unfold runTimer at h
    split at h
    · exact startInLoop_error h
    · cases h
  | wait microseconds => cases h

end Connector
namespace ClientLifetime

variable {s s' : ClientLifetime} {out : List ConnectorObs}

/-- What holds in the phases of a run that leaves the connector settled. -/
structure Sound (s : ClientLifetime) : Prop where
  retry : s.client.retry = false
  alive : s.phase = .alive → s.client.connector.Tracked
  kept : ∀ due, s.phase = .kept due → s.client.connector.Kept due
  destroyed : s.phase = .destroyed → s.client.connector.channel = none ∧
    s.client.connector.pendingFunctors = [] ∧ s.client.connector.timers = []

theorem sound_new (now : Timestamp) : (new now).Sound :=
  ⟨rfl, fun _ => Connector.tracked_new now, fun _ h => (by cases h), fun h => (by cases h)⟩

end ClientLifetime

/-- What the event does to the connector. -/
def TcpClientEvent.connectorEvent : TcpClientEvent → Option ConnectorEvent
  | .connect inLoop errno => some (.start inLoop errno)
  | .stop => some .stop
  | .handleEvent error write err isSelfConnect => some (.handleEvent error write err isSelfConnect)
  | .functor errno => some (.functor errno)
  | .timer due errno => some (.timer due errno)
  | .wait microseconds => some (.wait microseconds)
  | .disconnect | .removeConnection _ => none

namespace TcpClient

variable {s s' : TcpClient} {out : List ConnectorObs}

/-- What a step of the client does to its connector. -/
theorem connectorStep_ok {event : ConnectorEvent} (hok : s.connectorStep event = .ok (s', out)) :
    s.connector.step event = .ok (s'.connector, out) ∧ s'.retry = s.retry := by
  obtain ⟨⟨c,out'⟩,hc,hok⟩ := Runs.map_ok hok
  obtain ⟨rfl,rfl⟩ := Prod.mk.inj hok
  obtain ⟨hconnector,hretry⟩ := foldl_newConnection { s with connector := c } out'
  dsimp only
  rw [hconnector, hretry]
  exact ⟨hc, rfl⟩

theorem connectorStep_error {event : ConnectorEvent} {f : ConnectorFault}
    (h : s.connectorStep event = .error f) : Connector.OwnFault f :=
  Connector.step_error (Runs.map_error h)

theorem step_cases {event : TcpClientEvent} (hretry : s.retry = false)
    (hok : s.step event = .ok (s', out)) : s'.retry = false ∧
    ((∃ e, event.connectorEvent = some e ∧ s.connector.step e = .ok (s'.connector, out)) ∨
      (event.connectorEvent = none ∧ s'.connector = s.connector)) := by
  have hstep {t : TcpClient} {e : ConnectorEvent} (ht : t.connector = s.connector) (hr : t.retry = false)
      (he : event.connectorEvent = some e) (hok : t.connectorStep e = .ok (s', out)) : s'.retry = false ∧
      ((∃ e, event.connectorEvent = some e ∧ s.connector.step e = .ok (s'.connector, out)) ∨
        (event.connectorEvent = none ∧ s'.connector = s.connector)) := by
    obtain ⟨hc,hsame⟩ := connectorStep_ok hok
    rw [ht] at hc
    exact ⟨hsame.trans hr, Or.inl ⟨e, he, hc⟩⟩
  cases event with
  | connect inLoop errno => exact hstep (t := { s with wanted := true }) rfl hretry rfl hok
  | disconnect =>
    obtain ⟨rfl,_⟩ := Prod.mk.inj (Except.ok.inj hok)
    exact ⟨hretry, Or.inr ⟨rfl, rfl⟩⟩
  | stop => exact hstep (t := { s with wanted := false }) rfl hretry rfl hok
  | handleEvent error write err isSelfConnect => exact hstep rfl hretry rfl hok
  | functor errno => exact hstep rfl hretry rfl hok
  | timer due errno => exact hstep rfl hretry rfl hok
  | wait microseconds => exact hstep rfl hretry rfl hok
  | removeConnection errno =>
    change s.removeConnection errno = .ok (s', out) at hok
    unfold TcpClient.removeConnection at hok
    dsimp only at hok
    rw [hretry, Bool.false_and, if_neg Bool.false_ne_true] at hok
    split at hok
    · obtain ⟨rfl,_⟩ := Prod.mk.inj (Except.ok.inj hok)
      exact ⟨rfl, Or.inr ⟨rfl, rfl⟩⟩
    · obtain ⟨rfl,_⟩ := Prod.mk.inj (Except.ok.inj hok)
      exact ⟨hretry, Or.inr ⟨rfl, rfl⟩⟩

theorem step_error {event : TcpClientEvent} {f : ConnectorFault} (h : s.step event = .error f) :
    Connector.OwnFault f := by
  cases event with
  | connect inLoop errno => exact connectorStep_error h
  | disconnect => cases h
  | stop =>
    have hstop : { s with wanted := false }.connectorStep .stop = .error f := h
    exact connectorStep_error hstop
  | handleEvent error write err isSelfConnect => exact connectorStep_error h
  | functor errno => exact connectorStep_error h
  | timer due errno => exact connectorStep_error h
  | wait microseconds => exact connectorStep_error h
  | removeConnection errno =>
    change s.removeConnection errno = .error f at h
    unfold TcpClient.removeConnection at h
    dsimp only at h
    split at h
    · split at h
      · exact connectorStep_error h
      · cases h
    · cases h

end TcpClient

namespace ClientLifetime

variable {s s' : ClientLifetime} {out : List ConnectorObs}

theorem Sound.client (h : s.Sound) {event : TcpClientEvent} (hallowed : s.Allowed (.client event))
    {client : TcpClient} (hok : s.client.step event = .ok (client, out)) :
    Sound { s with client := client } := by
  obtain ⟨hretry,hcases⟩ := TcpClient.step_cases h.retry hok
  rcases hcases with ⟨e,he,hc⟩ | ⟨_,hsame⟩
  · refine ⟨hretry, ?_, ?_, ?_⟩
    · intro halive
      apply (h.alive halive).step _ hc
      intro errno hrestart
      rw [hrestart] at he
      cases event <;> cases he
    · intro due hkept
      have hk := h.kept due hkept
      have hdead : s.phase ≠ .alive := by
        intro halive
        cases hkept.symm.trans halive
      -- the user no longer calls the client
      cases event with
      | connect inLoop errno => exact absurd hallowed hdead
      | disconnect => cases he
      | stop => exact absurd hallowed hdead
      | handleEvent error write err isSelfConnect =>
        cases he
        rcases hk.tracked.handleEvent_cases hc with hsame | ⟨_,hs,hended⟩
        · dsimp only
          rw [hsame]
          exact hk
        · exact hk.ended hs hended
      | functor errno =>
        cases he
        exact hk.functor hc
      | timer due errno =>
        cases he
        exact hk.timer hc
      | wait microseconds =>
        cases he
        obtain ⟨hnow,_⟩ := Prod.mk.inj (Except.ok.inj hc)
        dsimp only
        rw [← hnow]
        exact hk.wait (hallowed hdead).1 _
      | removeConnection errno => cases he
    · intro hdestroyed
      obtain ⟨hchannel,hqueue,htimers⟩ := h.destroyed hdestroyed
      have hdead : s.phase ≠ .alive := by
        intro halive
        cases hdestroyed.symm.trans halive
      -- nothing is left that the loop could call
      have hsame (hok : (.ok (s.client.connector, []) : Except ConnectorFault _) =
          .ok (client.connector, out)) : client.connector.channel = none ∧ client.connector.pendingFunctors = [] ∧
          client.connector.timers = [] := by
        obtain ⟨hsame,_⟩ := Prod.mk.inj (Except.ok.inj hok)
        rw [← hsame]
        exact ⟨hchannel, hqueue, htimers⟩
      cases event with
      | connect inLoop errno => exact absurd hallowed hdead
      | disconnect => cases he
      | stop => exact absurd hallowed hdead
      | handleEvent error write err isSelfConnect =>
        cases he
        apply hsame
        rw [← hc, Connector.step, Connector.handleEvent, Connector.registered, hchannel]
        rfl
      | functor errno =>
        cases he
        apply hsame
        rw [← hc, Connector.step, Connector.doPendingFunctor, hqueue]
      | timer due errno =>
        cases he
        apply hsame
        rw [← hc, Connector.step, Connector.runTimer, htimers, if_neg List.not_mem_nil]
      | wait microseconds =>
        cases he
        obtain ⟨hnow,_⟩ := Prod.mk.inj (Except.ok.inj hc)
        dsimp only
        rw [← hnow]
        exact ⟨hchannel, hqueue, htimers⟩
      | removeConnection errno => cases he
  · refine ⟨hretry, ?_, ?_, ?_⟩
    · dsimp only
      rw [hsame]
      exact h.alive
    · dsimp only
      rw [hsame]
      exact h.kept
    · dsimp only
      rw [hsame]
      exact h.destroyed

/-- `~TcpClient`, and what it leaves. -/
theorem Sound.destroy (h : s.Sound) (halive : s.phase = .alive) (hsettled : s.Settled .destroy) :
    ∃ s', s.destroy = .ok (s', []) ∧ s'.Sound := by
  have ht := h.alive halive
  unfold Settled at hsettled
  unfold ClientLifetime.destroy
  cases hconnection : s.client.connection with
  | some sockfd =>
    rw [hconnection] at hsettled
    obtain ⟨hchannel,hrest⟩ := hsettled
    refine ⟨_, if_pos hchannel, ?_⟩
    exact ⟨h.retry, fun h => (by cases h), fun _ h => (by cases h), fun _ => ⟨hchannel, hrest⟩⟩
  | none =>
    rw [hconnection] at hsettled
    replace hsettled : ∀ due ∈ s.client.connector.timers, due ≤ dueAfter s.client.connector.now 1000000 :=
      hsettled
    refine ⟨_, rfl, h.retry, fun h => (by cases h), ?_, fun h => (by cases h)⟩
    intro due hdue
    cases hdue
    refine ⟨ht.frame rfl rfl (by simp [Connector.stop, Connector.queueInLoop]), rfl, hsettled, Or.inl ?_,
      Or.inl ?_⟩
    · simp [Connector.stop, Connector.queueInLoop]
    · show s.client.connector.now < dueAfter s.client.connector.now 1000000
      exact Int.lt_add_of_pos_right _ (by decide)

/-- The second is over. -/
theorem Sound.removeConnector (h : s.Sound) (hallowed : s.Allowed .removeConnector) :
    ∃ s', s.destroyConnector = .ok (s', []) ∧ s'.Sound := by
  obtain ⟨due,hphase,hdue,htimers⟩ := hallowed
  have hk := h.kept due hphase
  have hdrained : s.client.connector.pendingFunctors = [] ∧ s.client.connector.channel = none :=
    hk.drained.resolve_left (fun hlt => absurd hdue (not_le.mpr hlt))
  refine ⟨_, if_pos hdrained.2, h.retry, fun h => (by cases h), fun _ h => (by cases h), ?_⟩
  refine fun _ => ⟨hdrained.2, hdrained.1, ?_⟩
  -- a timer that is left would be due later than all of them are
  apply List.eq_nil_iff_forall_not_mem.mpr
  intro t ht
  have hlater := htimers t ht
  have hbefore := hk.timers t ht
  exact absurd (lt_of_lt_of_le hlater (hbefore.trans hdue)) (lt_irrefl _)

theorem Sound.step (h : s.Sound) {event : LifetimeEvent} (hallowed : s.Allowed event)
    (hsettled : s.Settled event) (hok : s.step event = .ok (s', out)) : s'.Sound := by
  cases event with
  | client event =>
    unfold ClientLifetime.step at hok
    dsimp only at hok
    split at hok
    · cases hok
    · obtain ⟨⟨client,out'⟩,hc,hok⟩ := Runs.map_ok hok
      obtain ⟨rfl,rfl⟩ := Prod.mk.inj hok
      exact h.client hallowed hc
  | destroy =>
    obtain ⟨t,ht,hsound⟩ := h.destroy hallowed hsettled
    obtain ⟨rfl,_⟩ := Prod.mk.inj (Except.ok.inj (ht.symm.trans hok))
    exact hsound
  | removeConnector =>
    obtain ⟨t,ht,hsound⟩ := h.removeConnector hallowed
    obtain ⟨rfl,_⟩ := Prod.mk.inj (Except.ok.inj (ht.symm.trans hok))
    exact hsound

theorem Sound.step_error (h : s.Sound) {event : LifetimeEvent} {f : ConnectorFault}
    (hallowed : s.Allowed event) (hsettled : s.Settled event) (herror : s.step event = .error f) :
    Connector.OwnFault f := by
  cases event with
  | client event =>
    unfold ClientLifetime.step at herror
    dsimp only at herror
    split at herror
    case isTrue hcalls =>
      obtain ⟨hdestroyed,hcalls⟩ := hcalls
      obtain ⟨hchannel,hqueue,htimers⟩ := h.destroyed hdestroyed
      cases event <;> simp [TcpClientEvent.calls, Connector.registered, hchannel, hqueue, htimers] at hcalls
    case isFalse => exact TcpClient.step_error (Runs.map_error herror)
  | destroy =>
    obtain ⟨t,ht,_⟩ := h.destroy hallowed hsettled
    cases ht.symm.trans herror
  | removeConnector =>
    obtain ⟨t,ht,_⟩ := h.removeConnector hallowed
    cases ht.symm.trans herror

end ClientLifetime

/-- In the runs in which `~TcpClient` finds no retry timer that is due in more than a second, or, where
there is a connection, nothing at all of the connector, no callback of the connector runs after its
destructor, and the destructor finds no channel. -/
theorem connector_outlives_callbacks (now : Timestamp) (events : List LifetimeEvent)
    (h : Runs.Along ClientLifetime.step (fun s event => s.Allowed event ∧ s.Settled event)
      (ClientLifetime.new now) events) :
    (ClientLifetime.new now).run events ≠ .error .danglingPointer ∧
    (ClientLifetime.new now).run events ≠ .error .destructor ∧
    ∀ s obs, (ClientLifetime.new now).run events = .ok (s, obs) → s.phase = .destroyed →
      s.client.connector.channel = none ∧ s.client.connector.pendingFunctors = [] ∧
      s.client.connector.timers = [] := by
  have hstep (s : ClientLifetime) (event : LifetimeEvent) (s' : ClientLifetime) (out : List ConnectorObs)
      (hs : s.Sound) (hevent : s.Allowed event ∧ s.Settled event) (hok : s.step event = .ok (s', out)) :
      s'.Sound := hs.step hevent.1 hevent.2 hok
  have herror (s : ClientLifetime) (event : LifetimeEvent) (f : ConnectorFault) (hs : s.Sound)
      (hevent : s.Allowed event ∧ s.Settled event) (hf : s.step event = .error f) :
      Connector.OwnFault f := hs.step_error hevent.1 hevent.2 hf
  have hnew := ClientLifetime.sound_new now
  refine ⟨?_, ?_, ?_⟩
  · intro hrun
    exact (Runs.run_error_along _ _ hstep herror hnew h hrun).2 rfl
  · intro hrun
    exact (Runs.run_error_along _ _ hstep herror hnew h hrun).1 rfl
  · intro s obs hrun
    exact (Runs.run_preserves_along _ hstep hnew h hrun).destroyed

/-- The client is destroyed while a retry is due within the second. -/
theorem connector_outlives_callbacks_retry : (ClientLifetime.new 0).run [.client (.connect true ECONNREFUSED),
      .destroy, .client (.functor 0), .client (.wait 500000), .client (.timer 500000 0),
      .client (.wait 500000), .removeConnector] ≠ .error .danglingPointer := by
  have halong : Runs.Along ClientLifetime.step (fun s event => s.Allowed event ∧ s.Settled event)
      (ClientLifetime.new 0) [.client (.connect true ECONNREFUSED), .destroy, .client (.functor 0),
      .client (.wait 500000), .client (.timer 500000 0), .client (.wait 500000), .removeConnector] := by
    refine Runs.along_cons ⟨rfl, trivial⟩ rfl ?_
    refine Runs.along_cons ⟨rfl, ?_⟩ rfl ?_
    · show ∀ due ∈ [(500000 : ℤ)], due ≤ 1000000
      decide
    refine Runs.along_cons ⟨trivial, trivial⟩ rfl ?_
    refine Runs.along_cons ⟨fun _ => ⟨rfl, ?_, ?_⟩, trivial⟩ rfl ?_
    · show ∀ due ∈ [(500000 : ℤ)], (500000 : ℤ) ≤ due
      decide
    · intro due hdue
      cases hdue
      decide
    refine Runs.along_cons ⟨trivial, trivial⟩ rfl ?_
    refine Runs.along_cons ⟨fun _ => ⟨rfl, fun _ h => (by cases h), ?_⟩, trivial⟩ rfl ?_
    · intro due hdue
      cases hdue
      decide
    refine Runs.along_cons ⟨⟨1000000, rfl, by decide, fun _ h => (by cases h)⟩, trivial⟩ rfl ?_
    trivial
  exact (connector_outlives_callbacks 0 _ halong).1

/-- The third retry is due two seconds after the client has been destroyed; and a client that is destroyed
by its connection callback leaves a channel. -/
theorem connector_outlives_callbacks_fails :
    (Runs.Along ClientLifetime.step ClientLifetime.Allowed (ClientLifetime.new 0)
      [.client (.connect true ECONNREFUSED), .client (.wait 500000), .client (.timer 500000 ECONNREFUSED),
        .client (.wait 1000000), .client (.timer 1500000 ECONNREFUSED), .destroy, .client (.functor 0),
        .client (.wait 1000000), .removeConnector, .client (.wait 1000000), .client (.timer 3500000 0)] ∧
    (ClientLifetime.new 0).run [.client (.connect true ECONNREFUSED), .client (.wait 500000),
      .client (.timer 500000 ECONNREFUSED), .client (.wait 1000000), .client (.timer 1500000 ECONNREFUSED),
      .destroy, .client (.functor 0), .client (.wait 1000000), .removeConnector, .client (.wait 1000000),
      .client (.timer 3500000 0)] = .error .danglingPointer) ∧
    (ClientLifetime.new 0).run [.client (.connect true EINPROGRESS),
      .client (.handleEvent false true 0 false), .destroy] = .error .destructor := by
  refine ⟨⟨?_, rfl⟩, rfl⟩
  refine Runs.along_cons rfl rfl ?_
  refine Runs.along_cons (fun h => absurd rfl h) rfl ?_
  refine Runs.along_cons trivial rfl ?_
  refine Runs.along_cons (fun h => absurd rfl h) rfl ?_
  refine Runs.along_cons trivial rfl ?_
  refine Runs.along_cons rfl rfl ?_
  refine Runs.along_cons trivial rfl ?_
  refine Runs.along_cons (fun _ => ⟨rfl, ?_, ?_⟩) rfl ?_
  · show ∀ due ∈ [(3500000 : ℤ)], (2500000 : ℤ) ≤ due
    decide
  · intro due hdue
    cases hdue
    decide
  refine Runs.along_cons ⟨2500000, rfl, by decide, ?_⟩ rfl ?_
  · show ∀ due ∈ [(3500000 : ℤ)], (2500000 : ℤ) < due
    decide
  refine Runs.along_cons (fun _ => ⟨rfl, ?_, fun _ h => (by cases h)⟩) rfl ?_
  · show ∀ due ∈ [(3500000 : ℤ)], (3500000 : ℤ) ≤ due
    decide
  exact ⟨trivial, fun s' out h => by cases h⟩

end IdealServer
