import IdealServer.Connector

/-! What becomes of the descriptors that a `Connector` creates. -/
namespace IdealServer

/-- How often the descriptor has been handed over or closed. -/
def disposals (obs : List ConnectorObs) (fd : ℕ) : ℕ := obs.count (.handed fd)+obs.count (.closed fd)

theorem disposals_append (obs new : List ConnectorObs) (fd : ℕ) :
    disposals (obs ++ new) fd = disposals obs fd+disposals new fd := by
  unfold disposals
  rw [List.count_append, List.count_append]
  omega

namespace Connector

/-- The descriptor of the registered channel. -/
def watched (s : Connector) : Option ℕ :=
  s.channel.bind (fun c => if c.channel.label = .kAdded then some c.fd else none)

/-- While it waits for `connect(2)` its channel is registered. -/
structure Watching (s : Connector) : Prop where
  connecting : s.state = .kConnecting → ∃ fd, s.channel = some ⟨fd, Channel.new.enableWriting⟩
  channel : ∀ c, s.channel = some c → c.channel = Channel.new.enableWriting ∨ c.channel = Channel.new

/-- Every descriptor is disposed of once, but for that of the registered channel and one that a
function holds in a variable. -/
structure Owned (s : Connector) (hand : Option ℕ) (obs : List ConnectorObs) : Prop where
  created : ∀ fd, obs.count (.created fd) = if fd < s.sockets then 1 else 0
  fresh : ∀ fd, s.watched = some fd → fd < s.sockets
  inHand : ∀ fd, hand = some fd → fd < s.sockets ∧ s.watched ≠ some fd
  settled : ∀ fd, disposals obs fd = if fd < s.sockets ∧ s.watched ≠ some fd ∧ hand ≠ some fd then 1 else 0

variable {s s' : Connector} {fd : ℕ} {hand : Option ℕ} {obs out : List ConnectorObs} {errno err : ℤ}

theorem watching_new (now : Timestamp) : (new now).Watching :=
  ⟨fun h => (by cases h), fun _ h => (by cases h)⟩

theorem owned_new (now : Timestamp) : (new now).Owned none [] := by
  refine ⟨fun fd => (if_neg (Nat.not_lt_zero fd)).symm, ?_, ?_, ?_⟩
  · intro fd h
    cases h
  · intro fd h
    cases h
  · intro fd
    rw [if_neg]
    · rfl
    · intro h
      exact Nat.not_lt_zero fd h.1

/-- Only the channel and the number of descriptors matter. -/
theorem Owned.frame (h : s.Owned hand obs) (hchannel : s'.channel = s.channel)
    (hsockets : s'.sockets = s.sockets) : s'.Owned hand obs := by
  have hwatched : s'.watched = s.watched := by rw [watched, watched, hchannel]
  refine ⟨?_, ?_, ?_, ?_⟩
  · rw [hsockets]
    exact h.created
  · rw [hwatched, hsockets]
    exact h.fresh
  · rw [hwatched, hsockets]
    exact h.inHand
  · rw [hwatched, hsockets]
    exact h.settled

/-- `createNonblockingOrDie` -/
theorem Owned.create (h : s.Owned none obs) :
    Owned { s with sockets := s.sockets+1 } (some s.sockets) (obs ++ [.created s.sockets]) := by
  have hfresh (fd : ℕ) (hfd : s.watched = some fd) : fd < s.sockets := h.fresh fd hfd
  refine ⟨?_, ?_, ?_, ?_⟩
  · intro fd
    rw [List.count_append, h.created fd]
    by_cases hfd : fd = s.sockets
    · rw [hfd, if_neg (Nat.lt_irrefl _), if_pos (Nat.lt_succ_self _), List.count_singleton_self]
    · have hnew : List.count (ConnectorObs.created fd) [.created s.sockets] = 0 := by simp [Ne.symm hfd]
      rw [hnew, Nat.add_zero]
      apply if_congr _ rfl rfl
      show fd < s.sockets ↔ fd < s.sockets+1
      omega
  · intro fd hfd
    have := hfresh fd hfd
    show fd < s.sockets+1
    omega
  · intro fd hfd
    cases hfd
    refine ⟨Nat.lt_succ_self _, ?_⟩
    intro hsame
    exact Nat.lt_irrefl _ (hfresh s.sockets hsame)
  · intro fd
    have hnew : disposals [.created s.sockets] fd = 0 := by simp [disposals]
    rw [disposals_append, h.settled fd, hnew, Nat.add_zero]
    -- the new descriptor is in the variable, and nothing changes for the old ones
    apply if_congr _ rfl rfl
    show (fd < s.sockets ∧ s.watched ≠ some fd ∧ none ≠ some fd) ↔
      (fd < s.sockets+1 ∧ s.watched ≠ some fd ∧ some s.sockets ≠ some fd)
    constructor
    · intro ⟨hlt,hne,_⟩
      refine ⟨by omega, hne, ?_⟩
      intro hsame
      cases hsame
      exact Nat.lt_irrefl _ hlt
    · intro ⟨hlt,hne,hother⟩
      have : fd ≠ s.sockets := fun hsame => hother (by rw [hsame])
      exact ⟨by omega, hne, by simp⟩

/-- The descriptor in the variable is handed over or closed. -/
theorem Owned.dispose (h : s.Owned (some fd) obs) {o : ConnectorObs}
    (ho : o = .handed fd ∨ o = .closed fd) : s.Owned none (obs ++ [o]) := by
  obtain ⟨hlt,hne⟩ := h.inHand fd rfl
  refine ⟨?_, h.fresh, fun _ hfd => (by cases hfd), ?_⟩
  · intro k
    rw [List.count_append, h.created k]
    rcases ho with rfl | rfl <;> simp
  intro k
  have hnew : disposals [o] k = if k = fd then 1 else 0 := by
    rcases ho with rfl | rfl <;> by_cases hk : k = fd <;> simp [disposals, hk, Ne.symm, eq_comm]
  rw [disposals_append, h.settled k, hnew]
  by_cases hk : k = fd
  · rw [hk, if_neg (fun hall => hall.2.2 rfl), if_pos rfl, if_pos ⟨hlt, hne, by simp⟩]
  · rw [if_neg hk, Nat.add_zero]
    have hother : some fd ≠ some k := fun hsame => hk (Option.some.inj hsame).symm
    exact if_congr (by simp [hother]) rfl rfl

section Retry
variable (s : Connector) (fd : ℕ)

@[simp] theorem retry_state : (s.retry fd).1.state = .kDisconnected := by
  unfold retry
  dsimp only
  split <;> rfl

@[simp] theorem retry_channel : (s.retry fd).1.channel = s.channel := by
  unfold retry
  dsimp only
  split <;> rfl

@[simp] theorem retry_pendingFunctors : (s.retry fd).1.pendingFunctors = s.pendingFunctors := by
  unfold retry
  dsimp only
  split <;> rfl

@[simp] theorem retry_wanted : (s.retry fd).1.wanted = s.wanted := by
  unfold retry
  dsimp only
  split <;> rfl

@[simp] theorem retry_now : (s.retry fd).1.now = s.now := by
  unfold retry
  dsimp only
  split <;> rfl

theorem retry_timers : (s.retry fd).1.timers =
    if s.wanted then s.timers ++ [dueAfter s.now (s.retryDelayMs*1000)] else s.timers := by
  unfold retry
  dsimp only
  split <;> rfl

end Retry

theorem Owned.retry (h : s.Owned (some fd) obs) :
    (s.retry fd).1.Owned none (obs ++ (s.retry fd).2) := by
  have hs : s.Owned none (obs ++ [.closed fd]) := h.dispose (Or.inr rfl)
  unfold Connector.retry
  dsimp only
  split
  · exact hs.frame rfl rfl
  · exact hs.frame rfl rfl

theorem Owned.connected (h : s.Owned (some fd) obs) :
    (s.connected fd).1.Owned none (obs ++ (s.connected fd).2) := by
  have hs : { s with state := .kConnected }.Owned (some fd) obs := h.frame rfl rfl
  unfold Connector.connected
  apply hs.dispose
  split
  · exact Or.inl rfl
  · exact Or.inr rfl

/-- The channel takes the descriptor over. -/
theorem Owned.connecting (h : s.Owned (some fd) obs) (hok : s.connecting fd = .ok s') :
    s'.Watching ∧ s'.Owned none obs := by
  unfold Connector.connecting at hok
  split at hok
  case isFalse => cases hok
  case isTrue hnone =>
    obtain rfl := Except.ok.inj hok
    have hwatched : s.watched = none := by rw [watched, hnone, Option.bind_none]
    refine ⟨⟨fun _ => ⟨fd, rfl⟩, ?_⟩, h.created, ?_, fun _ hfd => (by cases hfd), ?_⟩
    · intro c hc
      cases hc
      exact Or.inl rfl
    · intro k hk
      obtain rfl : fd = k := Option.some.inj hk
      exact (h.inHand fd rfl).1
    · intro k
      rw [h.settled k, hwatched]
      apply if_congr _ rfl rfl
      constructor
      · intro ⟨hlt,_,hne⟩
        exact ⟨hlt, hne, by simp⟩
      · intro ⟨hlt,hne,_⟩
        exact ⟨hlt, by simp, hne⟩

/-- `disableAll` and `remove` of a channel that waits for `connect(2)`. -/
theorem removeAndResetChannel_eq (hchannel : s.channel = some ⟨fd, Channel.new.enableWriting⟩) :
    s.removeAndResetChannel =
      .ok ({ s with channel := some ⟨fd, Channel.new⟩ }.queueInLoop .resetChannel, fd) := by
  unfold removeAndResetChannel
  rw [hchannel]
  rfl

/-- The channel gives the descriptor back. -/
theorem Owned.remove (h : s.Owned none obs) (hchannel : s.channel = some ⟨fd, Channel.new.enableWriting⟩) :
    ({ s with channel := some ⟨fd, Channel.new⟩ }.queueInLoop .resetChannel).Owned (some fd) obs := by
  have hwatched : s.watched = some fd := by
    rw [watched, hchannel]
    rfl
  refine ⟨h.created, fun _ hk => (by cases hk), ?_, ?_⟩
  · intro k hk
    obtain rfl := Option.some.inj hk
    exact ⟨h.fresh fd hwatched, fun hk => by cases hk⟩
  · intro k
    rw [h.settled k, hwatched]
    apply if_congr _ rfl rfl
    constructor
    · intro ⟨hlt,hne,_⟩
      exact ⟨hlt, fun hk => (by cases hk), hne⟩
    · intro ⟨hlt,_,hne⟩
      exact ⟨hlt, hne, by simp⟩

/-- The channel has been removed, and the state is no longer `kConnecting`. -/
theorem watching_removed (hchannel : s.channel = some ⟨fd, Channel.new⟩) (hs : s.state ≠ .kConnecting) :
    s.Watching := by
  refine ⟨fun h => absurd h hs, ?_⟩
  intro c hc
  rw [hchannel] at hc
  cases hc
  exact Or.inr rfl

theorem watching_retry (hchannel : s.channel = some ⟨fd, Channel.new⟩) : (s.retry fd).1.Watching := by
  apply watching_removed ((retry_channel s fd).trans hchannel)
  rw [retry_state]
  intro h
  cases h

theorem Owned.connect (hw : s.Watching) (h : s.Owned none obs) (hok : s.connect errno = .ok (s', out)) :
    s'.Watching ∧ s'.Owned none (obs ++ out) := by
  have hcreate := h.create
  have hsplit (new : List ConnectorObs) :
      obs ++ .created s.sockets :: new = (obs ++ [.created s.sockets]) ++ new := by simp
  unfold Connector.connect at hok
  dsimp only at hok
  split at hok
  · obtain ⟨s1,h1,hok⟩ := Runs.map_ok hok
    obtain ⟨rfl,rfl⟩ := Prod.mk.inj hok
    exact hcreate.connecting h1
  · split at hok
    · obtain ⟨rfl,rfl⟩ := Prod.mk.inj (Except.ok.inj hok)
      rw [hsplit]
      refine ⟨⟨?_, ?_⟩, hcreate.retry⟩
      · rw [retry_state]
        intro h
        cases h
      · rw [retry_channel]
        exact hw.channel
    · obtain ⟨rfl,rfl⟩ := Prod.mk.inj (Except.ok.inj hok)
      rw [hsplit]
      exact ⟨⟨hw.connecting, hw.channel⟩, hcreate.dispose (Or.inr rfl)⟩

/-- Nothing happens. -/
theorem Owned.skip (hw : s.Watching) (h : s.Owned none obs)
    (hok : (.ok (s, []) : Except ConnectorFault (Connector × List ConnectorObs)) = .ok (s', out)) :
    s'.Watching ∧ s'.Owned none (obs ++ out) := by
  obtain ⟨rfl,rfl⟩ := Prod.mk.inj (Except.ok.inj hok)
  rw [List.append_nil]
  exact ⟨hw, h⟩

theorem Owned.startInLoop (hw : s.Watching) (h : s.Owned none obs)
    (hok : s.startInLoop errno = .ok (s', out)) : s'.Watching ∧ s'.Owned none (obs ++ out) := by
  unfold Connector.startInLoop at hok
  split at hok
  case isFalse => cases hok
  case isTrue =>
    split at hok
    · exact Owned.connect hw h hok
    · exact Owned.skip hw h hok

/-- Nothing that the functions test or change here depends on the other fields. -/
theorem Owned.quiet (hw : s.Watching) (h : s.Owned none obs) (hchannel : s'.channel = s.channel)
    (hsockets : s'.sockets = s.sockets) (hstate : s'.state = .kConnecting → s.state = .kConnecting) :
    s'.Watching ∧ s'.Owned none obs := by
  refine ⟨⟨?_, ?_⟩, h.frame hchannel hsockets⟩
  · rw [hchannel]
    exact fun hs => hw.connecting (hstate hs)
  · rw [hchannel]
    exact hw.channel

theorem Owned.start (hw : s.Watching) (h : s.Owned none obs) {inLoop : Bool}
    (hok : s.start inLoop errno = .ok (s', out)) : s'.Watching ∧ s'.Owned none (obs ++ out) := by
  obtain ⟨hw1,h1⟩ := @Owned.quiet s { s with wanted := true } obs hw h rfl rfl id
  unfold Connector.start at hok
  dsimp only at hok
  split at hok
  · exact Owned.startInLoop hw1 h1 hok
  · obtain ⟨rfl,rfl⟩ := Prod.mk.inj (Except.ok.inj hok)
    rw [List.append_nil]
    exact Owned.quiet hw1 h1 rfl rfl id

theorem Owned.stopInLoop (hw : s.Watching) (h : s.Owned none obs)
    (hok : s.stopInLoop = .ok (s', out)) : s'.Watching ∧ s'.Owned none (obs ++ out) := by
  unfold Connector.stopInLoop at hok
  split at hok
  case isTrue hs =>
    obtain ⟨fd,hchannel⟩ := hw.connecting hs
    have hdown : { s with state := .kDisconnected }.Owned none obs := h.frame rfl rfl
    have heq := @removeAndResetChannel_eq { s with state := .kDisconnected } fd hchannel
    dsimp only at hok
    rw [heq] at hok
    obtain ⟨rfl,rfl⟩ := Prod.mk.inj (Except.ok.inj hok)
    exact ⟨watching_retry rfl, (hdown.remove hchannel).retry⟩
  case isFalse =>
    exact Owned.skip hw h hok

theorem Owned.handleError (hw : s.Watching) (h : s.Owned none obs)
    (hok : s.handleError = .ok (s', out)) : s'.Watching ∧ s'.Owned none (obs ++ out) := by
  unfold Connector.handleError at hok
  split at hok
  case isTrue hs =>
    obtain ⟨fd,hchannel⟩ := hw.connecting hs
    rw [removeAndResetChannel_eq hchannel] at hok
    obtain ⟨rfl,rfl⟩ := Prod.mk.inj (Except.ok.inj hok)
    exact ⟨watching_retry rfl, (h.remove hchannel).retry⟩
  case isFalse =>
    exact Owned.skip hw h hok

theorem Owned.handleWrite (hw : s.Watching) (h : s.Owned none obs) {isSelfConnect : Bool}
    (hok : s.handleWrite err isSelfConnect = .ok (s', out)) :
    s'.Watching ∧ s'.Owned none (obs ++ out) := by
  unfold Connector.handleWrite at hok
  split at hok
  case isTrue hs =>
    obtain ⟨fd,hchannel⟩ := hw.connecting hs
    rw [removeAndResetChannel_eq hchannel] at hok
    have hremove := h.remove hchannel
    obtain ⟨r,hr,hok⟩ := Runs.map_ok hok
    obtain rfl := Except.ok.inj hr
    dsimp only at hok
    split at hok
    · obtain ⟨rfl,rfl⟩ := Prod.mk.inj hok
      exact ⟨watching_retry rfl, hremove.retry⟩
    · split at hok
      · obtain ⟨rfl,rfl⟩ := Prod.mk.inj hok
        exact ⟨watching_retry rfl, hremove.retry⟩
      · obtain ⟨rfl,rfl⟩ := Prod.mk.inj hok
        exact ⟨watching_removed rfl (fun h => by cases h), hremove.connected⟩
  case isFalse =>
    split at hok
    · exact Owned.skip hw h hok
    · cases hok

theorem Owned.handleEvent (hw : s.Watching) (h : s.Owned none obs) {error write isSelfConnect : Bool}
    (hok : s.handleEvent error write err isSelfConnect = .ok (s', out)) :
    s'.Watching ∧ s'.Owned none (obs ++ out) := by
  unfold Connector.handleEvent at hok
  split at hok
  case isFalse => exact Owned.skip hw h hok
  case isTrue =>
    -- an error comes before the write that is reported with it
    obtain ⟨⟨s1,out1⟩,h1,hok⟩ := Runs.bind_ok hok
    obtain ⟨⟨s2,out2⟩,h2,hok⟩ := Runs.map_ok hok
    obtain ⟨rfl,rfl⟩ := Prod.mk.inj hok
    have hfirst : s1.Watching ∧ s1.Owned none (obs ++ out1) := by
      split at h1
      · exact Owned.handleError hw h h1
      · exact Owned.skip hw h h1
    rw [← List.append_assoc]
    dsimp only at h2
    split at h2
    · exact Owned.handleWrite hfirst.1 hfirst.2 h2
    · exact Owned.skip hfirst.1 hfirst.2 h2

theorem Owned.resetChannel (hw : s.Watching) (h : s.Owned none obs)
    (hok : s.resetChannel = .ok (s', out)) : s'.Watching ∧ s'.Owned none (obs ++ out) := by
  unfold Connector.resetChannel at hok
  cases hchannel : s.channel with
  | none =>
    rw [hchannel] at hok
    exact Owned.skip hw h hok
  | some c =>
    rw [hchannel] at hok
    dsimp only at hok
    rcases hw.channel c hchannel with hc | hc
    · rw [hc] at hok
      cases hok
    · rw [hc] at hok
      obtain ⟨rfl,rfl⟩ := Prod.mk.inj (Except.ok.inj hok)
      have hnot : s.state ≠ .kConnecting := by
        intro hs
        obtain ⟨fd,hfd⟩ := hw.connecting hs
        rw [hchannel] at hfd
        cases hfd
        cases hc
      have hwatched : s.watched = none := by
        rw [watched, hchannel, Option.bind_some, hc]
        rfl
      rw [List.append_nil]
      refine ⟨⟨fun hs => absurd hs hnot, fun _ h => (by cases h)⟩, h.created, ?_, ?_, ?_⟩
      · intro fd hfd
        cases hfd
      · intro fd hfd
        cases hfd
      · have hsettled := h.settled
        rw [hwatched] at hsettled
        exact hsettled

theorem Owned.functor (hw : s.Watching) (h : s.Owned none obs)
    (hok : s.doPendingFunctor errno = .ok (s', out)) : s'.Watching ∧ s'.Owned none (obs ++ out) := by
  unfold doPendingFunctor at hok
  cases hqueue : s.pendingFunctors with
  | nil =>
    rw [hqueue] at hok
    exact Owned.skip hw h hok
  | cons f rest =>
    rw [hqueue] at hok
    obtain ⟨hw1,h1⟩ := @Owned.quiet s { s with pendingFunctors := rest } obs hw h rfl rfl id
    cases f with
    | startInLoop => exact Owned.startInLoop hw1 h1 hok
    | stopInLoop => exact Owned.stopInLoop hw1 h1 hok
    | resetChannel => exact Owned.resetChannel hw1 h1 hok

theorem Owned.step (hw : s.Watching) (h : s.Owned none obs) {event : ConnectorEvent}
    (hok : s.step event = .ok (s', out)) : s'.Watching ∧ s'.Owned none (obs ++ out) := by
  cases event with
  | start inLoop errno => exact Owned.start hw h hok
  | stop =>
    obtain ⟨rfl,rfl⟩ := Prod.mk.inj (Except.ok.inj hok)
    rw [List.append_nil]
    exact Owned.quiet hw h rfl rfl id
  | restart errno =>
    obtain ⟨hw1,h1⟩ := @Owned.quiet s
      { s with state := .kDisconnected, retryDelayMs := kInitRetryDelayMs, wanted := true } obs hw h rfl rfl
      (fun h => by cases h)
    exact Owned.startInLoop hw1 h1 hok
  | handleEvent error write err isSelfConnect => exact Owned.handleEvent hw h hok
  | functor errno => exact Owned.functor hw h hok
  | timer due errno =>
    change s.runTimer due errno = .ok (s', out) at hok
    unfold runTimer at hok
    split at hok
    · obtain ⟨hw1,h1⟩ := @Owned.quiet s { s with timers := s.timers.erase due } obs hw h rfl rfl id
      exact Owned.startInLoop hw1 h1 hok
    · exact Owned.skip hw h hok
  | wait microseconds =>
    obtain ⟨rfl,rfl⟩ := Prod.mk.inj (Except.ok.inj hok)
    rw [List.append_nil]
    exact Owned.quiet hw h rfl rfl id

end Connector

/-- In every run, a descriptor that `connect` has created is another one each time, and it has been
handed over once and not closed, or closed once and not handed over, or neither, and only then it is that
of the registered channel. -/
theorem descriptor_disposed_once {now : Timestamp} {events : List ConnectorEvent} {s : Connector}
    {obs : List ConnectorObs} (h : (Connector.new now).run events = .ok (s, obs)) {fd : ℕ}
    (hfd : .created fd ∈ obs) : obs.count (.created fd) = 1 ∧
    ((obs.count (.handed fd) = 1 ∧ obs.count (.closed fd) = 0 ∧ s.watched ≠ some fd) ∨
    (obs.count (.handed fd) = 0 ∧ obs.count (.closed fd) = 1 ∧ s.watched ≠ some fd) ∨
    (obs.count (.handed fd) = 0 ∧ obs.count (.closed fd) = 0 ∧ s.watched = some fd)) := by
  have hstep (s : Connector) (acc : List ConnectorObs) (event : ConnectorEvent) (s' : Connector)
      (out : List ConnectorObs) (hs : s.Watching ∧ s.Owned none acc)
      (hok : s.step event = .ok (s', out)) : s'.Watching ∧ s'.Owned none (acc ++ out) :=
    Connector.Owned.step hs.1 hs.2 hok
  obtain ⟨_,hs⟩ := @Runs.run_invariant _ _ _ _ _ (fun s obs => s.Watching ∧ s.Owned none obs) hstep _ _ _ [] _
    ⟨Connector.watching_new now, Connector.owned_new now⟩ h
  rw [List.nil_append] at hs
  have hlt : fd < s.sockets := by
    by_contra hnot
    have hcount := hs.created fd
    rw [if_neg hnot] at hcount
    exact absurd hfd (List.count_eq_zero.mp hcount)
  refine ⟨(hs.created fd).trans (if_pos hlt), ?_⟩
  have hsum : obs.count (.handed fd)+obs.count (.closed fd) = _ := hs.settled fd
  by_cases hw : s.watched = some fd
  · rw [if_neg (fun hall => hall.2.1 hw)] at hsum
    exact Or.inr (Or.inr ⟨by omega, by omega, hw⟩)
  · rw [if_pos ⟨hlt, hw, by simp⟩] at hsum
    have hor : obs.count (.handed fd) = 1 ∧ obs.count (.closed fd) = 0 ∨
        obs.count (.handed fd) = 0 ∧ obs.count (.closed fd) = 1 := by omega
    rcases hor with ⟨hhanded,hclosed⟩ | ⟨hhanded,hclosed⟩
    · exact Or.inl ⟨hhanded, hclosed, hw⟩
    · exact Or.inr (Or.inl ⟨hhanded, hclosed, hw⟩)

/-- An error event together with a write event, a refused retry and a connection. -/
theorem descriptor_disposed_once_handed : ∃ s obs, (Connector.new 0).run [.start true EINPROGRESS,
      .handleEvent true true ECONNREFUSED false, .functor 0, .wait 500000, .timer 500000 ECONNREFUSED,
      .wait 1000000, .timer 1500000 0, .handleEvent false true 0 false] = .ok (s, obs) ∧
    obs.count (.handed 2) = 1 ∧ obs.count (.closed 2) = 0 ∧ s.watched ≠ some 2 := by
  have hrun : (Connector.new 0).run [.start true EINPROGRESS,
      .handleEvent true true ECONNREFUSED false, .functor 0, .wait 500000, .timer 500000 ECONNREFUSED,
      .wait 1000000, .timer 1500000 0, .handleEvent false true 0 false] =
      .ok (⟨true, .kConnected, some ⟨2, Channel.new⟩, 2000, [.resetChannel], [], 3, 1500000⟩,
        [.created 0, .closed 0, .created 1, .closed 1, .created 2, .handed 2]) := by decide
  refine ⟨_, _, hrun, ?_⟩
  rcases @descriptor_disposed_once 0 _ _ _ hrun 2 (by simp) with ⟨_,h | h | h⟩
  · exact h
  · cases h.1
  · cases h.1

end IdealServer
