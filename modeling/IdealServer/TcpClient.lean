import IdealServer.ConnectorSockets

/-! A `TcpClient` and its `Connector`. Of the connection only its descriptor is kept, and calls of the
user from within a callback of the loop come after the handler that runs it. -/
namespace IdealServer

structure TcpClient where
  connector : Connector
  /-- `_retry`, which no function sets. -/
  retry : Bool
  /-- `_connect` -/
  wanted : Bool
  connection : Option ℕ
deriving DecidableEq, Repr

/-- What the user and the loop do. The results of system calls come with the events. -/
inductive TcpClientEvent
  | connect (inLoop : Bool) (errno : ℤ)
  | disconnect
  | stop
  | handleEvent (error write : Bool) (err : ℤ) (isSelfConnect : Bool)
  | functor (errno : ℤ)
  | timer (due : Timestamp) (errno : ℤ)
  | wait (microseconds : ℕ)
  /-- The connection is closed. -/
  | removeConnection (errno : ℤ)

namespace TcpClient

def new (now : Timestamp) : TcpClient := ⟨Connector.new now, false, true, none⟩

/-- `_newConnectionCallback` -/
def newConnection (s : TcpClient) : ConnectorObs → TcpClient
  | .handed sockfd => { s with connection := some sockfd }
  | .created _ | .closed _ => s

/-- A step of the connector, and the connection that it makes. -/
def connectorStep (s : TcpClient) (event : ConnectorEvent) :
    Except ConnectorFault (TcpClient × List ConnectorObs) :=
  (s.connector.step event).map (fun r => (r.2.foldl newConnection { s with connector := r.1 }, r.2))

def connect (s : TcpClient) (inLoop : Bool) (errno : ℤ) :
    Except ConnectorFault (TcpClient × List ConnectorObs) :=
  { s with wanted := true }.connectorStep (.start inLoop errno)

/-- It also shuts the connection down. -/
def disconnect (s : TcpClient) : TcpClient := { s with wanted := false }

def stop (s : TcpClient) : Except ConnectorFault (TcpClient × List ConnectorObs) :=
  { s with wanted := false }.connectorStep .stop

def removeConnection (s : TcpClient) (errno : ℤ) : Except ConnectorFault (TcpClient × List ConnectorObs) :=
  if s.connection.isSome then
    let s := { s with connection := none }
    if s.retry && s.wanted then s.connectorStep (.restart errno) else .ok (s, [])
  else .ok (s, [])

def step (s : TcpClient) : TcpClientEvent → Except ConnectorFault (TcpClient × List ConnectorObs)
  | .connect inLoop errno => s.connect inLoop errno
  | .disconnect => .ok (s.disconnect, [])
  | .stop => s.stop
  | .handleEvent error write err isSelfConnect =>
    s.connectorStep (.handleEvent error write err isSelfConnect)
  | .functor errno => s.connectorStep (.functor errno)
  | .timer due errno => s.connectorStep (.timer due errno)
  | .wait microseconds => s.connectorStep (.wait microseconds)
  | .removeConnection errno => s.removeConnection errno

def run : TcpClient → List TcpClientEvent → Except ConnectorFault (TcpClient × List ConnectorObs) :=
  Runs.run step

end TcpClient

namespace Connector

/-- The channel has been removed and waits for `resetChannel`. -/
def removed (s : Connector) : Bool := s.channel.any (fun c => c.channel = Channel.new)

/-- At most one attempt is queued, under way or waiting for its timer, a channel is registered only
during the attempt, and a removed channel goes before the next attempt starts. -/
structure Orderly (s : Connector) : Prop where
  watching : s.Watching
  attempts : s.pendingFunctors.count .startInLoop+s.timers.length+(if s.state = .kDisconnected then 0 else 1) ≤ 1
  registered : s.registered = true → s.state = .kConnecting
  resets : s.pendingFunctors.count .resetChannel = if s.removed then 1 else 0
  resetFirst : s.removed = true →
    ∃ before after, s.pendingFunctors = before ++ .resetChannel :: after ∧ .startInLoop ∉ before

/-- What `start` and the retry timers have to wait for. -/
def Timely (s : Connector) : ConnectorEvent → Prop
  | .start inLoop _ => s.state = .kDisconnected ∧ .startInLoop ∉ s.pendingFunctors ∧ s.timers = [] ∧
    (inLoop = true → s.channel = none)
  | .timer due _ => due ∈ s.timers → s.wanted = true → s.channel = none
  | .restart _ => False
  | .stop | .handleEvent _ _ _ _ | .functor _ | .wait _ => True

variable {s : Connector} {fd : ℕ} {errno : ℤ}

theorem orderly_new (now : Timestamp) : (new now).Orderly :=
  ⟨watching_new now, Nat.zero_le _, fun h => (by cases h), rfl, fun h => (by cases h)⟩

theorem Watching.cases (h : s.Watching) : s.channel = none ∨
    (∃ fd, s.channel = some ⟨fd, Channel.new.enableWriting⟩) ∨ ∃ fd, s.channel = some ⟨fd, Channel.new⟩ := by
  cases hchannel : s.channel with
  | none => exact Or.inl rfl
  | some c =>
    have hc : s.channel = some ⟨c.fd, c.channel⟩ := hchannel
    rcases h.channel c hchannel with heq | heq
    · rw [heq] at hc
      exact Or.inr (Or.inl ⟨c.fd, hchannel.symm.trans hc⟩)
    · rw [heq] at hc
      exact Or.inr (Or.inr ⟨c.fd, hchannel.symm.trans hc⟩)

/-- An attempt under way has its channel, and nothing else is to come. -/
theorem Orderly.connecting (h : s.Orderly) (hs : s.state = .kConnecting) :
    (∃ fd, s.channel = some ⟨fd, Channel.new.enableWriting⟩) ∧ .startInLoop ∉ s.pendingFunctors ∧
    s.timers = [] ∧ .resetChannel ∉ s.pendingFunctors := by
  obtain ⟨fd,hchannel⟩ := h.watching.connecting hs
  have hattempts := h.attempts
  have hresets := h.resets
  have hremoved : s.removed = false := by
    rw [removed, hchannel]
    rfl
  rw [hs, if_neg (fun h => by cases h)] at hattempts
  rw [hremoved, if_neg Bool.false_ne_true] at hresets
  refine ⟨⟨fd, hchannel⟩, ?_, ?_, ?_⟩
  · apply List.count_eq_zero.mp
    omega
  · apply List.eq_nil_of_length_eq_zero
    omega
  · exact List.count_eq_zero.mp hresets

/-- An attempt has failed, and its channel, if there was one, has been removed. -/
theorem orderly_retry (hchannel : ∀ c, s.channel = some c → c.channel = Channel.new)
    (hqueue : .startInLoop ∉ s.pendingFunctors) (htimers : s.timers = [])
    (hresets : s.pendingFunctors.count .resetChannel = if s.removed then 1 else 0)
    (hfirst : s.removed = true →
      ∃ before after, s.pendingFunctors = before ++ .resetChannel :: after ∧ .startInLoop ∉ before) :
    (s.retry fd).1.Orderly := by
  have hremoved : (s.retry fd).1.removed = s.removed := by rw [removed, removed, retry_channel]
  refine ⟨⟨?_, ?_⟩, ?_, ?_, ?_, ?_⟩
  · rw [retry_state]
    intro h
    cases h
  · rw [retry_channel]
    exact fun c hc => Or.inr (hchannel c hc)
  · rw [retry_state, if_pos rfl, retry_pendingFunctors, List.count_eq_zero.mpr hqueue, retry_timers, htimers]
    split <;> simp
  · intro hr
    rw [Connector.registered, retry_channel, Option.any_eq_true_iff_get] at hr
    obtain ⟨hsome,hlabel⟩ := hr
    rw [hchannel _ (Option.some_get hsome).symm] at hlabel
    cases hlabel
  · rw [retry_pendingFunctors, hremoved]
    exact hresets
  · rw [retry_pendingFunctors, hremoved]
    exact hfirst

/-- `startInLoop` where it has been waited for. -/
theorem Orderly.startInLoop (h : s.Orderly) (hs : s.state = .kDisconnected)
    (hqueue : .startInLoop ∉ s.pendingFunctors) (htimers : s.timers = [])
    (hchannel : s.wanted = true → s.channel = none) (errno : ℤ) :
    ∃ s' out, s.startInLoop errno = .ok (s', out) ∧ s'.Orderly := by
  have hcount : s.pendingFunctors.count .startInLoop = 0 := List.count_eq_zero.mpr hqueue
  unfold Connector.startInLoop
  rw [if_pos hs]
  cases hwanted : s.wanted with
  | false => exact ⟨s, [], rfl, h⟩
  | true =>
    have hnone := hchannel hwanted
    have hresets : s.pendingFunctors.count .resetChannel = 0 := by
      rw [h.resets, removed, hnone]
      rfl
    rw [if_pos rfl]
    unfold Connector.connect
    dsimp only
    split
    · -- the new channel is registered
      unfold Connector.connecting
      rw [if_pos hnone]
      refine ⟨_, _, rfl, ⟨fun _ => ⟨_, rfl⟩, ?_⟩, ?_, fun _ => rfl, ?_, fun hr => (by cases hr)⟩
      · intro c hc
        cases hc
        exact Or.inl rfl
      · show s.pendingFunctors.count .startInLoop+s.timers.length+1 ≤ 1
        rw [hcount, htimers]
        rfl
      · exact hresets
    · split
      · refine ⟨_, _, rfl, ?_⟩
        apply orderly_retry
        · intro c hc
          cases hnone.symm.trans hc
        · exact hqueue
        · exact htimers
        · exact h.resets
        · exact h.resetFirst
      · exact ⟨_, _, rfl, ⟨h.watching.connecting, h.watching.channel⟩, h.attempts, h.registered, h.resets,
          h.resetFirst⟩

/-- The end of an attempt, in whatever state the function leaves the connector meanwhile. -/
theorem Orderly.remove (h : s.Orderly) (hs : s.state = .kConnecting) (state : ConnectorState) : ∃ fd,
    { s with state := state }.removeAndResetChannel = .ok ({ s with
      state := state, channel := some ⟨fd, Channel.new⟩
      pendingFunctors := s.pendingFunctors ++ [.resetChannel] }, fd) ∧
    (∀ t : Connector, t.channel = some ⟨fd, Channel.new⟩ →
      t.pendingFunctors = s.pendingFunctors ++ [.resetChannel] →
      t.pendingFunctors.count .resetChannel = (if t.removed then 1 else 0) ∧
      (t.removed = true →
        ∃ before after, t.pendingFunctors = before ++ .resetChannel :: after ∧ .startInLoop ∉ before)) := by
  obtain ⟨⟨fd,hchannel⟩,hqueue,_,hresets⟩ := h.connecting hs
  refine ⟨fd, @removeAndResetChannel_eq { s with state := state } fd hchannel, ?_⟩
  intro t ht hpending
  have hremoved : t.removed = true := by
    rw [removed, ht]
    rfl
  rw [hremoved, hpending, List.count_append, List.count_eq_zero.mpr hresets]
  exact ⟨rfl, fun _ => ⟨s.pendingFunctors, [], rfl, hqueue⟩⟩

theorem Orderly.failed (h : s.Orderly) (hs : s.state = .kConnecting) (state : ConnectorState) :
    ∃ s' out, { s with state := state }.removeAndResetChannel.map (fun r : Connector × ℕ => r.1.retry r.2) =
      .ok (s', out) ∧ s'.Orderly ∧ s'.state = .kDisconnected := by
  obtain ⟨_,hqueue,htimers,_⟩ := h.connecting hs
  obtain ⟨fd,hok,hrest⟩ := h.remove hs state
  rw [hok]
  refine ⟨_, _, rfl, ?_, retry_state _ _⟩
  obtain ⟨hresets,hfirst⟩ := hrest { s with
    state := state, channel := some ⟨fd, Channel.new⟩
    pendingFunctors := s.pendingFunctors ++ [.resetChannel] } rfl rfl
  apply orderly_retry
  · intro c hc
    cases hc
    rfl
  · simpa using hqueue
  · exact htimers
  · exact hresets
  · exact hfirst

theorem Orderly.handleWrite (h : s.Orderly) (hs : s.state ≠ .kConnected) (err : ℤ) (isSelfConnect : Bool) :
    ∃ s' out, s.handleWrite err isSelfConnect = .ok (s', out) ∧ s'.Orderly := by
  unfold Connector.handleWrite
  cases hstate : s.state with
  | kConnected => exact absurd hstate hs
  | kDisconnected => exact ⟨s, [], rfl, h⟩
  | kConnecting =>
    obtain ⟨t,out,hok,ht,_⟩ := h.failed hstate .kConnecting
    obtain ⟨fd,hremove,hrest⟩ := h.remove hstate .kConnecting
    obtain ⟨_,hqueue,htimers,_⟩ := h.connecting hstate
    have hsame : { s with state := .kConnecting } = s := by rw [← hstate]
    rw [hsame] at hok hremove
    rw [if_pos rfl]
    by_cases herr : err ≠ 0 ∨ isSelfConnect = true
    · -- the attempt has failed after all
      have hretry : (fun r : Connector × ℕ => if err ≠ 0 then r.1.retry r.2 else
          if isSelfConnect = true then r.1.retry r.2 else r.1.connected r.2) = fun r => r.1.retry r.2 := by
        funext r
        rcases herr with herr | herr
        · rw [if_pos herr]
        · rw [if_pos herr, ite_self]
      rw [hretry]
      exact ⟨t, out, hok, ht⟩
    · have herr0 : ¬err ≠ 0 := fun h => herr (Or.inl h)
      have hself : ¬isSelfConnect = true := fun h => herr (Or.inr h)
      rw [hremove]
      dsimp only [Except.map]
      rw [if_neg herr0, if_neg hself]
      let t : Connector := { s with
        state := .kConnecting, channel := some ⟨fd, Channel.new⟩
        pendingFunctors := s.pendingFunctors ++ [.resetChannel] }
      obtain ⟨hresets,hfirst⟩ := hrest (t.connected fd).1 rfl rfl
      refine ⟨_, _, rfl, watching_removed rfl (fun h => by cases h), ?_, fun hr => (by cases hr), hresets, hfirst⟩
      show (s.pendingFunctors ++ [ConnectorFunctor.resetChannel]).count .startInLoop+s.timers.length+1 ≤ 1
      rw [List.count_append, List.count_eq_zero.mpr hqueue, htimers]
      rfl

theorem Orderly.handleError (h : s.Orderly) (hs : s.state = .kConnecting) :
    ∃ s' out, s.handleError = .ok (s', out) ∧ s'.Orderly ∧ s'.state = .kDisconnected := by
  have hok := h.failed hs .kConnecting
  have hsame : { s with state := .kConnecting } = s := by rw [← hs]
  rw [hsame] at hok
  unfold Connector.handleError
  rw [if_pos hs]
  exact hok

theorem Orderly.stopInLoop (h : s.Orderly) : ∃ s' out, s.stopInLoop = .ok (s', out) ∧ s'.Orderly := by
  unfold Connector.stopInLoop
  by_cases hs : s.state = .kConnecting
  · rw [if_pos hs]
    obtain ⟨s',out,hok,hs',_⟩ := h.failed hs .kDisconnected
    exact ⟨s', out, hok, hs'⟩
  · rw [if_neg hs]
    exact ⟨s, [], rfl, h⟩

theorem Orderly.handleEvent (h : s.Orderly) (error write : Bool) (err : ℤ) (isSelfConnect : Bool) :
    ∃ s' out, s.handleEvent error write err isSelfConnect = .ok (s', out) ∧ s'.Orderly := by
  unfold Connector.handleEvent
  cases hr : s.registered with
  | false => exact ⟨s, [], rfl, h⟩
  | true =>
    have hs := h.registered hr
    rw [if_pos rfl]
    -- the state is no longer `kConnecting` when the write comes after an error
    have hfirst : ∃ s1 out, (if error = true then s.handleError else .ok (s, [])) = .ok (s1, out) ∧
        s1.Orderly ∧ s1.state ≠ .kConnected := by
      cases error with
      | true =>
        obtain ⟨s1,out,hok,h1,hdown⟩ := h.handleError hs
        exact ⟨s1, out, hok, h1, by rw [hdown]; intro h; cases h⟩
      | false => exact ⟨s, [], rfl, h, by rw [hs]; intro h; cases h⟩
    obtain ⟨s1,out,hok,h1,hne⟩ := hfirst
    rw [hok]
    dsimp only [Except.bind]
    cases write with
    | true =>
      obtain ⟨s2,out2,hok2,h2⟩ := h1.handleWrite hne err isSelfConnect
      rw [if_pos rfl, hok2]
      exact ⟨s2, _, rfl, h2⟩
    | false => exact ⟨s1, _, rfl, h1⟩

/-- The next functor leaves the queue. A removed channel keeps its `resetChannel` unless that is the one. -/
theorem Orderly.pop (h : s.Orderly) {f : ConnectorFunctor} {rest : List ConnectorFunctor}
    (hqueue : s.pendingFunctors = f :: rest) (hf : f ≠ .resetChannel) :
    { s with pendingFunctors := rest }.Orderly := by
  have hattempts := h.attempts
  have hresets := h.resets
  rw [hqueue] at hattempts hresets
  rw [List.count_cons_of_ne hf] at hresets
  refine ⟨⟨h.watching.connecting, h.watching.channel⟩, ?_, h.registered, hresets, ?_⟩
  · have hle : rest.count .startInLoop ≤ (f :: rest).count .startInLoop := List.count_le_count_cons
    show rest.count .startInLoop+s.timers.length+(if s.state = .kDisconnected then 0 else 1) ≤ 1
    omega
  · intro hr
    obtain ⟨before,after,hsplit,hnot⟩ := h.resetFirst hr
    rw [hqueue] at hsplit
    cases before with
    | nil => exact absurd (List.cons.inj hsplit).1 hf
    | cons g before =>
      exact ⟨before, after, (List.cons.inj hsplit).2, fun hmem => hnot (List.mem_cons_of_mem g hmem)⟩

theorem Orderly.functor (h : s.Orderly) (errno : ℤ) :
    ∃ s' out, s.doPendingFunctor errno = .ok (s', out) ∧ s'.Orderly := by
  unfold doPendingFunctor
  cases hqueue : s.pendingFunctors with
  | nil => exact ⟨s, [], rfl, h⟩
  | cons f rest =>
    cases f with
    | startInLoop =>
      have hattempts := h.attempts
      rw [hqueue, List.count_cons_self] at hattempts
      -- no channel is left, since a removed one would come first
      have hs : s.state = .kDisconnected := by
        by_contra hne
        rw [if_neg hne] at hattempts
        omega
      have hnone : s.channel = none := by
        rcases h.watching.cases with hnone | ⟨fd,hchannel⟩ | ⟨fd,hchannel⟩
        · exact hnone
        · have hconnecting := h.registered (by rw [Connector.registered, hchannel]; rfl)
          rw [hs] at hconnecting
          cases hconnecting
        · obtain ⟨before,after,hsplit,hnot⟩ := h.resetFirst (by rw [removed, hchannel]; rfl)
          rw [hqueue] at hsplit
          cases before with
          | nil => cases (List.cons.inj hsplit).1
          | cons g before =>
            rw [← (List.cons.inj hsplit).1] at hnot
            exact absurd List.mem_cons_self hnot
      apply Orderly.startInLoop (h.pop hqueue (fun h => by cases h)) hs
      · apply List.count_eq_zero.mp
        show rest.count .startInLoop = 0
        omega
      · apply List.eq_nil_of_length_eq_zero
        show s.timers.length = 0
        omega
      · exact fun _ => hnone
    | stopInLoop => exact (h.pop hqueue (fun h => by cases h)).stopInLoop
    | resetChannel =>
      have hresets := h.resets
      rw [hqueue, List.count_cons_self] at hresets
      have hremoved : s.removed = true := by
        by_contra hne
        rw [if_neg hne] at hresets
        omega
      rw [if_pos hremoved] at hresets
      have hattempts := h.attempts
      rw [hqueue, List.count_cons_of_ne (fun h => by cases h)] at hattempts
      have hnone : s.channel ≠ none := by
        intro hnone
        rw [removed, hnone] at hremoved
        cases hremoved
      obtain ⟨fd,hchannel⟩ : ∃ fd, s.channel = some ⟨fd, Channel.new⟩ := by
        rcases h.watching.cases with hnone' | ⟨fd,hchannel⟩ | hnew
        · exact absurd hnone' hnone
        · rw [removed, hchannel] at hremoved
          cases hremoved
        · exact hnew
      have hnot : s.state ≠ .kConnecting := by
        intro hs
        obtain ⟨fd',hfd'⟩ := h.watching.connecting hs
        rw [hchannel] at hfd'
        cases hfd'
      have hok : { s with pendingFunctors := rest }.call errno .resetChannel =
          .ok ({ s with pendingFunctors := rest, channel := none }, []) := by
        unfold call Connector.resetChannel
        dsimp only
        rw [hchannel]
        rfl
      refine ⟨_, _, hok, ⟨fun hs => absurd hs hnot, fun _ h => (by cases h)⟩, hattempts, fun hr => (by cases hr),
        ?_, fun hr => (by cases hr)⟩
      show rest.count .resetChannel = 0
      omega

theorem Orderly.queue (h : s.Orderly) {f : ConnectorFunctor} (hreset : f ≠ .resetChannel)
    (hstart : f = .startInLoop →
      s.state = .kDisconnected ∧ .startInLoop ∉ s.pendingFunctors ∧ s.timers = []) (wanted : Bool) :
    ({ s with wanted := wanted }.queueInLoop f).Orderly := by
  refine ⟨⟨h.watching.connecting, h.watching.channel⟩, ?_, h.registered, ?_, ?_⟩
  · show (s.pendingFunctors ++ [f]).count .startInLoop+s.timers.length+
      (if s.state = .kDisconnected then 0 else 1) ≤ 1
    by_cases hf : f = .startInLoop
    · obtain ⟨hs,hqueue,htimers⟩ := hstart hf
      rw [hf, List.count_append, List.count_eq_zero.mpr hqueue, htimers, hs]
      rfl
    · rw [List.count_append, List.count_eq_zero.mpr (fun hmem => hf (List.mem_singleton.mp hmem).symm)]
      exact h.attempts
  · show (s.pendingFunctors ++ [f]).count .resetChannel = _
    rw [List.count_append, List.count_eq_zero.mpr (fun hmem => hreset (List.mem_singleton.mp hmem).symm)]
    exact h.resets
  · intro hr
    obtain ⟨before,after,hsplit,hnot⟩ := h.resetFirst hr
    refine ⟨before, after ++ [f], ?_, hnot⟩
    show s.pendingFunctors ++ [f] = _
    rw [hsplit, List.append_assoc, List.cons_append]

theorem Orderly.setWanted (h : s.Orderly) (wanted : Bool) : { s with wanted := wanted }.Orderly :=
  ⟨⟨h.watching.connecting, h.watching.channel⟩, h.attempts, h.registered, h.resets, h.resetFirst⟩

theorem Orderly.step (h : s.Orderly) {event : ConnectorEvent} (hevent : s.Timely event) :
    ∃ s' out, s.step event = .ok (s', out) ∧ s'.Orderly := by
  cases event with
  | start inLoop errno =>
    obtain ⟨hs,hqueue,htimers,hchannel⟩ := hevent
    cases inLoop with
    | true => exact (h.setWanted true).startInLoop hs hqueue htimers (fun _ => hchannel rfl) errno
    | false => exact ⟨_, [], rfl, h.queue (fun h => by cases h) (fun _ => ⟨hs, hqueue, htimers⟩) true⟩
  | stop => exact ⟨_, [], rfl, h.queue (fun h => by cases h) (fun h => by cases h) false⟩
  | restart errno => exact hevent.elim
  | handleEvent error write err isSelfConnect => exact h.handleEvent error write err isSelfConnect
  | functor errno => exact h.functor errno
  | timer due errno =>
    change ∃ s' out, s.runTimer due errno = .ok (s', out) ∧ s'.Orderly
    unfold runTimer
    by_cases hdue : due ∈ s.timers
    · rw [if_pos hdue]
      have hattempts := h.attempts
      have hpos := List.length_pos_of_mem hdue
      have hlen := List.length_erase_of_mem hdue
      have hs : s.state = .kDisconnected := by
        by_contra hne
        rw [if_neg hne] at hattempts
        omega
      have hidle : { s with timers := s.timers.erase due }.Orderly := by
        refine ⟨⟨h.watching.connecting, h.watching.channel⟩, ?_, h.registered, h.resets, h.resetFirst⟩
        show s.pendingFunctors.count .startInLoop+(s.timers.erase due).length+_ ≤ 1
        dsimp only
        omega
      apply hidle.startInLoop hs
      · apply List.count_eq_zero.mp
        show s.pendingFunctors.count .startInLoop = 0
        omega
      · apply List.eq_nil_of_length_eq_zero
        show (s.timers.erase due).length = 0
        omega
      · exact hevent hdue
    · rw [if_neg hdue]
      exact ⟨s, [], rfl, h⟩
  | wait microseconds =>
    exact ⟨_, [], rfl, ⟨h.watching.connecting, h.watching.channel⟩, h.attempts, h.registered, h.resets,
      h.resetFirst⟩

end Connector

namespace TcpClient

/-- When the user may call `connect`, and when a retry timer may fire. -/
def Timely (s : TcpClient) : TcpClientEvent → Prop
  | .connect inLoop errno => s.connector.Timely (.start inLoop errno)
  | .timer due errno => s.connector.Timely (.timer due errno)
  | .disconnect | .stop | .handleEvent _ _ _ _ | .functor _ | .wait _ | .removeConnection _ => True

variable {s : TcpClient} {obs : List ConnectorObs}

theorem foldl_newConnection (s : TcpClient) (obs : List ConnectorObs) :
    (obs.foldl newConnection s).connector = s.connector ∧ (obs.foldl newConnection s).retry = s.retry := by
  induction obs generalizing s with
  | nil => exact ⟨rfl, rfl⟩
  | cons o obs ih =>
    rw [List.foldl_cons, (ih _).1, (ih _).2]
    cases o <;> exact ⟨rfl, rfl⟩

/-- What holds in the runs whose calls are timely. -/
structure Orderly (s : TcpClient) (obs : List ConnectorObs) : Prop where
  orderly : s.connector.Orderly
  owned : s.connector.Owned none obs
  /-- No closed connection is connected again. -/
  retry : s.retry = false

theorem Orderly.connectorStep (h : s.Orderly obs) {event : ConnectorEvent}
    (hevent : s.connector.Timely event) :
    ∃ s' out, s.connectorStep event = .ok (s', out) ∧ s'.Orderly (obs ++ out) := by
  obtain ⟨c,out,hok,hc⟩ := h.orderly.step hevent
  obtain ⟨_,howned⟩ := Connector.Owned.step h.orderly.watching h.owned hok
  unfold TcpClient.connectorStep
  rw [hok]
  obtain ⟨hconnector,hretry⟩ := foldl_newConnection { s with connector := c } out
  refine ⟨_, out, rfl, ?_, ?_, ?_⟩
  · rw [hconnector]
    exact hc
  · rw [hconnector]
    exact howned
  · rw [hretry]
    exact h.retry

theorem Orderly.step (h : s.Orderly obs) {event : TcpClientEvent} (hevent : s.Timely event) :
    ∃ s' out, s.step event = .ok (s', out) ∧ s'.Orderly (obs ++ out) := by
  have hset (wanted : Bool) : { s with wanted := wanted }.Orderly obs := ⟨h.orderly, h.owned, h.retry⟩
  cases event with
  | connect inLoop errno => exact (hset true).connectorStep hevent
  | disconnect => exact ⟨_, [], rfl, by rw [List.append_nil]; exact hset false⟩
  | stop =>
    have hstop : s.connector.Timely .stop := trivial
    exact (hset false).connectorStep hstop
  | handleEvent error write err isSelfConnect =>
    exact h.connectorStep trivial
  | functor errno => exact h.connectorStep trivial
  | timer due errno => exact h.connectorStep hevent
  | wait microseconds => exact h.connectorStep trivial
  | removeConnection errno =>
    change ∃ s' out, s.removeConnection errno = .ok (s', out) ∧ s'.Orderly (obs ++ out)
    unfold TcpClient.removeConnection
    dsimp only
    rw [h.retry, Bool.false_and, if_neg Bool.false_ne_true]
    split
    · exact ⟨_, [], rfl, by rw [List.append_nil]; exact ⟨h.orderly, h.owned, rfl⟩⟩
    · exact ⟨_, [], rfl, by rw [List.append_nil]; exact h⟩

end TcpClient

/-- In the runs in which `connect` is called only when no attempt is queued, under way, waiting for its
timer or successful, and on the loop's thread only when no channel is left, and in which a retry timer
finds the channel of the last attempt gone, no assertion fails, at most one retry timer is pending, and at
most one descriptor is neither handed over nor closed, that of the registered channel. -/
theorem connector_asserts (now : Timestamp) (events : List TcpClientEvent)
    (h : Runs.Along TcpClient.step TcpClient.Timely (TcpClient.new now) events) :
    ∃ s obs, (TcpClient.new now).run events = .ok (s, obs) ∧ s.connector.timers.length ≤ 1 ∧
    (∀ fd, .created fd ∈ obs → disposals obs fd = 0 → s.connector.watched = some fd) ∧
    (s.connector.registered = true → s.connector.state = .kConnecting ∧ s.connector.timers = []) := by
  have hstep (s : TcpClient) (event : TcpClientEvent) (rest : List TcpClientEvent)
      (acc : List ConnectorObs) (hs : s.Orderly acc) (hevent : s.Timely event) :
      ∃ s' out, s.step event = .ok (s', out) ∧ s'.Orderly (acc ++ out) := hs.step hevent
  obtain ⟨s,obs,hrun,hs⟩ := @Runs.run_along _ _ _ _ _ TcpClient.Timely (fun s _ obs => s.Orderly obs) hstep
    (TcpClient.new now) events [] ⟨Connector.orderly_new now, Connector.owned_new now, rfl⟩ h
  rw [List.nil_append] at hs
  have hattempts := hs.orderly.attempts
  refine ⟨s, obs, hrun, by omega, ?_, ?_⟩
  · intro fd hfd hzero
    have hcount := hs.owned.created fd
    have hsettled := hs.owned.settled fd
    rw [hzero] at hsettled
    by_contra hne
    by_cases hlt : fd < s.connector.sockets
    · rw [if_pos ⟨hlt, hne, by simp⟩] at hsettled
      omega
    · rw [if_neg hlt] at hcount
      exact List.count_eq_zero.mp hcount hfd
  · intro hr
    have hconnecting := hs.orderly.registered hr
    exact ⟨hconnecting, (hs.orderly.connecting hconnecting).2.2.1⟩

/-- A refused attempt, one that is stopped on its way, and a call of `connect` that has waited for both. -/
theorem connector_asserts_again : ∃ s obs, (TcpClient.new 0).run [.connect true ECONNREFUSED,
      .timer 500000 EINPROGRESS, .stop, .functor 0, .functor 0, .connect false 0, .functor EINPROGRESS,
      .handleEvent false true 0 false] = .ok (s, obs) ∧ s.connector.timers.length ≤ 1 := by
  have halong : Runs.Along TcpClient.step TcpClient.Timely (TcpClient.new 0) [.connect true ECONNREFUSED,
      .timer 500000 EINPROGRESS, .stop, .functor 0, .functor 0, .connect false 0, .functor EINPROGRESS,
      .handleEvent false true 0 false] := by
    refine Runs.along_cons ⟨rfl, by decide, rfl, fun _ => rfl⟩ rfl ?_
    refine Runs.along_cons (fun _ _ => rfl) rfl ?_
    refine Runs.along_cons trivial rfl ?_
    refine Runs.along_cons trivial rfl ?_
    refine Runs.along_cons trivial rfl ?_
    refine Runs.along_cons ⟨rfl, by decide, rfl, fun h => by cases h⟩ rfl ?_
    refine Runs.along_cons trivial rfl ?_
    exact Runs.along_cons trivial rfl trivial
  obtain ⟨s,obs,hrun,htimers,_⟩ := connector_asserts 0 _ halong
  exact ⟨s, obs, hrun, htimers⟩

/-- Two calls of `connect`, a call after a connection has been closed, a call between `stop` and its
functor, and a call while the timer of a stopped attempt is still pending. -/
theorem connector_asserts_fails :
    (TcpClient.new 0).run [.connect true EINPROGRESS, .connect true 0] = .error .startInLoop ∧
    (TcpClient.new 0).run [.connect true 0, .handleEvent false true 0 false, .functor 0, .removeConnection 0,
      .connect true 0] = .error .startInLoop ∧
    (TcpClient.new 0).run [.connect true EINPROGRESS, .stop, .connect false 0, .functor 0,
      .functor EINPROGRESS] = .error .connecting ∧
    ∃ s obs, (TcpClient.new 0).run [.connect true ECONNREFUSED, .stop, .functor 0,
      .connect true ECONNREFUSED] = .ok (s, obs) ∧ s.connector.timers.length = 2 :=
  ⟨rfl, rfl, rfl, _, _, rfl, rfl⟩

end IdealServer
