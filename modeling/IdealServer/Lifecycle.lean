import IdealServer.OutgoingStream
import Mathlib.Data.List.Count
import Mathlib.Logic.Function.Basic

/-! An event loop and its connections: what is left of the current iteration is a stack of
instructions, and user code runs while it is on top. -/
namespace IdealServer

/-- The place of a connection in the order in which they are made. -/
abbrev TcpConnId := ℕ

/-- What `_pendingFunctors` can hold. User code is any callback that is called by way of the queue. -/
inductive Functor
  | userCode
  | connectEstablished (c : TcpConnId)
  | connectDestroyed (c : TcpConnId)
deriving DecidableEq, Repr

inductive Instr
  /-- The three callbacks of a `Channel`. Its error callback only logs. -/
  | handleClose (c : TcpConnId)
  | handleRead (c : TcpConnId)
  | handleWrite (c : TcpConnId)
  /-- The end of `handleClose`. -/
  | closeCallback (c : TcpConnId)
  /-- The handler of the acceptor. -/
  | newConnection
  | functor (f : Functor)
  | doPendingFunctors
deriving DecidableEq, Repr

/-- `_revents` -/
structure Revents where
  pollIn : Bool
  pollPri : Bool
  pollOut : Bool
  pollHup : Bool
  pollRdhup : Bool
deriving DecidableEq, Repr

/-- An entry of `_activeChannels`. -/
inductive ActiveChannel
  | connection (c : TcpConnId) (revents : Revents)
  | acceptor
  /-- A timer whose callback is user code. The timer of `forceCloseWithDelay` is one of them. -/
  | timer
deriving DecidableEq, Repr

/-- `Channel::handleEventWithGuard` -/
def ActiveChannel.handleEvent : ActiveChannel → List Instr
  | .connection c revents =>
    (if revents.pollHup && !revents.pollIn then [Instr.handleClose c] else []) ++
    ((if revents.pollIn || revents.pollPri || revents.pollRdhup then [Instr.handleRead c] else []) ++
    if revents.pollOut then [Instr.handleWrite c] else [])
  | .acceptor => [.newConnection]
  | .timer => [.functor .userCode]

inductive Callback
  | up
  | message
  | down
deriving DecidableEq, Repr

/-- A callback and its connection. -/
abbrev Observation := TcpConnId × Callback

def callbacks (c : TcpConnId) (out : List Observation) : List Callback :=
  out.filterMap (fun o => if o.1 = c then some o.2 else none)

structure IoLoop where
  conns : TcpConnId → TcpConnection
  /-- `_nextConnId` -/
  nextConnId : TcpConnId
  /-- What is left of the iteration. -/
  todo : List Instr
  pendingFunctors : List Functor
  /-- Closed connections that the server has not removed yet. -/
  removals : List TcpConnId

/-- What user code can call. -/
inductive LoopCall
  | send (c : TcpConnId) (message : Bytes) (w : SysWrite)
  | shutdown (c : TcpConnId)
  | forceClose (c : TcpConnId)
  | forceCloseWithDelay (c : TcpConnId)

inductive LoopEvent
  | poll (active : List ActiveChannel)
  /-- The instruction on top is executed. User code returns. -/
  | proceed (r : SysRead) (w : SysWrite)
  | call (call : LoopCall)
  /-- User code is queued, here or on another thread. -/
  | queueInLoop
  /-- The server makes a connection on its own thread. -/
  | newConnection
  | removeConnectionInLoop (c : TcpConnId)

namespace IoLoop

def new (highWaterMark : TcpConnId → ℕ) (hasWriteComplete hasHighWaterMark : TcpConnId → Bool) : IoLoop where
  conns := fun c => TcpConnection.new (highWaterMark c) (hasWriteComplete c) (hasHighWaterMark c)
  nextConnId := 0
  todo := []
  pendingFunctors := []
  removals := []

/-- What an effect leaves to do at once. -/
def called (c : TcpConnId) : TcpEffect → List Instr
  | .connectionCallback => [.functor .userCode]
  | .messageCallback => [.functor .userCode]
  | .closeCallback => [.closeCallback c]
  | _ => []

/-- What an effect queues. -/
def queued : TcpEffect → List Functor
  | .writeCompleteCallback => [.userCode]
  | .highWaterMarkCallback _ => [.userCode]
  | _ => []

/-- The connection callback asks `connected()`. -/
def observed (conn : TcpConnection) : TcpEffect → Option Callback
  | .connectionCallback => some (if conn.state = .kConnected then .up else .down)
  | .messageCallback => some .message
  | _ => none

/-- What a function of the connection does to the loop. -/
def apply (s : IoLoop) (c : TcpConnId) (r : TcpConnection × List TcpEffect) :
    IoLoop × List Observation :=
  ({ s with
      conns := Function.update s.conns c r.1
      todo := r.2.flatMap (called c) ++ s.todo
      pendingFunctors := s.pendingFunctors ++ r.2.flatMap queued },
    (r.2.filterMap (observed r.1)).map (fun k => (c, k)))

/-- Each function of `UserCall` tests the state, and all run in the loop thread. -/
def call (s : IoLoop) : LoopCall → Except Fault (IoLoop × List Observation)
  | .send c message w =>
    if (s.conns c).state = .kConnected then ((s.conns c).sendInLoop message w).map (s.apply c)
    else .ok (s, [])
  | .shutdown c =>
    if (s.conns c).state = .kConnected then
      .ok (s.apply c ((s.conns c).shutdown, (s.conns c).shutdown.shutdownInLoop))
    else .ok (s, [])
  | .forceClose c =>
    if (s.conns c).isOpen then ((s.conns c).forceClose.forceCloseInLoop).map (s.apply c)
    else .ok (s, [])
  | .forceCloseWithDelay c =>
    if (s.conns c).isOpen then .ok (s.apply c ((s.conns c).forceClose, [])) else .ok (s, [])

def execute (s : IoLoop) (r : SysRead) (w : SysWrite) : Instr → Except Fault (IoLoop × List Observation)
  | .handleClose c => ((s.conns c).handleClose).map (s.apply c)
  | .handleRead c => ((s.conns c).handleRead r).map (s.apply c)
  | .handleWrite c => ((s.conns c).handleWrite w).map (s.apply c)
  | .closeCallback c => .ok ({ s with removals := s.removals ++ [c] }, [])
  | .newConnection =>
    ((s.conns s.nextConnId).connectEstablished).map
      ({ s with nextConnId := s.nextConnId+1 }.apply s.nextConnId)
  | .functor .userCode => .ok (s, [])
  | .functor (.connectEstablished c) => ((s.conns c).connectEstablished).map (s.apply c)
  | .functor (.connectDestroyed c) => ((s.conns c).connectDestroyed).map (s.apply c)
  | .doPendingFunctors =>
    .ok ({ s with
      todo := s.pendingFunctors.map Instr.functor ++ s.todo
      pendingFunctors := [] }, [])

/-- What `poll` can return: the channel is in the poller's set, and what `epoll_wait` reports without
being asked for is `POLLHUP` and `POLLERR`. -/
def allows (s : IoLoop) : ActiveChannel → Bool
  | .connection c revents =>
    (s.conns c).channel.label = .kAdded &&
    (!revents.pollIn || (s.conns c).channel.isReading) &&
    (!revents.pollPri || (s.conns c).channel.isReading) &&
    (!revents.pollOut || (s.conns c).channel.isWriting) &&
    !revents.pollRdhup
  | .acceptor => true
  | .timer => true

def step (s : IoLoop) : LoopEvent → Except Fault (IoLoop × List Observation)
  | .poll active =>
    if s.todo = [] ∧ active.all s.allows = true then
      .ok ({ s with todo := active.flatMap ActiveChannel.handleEvent ++ [.doPendingFunctors] }, [])
    else .ok (s, [])
  | .proceed r w =>
    match s.todo with
    | [] => .ok (s, [])
    | i :: todo => { s with todo := todo }.execute r w i
  | .call call =>
    if s.todo.head? = some (.functor .userCode) then s.call call else .ok (s, [])
  | .queueInLoop => .ok ({ s with pendingFunctors := s.pendingFunctors ++ [.userCode] }, [])
  | .newConnection =>
    .ok ({ s with
      nextConnId := s.nextConnId+1
      pendingFunctors := s.pendingFunctors ++ [.connectEstablished s.nextConnId] }, [])
  | .removeConnectionInLoop c =>
    if c ∈ s.removals then
      .ok ({ s with
        removals := s.removals.erase c
        pendingFunctors := s.pendingFunctors ++ [.connectDestroyed c] }, [])
    else .ok (s, [])

def run : IoLoop → List LoopEvent → Except Fault (IoLoop × List Observation) := Runs.run step

end IoLoop

/-- What the callbacks of a connection are in each of its states. -/
def Lifecycle : TcpState → List Callback → Prop
  | .kConnecting, ks => ks = []
  | .kConnected, ks => ∃ n, ks = .up :: List.replicate n .message
  | .kDisconnecting, ks => ∃ n, ks = .up :: List.replicate n .message
  | .kDisconnected, ks => ∃ n, ks = .up :: (List.replicate n .message ++ [.down])

/-- The handlers that need an open connection. -/
def Instr.handles (c : TcpConnId) : Instr → Bool
  | .handleClose d => d = c
  | .handleRead d => d = c
  | _ => false

namespace IoLoop

/-- The connection that the event closes by `handleClose`. -/
def closes (s : IoLoop) : LoopEvent → Option TcpConnId
  | .proceed r _ =>
    match s.todo.head? with
    | some (.handleClose c) => some c
    | some (.handleRead c) => if r = .eof then some c else none
    | _ => none
  | .call (.forceClose c) =>
    if s.todo.head? = some (.functor .userCode) ∧ (s.conns c).isOpen = true then some c else none
  | _ => none

/-- No connection is closed while its own handlers are due in the same iteration. -/
def Clean (s : IoLoop) (ev : LoopEvent) : Prop :=
  ∀ c, s.closes ev = some c → s.todo.tail.any (Instr.handles c) = false

end IoLoop

/-- What the loop is still going to do with a connection. -/
def Functor.establishes (c : TcpConnId) : Functor → Bool
  | .connectEstablished d => d = c
  | _ => false

def Functor.destroys (c : TcpConnId) : Functor → Bool
  | .connectDestroyed d => d = c
  | _ => false

def Instr.establishes (c : TcpConnId) : Instr → Bool
  | .functor f => f.establishes c
  | _ => false

def Instr.destroys (c : TcpConnId) : Instr → Bool
  | .functor f => f.destroys c
  | .closeCallback d => d = c
  | _ => false

namespace IoLoop

def handled (s : IoLoop) (c : TcpConnId) : Bool := s.todo.any (Instr.handles c)

def starting (s : IoLoop) (c : TcpConnId) : ℕ :=
  s.todo.countP (Instr.establishes c) + s.pendingFunctors.countP (Functor.establishes c)

def ending (s : IoLoop) (c : TcpConnId) : ℕ :=
  s.todo.countP (Instr.destroys c) + s.pendingFunctors.countP (Functor.destroys c) + s.removals.count c

/-- The channel of a connection in each of its states. -/
def ChannelOk (conn : TcpConnection) : Prop :=
  match conn.state with
  | .kConnecting => conn.channel = Channel.new
  | .kDisconnected => conn.channel.isNoneEvent = true ∧ conn.channel.label ≠ .kAdded
  | _ => conn.channel.reading = true ∧ conn.channel.label = .kAdded

/-- One connection in the loop: it is established once and destroyed once after it is closed. -/
structure Standing (made : Prop) (conn : TcpConnection) (starting ending : ℕ) (handled : Bool)
    (ks : List Callback) : Prop where
  isMade : conn.state ≠ .kConnecting → made
  starting : (made ∧ conn.state = .kConnecting → starting = 1) ∧
    (¬ (made ∧ conn.state = .kConnecting) → starting = 0)
  ending : (conn.state = .kDisconnected ∧ conn.channel.label = .kDeleted → ending = 1) ∧
    (¬ (conn.state = .kDisconnected ∧ conn.channel.label = .kDeleted) → ending = 0)
  channel : ChannelOk conn
  handled : handled = true → conn.isOpen = true
  callbacks : Lifecycle conn.state ks

def Invariant (s : IoLoop) (out : List Observation) : Prop :=
  ∀ c, Standing (c < s.nextConnId) (s.conns c) (s.starting c) (s.ending c) (s.handled c)
    (callbacks c out)

theorem callbacks_append (c : TcpConnId) (a b : List Observation) :
    callbacks c (a ++ b) = callbacks c a ++ callbacks c b := List.filterMap_append

theorem callbacks_map_self (c : TcpConnId) (ks : List Callback) :
    callbacks c (ks.map (fun k => (c, k))) = ks := by
  unfold callbacks
  rw [List.filterMap_map]
  have hself : (fun o : Observation => if o.1 = c then some o.2 else none) ∘ (fun k => (c, k)) =
      some := by
    funext k
    exact if_pos rfl
  rw [hself, List.filterMap_some]

theorem callbacks_map_ne {c d : TcpConnId} (hne : d ≠ c) (ks : List Callback) :
    callbacks d (ks.map (fun k => (c, k))) = [] := by
  unfold callbacks
  rw [List.filterMap_map, List.filterMap_eq_nil_iff]
  intro k _
  exact if_neg hne.symm

section Counts
variable (s : IoLoop) (c d : TcpConnId) (r : TcpConnection × List TcpEffect)

theorem apply_starting : (s.apply c r).1.starting d = s.starting d := by
  have htodo : (r.2.flatMap (called c)).countP (Instr.establishes d) = 0 := by
    rw [List.countP_eq_zero]
    intro i hi
    obtain ⟨e,_,hi⟩ := List.mem_flatMap.mp hi
    cases e <;> simp [called] at hi <;> simp [hi, Instr.establishes, Functor.establishes]
  have hpending : (r.2.flatMap queued).countP (Functor.establishes d) = 0 := by
    rw [List.countP_eq_zero]
    intro f hf
    obtain ⟨e,_,hf⟩ := List.mem_flatMap.mp hf
    cases e <;> simp [queued] at hf <;> simp [hf, Functor.establishes]
  unfold starting apply
  rw [List.countP_append, List.countP_append, htodo, hpending, Nat.zero_add, Nat.add_zero]

theorem apply_handled : (s.apply c r).1.handled d = s.handled d := by
  have htodo : (r.2.flatMap (called c)).any (Instr.handles d) = false := by
    rw [List.any_eq_false]
    intro i hi
    obtain ⟨e,_,hi⟩ := List.mem_flatMap.mp hi
    cases e <;> simp [called] at hi <;> simp [hi, Instr.handles]
  unfold handled apply
  rw [List.any_append, htodo, Bool.false_or]

theorem apply_ending : (s.apply c r).1.ending d =
    s.ending d + if d = c then r.2.count .closeCallback else 0 := by
  have htodo : (r.2.flatMap (called c)).countP (Instr.destroys d) =
      if d = c then r.2.count .closeCallback else 0 := by
    induction r.2 with
    | nil => simp
    | cons e effects ih =>
      rw [List.flatMap_cons, List.countP_append, ih]
      by_cases hd : d = c
      · rw [if_pos hd, if_pos hd, hd, List.count_cons]
        cases e <;> simp [called, Instr.destroys, Functor.destroys, Nat.add_comm]
      · rw [if_neg hd, if_neg hd]
        cases e <;> simp [called, Instr.destroys, Functor.destroys, Ne.symm hd]
  have hpending : (r.2.flatMap queued).countP (Functor.destroys d) = 0 := by
    rw [List.countP_eq_zero]
    intro f hf
    obtain ⟨e,_,hf⟩ := List.mem_flatMap.mp hf
    cases e <;> simp [queued] at hf <;> simp [hf, Functor.destroys]
  unfold ending apply
  rw [List.countP_append, List.countP_append, htodo, hpending]
  dsimp only
  omega

end Counts

section Standing
variable {made : Prop} {conn conn' : TcpConnection} {st en : ℕ} {hd : Bool} {ks : List Callback}

theorem isOpen_cases (hopen : conn.isOpen = true) :
    conn.state = .kConnected ∨ conn.state = .kDisconnecting := by
  rw [TcpConnection.isOpen, Bool.or_eq_true, decide_eq_true_iff, decide_eq_true_iff] at hopen
  exact hopen

theorem Standing.mono (h : Standing made conn st en hd ks) {hd' : Bool} (hle : hd' = true → hd = true) :
    Standing made conn st en hd' ks :=
  ⟨h.isMade, h.starting, h.ending, h.channel, fun h' => h.handled (hle h'), h.callbacks⟩

theorem Standing.open_facts (h : Standing made conn st en hd ks) (hopen : conn.isOpen = true) :
    made ∧ st = 0 ∧ en = 0 ∧ conn.channel.reading = true ∧ conn.channel.label = .kAdded ∧
      ∃ n, ks = .up :: List.replicate n .message := by
  have hch := h.channel
  have hks := h.callbacks
  unfold ChannelOk at hch
  rcases isOpen_cases hopen with hstate | hstate
  · rw [hstate] at hch hks
    refine ⟨h.isMade (by simp [hstate]), h.starting.2 ?_, h.ending.2 ?_, hch.1, hch.2, hks⟩
    · simp [hstate]
    · simp [hstate]
  · rw [hstate] at hch hks
    refine ⟨h.isMade (by simp [hstate]), h.starting.2 ?_, h.ending.2 ?_, hch.1, hch.2, hks⟩
    · simp [hstate]
    · simp [hstate]

/-- An open connection from its parts. -/
theorem standing_open (hmade : made) (hopen : conn.isOpen = true)
    (hreading : conn.channel.reading = true) (hlabel : conn.channel.label = .kAdded)
    (hks : ∃ n, ks = .up :: List.replicate n .message) : Standing made conn 0 0 hd ks := by
  rcases isOpen_cases hopen with hstate | hstate
  · refine ⟨fun _ => hmade, ⟨fun h => ?_, fun _ => rfl⟩, ⟨fun h => ?_, fun _ => rfl⟩, ?_,
      fun _ => hopen, ?_⟩
    · cases hstate.symm.trans h.2
    · cases hstate.symm.trans h.1
    · unfold ChannelOk
      rw [hstate]
      exact ⟨hreading, hlabel⟩
    · rw [hstate]
      exact hks
  · refine ⟨fun _ => hmade, ⟨fun h => ?_, fun _ => rfl⟩, ⟨fun h => ?_, fun _ => rfl⟩, ?_,
      fun _ => hopen, ?_⟩
    · cases hstate.symm.trans h.2
    · cases hstate.symm.trans h.1
    · unfold ChannelOk
      rw [hstate]
      exact ⟨hreading, hlabel⟩
    · rw [hstate]
      exact hks

theorem Standing.keepOpen (h : Standing made conn st en hd ks) (hopen : conn.isOpen = true)
    (hopen' : conn'.isOpen = true) (hreading : conn'.channel.reading = true)
    (hlabel : conn'.channel.label = .kAdded) : Standing made conn' st en hd ks := by
  obtain ⟨hmade,rfl,rfl,_,_,hks⟩ := h.open_facts hopen
  exact standing_open hmade hopen' hreading hlabel hks

theorem Standing.message (h : Standing made conn st en hd ks) (hopen : conn.isOpen = true) :
    Standing made conn st en hd (ks ++ [.message]) := by
  obtain ⟨hmade,rfl,rfl,hreading,hlabel,n,rfl⟩ := h.open_facts hopen
  refine standing_open hmade hopen hreading hlabel ⟨n+1, ?_⟩
  rw [List.cons_append, List.replicate_succ']

/-- An open connection is closed, and its channel leaves the poller's set. -/
theorem Standing.close (h : Standing made conn st en hd ks) (hopen : conn.isOpen = true) :
    Standing made { conn with state := .kDisconnected, channel := conn.channel.disableAll } st (en+1)
      false (ks ++ [.down]) := by
  obtain ⟨hmade,rfl,rfl,_,hlabel,n,rfl⟩ := h.open_facts hopen
  have hdeleted : conn.channel.disableAll.label = .kDeleted := by
    unfold Channel.disableAll Channel.update
    dsimp only
    rw [hlabel]
    rfl
  refine ⟨fun _ => hmade, ⟨fun h => (by cases h.2), fun _ => rfl⟩, ⟨fun _ => rfl, ?_⟩, ?_,
    fun h => (by cases h), ⟨n, rfl⟩⟩
  · exact fun hnot => absurd ⟨rfl, hdeleted⟩ hnot
  · refine ⟨rfl, ?_⟩
    dsimp only
    rw [hdeleted]
    exact fun h => by cases h

theorem Standing.establish (h : Standing made conn (st+1) en hd ks) : conn.state = .kConnecting ∧
    Standing made { conn with state := .kConnected, channel := conn.channel.enableReading } st en hd
      (ks ++ [.up]) := by
  have hwait : made ∧ conn.state = .kConnecting := by
    by_contra hnot
    cases h.starting.2 hnot
  obtain ⟨hmade,hstate⟩ := hwait
  have hst : st = 0 := by
    have hone := h.starting.1 ⟨hmade, hstate⟩
    omega
  have hen : en = 0 := h.ending.2 (fun hclosed => by cases hstate.symm.trans hclosed.1)
  have hch := h.channel
  have hks := h.callbacks
  unfold ChannelOk at hch
  rw [hstate] at hch hks
  replace hch : conn.channel = Channel.new := hch
  replace hks : ks = [] := hks
  subst hst hen hks
  refine ⟨hstate, standing_open hmade rfl rfl ?_ ⟨0, rfl⟩⟩
  show conn.channel.enableReading.label = .kAdded
  rw [hch]
  rfl

/-- A connection is made. -/
theorem Standing.make (h : Standing made conn st en hd ks) (hnew : ¬ made) {made' : Prop}
    (hmade : made') : Standing made' conn (st+1) en hd ks := by
  have hstate : conn.state = .kConnecting := by
    by_contra hne
    exact hnew (h.isMade hne)
  have hst : st = 0 := h.starting.2 (fun hmade => hnew hmade.1)
  refine ⟨fun _ => hmade, ⟨fun _ => by rw [hst], fun hnot => absurd ⟨hmade, hstate⟩ hnot⟩, h.ending,
    h.channel, h.handled, h.callbacks⟩

theorem Standing.congr_made (h : Standing made conn st en hd ks) {made' : Prop} (hiff : made ↔ made') :
    Standing made' conn st en hd ks := by
  rw [← propext hiff]
  exact h

/-- A connection that is closed is destroyed without a failing assertion. -/
theorem Standing.destroy (h : Standing made conn st (en+1) hd ks) : ∃ channel,
    conn.connectDestroyed = .ok ({ conn with channel := channel }, []) ∧
      Standing made { conn with channel := channel } st en hd ks := by
  have hclosed : conn.state = .kDisconnected ∧ conn.channel.label = .kDeleted := by
    by_contra hnot
    cases h.ending.2 hnot
  obtain ⟨hstate,hlabel⟩ := hclosed
  have hen : en = 0 := by
    have hone := h.ending.1 ⟨hstate, hlabel⟩
    omega
  have hch := h.channel
  unfold ChannelOk at hch
  rw [hstate] at hch
  replace hch : conn.channel.isNoneEvent = true ∧ conn.channel.label ≠ .kAdded := hch
  have hremove : conn.channel.remove =
      .ok { conn.channel with addedToLoop := false, label := .kNew } := by
    unfold Channel.remove
    rw [hch.1, hlabel]
    rfl
  refine ⟨{ conn.channel with addedToLoop := false, label := .kNew }, ?_, ?_⟩
  · unfold TcpConnection.connectDestroyed
    rw [if_neg (by rw [hstate]; exact fun h => by cases h)]
    dsimp only
    rw [hremove]
    rfl
  · refine ⟨h.isMade, h.starting, ⟨fun h => (by cases h.2), fun _ => hen⟩, ?_, h.handled, h.callbacks⟩
    unfold ChannelOk
    dsimp only
    rw [hstate]
    exact ⟨hch.1, fun h => by cases h⟩

end Standing

/-- What `apply` does to the invariant: the other connections stand as they stood. -/
theorem Invariant.apply {s : IoLoop} {c : TcpConnId} {r : TcpConnection × List TcpEffect}
    {acc : List Observation}
    (hother : ∀ d, d ≠ c → Standing (d < s.nextConnId) (s.conns d) (s.starting d) (s.ending d)
      (s.handled d) (IdealServer.callbacks d acc))
    (hself : Standing (c < s.nextConnId) r.1 (s.starting c) (s.ending c + r.2.count .closeCallback)
      (s.handled c) (IdealServer.callbacks c acc ++ r.2.filterMap (observed r.1))) :
    Invariant (s.apply c r).1 (acc ++ (s.apply c r).2) := by
  intro d
  rw [apply_starting, apply_ending, apply_handled, callbacks_append]
  by_cases hd : d = c
  · subst hd
    rw [if_pos rfl]
    show Standing _ (Function.update s.conns d r.1 d) _ _ _ (_ ++ IdealServer.callbacks d (List.map _ _))
    rw [Function.update_self, callbacks_map_self]
    exact hself
  · rw [if_neg hd, Nat.add_zero]
    show Standing _ (Function.update s.conns c r.1 d) _ _ _ (_ ++ IdealServer.callbacks d (List.map _ _))
    rw [Function.update_of_ne hd, callbacks_map_ne hd, List.append_nil]
    exact hother d hd

/-- Taking an instruction from the top. -/
theorem pop_counts {s : IoLoop} {i : Instr} {todo : List Instr} (htodo : s.todo = i :: todo)
    (d : TcpConnId) :
    s.starting d = ({ s with todo := todo } : IoLoop).starting d + (i.establishes d).toNat ∧
      s.ending d = ({ s with todo := todo } : IoLoop).ending d + (i.destroys d).toNat ∧
      s.handled d = (i.handles d || ({ s with todo := todo } : IoLoop).handled d) := by
  have hone (b : Bool) : (if b = true then 1 else 0) = b.toNat := by cases b <;> rfl
  unfold starting ending handled
  rw [htodo, List.countP_cons, List.countP_cons, List.any_cons]
  dsimp only
  refine ⟨?_, ?_, rfl⟩
  · rw [hone]
    omega
  · rw [hone]
    omega

theorem Invariant.update {s : IoLoop} {acc : List Observation} (hI : s.Invariant acc) {c : TcpConnId}
    {r : TcpConnection × List TcpEffect}
    (hself : Standing (c < s.nextConnId) r.1 (s.starting c) (s.ending c + r.2.count .closeCallback)
      (s.handled c) (IdealServer.callbacks c acc ++ r.2.filterMap (observed r.1))) :
    Invariant (s.apply c r).1 (acc ++ (s.apply c r).2) := Invariant.apply (fun d _ => hI d) hself

/-- Effects that call nothing. -/
def Quiet (effects : List TcpEffect) : Prop :=
  effects.count .closeCallback = 0 ∧ ∀ conn, effects.filterMap (observed conn) = []

theorem quiet_of_forall {effects : List TcpEffect}
    (h : ∀ e ∈ effects, e ≠ .closeCallback ∧ ∀ conn, observed conn e = none) : Quiet effects := by
  constructor
  · exact List.count_eq_zero_of_not_mem (fun hmem => (h _ hmem).1 rfl)
  · intro conn
    exact List.filterMap_eq_nil_iff.mpr (fun e he => (h e he).2 conn)

theorem quiet_of_sends {effects : List TcpEffect} (h : ∀ e ∈ effects, TcpConnection.Sends e) :
    Quiet effects := by
  apply quiet_of_forall
  intro e he
  rcases h e he with ⟨_,rfl⟩ | rfl | ⟨_,rfl⟩
  · exact ⟨fun h => (by cases h), fun _ => rfl⟩
  · exact ⟨fun h => (by cases h), fun _ => rfl⟩
  · exact ⟨fun h => (by cases h), fun _ => rfl⟩

theorem shutdownInLoop_quiet (conn : TcpConnection) : Quiet conn.shutdownInLoop := by
  unfold TcpConnection.shutdownInLoop
  split
  · exact ⟨rfl, fun _ => rfl⟩
  · exact ⟨rfl, fun _ => rfl⟩

theorem Invariant.quiet {s : IoLoop} {acc : List Observation} (hI : s.Invariant acc) {c : TcpConnId}
    {conn : TcpConnection} {effects : List TcpEffect} (hquiet : Quiet effects)
    (hself : Standing (c < s.nextConnId) conn (s.starting c) (s.ending c) (s.handled c)
      (IdealServer.callbacks c acc)) :
    Invariant (s.apply c (conn, effects)).1 (acc ++ (s.apply c (conn, effects)).2) := by
  apply hI.update
  rw [hquiet.1, hquiet.2, Nat.add_zero, List.append_nil]
  exact hself

theorem sendInLoop_ok (conn : TcpConnection) (message : Bytes) (w : SysWrite) :
    ∃ r, conn.sendInLoop message w = .ok r := by
  unfold TcpConnection.sendInLoop
  split
  · exact ⟨_, rfl⟩
  · generalize (if conn.isIdle then conn.directWrite message w else (0, false, [])) = direct
    obtain ⟨nwrote,faultError,effects⟩ := direct
    dsimp only
    split
    · obtain ⟨conn',marks,hrest,_⟩ := conn.bufferRest_ok (message.drop nwrote)
      rw [hrest]
      exact ⟨_, rfl⟩
    · exact ⟨_, rfl⟩

theorem handleWrite_ok (conn : TcpConnection) (w : SysWrite) :
    ∃ conn' effects, conn.handleWrite w = .ok (conn', effects) ∧ Quiet effects := by
  have hquiet (c : TcpConnection) (bytes : Bytes) : Quiet (.written bytes ::
      (c.writeComplete ++ if c.state = .kDisconnecting then c.shutdownInLoop else [])) := by
    apply quiet_of_forall
    intro e he
    rcases List.mem_cons.mp he with rfl | he
    · exact ⟨fun h => (by cases h), fun _ => rfl⟩
    · rcases List.mem_append.mp he with he | he
      · unfold TcpConnection.writeComplete at he
        split at he
        · obtain rfl := List.mem_singleton.mp he
          exact ⟨fun h => (by cases h), fun _ => rfl⟩
        · cases he
      · unfold TcpConnection.shutdownInLoop at he
        split at he
        · split at he
          · cases he
          · obtain rfl := List.mem_singleton.mp he
            exact ⟨fun h => (by cases h), fun _ => rfl⟩
        · cases he
  cases hwriting : conn.channel.writing with
  | false => exact ⟨_, _, conn.handleWrite_idle hwriting w, rfl, fun _ => rfl⟩
  | true =>
    unfold TcpConnection.handleWrite
    rw [if_pos (show conn.channel.isWriting = true from hwriting)]
    cases w with
    | failed errno => exact ⟨_, _, rfl, rfl, fun _ => rfl⟩
    | wrote k =>
      dsimp only
      by_cases hn : 0 < min k conn.outputBuffer.readableBytes
      · obtain ⟨outputBuffer,hretrieve,_⟩ := conn.outputBuffer.retrieve_ok (Nat.min_le_right k _)
        rw [if_pos hn, hretrieve]
        simp only [bind, Except.bind, pure, Except.pure]
        split
        · exact ⟨_, _, rfl, hquiet _ _⟩
        · exact ⟨_, _, rfl, rfl, fun _ => rfl⟩
      · rw [if_neg hn]
        exact ⟨_, _, rfl, rfl, fun _ => rfl⟩

/-- The channel of a connection that waits to write stays in the poller's set. -/
theorem open_channel {ch : Channel} (hreading : ch.reading = true) (hlabel : ch.label = .kAdded) :
    (ch.enableWriting.reading = true ∧ ch.enableWriting.label = .kAdded) ∧
      ch.disableWriting.reading = true ∧ ch.disableWriting.label = .kAdded := by
  unfold Channel.enableWriting Channel.disableWriting Channel.update Channel.isNoneEvent
  dsimp only
  rw [hlabel, hreading]
  exact ⟨⟨rfl, rfl⟩, rfl, rfl⟩

theorem Invariant.send {s : IoLoop} {acc : List Observation} (hI : s.Invariant acc) {c : TcpConnId}
    (hopen : (s.conns c).isOpen = true) (message : Bytes) (w : SysWrite) : ∃ s' out,
    ((s.conns c).sendInLoop message w).map (s.apply c) = .ok (s', out) ∧ s'.Invariant (acc ++ out) := by
  obtain ⟨⟨conn,effects⟩,hsend⟩ := sendInLoop_ok (s.conns c) message w
  obtain ⟨hframe,hchannel,hsends⟩ := TcpConnection.sendInLoop_frame hsend
  have hstate : conn.state = (s.conns c).state := by rw [hframe]
  obtain ⟨_,_,_,hreading,hlabel,_⟩ := (hI c).open_facts hopen
  rw [hsend]
  refine ⟨_, _, rfl, hI.quiet (quiet_of_sends hsends) ?_⟩
  have hopen' : conn.isOpen = true := by
    unfold TcpConnection.isOpen
    rw [hstate]
    exact hopen
  rcases hchannel with hchannel | ⟨_,hchannel⟩
  · exact (hI c).keepOpen hopen hopen' (hchannel ▸ hreading) (hchannel ▸ hlabel)
  · obtain ⟨hwrite,_⟩ := open_channel hreading hlabel
    exact (hI c).keepOpen hopen hopen' (hchannel ▸ hwrite.1) (hchannel ▸ hwrite.2)

theorem Invariant.handleWrite {s : IoLoop} {acc : List Observation} (hI : s.Invariant acc)
    (c : TcpConnId) (w : SysWrite) : ∃ s' out,
    ((s.conns c).handleWrite w).map (s.apply c) = .ok (s', out) ∧ s'.Invariant (acc ++ out) := by
  obtain ⟨conn,effects,hwrite,hquiet⟩ := handleWrite_ok (s.conns c) w
  rw [hwrite]
  refine ⟨_, _, rfl, hI.quiet hquiet ?_⟩
  by_cases hopen : (s.conns c).isOpen = true
  · obtain ⟨hstate,_,hchannel⟩ := TcpConnection.handleWrite_frame hwrite
    have hopen' : conn.isOpen = true := by
      unfold TcpConnection.isOpen
      rw [hstate]
      exact hopen
    obtain ⟨_,_,_,hreading,hlabel,_⟩ := (hI c).open_facts hopen
    rcases hchannel with hchannel | ⟨_,hchannel⟩
    · exact (hI c).keepOpen hopen hopen' (hchannel ▸ hreading) (hchannel ▸ hlabel)
    · obtain ⟨_,hdone⟩ := open_channel hreading hlabel
      exact (hI c).keepOpen hopen hopen' (hchannel ▸ hdone.1) (hchannel ▸ hdone.2)
  · -- without write interest nothing is written
    have hidle : (s.conns c).channel.writing = false := by
      have hch := (hI c).channel
      unfold ChannelOk at hch
      cases hstate : (s.conns c).state with
      | kConnecting =>
        rw [hstate] at hch
        replace hch : (s.conns c).channel = Channel.new := hch
        rw [hch]
        rfl
      | kDisconnected =>
        rw [hstate] at hch
        obtain ⟨hnone,_⟩ : (s.conns c).channel.isNoneEvent = true ∧ _ := hch
        rw [Channel.isNoneEvent, Bool.and_eq_true, Bool.not_eq_true', Bool.not_eq_true'] at hnone
        exact hnone.2
      | kConnected => exact absurd (by rw [TcpConnection.isOpen, hstate]; rfl) hopen
      | kDisconnecting => exact absurd (by rw [TcpConnection.isOpen, hstate]; rfl) hopen
    rw [TcpConnection.handleWrite_idle hidle] at hwrite
    obtain ⟨rfl,_⟩ := Prod.mk.inj (Except.ok.inj hwrite)
    exact hI c

/-- `handleClose` on an open connection none of whose handlers are due. -/
theorem Invariant.handleClose {s : IoLoop} {acc : List Observation} (hI : s.Invariant acc)
    {c : TcpConnId} {conn : TcpConnection} (hopen : conn.isOpen = true)
    (hself : Standing (c < s.nextConnId) conn (s.starting c) (s.ending c) (s.handled c)
      (IdealServer.callbacks c acc))
    (hclean : s.handled c = false) : ∃ s' out,
    (conn.handleClose).map (s.apply c) = .ok (s', out) ∧ s'.Invariant (acc ++ out) := by
  unfold TcpConnection.handleClose
  rw [if_pos hopen]
  refine ⟨_, _, rfl, hI.update ?_⟩
  have hclosed := hself.close hopen
  rw [hclean]
  exact hclosed

theorem Invariant.call {s : IoLoop} {acc : List Observation} (hI : s.Invariant acc) {call : LoopCall}
    (htop : s.todo.head? = some (.functor .userCode)) (hclean : s.Clean (.call call)) :
    ∃ s' out, s.call call = .ok (s', out) ∧ s'.Invariant (acc ++ out) := by
  have hsame : s.Invariant (acc ++ []) := by rwa [List.append_nil]
  have hdisconnecting {c : TcpConnId} (hopen : (s.conns c).isOpen = true) :
      Standing (c < s.nextConnId) { s.conns c with state := .kDisconnecting } (s.starting c)
        (s.ending c) (s.handled c) (IdealServer.callbacks c acc) := by
    obtain ⟨_,_,_,hreading,hlabel,_⟩ := (hI c).open_facts hopen
    exact (hI c).keepOpen hopen rfl hreading hlabel
  cases call with
  | send c message w =>
    dsimp only [IoLoop.call]
    split
    case isTrue hstate =>
      apply hI.send
      rw [TcpConnection.isOpen, hstate]
      rfl
    case isFalse => exact ⟨s, [], rfl, hsame⟩
  | shutdown c =>
    dsimp only [IoLoop.call]
    split
    case isTrue hstate =>
      refine ⟨_, _, rfl, hI.quiet (shutdownInLoop_quiet _) ?_⟩
      rw [TcpConnection.shutdown, if_pos hstate]
      apply hdisconnecting
      rw [TcpConnection.isOpen, hstate]
      rfl
    case isFalse => exact ⟨s, [], rfl, hsame⟩
  | forceClose c =>
    dsimp only [IoLoop.call]
    split
    case isTrue hopen =>
      have hnone : s.handled c = false := by
        have htail := hclean c (if_pos ⟨htop, hopen⟩)
        obtain ⟨todo,htodo⟩ := List.head?_eq_some_iff.mp htop
        rw [htodo, List.tail_cons] at htail
        rw [handled, htodo, List.any_cons, htail]
        rfl
      have hclose : ({ s.conns c with state := .kDisconnecting } : TcpConnection).forceCloseInLoop =
          ({ s.conns c with state := .kDisconnecting } : TcpConnection).handleClose := if_pos rfl
      rw [TcpConnection.forceClose, if_pos hopen, hclose]
      exact hI.handleClose rfl (hdisconnecting hopen) hnone
    case isFalse => exact ⟨s, [], rfl, hsame⟩
  | forceCloseWithDelay c =>
    dsimp only [IoLoop.call]
    split
    case isTrue hopen =>
      refine ⟨_, _, rfl, hI.quiet ⟨rfl, fun _ => rfl⟩ ?_⟩
      rw [TcpConnection.forceClose, if_pos hopen]
      exact hdisconnecting hopen
    case isFalse => exact ⟨s, [], rfl, hsame⟩

section Proceed
variable {s : IoLoop} {acc : List Observation} {r : SysRead} {w : SysWrite} {i : Instr}
  {todo : List Instr} {c : TcpConnId}

/-- A connection that the instruction on top does not establish and does not destroy. -/
theorem Invariant.popped (hI : s.Invariant acc) (htodo : s.todo = i :: todo) (d : TcpConnId)
    (hstart : i.establishes d = false) (hend : i.destroys d = false) :
    Standing (d < s.nextConnId) (s.conns d) (({ s with todo := todo } : IoLoop).starting d)
      (({ s with todo := todo } : IoLoop).ending d) (({ s with todo := todo } : IoLoop).handled d)
      (IdealServer.callbacks d acc) := by
  obtain ⟨hs,he,hh⟩ := pop_counts htodo d
  rw [hstart, Bool.toNat_false, Nat.add_zero] at hs
  rw [hend, Bool.toNat_false, Nat.add_zero] at he
  rw [← hs, ← he]
  apply (hI d).mono
  intro h
  rw [hh, h, Bool.or_true]

theorem Invariant.pop (hI : s.Invariant acc) (htodo : s.todo = i :: todo)
    (hstart : ∀ d, i.establishes d = false) (hend : ∀ d, i.destroys d = false) :
    ({ s with todo := todo } : IoLoop).Invariant acc :=
  fun d => hI.popped htodo d (hstart d) (hend d)

/-- A connection whose handler is on top is open. -/
theorem Invariant.open_top (hI : s.Invariant acc) (htodo : s.todo = i :: todo)
    (h : i.handles c = true) : (s.conns c).isOpen = true := by
  apply (hI c).handled
  rw [(pop_counts htodo c).2.2, h, Bool.true_or]

theorem handled_of_clean (htodo : s.todo = i :: todo) (hclean : s.Clean (.proceed r w))
    (h : s.closes (.proceed r w) = some c) : ({ s with todo := todo } : IoLoop).handled c = false := by
  have htail := hclean c h
  rw [htodo] at htail
  exact htail

theorem Invariant.proceed_handleRead (hI : s.Invariant acc) (htodo : s.todo = .handleRead c :: todo)
    (hclean : s.Clean (.proceed r w)) : ∃ s' out,
    { s with todo := todo }.execute r w (.handleRead c) = .ok (s', out) ∧ s'.Invariant (acc ++ out) := by
  have hI1 := hI.pop htodo (fun _ => rfl) (fun _ => rfl)
  have hopen := hI.open_top htodo (show Instr.handles c (.handleRead c) = true from decide_eq_true rfl)
  cases r with
  | data =>
    refine ⟨_, _, rfl, hI1.update ?_⟩
    exact (hI1 c).message hopen
  | eof =>
    refine hI1.handleClose hopen (hI1 c) (handled_of_clean htodo hclean ?_)
    dsimp only [closes]
    rw [htodo, List.head?_cons]
    exact if_pos rfl
  | failed errno => exact ⟨_, _, rfl, hI1.quiet ⟨rfl, fun _ => rfl⟩ (hI1 c)⟩

/-- The call of the close callback becomes a removal. -/
theorem Invariant.proceed_closeCallback (hI : s.Invariant acc)
    (htodo : s.todo = .closeCallback c :: todo) :
    ({ s with todo := todo, removals := s.removals ++ [c] } : IoLoop).Invariant acc := by
  intro d
  obtain ⟨hs,he,hh⟩ := pop_counts htodo d
  have hd := hI d
  rw [hs, he] at hd
  have hmoved : ({ s with todo := todo, removals := s.removals ++ [c] } : IoLoop).ending d =
      ({ s with todo := todo } : IoLoop).ending d + (Instr.destroys d (.closeCallback c)).toNat := by
    unfold ending Instr.destroys
    dsimp only
    rw [List.count_append, List.count_singleton]
    by_cases hcd : c = d
    · simp [hcd]
      omega
    · simp [hcd]
  have hmono : (({ s with todo := todo, removals := s.removals ++ [c] } : IoLoop).handled d) = true →
      s.handled d = true := by
    intro h
    rw [hh]
    exact h
  rw [← hmoved] at hd
  exact hd.mono hmono

theorem Invariant.proceed_newConnection (hI : s.Invariant acc)
    (htodo : s.todo = .newConnection :: todo) : ∃ s' out,
    { s with todo := todo }.execute r w .newConnection = .ok (s', out) ∧ s'.Invariant (acc ++ out) := by
  have hI1 := hI.pop htodo (fun _ => rfl) (fun _ => rfl)
  obtain ⟨hstate,hup⟩ := ((hI1 s.nextConnId).make (lt_irrefl _) (Nat.lt_succ_self _)).establish
  dsimp only [execute]
  rw [TcpConnection.connectEstablished, if_pos hstate]
  refine ⟨_, _, rfl, Invariant.apply ?_ hup⟩
  intro d hd
  exact (hI1 d).congr_made (Nat.lt_succ_iff_lt_or_eq.trans (or_iff_left hd)).symm

theorem Invariant.proceed_connectEstablished (hI : s.Invariant acc)
    (htodo : s.todo = .functor (.connectEstablished c) :: todo) : ∃ s' out,
    { s with todo := todo }.execute r w (.functor (.connectEstablished c)) = .ok (s', out) ∧
      s'.Invariant (acc ++ out) := by
  obtain ⟨hs,he,hh⟩ := pop_counts htodo c
  have hc := hI c
  rw [hs, he, hh, show Instr.establishes c (.functor (.connectEstablished c)) = true from
    decide_eq_true rfl] at hc
  obtain ⟨hstate,hup⟩ := hc.establish
  dsimp only [execute]
  rw [TcpConnection.connectEstablished, if_pos hstate]
  refine ⟨_, _, rfl, Invariant.apply ?_ hup⟩
  intro d hd
  exact hI.popped htodo d (decide_eq_false hd.symm) rfl

theorem Invariant.proceed_connectDestroyed (hI : s.Invariant acc)
    (htodo : s.todo = .functor (.connectDestroyed c) :: todo) : ∃ s' out,
    { s with todo := todo }.execute r w (.functor (.connectDestroyed c)) = .ok (s', out) ∧
      s'.Invariant (acc ++ out) := by
  obtain ⟨hs,he,hh⟩ := pop_counts htodo c
  have hc := hI c
  rw [hs, he, hh, show Instr.destroys c (.functor (.connectDestroyed c)) = true from
    decide_eq_true rfl] at hc
  obtain ⟨channel,hdestroy,hgone⟩ := hc.destroy
  dsimp only [execute]
  rw [hdestroy]
  refine ⟨_, _, rfl, Invariant.apply ?_ ?_⟩
  · intro d hd
    exact hI.popped htodo d rfl (decide_eq_false hd.symm)
  · rw [List.filterMap_nil, List.append_nil]
    exact hgone

/-- The functors become instructions. -/
theorem Invariant.proceed_doPendingFunctors (hI : s.Invariant acc)
    (htodo : s.todo = .doPendingFunctors :: todo) : ({ s with
      todo := s.pendingFunctors.map Instr.functor ++ todo, pendingFunctors := [] } :
      IoLoop).Invariant acc := by
  intro d
  have hhandled : ({ s with
      todo := s.pendingFunctors.map Instr.functor ++ todo, pendingFunctors := [] } : IoLoop).handled d =
      ({ s with todo := todo } : IoLoop).handled d := by
    have hnothing : (s.pendingFunctors.map Instr.functor).any (Instr.handles d) = false := by
      rw [List.any_map, List.any_eq_false]
      intro f _
      exact Bool.false_ne_true
    unfold handled
    rw [List.any_append, hnothing, Bool.false_or]
  have hstart : ({ s with
      todo := s.pendingFunctors.map Instr.functor ++ todo, pendingFunctors := [] } : IoLoop).starting d =
      ({ s with todo := todo } : IoLoop).starting d := by
    unfold starting
    rw [List.countP_append, List.countP_map, List.countP_nil, Nat.add_zero, Nat.add_comm]
    rfl
  have hend : ({ s with
      todo := s.pendingFunctors.map Instr.functor ++ todo, pendingFunctors := [] } : IoLoop).ending d =
      ({ s with todo := todo } : IoLoop).ending d := by
    unfold ending
    rw [List.countP_append, List.countP_map, List.countP_nil, Nat.add_zero,
      Nat.add_comm (s.pendingFunctors.countP _)]
    rfl
  rw [hhandled, hstart, hend]
  exact hI.pop htodo (fun _ => rfl) (fun _ => rfl) d

/-- Executing the instruction on top. -/
theorem Invariant.proceed (hI : s.Invariant acc) (htodo : s.todo = i :: todo)
    (hclean : s.Clean (.proceed r w)) :
    ∃ s' out, { s with todo := todo }.execute r w i = .ok (s', out) ∧ s'.Invariant (acc ++ out) := by
  cases i with
  | handleClose c =>
    have hI1 := hI.pop htodo (fun _ => rfl) (fun _ => rfl)
    refine hI1.handleClose (hI.open_top htodo (decide_eq_true rfl)) (hI1 c)
      (handled_of_clean htodo hclean ?_)
    dsimp only [closes]
    rw [htodo, List.head?_cons]
  | handleRead c => exact hI.proceed_handleRead htodo hclean
  | handleWrite c => exact (hI.pop htodo (fun _ => rfl) (fun _ => rfl)).handleWrite c w
  | closeCallback c =>
    refine ⟨_, _, rfl, ?_⟩
    rw [List.append_nil]
    exact hI.proceed_closeCallback htodo
  | newConnection => exact hI.proceed_newConnection htodo
  | functor f =>
    cases f with
    | userCode =>
      refine ⟨_, _, rfl, ?_⟩
      rw [List.append_nil]
      exact hI.pop htodo (fun _ => rfl) (fun _ => rfl)
    | connectEstablished c => exact hI.proceed_connectEstablished htodo
    | connectDestroyed c => exact hI.proceed_connectDestroyed htodo
  | doPendingFunctors =>
    refine ⟨_, _, rfl, ?_⟩
    rw [List.append_nil]
    exact hI.proceed_doPendingFunctors htodo

end Proceed

/-- Only open connections are polled. -/
theorem Invariant.poll {s : IoLoop} {acc : List Observation} (hI : s.Invariant acc)
    (htodo : s.todo = []) {active : List ActiveChannel} (hactive : active.all s.allows = true) :
    ({ s with todo := active.flatMap ActiveChannel.handleEvent ++ [.doPendingFunctors] } :
      IoLoop).Invariant acc := by
  have hparts {a : ActiveChannel} {i : Instr} (hi : i ∈ a.handleEvent) (d : TcpConnId) :
      i.establishes d = false ∧ i.destroys d = false ∧
        (i.handles d = true → ∃ revents, a = .connection d revents) := by
    cases a with
    | connection c revents =>
      have hcases : i = .handleClose c ∨ i = .handleRead c ∨ i = .handleWrite c := by
        simp only [ActiveChannel.handleEvent, List.mem_append, List.mem_ite_nil_right,
          List.mem_singleton] at hi
        tauto
      rcases hcases with rfl | rfl | rfl
      · exact ⟨rfl, rfl, fun h => ⟨revents, by rw [of_decide_eq_true h]⟩⟩
      · exact ⟨rfl, rfl, fun h => ⟨revents, by rw [of_decide_eq_true h]⟩⟩
      · exact ⟨rfl, rfl, fun h => by cases h⟩
    | acceptor =>
      rw [List.mem_singleton.mp hi]
      exact ⟨rfl, rfl, fun h => by cases h⟩
    | timer =>
      rw [List.mem_singleton.mp hi]
      exact ⟨rfl, rfl, fun h => by cases h⟩
  intro d
  have hd := hI d
  have hstart : (active.flatMap ActiveChannel.handleEvent).countP (Instr.establishes d) = 0 := by
    rw [List.countP_eq_zero]
    intro i hi
    obtain ⟨a,_,hi⟩ := List.mem_flatMap.mp hi
    rw [(hparts hi d).1]
    exact Bool.false_ne_true
  have hend : (active.flatMap ActiveChannel.handleEvent).countP (Instr.destroys d) = 0 := by
    rw [List.countP_eq_zero]
    intro i hi
    obtain ⟨a,_,hi⟩ := List.mem_flatMap.mp hi
    rw [(hparts hi d).2.1]
    exact Bool.false_ne_true
  unfold starting ending at hd
  rw [htodo, List.countP_nil, List.countP_nil] at hd
  unfold starting ending
  dsimp only
  rw [List.countP_append, List.countP_append, hstart, hend]
  refine ⟨hd.isMade, hd.starting, hd.ending, hd.channel, ?_, hd.callbacks⟩
  intro hhandled
  obtain ⟨i,hi,hhandles⟩ := List.any_eq_true.mp hhandled
  rcases List.mem_append.mp hi with hi | hi
  · obtain ⟨a,ha,hi⟩ := List.mem_flatMap.mp hi
    obtain ⟨revents,rfl⟩ := (hparts hi d).2.2 hhandles
    have hallows := List.all_eq_true.mp hactive _ ha
    simp only [allows, Bool.and_eq_true, decide_eq_true_iff] at hallows
    have hlabel := hallows.1.1.1.1
    have hch := hd.channel
    unfold ChannelOk at hch
    cases hstate : (s.conns d).state with
    | kConnecting =>
      rw [hstate] at hch
      replace hch : (s.conns d).channel = Channel.new := hch
      rw [hch] at hlabel
      cases hlabel
    | kDisconnected =>
      rw [hstate] at hch
      exact absurd hlabel hch.2
    | kConnected =>
      rw [TcpConnection.isOpen, hstate]
      rfl
    | kDisconnecting =>
      rw [TcpConnection.isOpen, hstate]
      rfl
  · rw [List.mem_singleton.mp hi] at hhandles
    cases hhandles

/-- Each step of the loop that is clean goes through and keeps the invariant. -/
theorem step_invariant {s : IoLoop} {acc : List Observation} (hI : s.Invariant acc) {ev : LoopEvent}
    (hclean : s.Clean ev) : ∃ s' out, s.step ev = .ok (s', out) ∧ s'.Invariant (acc ++ out) := by
  have hsame : s.Invariant (acc ++ []) := by rwa [List.append_nil]
  cases ev with
  | poll active =>
    dsimp only [step]
    split
    case isTrue h =>
      refine ⟨_, _, rfl, ?_⟩
      rw [List.append_nil]
      exact hI.poll h.1 h.2
    case isFalse => exact ⟨s, [], rfl, hsame⟩
  | proceed r w =>
    dsimp only [step]
    split
    case h_1 => exact ⟨s, [], rfl, hsame⟩
    case h_2 i todo htodo => exact hI.proceed htodo hclean
  | call call =>
    dsimp only [step]
    split
    case isTrue htop => exact hI.call htop hclean
    case isFalse => exact ⟨s, [], rfl, hsame⟩
  | queueInLoop =>
    refine ⟨_, _, rfl, ?_⟩
    rw [List.append_nil]
    intro d
    have hd := hI d
    unfold starting ending at hd ⊢
    dsimp only
    rw [List.countP_append, List.countP_append]
    exact hd
  | newConnection =>
    refine ⟨_, _, rfl, ?_⟩
    rw [List.append_nil]
    intro d
    have hd := hI d
    unfold starting ending at hd ⊢
    dsimp only
    rw [List.countP_append, List.countP_append]
    by_cases hnew : d = s.nextConnId
    · subst hnew
      have hone : List.countP (Functor.establishes s.nextConnId) [.connectEstablished s.nextConnId] = 1 :=
        List.countP_singleton.trans (if_pos (decide_eq_true rfl))
      rw [hone]
      exact hd.make (lt_irrefl _) (Nat.lt_succ_self _)
    · have hzero : List.countP (Functor.establishes d) [.connectEstablished s.nextConnId] = 0 :=
        List.countP_singleton.trans (if_neg (by simpa [Functor.establishes] using Ne.symm hnew))
      rw [hzero]
      exact hd.congr_made (Nat.lt_succ_iff_lt_or_eq.trans (or_iff_left hnew)).symm
  | removeConnectionInLoop c =>
    dsimp only [step]
    split
    case isTrue hmem =>
      refine ⟨_, _, rfl, ?_⟩
      rw [List.append_nil]
      intro d
      have hd := hI d
      have hmoved : List.countP (Functor.destroys d) [.connectDestroyed c] + (s.removals.erase c).count d =
          s.removals.count d := by
        by_cases hcd : c = d
        · subst hcd
          have hpos := List.count_pos_iff.mpr hmem
          have hone : List.countP (Functor.destroys c) [.connectDestroyed c] = 1 :=
            List.countP_singleton.trans (if_pos (decide_eq_true rfl))
          rw [hone, List.count_erase_self]
          omega
        · have hzero : List.countP (Functor.destroys d) [.connectDestroyed c] = 0 :=
            List.countP_singleton.trans (if_neg (by simpa [Functor.destroys] using hcd))
          rw [hzero, List.count_erase_of_ne (Ne.symm hcd), Nat.zero_add]
      unfold starting ending at hd ⊢
      dsimp only
      rw [← hmoved, ← Nat.add_assoc, Nat.add_assoc (s.todo.countP _) (s.pendingFunctors.countP _)] at hd
      rw [List.countP_append, List.countP_append]
      exact hd
    case isFalse => exact ⟨s, [], rfl, hsame⟩

theorem invariant_new (m : TcpConnId → ℕ) (b h : TcpConnId → Bool) : (new m b h).Invariant [] := by
  intro c
  refine ⟨fun h => absurd rfl h, ⟨fun h => absurd h.1 (Nat.not_lt_zero c), fun _ => rfl⟩,
    ⟨fun h => (by cases h.1), fun _ => rfl⟩, rfl, fun h => (by cases h), rfl⟩

end IoLoop
open IoLoop

/-- In every run in which no connection is closed while its own handlers are due in the same iteration,
no assertion fails, and the callbacks of every connection are: nothing before it is established, then
UP once and messages, and after its close DOWN and nothing more. -/
theorem lifecycle_callbacks (m : TcpConnId → ℕ) (b h : TcpConnId → Bool) (evs : List LoopEvent)
    (hclean : Runs.Along IoLoop.step IoLoop.Clean (.new m b h) evs) : ∃ s out,
    IoLoop.run (.new m b h) evs = .ok (s, out) ∧
      ∀ c, Lifecycle (s.conns c).state (callbacks c out) := by
  have hstep (s : IoLoop) (ev : LoopEvent) (evs : List LoopEvent) (acc : List Observation)
      (hI : s.Invariant acc) (hev : s.Clean ev) :
      ∃ s' out, s.step ev = .ok (s', out) ∧ s'.Invariant (acc ++ out) := step_invariant hI hev
  obtain ⟨s,out,hrun,hI⟩ := Runs.run_along (fun s _ acc => s.Invariant acc) hstep (invariant_new m b h)
    hclean
  exact ⟨s, out, hrun, fun c => (hI c).callbacks⟩

/-- The message callback of one connection closes another one that has nothing to read. -/
theorem lifecycle_callbacks_two : ∃ s out,
    IoLoop.run (.new (fun _ => 100) (fun _ => false) (fun _ => false))
      [.newConnection, .newConnection, .poll [], .proceed .data (.wrote 0), .proceed .data (.wrote 0),
        .proceed .data (.wrote 0), .proceed .data (.wrote 0), .proceed .data (.wrote 0),
        .poll [.connection 0 ⟨true, false, false, false, false⟩], .proceed .data (.wrote 0),
        .call (.forceClose 1)] = .ok (s, out) ∧
    callbacks 0 out = [.up, .message] ∧ callbacks 1 out = [.up, .down] ∧
    ∀ c, Lifecycle (s.conns c).state (callbacks c out) := by
  have hnone {s : IoLoop} {ev : LoopEvent} (h : s.closes ev = none) : s.Clean ev :=
    fun c hc => by cases h.symm.trans hc
  have hone {s : IoLoop} {ev : LoopEvent} {c : TcpConnId} (h : s.closes ev = some c)
      (htail : s.todo.tail.any (Instr.handles c) = false) : s.Clean ev := by
    intro d hd
    obtain rfl := Option.some.inj (h.symm.trans hd)
    exact htail
  obtain ⟨s,out,hrun,hlife⟩ := lifecycle_callbacks (fun _ => 100) (fun _ => false) (fun _ => false)
    [.newConnection, .newConnection, .poll [], .proceed .data (.wrote 0), .proceed .data (.wrote 0),
      .proceed .data (.wrote 0), .proceed .data (.wrote 0), .proceed .data (.wrote 0),
      .poll [.connection 0 ⟨true, false, false, false, false⟩], .proceed .data (.wrote 0),
      .call (.forceClose 1)]
    (Runs.along_cons (hnone rfl) rfl (Runs.along_cons (hnone rfl) rfl
      (Runs.along_cons (hnone rfl) rfl (Runs.along_cons (hnone rfl) rfl
        (Runs.along_cons (hnone rfl) rfl (Runs.along_cons (hnone rfl) rfl
          (Runs.along_cons (hnone rfl) rfl (Runs.along_cons (hnone rfl) rfl
            (Runs.along_cons (hnone rfl) rfl (Runs.along_cons (hnone rfl) rfl
              (Runs.along_cons (hone rfl rfl) rfl trivial)))))))))))
  obtain ⟨rfl,rfl⟩ := Prod.mk.inj (Except.ok.inj hrun)
  exact ⟨_, _, rfl, rfl, rfl, hlife⟩

/-- The message callback of one connection closes another one that is later in the same list: its
message callback is called after DOWN, or its end of file fails the assertion of `handleClose`. A
connection with `POLLHUP` and `POLLPRI` does the latter alone. -/
theorem lifecycle_callbacks_fail :
    (∃ s out, IoLoop.run (.new (fun _ => 100) (fun _ => false) (fun _ => false))
      [.newConnection, .newConnection, .poll [], .proceed .data (.wrote 0), .proceed .data (.wrote 0),
        .proceed .data (.wrote 0), .proceed .data (.wrote 0), .proceed .data (.wrote 0),
        .poll [.connection 0 ⟨true, false, false, false, false⟩,
          .connection 1 ⟨true, false, false, false, false⟩],
        .proceed .data (.wrote 0), .call (.forceClose 1), .proceed .data (.wrote 0),
        .proceed .data (.wrote 0), .proceed .data (.wrote 0), .proceed .data (.wrote 0)] = .ok (s, out) ∧
      callbacks 1 out = [.up, .down, .message]) ∧
    IoLoop.run (.new (fun _ => 100) (fun _ => false) (fun _ => false))
      [.newConnection, .newConnection, .poll [], .proceed .data (.wrote 0), .proceed .data (.wrote 0),
        .proceed .data (.wrote 0), .proceed .data (.wrote 0), .proceed .data (.wrote 0),
        .poll [.connection 0 ⟨true, false, false, false, false⟩,
          .connection 1 ⟨true, false, false, false, false⟩],
        .proceed .data (.wrote 0), .call (.forceClose 1), .proceed .data (.wrote 0),
        .proceed .data (.wrote 0), .proceed .data (.wrote 0), .proceed .eof (.wrote 0)] =
      .error .assertFailed ∧
    IoLoop.run (.new (fun _ => 100) (fun _ => false) (fun _ => false))
      [.newConnection, .poll [], .proceed .data (.wrote 0), .proceed .data (.wrote 0),
        .proceed .data (.wrote 0), .poll [.connection 0 ⟨false, true, false, true, false⟩],
        .proceed .data (.wrote 0), .proceed .data (.wrote 0), .proceed .data (.wrote 0),
        .proceed .eof (.wrote 0)] = .error .assertFailed :=
  ⟨⟨_, _, rfl, rfl⟩, rfl, rfl⟩

end IdealServer
