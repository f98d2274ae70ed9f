import IdealServer.Lifecycle
import IdealServer.Mailboxes
import Mathlib.Data.Fintype.Basic

/-! The connections of a `TcpServer`: the server's own loop, the loops of its thread pool and the
functors that they post to each other, with `~TcpServer` at any point. `_nextConnId` does not
overflow, and `removeChannel` does not look at the active channels. -/
namespace IdealServer

/-- The server's own loop and those of its thread pool. -/
inductive LoopId (n : ℕ)
  | base
  | io (i : Fin n)
deriving DecidableEq

/-- What a thread still has to do: functors of its loop, and calls that it is in the middle of. -/
inductive ServerTask
  | connectEstablished (c : TcpConnId)
  | connectDestroyed (c : TcpConnId)
  | forceCloseInLoop (c : TcpConnId)
  | removeConnectionInLoop (c : TcpConnId)
  /-- The end of `handleClose`. -/
  | closeCallback (c : TcpConnId)
  /-- `~TcpServer`, which calls `connectDestroyed` in its own thread where it can. -/
  | destructor
deriving DecidableEq, Repr

/-- Where the thread is in `loop()`. The handlers are called in `waiting`. -/
inductive RoundPhase
  | waiting
  | running
  | exited
deriving DecidableEq, Repr

structure ServerLoop where
  phase : RoundPhase
  todo : List ServerTask
  pendingFunctors : List ServerTask
  quit : Bool
deriving DecidableEq, Repr

def ServerLoop.new : ServerLoop := ⟨.waiting, [], [], false⟩

def ServerLoop.queue (x : ServerLoop) : List ServerTask := x.todo ++ x.pendingFunctors

inductive ServerPhase
  | alive
  /-- The body of the destructor, with the connections that it has not come to. -/
  | destructing (rest : List TcpConnId)
  /-- `_connections` is gone, and the thread pool waits for its threads. -/
  | joining
  | destroyed
deriving DecidableEq, Repr

inductive ServerRecord
  | accepted (c : TcpConnId)
  | removed (c : TcpConnId)
  /-- `connectDestroyed` has been executed. -/
  | destroyed (c : TcpConnId)
deriving DecidableEq, Repr

structure ServerLoops (n : ℕ) where
  phase : ServerPhase
  /-- `_next` of the thread pool. -/
  next : ℕ
  nextConnId : TcpConnId
  /-- The keys of `_connections`. -/
  connections : List TcpConnId
  conns : TcpConnId → TcpConnection
  /-- `getLoop` of a connection. -/
  ioLoop : TcpConnId → LoopId n
  loops : LoopId n → ServerLoop

inductive ServerLoopsEvent (n : ℕ)
  /-- The acceptor's handler. -/
  | newConnection
  /-- User code. `forceCloseWithDelay` is `shutdown` and `forceClose` as far as the state goes. -/
  | shutdown (c : TcpConnId)
  | forceClose (c : TcpConnId) (inLoopThread : Bool)
  /-- The connection's handler finds it closed by the peer. -/
  | handleClose (c : TcpConnId)
  /-- `doPendingFunctors` takes the functors. -/
  | swap (l : LoopId n)
  | call (l : LoopId n)
  /-- The loop tests `_quit`. -/
  | test (l : LoopId n)
  /-- User code for the server's own loop, `~EventLoopThread` for the others. -/
  | quit (l : LoopId n)
  | destroy
  | destroyNext (c : TcpConnId)
  | destroyMembers
  | destroyEnd

/-- The `_connections` entry of a connection is erased. The destructor does not come to it. -/
def ServerPhase.erase (c : TcpConnId) : ServerPhase → ServerPhase
  | .destructing rest => .destructing (rest.erase c)
  | p => p

/-- `_connections` exists. -/
def ServerPhase.hasMap : ServerPhase → Bool
  | .alive => true
  | .destructing _ => true
  | .joining => false
  | .destroyed => false

namespace ServerLoops

variable {n : ℕ}

/-- The high-water mark is the constructor's default. No callback for it is set. -/
def new (n : ℕ) (hasWriteComplete : Bool) : ServerLoops n where
  phase := .alive
  next := 0
  nextConnId := 1
  connections := []
  conns := fun _ => TcpConnection.new (64*1024*1024) hasWriteComplete false
  ioLoop := fun _ => .base
  loops := fun _ => ServerLoop.new

/-- The loop in whose thread a task is done. -/
def home (s : ServerLoops n) : ServerTask → LoopId n
  | .connectEstablished c => s.ioLoop c
  | .connectDestroyed c => s.ioLoop c
  | .forceCloseInLoop c => s.ioLoop c
  | .removeConnectionInLoop _ => .base
  | .closeCallback c => s.ioLoop c
  | .destructor => .base

def queue (s : ServerLoops n) (l : LoopId n) : List ServerTask := (s.loops l).queue

def setLoop (s : ServerLoops n) (l : LoopId n) (x : ServerLoop) : ServerLoops n :=
  { s with loops := Function.update s.loops l x }

def setConn (s : ServerLoops n) (c : TcpConnId) (conn : TcpConnection) : ServerLoops n :=
  { s with conns := Function.update s.conns c conn }

def queueInLoop (s : ServerLoops n) (l : LoopId n) (f : ServerTask) : ServerLoops n :=
  s.setLoop l { s.loops l with pendingFunctors := (s.loops l).pendingFunctors ++ [f] }

/-- The thread is in the middle of a call. -/
def enter (s : ServerLoops n) (l : LoopId n) (f : ServerTask) : ServerLoops n :=
  s.setLoop l { s.loops l with todo := f :: (s.loops l).todo }

/-- `EventLoopThreadPool::getNextLoop`, with the new `_next`. -/
def getNextLoop (s : ServerLoops n) : LoopId n × ℕ :=
  if h : s.next < n then (.io ⟨s.next, h⟩, if s.next+1 = n then 0 else s.next+1) else (.base, s.next)

def connectEstablished (s : ServerLoops n) (c : TcpConnId) :
    Except Fault (ServerLoops n × List ServerRecord) :=
  ((s.conns c).connectEstablished).map (fun r => (s.setConn c r.1, []))

def connectDestroyed (s : ServerLoops n) (c : TcpConnId) :
    Except Fault (ServerLoops n × List ServerRecord) :=
  ((s.conns c).connectDestroyed).map (fun r => (s.setConn c r.1, [.destroyed c]))

/-- `handleClose` up to its close callback. -/
def handleClose (s : ServerLoops n) (c : TcpConnId) :
    Except Fault (ServerLoops n × List ServerRecord) :=
  ((s.conns c).handleClose).map
    (fun r => ((s.setConn c r.1).enter (s.ioLoop c) (.closeCallback c), []))

def eraseConnection (s : ServerLoops n) (c : TcpConnId) : ServerLoops n :=
  { s with phase := s.phase.erase c, connections := s.connections.erase c }

def removeConnectionInLoop (s : ServerLoops n) (c : TcpConnId) :
    Except Fault (ServerLoops n × List ServerRecord) :=
  if s.phase.hasMap then
    if c ∈ s.connections then
      .ok ((s.eraseConnection c).queueInLoop (s.ioLoop c) (.connectDestroyed c), [.removed c])
    else .error .assertFailed
  else .error .danglingPointer

/-- `removeConnection`, which reads `_loop`, in the thread of `l`. -/
def removeConnection (s : ServerLoops n) (l : LoopId n) (c : TcpConnId) :
    Except Fault (ServerLoops n × List ServerRecord) :=
  if s.phase = .destroyed then .error .danglingPointer
  else if l = .base then s.removeConnectionInLoop c
  else .ok (s.queueInLoop .base (.removeConnectionInLoop c), [])

def execute (s : ServerLoops n) (l : LoopId n) : ServerTask →
    Except Fault (ServerLoops n × List ServerRecord)
  | .connectEstablished c => s.connectEstablished c
  | .connectDestroyed c => s.connectDestroyed c
  | .forceCloseInLoop c => if (s.conns c).isOpen then s.handleClose c else .ok (s, [])
  | .removeConnectionInLoop c => s.removeConnectionInLoop c
  | .closeCallback c => s.removeConnection l c
  | .destructor => .ok (s, [])

/-- `newConnection` up to its `runInLoop`. -/
def addConnection (s : ServerLoops n) : ServerLoops n :=
  { s with
    next := s.getNextLoop.2
    nextConnId := s.nextConnId+1
    connections := s.connections ++ [s.nextConnId]
    ioLoop := Function.update s.ioLoop s.nextConnId s.getNextLoop.1 }

/-- `runInLoop` of the connection's loop, called in the server's own thread. -/
def runInLoop (s : ServerLoops n) (c : TcpConnId) (f : ServerTask) :
    Except Fault (ServerLoops n × List ServerRecord) :=
  if s.ioLoop c = .base then s.execute .base f else .ok (s.queueInLoop (s.ioLoop c) f, [])

def newConnection (s : ServerLoops n) : Except Fault (ServerLoops n × List ServerRecord) :=
  (s.addConnection.runInLoop s.nextConnId (.connectEstablished s.nextConnId)).map
    (fun r => (r.1, .accepted s.nextConnId :: r.2))

/-- The thread calls a handler. -/
def handles (s : ServerLoops n) (l : LoopId n) : Bool :=
  (s.loops l).phase = .waiting && (s.loops l).todo = []

/-- The thread can be in user code. After `loop()` the server's own thread goes on. -/
def inUserCode (s : ServerLoops n) (l : LoopId n) : Bool :=
  if l = .base then s.phase ≠ .joining else (s.loops l).phase ≠ .exited

def inDestructor (s : ServerLoops n) : Bool := (s.loops .base).todo.head? = some .destructor

def step (s : ServerLoops n) :
    ServerLoopsEvent n → Except Fault (ServerLoops n × List ServerRecord)
  | .newConnection =>
    if s.phase = .alive ∧ s.handles .base = true then s.newConnection else .ok (s, [])
  | .shutdown c => .ok (s.setConn c (s.conns c).shutdown, [])
  | .forceClose c inLoopThread =>
    if (s.conns c).isOpen then
      let s' := s.setConn c (s.conns c).forceClose
      if inLoopThread then
        if s.inUserCode (s.ioLoop c) then s'.execute (s.ioLoop c) (.forceCloseInLoop c)
        else .ok (s, [])
      else .ok (s'.queueInLoop (s.ioLoop c) (.forceCloseInLoop c), [])
    else .ok (s, [])
  | .handleClose c =>
    -- the poller reports the channels of its set
    if (s.conns c).channel.label = .kAdded ∧ s.handles (s.ioLoop c) = true then s.handleClose c
    else .ok (s, [])
  | .swap l =>
    if s.handles l then
      .ok (s.setLoop l { s.loops l with
        phase := .running, todo := (s.loops l).pendingFunctors, pendingFunctors := [] }, [])
    else .ok (s, [])
  | .call l =>
    match (s.loops l).todo with
    | [] => .ok (s, [])
    | .destructor :: _ => .ok (s, [])
    | f :: todo => (s.setLoop l { s.loops l with todo := todo }).execute l f
  | .test l =>
    if (s.loops l).phase = .running ∧ (s.loops l).todo = [] then
      .ok (s.setLoop l { s.loops l with
        phase := if (s.loops l).quit then .exited else .waiting }, [])
    else .ok (s, [])
  | .quit l =>
    if l = .base ∨ s.phase = .joining then .ok (s.setLoop l { s.loops l with quit := true }, [])
    else .ok (s, [])
  | .destroy =>
    if s.phase = .alive then
      .ok ({ s with phase := .destructing s.connections }.enter .base .destructor, [])
    else .ok (s, [])
  | .destroyNext c =>
    match s.phase with
    | .destructing rest =>
      if c ∈ rest ∧ s.inDestructor = true then
        { s with phase := .destructing (rest.erase c) }.runInLoop c (.connectDestroyed c)
      else .ok (s, [])
    | _ => .ok (s, [])
  | .destroyMembers =>
    if s.phase = .destructing [] ∧ s.inDestructor = true then
      .ok ({ s with phase := .joining, connections := [] }, [])
    else .ok (s, [])
  | .destroyEnd =>
    if s.phase = .joining ∧ s.inDestructor = true ∧ ∀ i, (s.loops (.io i)).phase = .exited then
      .ok ({ s with phase := .destroyed }.setLoop .base
        { s.loops .base with todo := (s.loops .base).todo.tail }, [])
    else .ok (s, [])

def run : ServerLoops n → List (ServerLoopsEvent n) →
    Except Fault (ServerLoops n × List ServerRecord) := Runs.run step

/-- No connection is destroyed half closed, no removal is left to run once the destructor has begun,
and no loop leaves `loop()` before a `connectDestroyed` of its queue. -/
def Orderly (s : ServerLoops n) : ServerLoopsEvent n → Prop
  | .call l =>
    match (s.loops l).todo with
    | .closeCallback _ :: _ =>
      if l = .base then s.phase = .alive ∧ (s.loops .base).phase ≠ .exited
      else s.phase = .alive ∨ (s.loops .base).phase = .exited
    | .connectDestroyed c :: _ => (s.conns c).state ≠ .kDisconnecting
    | _ => True
  | .test l => (s.loops l).quit = true → ∀ c, .connectDestroyed c ∉ s.queue l
  | .destroy => (s.loops .base).phase = .exited ∨ ∀ c, .removeConnectionInLoop c ∉ s.queue .base
  | .destroyNext c => s.ioLoop c = .base → (s.conns c).state ≠ .kDisconnecting
  | _ => True

end ServerLoops

/-- The connection that a task is about. -/
def ServerTask.connection : ServerTask → Option TcpConnId
  | .connectEstablished c => some c
  | .connectDestroyed c => some c
  | .forceCloseInLoop c => some c
  | .removeConnectionInLoop c => some c
  | .closeCallback c => some c
  | .destructor => none

def ServerRecord.connection : ServerRecord → TcpConnId
  | .accepted c => c
  | .removed c => c
  | .destroyed c => c

/-- A connection is established before it is destroyed. -/
def ServerTask.Before (f g : ServerTask) : Prop :=
  ∀ c, f = .connectDestroyed c → g ≠ .connectEstablished c

/-- The connections for which the server itself still answers. -/
def ServerPhase.held (connections : List TcpConnId) : ServerPhase → List TcpConnId
  | .alive => connections
  | .destructing rest => rest
  | .joining => []
  | .destroyed => []

/-- What the server, the queues and the records hold of one connection. -/
structure Tally where
  conn : TcpConnection
  mapped : ℕ
  held : ℕ
  establishing : ℕ
  ending : ℕ
  removing : ℕ
  accepted : ℕ
  removed : ℕ
  destroyed : ℕ

/-- The channel in each state. A connection that is destroyed has left the poller. -/
def Tally.ChannelOk (t : Tally) : Prop :=
  match t.conn.state with
  | .kConnecting => t.conn.channel = Channel.new
  | .kDisconnected =>
    t.conn.channel.label ≠ .kAdded ∧
    (t.destroyed = 0 → t.conn.channel.isNoneEvent = true ∧ t.conn.channel.label ≠ .kNew)
  | _ => t.conn.channel.label = .kAdded

structure Tally.Balanced (made : Prop) (p : ServerPhase) (t : Tally) : Prop where
  accepted : (made → t.accepted = 1) ∧ (¬ made → t.accepted = 0 ∧ t.conn.state = .kConnecting)
  once : t.held+t.ending+t.destroyed = t.accepted
  establishing : (made ∧ t.conn.state = .kConnecting → t.establishing = 1) ∧
    (¬ (made ∧ t.conn.state = .kConnecting) → t.establishing = 0)
  removing : p = .alive → (t.held = 1 ∧ t.conn.state = .kDisconnected → t.removing = 1) ∧
    (¬ (t.held = 1 ∧ t.conn.state = .kDisconnected) → t.removing = 0)
  unclosed : p = .alive → made → t.conn.state ≠ .kDisconnected → t.held = 1
  mapped : p.hasMap = true → t.mapped+t.removed = t.accepted
  holds : p = .alive → t.held = t.mapped
  channel : t.ChannelOk
  gone : t.destroyed ≠ 0 → t.conn.state = .kDisconnected

/-- The tally with one task more. -/
def Tally.plus (t : Tally) (f : ServerTask) (c : TcpConnId) : Tally :=
  { t with
    establishing := t.establishing + if f = .connectEstablished c then 1 else 0
    ending := t.ending + if f = .connectDestroyed c then 1 else 0
    removing := t.removing +
      ((if f = .removeConnectionInLoop c then 1 else 0) + if f = .closeCallback c then 1 else 0) }

/-- What a loop's thread and its queue have to do with the phase of the server. -/
structure ServerLoop.Fits {n : ℕ} (p : ServerPhase) (l : LoopId n) (x : ServerLoop) : Prop where
  quitting : l ≠ .base → x.quit = true → p = .joining ∨ p = .destroyed
  exited : l ≠ .base → x.phase = .exited → x.quit = true ∧ x.todo = []
  left : x.phase = .exited → ∀ c, .connectDestroyed c ∉ x.queue
  joined : l ≠ .base → p = .destroyed → x.phase = .exited
  direct : l = .base → ∀ c, .connectEstablished c ∉ x.queue
  cleared : l = .base → p ≠ .alive → x.phase = .exited ∨ ∀ c, .removeConnectionInLoop c ∉ x.queue
  stopped : l = .base → x.phase = .exited → ∀ c, .removeConnectionInLoop c ∉ x.todo

namespace Tally

variable {t : Tally} {made : Prop} {p : ServerPhase} {c : TcpConnId}

theorem plus_of_ne {f : ServerTask} (h : f.connection ≠ some c) : t.plus f c = t := by
  have h1 : f ≠ .connectEstablished c := fun hf => h (congrArg ServerTask.connection hf)
  have h2 : f ≠ .connectDestroyed c := fun hf => h (congrArg ServerTask.connection hf)
  have h3 : f ≠ .removeConnectionInLoop c := fun hf => h (congrArg ServerTask.connection hf)
  have h4 : f ≠ .closeCallback c := fun hf => h (congrArg ServerTask.connection hf)
  rw [plus, if_neg h1, if_neg h2, if_neg h3, if_neg h4]
  rfl

/-- A task about another connection. -/
theorem plus_other {f : ServerTask} {d : TcpConnId} (hf : f.connection = some d) (hd : c ≠ d) :
    t.plus f c = t := by
  apply plus_of_ne
  rw [hf]
  exact fun hcd => hd (Option.some.inj hcd).symm

theorem plus_connectEstablished :
    t.plus (.connectEstablished c) c = { t with establishing := t.establishing+1 } := by simp [plus]

theorem plus_connectDestroyed :
    t.plus (.connectDestroyed c) c = { t with ending := t.ending+1 } := by simp [plus]

theorem plus_removing {f : ServerTask} (hf : f = .removeConnectionInLoop c ∨ f = .closeCallback c) :
    t.plus f c = { t with removing := t.removing+1 } := by
  rcases hf with rfl | rfl
  · simp [plus]
  · simp [plus]

theorem Balanced.mono (h : t.Balanced made p) {p' : ServerPhase} (halive : p' = .alive → p = .alive)
    (hmap : p'.hasMap = true → p.hasMap = true) : t.Balanced made p' where
  accepted := h.accepted
  once := h.once
  establishing := h.establishing
  removing := fun hp => h.removing (halive hp)
  unclosed := fun hp => h.unclosed (halive hp)
  mapped := fun hp => h.mapped (hmap hp)
  holds := fun hp => h.holds (halive hp)
  channel := h.channel
  gone := h.gone

theorem isOpen_iff (conn : TcpConnection) : conn.isOpen = true ↔
    conn.state = .kConnected ∨ conn.state = .kDisconnecting := by
  rw [TcpConnection.isOpen, Bool.or_eq_true, decide_eq_true_iff, decide_eq_true_iff]

theorem isOpen_ne {conn : TcpConnection} (hopen : conn.isOpen = true) :
    conn.state ≠ .kConnecting ∧ conn.state ≠ .kDisconnected := by
  rcases (isOpen_iff conn).mp hopen with hs | hs
  · rw [hs]
    exact ⟨by decide, by decide⟩
  · rw [hs]
    exact ⟨by decide, by decide⟩

theorem ChannelOk.of_open (hopen : t.conn.isOpen = true) (hlabel : t.conn.channel.label = .kAdded) :
    t.ChannelOk := by
  unfold ChannelOk
  rcases (isOpen_iff t.conn).mp hopen with hstate | hstate
  · rw [hstate]
    exact hlabel
  · rw [hstate]
    exact hlabel

theorem ChannelOk.of_closed (hstate : t.conn.state = .kDisconnected)
    (hlabel : t.conn.channel.label ≠ .kAdded)
    (hchannel : t.destroyed = 0 → t.conn.channel.isNoneEvent = true ∧ t.conn.channel.label ≠ .kNew) :
    t.ChannelOk := by
  unfold ChannelOk
  rw [hstate]
  exact ⟨hlabel, hchannel⟩

/-- An open connection is in the poller's set, and the other way round. -/
theorem Balanced.label_iff (h : t.Balanced made p) :
    t.conn.channel.label = .kAdded ↔ t.conn.isOpen = true := by
  have hch := h.channel
  rw [isOpen_iff]
  unfold ChannelOk at hch
  cases hstate : t.conn.state with
  | kDisconnected =>
    rw [hstate] at hch
    simp [hch.1]
  | kConnecting =>
    rw [hstate] at hch
    simp [hch, Channel.new]
  | kConnected =>
    rw [hstate] at hch
    simp [hch]
  | kDisconnecting =>
    rw [hstate] at hch
    simp [hch]

theorem Balanced.made_of_ne (h : t.Balanced made p) (hstate : t.conn.state ≠ .kConnecting) : made := by
  by_contra hmade
  exact hstate (h.accepted.2 hmade).2

/-- The only state that a waiting `connectEstablished` allows. -/
theorem Balanced.connecting (h : t.Balanced made p) (hest : t.establishing ≠ 0) :
    made ∧ t.conn.state = .kConnecting := by
  by_contra hno
  exact hest (h.establishing.2 hno)

theorem Balanced.established (h : (t.plus (.connectEstablished c) c).Balanced made p)
    {conn : TcpConnection} (hstate : conn.state = .kConnected)
    (hlabel : conn.channel.label = .kAdded) : { t with conn := conn }.Balanced made p := by
  rw [plus_connectEstablished] at h
  obtain ⟨hmade,hconn⟩ := h.connecting (Nat.succ_ne_zero _)
  have hest : t.establishing+1 = 1 := h.establishing.1 ⟨hmade, hconn⟩
  have hdis : t.conn.state ≠ .kDisconnected := by
    intro hd
    cases hd.symm.trans hconn
  have hzero : t.destroyed = 0 := by
    by_contra hd
    exact hdis (h.gone hd)
  have hopen : conn.isOpen = true := (isOpen_iff conn).mpr (Or.inl hstate)
  constructor
  · exact ⟨h.accepted.1, fun hno => absurd hmade hno⟩
  · exact h.once
  · refine ⟨fun hc => ?_, fun _ => ?_⟩
    · cases hc.2.symm.trans hstate
    · show t.establishing = 0
      omega
  · intro hp
    refine ⟨fun hc => ?_, fun _ => ?_⟩
    · cases hc.2.symm.trans hstate
    · exact (h.removing hp).2 (fun hc => hdis hc.2)
  · intro hp _ _
    exact h.unclosed hp hmade hdis
  · exact h.mapped
  · exact h.holds
  · exact ChannelOk.of_open hopen hlabel
  · intro hd
    exact absurd hzero hd

/-- A call that leaves an open connection open. -/
theorem Balanced.stays_open (h : t.Balanced made p) (hopen : t.conn.isOpen = true)
    {conn : TcpConnection} (hopen' : conn.isOpen = true)
    (hlabel : conn.channel.label = t.conn.channel.label) : { t with conn := conn }.Balanced made p := by
  have hne := isOpen_ne hopen
  have hne' := isOpen_ne hopen'
  have hmade : made := h.made_of_ne hne.1
  constructor
  · exact ⟨h.accepted.1, fun hno => absurd hmade hno⟩
  · exact h.once
  · refine ⟨fun hc => absurd hc.2 hne'.1, fun _ => ?_⟩
    exact h.establishing.2 (fun hc => hne.1 hc.2)
  · intro hp
    refine ⟨fun hc => absurd hc.2 hne'.2, fun _ => ?_⟩
    exact (h.removing hp).2 (fun hc => hne.2 hc.2)
  · intro hp _ _
    exact h.unclosed hp hmade hne.2
  · exact h.mapped
  · exact h.holds
  · exact ChannelOk.of_open hopen' (hlabel.trans (h.label_iff.mpr hopen))
  · intro hd
    exact absurd (h.gone hd) hne.2

theorem disableAll_label (ch : Channel) (h : ch.label = .kAdded) : ch.disableAll.label = .kDeleted := by
  unfold Channel.disableAll Channel.update
  rw [h]
  rfl

/-- `handleClose` of an open connection, whose close callback is still to come. -/
theorem Balanced.closed (h : t.Balanced made p) (hopen : t.conn.isOpen = true)
    {conn : TcpConnection} (hstate : conn.state = .kDisconnected)
    (hchannel : conn.channel = t.conn.channel.disableAll) :
    ({ t with conn := conn }.plus (.closeCallback c) c).Balanced made p := by
  have hlabel := disableAll_label _ (h.label_iff.mpr hopen)
  have hne := isOpen_ne hopen
  have hmade : made := h.made_of_ne hne.1
  rw [plus_removing (Or.inr rfl)]
  constructor
  · exact ⟨h.accepted.1, fun hno => absurd hmade hno⟩
  · exact h.once
  · refine ⟨fun hc => ?_, fun _ => ?_⟩
    · cases hc.2.symm.trans hstate
    · exact h.establishing.2 (fun hc => hne.1 hc.2)
  · intro hp
    have hheld := h.unclosed hp hmade hne.2
    have hzero := (h.removing hp).2 (fun hc => hne.2 hc.2)
    refine ⟨fun _ => ?_, fun hno => absurd ⟨hheld, hstate⟩ hno⟩
    show t.removing+1 = 1
    omega
  · intro _ _ hdis
    exact absurd hstate hdis
  · exact h.mapped
  · exact h.holds
  · refine ChannelOk.of_closed hstate ?_ ?_
    · show conn.channel.label ≠ .kAdded
      rw [hchannel, hlabel]
      decide
    · intro _
      show conn.channel.isNoneEvent = true ∧ conn.channel.label ≠ .kNew
      rw [hchannel, hlabel]
      exact ⟨rfl, by decide⟩
  · intro _
    exact hstate

/-- `connectDestroyed` does not fail and leaves the connection out of the poller. -/
theorem connectDestroyed_ok (conn : TcpConnection) (hstate : conn.state = .kConnected ∨
      conn.state = .kDisconnected ∧ conn.channel.isNoneEvent = true ∧ conn.channel.label ≠ .kNew)
    (hlabel : conn.state = .kConnected → conn.channel.label = .kAdded) :
    ∃ conn' effects, conn.connectDestroyed = .ok (conn', effects) ∧
      conn'.state = .kDisconnected ∧ conn'.channel.label = .kNew := by
  unfold TcpConnection.connectDestroyed
  rcases hstate with hstate | ⟨hstate,hnone,hnew⟩
  · have hl := disableAll_label _ (hlabel hstate)
    have hremove : conn.channel.disableAll.remove =
        .ok { conn.channel.disableAll with addedToLoop := false, label := .kNew } := by
      unfold Channel.remove
      rw [hl]
      rfl
    rw [if_pos hstate]
    dsimp only
    rw [hremove]
    exact ⟨_, _, rfl, rfl, rfl⟩
  · have hremove : conn.channel.remove =
        .ok { conn.channel with addedToLoop := false, label := .kNew } := by
      unfold Channel.remove
      rw [hnone, decide_eq_true hnew]
      rfl
    have hne : conn.state ≠ .kConnected := by
      rw [hstate]
      decide
    rw [if_neg hne]
    dsimp only
    rw [hremove]
    exact ⟨_, _, rfl, hstate, rfl⟩

/-- A waiting `connectDestroyed` that is executed. No `connectEstablished` waits behind it. -/
theorem Balanced.destroyed (h : (t.plus (.connectDestroyed c) c).Balanced made p)
    (hest : t.establishing = 0) (hopen : t.conn.state ≠ .kDisconnecting) :
    ∃ conn effects, t.conn.connectDestroyed = .ok (conn, effects) ∧
      { t with conn := conn, destroyed := t.destroyed+1 }.Balanced made p := by
  rw [plus_connectDestroyed] at h
  have honce : t.held+(t.ending+1)+t.destroyed = t.accepted := h.once
  have hmade : made := by
    by_contra hmade
    have hacc : t.accepted = 0 := (h.accepted.2 hmade).1
    omega
  have hacc : t.accepted = 1 := h.accepted.1 hmade
  have hconnecting : t.conn.state ≠ .kConnecting := by
    intro hc
    have hone : t.establishing = 1 := h.establishing.1 ⟨hmade, hc⟩
    omega
  have hzero : t.destroyed = 0 := by omega
  have hstate : t.conn.state = .kConnected ∨ t.conn.state = .kDisconnected ∧
      t.conn.channel.isNoneEvent = true ∧ t.conn.channel.label ≠ .kNew := by
    have hch : t.ChannelOk := h.channel
    unfold ChannelOk at hch
    cases hs : t.conn.state with
    | kDisconnected =>
      rw [hs] at hch
      exact Or.inr ⟨rfl, hch.2 hzero⟩
    | kConnecting => exact absurd hs hconnecting
    | kConnected => exact Or.inl rfl
    | kDisconnecting => exact absurd hs hopen
  have hlabel (hs : t.conn.state = .kConnected) : t.conn.channel.label = .kAdded :=
    h.label_iff.mpr ((isOpen_iff _).mpr (Or.inl hs))
  obtain ⟨conn,effects,hok,hstate',hlabel'⟩ := connectDestroyed_ok t.conn hstate hlabel
  refine ⟨conn, effects, hok, ?_⟩
  constructor
  · exact ⟨h.accepted.1, fun hno => absurd hmade hno⟩
  · show t.held+t.ending+(t.destroyed+1) = t.accepted
    omega
  · refine ⟨fun hc => ?_, fun _ => hest⟩
    cases hc.2.symm.trans hstate'
  · intro hp
    have hheld : t.held ≠ 1 := by omega
    refine ⟨fun hc => absurd hc.1 hheld, fun _ => ?_⟩
    exact (h.removing hp).2 (fun hc => hheld hc.1)
  · intro _ _ hdis
    exact absurd hstate' hdis
  · exact h.mapped
  · exact h.holds
  · refine ChannelOk.of_closed hstate' ?_ ?_
    · show conn.channel.label ≠ .kAdded
      rw [hlabel']
      decide
    · intro hd
      exact absurd hd (Nat.succ_ne_zero _)
  · intro _
    exact hstate'

/-- A closed connection that the server removes posts its `connectDestroyed`. -/
theorem Balanced.removed {f : ServerTask} (h : (t.plus f c).Balanced made .alive)
    (hf : f = .removeConnectionInLoop c ∨ f = .closeCallback c) :
    0 < t.mapped ∧ ({ t with mapped := t.mapped-1, held := t.held-1, removed := t.removed+1 }.plus
      (.connectDestroyed c) c).Balanced made .alive := by
  rw [plus_removing hf] at h
  have hclosed : t.held = 1 ∧ t.conn.state = .kDisconnected := by
    by_contra hno
    exact Nat.succ_ne_zero _ ((h.removing rfl).2 hno)
  have hone : t.removing+1 = 1 := (h.removing rfl).1 hclosed
  have hholds : t.held = t.mapped := h.holds rfl
  have honce : t.held+t.ending+t.destroyed = t.accepted := h.once
  have hmapped : t.mapped+t.removed = t.accepted := h.mapped rfl
  have hheld := hclosed.1
  have hmade : made := h.made_of_ne (by
    show t.conn.state ≠ .kConnecting
    rw [hclosed.2]
    decide)
  refine ⟨by omega, ?_⟩
  rw [plus_connectDestroyed]
  constructor
  · exact ⟨h.accepted.1, fun hno => absurd hmade hno⟩
  · show t.held-1+(t.ending+1)+t.destroyed = t.accepted
    omega
  · exact h.establishing
  · intro _
    refine ⟨fun hc => ?_, fun _ => ?_⟩
    · have hc : t.held-1 = 1 := hc.1
      omega
    · show t.removing = 0
      omega
  · intro _ _ hdis
    exact absurd hclosed.2 hdis
  · intro _
    show t.mapped-1+(t.removed+1) = t.accepted
    omega
  · intro _
    show t.held-1 = t.mapped-1
    rw [hholds]
  · exact h.channel
  · exact h.gone

/-- The destructor takes a connection over. -/
theorem Balanced.handed (h : t.Balanced made p) (hp : p ≠ .alive) (hheld : 0 < t.held) :
    ({ t with held := t.held-1 }.plus (.connectDestroyed c) c).Balanced made p := by
  have honce := h.once
  rw [plus_connectDestroyed]
  constructor
  · exact h.accepted
  · show t.held-1+(t.ending+1)+t.destroyed = t.accepted
    omega
  · exact h.establishing
  · intro hp'
    exact absurd hp' hp
  · intro hp'
    exact absurd hp' hp
  · exact h.mapped
  · intro hp'
    exact absurd hp' hp
  · exact h.channel
  · exact h.gone

/-- A new connection. -/
theorem Balanced.made_new (h : t.Balanced made .alive) (hmade : ¬ made) {made' : Prop} (hmade' : made') :
    ({ t with mapped := t.mapped+1, held := t.held+1, accepted := t.accepted+1 }.plus
      (.connectEstablished c) c).Balanced made' .alive := by
  obtain ⟨hacc,hstate⟩ := h.accepted.2 hmade
  have honce := h.once
  have hmapped := h.mapped rfl
  have hest : t.establishing = 0 := h.establishing.2 (fun hc => hmade hc.1)
  have hheld : t.held ≠ 1 := by omega
  have hrem : t.removing = 0 := (h.removing rfl).2 (fun hc => hheld hc.1)
  rw [plus_connectEstablished]
  constructor
  · refine ⟨fun _ => ?_, fun hno => absurd hmade' hno⟩
    show t.accepted+1 = 1
    omega
  · show t.held+1+t.ending+t.destroyed = t.accepted+1
    omega
  · refine ⟨fun _ => ?_, fun hno => absurd ⟨hmade', hstate⟩ hno⟩
    show t.establishing+1 = 1
    omega
  · intro _
    refine ⟨fun hc => ?_, fun _ => hrem⟩
    cases hc.2.symm.trans hstate
  · intro _ _ _
    show t.held+1 = 1
    omega
  · intro _
    show t.mapped+1+t.removed = t.accepted+1
    omega
  · intro _
    show t.held+1 = t.mapped+1
    rw [h.holds rfl]
  · exact h.channel
  · exact h.gone

end Tally

namespace ServerLoop

variable {n : ℕ} {p : ServerPhase} {l : LoopId n} {x : ServerLoop}

/-- A functor that is queued. -/
theorem Fits.queueInLoop (h : x.Fits p l) (f : ServerTask)
    (hdestroyed : ∀ c, f = .connectDestroyed c → x.phase ≠ .exited)
    (hestablished : ∀ c, f = .connectEstablished c → l ≠ .base)
    (hremoved : ∀ c, f = .removeConnectionInLoop c → p = .alive ∨ x.phase = .exited) :
    { x with pendingFunctors := x.pendingFunctors ++ [f] }.Fits p l := by
  have hqueue : { x with pendingFunctors := x.pendingFunctors ++ [f] }.queue = x.queue ++ [f] :=
    (List.append_assoc _ _ _).symm
  constructor
  · exact h.quitting
  · exact h.exited
  · intro hexited c hc
    rw [hqueue, List.mem_append, List.mem_singleton] at hc
    rcases hc with hc | hc
    · exact h.left hexited c hc
    · exact hdestroyed c hc.symm hexited
  · exact h.joined
  · intro hl c hc
    rw [hqueue, List.mem_append, List.mem_singleton] at hc
    rcases hc with hc | hc
    · exact h.direct hl c hc
    · exact hestablished c hc.symm hl
  · intro hl hp
    by_cases hexited : x.phase = .exited
    · exact Or.inl hexited
    · refine Or.inr (fun c hc => ?_)
      rw [hqueue, List.mem_append, List.mem_singleton] at hc
      rcases hc with hc | hc
      · exact (h.cleared hl hp).resolve_left hexited c hc
      · exact (hremoved c hc.symm).elim hp hexited
  · exact h.stopped

/-- A call that begins in the thread of the loop. -/
theorem Fits.enter (h : x.Fits p l) (f : ServerTask) (hl : l ≠ .base → x.phase ≠ .exited)
    (hdestroyed : ∀ c, f ≠ .connectDestroyed c) (hestablished : ∀ c, f ≠ .connectEstablished c)
    (hremoved : ∀ c, f ≠ .removeConnectionInLoop c) : { x with todo := f :: x.todo }.Fits p l := by
  have hmem (g : ServerTask) (hg : g ∈ { x with todo := f :: x.todo }.queue) : g = f ∨ g ∈ x.queue :=
    List.mem_cons.mp hg
  constructor
  · exact h.quitting
  · intro hne hexited
    exact absurd hexited (hl hne)
  · intro hexited c hc
    exact (hmem _ hc).elim (fun hf => hdestroyed c hf.symm) (h.left hexited c)
  · exact h.joined
  · intro hbase c hc
    exact (hmem _ hc).elim (fun hf => hestablished c hf.symm) (h.direct hbase c)
  · intro hbase hp
    refine (h.cleared hbase hp).imp_right (fun hno c hc => ?_)
    exact (hmem _ hc).elim (fun hf => hremoved c hf.symm) (hno c)
  · intro hbase hexited c hc
    rcases List.mem_cons.mp hc with hf | hc
    · exact hremoved c hf.symm
    · exact h.stopped hbase hexited c hc

/-- The task at the front is taken out. -/
theorem Fits.pop (h : x.Fits p l) {f : ServerTask} {todo : List ServerTask} (htodo : x.todo = f :: todo) :
    { x with todo := todo }.Fits p l := by
  have hsub (g : ServerTask) (hg : g ∈ { x with todo := todo }.queue) : g ∈ x.queue := by
    rw [queue, htodo]
    exact List.mem_cons_of_mem f hg
  constructor
  · exact h.quitting
  · intro hne hexited
    have hnil := (h.exited hne hexited).2
    rw [htodo] at hnil
    cases hnil
  · intro hexited c hc
    exact h.left hexited c (hsub _ hc)
  · exact h.joined
  · intro hbase c hc
    exact h.direct hbase c (hsub _ hc)
  · intro hbase hp
    exact (h.cleared hbase hp).imp_right (fun hno c hc => hno c (hsub _ hc))
  · intro hbase hexited c hc
    apply h.stopped hbase hexited c
    rw [htodo]
    exact List.mem_cons_of_mem f hc

/-- `doPendingFunctors` takes the functors. -/
theorem Fits.swap (h : x.Fits p l) (hphase : x.phase = .waiting) (htodo : x.todo = []) :
    { x with phase := .running, todo := x.pendingFunctors, pendingFunctors := [] }.Fits p l := by
  have hne : x.phase ≠ .exited := by
    rw [hphase]
    decide
  have hqueue : { x with phase := .running, todo := x.pendingFunctors, pendingFunctors := [] }.queue =
      x.queue := by
    rw [queue, queue, htodo, List.nil_append, List.append_nil]
  constructor
  · exact h.quitting
  · intro _ hexited
    cases hexited
  · intro hexited
    cases hexited
  · intro hl hp
    exact absurd (h.joined hl hp) hne
  · intro hl c hc
    rw [hqueue] at hc
    exact h.direct hl c hc
  · intro hl hp
    rw [hqueue]
    exact Or.inr ((h.cleared hl hp).resolve_left hne)
  · intro _ hexited
    cases hexited

/-- The loop goes on or is left. -/
theorem Fits.test (h : x.Fits p l) (hphase : x.phase = .running) (htodo : x.todo = [])
    (hleft : x.quit = true → ∀ c, .connectDestroyed c ∉ x.queue) :
    { x with phase := if x.quit then .exited else .waiting }.Fits p l := by
  have hne : x.phase ≠ .exited := by
    rw [hphase]
    decide
  have hquit (hexited : (if x.quit then RoundPhase.exited else .waiting) = .exited) : x.quit = true := by
    by_contra hq
    rw [if_neg hq] at hexited
    cases hexited
  constructor
  · exact h.quitting
  · intro _ hexited
    exact ⟨hquit hexited, htodo⟩
  · intro hexited
    exact hleft (hquit hexited)
  · intro hl hp
    exact absurd (h.joined hl hp) hne
  · exact h.direct
  · intro hl hp
    exact Or.inr ((h.cleared hl hp).resolve_left hne)
  · intro _ _ c hc
    have hc : .removeConnectionInLoop c ∈ x.todo := hc
    rw [htodo] at hc
    cases hc

theorem Fits.quit (h : x.Fits p l) (hl : l = .base ∨ p = .joining) :
    { x with quit := true }.Fits p l := by
  constructor
  · intro hne _
    exact Or.inl (hl.resolve_left hne)
  · intro hne hexited
    exact ⟨rfl, (h.exited hne hexited).2⟩
  · exact h.left
  · exact h.joined
  · exact h.direct
  · exact h.cleared
  · exact h.stopped

/-- The server goes into another phase. -/
theorem Fits.phase (h : x.Fits p l) {p' : ServerPhase}
    (hquit : p = .joining ∨ p = .destroyed → p' = .joining ∨ p' = .destroyed)
    (hjoined : l ≠ .base → p' = .destroyed → x.phase = .exited)
    (hcleared : l = .base → p' ≠ .alive → x.phase = .exited ∨ ∀ c, .removeConnectionInLoop c ∉ x.queue) :
    x.Fits p' l where
  quitting := fun hne hq => hquit (h.quitting hne hq)
  exited := h.exited
  left := h.left
  joined := hjoined
  direct := h.direct
  cleared := hcleared
  stopped := h.stopped

end ServerLoop

namespace ServerLoops

variable {n : ℕ}

def made (s : ServerLoops n) (c : TcpConnId) : Prop := 0 < c ∧ c < s.nextConnId

def waiting (s : ServerLoops n) (q : LoopId n → List ServerTask) (f : ServerTask) : ℕ :=
  Mailboxes.waiting s.home q f

def tally (s : ServerLoops n) (q : LoopId n → List ServerTask) (out : List ServerRecord)
    (c : TcpConnId) : Tally where
  conn := s.conns c
  mapped := s.connections.count c
  held := (s.phase.held s.connections).count c
  establishing := s.waiting q (.connectEstablished c)
  ending := s.waiting q (.connectDestroyed c)
  removing := s.waiting q (.removeConnectionInLoop c) + s.waiting q (.closeCallback c)
  accepted := out.count (.accepted c)
  removed := out.count (.removed c)
  destroyed := out.count (.destroyed c)

/-- `q` is what the queues hold, with the task that is being executed. -/
structure Books (s : ServerLoops n) (q : LoopId n → List ServerTask) (out : List ServerRecord) :
    Prop where
  counted : 0 < s.nextConnId
  balanced : ∀ c, (s.tally q out c).Balanced (s.made c) s.phase
  place : ∀ l f, f ∈ q l → s.home f = l ∧ ∀ c, f.connection = some c → s.made c
  inOrder : Mailboxes.InOrder ServerTask.Before q

/-- Every loop fits the phase of the server. -/
def AllFit (s : ServerLoops n) : Prop := ∀ l, (s.loops l).Fits s.phase l

structure Invariant (s : ServerLoops n) (out : List ServerRecord) : Prop where
  books : s.Books s.queue out
  fits : s.AllFit

/-- Nothing fails, and the invariant holds afterwards. -/
def Keeps (out : List ServerRecord) (r : Except Fault (ServerLoops n × List ServerRecord)) : Prop :=
  ∃ s out', r = .ok (s, out') ∧ s.Invariant (out ++ out')

section Books
variable {s : ServerLoops n} {q : LoopId n → List ServerTask} {out : List ServerRecord} {l : LoopId n}
  {f : ServerTask} {c d : TcpConnId}

theorem tally_post (hl : s.home f = l) (d : TcpConnId) :
    s.tally (Mailboxes.post q l f) out d = (s.tally q out d).plus f d := by
  subst hl
  simp only [tally, Tally.plus, waiting, Mailboxes.waiting_post]
  congr 1
  omega

theorem tally_putBack (hl : s.home f = l) (d : TcpConnId) :
    s.tally (Mailboxes.putBack q l f) out d = (s.tally q out d).plus f d := by
  subst hl
  simp only [tally, Tally.plus, waiting, Mailboxes.waiting_putBack]
  congr 1
  omega

theorem tally_setConn (conn : TcpConnection) :
    (s.setConn c conn).tally q out c = { s.tally q out c with conn := conn } := by
  unfold tally setConn
  dsimp only
  rw [Function.update_self]
  rfl

theorem tally_setConn_of_ne (conn : TcpConnection) (hd : d ≠ c) :
    (s.setConn c conn).tally q out d = s.tally q out d := by
  unfold tally setConn
  dsimp only
  rw [Function.update_of_ne hd]
  rfl

/-- The task at the front, which is taken out. -/
theorem Books.front (h : s.Books (Mailboxes.putBack q l f) out) :
    s.home f = l ∧ ∀ c, f.connection = some c → s.made c :=
  h.place l f Mailboxes.mem_putBack_self

theorem Books.balanced_front (h : s.Books (Mailboxes.putBack q l f) out) (d : TcpConnId) :
    ((s.tally q out d).plus f d).Balanced (s.made d) s.phase := by
  rw [← tally_putBack h.front.1]
  exact h.balanced d

theorem Books.balanced_other (h : s.Books (Mailboxes.putBack q l f) out)
    (hf : f.connection = some c) (hd : d ≠ c) : (s.tally q out d).Balanced (s.made d) s.phase := by
  have hother := h.balanced_front d
  rwa [Tally.plus_other hf hd] at hother

theorem tally_record_of_ne (r : ServerRecord) (hr : r.connection ≠ d) :
    s.tally q (out ++ [r]) d = s.tally q out d := by
  have h1 : r ≠ .accepted d := fun h => hr (congrArg ServerRecord.connection h)
  have h2 : r ≠ .removed d := fun h => hr (congrArg ServerRecord.connection h)
  have h3 : r ≠ .destroyed d := fun h => hr (congrArg ServerRecord.connection h)
  unfold tally
  simp only [List.count_append, List.count_singleton, beq_iff_eq, if_neg h1, if_neg h2, if_neg h3,
    Nat.add_zero]

theorem tally_destroyed : s.tally q (out ++ [.destroyed c]) c =
    { s.tally q out c with destroyed := (s.tally q out c).destroyed+1 } := by
  simp [tally]

/-- The tasks behind the one at the front are in their places. -/
theorem Books.rest (h : s.Books (Mailboxes.putBack q l f) out) :
    (∀ m g, g ∈ q m → s.home g = m ∧ ∀ c, g.connection = some c → s.made c) ∧
      Mailboxes.InOrder ServerTask.Before q := by
  refine ⟨?_, h.inOrder.of_putBack.1⟩
  intro m g hg
  exact h.place m g (Mailboxes.mem_putBack_of_mem hg)

/-- A task that the books do not count. -/
theorem Books.drop (h : s.Books (Mailboxes.putBack q l f) out)
    (hf : ∀ t d, Tally.plus t f d = t) : s.Books q out := by
  refine ⟨h.counted, ?_, h.rest.1, h.rest.2⟩
  intro d
  have hd := h.balanced_front d
  rwa [hf] at hd

/-- A connection changes. The others have the same tally. -/
theorem Books.setConn (hcounted : 0 < s.nextConnId) (conn : TcpConnection)
    (hothers : ∀ d, d ≠ c → (s.tally q out d).Balanced (s.made d) s.phase)
    (hc : { s.tally q out c with conn := conn }.Balanced (s.made c) s.phase)
    (hplace : ∀ m g, g ∈ q m → s.home g = m ∧ ∀ c, g.connection = some c → s.made c)
    (hinOrder : Mailboxes.InOrder ServerTask.Before q) : (s.setConn c conn).Books q out := by
  refine ⟨hcounted, ?_, hplace, hinOrder⟩
  intro d
  by_cases hd : d = c
  · rw [hd, tally_setConn]
    exact hc
  · rw [tally_setConn_of_ne conn hd]
    exact hothers d hd

theorem Books.established (h : s.Books (Mailboxes.putBack q l (.connectEstablished c)) out) :
    ∃ conn, s.connectEstablished c = .ok (s.setConn c conn, []) ∧
      (s.setConn c conn).Books q out := by
  have hc := h.balanced_front c
  have hstate : (s.conns c).state = .kConnecting := by
    rw [Tally.plus_connectEstablished] at hc
    exact (hc.connecting (Nat.succ_ne_zero _)).2
  have hchannel : (s.conns c).channel = Channel.new := by
    have hch := hc.channel
    unfold Tally.ChannelOk at hch
    rw [show ((s.tally q out c).plus (.connectEstablished c) c).conn.state = .kConnecting from hstate]
      at hch
    exact hch
  let conn : TcpConnection :=
    { s.conns c with state := .kConnected, channel := (s.conns c).channel.enableReading }
  have hok : s.connectEstablished c = .ok (s.setConn c conn, []) := by
    unfold connectEstablished TcpConnection.connectEstablished
    rw [if_pos hstate]
    rfl
  have hlabel : conn.channel.label = .kAdded := by
    show (s.conns c).channel.enableReading.label = .kAdded
    rw [hchannel]
    rfl
  refine ⟨conn, hok, Books.setConn h.counted conn ?_ (hc.established rfl hlabel) h.rest.1 h.rest.2⟩
  intro d hd
  exact h.balanced_other rfl hd

/-- No `connectEstablished` waits behind the `connectDestroyed` of a connection. -/
theorem Books.not_establishing (h : s.Books (Mailboxes.putBack q l (.connectDestroyed c)) out) :
    s.waiting q (.connectEstablished c) = 0 := by
  apply List.count_eq_zero.mpr
  intro hmem
  have hl : s.ioLoop c = l := h.front.1
  rw [show s.home (.connectEstablished c) = l from hl] at hmem
  exact h.inOrder.of_putBack.2 _ hmem c rfl rfl

theorem Books.destroyed (h : s.Books (Mailboxes.putBack q l (.connectDestroyed c)) out)
    (hopen : (s.conns c).state ≠ .kDisconnecting) :
    ∃ conn, s.connectDestroyed c = .ok (s.setConn c conn, [.destroyed c]) ∧
      (s.setConn c conn).Books q (out ++ [.destroyed c]) := by
  obtain ⟨conn,effects,hok,hc⟩ :=
    (h.balanced_front c).destroyed h.not_establishing hopen
  have hstep : s.connectDestroyed c = .ok (s.setConn c conn, [.destroyed c]) := by
    unfold connectDestroyed
    rw [show (s.conns c).connectDestroyed = .ok (conn, effects) from hok]
    rfl
  refine ⟨conn, hstep, Books.setConn h.counted conn ?_ ?_ h.rest.1 h.rest.2⟩
  · intro d hd
    rw [tally_record_of_ne _ (Ne.symm hd)]
    exact h.balanced_other rfl hd
  · rw [tally_destroyed]
    exact hc

theorem Books.of_post (hcounted : 0 < s.nextConnId) (hl : s.home f = l)
    (hmade : ∀ c, f.connection = some c → s.made c)
    (hbalanced : ∀ d, ((s.tally q out d).plus f d).Balanced (s.made d) s.phase)
    (hplace : ∀ m g, g ∈ q m → s.home g = m ∧ ∀ c, g.connection = some c → s.made c)
    (hinOrder : Mailboxes.InOrder ServerTask.Before q) (hbefore : ∀ g ∈ q l, ServerTask.Before g f) :
    s.Books (Mailboxes.post q l f) out := by
  refine ⟨hcounted, ?_, ?_, hinOrder.post hbefore⟩
  · intro d
    rw [tally_post hl]
    exact hbalanced d
  · intro m g hg
    rcases Mailboxes.mem_post hg with hg | ⟨rfl,rfl⟩
    · exact hplace m g hg
    · exact ⟨hl, hmade⟩

theorem Books.of_putBack (hcounted : 0 < s.nextConnId) (hl : s.home f = l)
    (hmade : ∀ c, f.connection = some c → s.made c)
    (hbalanced : ∀ d, ((s.tally q out d).plus f d).Balanced (s.made d) s.phase)
    (hplace : ∀ m g, g ∈ q m → s.home g = m ∧ ∀ c, g.connection = some c → s.made c)
    (hinOrder : Mailboxes.InOrder ServerTask.Before q) (hbefore : ∀ g ∈ q l, ServerTask.Before f g) :
    s.Books (Mailboxes.putBack q l f) out := by
  refine ⟨hcounted, ?_, ?_, hinOrder.putBack hbefore⟩
  · intro d
    rw [tally_putBack hl]
    exact hbalanced d
  · intro m g hg
    rcases Mailboxes.mem_putBack hg with hg | ⟨rfl,rfl⟩
    · exact hplace m g hg
    · exact ⟨hl, hmade⟩

theorem Books.closed (h : s.Books q out) (hopen : (s.conns c).isOpen = true) :
    ∃ conn, s.handleClose c =
        .ok ((s.setConn c conn).enter (s.ioLoop c) (.closeCallback c), []) ∧
      (s.setConn c conn).Books (Mailboxes.putBack q (s.ioLoop c) (.closeCallback c)) out := by
  let conn : TcpConnection :=
    { s.conns c with state := .kDisconnected, channel := (s.conns c).channel.disableAll }
  have hok : s.handleClose c =
      .ok ((s.setConn c conn).enter (s.ioLoop c) (.closeCallback c), []) := by
    unfold handleClose TcpConnection.handleClose
    rw [if_pos hopen]
    rfl
  have hmade : s.made c := (h.balanced c).made_of_ne (Tally.isOpen_ne hopen).1
  refine ⟨conn, hok, Books.of_putBack h.counted rfl ?_ ?_ h.place h.inOrder ?_⟩
  · intro d hd
    rw [← Option.some.inj hd]
    exact hmade
  · intro d
    by_cases hd : d = c
    · rw [hd, tally_setConn]
      exact (h.balanced c).closed hopen rfl rfl
    · rw [tally_setConn_of_ne conn hd, Tally.plus_other rfl hd]
      exact h.balanced d
  · intro g _ d hd
    cases hd

/-- A connection that is removed. -/
theorem Books.removed (h : s.Books (Mailboxes.putBack q l f) out) (halive : s.phase = .alive)
    (hf : f = .removeConnectionInLoop c ∨ f = .closeCallback c) :
    s.removeConnectionInLoop c =
        .ok ((s.eraseConnection c).queueInLoop (s.ioLoop c) (.connectDestroyed c), [.removed c]) ∧
      (s.eraseConnection c).Books (Mailboxes.post q (s.ioLoop c) (.connectDestroyed c))
        (out ++ [ServerRecord.removed c]) := by
  have hconn : f.connection = some c := by
    rcases hf with rfl | rfl
    · rfl
    · rfl
  have hc := h.balanced_front c
  rw [halive] at hc
  obtain ⟨hmapped,hc⟩ := hc.removed hf
  have hmem : c ∈ s.connections := List.count_pos_iff.mp hmapped
  constructor
  · have hmap : s.phase.hasMap = true := by
      rw [halive]
      rfl
    rw [removeConnectionInLoop, if_pos hmap, if_pos hmem]
  · have hphase : (s.eraseConnection c).phase = s.phase := by
      unfold eraseConnection
      rw [halive]
      rfl
    have hwaiting (g : ServerTask) : (s.eraseConnection c).waiting q g = s.waiting q g := rfl
    have hcounted : 0 < (s.eraseConnection c).nextConnId := h.counted
    refine Books.of_post hcounted rfl ?_ ?_ h.rest.1 h.rest.2 ?_
    · intro d hd
      rw [← Option.some.inj hd]
      exact h.front.2 c hconn
    · intro d
      by_cases hd : d = c
      · rw [hd]
        have htally : (s.eraseConnection c).tally q (out ++ [.removed c]) c =
            { s.tally q out c with
              mapped := (s.tally q out c).mapped-1
              held := (s.tally q out c).held-1
              removed := (s.tally q out c).removed+1 } := by
          simp only [tally, hwaiting]
          simp [eraseConnection, halive, ServerPhase.erase, ServerPhase.held]
        rw [htally, hphase, halive]
        exact hc
      · have htally : (s.eraseConnection c).tally q out d = s.tally q out d := by
          simp only [tally, hwaiting]
          simp [eraseConnection, halive, ServerPhase.erase, ServerPhase.held,
            List.count_erase_of_ne hd]
        rw [tally_record_of_ne _ (Ne.symm hd), htally, hphase,
          Tally.plus_other rfl hd]
        exact h.balanced_other hconn hd
    · intro g _ d _ hd
      cases hd

/-- The destructor comes to a connection. -/
theorem Books.handed (h : s.Books q out) {rest : List TcpConnId}
    (hphase : s.phase = .destructing rest) (hc : c ∈ rest) :
    let s' : ServerLoops n := { s with phase := .destructing (rest.erase c) }
    s'.made c ∧ ∀ d, ((s'.tally q out d).plus (.connectDestroyed c) d).Balanced (s'.made d) s'.phase := by
  intro s'
  have hbalanced (d : TcpConnId) : (s.tally q out d).Balanced (s.made d) (.destructing (rest.erase c)) := by
    have hd := h.balanced d
    rw [hphase] at hd
    apply hd.mono
    · intro hp
      cases hp
    · intro _
      rfl
  have hheld : 0 < (s.tally q out c).held := by
    unfold tally
    rw [hphase]
    exact List.count_pos_iff.mpr hc
  have hmade : s.made c := by
    by_contra hmade
    have honce := (h.balanced c).once
    have hacc := ((h.balanced c).accepted.2 hmade).1
    omega
  have hwaiting (g : ServerTask) : s'.waiting q g = s.waiting q g := rfl
  refine ⟨hmade, ?_⟩
  intro d
  by_cases hd : d = c
  · rw [hd]
    have htally : s'.tally q out c =
        { s.tally q out c with held := (s.tally q out c).held-1 } := by
      simp only [tally, hwaiting]
      simp [s', hphase, ServerPhase.held]
    rw [htally]
    apply (hbalanced c).handed _ hheld
    intro hp
    cases hp
  · have htally : s'.tally q out d = s.tally q out d := by
      simp only [tally, hwaiting]
      simp [s', hphase, ServerPhase.held, List.count_erase_of_ne hd]
    rw [htally, Tally.plus_other rfl hd]
    exact hbalanced d

/-- A new connection about which no task waits. -/
theorem Books.accepted (h : s.Books q out) (halive : s.phase = .alive) :
    s.addConnection.made s.nextConnId ∧
    (∀ d, ((s.addConnection.tally q (out ++ [.accepted s.nextConnId]) d).plus
      (.connectEstablished s.nextConnId) d).Balanced (s.addConnection.made d) s.addConnection.phase) ∧
    ∀ m g, g ∈ q m → s.addConnection.home g = m ∧
      ∀ c, g.connection = some c → c ≠ s.nextConnId ∧ s.addConnection.made c := by
  have hnew : ¬ s.made s.nextConnId := fun hmade => lt_irrefl _ hmade.2
  have hmono (c : TcpConnId) (hc : s.made c) : s.addConnection.made c :=
    ⟨hc.1, Nat.lt_succ_of_lt hc.2⟩
  have hne (m : LoopId n) (g : ServerTask) (hg : g ∈ q m) : g.connection ≠ some s.nextConnId :=
    fun hc => hnew ((h.place m g hg).2 _ hc)
  have hhome (g : ServerTask) (hg : g.connection ≠ some s.nextConnId) :
      s.addConnection.home g = s.home g := by
    cases g with
    | removeConnectionInLoop c => rfl
    | destructor => rfl
    | connectEstablished c => exact Function.update_of_ne (fun hc => hg (congrArg some hc)) _ _
    | connectDestroyed c => exact Function.update_of_ne (fun hc => hg (congrArg some hc)) _ _
    | forceCloseInLoop c => exact Function.update_of_ne (fun hc => hg (congrArg some hc)) _ _
    | closeCallback c => exact Function.update_of_ne (fun hc => hg (congrArg some hc)) _ _
  -- a task about the new connection is in none of the queues, wherever it would belong
  have hwaiting (g : ServerTask) : s.addConnection.waiting q g = s.waiting q g := by
    by_cases hg : g.connection = some s.nextConnId
    · have hzero (m : LoopId n) : (q m).count g = 0 := by
        rw [List.count_eq_zero]
        exact fun hmem => hne m g hmem hg
      exact (hzero _).trans (hzero _).symm
    · exact congrArg (fun m => (q m).count g) (hhome g hg)
  refine ⟨⟨h.counted, Nat.lt_succ_self _⟩, ?_, ?_⟩
  · intro d
    have hphase : s.addConnection.phase = .alive := halive
    have hd := h.balanced d
    rw [halive] at hd
    rw [hphase]
    by_cases hdc : d = s.nextConnId
    · rw [hdc] at hd
      rw [hdc]
      have htally : s.addConnection.tally q (out ++ [.accepted s.nextConnId]) s.nextConnId =
          { s.tally q out s.nextConnId with
            mapped := (s.tally q out s.nextConnId).mapped+1
            held := (s.tally q out s.nextConnId).held+1
            accepted := (s.tally q out s.nextConnId).accepted+1 } := by
        simp only [tally, hwaiting]
        simp [addConnection, halive, ServerPhase.held]
      rw [htally]
      exact hd.made_new hnew ⟨h.counted, Nat.lt_succ_self _⟩
    · have htally : s.addConnection.tally q out d = s.tally q out d := by
        simp only [tally, hwaiting]
        simp [addConnection, halive, ServerPhase.held, Ne.symm hdc]
      have hmade : s.addConnection.made d ↔ s.made d := by
        constructor
        · intro hm
          refine ⟨hm.1, lt_of_le_of_ne (Nat.lt_succ_iff.mp hm.2) hdc⟩
        · exact hmono d
      rw [tally_record_of_ne _ (Ne.symm hdc), htally,
        Tally.plus_other rfl hdc, propext hmade]
      exact hd
  · intro m g hg
    obtain ⟨hm,hmade⟩ := h.place m g hg
    refine ⟨(hhome g (hne m g hg)).trans hm, ?_⟩
    intro c hc
    exact ⟨fun hcn => hne m g hg (hc.trans (congrArg some hcn)), hmono c (hmade c hc)⟩

end Books

section Execution
variable {s : ServerLoops n} {out : List ServerRecord} {l : LoopId n} {f : ServerTask} {c : TcpConnId}

theorem queue_setLoop (x : ServerLoop) : (s.setLoop l x).queue = Function.update s.queue l x.queue := by
  ext m : 1
  unfold queue setLoop
  dsimp only
  by_cases hm : m = l
  · rw [hm, Function.update_self, Function.update_self]
  · rw [Function.update_of_ne hm, Function.update_of_ne hm]

/-- The books do not look at the loops. -/
theorem Books.setLoop {q : LoopId n → List ServerTask} (h : s.Books q out) (x : ServerLoop) :
    (s.setLoop l x).Books q out :=
  ⟨h.counted, h.balanced, h.place, h.inOrder⟩

theorem queue_queueInLoop : (s.queueInLoop l f).queue = Mailboxes.post s.queue l f := by
  rw [queueInLoop, queue_setLoop, Mailboxes.post]
  congr 1
  exact (List.append_assoc _ _ _).symm

theorem queue_enter : (s.enter l f).queue = Mailboxes.putBack s.queue l f := by
  rw [enter, queue_setLoop]
  rfl

theorem AllFit.setLoop (h : s.AllFit) {x : ServerLoop} (hx : x.Fits s.phase l) :
    (s.setLoop l x).AllFit := by
  intro m
  unfold ServerLoops.setLoop
  dsimp only
  by_cases hm : m = l
  · rw [hm, Function.update_self]
    exact hx
  · rw [Function.update_of_ne hm]
    exact h m

/-- The loops of the thread pool run until it waits for its threads. -/
theorem AllFit.running (h : s.AllFit) (hmap : s.phase.hasMap = true) (hl : l ≠ .base) :
    (s.loops l).phase ≠ .exited := by
  intro hexited
  rcases (h l).quitting hl ((h l).exited hl hexited).1 with hp | hp
  · rw [hp] at hmap
    cases hmap
  · rw [hp] at hmap
    cases hmap

theorem Keeps.same (h : s.Invariant out) : Keeps out (.ok (s, [])) :=
  ⟨s, [], rfl, by rwa [List.append_nil]⟩

theorem keeps_connectEstablished
    (hbooks : s.Books (Mailboxes.putBack s.queue l (.connectEstablished c)) out) (hfits : s.AllFit) :
    Keeps out (s.connectEstablished c) := by
  obtain ⟨conn,hok,hnew⟩ := hbooks.established
  refine ⟨s.setConn c conn, [], hok, ?_, hfits⟩
  rw [List.append_nil]
  exact hnew

theorem keeps_connectDestroyed
    (hbooks : s.Books (Mailboxes.putBack s.queue l (.connectDestroyed c)) out) (hfits : s.AllFit)
    (hopen : (s.conns c).state ≠ .kDisconnecting) : Keeps out (s.connectDestroyed c) := by
  obtain ⟨conn,hok,hnew⟩ := hbooks.destroyed hopen
  exact ⟨s.setConn c conn, [.destroyed c], hok, hnew, hfits⟩

theorem keeps_handleClose (h : s.Invariant out) (hopen : (s.conns c).isOpen = true)
    (hl : s.ioLoop c ≠ .base → (s.loops (s.ioLoop c)).phase ≠ .exited) :
    Keeps out (s.handleClose c) := by
  obtain ⟨conn,hok,hnew⟩ := h.books.closed hopen
  refine ⟨(s.setConn c conn).enter (s.ioLoop c) (.closeCallback c), [], hok, ?_, ?_⟩
  · rw [List.append_nil, queue_enter]
    exact hnew.setLoop _
  · have hfits : (s.setConn c conn).AllFit := h.fits
    apply hfits.setLoop
    apply (h.fits (s.ioLoop c)).enter _ hl
    · intro d hd
      cases hd
    · intro d hd
      cases hd
    · intro d hd
      cases hd

theorem keeps_removeConnectionInLoop (hbooks : s.Books (Mailboxes.putBack s.queue l f) out)
    (hfits : s.AllFit) (hf : f = .removeConnectionInLoop c ∨ f = .closeCallback c)
    (halive : s.phase = .alive) (hbase : (s.loops .base).phase ≠ .exited) :
    Keeps out (s.removeConnectionInLoop c) := by
  obtain ⟨hok,hnew⟩ := hbooks.removed halive hf
  refine ⟨_, _, hok, ?_, ?_⟩
  · rw [queue_queueInLoop]
    exact hnew.setLoop _
  · have hphase : (s.eraseConnection c).phase = s.phase := by
      unfold eraseConnection
      rw [halive]
      rfl
    have herase : (s.eraseConnection c).AllFit := by
      intro m
      rw [hphase]
      exact hfits m
    apply herase.setLoop
    apply (herase (s.ioLoop c)).queueInLoop
    · intro d _
      by_cases hl : s.ioLoop c = .base
      · rw [hl]
        exact hbase
      · apply hfits.running _ hl
        rw [halive]
        rfl
    · intro d hd
      cases hd
    · intro d hd
      cases hd

/-- The close callback of a connection of another loop. -/
theorem keeps_removal_posted (hbooks : s.Books (Mailboxes.putBack s.queue l (.closeCallback c)) out)
    (hfits : s.AllFit) (hbase : s.phase = .alive ∨ (s.loops .base).phase = .exited) :
    (s.queueInLoop .base (.removeConnectionInLoop c)).Invariant out := by
  constructor
  · rw [queue_queueInLoop]
    apply Books.setLoop
    refine Books.of_post hbooks.counted rfl ?_ ?_ hbooks.rest.1 hbooks.rest.2 ?_
    · intro d hd
      exact hbooks.front.2 d hd
    · intro d
      have hd := hbooks.balanced_front d
      by_cases hdc : d = c
      · rw [hdc] at hd
        rw [hdc]
        rwa [Tally.plus_removing (Or.inr rfl), ← Tally.plus_removing (Or.inl rfl)] at hd
      · rw [Tally.plus_other rfl hdc] at hd
        rwa [Tally.plus_other rfl hdc]
    · intro g _ d _ hd
      cases hd
  · apply hfits.setLoop
    apply (hfits .base).queueInLoop
    · intro d hd
      cases hd
    · intro d hd
      cases hd
    · intro _ _
      exact hbase

theorem Keeps.record {r : ServerRecord} {x : Except Fault (ServerLoops n × List ServerRecord)}
    (h : Keeps (out ++ [r]) x) : Keeps out (x.map (fun y => (y.1, r :: y.2))) := by
  obtain ⟨s',out',hok,hs⟩ := h
  refine ⟨s', r :: out', ?_, ?_⟩
  · rw [hok]
    rfl
  · rwa [List.append_cons]

theorem keeps_newConnection (h : s.Invariant out) (halive : s.phase = .alive) :
    Keeps out s.newConnection := by
  obtain ⟨hmade,hbalanced,hplace⟩ := h.books.accepted halive
  have hplace' (m : LoopId n) (g : ServerTask) (hg : g ∈ s.addConnection.queue m) :
      s.addConnection.home g = m ∧ ∀ c, g.connection = some c → s.addConnection.made c :=
    ⟨(hplace m g hg).1, fun c hc => ((hplace m g hg).2 c hc).2⟩
  have hmade' (d : TcpConnId) (hd : ServerTask.connection (.connectEstablished s.nextConnId) = some d) :
      s.addConnection.made d := by
    rw [← Option.some.inj hd]
    exact hmade
  have hfits : s.addConnection.AllFit := h.fits
  apply Keeps.record
  unfold runInLoop
  by_cases hl : s.addConnection.ioLoop s.nextConnId = .base
  · rw [if_pos hl]
    apply @keeps_connectEstablished n s.addConnection _ .base _ _ hfits
    refine Books.of_putBack (Nat.succ_pos _) hl hmade' hbalanced hplace' h.books.inOrder ?_
    intro g _ d hd
    cases hd
  · rw [if_neg hl]
    apply Keeps.same
    constructor
    · rw [queue_queueInLoop]
      apply Books.setLoop
      refine Books.of_post (Nat.succ_pos _) rfl hmade' hbalanced hplace' h.books.inOrder ?_
      intro g hg d hd heq
      rw [hd] at hg
      exact ((hplace _ _ hg).2 d rfl).1 (ServerTask.connectEstablished.inj heq).symm
    · apply hfits.setLoop
      apply (hfits _).queueInLoop
      · intro d hd
        cases hd
      · intro _ _
        exact hl
      · intro d hd
        cases hd

/-- The server goes into a later phase. -/
theorem Books.phase {q : LoopId n → List ServerTask} (h : s.Books q out) {p : ServerPhase}
    {connections : List TcpConnId} (hp : p ≠ .alive)
    (hheld : p.held connections = s.phase.held s.connections)
    (hmap : p.hasMap = true → s.phase.hasMap = true ∧ connections = s.connections) :
    { s with phase := p, connections := connections }.Books q out := by
  refine ⟨h.counted, ?_, h.place, h.inOrder⟩
  intro d
  have hd := h.balanced d
  constructor
  · exact hd.accepted
  · show (p.held connections).count d + _ + _ = _
    rw [hheld]
    exact hd.once
  · exact hd.establishing
  · exact fun halive => absurd halive hp
  · exact fun halive => absurd halive hp
  · intro hp'
    obtain ⟨hp',hconnections⟩ := hmap hp'
    show connections.count d + _ = _
    rw [hconnections]
    exact hd.mapped hp'
  · exact fun halive => absurd halive hp
  · exact hd.channel
  · exact hd.gone

theorem keeps_destroy (h : s.Invariant out) (halive : s.phase = .alive)
    (hbase : (s.loops .base).phase = .exited ∨ ∀ c, .removeConnectionInLoop c ∉ s.queue .base) :
    ({ s with phase := .destructing s.connections }.enter .base .destructor).Invariant out := by
  have hbooks : { s with phase := .destructing s.connections }.Books s.queue out := by
    apply h.books.phase
    · intro hp
      cases hp
    · rw [halive]
      rfl
    · intro _
      rw [halive]
      exact ⟨rfl, rfl⟩
  have hfits : { s with phase := .destructing s.connections }.AllFit := by
    intro l
    apply (h.fits l).phase
    · intro hp
      rw [halive] at hp
      rcases hp with hp | hp
      · cases hp
      · cases hp
    · intro _ hp
      cases hp
    · rintro rfl _
      exact hbase
  constructor
  · rw [queue_enter]
    apply Books.setLoop
    refine Books.of_putBack hbooks.counted rfl ?_ ?_ hbooks.place hbooks.inOrder ?_
    · intro d hd
      cases hd
    · exact hbooks.balanced
    · intro g _ d hd
      cases hd
  · apply hfits.setLoop
    apply (hfits .base).enter
    · intro hne
      exact absurd rfl hne
    · intro d hd
      cases hd
    · intro d hd
      cases hd
    · intro d hd
      cases hd

theorem keeps_destroyNext (h : s.Invariant out) {rest : List TcpConnId}
    (hphase : s.phase = .destructing rest) (hc : c ∈ rest)
    (hopen : s.ioLoop c = .base → (s.conns c).state ≠ .kDisconnecting) :
    Keeps out ({ s with phase := .destructing (rest.erase c) }.runInLoop c (.connectDestroyed c)) := by
  obtain ⟨hmade,hbalanced⟩ := h.books.handed hphase hc
  have hmade' (d : TcpConnId) (hd : ServerTask.connection (.connectDestroyed c) = some d) :
      { s with phase := .destructing (rest.erase c) }.made d := by
    rw [← Option.some.inj hd]
    exact hmade
  have hfits : { s with phase := .destructing (rest.erase c) }.AllFit := by
    intro l
    apply (h.fits l).phase
    · intro hp
      rw [hphase] at hp
      rcases hp with hp | hp
      · cases hp
      · cases hp
    · intro _ hp
      cases hp
    · intro hl _
      apply (h.fits l).cleared hl
      rw [hphase]
      intro hp
      cases hp
  unfold runInLoop
  by_cases hl : s.ioLoop c = .base
  · rw [if_pos hl]
    refine @keeps_connectDestroyed n { s with phase := .destructing (rest.erase c) } out .base c
      ?_ hfits (hopen hl)
    refine Books.of_putBack h.books.counted hl hmade' hbalanced h.books.place h.books.inOrder ?_
    intro g hg d _ heq
    rw [heq] at hg
    exact (h.fits .base).direct rfl d hg
  · rw [if_neg hl]
    apply Keeps.same
    constructor
    · rw [queue_queueInLoop]
      apply Books.setLoop
      refine Books.of_post h.books.counted rfl hmade' hbalanced h.books.place h.books.inOrder ?_
      intro g _ d _ heq
      cases heq
    · apply hfits.setLoop
      apply (hfits _).queueInLoop
      · intro _ _
        exact hfits.running rfl hl
      · intro d hd
        cases hd
      · intro d hd
        cases hd

theorem keeps_destroyMembers (h : s.Invariant out) (hphase : s.phase = .destructing []) :
    { s with phase := .joining, connections := [] }.Invariant out := by
  constructor
  · apply h.books.phase
    · intro hp
      cases hp
    · rw [hphase]
      rfl
    · intro hp
      cases hp
  · intro l
    apply (h.fits l).phase
    · intro _
      exact Or.inl rfl
    · intro _ hp
      cases hp
    · intro hl _
      apply (h.fits l).cleared hl
      rw [hphase]
      intro hp
      cases hp

theorem tail_of_inDestructor (hd : s.inDestructor = true) :
    (s.loops .base).todo = .destructor :: (s.loops .base).todo.tail := by
  unfold inDestructor at hd
  rw [decide_eq_true_iff] at hd
  exact (List.cons_head?_tail hd).symm

/-- The queues before the task at the front is taken out. -/
theorem queue_of_todo {todo : List ServerTask} (htodo : (s.loops l).todo = f :: todo) :
    s.queue =
      Mailboxes.putBack (s.setLoop l { s.loops l with todo := todo }).queue l f := by
  rw [queue_setLoop, Mailboxes.putBack, Function.update_self, Function.update_idem]
  have hqueue : f :: { s.loops l with todo := todo }.queue = s.queue l := by
    rw [queue, ServerLoop.queue, ServerLoop.queue, htodo]
    rfl
  rw [hqueue, Function.update_eq_self]

/-- A task is taken out to be executed. -/
theorem Invariant.pop (h : s.Invariant out) {todo : List ServerTask}
    (htodo : (s.loops l).todo = f :: todo) :
    (s.setLoop l { s.loops l with todo := todo }).Books
      (Mailboxes.putBack (s.setLoop l { s.loops l with todo := todo }).queue l f) out ∧
    (s.setLoop l { s.loops l with todo := todo }).AllFit := by
  constructor
  · rw [← queue_of_todo htodo]
    exact h.books.setLoop _
  · exact h.fits.setLoop ((h.fits l).pop htodo)

theorem keeps_destroyEnd (h : s.Invariant out) (hphase : s.phase = .joining)
    (hd : s.inDestructor = true) (hexited : ∀ i, (s.loops (.io i)).phase = .exited) :
    ({ s with phase := .destroyed }.setLoop .base
      { s.loops .base with todo := (s.loops .base).todo.tail }).Invariant out := by
  have hpop := h.pop (tail_of_inDestructor hd)
  have hbooks := hpop.1.drop (fun _ _ => rfl)
  have hlater : { s.setLoop .base { s.loops .base with todo := (s.loops .base).todo.tail } with
      phase := .destroyed }.Books
      (s.setLoop .base { s.loops .base with todo := (s.loops .base).todo.tail }).queue out := by
    apply hbooks.phase
    · intro hp
      cases hp
    · show ([] : List TcpConnId) = s.phase.held s.connections
      rw [hphase]
      rfl
    · intro hp
      cases hp
  refine ⟨hlater, ?_⟩
  intro l
  apply (hpop.2 l).phase
  · intro _
    exact Or.inr rfl
  · intro hl _
    cases l with
    | base => exact absurd rfl hl
    | io i => exact hexited i
  · intro hl _
    apply (hpop.2 l).cleared hl
    show s.phase ≠ .alive
    rw [hphase]
    intro hp
    cases hp

theorem phase_setLoop_todo (todo : List ServerTask) (m : LoopId n) :
    ((s.setLoop l { s.loops l with todo := todo }).loops m).phase = (s.loops m).phase := by
  unfold setLoop
  dsimp only
  by_cases hm : m = l
  · rw [hm, Function.update_self]
  · rw [Function.update_of_ne hm]

theorem keeps_call (h : s.Invariant out) {todo : List ServerTask}
    (htodo : (s.loops l).todo = f :: todo) (horderly : s.Orderly (.call l)) :
    Keeps out ((s.setLoop l { s.loops l with todo := todo }).execute l f) := by
  obtain ⟨hbooks,hfits⟩ := h.pop htodo
  have hhome : s.home f = l := hbooks.front.1
  have hne (hl : l ≠ .base) : (s.loops l).phase ≠ .exited := by
    intro hexited
    have hnil := ((h.fits l).exited hl hexited).2
    rw [htodo] at hnil
    cases hnil
  simp only [Orderly, htodo] at horderly
  cases f with
  | connectEstablished c => exact keeps_connectEstablished hbooks hfits
  | connectDestroyed c => exact keeps_connectDestroyed hbooks hfits horderly
  | destructor =>
    apply Keeps.same
    exact ⟨hbooks.drop (fun _ _ => rfl), hfits⟩
  | forceCloseInLoop c =>
    have hinv : (s.setLoop l { s.loops l with todo := todo }).Invariant out :=
      ⟨hbooks.drop (fun _ _ => rfl), hfits⟩
    have hhome : s.ioLoop c = l := hhome
    dsimp only [execute]
    by_cases hopen : ((s.setLoop l { s.loops l with todo := todo }).conns c).isOpen = true
    · rw [if_pos hopen]
      apply keeps_handleClose hinv hopen
      intro hl
      rw [phase_setLoop_todo]
      show (s.loops (s.ioLoop c)).phase ≠ .exited
      rw [hhome]
      apply hne
      rw [← hhome]
      exact hl
    · rw [if_neg hopen]
      exact Keeps.same hinv
  | removeConnectionInLoop c =>
    have hl : l = .base := hhome.symm
    subst hl
    have hbase : (s.loops .base).phase ≠ .exited := by
      intro hexited
      apply (h.fits .base).stopped rfl hexited c
      rw [htodo]
      exact List.mem_cons_self
    have halive : s.phase = .alive := by
      by_contra halive
      apply ((h.fits .base).cleared rfl halive).resolve_left hbase c
      rw [ServerLoop.queue, htodo]
      exact List.mem_cons_self
    apply keeps_removeConnectionInLoop hbooks hfits (Or.inl rfl) halive
    rw [phase_setLoop_todo]
    exact hbase
  | closeCallback c =>
    dsimp only [execute, removeConnection]
    by_cases hl : l = .base
    · rw [if_pos hl] at horderly
      subst hl
      have hphase : (s.setLoop .base { s.loops .base with todo := todo }).phase ≠ .destroyed := by
        show s.phase ≠ .destroyed
        rw [horderly.1]
        decide
      rw [if_neg hphase, if_pos rfl]
      apply keeps_removeConnectionInLoop hbooks hfits (Or.inr rfl) horderly.1
      rw [phase_setLoop_todo]
      exact horderly.2
    · rw [if_neg hl] at horderly
      have hphase : (s.setLoop l { s.loops l with todo := todo }).phase ≠ .destroyed := by
        intro hp
        exact hne hl ((h.fits l).joined hl hp)
      rw [if_neg hphase, if_neg hl]
      apply Keeps.same
      apply keeps_removal_posted hbooks hfits
      rw [phase_setLoop_todo]
      exact horderly

/-- User code that leaves a connection open, or as it is. -/
theorem Invariant.setConn (h : s.Invariant out) (conn : TcpConnection)
    (hconn : conn = s.conns c ∨ (s.conns c).isOpen = true ∧ conn.isOpen = true ∧
      conn.channel.label = (s.conns c).channel.label) : (s.setConn c conn).Invariant out := by
  have hc : { s.tally s.queue out c with conn := conn }.Balanced (s.made c) s.phase := by
    rcases hconn with rfl | ⟨hopen,hopen',hlabel⟩
    · exact h.books.balanced c
    · exact (h.books.balanced c).stays_open hopen hopen' hlabel
  refine ⟨?_, h.fits⟩
  exact Books.setConn h.books.counted conn (fun d _ => h.books.balanced d) hc h.books.place
    h.books.inOrder

theorem keeps_shutdown (h : s.Invariant out) :
    (s.setConn c (s.conns c).shutdown).Invariant out := by
  apply h.setConn
  unfold TcpConnection.shutdown
  by_cases hstate : (s.conns c).state = .kConnected
  · rw [if_pos hstate]
    refine Or.inr ⟨?_, rfl, rfl⟩
    exact (Tally.isOpen_iff _).mpr (Or.inl hstate)
  · rw [if_neg hstate]
    exact Or.inl rfl

theorem keeps_forceClose (h : s.Invariant out) (hopen : (s.conns c).isOpen = true) :
    (s.setConn c (s.conns c).forceClose).Invariant out ∧
      ((s.setConn c (s.conns c).forceClose).conns c).isOpen = true := by
  have hforce : (s.conns c).forceClose = { s.conns c with state := .kDisconnecting } := if_pos hopen
  rw [hforce]
  refine ⟨h.setConn _ (Or.inr ⟨hopen, rfl, rfl⟩), ?_⟩
  show (Function.update s.conns c _ c).isOpen = true
  rw [Function.update_self]
  rfl

/-- `forceClose` on another thread. -/
theorem keeps_forceClose_posted (h : s.Invariant out) (hmade : s.made c) :
    (s.queueInLoop (s.ioLoop c) (.forceCloseInLoop c)).Invariant out := by
  constructor
  · rw [queue_queueInLoop]
    apply Books.setLoop
    refine Books.of_post h.books.counted rfl ?_ h.books.balanced h.books.place h.books.inOrder ?_
    · intro d hd
      rw [← Option.some.inj hd]
      exact hmade
    · intro g _ d _ hd
      cases hd
  · apply h.fits.setLoop
    apply (h.fits _).queueInLoop
    · intro d hd
      cases hd
    · intro d hd
      cases hd
    · intro d hd
      cases hd

/-- A loop goes on with the same tasks. -/
theorem Invariant.setLoop (h : s.Invariant out) {x : ServerLoop} (hx : x.Fits s.phase l)
    (hqueue : x.queue = (s.loops l).queue) : (s.setLoop l x).Invariant out := by
  refine ⟨?_, h.fits.setLoop hx⟩
  have hsame : Function.update s.queue l x.queue = s.queue := by
    rw [hqueue]
    exact Function.update_eq_self l s.queue
  rw [queue_setLoop, hsame]
  exact h.books.setLoop x

theorem handles_iff : s.handles l = true ↔
    (s.loops l).phase = .waiting ∧ (s.loops l).todo = [] := by
  rw [handles, Bool.and_eq_true, decide_eq_true_iff, decide_eq_true_iff]

theorem keeps_swap (h : s.Invariant out) (hhandles : s.handles l = true) :
    (s.setLoop l { s.loops l with
      phase := .running, todo := (s.loops l).pendingFunctors, pendingFunctors := [] }).Invariant out := by
  obtain ⟨hphase,htodo⟩ := handles_iff.mp hhandles
  apply h.setLoop ((h.fits l).swap hphase htodo)
  rw [ServerLoop.queue, ServerLoop.queue, htodo, List.nil_append, List.append_nil]

/-- A thread that calls handlers is still in `loop()`. -/
theorem running_of_handles (hhandles : s.handles l = true) : (s.loops l).phase ≠ .exited := by
  rw [(handles_iff.mp hhandles).1]
  decide

/-- A step that does nothing where it cannot be taken. -/
theorem Keeps.guarded {p : Prop} [Decidable p] {x : Except Fault (ServerLoops n × List ServerRecord)}
    (h : s.Invariant out) (hp : p → Keeps out x) : Keeps out (if p then x else .ok (s, [])) := by
  by_cases hrun : p
  · rw [if_pos hrun]
    exact hp hrun
  · rw [if_neg hrun]
    exact Keeps.same h

/-- The event of `forceClose`, on the thread of the connection's loop and on another one. -/
theorem keeps_forceClose_step (h : s.Invariant out) (inLoopThread : Bool) :
    Keeps out (s.step (.forceClose c inLoopThread)) := by
  apply Keeps.guarded h
  intro hopen
  obtain ⟨hset,hopen'⟩ := keeps_forceClose h hopen
  have hmade : s.made c := (h.books.balanced c).made_of_ne (Tally.isOpen_ne hopen).1
  cases inLoopThread with
  | false => exact Keeps.same (keeps_forceClose_posted hset hmade)
  | true =>
    rw [if_pos rfl]
    apply Keeps.guarded h
    intro huser
    dsimp only [execute]
    rw [if_pos hopen']
    apply keeps_handleClose hset hopen'
    intro hl
    have hl : s.ioLoop c ≠ .base := hl
    rw [inUserCode, if_neg hl, decide_eq_true_iff] at huser
    exact huser

/-- A loop goes through its functors. -/
theorem keeps_call_step (h : s.Invariant out) (horderly : s.Orderly (.call l)) :
    Keeps out (s.step (.call l)) := by
  dsimp only [step]
  split
  · exact Keeps.same h
  · exact Keeps.same h
  · rename_i f todo _ htodo
    exact keeps_call h htodo horderly

theorem keeps_destroyNext_step (h : s.Invariant out) (horderly : s.Orderly (.destroyNext c)) :
    Keeps out (s.step (.destroyNext c)) := by
  dsimp only [step]
  split
  · rename_i rest hphase
    exact Keeps.guarded h (fun hrun => keeps_destroyNext h hphase hrun.1 horderly)
  · exact Keeps.same h

/-- What one step keeps. -/
theorem keeps_step (h : s.Invariant out) (ev : ServerLoopsEvent n) (horderly : s.Orderly ev) :
    Keeps out (s.step ev) := by
  cases ev with
  | newConnection => exact Keeps.guarded h (fun hrun => keeps_newConnection h hrun.1)
  | shutdown c => exact Keeps.same (keeps_shutdown h)
  | forceClose c inLoopThread => exact keeps_forceClose_step h inLoopThread
  | handleClose c =>
    apply Keeps.guarded h
    intro hrun
    have hopen : (s.conns c).isOpen = true := (h.books.balanced c).label_iff.mp hrun.1
    exact keeps_handleClose h hopen (fun _ => running_of_handles hrun.2)
  | swap l => exact Keeps.guarded h (fun hrun => Keeps.same (keeps_swap h hrun))
  | call l => exact keeps_call_step h horderly
  | test l =>
    apply Keeps.guarded h
    intro hrun
    exact Keeps.same (h.setLoop ((h.fits l).test hrun.1 hrun.2 horderly) rfl)
  | quit l =>
    apply Keeps.guarded h
    intro hrun
    exact Keeps.same (h.setLoop ((h.fits l).quit hrun) rfl)
  | destroy => exact Keeps.guarded h (fun halive => Keeps.same (keeps_destroy h halive horderly))
  | destroyNext c => exact keeps_destroyNext_step h horderly
  | destroyMembers => exact Keeps.guarded h (fun hrun => Keeps.same (keeps_destroyMembers h hrun.1))
  | destroyEnd =>
    apply Keeps.guarded h
    intro hrun
    exact Keeps.same (keeps_destroyEnd h hrun.1 hrun.2.1 hrun.2.2)

theorem invariant_new (n : ℕ) (hasWriteComplete : Bool) :
    (new n hasWriteComplete).Invariant [] := by
  have hqueue (l : LoopId n) : (new n hasWriteComplete).queue l = [] := rfl
  have hmade (c : TcpConnId) : ¬ (new n hasWriteComplete).made c := by
    intro hc
    exact absurd hc.1 (Nat.not_lt.mpr (Nat.lt_succ_iff.mp hc.2))
  constructor
  · refine ⟨Nat.one_pos, ?_, ?_, ?_⟩
    · intro c
      constructor
      · exact ⟨fun hc => absurd hc (hmade c), fun _ => ⟨rfl, rfl⟩⟩
      · rfl
      · exact ⟨fun hc => absurd hc.1 (hmade c), fun _ => rfl⟩
      · intro _
        refine ⟨fun hc => ?_, fun _ => rfl⟩
        cases hc.1
      · intro _ hc
        exact absurd hc (hmade c)
      · intro _
        rfl
      · intro _
        rfl
      · rfl
      · intro hd
        exact absurd rfl hd
    · intro l f hf
      rw [hqueue] at hf
      cases hf
    · intro l
      exact List.Pairwise.nil
  · intro l
    constructor
    · intro _ hq
      cases hq
    · intro _ hexited
      cases hexited
    · intro hexited
      cases hexited
    · intro _ hp
      cases hp
    · intro _ c hc
      cases hc
    · intro _ hp
      exact absurd rfl hp
    · intro _ hexited
      cases hexited

end Execution

/-- In a run whose steps are orderly no assertion fails and the destroyed server is not used.
`_connections` holds what has been accepted and not removed, and `connectDestroyed` of an accepted
connection is still to be posted, or waits in its loop, or has been executed, once in all. -/
theorem connections_accounted (n : ℕ) (hasWriteComplete : Bool) (evs : List (ServerLoopsEvent n))
    (h : Runs.Along step Orderly (new n hasWriteComplete) evs) :
    ∃ s out, run (new n hasWriteComplete) evs = .ok (s, out) ∧
      (s.phase.hasMap = true → s.connections.Nodup ∧
        ∀ c, c ∈ s.connections ↔ .accepted c ∈ out ∧ .removed c ∉ out) ∧
      (∀ c, .accepted c ∈ out →
        (s.phase.held s.connections).count c + (s.queue (s.ioLoop c)).count (.connectDestroyed c) +
          out.count (.destroyed c) = 1) ∧
      (∀ l, (s.loops l).phase = .exited → ∀ c, .connectDestroyed c ∉ s.queue l) ∧
      (s.phase = .destroyed → ∀ c, .accepted c ∈ out →
        out.count (.destroyed c) + (s.queue .base).count (.connectDestroyed c) = 1) := by
  have hstep (s : ServerLoops n) (ev : ServerLoopsEvent n) (_ : List (ServerLoopsEvent n))
      (acc : List ServerRecord) (hs : s.Invariant acc) (hev : s.Orderly ev) :
      ∃ s' out, s.step ev = .ok (s', out) ∧ s'.Invariant (acc ++ out) := keeps_step hs ev hev
  obtain ⟨s,out,hrun,hinv⟩ := @Runs.run_along _ _ _ _ step Orderly (fun s _ out => s.Invariant out)
    hstep _ _ [] (invariant_new n hasWriteComplete) h
  rw [List.nil_append] at hinv
  have haccepted (c : TcpConnId) : out.count (.accepted c) ≤ 1 := by
    by_cases hmade : s.made c
    · exact le_of_eq ((hinv.books.balanced c).accepted.1 hmade)
    · exact le_of_eq_of_le ((hinv.books.balanced c).accepted.2 hmade).1 (Nat.zero_le 1)
  have honce (c : TcpConnId) (hc : .accepted c ∈ out) :
      (s.phase.held s.connections).count c + (s.queue (s.ioLoop c)).count (.connectDestroyed c) +
        out.count (.destroyed c) = 1 := by
    have hpos := List.count_pos_iff.mpr hc
    have hle := haccepted c
    have hsum := (hinv.books.balanced c).once
    exact hsum.trans (le_antisymm hle hpos)
  refine ⟨s, out, hrun, ?_, honce, fun l hl => (hinv.fits l).left hl, ?_⟩
  · intro hmap
    have hmapped (c : TcpConnId) :
        s.connections.count c + out.count (.removed c) = out.count (.accepted c) :=
      (hinv.books.balanced c).mapped hmap
    refine ⟨List.nodup_iff_count_le_one.mpr (fun c => ?_), fun c => ?_⟩
    · have h1 := hmapped c
      have h2 := haccepted c
      omega
    · have h1 := hmapped c
      have h2 := haccepted c
      rw [← List.count_pos_iff, ← List.count_pos_iff, ← List.count_eq_zero]
      omega
  · intro hdestroyed c hc
    have hsum := honce c hc
    rw [hdestroyed] at hsum
    by_cases hl : s.ioLoop c = .base
    · rw [hl] at hsum
      have hsum : 0 + (s.queue .base).count (.connectDestroyed c) + out.count (.destroyed c) = 1 := hsum
      omega
    · -- the thread of the connection has been joined, and no task is left in its queue
      have hexited := (hinv.fits (s.ioLoop c)).joined hl hdestroyed
      have hnone : (s.queue (s.ioLoop c)).count (.connectDestroyed c) = 0 :=
        List.count_eq_zero.mpr ((hinv.fits _).left hexited c)
      have hbase : (s.queue .base).count (.connectDestroyed c) = 0 := by
        apply List.count_eq_zero.mpr
        intro hmem
        exact hl (hinv.books.place .base _ hmem).1
      have hsum : 0 + (s.queue (s.ioLoop c)).count (.connectDestroyed c) +
        out.count (.destroyed c) = 1 := hsum
      omega

/-- One connection is closed by its peer and removed, and another is open when the server goes. -/
theorem connections_accounted_two : ∃ (s : ServerLoops 1) (out : List ServerRecord),
    run (new 1 false)
      [.newConnection, .swap (.io 0), .call (.io 0), .test (.io 0), .handleClose 1, .call (.io 0),
        .newConnection, .swap .base, .call .base, .swap (.io 0), .call (.io 0), .call (.io 0),
        .test (.io 0), .destroy, .destroyNext 2, .destroyMembers, .quit (.io 0), .swap (.io 0),
        .call (.io 0), .test (.io 0), .destroyEnd] = .ok (s, out) ∧
      s.phase = .destroyed ∧ ∀ c, .accepted c ∈ out →
        out.count (.destroyed c) + (s.queue .base).count (.connectDestroyed c) = 1 := by
  have horderly : Runs.Along step Orderly (new 1 false)
      [.newConnection, .swap (.io 0), .call (.io 0), .test (.io 0), .handleClose 1, .call (.io 0),
        .newConnection, .swap .base, .call .base, .swap (.io 0), .call (.io 0), .call (.io 0),
        .test (.io 0), .destroy, .destroyNext 2, .destroyMembers, .quit (.io 0), .swap (.io 0),
        .call (.io 0), .test (.io 0), .destroyEnd] := by
    refine Runs.along_cons trivial rfl ?_
    refine Runs.along_cons trivial rfl ?_
    refine Runs.along_cons trivial rfl ?_
    refine Runs.along_cons (fun h => by cases h) rfl ?_
    refine Runs.along_cons trivial rfl ?_
    refine Runs.along_cons (Or.inl rfl) rfl ?_
    refine Runs.along_cons trivial rfl ?_
    refine Runs.along_cons trivial rfl ?_
    refine Runs.along_cons trivial rfl ?_
    refine Runs.along_cons trivial rfl ?_
    refine Runs.along_cons trivial rfl ?_
    refine Runs.along_cons (fun h => by cases h) rfl ?_
    refine Runs.along_cons (fun h => by cases h) rfl ?_
    refine Runs.along_cons (Or.inr (fun c hc => by cases hc)) rfl ?_
    refine Runs.along_cons (fun h => by cases h) rfl ?_
    refine Runs.along_cons trivial rfl ?_
    refine Runs.along_cons trivial rfl ?_
    refine Runs.along_cons trivial rfl ?_
    refine Runs.along_cons (fun h => by cases h) rfl ?_
    refine Runs.along_cons (fun _ c hc => by cases hc) rfl ?_
    exact Runs.along_cons trivial rfl trivial
  obtain ⟨s,out,hrun,_,_,_,hdestroyed⟩ := connections_accounted 1 false _ horderly
  have hphase : s.phase = .destroyed := by
    have hmap := congrArg (fun r => r.map (fun x => x.1.phase)) hrun
    exact (Except.ok.inj hmap).symm
  exact ⟨s, out, hrun, hphase, hdestroyed hphase⟩

/-- `~TcpServer` at the wrong moment. A removal that waits on the server's own loop then runs on the
destroyed server, a half closed connection fails the assertion of `Channel::remove`, and a
`connectDestroyed` that is posted during the last round of an I/O loop is never executed. -/
theorem connections_accounted_fails :
    run (new 1 false)
      [.newConnection, .swap (.io 0), .call (.io 0), .test (.io 0), .handleClose 1, .call (.io 0),
        .destroy, .destroyNext 1, .destroyMembers, .swap (.io 0), .call (.io 0), .quit (.io 0),
        .test (.io 0), .destroyEnd, .swap .base, .call .base] = .error .danglingPointer ∧
    run (new 1 false)
      [.newConnection, .swap (.io 0), .call (.io 0), .shutdown 1, .destroy, .destroyNext 1,
        .destroyMembers, .test (.io 0), .swap (.io 0), .call (.io 0)] = .error .assertFailed ∧
    ∃ (s : ServerLoops 1) (out : List ServerRecord), run (new 1 false)
      [.newConnection, .swap (.io 0), .call (.io 0), .destroy, .destroyNext 1, .destroyMembers,
        .quit (.io 0), .test (.io 0), .destroyEnd] = .ok (s, out) ∧
      s.phase = .destroyed ∧ (s.loops (.io 0)).phase = .exited ∧ out = [.accepted 1] ∧
      s.queue (.io 0) = [.connectDestroyed 1] :=
  ⟨rfl, rfl, _, _, rfl, rfl, rfl, rfl, rfl⟩

end ServerLoops

end IdealServer
