import IdealServer.Runs
import IdealServer.TcpConnection
import IdealServer.TimerQueue

/-! A `Connector`, together with what its loop holds for it: the functors and the retry timers that
are bound to it. Every handler of the loop thread is one step. -/
namespace IdealServer

/-- `errno` values that `connect` tells apart. -/
def EINTR : ℤ := 4
def EAGAIN : ℤ := 11
def EADDRINUSE : ℤ := 98
def EADDRNOTAVAIL : ℤ := 99
def ENETUNREACH : ℤ := 101
def EISCONN : ℤ := 106
def ECONNREFUSED : ℤ := 111
def EINPROGRESS : ℤ := 115

inductive ConnectorState
  | kDisconnected
  | kConnecting
  | kConnected
deriving DecidableEq, Repr

/-- The assertions of the class, and what else can go wrong with it. -/
inductive ConnectorFault
  /-- `_state == kDisconnected` in `startInLoop` -/
  | startInLoop
  /-- `!_channel` in `connecting` -/
  | connecting
  /-- `_state == kDisconnected` in `handleWrite` -/
  | handleWrite
  /-- `!_channel` in the destructor -/
  | destructor
  /-- A callback runs after the destructor. -/
  | danglingPointer
  /-- `_channel` is null, or asserts something of itself. -/
  | channel (fault : Fault)
deriving DecidableEq, Repr

/-- `_channel`. The descriptor is the number of its `createNonblockingOrDie`. -/
structure ConnectingChannel where
  fd : ℕ
  channel : Channel
deriving DecidableEq, Repr

inductive ConnectorFunctor
  | startInLoop
  | stopInLoop
  | resetChannel
deriving DecidableEq, Repr

inductive ConnectorObs
  | created (fd : ℕ)
  /-- `_newConnectionCallback` is called with it. -/
  | handed (fd : ℕ)
  | closed (fd : ℕ)
deriving DecidableEq, Repr

structure Connector where
  /-- `_connect` -/
  wanted : Bool
  state : ConnectorState
  channel : Option ConnectingChannel
  retryDelayMs : ℕ
  /-- What is queued in the loop. -/
  pendingFunctors : List ConnectorFunctor
  /-- When the calls of `startInLoop` that `retry` has asked for are due. -/
  timers : List Timestamp
  /-- How many descriptors `connect` has created. -/
  sockets : ℕ
  /-- `Timestamp::now` -/
  now : Timestamp
deriving DecidableEq, Repr

def kMaxRetryDelayMs : ℕ := 30*1000
def kInitRetryDelayMs : ℕ := 500

/-- `addTime` on a clock that is far from the end of `int64_t`. -/
def dueAfter (now : Timestamp) (microseconds : ℕ) : Timestamp := now+microseconds

namespace Connector

def new (now : Timestamp) : Connector := ⟨false, .kDisconnected, none, kInitRetryDelayMs, [], [], 0, now⟩

def queueInLoop (s : Connector) (f : ConnectorFunctor) : Connector :=
  { s with pendingFunctors := s.pendingFunctors ++ [f] }

/-- The delays are whole milliseconds, so that their seconds are exact. -/
def runAfter (s : Connector) (ms : ℕ) : Connector :=
  { s with timers := s.timers ++ [dueAfter s.now (ms*1000)] }

def retry (s : Connector) (sockfd : ℕ) : Connector × List ConnectorObs :=
  let s := { s with state := .kDisconnected }
  if s.wanted then
    ({ s.runAfter s.retryDelayMs with retryDelayMs := min (s.retryDelayMs*2) kMaxRetryDelayMs },
      [.closed sockfd])
  else (s, [.closed sockfd])

def connecting (s : Connector) (sockfd : ℕ) : Except ConnectorFault Connector :=
  if s.channel = none then
    .ok { s with state := .kConnecting, channel := some ⟨sockfd, Channel.new.enableWriting⟩ }
  else .error .connecting

/-- The fatal errors and the others close the socket alike. -/
def connect (s : Connector) (savedErrno : ℤ) : Except ConnectorFault (Connector × List ConnectorObs) :=
  let sockfd := s.sockets
  let s := { s with sockets := s.sockets+1 }
  if savedErrno ∈ [0, EINPROGRESS, EINTR, EISCONN] then
    (s.connecting sockfd).map (fun s => (s, [.created sockfd]))
  else if savedErrno ∈ [EAGAIN, EADDRINUSE, EADDRNOTAVAIL, ECONNREFUSED, ENETUNREACH] then
    .ok ((s.retry sockfd).1, .created sockfd :: (s.retry sockfd).2)
  else .ok (s, [.created sockfd, .closed sockfd])

def startInLoop (s : Connector) (errno : ℤ) : Except ConnectorFault (Connector × List ConnectorObs) :=
  if s.state = .kDisconnected then
    if s.wanted then s.connect errno else .ok (s, [])
  else .error .startInLoop

/-- A thread other than that of the loop queues `startInLoop`. -/
def start (s : Connector) (inLoop : Bool) (errno : ℤ) :
    Except ConnectorFault (Connector × List ConnectorObs) :=
  let s := { s with wanted := true }
  if inLoop then s.startInLoop errno else .ok (s.queueInLoop .startInLoop, [])

def restart (s : Connector) (errno : ℤ) : Except ConnectorFault (Connector × List ConnectorObs) :=
  { s with state := .kDisconnected, retryDelayMs := kInitRetryDelayMs, wanted := true }.startInLoop errno

def stop (s : Connector) : Connector := { s with wanted := false }.queueInLoop .stopInLoop

def removeAndResetChannel (s : Connector) : Except ConnectorFault (Connector × ℕ) :=
  match s.channel with
  | none => .error (.channel .nullPointer)
  | some c =>
    match c.channel.disableAll.remove with
    | .error fault => .error (.channel fault)
    | .ok channel => .ok ({ s with channel := some ⟨c.fd, channel⟩ }.queueInLoop .resetChannel, c.fd)

/-- The destructor of `Channel` asserts that the loop does not have it. -/
def resetChannel (s : Connector) : Except ConnectorFault (Connector × List ConnectorObs) :=
  match s.channel with
  | none => .ok (s, [])
  | some c =>
    if c.channel.addedToLoop then .error (.channel .assertFailed) else .ok ({ s with channel := none }, [])

def stopInLoop (s : Connector) : Except ConnectorFault (Connector × List ConnectorObs) :=
  if s.state = .kConnecting then
    let s := { s with state := .kDisconnected }
    s.removeAndResetChannel.map (fun r => r.1.retry r.2)
  else .ok (s, [])

/-- What `handleWrite` does with a connected descriptor. -/
def connected (s : Connector) (sockfd : ℕ) : Connector × List ConnectorObs :=
  ({ s with state := .kConnected }, [if s.wanted then .handed sockfd else .closed sockfd])

def handleWrite (s : Connector) (err : ℤ) (isSelfConnect : Bool) :
    Except ConnectorFault (Connector × List ConnectorObs) :=
  if s.state = .kConnecting then
    s.removeAndResetChannel.map (fun r =>
      if err ≠ 0 then r.1.retry r.2 else if isSelfConnect then r.1.retry r.2 else r.1.connected r.2)
  else if s.state = .kDisconnected then .ok (s, [])
  else .error .handleWrite

def handleError (s : Connector) : Except ConnectorFault (Connector × List ConnectorObs) :=
  if s.state = .kConnecting then s.removeAndResetChannel.map (fun r => r.1.retry r.2) else .ok (s, [])

/-- The channel is in the set of the poller. -/
def registered (s : Connector) : Bool := s.channel.any (fun c => c.channel.label = .kAdded)

/-- `Channel::handleEvent` for events that the poller reports. It reports nothing of a channel that is
not in its set, and no other callbacks are set. -/
def handleEvent (s : Connector) (error write : Bool) (err : ℤ) (isSelfConnect : Bool) :
    Except ConnectorFault (Connector × List ConnectorObs) :=
  if s.registered then
    (if error then s.handleError else .ok (s, [])).bind (fun r =>
      (if write then r.1.handleWrite err isSelfConnect else .ok (r.1, [])).map (fun q =>
        (q.1, r.2 ++ q.2)))
  else .ok (s, [])

def call (s : Connector) (errno : ℤ) :
    ConnectorFunctor → Except ConnectorFault (Connector × List ConnectorObs)
  | .startInLoop => s.startInLoop errno
  | .stopInLoop => s.stopInLoop
  | .resetChannel => s.resetChannel

/-- The loop calls the next functor. -/
def doPendingFunctor (s : Connector) (errno : ℤ) :
    Except ConnectorFault (Connector × List ConnectorObs) :=
  match s.pendingFunctors with
  | [] => .ok (s, [])
  | f :: rest => { s with pendingFunctors := rest }.call errno f

/-- The loop runs a retry timer. -/
def runTimer (s : Connector) (due : Timestamp) (errno : ℤ) :
    Except ConnectorFault (Connector × List ConnectorObs) :=
  if due ∈ s.timers then { s with timers := s.timers.erase due }.startInLoop errno else .ok (s, [])

end Connector

/-- The results of `connect(2)` and `getSocketError` come with the events. -/
inductive ConnectorEvent
  | start (inLoop : Bool) (errno : ℤ)
  | stop
  | restart (errno : ℤ)
  | handleEvent (error write : Bool) (err : ℤ) (isSelfConnect : Bool)
  | functor (errno : ℤ)
  | timer (due : Timestamp) (errno : ℤ)
  | wait (microseconds : ℕ)

namespace Connector

def step (s : Connector) : ConnectorEvent → Except ConnectorFault (Connector × List ConnectorObs)
  | .start inLoop errno => s.start inLoop errno
  | .stop => .ok (s.stop, [])
  | .restart errno => s.restart errno
  | .handleEvent error write err isSelfConnect => s.handleEvent error write err isSelfConnect
  | .functor errno => s.doPendingFunctor errno
  | .timer due errno => s.runTimer due errno
  | .wait microseconds => .ok ({ s with now := dueAfter s.now microseconds }, [])

def run : Connector → List ConnectorEvent → Except ConnectorFault (Connector × List ConnectorObs) :=
  Runs.run step

end Connector

end IdealServer
