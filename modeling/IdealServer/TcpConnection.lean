import IdealServer.Buffer

/-! `TcpConnection` and its `Channel`, as the loop thread runs them. What the kernel answers is an
argument, and what leaves the object is returned as a list of effects: bytes that the kernel has
taken, functors that are queued and callbacks that are called. The input buffer belongs to the
message callback and is left out. -/
namespace IdealServer

/-- `Channel::_label`: what the poller knows of a channel. -/
inductive PollerLabel
  | kNew
  | kAdded
  | kDeleted
deriving DecidableEq, Repr

/-- `_events` is a union of `kReadEvent` and `kWriteEvent`. -/
structure Channel where
  reading : Bool
  writing : Bool
  addedToLoop : Bool
  label : PollerLabel
deriving DecidableEq, Repr

namespace Channel

def new : Channel := ⟨false, false, false, .kNew⟩

def isNoneEvent (ch : Channel) : Bool := !ch.reading && !ch.writing
def isWriting (ch : Channel) : Bool := ch.writing
def isReading (ch : Channel) : Bool := ch.reading

/-- `Channel::update` and `EpollPoller::updateChannel`. A channel that is not in the set is added to
it, whatever its events are. -/
def update (ch : Channel) : Channel :=
  { ch with
    addedToLoop := true
    label :=
      match ch.label with
      | .kNew | .kDeleted => .kAdded
      | .kAdded => if ch.isNoneEvent then .kDeleted else .kAdded }

def enableReading (ch : Channel) : Channel := { ch with reading := true }.update
def disableReading (ch : Channel) : Channel := { ch with reading := false }.update
def enableWriting (ch : Channel) : Channel := { ch with writing := true }.update
def disableWriting (ch : Channel) : Channel := { ch with writing := false }.update
def disableAll (ch : Channel) : Channel := { ch with reading := false, writing := false }.update

/-- `Channel::remove` and `EpollPoller::removeChannel` -/
def remove (ch : Channel) : Except Fault Channel :=
  if ch.isNoneEvent && ch.label ≠ .kNew then
    .ok { ch with addedToLoop := false, label := .kNew }
  else .error .assertFailed

@[simp] theorem update_reading (ch : Channel) : ch.update.reading = ch.reading := rfl
@[simp] theorem update_writing (ch : Channel) : ch.update.writing = ch.writing := rfl

theorem update_label (ch : Channel) : ch.update.label ≠ .kNew := by
  unfold update
  dsimp only
  split
  · simp
  · simp
  · split <;> simp

end Channel

inductive TcpState
  | kDisconnected
  | kConnecting
  | kConnected
  | kDisconnecting
deriving DecidableEq, Repr

/-- `errno` values that `sendInLoop` looks at. -/
def EWOULDBLOCK : ℤ := 11
def EPIPE : ℤ := 32
def ECONNRESET : ℤ := 104

/-- What `write(2)` does: it takes at most `n` bytes of those it is given, or fails. -/
inductive SysWrite
  | wrote (n : ℕ)
  | failed (errno : ℤ)
deriving DecidableEq, Repr

/-- What `readFd` returns: a positive count, the end of the stream, or an error. -/
inductive SysRead
  | data
  | eof
  | failed (errno : ℤ)
deriving DecidableEq, Repr

inductive TcpEffect
  /-- The kernel takes the bytes. -/
  | written (bytes : Bytes)
  | shutdownWrite
  /-- The callback is queued. -/
  | writeCompleteCallback
  | highWaterMarkCallback (len : ℕ)
  /-- The callback is called. -/
  | connectionCallback
  | messageCallback
  | closeCallback
deriving DecidableEq, Repr

structure TcpConnection where
  state : TcpState
  /-- `_reading` -/
  reading : Bool
  channel : Channel
  outputBuffer : Buffer
  highWaterMark : ℕ
  /-- Whether the callbacks that can be missing are set. -/
  hasWriteComplete : Bool
  hasHighWaterMark : Bool

namespace TcpConnection

def new (highWaterMark : ℕ) (hasWriteComplete hasHighWaterMark : Bool) : TcpConnection :=
  ⟨.kConnecting, true, Channel.new, Buffer.new, highWaterMark, hasWriteComplete, hasHighWaterMark⟩

def connectEstablished (c : TcpConnection) : Except Fault (TcpConnection × List TcpEffect) :=
  if c.state = .kConnecting then
    .ok ({ c with state := .kConnected, channel := c.channel.enableReading }, [.connectionCallback])
  else .error .assertFailed

/-- What the assertion in `handleClose` and the tests in `forceClose` ask for. -/
def isOpen (c : TcpConnection) : Bool := c.state = .kConnected || c.state = .kDisconnecting

def handleClose (c : TcpConnection) : Except Fault (TcpConnection × List TcpEffect) :=
  if c.isOpen then
    .ok ({ c with state := .kDisconnected, channel := c.channel.disableAll },
      [.connectionCallback, .closeCallback])
  else .error .assertFailed

def handleRead (c : TcpConnection) : SysRead → Except Fault (TcpConnection × List TcpEffect)
  | .data => .ok (c, [.messageCallback])
  | .eof => c.handleClose
  | .failed _ => .ok (c, [])

/-- `shutdown` up to its `runInLoop`. -/
def shutdown (c : TcpConnection) : TcpConnection :=
  if c.state = .kConnected then { c with state := .kDisconnecting } else c

/-- `forceClose` and `forceCloseWithDelay` up to their `runInLoop`. -/
def forceClose (c : TcpConnection) : TcpConnection :=
  if c.isOpen then { c with state := .kDisconnecting } else c

def shutdownInLoop (c : TcpConnection) : List TcpEffect :=
  if c.channel.isWriting then [] else [.shutdownWrite]

def writeComplete (c : TcpConnection) : List TcpEffect :=
  if c.hasWriteComplete then [.writeCompleteCallback] else []

def handleWrite (c : TcpConnection) (w : SysWrite) :
    Except Fault (TcpConnection × List TcpEffect) :=
  if c.channel.isWriting then
    match w with
    | .failed _ => .ok (c, [])
    | .wrote k =>
      let n := min k c.outputBuffer.readableBytes
      if 0 < n then do
        let bytes := c.outputBuffer.readable.take n
        let outputBuffer ← c.outputBuffer.retrieve n
        let c := { c with outputBuffer := outputBuffer }
        if outputBuffer.readableBytes = 0 then
          let c := { c with channel := c.channel.disableWriting }
          return (c, .written bytes ::
            (c.writeComplete ++ if c.state = .kDisconnecting then c.shutdownInLoop else []))
        else return (c, [.written bytes])
      else .ok (c, [])
  else .ok (c, [])

/-- What the direct write of `sendInLoop` leaves: the number of bytes written, `faultError` and the
effects. -/
def directWrite (c : TcpConnection) (message : Bytes) : SysWrite → ℕ × Bool × List TcpEffect
  | .wrote k =>
    let nwrote := min k message.length
    (nwrote, false, [.written (message.take nwrote)] ++
      if message.length-nwrote = 0 then c.writeComplete else [])
  | .failed errno => (0, errno ≠ EWOULDBLOCK && (errno = EPIPE || errno = ECONNRESET), [])

/-- The end of `sendInLoop`, with what is left of the message. -/
def bufferRest (c : TcpConnection) (rest : Bytes) :
    Except Fault (TcpConnection × List TcpEffect) := do
  let oldlen := c.outputBuffer.readableBytes
  let effects :=
    if c.highWaterMark ≤ oldlen+rest.length ∧ oldlen < c.highWaterMark ∧ c.hasHighWaterMark then
      [TcpEffect.highWaterMarkCallback (oldlen+rest.length)]
    else []
  let outputBuffer ← c.outputBuffer.append rest
  let channel := if c.channel.isWriting then c.channel else c.channel.enableWriting
  return ({ c with outputBuffer := outputBuffer, channel := channel }, effects)

/-- Nothing waits, so a message is written directly. -/
def isIdle (c : TcpConnection) : Bool :=
  !c.channel.isWriting && c.outputBuffer.readableBytes = 0

def sendInLoop (c : TcpConnection) (message : Bytes) (w : SysWrite) :
    Except Fault (TcpConnection × List TcpEffect) :=
  if c.state = .kDisconnected then .ok (c, [])
  else
    let (nwrote, faultError, effects) :=
      if c.isIdle then c.directWrite message w else (0, false, [])
    let rest := message.drop nwrote
    if !faultError && 0 < rest.length then do
      let (c, marks) ← c.bufferRest rest
      return (c, effects ++ marks)
    else .ok (c, effects)

def startReadInLoop (c : TcpConnection) : TcpConnection :=
  if !c.reading || !c.channel.isReading then
    { c with channel := c.channel.enableReading, reading := true }
  else c

def stopReadInLoop (c : TcpConnection) : TcpConnection :=
  if c.reading || c.channel.isReading then
    { c with channel := c.channel.disableReading, reading := false }
  else c

def forceCloseInLoop (c : TcpConnection) : Except Fault (TcpConnection × List TcpEffect) :=
  if c.isOpen then c.handleClose else .ok (c, [])

/-- The callback runs before the channel is removed. -/
def connectDestroyed (c : TcpConnection) : Except Fault (TcpConnection × List TcpEffect) := do
  let (c, effects) :=
    if c.state = .kConnected then
      ({ c with state := .kDisconnected, channel := c.channel.disableAll },
        [TcpEffect.connectionCallback])
    else (c, [])
  let channel ← c.channel.remove
  return ({ c with channel := channel }, effects)

end TcpConnection

end IdealServer
