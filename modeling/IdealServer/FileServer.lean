import IdealServer.ByteOrder
import IdealServer.OutgoingStream

/-! `download2` and `download3`: the next piece of a file is read and sent when the last one has gone. One
of them closes the file when the connection goes down, the other one leaves that to the context. -/
namespace IdealServer

namespace FileServer

def kBufSize : ℕ := 64*1024
def NAME_MAX : ℕ := 255

/-- What `getContext` holds: an open file and how much of it has been read, or a pointer to one that has been
closed. -/
inductive Context
  | empty
  | file (pos : ℕ)
  | closed
  | null
deriving DecidableEq, Repr

structure State where
  conn : TcpConnection
  context : Context
  file : Bytes
  /-- The functors of `_writeCompleteCallback` that are queued. -/
  queued : ℕ

/-- How a callback can fail to return. -/
inductive Stop
  | fault (e : Fault)
  | badCast

/-- What the programs do with the context when the connection goes down, and at the end of the file. -/
structure Program where
  onDown : Context → Context
  onEnd : Context → Context

def download2 : Program where
  onDown
    | .file _ => .closed
    | c => c
  onEnd _ := .null

def download3 : Program := ⟨id, id⟩

/-- What is behind the last `'/'`. -/
def baseName (path : Bytes) : Bytes := (path.reverse.takeWhile (fun c => c ≠ 47)).reverse

/-- The name and the size in front of the file. `tmp` is what the array holds before `strcpy`. -/
def headerBytes (path tmp : Bytes) (filesize : ℕ) : Bytes :=
  let name := baseName path
  (name ++ 0 :: tmp.drop (name.length+1)).take NAME_MAX ++ ByteOrder.toLE 4 filesize

def fileHeader (path tmp : Bytes) (filesize : ℕ) : Except Fault Bytes :=
  if (baseName path).length < NAME_MAX+4 then .ok (headerBytes path tmp filesize) else .error .arrayOverflow

namespace State

def queue (s : State) (effects : List TcpEffect) : State :=
  { s with queued := s.queued+effects.count .writeCompleteCallback }

def send (s : State) (message : Bytes) (w : SysWrite) : Except Stop (State × List TcpEffect) :=
  if s.conn.state = .kConnected then do
    let (conn, effects) ← (s.conn.sendInLoop message w).mapError .fault
    return ({ s with conn := conn }.queue effects, effects)
  else .ok (s, [])

def shutdown (s : State) : State × List TcpEffect :=
  if s.conn.state = .kConnected then ({ s with conn := s.conn.shutdown }, s.conn.shutdown.shutdownInLoop)
  else (s, [])

/-- `onConnection` on a new connection; `opened` is the file, if there is one. -/
def onConnection (path tmp : Bytes) (opened : Option Bytes) (w : SysWrite) : Except Stop (State × List TcpEffect) :=
  let conn := TcpConnection.established (kBufSize+1) true true
  match opened with
  | some file => do
    let header ← (fileHeader path tmp file.length).mapError .fault
    send ⟨conn, .file 0, file, 0⟩ header w
  | none => .ok (shutdown ⟨conn, .empty, [], 0⟩)

def onWriteComplete (p : Program) (s : State) (w : SysWrite) : Except Stop (State × List TcpEffect) :=
  match s.context with
  | .file pos =>
    let buf := (s.file.drop pos).take kBufSize
    if 0 < buf.length then { s with context := .file (pos+buf.length) }.send buf w
    else .ok { s with context := p.onEnd s.context }.shutdown
  | .closed => .error (.fault .danglingPointer)
  | .null => .error (.fault .nullPointer)
  | .empty => .error .badCast

end State

/-- What the loop calls: the handlers of the channel, and a functor. -/
inductive Event
  | writable (w : SysWrite)
  | readable (r : SysRead)
  | hangup
  | writeComplete (w : SysWrite)

/-- Behind a handler of the channel. -/
def State.handled (p : Program) (s : State) (r : Except Fault (TcpConnection × List TcpEffect)) :
    Except Stop (State × List TcpEffect) := do
  let (conn, effects) ← r.mapError .fault
  let context := if .connectionCallback ∈ effects then p.onDown s.context else s.context
  return ({ s with conn := conn, context := context }.queue effects, effects)

/-- The poller reports what the channel is interested in, and a hangup as long as the channel is in the set. -/
def step (p : Program) (s : State) : Event → Except Stop (State × List TcpEffect)
  | .writable w => s.handled p (s.conn.handleWrite w)
  | .readable r => if s.conn.channel.isReading then s.handled p (s.conn.handleRead r) else .ok (s, [])
  | .hangup => if s.conn.channel.isNoneEvent then .ok (s, []) else s.handled p s.conn.handleClose
  | .writeComplete w => if 0 < s.queued then { s with queued := s.queued-1 }.onWriteComplete p w else .ok (s, [])

/-- A write that makes `sendInLoop` drop its message. -/
def Breaks (w : SysWrite) : Prop := w = .failed EPIPE ∨ w = .failed ECONNRESET

/-- A connection that can send, with the callbacks that the programs set. -/
structure Ready (c : TcpConnection) : Prop where
  state : c.state = .kConnected
  reading : c.channel.reading = true
  highWaterMark : c.highWaterMark = kBufSize+1
  hasWriteComplete : c.hasWriteComplete = true

section Send
variable {c : TcpConnection} {message : Bytes}

/-- What becomes of a message when nothing waits. -/
theorem sendInLoop_idle (hc : Ready c) (hwriting : c.channel.writing = false)
    (hempty : c.outputBuffer.readable = []) (hne : message ≠ []) (hlen : message.length ≤ kBufSize) (w : SysWrite) :
    c.sendInLoop message w = .ok (c, [.written message, .writeCompleteCallback]) ∨
      (c.sendInLoop message w = .ok (c, []) ∧ Breaks w) ∨
      ∃ c' bytes rest effects, c.sendInLoop message w = .ok (c', effects) ∧ Ready c' ∧ c'.channel.writing = true ∧
        c'.outputBuffer.readable = rest ∧ rest ≠ [] ∧ message = bytes ++ rest ∧
        (effects = [.written bytes] ∨ effects = [] ∧ bytes = []) := by
  have hzero : c.outputBuffer.readableBytes = 0 := by
    rw [← Buffer.length_readable, hempty]
    rfl
  have hidle : c.isIdle = true := by
    rw [TcpConnection.isIdle, Channel.isWriting, hwriting, hzero]
    rfl
  have hopen : ¬ c.state = .kDisconnected := by
    rw [hc.state]
    decide
  -- a rest waits, and it is below the mark
  have hrest (bytes rest : Bytes) (first : List TcpEffect) (hmessage : message = bytes ++ rest) (hpos : rest ≠ []) :
      ∃ c', (c.bufferRest rest).bind (fun r => .ok (r.1, first ++ r.2)) = .ok (c', first) ∧ Ready c' ∧
        c'.channel.writing = true ∧ c'.outputBuffer.readable = rest := by
    obtain ⟨buf,happend,hread⟩ := c.outputBuffer.append_ok rest
    have hbelow : ¬ (c.highWaterMark ≤ c.outputBuffer.readableBytes+rest.length ∧
        c.outputBuffer.readableBytes < c.highWaterMark ∧ c.hasHighWaterMark) := by
      rintro ⟨hmark,_⟩
      rw [hmessage, List.length_append] at hlen
      rw [hc.highWaterMark, hzero] at hmark
      omega
    refine ⟨{ c with outputBuffer := buf, channel := c.channel.enableWriting }, ?_,
      ⟨hc.state, hc.reading, hc.highWaterMark, hc.hasWriteComplete⟩, rfl, ?_⟩
    · rw [TcpConnection.bufferRest, happend]
      dsimp only
      rw [if_neg hbelow]
      simp only [Channel.isWriting, hwriting, bind, Except.bind, pure, Except.pure, Bool.false_eq_true, if_false,
        List.append_nil]
    · rw [hread, hempty]
      rfl
  have hsend {nwrote : ℕ} {first : List TcpEffect} (hdirect : c.directWrite message w = (nwrote, false, first))
      (hmore : 0 < (message.drop nwrote).length) : c.sendInLoop message w =
        (c.bufferRest (message.drop nwrote)).bind (fun r => .ok (r.1, first ++ r.2)) := by
    rw [TcpConnection.sendInLoop, if_neg hopen, if_pos hidle, hdirect]
    dsimp only
    rw [if_pos (by rw [decide_eq_true hmore]; rfl)]
    rfl
  cases w with
  | wrote k =>
    by_cases hall : message.length ≤ k
    · left
      have hdirect : c.directWrite message (.wrote k) =
          (message.length, false, [.written message, .writeCompleteCallback]) := by
        simp only [TcpConnection.directWrite, Nat.min_eq_right hall, List.take_length, Nat.sub_self, if_true,
          TcpConnection.writeComplete, hc.hasWriteComplete, List.singleton_append]
      rw [TcpConnection.sendInLoop, if_neg hopen, if_pos hidle, hdirect]
      dsimp only
      rw [List.drop_length]
      rfl
    · right
      right
      have hmin : min k message.length = k := Nat.min_eq_left (Nat.le_of_not_le hall)
      have hdirect : c.directWrite message (.wrote k) = (k, false, [.written (message.take k)]) := by
        rw [TcpConnection.directWrite, hmin, if_neg (by omega), List.append_nil]
      have hmore : 0 < (message.drop k).length := by
        rw [List.length_drop]
        omega
      have hpos : message.drop k ≠ [] := List.length_pos_iff.mp hmore
      obtain ⟨c',hbuffer,hready,hon,hread⟩ :=
        hrest (message.take k) (message.drop k) [.written (message.take k)] (List.take_append_drop k message).symm hpos
      exact ⟨c', message.take k, _, _, (hsend hdirect hmore).trans hbuffer, hready, hon, hread, hpos,
        (List.take_append_drop k message).symm, Or.inl rfl⟩
  | failed errno =>
    right
    by_cases hbreaks : errno = EPIPE ∨ errno = ECONNRESET
    · left
      refine ⟨?_, hbreaks.imp (congrArg SysWrite.failed) (congrArg SysWrite.failed)⟩
      have hdirect : c.directWrite message (.failed errno) = (0, true, []) := by
        rcases hbreaks with rfl | rfl <;> rfl
      rw [TcpConnection.sendInLoop, if_neg hopen, if_pos hidle, hdirect]
      rfl
    · right
      have hdirect : c.directWrite message (.failed errno) = (0, false, []) := by
        obtain ⟨hpipe,hreset⟩ := not_or.mp hbreaks
        rw [TcpConnection.directWrite, decide_eq_false hpipe, decide_eq_false hreset, Bool.or_false, Bool.and_false]
      have hmore : 0 < (message.drop 0).length := List.length_pos_iff.mpr hne
      obtain ⟨c',hbuffer,hready,hon,hread⟩ := hrest [] message [] rfl hne
      exact ⟨c', [], message, [], (hsend hdirect hmore).trans hbuffer, hready, hon, hread, hne, rfl,
        Or.inr ⟨rfl, rfl⟩⟩

/-- What `handleWrite` does while something waits. -/
theorem handleWrite_ready (hc : Ready c) (hwriting : c.channel.writing = true) (w : SysWrite) : c.handleWrite w = .ok (c, []) ∨
      (∃ c', c.handleWrite w = .ok (c', [.written c.outputBuffer.readable, .writeCompleteCallback]) ∧ Ready c' ∧
        c'.channel.writing = false ∧ c'.outputBuffer.readable = []) ∨
      ∃ c' bytes rest, c.handleWrite w = .ok (c', [.written bytes]) ∧ Ready c' ∧ c'.channel.writing = true ∧
        c'.outputBuffer.readable = rest ∧ rest ≠ [] ∧ c.outputBuffer.readable = bytes ++ rest := by
  rcases TcpConnection.handleWrite_cases hwriting w with hsame |
    ⟨n,buf,hpos,hle,⟨k,rfl,hmin⟩,hread,⟨hlt,hsome⟩ | ⟨rfl,_⟩⟩
  · exact Or.inl hsame
  · refine Or.inr (Or.inr ⟨_, _, _, hsome, ⟨hc.state, hc.reading, hc.highWaterMark, hc.hasWriteComplete⟩, hwriting,
      hread, ?_, (List.take_append_drop n _).symm⟩)
    rw [ne_eq, List.drop_eq_nil_iff, Buffer.length_readable]
    omega
  · obtain ⟨buf,hretrieve,hread⟩ := c.outputBuffer.retrieve_ok (Nat.le_refl _)
    rw [← Buffer.length_readable, List.drop_length] at hread
    have hzero : buf.readableBytes = 0 := by
      rw [← Buffer.length_readable, hread]
      rfl
    refine Or.inr (Or.inl ⟨{ c with outputBuffer := buf, channel := c.channel.disableWriting }, ?_,
      ⟨hc.state, hc.reading, hc.highWaterMark, hc.hasWriteComplete⟩, rfl, hread⟩)
    have hstate : ¬ c.state = .kDisconnecting := by
      rw [hc.state]
      decide
    rw [TcpConnection.handleWrite, if_pos (show c.channel.isWriting = true from hwriting)]
    dsimp only
    rw [← hmin, if_pos hpos, hretrieve, List.take_of_length_le (Buffer.length_readable _).le]
    simp only [bind, Except.bind, pure, Except.pure, hzero, if_true, if_neg hstate, TcpConnection.writeComplete,
      hc.hasWriteComplete, List.append_nil]

end Send

/-- Nothing waits, and no functor is queued. -/
structure Idle (s : State) : Prop where
  queued : s.queued = 0
  empty : s.conn.outputBuffer.readable = []
  writing : s.conn.channel.writing = false

/-- Where a transfer stands after the effects `acc`. `H` says that no message is dropped. -/
inductive Phase (p : Program) (header : Bytes) (H : Prop) (s : State) (acc : List TcpEffect) : Prop
  /-- Either a piece is on its way or the functor for the next one is queued. -/
  | sending (pos : ℕ) (hconn : Ready s.conn) (hcontext : s.context = .file pos) (hpos : pos ≤ s.file.length)
      (hstream : written acc ++ s.conn.outputBuffer.readable = header ++ s.file.take pos)
      (hbound : s.conn.outputBuffer.readable.length ≤ kBufSize)
      (hout : (s.queued = 1 ∧ s.conn.outputBuffer.readable = [] ∧ s.conn.channel.writing = false) ∨
        (s.queued = 0 ∧ s.conn.outputBuffer.readable ≠ [] ∧ s.conn.channel.writing = true))
      (hopen : acc.count .shutdownWrite = 0)
  | stalled (hbroken : ¬ H) (hconn : Ready s.conn) (hidle : Idle s) (hbegin : written acc <+: header ++ s.file)
      (hopen : acc.count .shutdownWrite = 0)
  | finished (hstate : s.conn.state = .kDisconnecting) (hreading : s.conn.channel.reading = true) (hidle : Idle s)
      (hall : written acc = header ++ s.file) (hcount : acc.count .shutdownWrite = 1)
  | down (hstate : s.conn.state = .kDisconnected)
      (hoff : s.conn.channel.reading = false ∧ s.conn.channel.writing = false)
      (hcontext : s.queued = 0 ∨ s.queued = 1 ∧ ∃ pos, s.context = p.onDown (.file pos))
      (hbegin : written acc <+: header ++ s.file) (hbound : s.conn.outputBuffer.readable.length ≤ kBufSize)
      (hcount : acc.count .shutdownWrite = 0 ∨
        acc.count .shutdownWrite = 1 ∧ written acc = header ++ s.file)

/-- The high water mark is not met. -/
def Below (acc : List TcpEffect) : Prop := ∀ len, .highWaterMarkCallback len ∉ acc

section Phases
variable {p : Program} {header message : Bytes} {H : Prop} {s s' : State} {acc acc' out : List TcpEffect} {w : SysWrite}

theorem begins_of_eq {a b c : Bytes} (h : a ++ b = c) : a <+: c := ⟨b, h⟩

/-- The next piece is sent. -/
theorem send_phase {pos : ℕ} (hconn : Ready s.conn) (hidle : Idle s) (hcontext : s.context = .file pos)
    (hpos : pos ≤ s.file.length) (hne : message ≠ []) (hlen : message.length ≤ kBufSize)
    (hstream : written acc ++ message = header ++ s.file.take pos) (hopen : acc.count .shutdownWrite = 0)
    (hw : H → ¬ Breaks w) : ∃ s' out, s.send message w = .ok (s', out) ∧ s'.file = s.file ∧
      Phase p header H s' (acc ++ out) ∧ Below out := by
  have hsend (conn : TcpConnection) (effects : List TcpEffect)
      (h : s.conn.sendInLoop message w = .ok (conn, effects)) :
      s.send message w = .ok ({ s with conn := conn }.queue effects, effects) := by
    rw [State.send, if_pos hconn.state, h]
    rfl
  rcases sendInLoop_idle hconn hidle.writing hidle.empty hne hlen w with hall | ⟨hdropped,hbreaks⟩ |
    ⟨conn,bytes,rest,effects,hpart,hready,hon,rfl,hrest,hmessage,heffects⟩
  · refine ⟨_, _, hsend _ _ hall, rfl, ?_, ?_⟩
    · refine Phase.sending pos hconn hcontext hpos ?_ ?_ ?_ ?_
      · rw [written_append, written_cons]
        change written acc ++ (message ++ []) ++ s.conn.outputBuffer.readable = _
        rw [hidle.empty, List.append_nil, List.append_nil]
        exact hstream
      · change s.conn.outputBuffer.readable.length ≤ kBufSize
        rw [hidle.empty]
        exact Nat.zero_le _
      · refine Or.inl ⟨?_, hidle.empty, hidle.writing⟩
        change s.queued+1 = 1
        rw [hidle.queued]
      · rw [List.count_append, hopen]
        rfl
    · intro len
      simp
  · refine ⟨_, _, hsend _ _ hdropped, rfl, ?_, fun len => List.not_mem_nil⟩
    rw [List.append_nil]
    refine Phase.stalled (fun hH => hw hH hbreaks) hconn ⟨hidle.queued, hidle.empty, hidle.writing⟩ ?_ hopen
    apply (begins_of_eq hstream).trans
    exact (List.prefix_append_right_inj header).mpr (List.take_prefix pos s.file)
  · refine ⟨_, _, hsend _ _ hpart, rfl, ?_, ?_⟩
    · have hcount : effects.count .writeCompleteCallback = 0 ∧ effects.count .shutdownWrite = 0 ∧
          written effects = bytes := by
        rcases heffects with rfl | ⟨rfl,rfl⟩
        · exact ⟨rfl, rfl, List.append_nil _⟩
        · exact ⟨rfl, rfl, rfl⟩
      refine Phase.sending pos hready hcontext hpos ?_ ?_ ?_ ?_
      · change written (acc ++ effects) ++ conn.outputBuffer.readable = _
        rw [written_append, hcount.2.2, List.append_assoc, ← hmessage]
        exact hstream
      · change conn.outputBuffer.readable.length ≤ kBufSize
        rw [hmessage, List.length_append] at hlen
        omega
      · refine Or.inr ⟨?_, hrest, hon⟩
        change s.queued+effects.count .writeCompleteCallback = 0
        rw [hidle.queued, hcount.1]
      · rw [List.count_append, hopen, hcount.2.1]
    · intro len
      rcases heffects with rfl | ⟨rfl,rfl⟩ <;> simp

/-- Behind the end of the file. -/
theorem shutdown_phase (hconn : Ready s.conn) (hidle : Idle s) (hall : written acc = header ++ s.file)
    (hopen : acc.count .shutdownWrite = 0) : s.shutdown.1.file = s.file ∧
      Phase p header H s.shutdown.1 (acc ++ s.shutdown.2) ∧ Below s.shutdown.2 := by
  have hshutdown : s.shutdown = ({ s with conn := { s.conn with state := .kDisconnecting } }, [.shutdownWrite]) := by
    rw [State.shutdown, if_pos hconn.state, TcpConnection.shutdown, if_pos hconn.state,
      TcpConnection.shutdownInLoop]
    simp only [Channel.isWriting, hidle.writing, Bool.false_eq_true, if_false]
  rw [hshutdown]
  refine ⟨rfl, ?_, ?_⟩
  · refine Phase.finished rfl hconn.reading ⟨hidle.queued, hidle.empty, hidle.writing⟩ ?_ ?_
    · rw [written_append, hall]
      exact List.append_nil _
    · rw [List.count_append, hopen]
      rfl
  · intro len
    simp

theorem Phase.same (h : Phase p header H s acc) (hwritten : written acc' = written acc)
    (hcount : acc'.count .shutdownWrite = acc.count .shutdownWrite) : Phase p header H s acc' := by
  cases h with
  | sending pos hconn hcontext hpos hstream hbound hout hopen =>
    exact .sending pos hconn hcontext hpos (hwritten ▸ hstream) hbound hout (hcount.trans hopen)
  | stalled hbroken hconn hidle hbegin hopen =>
    exact .stalled hbroken hconn hidle (hwritten ▸ hbegin) (hcount.trans hopen)
  | finished hstate hreading hidle hall hone =>
    exact .finished hstate hreading hidle (hwritten.trans hall) (hcount.trans hone)
  | down hstate hoff hcontext hbegin hbound hone =>
    rw [← hwritten, ← hcount] at hone
    exact .down hstate hoff hcontext (hwritten ▸ hbegin) hbound hone

/-- Nothing happens. -/
theorem Phase.stays (h : Phase p header H s acc) :
    ∃ s' out, (.ok (s, []) : Except Stop (State × List TcpEffect)) = .ok (s', out) ∧ s'.file = s.file ∧
      Phase p header H s' (acc ++ out) ∧ Below out := by
  refine ⟨s, [], rfl, rfl, ?_, fun len => List.not_mem_nil⟩
  rw [List.append_nil]
  exact h

theorem handled_idle (p : Program) (s : State) : s.handled p (.ok (s.conn, [])) = .ok (s, []) := rfl

theorem Phase.close (h : Phase p header H s acc) (hopen : s.conn.state ≠ .kDisconnected) :
    ∃ s' out, s.handled p s.conn.handleClose = .ok (s', out) ∧ s'.file = s.file ∧
      Phase p header H s' (acc ++ out) ∧ Below out := by
  have hclose (hisOpen : s.conn.isOpen = true) : s.handled p s.conn.handleClose = .ok ({ s with
      conn := { s.conn with state := .kDisconnected, channel := s.conn.channel.disableAll }
      context := p.onDown s.context }, [.connectionCallback, .closeCallback]) := by
    rw [TcpConnection.handleClose, if_pos hisOpen]
    rfl
  have hbelow : Below [.connectionCallback, .closeCallback] := by
    intro len
    simp
  have hwritten : written (acc ++ [.connectionCallback, .closeCallback]) = written acc := by
    rw [written_append]
    exact List.append_nil _
  have hcount : (acc ++ [TcpEffect.connectionCallback, .closeCallback]).count TcpEffect.shutdownWrite =
      acc.count .shutdownWrite := by
    rw [List.count_append]
    rfl
  cases h with
  | sending pos hconn hcontext hpos hstream hbound hout hnone =>
    refine ⟨_, _, hclose (by rw [TcpConnection.isOpen, hconn.state]; rfl), rfl, ?_, hbelow⟩
    refine Phase.down rfl ⟨rfl, rfl⟩ ?_ ?_ hbound (Or.inl (hcount.trans hnone))
    · rcases hout with ⟨hone,_⟩ | ⟨hzero,_⟩
      · exact Or.inr ⟨hone, pos, congrArg p.onDown hcontext⟩
      · exact Or.inl hzero
    · rw [hwritten]
      apply (begins_of_eq hstream).trans
      exact (List.prefix_append_right_inj header).mpr (List.take_prefix pos s.file)
  | stalled hbroken hconn hidle hbegin hnone =>
    refine ⟨_, _, hclose (by rw [TcpConnection.isOpen, hconn.state]; rfl), rfl, ?_, hbelow⟩
    refine Phase.down rfl ⟨rfl, rfl⟩ (Or.inl hidle.queued) (hwritten ▸ hbegin) ?_ (Or.inl (hcount.trans hnone))
    change s.conn.outputBuffer.readable.length ≤ kBufSize
    rw [hidle.empty]
    exact Nat.zero_le _
  | finished hstate hreading hidle hall hone =>
    refine ⟨_, _, hclose (by rw [TcpConnection.isOpen, hstate]; rfl), rfl, ?_, hbelow⟩
    refine Phase.down rfl ⟨rfl, rfl⟩ (Or.inl hidle.queued) ?_ ?_
      (Or.inr ⟨hcount.trans hone, hwritten.trans hall⟩)
    · rw [hwritten, hall]
    · change s.conn.outputBuffer.readable.length ≤ kBufSize
      rw [hidle.empty]
      exact Nat.zero_le _
  | down hstate _ _ _ _ _ => exact absurd hstate hopen

theorem Phase.writable (h : Phase p header H s acc) (w : SysWrite) :
    ∃ s' out, s.handled p (s.conn.handleWrite w) = .ok (s', out) ∧ s'.file = s.file ∧
      Phase p header H s' (acc ++ out) ∧ Below out := by
  have hidle (hoff : s.conn.channel.writing = false) : s.handled p (s.conn.handleWrite w) = .ok (s, []) := by
    rw [TcpConnection.handleWrite_idle hoff]
    exact handled_idle p s
  cases h with
  | sending pos hconn hcontext hpos hstream hbound hout hopen =>
    rcases hout with hidle' | ⟨hzero,hne,hon⟩
    · rw [hidle hidle'.2.2]
      exact (Phase.sending pos hconn hcontext hpos hstream hbound (Or.inl hidle') hopen).stays
    · rcases handleWrite_ready hconn hon w with hsame | ⟨conn,hall,hready,hoff,hempty⟩ |
        ⟨conn,bytes,rest,hpart,hready,hon',rfl,hrest,hsplit⟩
      · rw [hsame, handled_idle]
        exact (Phase.sending pos hconn hcontext hpos hstream hbound (Or.inr ⟨hzero, hne, hon⟩) hopen).stays
      · rw [hall]
        refine ⟨_, _, rfl, rfl, ?_, ?_⟩
        · refine Phase.sending pos hready hcontext hpos ?_ ?_ (Or.inl ⟨?_, hempty, hoff⟩) ?_
          · change written (acc ++ [.written s.conn.outputBuffer.readable, .writeCompleteCallback]) ++
              conn.outputBuffer.readable = _
            rw [written_append, hempty, List.append_nil]
            change written acc ++ (s.conn.outputBuffer.readable ++ []) = _
            rw [List.append_nil]
            exact hstream
          · change conn.outputBuffer.readable.length ≤ kBufSize
            rw [hempty]
            exact Nat.zero_le _
          · change s.queued+1 = 1
            rw [hzero]
          · rw [List.count_append, hopen]
            rfl
        · intro len
          simp
      · rw [hpart]
        refine ⟨_, _, rfl, rfl, ?_, ?_⟩
        · refine Phase.sending pos hready hcontext hpos ?_ ?_ (Or.inr ⟨hzero, hrest, hon'⟩) ?_
          · change written (acc ++ [.written bytes]) ++ conn.outputBuffer.readable = _
            rw [written_append, List.append_assoc]
            change written acc ++ (bytes ++ [] ++ conn.outputBuffer.readable) = _
            rw [List.append_nil, ← hsplit]
            exact hstream
          · change conn.outputBuffer.readable.length ≤ kBufSize
            rw [hsplit, List.length_append] at hbound
            omega
          · rw [List.count_append, hopen]
            rfl
        · intro len
          simp
  | stalled hbroken hconn hnone hbegin hopen =>
    rw [hidle hnone.writing]
    exact (Phase.stalled hbroken hconn hnone hbegin hopen).stays
  | finished hstate hreading hnone hall hcount =>
    rw [hidle hnone.writing]
    exact (Phase.finished hstate hreading hnone hall hcount).stays
  | down hstate hoff hcontext hbegin hbound hcount =>
    rw [hidle hoff.2]
    exact (Phase.down hstate hoff hcontext hbegin hbound hcount).stays

/-- The functor runs after the connection has gone down. -/
def Late (s : State) : Event → Prop
  | .writeComplete _ => 0 < s.queued ∧ s.conn.state = .kDisconnected
  | _ => False

/-- A write in the functor makes `sendInLoop` drop the piece. -/
def Drops : Event → Prop
  | .writeComplete w => Breaks w
  | _ => False

theorem take_drop_length (file : Bytes) (pos k : ℕ) :
    file.take (pos+((file.drop pos).take k).length) = file.take pos ++ (file.drop pos).take k := by
  rw [List.take_add, ← List.prefix_iff_eq_take.mp (List.take_prefix k (file.drop pos))]

theorem Phase.writeComplete (h : Phase p header H s acc) (hw : H → ¬ Breaks w) (hqueued : 0 < s.queued)
    (hlate : s.conn.state = .kDisconnected → ∀ c, p.onDown c = c) :
    ∃ s' out, { s with queued := s.queued-1 }.onWriteComplete p w = .ok (s', out) ∧ s'.file = s.file ∧
      Phase p header H s' (acc ++ out) ∧ Below out := by
  have hread {pos : ℕ} (hcontext : s.context = .file pos) : { s with queued := s.queued-1 }.onWriteComplete p w =
      if 0 < ((s.file.drop pos).take kBufSize).length then
        { s with queued := s.queued-1, context := .file (pos+((s.file.drop pos).take kBufSize).length) }.send
          ((s.file.drop pos).take kBufSize) w
      else .ok { s with queued := s.queued-1, context := p.onEnd (.file pos) }.shutdown := by
    rw [State.onWriteComplete]
    dsimp only
    rw [hcontext]
  cases h with
  | sending pos hconn hcontext hpos hstream hbound hout hopen =>
    rcases hout with ⟨hone,hempty,hoff⟩ | ⟨hzero,_⟩
    · have hidle : s.queued-1 = 0 := by omega
      rw [hempty, List.append_nil] at hstream
      rw [hread hcontext]
      have hlen : ((s.file.drop pos).take kBufSize).length = min kBufSize (s.file.length-pos) := by
        rw [List.length_take, List.length_drop]
      split
      -- `fread` has another piece, or the file is at its end
      case isTrue hmore =>
        have hle : pos+((s.file.drop pos).take kBufSize).length ≤ s.file.length := by omega
        refine send_phase (s := { s with
          queued := s.queued-1
          context := .file (pos+((s.file.drop pos).take kBufSize).length) }) hconn ⟨hidle, hempty, hoff⟩ rfl hle
          (List.length_pos_iff.mp hmore) (List.length_take_le _ _) ?_ hopen hw
        change _ = header ++ s.file.take _
        rw [take_drop_length, hstream, List.append_assoc]
      case isFalse hend =>
        have hall : s.file.take pos = s.file := by
          apply List.take_of_length_le
          have hpos' : 0 < kBufSize := by decide
          omega
        rw [hall] at hstream
        obtain ⟨hfile,hphase,hbelow⟩ := shutdown_phase (p := p) (H := H)
          (s := { s with queued := s.queued-1, context := p.onEnd (.file pos) }) hconn ⟨hidle, hempty, hoff⟩ hstream
          hopen
        exact ⟨_, _, rfl, hfile, hphase, hbelow⟩
    · omega
  -- in these phases no functor is queued
  | stalled _ _ hidle _ _ => exact absurd hidle.queued (Nat.ne_of_gt hqueued)
  | finished _ _ hidle _ _ => exact absurd hidle.queued (Nat.ne_of_gt hqueued)
  | down hstate hoff hcontext hbegin hbound hcount =>
    rcases hcontext with hzero | ⟨hone,pos,hfile⟩
    · omega
    · -- the functor comes after the end of the connection, and what it reads is not sent
      rw [hlate hstate] at hfile
      have hclosed : ¬ s.conn.state = .kConnected := by
        rw [hstate]
        decide
      have hzero : s.queued-1 = 0 := by omega
      rw [hread hfile]
      split
      case isTrue =>
        rw [State.send, if_neg hclosed]
        exact Phase.stays (s := { s with
          queued := s.queued-1
          context := .file (pos+((s.file.drop pos).take kBufSize).length) })
          (.down hstate hoff (Or.inl hzero) hbegin hbound hcount)
      case isFalse =>
        rw [State.shutdown, if_neg hclosed]
        exact Phase.stays (s := { s with queued := s.queued-1, context := p.onEnd (.file pos) })
          (.down hstate hoff (Or.inl hzero) hbegin hbound hcount)

theorem Phase.readable (h : Phase p header H s acc) (r : SysRead) :
    ∃ s' out, step p s (.readable r) = .ok (s', out) ∧ s'.file = s.file ∧ Phase p header H s' (acc ++ out) ∧
      Below out := by
  rw [step]
  split
  case isFalse => exact h.stays
  case isTrue hreading =>
    cases r with
    | data =>
      refine ⟨s, [.messageCallback], rfl, rfl, h.same ?_ ?_, ?_⟩
      · rw [written_append]
        exact List.append_nil _
      · rw [List.count_append]
        rfl
      · intro len
        simp
    | eof =>
      apply h.close
      -- a channel that is read from is not that of a connection that is down
      intro hdown
      cases h with
      | sending pos hconn _ _ _ _ _ _ => cases hconn.state.symm.trans hdown
      | stalled _ hconn _ _ _ => cases hconn.state.symm.trans hdown
      | finished hstate _ _ _ _ => cases hstate.symm.trans hdown
      | down _ hoff _ _ _ _ => cases hoff.1.symm.trans hreading
    | failed errno => exact h.stays

theorem Phase.hangup (h : Phase p header H s acc) :
    ∃ s' out, step p s .hangup = .ok (s', out) ∧ s'.file = s.file ∧ Phase p header H s' (acc ++ out) ∧ Below out := by
  rw [step]
  split
  case isTrue => exact h.stays
  case isFalse hevents =>
    apply h.close
    intro hdown
    cases h with
    | sending pos hconn _ _ _ _ _ _ => cases hconn.state.symm.trans hdown
    | stalled _ hconn _ _ _ => cases hconn.state.symm.trans hdown
    | finished hstate _ _ _ _ => cases hstate.symm.trans hdown
    | down _ hoff _ _ _ _ =>
      apply hevents
      rw [Channel.isNoneEvent, hoff.1, hoff.2]
      rfl

theorem Phase.step (h : Phase p header H s acc) {e : Event} (he : H → ¬ Drops e)
    (hlate : Late s e → ∀ c, p.onDown c = c) : ∃ s' out, FileServer.step p s e = .ok (s', out) ∧
      s'.file = s.file ∧ Phase p header H s' (acc ++ out) ∧ Below out := by
  cases e with
  | writable w => exact h.writable w
  | readable r => exact h.readable r
  | hangup => exact h.hangup
  | writeComplete w =>
    rw [FileServer.step]
    split
    case isTrue hqueued => exact h.writeComplete he hqueued (fun hdown => hlate ⟨hqueued, hdown⟩)
    case isFalse => exact h.stays

end Phases

/-- What the peer is to get. -/
def payload (path tmp : Bytes) (opened : Option Bytes) : Bytes :=
  opened.elim [] (fun file => headerBytes path tmp file.length ++ file)

/-- What can be said after the effects `acc` when `all` is to be sent. -/
structure Transfers (all : Bytes) (H : Prop) (s : State) (acc : List TcpEffect) : Prop where
  sent : written acc <+: all
  /-- One piece at most waits. -/
  bounded : s.conn.outputBuffer.readable.length ≤ kBufSize
  below : Below acc
  shutdown_once : acc.count .shutdownWrite ≤ 1
  shutdown_last : .shutdownWrite ∈ acc → written acc = all
  /-- If no message has been dropped, a connection on which nothing is to happen any more has had it all. -/
  complete : H → s.conn.state ≠ .kDisconnected → s.queued = 0 → s.conn.channel.writing = false →
    written acc = all ∧ acc.count .shutdownWrite = 1

section Runs
variable {p : Program} {header : Bytes} {H : Prop} {s : State} {acc : List TcpEffect} {events : List Event}

theorem Phase.transfers (h : Phase p header H s acc) (hbelow : Below acc) : Transfers (header ++ s.file) H s acc := by
  cases h with
  | sending pos hconn hcontext hpos hstream hbound hout hopen =>
    refine ⟨?_, hbound, hbelow, by omega, ?_, ?_⟩
    · apply (begins_of_eq hstream).trans
      exact (List.prefix_append_right_inj header).mpr (List.take_prefix pos s.file)
    · exact fun hin => absurd hin (List.count_eq_zero.mp hopen)
    · intro _ _ hzero hoff
      rcases hout with ⟨hone,_⟩ | ⟨_,_,hon⟩
      · omega
      · cases hoff.symm.trans hon
  | stalled hbroken hconn hidle hbegin hopen =>
    refine ⟨hbegin, ?_, hbelow, by omega, ?_, fun hH => absurd hH hbroken⟩
    · rw [hidle.empty]
      exact Nat.zero_le _
    · exact fun hin => absurd hin (List.count_eq_zero.mp hopen)
  | finished hstate hreading hidle hall hcount =>
    refine ⟨?_, ?_, hbelow, by omega, fun _ => hall, fun _ _ _ _ => ⟨hall, hcount⟩⟩
    · rw [hall]
    · rw [hidle.empty]
      exact Nat.zero_le _
  | down hstate hoff hcontext hbegin hbound hcount =>
    refine ⟨hbegin, hbound, hbelow, by omega, ?_, fun _ hup => absurd hstate hup⟩
    intro hin
    have hpos := List.count_pos_iff.mpr hin
    rcases hcount with hzero | ⟨_,hall⟩
    · omega
    · exact hall

theorem below_append {acc out : List TcpEffect} (h : Below acc) (h' : Below out) : Below (acc ++ out) := by
  intro len hin
  exact (List.mem_append.mp hin).elim (h len) (h' len)

/-- The run goes on as long as no functor is late, or if this does no harm. -/
theorem phase_run (h : Phase p header H s acc) (hbelow : Below acc) (hdrops : H → ∀ e ∈ events, ¬ Drops e)
    (hlate : Runs.Along (step p) (fun s e => Late s e → ∀ c, p.onDown c = c) s events) : ∃ s' out,
    Runs.run (step p) s events = .ok (s', out) ∧ Transfers (header ++ s.file) H s' (acc ++ out) := by
  induction events generalizing s acc with
  | nil => exact ⟨s, [], rfl, by rw [List.append_nil]; exact h.transfers hbelow⟩
  | cons e events ih =>
    obtain ⟨s1,out1,hstep,hfile,h1,hbelow1⟩ := h.step (fun hH => hdrops hH e List.mem_cons_self) hlate.1
    obtain ⟨s2,out2,hrun,htransfers⟩ := ih h1 (below_append hbelow hbelow1)
      (fun hH e he => hdrops hH e (List.mem_cons_of_mem _ he)) (hlate.2 s1 out1 hstep)
    refine ⟨s2, out1 ++ out2, Runs.run_cons_of_ok hstep hrun, ?_⟩
    rw [← List.append_assoc, ← hfile]
    exact htransfers

/-- A functor that is late reads from the file that has been closed. -/
theorem Phase.late (h : Phase download2 header H s acc) {e : Event} (he : Late s e) :
    FileServer.step download2 s e = .error (.fault .danglingPointer) := by
  cases e with
  | writeComplete w =>
    obtain ⟨hqueued,hdown⟩ := he
    rw [FileServer.step, if_pos hqueued, State.onWriteComplete]
    cases h with
    | sending pos hconn _ _ _ _ _ _ => cases hconn.state.symm.trans hdown
    | stalled _ hconn _ _ _ => cases hconn.state.symm.trans hdown
    | finished hstate _ _ _ _ => cases hstate.symm.trans hdown
    | down _ _ hcontext _ _ _ =>
      rcases hcontext with hzero | ⟨_,pos,hclosed⟩
      · omega
      · dsimp only
        rw [hclosed]
        rfl
  | writable w => exact he.elim
  | readable r => exact he.elim
  | hangup => exact he.elim

theorem late_run (h : Phase download2 header H s acc) (hdrops : H → ∀ e ∈ events, ¬ Drops e)
    (hlate : ¬ Runs.Along (step download2) (fun s e => ¬ Late s e) s events) :
    Runs.run (step download2) s events = .error (.fault .danglingPointer) := by
  induction events generalizing s acc with
  | nil => exact absurd trivial hlate
  | cons e events ih =>
    by_cases he : Late s e
    · exact Runs.run_cons_of_error (h.late he)
    · obtain ⟨s1,out1,hstep,_,h1,_⟩ := h.step (fun hH => hdrops hH e List.mem_cons_self) (fun hyes => absurd hyes he)
      apply Runs.run_cons_error_of_ok hstep
      exact ih h1 (fun hH e he => hdrops hH e (List.mem_cons_of_mem _ he))
        (fun halong => hlate (Runs.along_cons he hstep halong))

/-- A new connection. -/
theorem start_phase (p : Program) (path tmp : Bytes) (opened : Option Bytes) {w : SysWrite}
    (hname : (baseName path).length < NAME_MAX+4) (hw : H → ¬ Breaks w) : ∃ s out header,
    State.onConnection path tmp opened w = .ok (s, out) ∧ Phase p header H s out ∧ Below out ∧
      payload path tmp opened = header ++ s.file := by
  have hready : Ready (TcpConnection.established (kBufSize+1) true true) := ⟨rfl, rfl, rfl, rfl⟩
  cases opened with
  | none =>
    obtain ⟨hfile,hphase,hbelow⟩ := @shutdown_phase p [] H
      ⟨TcpConnection.established (kBufSize+1) true true, .empty, [], 0⟩ [] hready ⟨rfl, rfl, rfl⟩ rfl rfl
    exact ⟨_, _, [], rfl, hphase, hbelow, hfile.symm⟩
  | some file =>
    have hlen : (headerBytes path tmp file.length).length ≤ NAME_MAX+4 := by
      rw [headerBytes, List.length_append, ByteOrder.length_toLE]
      exact Nat.add_le_add_right (List.length_take_le _ _) 4
    have hne : headerBytes path tmp file.length ≠ [] := by
      apply List.append_ne_nil_of_right_ne_nil
      exact List.length_pos_iff.mp (by rw [ByteOrder.length_toLE]; decide)
    have hfits : NAME_MAX+4 ≤ kBufSize := by decide
    obtain ⟨s,out,hsend,hfile,hphase,hbelow⟩ := @send_phase p _ _ _
      ⟨TcpConnection.established (kBufSize+1) true true, .file 0, file, 0⟩ [] _ 0 hready ⟨rfl, rfl, rfl⟩ rfl
      (Nat.zero_le _) hne (Nat.le_trans hlen hfits) (List.append_nil _).symm rfl hw
    refine ⟨s, out, _, ?_, hphase, hbelow, ?_⟩
    · rw [State.onConnection, fileHeader, if_pos hname]
      exact hsend
    · rw [hfile]
      rfl

/-- Whatever the kernel answers and in whatever order the loop calls, `download3` sends the file as it is, piece
by piece, and then shuts down. -/
theorem download3_transfers (path tmp : Bytes) (opened : Option Bytes) (w : SysWrite) (events : List Event)
    (hname : (baseName path).length < NAME_MAX+4) : ∃ s0 out s acc,
    State.onConnection path tmp opened w = .ok (s0, out) ∧ Runs.run (step download3) s0 events = .ok (s, acc) ∧
      Transfers (payload path tmp opened) (¬ Breaks w ∧ ∀ e ∈ events, ¬ Drops e) s (out ++ acc) := by
  obtain ⟨s0,out,header,hstart,hphase,hbelow,hall⟩ := start_phase (H := ¬ Breaks w ∧ ∀ e ∈ events, ¬ Drops e)
    download3 path tmp opened hname (fun hH => hH.1)
  have hlate : Runs.Along (step download3) (fun s e => Late s e → ∀ c, download3.onDown c = c) s0 events :=
    Runs.along_of_forall (fun e _ s _ c => rfl)
  obtain ⟨s,acc,hrun,htransfers⟩ := phase_run hphase hbelow (fun hH => hH.2) hlate
  rw [← hall] at htransfers
  exact ⟨s0, out, s, acc, hstart, hrun, htransfers⟩

/-- `download2` does the same exactly as long as no functor runs after the connection has gone down. Such a
functor reads from a file that has been closed. -/
theorem download2_dangles_iff (path tmp : Bytes) (opened : Option Bytes) (w : SysWrite) (events : List Event)
    (hname : (baseName path).length < NAME_MAX+4) : ∃ s0 out,
    State.onConnection path tmp opened w = .ok (s0, out) ∧
      (Runs.run (step download2) s0 events = .error (.fault .danglingPointer) ↔
        ¬ Runs.Along (step download2) (fun s e => ¬ Late s e) s0 events) ∧
      (Runs.Along (step download2) (fun s e => ¬ Late s e) s0 events → ∃ s acc,
        Runs.run (step download2) s0 events = .ok (s, acc) ∧
          Transfers (payload path tmp opened) (¬ Breaks w ∧ ∀ e ∈ events, ¬ Drops e) s (out ++ acc)) := by
  obtain ⟨s0,out,header,hstart,hphase,hbelow,hall⟩ := start_phase (H := ¬ Breaks w ∧ ∀ e ∈ events, ¬ Drops e)
    download2 path tmp opened hname (fun hH => hH.1)
  have hgood (halong : Runs.Along (step download2) (fun s e => ¬ Late s e) s0 events) : ∃ s acc,
      Runs.run (step download2) s0 events = .ok (s, acc) ∧
        Transfers (payload path tmp opened) (¬ Breaks w ∧ ∀ e ∈ events, ¬ Drops e) s (out ++ acc) := by
    rw [hall]
    exact phase_run hphase hbelow (fun hH => hH.2) (Runs.along_mono (fun s e hno hyes => absurd hyes hno) halong)
  refine ⟨s0, out, hstart, ⟨?_, late_run hphase (fun hH => hH.2)⟩, hgood⟩
  intro herror halong
  obtain ⟨s,acc,hrun,_⟩ := hgood halong
  cases herror.symm.trans hrun

/-- A small file, of which some is written at once. -/
def smallEvents : List Event := [.writeComplete (.wrote 2), .writable (.wrote 5), .writeComplete (.wrote 0)]

theorem download3_transfers_small : ∃ s0 out s acc,
    State.onConnection (ascii "d/a") (List.replicate 259 0) (some [1, 2, 3]) (.wrote 300) = .ok (s0, out) ∧
      Runs.run (step download3) s0 smallEvents = .ok (s, acc) ∧
      Transfers (payload (ascii "d/a") (List.replicate 259 0) (some [1, 2, 3]))
        (¬ Breaks (.wrote 300) ∧ ∀ e ∈ smallEvents, ¬ Drops e) s (out ++ acc) :=
  download3_transfers (ascii "d/a") (List.replicate 259 0) (some [1, 2, 3]) (.wrote 300) smallEvents
    (by decide)

theorem download2_dangles_hangup : ∃ s0 out,
    State.onConnection (ascii "d/a") (List.replicate 259 0) (some [1, 2, 3]) (.wrote 300) = .ok (s0, out) ∧
      (Runs.run (step download2) s0 [.hangup, .writeComplete (.wrote 2)] = .error (.fault .danglingPointer) ↔
        ¬ Runs.Along (step download2) (fun s e => ¬ Late s e) s0 [.hangup, .writeComplete (.wrote 2)]) := by
  obtain ⟨s0,out,hstart,hiff,_⟩ := download2_dangles_iff (ascii "d/a") (List.replicate 259 0) (some [1, 2, 3])
    (.wrote 300) [.hangup, .writeComplete (.wrote 2)] (by decide)
  exact ⟨s0, out, hstart, hiff⟩

end Runs

end FileServer

end IdealServer
