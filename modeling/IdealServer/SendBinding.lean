import IdealServer.OutgoingStream
import Mathlib.Data.Int.DivMod

/-! The overloads of `TcpConnection::send` and what they bind. The memory of the caller is explicit:
a byte at an address that is not allocated cannot be read, and between any two steps the caller can
write and release what it owns. -/
namespace IdealServer

/-- `static_cast<int>` of a `size_t`, and the conversion of an `int` to a `size_t`. -/
def toInt (n : ℕ) : ℤ := Int.bmod n (2^32)
def toSize (n : ℤ) : ℕ := (n%2^64).toNat

structure StringPiece where
  ptr : ℕ
  length : ℤ

/-- `Buffer::retrieveAllAsString` -/
def Buffer.retrieveAllAsString (b : Buffer) : Except Fault (Bytes × Buffer) := do
  let rest ← b.retrieve b.readableBytes
  return (b.readable, rest)

structure CallerMemory where
  bytes : ℕ → Option UInt8
  buffers : ℕ → Option Buffer

namespace CallerMemory

def read (mem : CallerMemory) (ptr : ℕ) : ℕ → Except Fault Bytes
  | 0 => .ok []
  | n+1 =>
    match mem.bytes ptr with
    | none => .error .danglingPointer
    | some x => do
      let rest ← mem.read (ptr+1) n
      return x :: rest

def setBuffer (mem : CallerMemory) (id : ℕ) (b : Buffer) : CallerMemory :=
  { mem with buffers := fun j => if j = id then some b else mem.buffers j }

end CallerMemory

/-- The argument of the three overloads. -/
inductive SendArg
  | pointer (message : ℕ) (len : ℤ)
  | piece (message : StringPiece)
  | buffer (message : ℕ)

/-- What `std::bind` stores: the view itself, or the string that the overload for a `Buffer` takes out
of it. -/
inductive BoundMessage
  | view (message : StringPiece)
  | string (message : Bytes)

/-- The bytes from `data()`, `size()` many. A string becomes a `StringPiece` with an `int` length. -/
def BoundMessage.bytes (mem : CallerMemory) : BoundMessage → Except Fault Bytes
  | .view message => mem.read message.ptr (toSize message.length)
  | .string message => readBytes message 0 (toSize (toInt message.length))

inductive SendEvent
  | send (arg : SendArg) (inLoopThread : Bool) (w : SysWrite)
  /-- The caller writes or releases memory. -/
  | change (mem : CallerMemory)
  | runFunctor (w : SysWrite)
  /-- What else happens to the connection in its loop. -/
  | write (op : WriteOp)
  | forceClose

def SendEvent.isRunFunctor : SendEvent → Bool
  | .runFunctor _ => true
  | _ => false

/-- `pending` are the functors of `send` in their order. -/
structure SendSystem where
  mem : CallerMemory
  conn : TcpConnection
  pending : List BoundMessage

namespace SendSystem

def new (highWaterMark : ℕ) (hasWriteComplete hasHighWaterMark : Bool) (mem : CallerMemory) :
    SendSystem :=
  ⟨mem, TcpConnection.established highWaterMark hasWriteComplete hasHighWaterMark, []⟩

/-- A connection that is disconnected does not look at the message. -/
def bytesOf (s : SendSystem) (message : BoundMessage) : Except Fault Bytes :=
  if s.conn.state = .kDisconnected then .ok [] else message.bytes s.mem

def sendInLoop (s : SendSystem) (message : BoundMessage) (w : SysWrite) :
    Except Fault (SendSystem × List TcpEffect) := do
  let bytes ← s.bytesOf message
  let (conn, effects) ← s.conn.sendInLoop bytes w
  return ({ s with conn := conn }, effects)

def sendPiece (s : SendSystem) (message : StringPiece) (inLoopThread : Bool) (w : SysWrite) :
    Except Fault (SendSystem × List TcpEffect) :=
  if s.conn.state = .kConnected then
    if inLoopThread then s.sendInLoop (.view message) w
    else .ok ({ s with pending := s.pending ++ [.view message] }, [])
  else .ok (s, [])

def sendBuffer (s : SendSystem) (message : ℕ) (inLoopThread : Bool) (w : SysWrite) :
    Except Fault (SendSystem × List TcpEffect) :=
  if s.conn.state = .kConnected then
    match s.mem.buffers message with
    | none => .error .danglingPointer
    | some b =>
      if inLoopThread then do
        let (conn, effects) ← s.conn.sendInLoop b.readable w
        return ({ s with conn := conn, mem := s.mem.setBuffer message b.retrieveAll }, effects)
      else do
        let (bytes, b) ← b.retrieveAllAsString
        return ({ s with
          mem := s.mem.setBuffer message b, pending := s.pending ++ [.string bytes] }, [])
  else .ok (s, [])

def send (s : SendSystem) (inLoopThread : Bool) (w : SysWrite) :
    SendArg → Except Fault (SendSystem × List TcpEffect)
  | .pointer message len => s.sendPiece ⟨message, len⟩ inLoopThread w
  | .piece message => s.sendPiece message inLoopThread w
  | .buffer message => s.sendBuffer message inLoopThread w

def step (s : SendSystem) : SendEvent → Except Fault (SendSystem × List TcpEffect)
  | .send arg inLoopThread w => s.send inLoopThread w arg
  | .change mem => .ok ({ s with mem := mem }, [])
  | .runFunctor w =>
    match s.pending with
    | [] => .ok (s, [])
    | message :: rest => { s with pending := rest }.sendInLoop message w
  | .write op => do
    let (conn, effects) ← op.step s.conn
    return ({ s with conn := conn }, effects)
  | .forceClose => do
    let (conn, effects) ← s.conn.forceCloseInLoop
    return ({ s with conn := conn }, effects)

def run : SendSystem → List SendEvent → Except Fault (SendSystem × List TcpEffect) := Runs.run step

/-- The message that the caller wants to send. -/
def Holds (mem : CallerMemory) (message : Bytes) : SendArg → Prop
  | .pointer ptr len => mem.read ptr (toSize len) = .ok message
  | .piece p => mem.read p.ptr (toSize p.length) = .ok message
  | .buffer id => ∃ b, mem.buffers id = some b ∧ b.readable = message

/-- What `send` binds for a message on another thread. -/
def bound (message : Bytes) : SendArg → BoundMessage
  | .pointer ptr len => .view ⟨ptr, len⟩
  | .piece p => .view p
  | .buffer _ => .string message

def Invariant (s : SendSystem) : Prop := s.conn.state ≠ .kDisconnected → s.conn.Synced

variable {s s' : SendSystem} {effects : List TcpEffect} {arg : SendArg} {message : Bytes}

theorem sendInLoop_frame {b : BoundMessage} {w : SysWrite}
    (h : s.sendInLoop b w = .ok (s', effects)) : s'.pending = s.pending ∧ s'.mem = s.mem := by
  unfold sendInLoop at h
  obtain ⟨bytes,_,h⟩ := Runs.bind_ok h
  obtain ⟨⟨conn,effects'⟩,_,h⟩ := Runs.bind_ok h
  obtain ⟨rfl,_⟩ := Prod.mk.inj (Except.ok.inj h)
  exact ⟨rfl, rfl⟩

/-- Functors leave the queue at its front and enter it at its end. -/
theorem step_pending {ev : SendEvent} (h : s.step ev = .ok (s', effects)) : ∃ added,
    s'.pending = (if ev.isRunFunctor then s.pending.tail else s.pending) ++ added := by
  have hsame (heq : s'.pending = s.pending) : ∃ added, s'.pending = s.pending ++ added :=
    ⟨[], by rw [heq, List.append_nil]⟩
  cases ev with
  | send arg inLoopThread w =>
    have hview {p : StringPiece} (hsend : s.sendPiece p inLoopThread w = .ok (s', effects)) :
        ∃ added, s'.pending = s.pending ++ added := by
      unfold sendPiece at hsend
      split at hsend
      · split at hsend
        · exact hsame (sendInLoop_frame hsend).1
        · obtain ⟨rfl,_⟩ := Prod.mk.inj (Except.ok.inj hsend)
          exact ⟨_, rfl⟩
      · obtain ⟨rfl,_⟩ := Prod.mk.inj (Except.ok.inj hsend)
        exact hsame rfl
    cases arg with
    | pointer ptr len => exact @hview ⟨ptr, len⟩ h
    | piece p => exact hview h
    | buffer id =>
      replace h : s.sendBuffer id inLoopThread w = .ok (s', effects) := h
      unfold sendBuffer at h
      split at h
      · split at h
        · cases h
        · split at h
          · obtain ⟨⟨conn,effects'⟩,_,h⟩ := Runs.bind_ok h
            obtain ⟨rfl,_⟩ := Prod.mk.inj (Except.ok.inj h)
            exact hsame rfl
          · obtain ⟨⟨bytes,rest⟩,_,h⟩ := Runs.bind_ok h
            obtain ⟨rfl,_⟩ := Prod.mk.inj (Except.ok.inj h)
            exact ⟨_, rfl⟩
      · obtain ⟨rfl,_⟩ := Prod.mk.inj (Except.ok.inj h)
        exact hsame rfl
  | change mem =>
    obtain ⟨rfl,_⟩ := Prod.mk.inj (Except.ok.inj h)
    exact hsame rfl
  | runFunctor w =>
    dsimp only [step] at h
    split at h
    case h_1 hnil =>
      obtain ⟨rfl,_⟩ := Prod.mk.inj (Except.ok.inj h)
      refine ⟨[], ?_⟩
      show s.pending = s.pending.tail ++ []
      rw [hnil]
      rfl
    case h_2 b rest hpending =>
      refine ⟨[], ?_⟩
      show s'.pending = s.pending.tail ++ []
      rw [(sendInLoop_frame h).1, hpending, List.append_nil]
      rfl
  | write op =>
    obtain ⟨⟨conn,effects'⟩,_,h⟩ := Runs.bind_ok h
    obtain ⟨rfl,_⟩ := Prod.mk.inj (Except.ok.inj h)
    exact hsame rfl
  | forceClose =>
    obtain ⟨⟨conn,effects'⟩,_,h⟩ := Runs.bind_ok h
    obtain ⟨rfl,_⟩ := Prod.mk.inj (Except.ok.inj h)
    exact hsame rfl

/-- The invariant of the connection, which `sendInLoop` and the other operations keep. -/
theorem invariant_send {c c' : TcpConnection} (hI : c.state ≠ .kDisconnected → c.Synced)
    {bytes : Bytes} {w : SysWrite} (h : c.sendInLoop bytes w = .ok (c', effects)) :
    c'.state ≠ .kDisconnected → c'.Synced := by
  by_cases hopen : c.state = .kDisconnected
  · intro hne
    have hstate : c'.state = c.state := by rw [(TcpConnection.sendInLoop_frame h).1]
    exact absurd (hstate.trans hopen) hne
  · obtain ⟨c1,e1,hok,hs,_,_⟩ := TcpConnection.sendInLoop_stream (hI hopen) hopen bytes w
    obtain ⟨rfl,_⟩ := Prod.mk.inj (Except.ok.inj (h.symm.trans hok))
    exact fun _ => hs

theorem invariant_write {c c' : TcpConnection} (hI : c.state ≠ .kDisconnected → c.Synced)
    {op : WriteOp} (h : op.step c = .ok (c', effects)) : c'.state ≠ .kDisconnected → c'.Synced := by
  by_cases hopen : c.state = .kDisconnected
  case neg =>
    obtain ⟨c1,e1,hok,hs,_⟩ := op.step_stream (hI hopen) hopen
    obtain ⟨rfl,_⟩ := Prod.mk.inj (Except.ok.inj (h.symm.trans hok))
    exact fun _ => hs
  case pos =>
    cases op with
    | sendInLoop bytes w => exact invariant_send hI h
    | handleWrite w => exact fun hne => absurd ((TcpConnection.handleWrite_frame h).1.trans hopen) hne
    | shutdown =>
      have hnot : c.state ≠ .kConnected := by
        rw [hopen]
        exact fun h => by cases h
      obtain ⟨rfl,_⟩ := Prod.mk.inj (Except.ok.inj ((if_neg hnot).symm.trans h))
      exact hI

theorem step_invariant (hI : s.Invariant) {ev : SendEvent} (h : s.step ev = .ok (s', effects)) :
    s'.Invariant := by
  have hloop {s s' : SendSystem} {b : BoundMessage} {w : SysWrite} (hI : s.Invariant)
      (hsend : s.sendInLoop b w = .ok (s', effects)) : s'.Invariant := by
    unfold sendInLoop at hsend
    obtain ⟨bytes,_,hsend⟩ := Runs.bind_ok hsend
    obtain ⟨⟨conn,effects'⟩,hconn,hsend⟩ := Runs.bind_ok hsend
    obtain ⟨rfl,_⟩ := Prod.mk.inj (Except.ok.inj hsend)
    exact invariant_send hI hconn
  cases ev with
  | send arg inLoopThread w =>
    have hview {p : StringPiece} (hsend : s.sendPiece p inLoopThread w = .ok (s', effects)) :
        s'.Invariant := by
      unfold sendPiece at hsend
      split at hsend
      · split at hsend
        · exact hloop hI hsend
        · obtain ⟨rfl,_⟩ := Prod.mk.inj (Except.ok.inj hsend)
          exact hI
      · obtain ⟨rfl,_⟩ := Prod.mk.inj (Except.ok.inj hsend)
        exact hI
    cases arg with
    | pointer ptr len => exact @hview ⟨ptr, len⟩ h
    | piece p => exact hview h
    | buffer id =>
      replace h : s.sendBuffer id inLoopThread w = .ok (s', effects) := h
      unfold sendBuffer at h
      split at h
      · split at h
        · cases h
        · split at h
          · obtain ⟨⟨conn,effects'⟩,hconn,h⟩ := Runs.bind_ok h
            obtain ⟨rfl,_⟩ := Prod.mk.inj (Except.ok.inj h)
            exact invariant_send hI hconn
          · obtain ⟨⟨bytes,rest⟩,_,h⟩ := Runs.bind_ok h
            obtain ⟨rfl,_⟩ := Prod.mk.inj (Except.ok.inj h)
            exact hI
      · obtain ⟨rfl,_⟩ := Prod.mk.inj (Except.ok.inj h)
        exact hI
  | change mem =>
    obtain ⟨rfl,_⟩ := Prod.mk.inj (Except.ok.inj h)
    exact hI
  | runFunctor w =>
    dsimp only [step] at h
    split at h
    case h_1 =>
      obtain ⟨rfl,_⟩ := Prod.mk.inj (Except.ok.inj h)
      exact hI
    case h_2 b rest _ => exact hloop (show ({ s with pending := rest } : SendSystem).Invariant from hI) h
  | write op =>
    obtain ⟨⟨conn,effects'⟩,hconn,h⟩ := Runs.bind_ok h
    obtain ⟨rfl,_⟩ := Prod.mk.inj (Except.ok.inj h)
    exact invariant_write hI hconn
  | forceClose =>
    obtain ⟨⟨conn,effects'⟩,hconn,h⟩ := Runs.bind_ok h
    obtain ⟨rfl,_⟩ := Prod.mk.inj (Except.ok.inj h)
    unfold TcpConnection.forceCloseInLoop at hconn
    split at hconn
    case isTrue hopen =>
      obtain ⟨rfl,_⟩ := Prod.mk.inj (Except.ok.inj ((if_pos hopen).symm.trans hconn))
      exact fun hne => absurd rfl hne
    case isFalse =>
      obtain ⟨rfl,_⟩ := Prod.mk.inj (Except.ok.inj hconn)
      exact hI

theorem run_invariant {m : ℕ} {b h : Bool} {mem : CallerMemory} {evs : List SendEvent}
    (hrun : run (new m b h mem) evs = .ok (s, effects)) : s.Invariant :=
  Runs.run_preserves Invariant (fun _ _ _ _ hI hok => step_invariant hI hok)
    (show (new m b h mem).Invariant from fun _ => TcpConnection.synced_established m b h) hrun

end SendSystem
open SendSystem

end IdealServer
