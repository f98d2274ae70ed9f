import IdealServer.OutgoingStream
import Mathlib.Data.List.Count
import Mathlib.Data.List.Perm.Basic

/-! One connection of a `TcpServer` with the functors that its loop still has to execute, in any order.
What user code and the other threads do between two steps of the loop is a list of events. -/
namespace IdealServer

inductive LoopFunctor
  | startReadInLoop
  | stopReadInLoop
  | sendInLoop (message : Bytes)
  | shutdownInLoop
  | forceCloseInLoop
  | removeConnectionInLoop
  | connectDestroyed
deriving DecidableEq

/-- What `removeConnectionInLoop` and `~TcpServer` queue, and what ends in it. -/
structure OwnedConnection where
  conn : TcpConnection
  /-- The functors of the calls of `shutdown` and `forceClose` on other threads that have tested the
  state and not set it yet. -/
  setting : List LoopFunctor
  pending : List LoopFunctor
  /-- The server lives, and its map has the connection. -/
  serverAlive : Bool
  inMap : Bool
  /-- Between the two callbacks of `handleClose`. -/
  closing : Bool
  /-- Before the last line of `connectDestroyed`, and after it. -/
  destroying : Bool
  removed : Bool

inductive UserCall
  | startRead
  | stopRead
  | send (message : Bytes)
  | shutdown
  | forceClose

inductive OwnedEvent
  | call (c : UserCall) (inLoopThread : Bool) (w : SysWrite)
  /-- A call on another thread sets the state and posts. -/
  | setState (i : ℕ)
  | runFunctor (i : ℕ) (w : SysWrite)
  | handleRead (r : SysRead)
  | handleWrite (w : SysWrite)
  /-- `POLLHUP` -/
  | hangUp
  | closeCallback (inServerLoop : Bool)
  | removeChannel
  | destroyServer (inLoopThread : Bool)

namespace OwnedConnection

/-- As `connectEstablished` leaves it. -/
def new (highWaterMark : ℕ) (hasWriteComplete hasHighWaterMark : Bool) : OwnedConnection where
  conn := TcpConnection.established highWaterMark hasWriteComplete hasHighWaterMark
  setting := []
  pending := []
  serverAlive := true
  inMap := true
  closing := false
  destroying := false
  removed := false

def queueInLoop (s : OwnedConnection) (f : LoopFunctor) : OwnedConnection :=
  { s with pending := s.pending ++ [f] }

/-- `handleClose` up to its close callback. -/
def handleClose (s : OwnedConnection) : Except Fault OwnedConnection := do
  let (conn, _) ← s.conn.handleClose
  return { s with conn := conn, closing := true }

def handleRead (s : OwnedConnection) : SysRead → Except Fault OwnedConnection
  | .data => .ok s
  | .eof => s.handleClose
  | .failed _ => .ok s

/-- `connectDestroyed` up to the removal of its channel. -/
def connectDestroyed (s : OwnedConnection) : OwnedConnection :=
  if s.conn.state = .kConnected then
    { s with
      conn := { s.conn with state := .kDisconnected, channel := s.conn.channel.disableAll }
      destroying := true }
  else { s with destroying := true }

def removeChannel (s : OwnedConnection) : Except Fault OwnedConnection := do
  let channel ← s.conn.channel.remove
  return { s with conn := { s.conn with channel := channel }, destroying := false, removed := true }

def removeConnectionInLoop (s : OwnedConnection) : Except Fault OwnedConnection :=
  if s.serverAlive then
    if s.inMap then .ok ({ s with inMap := false }.queueInLoop .connectDestroyed)
    else .error .assertFailed
  else .error .danglingPointer

def execute (s : OwnedConnection) (w : SysWrite) : LoopFunctor → Except Fault OwnedConnection
  | .startReadInLoop => .ok { s with conn := s.conn.startReadInLoop }
  | .stopReadInLoop => .ok { s with conn := s.conn.stopReadInLoop }
  | .sendInLoop message => do
    let (conn, _) ← s.conn.sendInLoop message w
    return { s with conn := conn }
  | .shutdownInLoop => .ok s
  | .forceCloseInLoop => if s.conn.isOpen then s.handleClose else .ok s
  | .removeConnectionInLoop => s.removeConnectionInLoop
  | .connectDestroyed => .ok s.connectDestroyed

def runInLoop (s : OwnedConnection) (inLoopThread : Bool) (w : SysWrite) (f : LoopFunctor) :
    Except Fault OwnedConnection :=
  if inLoopThread then s.execute w f else .ok (s.queueInLoop f)

/-- The two calls that set `kDisconnecting`, which another thread does in a second step. -/
def disconnect (s : OwnedConnection) (inLoopThread : Bool) (w : SysWrite) (f : LoopFunctor) :
    Except Fault OwnedConnection :=
  if inLoopThread then { s with conn := { s.conn with state := .kDisconnecting } }.execute w f
  else .ok { s with setting := s.setting ++ [f] }

def call (s : OwnedConnection) (inLoopThread : Bool) (w : SysWrite) :
    UserCall → Except Fault OwnedConnection
  | .startRead => s.runInLoop inLoopThread w .startReadInLoop
  | .stopRead => s.runInLoop inLoopThread w .stopReadInLoop
  | .send message =>
    if s.conn.state = .kConnected then s.runInLoop inLoopThread w (.sendInLoop message) else .ok s
  | .shutdown =>
    if s.conn.state = .kConnected then s.disconnect inLoopThread w .shutdownInLoop else .ok s
  | .forceClose => if s.conn.isOpen then s.disconnect inLoopThread w .forceCloseInLoop else .ok s

def step (s : OwnedConnection) : OwnedEvent → Except Fault OwnedConnection
  | .call c inLoopThread w => s.call inLoopThread w c
  | .setState i =>
    match s.setting[i]? with
    | none => .ok s
    | some f => .ok ({ s with
        conn := { s.conn with state := .kDisconnecting }
        setting := s.setting.eraseIdx i }.queueInLoop f)
  | .runFunctor i w =>
    match s.pending[i]? with
    | none => .ok s
    | some f => { s with pending := s.pending.eraseIdx i }.execute w f
  | .handleRead r => s.handleRead r
  | .handleWrite w => do
    let (conn, _) ← s.conn.handleWrite w
    return { s with conn := conn }
  | .hangUp => s.handleClose
  | .closeCallback inServerLoop =>
    -- the callback is bound to the server
    if s.closing then
      if s.serverAlive then
        { s with closing := false }.runInLoop inServerLoop (.wrote 0) .removeConnectionInLoop
      else .error .danglingPointer
    else .ok s
  | .removeChannel => if s.destroying then s.removeChannel else .ok s
  | .destroyServer inLoopThread =>
    if s.inMap then
      { s with serverAlive := false, inMap := false }.runInLoop inLoopThread (.wrote 0) .connectDestroyed
    else .ok { s with serverAlive := false }

/-- A run without observations. -/
def stepRun (s : OwnedConnection) (ev : OwnedEvent) : Except Fault (OwnedConnection × List Unit) :=
  (s.step ev).map (fun s' => (s', []))

def run : OwnedConnection → List OwnedEvent → Except Fault (OwnedConnection × List Unit) :=
  Runs.run stepRun

/-- The functor that an event executes, where it matters. -/
def executes (s : OwnedConnection) : OwnedEvent → Option LoopFunctor
  | .call .startRead true _ => some .startReadInLoop
  | .call .stopRead true _ => some .stopReadInLoop
  | .runFunctor i _ => s.pending[i]?
  | .destroyServer true => if s.inMap then some .connectDestroyed else none
  | _ => none

/-- `startReadInLoop` on a disconnected connection turns read interest on. `stopReadInLoop` registers
a channel that has been removed. `connectDestroyed` takes `kDisconnecting` for disconnected. -/
def Breaks (s : OwnedConnection) : LoopFunctor → Prop
  | .startReadInLoop => s.conn.state = .kDisconnected
  | .stopReadInLoop => s.removed = true ∧ s.conn.reading = true
  | .connectDestroyed => s.conn.state = .kDisconnecting
  | _ => False

/-- The last is a state that is set on another thread after the connection has been closed. -/
def Undisciplined (s : OwnedConnection) (ev : OwnedEvent) : Prop :=
  (∃ f, s.executes ev = some f ∧ s.Breaks f) ∨
    ∃ i, ev = .setState i ∧ i < s.setting.length ∧ s.conn.state = .kDisconnected

end OwnedConnection

/-- Whether the functor holds a `TcpConnectionPtr`; the others hold a pointer. -/
def LoopFunctor.holds : LoopFunctor → Bool
  | .startReadInLoop | .stopReadInLoop | .sendInLoop _ => false
  | _ => true

namespace OwnedConnection

/-- Only users can still hold the connection. -/
def Unowned (s : OwnedConnection) : Prop :=
  s.inMap = false ∧ s.setting = [] ∧ s.closing = false ∧ s.destroying = false ∧
    ∀ f ∈ s.pending, f.holds = false

structure Invariant (s : OwnedConnection) : Prop where
  established : s.conn.state ≠ .kConnecting
  none : s.conn.state = .kDisconnected → s.conn.channel.isNoneEvent = true
  known : s.removed = false → s.conn.channel.label ≠ .kNew
  gone : s.removed = true → s.conn.channel.addedToLoop = false ∧ s.conn.channel.label = .kNew
  closed : s.destroying = true ∨ s.removed = true ∨ s.closing = true ∨
    .removeConnectionInLoop ∈ s.pending → s.conn.state = .kDisconnected
  setting : ∀ f ∈ s.setting, f = .shutdownInLoop ∨ f = .forceCloseInLoop
  /-- The connection is destroyed once. -/
  once : s.inMap.toNat+s.pending.count .connectDestroyed+s.destroying.toNat+s.removed.toNat = 1

variable {s s' : OwnedConnection} {f : LoopFunctor} {w : SysWrite}

theorem invariant_new (m : ℕ) (b h : Bool) : (new m b h).Invariant where
  established := fun h => by cases h
  none := fun h => by cases h
  known := fun _ h => by cases h
  gone := fun h => by cases h
  closed := by simp [new]
  setting := fun f hf => by cases hf
  once := rfl

/-- The order of the functors does not matter. -/
theorem Invariant.perm (hI : s.Invariant) {pending : List LoopFunctor} (h : s.pending.Perm pending) :
    { s with pending := pending }.Invariant :=
  ⟨hI.established, hI.none, hI.known, hI.gone, fun hc => hI.closed (by rwa [h.mem_iff]), hI.setting,
    (h.count_eq .connectDestroyed) ▸ hI.once⟩

theorem queueInLoop_mem {g : LoopFunctor} :
    g ∈ (s.queueInLoop f).pending ↔ g ∈ s.pending ∨ g = f := by
  rw [queueInLoop, List.mem_append, List.mem_singleton]

/-- A functor of a user. -/
theorem Invariant.queueInLoop (hI : s.Invariant) (hremove : f ≠ .removeConnectionInLoop)
    (hdestroy : f ≠ .connectDestroyed) : (s.queueInLoop f).Invariant := by
  refine ⟨hI.established, hI.none, hI.known, hI.gone, ?_, hI.setting, ?_⟩
  · intro h
    apply hI.closed
    rw [queueInLoop_mem] at h
    exact h.imp_right (fun h => h.imp_right (fun h => h.imp_right
      (fun h => h.resolve_right hremove.symm)))
  · have hcount : (s.queueInLoop f).pending.count .connectDestroyed =
        s.pending.count .connectDestroyed := by
      rw [OwnedConnection.queueInLoop, List.count_append, List.count_singleton, if_neg (by simp [hdestroy]),
        Nat.add_zero]
    rw [hcount]
    exact hI.once

/-- An operation of the connection that changes its channel, if at all, only while it is open or
known. -/
theorem Invariant.withConn (hI : s.Invariant) {conn : TcpConnection}
    (hstate : conn.state = s.conn.state)
    (hnone : conn.state = .kDisconnected → conn.channel.isNoneEvent = true)
    (hchannel : conn.channel = s.conn.channel ∨ (s.removed = false ∧ conn.channel.label ≠ .kNew)) :
    { s with conn := conn }.Invariant := by
  refine ⟨hstate ▸ hI.established, hnone, ?_, ?_, ?_, hI.setting, hI.once⟩
  · intro hremoved
    rcases hchannel with heq | ⟨_,hlabel⟩
    · rw [heq]
      exact hI.known hremoved
    · exact hlabel
  · intro hremoved
    rcases hchannel with heq | ⟨hnot,_⟩
    · rw [heq]
      exact hI.gone hremoved
    · rw [hremoved] at hnot
      cases hnot
  · intro h
    rw [hstate]
    exact hI.closed h

theorem count_queueInLoop : (s.queueInLoop f).pending.count .connectDestroyed =
    s.pending.count .connectDestroyed + if f = .connectDestroyed then 1 else 0 := by
  rw [OwnedConnection.queueInLoop, List.count_append, List.count_singleton]
  simp only [beq_iff_eq]

theorem Invariant.dequeue (hI : (s.queueInLoop f).Invariant) (hdestroy : f ≠ .connectDestroyed) :
    s.Invariant := by
  refine ⟨hI.established, hI.none, hI.known, hI.gone, ?_, hI.setting, ?_⟩
  · intro h
    apply hI.closed
    rw [queueInLoop_mem]
    exact h.imp_right (fun h => h.imp_right (fun h => h.imp_right Or.inl))
  · have honce := hI.once
    rw [count_queueInLoop, if_neg hdestroy, Nat.add_zero] at honce
    exact honce

/-- An open connection has not been removed, and nothing has begun to do so. -/
theorem Invariant.open (hI : s.Invariant) (hopen : s.conn.state ≠ .kDisconnected) :
    s.destroying = false ∧ s.removed = false ∧ s.closing = false ∧
      .removeConnectionInLoop ∉ s.pending := by
  have h := mt hI.closed hopen
  rw [not_or, not_or, not_or] at h
  exact ⟨eq_false_of_ne_true h.1, eq_false_of_ne_true h.2.1, eq_false_of_ne_true h.2.2.1, h.2.2.2⟩

theorem isOpen_ne {c : TcpConnection} (h : c.isOpen = true) : c.state ≠ .kDisconnected := by
  intro hstate
  rw [TcpConnection.isOpen, hstate] at h
  cases h

theorem Invariant.handleClose (hI : s.Invariant) (h : s.handleClose = .ok s') : s'.Invariant := by
  obtain ⟨⟨conn,effects⟩,hclose,h⟩ := Runs.bind_ok h
  obtain rfl := Except.ok.inj h
  unfold TcpConnection.handleClose at hclose
  split at hclose
  case isFalse => cases hclose
  case isTrue hopen =>
    obtain ⟨rfl,_⟩ := Prod.mk.inj (Except.ok.inj hclose)
    obtain ⟨_,hremoved,_⟩ := hI.open (isOpen_ne hopen)
    refine ⟨fun h => (by cases h), fun _ => rfl, fun _ => Channel.update_label _, ?_, fun _ => rfl,
      hI.setting, hI.once⟩
    intro h
    replace h : s.removed = true := h
    rw [hremoved] at h
    cases h

theorem Invariant.startReadInLoop (hI : s.Invariant) (hopen : s.conn.state ≠ .kDisconnected) :
    { s with conn := s.conn.startReadInLoop }.Invariant := by
  unfold TcpConnection.startReadInLoop
  split
  · exact @Invariant.withConn _ hI
      { s.conn with channel := s.conn.channel.enableReading, reading := true } rfl
      (fun h => absurd h hopen) (Or.inr ⟨(hI.open hopen).2.1, Channel.update_label _⟩)
  · exact hI

theorem Invariant.stopReadInLoop (hI : s.Invariant)
    (hbreaks : ¬ (s.removed = true ∧ s.conn.reading = true)) :
    { s with conn := s.conn.stopReadInLoop }.Invariant := by
  unfold TcpConnection.stopReadInLoop
  split
  case isFalse => exact hI
  case isTrue hreading =>
    have hremoved : s.removed = false := by
      apply eq_false_of_ne_true
      intro hremoved
      have hnone := hI.none (hI.closed (Or.inr (Or.inl hremoved)))
      have hoff : s.conn.reading = false := eq_false_of_ne_true (fun h => hbreaks ⟨hremoved, h⟩)
      rw [Channel.isNoneEvent, Bool.and_eq_true, Bool.not_eq_true'] at hnone
      rw [hoff, Bool.false_or, Channel.isReading, hnone.1] at hreading
      cases hreading
    refine @Invariant.withConn _ hI
      { s.conn with channel := s.conn.channel.disableReading, reading := false } rfl ?_
      (Or.inr ⟨hremoved, Channel.update_label _⟩)
    intro hstate
    have hnone := hI.none hstate
    rw [Channel.isNoneEvent, Bool.and_eq_true] at hnone ⊢
    exact ⟨rfl, hnone.2⟩

theorem Invariant.sendInLoop (hI : s.Invariant) {message : Bytes} {conn : TcpConnection}
    {effects : List TcpEffect} (h : s.conn.sendInLoop message w = .ok (conn, effects)) :
    { s with conn := conn }.Invariant := by
  obtain ⟨hconn,hchannel,_⟩ := TcpConnection.sendInLoop_frame h
  have hstate : conn.state = s.conn.state := by rw [hconn]
  rcases hchannel with hsame | ⟨hopen,henable⟩
  · refine hI.withConn hstate ?_ (Or.inl hsame)
    rw [hsame, hstate]
    exact hI.none
  · refine hI.withConn hstate (fun h => absurd (hstate.symm.trans h) hopen) (Or.inr ?_)
    rw [henable]
    exact ⟨(hI.open hopen).2.1, Channel.update_label _⟩

theorem Invariant.handleWrite (hI : s.Invariant) {conn : TcpConnection} {effects : List TcpEffect}
    (h : s.conn.handleWrite w = .ok (conn, effects)) : { s with conn := conn }.Invariant := by
  obtain ⟨hstate,_,hchannel⟩ := TcpConnection.handleWrite_frame h
  rcases hchannel with hsame | ⟨hwriting,hdisable⟩
  · refine hI.withConn hstate ?_ (Or.inl hsame)
    rw [hsame, hstate]
    exact hI.none
  · have hopen : s.conn.state ≠ .kDisconnected := by
      intro hclosed
      have hnone := hI.none hclosed
      rw [Channel.isNoneEvent, hwriting, Bool.not_true, Bool.and_false] at hnone
      cases hnone
    refine hI.withConn hstate (fun h => absurd (hstate.symm.trans h) hopen) (Or.inr ?_)
    rw [hdisable]
    exact ⟨(hI.open hopen).2.1, Channel.update_label _⟩

theorem Invariant.removeConnectionInLoop (hI : (s.queueInLoop .removeConnectionInLoop).Invariant)
    (h : s.removeConnectionInLoop = .ok s') : s'.Invariant := by
  unfold OwnedConnection.removeConnectionInLoop at h
  split at h
  case isFalse => cases h
  case isTrue =>
    split at h
    case isFalse => cases h
    case isTrue hmap =>
      obtain rfl := Except.ok.inj h
      have hclosed : s.conn.state = .kDisconnected :=
        hI.closed (Or.inr (Or.inr (Or.inr (queueInLoop_mem.mpr (Or.inr rfl)))))
      refine ⟨hI.established, hI.none, hI.known, hI.gone, fun _ => hclosed, hI.setting, ?_⟩
      have honce := hI.once
      rw [count_queueInLoop] at honce ⊢
      replace honce : s.inMap.toNat+(s.pending.count .connectDestroyed+0)+s.destroying.toNat+
        s.removed.toNat = 1 := honce
      show 0+(s.pending.count .connectDestroyed+1)+s.destroying.toNat+s.removed.toNat = 1
      rw [hmap, Bool.toNat_true] at honce
      omega

theorem Invariant.connectDestroyed (hI : (s.queueInLoop .connectDestroyed).Invariant)
    (hbreaks : s.conn.state ≠ .kDisconnecting) : s.connectDestroyed.Invariant := by
  have honce := hI.once
  rw [count_queueInLoop, if_pos rfl] at honce
  replace honce : s.inMap.toNat+(s.pending.count .connectDestroyed+1)+s.destroying.toNat+
    s.removed.toNat = 1 := honce
  have hdestroying : s.destroying = false := by
    cases hd : s.destroying with
    | false => rfl
    | true =>
      rw [hd, Bool.toNat_true] at honce
      omega
  have hremoved : s.removed = false := by
    cases hr : s.removed with
    | false => rfl
    | true =>
      rw [hr, Bool.toNat_true] at honce
      omega
  have hafter : s.inMap.toNat+s.pending.count .connectDestroyed+1+s.removed.toNat = 1 := by
    rw [hdestroying, Bool.toNat_false] at honce
    omega
  unfold OwnedConnection.connectDestroyed
  split
  · refine ⟨fun h => (by cases h), fun _ => rfl, fun _ => Channel.update_label _, ?_, fun _ => rfl,
      hI.setting, hafter⟩
    intro h
    replace h : s.removed = true := h
    rw [hremoved] at h
    cases h
  case isFalse hnot =>
    have hclosed : s.conn.state = .kDisconnected := by
      cases hstate : s.conn.state with
      | kDisconnected => rfl
      | kConnecting => exact absurd hstate hI.established
      | kConnected => exact absurd hstate hnot
      | kDisconnecting => exact absurd hstate hbreaks
    exact ⟨hI.established, hI.none, hI.known, hI.gone, fun _ => hclosed, hI.setting, hafter⟩

/-- Executing a functor, which until then counts as queued. -/
theorem Invariant.execute (hI : (s.queueInLoop f).Invariant) (hbreaks : ¬ s.Breaks f)
    (h : s.execute w f = .ok s') : s'.Invariant := by
  cases f with
  | startReadInLoop =>
    obtain rfl := Except.ok.inj h
    exact (hI.dequeue (fun h => by cases h)).startReadInLoop hbreaks
  | stopReadInLoop =>
    obtain rfl := Except.ok.inj h
    exact (hI.dequeue (fun h => by cases h)).stopReadInLoop hbreaks
  | sendInLoop message =>
    obtain ⟨⟨conn,effects⟩,hsend,h⟩ := Runs.bind_ok h
    obtain rfl := Except.ok.inj h
    exact (hI.dequeue (fun h => by cases h)).sendInLoop hsend
  | shutdownInLoop =>
    obtain rfl := Except.ok.inj h
    exact hI.dequeue (fun h => by cases h)
  | forceCloseInLoop =>
    replace h : (if s.conn.isOpen then s.handleClose else .ok s) = .ok s' := h
    split at h
    · exact (hI.dequeue (fun h => by cases h)).handleClose h
    · obtain rfl := Except.ok.inj h
      exact hI.dequeue (fun h => by cases h)
  | removeConnectionInLoop => exact hI.removeConnectionInLoop h
  | connectDestroyed =>
    obtain rfl := Except.ok.inj h
    exact hI.connectDestroyed hbreaks

theorem Invariant.runInLoop (hI : (s.queueInLoop f).Invariant) {inLoopThread : Bool}
    (hbreaks : inLoopThread = true → ¬ s.Breaks f)
    (h : s.runInLoop inLoopThread w f = .ok s') : s'.Invariant := by
  unfold OwnedConnection.runInLoop at h
  split at h
  case isTrue hin => exact hI.execute (hbreaks hin) h
  case isFalse =>
    obtain rfl := Except.ok.inj h
    exact hI

/-- An open connection begins to disconnect. -/
theorem Invariant.setDisconnecting (hI : s.Invariant) (hopen : s.conn.state ≠ .kDisconnected) :
    { s with conn := { s.conn with state := .kDisconnecting } }.Invariant := by
  obtain ⟨hdestroying,hremoved,hclosing,hmem⟩ := hI.open hopen
  refine ⟨fun h => (by cases h), fun h => (by cases h), hI.known, hI.gone, ?_, hI.setting, hI.once⟩
  rintro (h | h | h | h)
  · replace h : s.destroying = true := h
    rw [hdestroying] at h
    cases h
  · replace h : s.removed = true := h
    rw [hremoved] at h
    cases h
  · replace h : s.closing = true := h
    rw [hclosing] at h
    cases h
  · exact absurd h hmem

theorem Invariant.disconnect (hI : s.Invariant) (hopen : s.conn.state ≠ .kDisconnected)
    (hf : f = .shutdownInLoop ∨ f = .forceCloseInLoop) {inLoopThread : Bool}
    (h : s.disconnect inLoopThread w f = .ok s') : s'.Invariant := by
  unfold OwnedConnection.disconnect at h
  split at h
  · apply Invariant.execute _ _ h
    · apply (hI.setDisconnecting hopen).queueInLoop
      · rcases hf with rfl | rfl <;> simp
      · rcases hf with rfl | rfl <;> simp
    · rcases hf with rfl | rfl <;> exact id
  · obtain rfl := Except.ok.inj h
    refine ⟨hI.established, hI.none, hI.known, hI.gone, hI.closed, ?_, hI.once⟩
    intro g hg
    rcases List.mem_append.mp hg with hg | hg
    · exact hI.setting g hg
    · rw [List.mem_singleton.mp hg]
      exact hf

theorem Invariant.call (hI : s.Invariant) {c : UserCall} {inLoopThread : Bool}
    (hok : ¬ s.Undisciplined (.call c inLoopThread w)) (h : s.call inLoopThread w c = .ok s') :
    s'.Invariant := by
  cases c with
  | startRead =>
    apply (hI.queueInLoop (by simp) (by simp)).runInLoop _ h
    rintro rfl hbreaks
    exact hok (Or.inl ⟨_, rfl, hbreaks⟩)
  | stopRead =>
    apply (hI.queueInLoop (by simp) (by simp)).runInLoop _ h
    rintro rfl hbreaks
    exact hok (Or.inl ⟨_, rfl, hbreaks⟩)
  | send message =>
    dsimp only [OwnedConnection.call] at h
    split at h
    · exact (hI.queueInLoop (by simp) (by simp)).runInLoop (fun _ => id) h
    · obtain rfl := Except.ok.inj h
      exact hI
  | shutdown =>
    dsimp only [OwnedConnection.call] at h
    split at h
    case isTrue hconnected =>
      exact hI.disconnect (by rw [hconnected]; simp) (Or.inl rfl) h
    case isFalse =>
      obtain rfl := Except.ok.inj h
      exact hI
  | forceClose =>
    dsimp only [OwnedConnection.call] at h
    split at h
    case isTrue hopen => exact hI.disconnect (isOpen_ne hopen) (Or.inr rfl) h
    case isFalse =>
      obtain rfl := Except.ok.inj h
      exact hI

theorem Invariant.setState (hI : s.Invariant) {i : ℕ} (hok : ¬ s.Undisciplined (.setState i))
    (h : s.step (.setState i) = .ok s') : s'.Invariant := by
  dsimp only [step] at h
  split at h
  case h_1 =>
    obtain rfl := Except.ok.inj h
    exact hI
  case h_2 f hf =>
    obtain rfl := Except.ok.inj h
    have hopen : s.conn.state ≠ .kDisconnected := by
      intro hclosed
      exact hok (Or.inr ⟨i, rfl, (List.getElem?_eq_some_iff.mp hf).1, hclosed⟩)
    have hmem := hI.setting f (List.mem_of_getElem? hf)
    have hset : ({ s with
        conn := { s.conn with state := .kDisconnecting }
        setting := s.setting.eraseIdx i } : OwnedConnection).Invariant := by
      have hset := hI.setDisconnecting hopen
      exact ⟨hset.established, hset.none, hset.known, hset.gone, hset.closed,
        fun g hg => hI.setting g (List.mem_of_mem_eraseIdx hg), hset.once⟩
    apply hset.queueInLoop
    · rcases hmem with rfl | rfl <;> simp
    · rcases hmem with rfl | rfl <;> simp

theorem Invariant.runFunctor (hI : s.Invariant) {i : ℕ} (hok : ¬ s.Undisciplined (.runFunctor i w))
    (h : s.step (.runFunctor i w) = .ok s') : s'.Invariant := by
  dsimp only [step] at h
  split at h
  case h_1 =>
    obtain rfl := Except.ok.inj h
    exact hI
  case h_2 f hf =>
    obtain ⟨hi,rfl⟩ := List.getElem?_eq_some_iff.mp hf
    have hperm : s.pending.Perm (s.pending.eraseIdx i ++ [s.pending[i]]) :=
      (List.getElem_cons_eraseIdx_perm hi).symm.trans (List.perm_append_singleton _ _).symm
    have hqueued : ({ s with pending := s.pending.eraseIdx i }.queueInLoop s.pending[i]).Invariant :=
      hI.perm hperm
    exact hqueued.execute (fun hbreaks => hok (Or.inl ⟨_, hf, hbreaks⟩)) h

theorem Invariant.closeCallback (hI : s.Invariant) {inServerLoop : Bool}
    (h : s.step (.closeCallback inServerLoop) = .ok s') : s'.Invariant := by
  dsimp only [step] at h
  split at h
  case isFalse =>
    obtain rfl := Except.ok.inj h
    exact hI
  case isTrue hclosing =>
    split at h
    case isFalse => cases h
    case isTrue =>
      have hclosed := hI.closed (Or.inr (Or.inr (Or.inl hclosing)))
      apply Invariant.runInLoop _ (fun _ => id) h
      refine ⟨hI.established, hI.none, hI.known, hI.gone, fun _ => hclosed, hI.setting, ?_⟩
      rw [count_queueInLoop]
      exact hI.once

/-- The channel of a connection that is about to be removed can be. -/
theorem Invariant.remove_ok (hI : s.Invariant) (hdestroying : s.destroying = true) :
    s.removed = false ∧ s.conn.channel.isNoneEvent = true ∧ s.conn.channel.remove =
      .ok { s.conn.channel with addedToLoop := false, label := .kNew } := by
  have hremoved : s.removed = false := by
    have honce := hI.once
    rw [hdestroying, Bool.toNat_true] at honce
    cases hr : s.removed with
    | false => rfl
    | true =>
      rw [hr, Bool.toNat_true] at honce
      omega
  have hnone := hI.none (hI.closed (Or.inl hdestroying))
  refine ⟨hremoved, hnone, if_pos ?_⟩
  rw [hnone, Bool.true_and, decide_eq_true_iff]
  exact hI.known hremoved

theorem Invariant.removeChannel (hI : s.Invariant) (hdestroying : s.destroying = true)
    (h : s.removeChannel = .ok s') : s'.Invariant := by
  obtain ⟨hremoved,hnone,hremove⟩ := hI.remove_ok hdestroying
  unfold OwnedConnection.removeChannel at h
  rw [hremove] at h
  obtain rfl := Except.ok.inj h
  have hclosed := hI.closed (Or.inl hdestroying)
  refine ⟨hI.established, fun _ => hnone, fun h => (by cases h), fun _ => ⟨rfl, rfl⟩, fun _ => hclosed,
    hI.setting, ?_⟩
  have honce := hI.once
  rw [hdestroying, hremoved] at honce
  exact honce

theorem Invariant.destroyServer (hI : s.Invariant) {inLoopThread : Bool}
    (hok : ¬ s.Undisciplined (.destroyServer inLoopThread))
    (h : s.step (.destroyServer inLoopThread) = .ok s') : s'.Invariant := by
  dsimp only [step] at h
  split at h
  case isFalse =>
    obtain rfl := Except.ok.inj h
    exact ⟨hI.established, hI.none, hI.known, hI.gone, hI.closed, hI.setting, hI.once⟩
  case isTrue hmap =>
    apply Invariant.runInLoop _ _ h
    · refine ⟨hI.established, hI.none, hI.known, hI.gone, ?_, hI.setting, ?_⟩
      · intro hc
        apply hI.closed
        rw [queueInLoop_mem] at hc
        exact hc.imp_right (fun hc => hc.imp_right (fun hc => hc.imp_right
          (fun hc => hc.resolve_right (by simp))))
      · rw [count_queueInLoop]
        show 0+(s.pending.count .connectDestroyed+1)+s.destroying.toNat+s.removed.toNat = 1
        have honce := hI.once
        rw [hmap, Bool.toNat_true] at honce
        omega
    · rintro rfl hbreaks
      refine hok (Or.inl ⟨.connectDestroyed, ?_, hbreaks⟩)
      exact if_pos hmap

/-- Every event that is disciplined keeps the invariant. -/
theorem step_invariant (hI : s.Invariant) {ev : OwnedEvent} (hok : ¬ s.Undisciplined ev)
    (h : s.step ev = .ok s') : s'.Invariant := by
  cases ev with
  | call c inLoopThread w => exact hI.call hok h
  | setState i => exact hI.setState hok h
  | runFunctor i w => exact hI.runFunctor hok h
  | handleRead r =>
    cases r with
    | data =>
      obtain rfl := Except.ok.inj h
      exact hI
    | eof => exact hI.handleClose h
    | failed errno =>
      obtain rfl := Except.ok.inj h
      exact hI
  | handleWrite w =>
    obtain ⟨⟨conn,effects⟩,hwrite,h⟩ := Runs.bind_ok h
    obtain rfl := Except.ok.inj h
    exact hI.handleWrite hwrite
  | hangUp => exact hI.handleClose h
  | closeCallback inServerLoop => exact hI.closeCallback h
  | removeChannel =>
    dsimp only [step] at h
    split at h
    case isTrue hdestroying => exact hI.removeChannel hdestroying h
    case isFalse =>
      obtain rfl := Except.ok.inj h
      exact hI
  | destroyServer inLoopThread => exact hI.destroyServer hok h

/-- A connection that only users hold has been removed. -/
theorem Invariant.unowned (hI : s.Invariant) (h : s.Unowned) : s.removed = true := by
  obtain ⟨hmap,_,_,hdestroying,hpending⟩ := h
  have hcount : s.pending.count .connectDestroyed = 0 := by
    apply List.count_eq_zero_of_not_mem
    intro hmem
    cases hpending _ hmem
  have honce := hI.once
  rw [hmap, hcount, hdestroying] at honce
  cases hr : s.removed with
  | true => rfl
  | false =>
    rw [hr] at honce
    cases honce

end OwnedConnection
open OwnedConnection

/-- In every run whose events are disciplined, a disconnected connection has no events, its channel is
removed only without events and without a failing assertion, a channel that has been removed is not
registered, and a connection that nobody but users holds is disconnected and its channel removed. -/
theorem channel_discipline (m : ℕ) (b h : Bool) (evs : List OwnedEvent) {s : OwnedConnection}
    (hok : Runs.Along OwnedConnection.stepRun (fun s ev => ¬ s.Undisciplined ev) (.new m b h) evs)
    (hrun : OwnedConnection.run (.new m b h) evs = .ok (s, [])) :
    (s.conn.state = .kDisconnected → s.conn.channel.isNoneEvent = true) ∧
    (s.destroying = true → s.conn.channel.isNoneEvent = true ∧ ∃ s', s.step .removeChannel = .ok s') ∧
    (s.removed = true → s.conn.channel.addedToLoop = false ∧ s.conn.channel.label = .kNew) ∧
    (s.Unowned → s.conn.state = .kDisconnected ∧ s.conn.channel.addedToLoop = false ∧
      s.conn.channel.label = .kNew) := by
  have hI : s.Invariant := by
    apply Runs.run_preserves_along OwnedConnection.Invariant _ (invariant_new m b h) hok hrun
    intro s ev s' out hI hev hstep
    unfold stepRun at hstep
    cases hs : s.step ev with
    | error e =>
      rw [hs] at hstep
      cases hstep
    | ok t =>
      rw [hs] at hstep
      obtain ⟨rfl,_⟩ := Prod.mk.inj (Except.ok.inj hstep)
      exact step_invariant hI hev hs
  refine ⟨hI.none, ?_, hI.gone, ?_⟩
  · intro hdestroying
    obtain ⟨_,hnone,hremove⟩ := hI.remove_ok hdestroying
    have hstep : s.step .removeChannel = s.removeChannel := if_pos hdestroying
    unfold OwnedConnection.removeChannel at hstep
    rw [hremove] at hstep
    exact ⟨hnone, _, hstep⟩
  · intro hunowned
    have hremoved := hI.unowned hunowned
    exact ⟨hI.closed (Or.inr (Or.inl hremoved)), hI.gone hremoved⟩

/-- Another thread stops reading, the peer closes, and the connection is removed. -/
theorem channel_discipline_closed : ∃ s : OwnedConnection,
    OwnedConnection.run (.new 100 false false)
      [.call .stopRead false (.wrote 0), .handleRead .eof, .closeCallback true, .runFunctor 0 (.wrote 0),
        .runFunctor 0 (.wrote 0), .removeChannel] = .ok (s, []) ∧
    s.removed = true ∧ s.conn.channel.addedToLoop = false ∧ s.conn.channel.label = .kNew := by
  have hcalm {s : OwnedConnection} {ev : OwnedEvent} {f : LoopFunctor} (hexec : s.executes ev = some f)
      (hbreaks : ¬ s.Breaks f) (hset : ∀ i, ev ≠ .setState i) : ¬ s.Undisciplined ev := by
    rintro (⟨g,hg,hb⟩ | ⟨i,hev,_⟩)
    · obtain rfl := Option.some.inj (hexec.symm.trans hg)
      exact hbreaks hb
    · exact hset i hev
  have hidle {s : OwnedConnection} {ev : OwnedEvent} (hexec : s.executes ev = none)
      (hset : ∀ i, ev ≠ .setState i) : ¬ s.Undisciplined ev := by
    rintro (⟨g,hg,_⟩ | ⟨i,hev,_⟩)
    · rw [hexec] at hg
      cases hg
    · exact hset i hev
  have h := @channel_discipline 100 false false
    [.call .stopRead false (.wrote 0), .handleRead .eof, .closeCallback true, .runFunctor 0 (.wrote 0),
      .runFunctor 0 (.wrote 0), .removeChannel] _
    (Runs.along_cons (hidle rfl (by simp)) rfl (Runs.along_cons (hidle rfl (by simp)) rfl
      (Runs.along_cons (hidle rfl (by simp)) rfl
        (Runs.along_cons (hcalm rfl (fun h => by cases h.1) (by simp)) rfl
          (Runs.along_cons (hcalm rfl (fun h => by cases h) (by simp)) rfl
            (Runs.along_cons (hidle rfl (by simp)) rfl trivial)))))) rfl
  exact ⟨_, rfl, rfl, h.2.2.1 rfl⟩

/-- A `startRead` of another thread that is executed after the peer has closed leaves a disconnected
connection with read interest, whose channel cannot be removed. After `shutdown` it is the destruction
of the server that cannot remove the channel. -/
theorem channel_discipline_fails :
    (∃ s, OwnedConnection.run (.new 100 false false)
        [.call .startRead false (.wrote 0), .handleRead .eof, .runFunctor 0 (.wrote 0)] = .ok (s, []) ∧
      s.conn.state = .kDisconnected ∧ s.conn.channel.isNoneEvent = false) ∧
    OwnedConnection.run (.new 100 false false)
      [.call .startRead false (.wrote 0), .handleRead .eof, .runFunctor 0 (.wrote 0),
        .closeCallback true, .runFunctor 0 (.wrote 0), .removeChannel] = .error .assertFailed ∧
    OwnedConnection.run (.new 100 false false)
      [.call .shutdown true (.wrote 0), .destroyServer true, .removeChannel] = .error .assertFailed :=
  ⟨⟨_, rfl, rfl, rfl⟩, rfl, rfl⟩

end IdealServer
