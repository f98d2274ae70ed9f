import IdealServer.OutgoingStream
import IdealServer.ReadFd
import Mathlib.Data.List.Rotate

/-! The ping-pong programs: a `Session` and the connection at the server send back what they read. Each side has
its `TcpConnection` and its input buffer; what the kernels do is up to them. -/
namespace IdealServer

/-- One end of the connection. -/
structure Endpoint where
  conn : TcpConnection
  inputBuffer : Buffer
  /-- What the other end has written and this one has not read. -/
  arriving : Bytes

namespace Endpoint

/-- `TcpConnection::send(Buffer*)` on the loop thread. -/
def send (s : Endpoint) (w : SysWrite) : Except Fault (Endpoint × List TcpEffect) :=
  if s.conn.state = .kConnected then do
    let (conn, effects) ← s.conn.sendInLoop s.inputBuffer.readable w
    return ({ s with conn := conn, inputBuffer := s.inputBuffer.retrieveAll }, effects)
  else .ok (s, [])

/-- `handleRead` where so many bytes are there, as far as the regions of `readFd` hold them. -/
def read (s : Endpoint) (k : ℕ) : Except Fault (Endpoint × ℕ) := do
  let (inputBuffer, n, _) ← s.inputBuffer.readFd (fun regions => .ok ((s.arriving.take k).take regions.sum))
  return ({ s with inputBuffer := inputBuffer, arriving := s.arriving.drop n.toNat }, n.toNat)

def write (s : Endpoint) (w : SysWrite) : Except Fault (Endpoint × List TcpEffect) := do
  let (conn, effects) ← s.conn.handleWrite w
  return ({ s with conn := conn }, effects)

end Endpoint

structure PingPong where
  client : Endpoint
  server : Endpoint
  bytesRead : ℕ
  messagesRead : ℕ

namespace PingPong

/-- What the loops report: a socket that is readable or writable. -/
inductive Event
  | clientReadable (k : ℕ) (w : SysWrite)
  | clientWritable (w : SysWrite)
  | serverReadable (k : ℕ) (w : SysWrite)
  | serverWritable (w : SysWrite)
deriving DecidableEq, Repr

/-- `Session::onConnection` sends the message. -/
def start (message : Bytes) (m m' : ℕ) (w : SysWrite) : Except Fault (PingPong × List TcpEffect) := do
  let (conn, effects) ← (TcpConnection.established m false false).sendInLoop message w
  let client : Endpoint := ⟨conn, .new, []⟩
  let server : Endpoint := ⟨.established m' false false, .new, written effects⟩
  return (⟨client, server, 0, 0⟩, effects)

/-- `Session::onMessage` -/
def onClient (s : PingPong) (k : ℕ) (w : SysWrite) : Except Fault (PingPong × List TcpEffect) := do
  let (client, n) ← s.client.read k
  -- nothing is there: `EAGAIN`
  if n = 0 then return ({ s with client := client }, [])
  else do
    let bytesRead := s.bytesRead+client.inputBuffer.readableBytes
    let (client, effects) ← client.send w
    let server := { s.server with arriving := s.server.arriving ++ written effects }
    return (⟨client, server, bytesRead, s.messagesRead+1⟩, effects)

/-- `onMessage` of the server -/
def onServer (s : PingPong) (k : ℕ) (w : SysWrite) : Except Fault (PingPong × List TcpEffect) := do
  let (server, n) ← s.server.read k
  if n = 0 then return ({ s with server := server }, [])
  else do
    let (server, effects) ← server.send w
    let client := { s.client with arriving := s.client.arriving ++ written effects }
    return ({ s with client := client, server := server }, effects)

def step (s : PingPong) : Event → Except Fault (PingPong × List TcpEffect)
  | .clientReadable k w => s.onClient k w
  | .serverReadable k w => s.onServer k w
  | .clientWritable w => do
    let (client, effects) ← s.client.write w
    return ({ s with client := client, server := { s.server with arriving := s.server.arriving ++ written effects } },
      effects)
  | .serverWritable w => do
    let (server, effects) ← s.server.write w
    return ({ s with server := server, client := { s.client with arriving := s.client.arriving ++ written effects } },
      effects)

/-- The write does not fail for a closed peer. -/
def Works (w : SysWrite) : Prop := w ≠ .failed EPIPE ∧ w ≠ .failed ECONNRESET

instance (w : SysWrite) : Decidable (Works w) := inferInstanceAs (Decidable (_ ∧ _))

def Event.Works : Event → Prop
  | .clientReadable _ w | .serverReadable _ w => PingPong.Works w
  | .clientWritable _ | .serverWritable _ => True

/-- All that is on its way, from the byte on that the client reads next. -/
def inFlight (s : PingPong) : Bytes :=
  s.client.arriving ++ s.server.conn.outputBuffer.readable ++ s.server.arriving ++ s.client.conn.outputBuffer.readable

end PingPong

namespace Endpoint
variable {s : Endpoint} {w : SysWrite}

/-- Between two events: nothing waits in the input buffer, and write interest is on where bytes wait to be sent. -/
structure Ready (s : Endpoint) : Prop where
  state : s.conn.state = .kConnected
  synced : s.conn.Synced
  input : s.inputBuffer.readable = []

theorem not_drops (conn : TcpConnection) (hw : PingPong.Works w) : conn.dropsMessage w = false := by
  rw [TcpConnection.dropsMessage, decide_eq_false hw.1, decide_eq_false hw.2]
  exact Bool.and_false _

theorem send_ok (hstate : s.conn.state = .kConnected) (hs : s.conn.Synced) (hw : PingPong.Works w) : ∃ s' effects,
    s.send w = .ok (s', effects) ∧ s'.Ready ∧ s'.arriving = s.arriving ∧
      written effects ++ s'.conn.outputBuffer.readable = s.conn.outputBuffer.readable ++ s.inputBuffer.readable := by
  obtain ⟨conn,effects,hsend,hsynced,hconn,hstream⟩ := s.conn.sendInLoop_stream hs
    (by rw [hstate]; decide) s.inputBuffer.readable w
  rw [not_drops s.conn hw, if_neg Bool.false_ne_true] at hstream
  refine ⟨{ s with conn := conn, inputBuffer := s.inputBuffer.retrieveAll }, effects, ?_,
    ⟨hconn.trans hstate, hsynced, Buffer.readable_retrieveAll _⟩, rfl, hstream⟩
  rw [send, if_pos hstate, hsend]
  rfl

theorem Ready.read_ok (h : s.Ready) (k : ℕ) : ∃ s' n, s.read k = .ok (s', n) ∧ s'.conn = s.conn ∧
    s'.inputBuffer.readable = s.arriving.take n ∧ s'.arriving = s.arriving.drop n ∧ n ≤ s.arriving.length := by
  obtain ⟨data,hdata⟩ : ∃ data, data = (s.arriving.take k).take s.inputBuffer.regions.sum := ⟨_, rfl⟩
  have hbegin : data <+: s.arriving := by
    rw [hdata]
    exact List.IsPrefix.trans ( List.take_prefix _ _) ( List.take_prefix _ _)
  have hfits : data.length ≤ s.inputBuffer.regions.sum := hdata ▸ List.length_take_le _ _
  obtain ⟨inputBuffer,hread,hreadable⟩ := @Buffer.readFd_ok s.inputBuffer
    (fun regions => .ok ((s.arriving.take k).take regions.sum)) data (by rw [hdata]) hfits
  refine ⟨{ s with inputBuffer := inputBuffer, arriving := s.arriving.drop data.length }, data.length, ?_, rfl, ?_, rfl,
    hbegin.length_le⟩
  · rw [read, hread]
    rfl
  · dsimp only
    rw [hreadable, h.input, List.nil_append]
    exact List.prefix_iff_eq_take.mp hbegin

/-- What `handleRead` comes to, with the `onMessage` of either end: what has been read is sent. -/
theorem Ready.answers (h : s.Ready) (k : ℕ) (hw : PingPong.Works w) : ∃ s1 n, s.read k = .ok (s1, n) ∧
    n ≤ s.arriving.length ∧ s1.inputBuffer.readableBytes = n ∧
    (n = 0 → s1.Ready ∧ s1.arriving = s.arriving ∧ s1.conn = s.conn) ∧
    ∃ s2 effects, s1.send w = .ok (s2, effects) ∧ s2.Ready ∧ s2.arriving = s.arriving.drop n ∧
      written effects ++ s2.conn.outputBuffer.readable = s.conn.outputBuffer.readable ++ s.arriving.take n := by
  obtain ⟨s1,n,hread,hconn,hinput,harriving,hn⟩ := h.read_ok k
  have hstate : s1.conn.state = .kConnected := hconn ▸ h.state
  have hsynced : s1.conn.Synced := hconn ▸ h.synced
  obtain ⟨s2,effects,hsend,hready,harriving',hstream⟩ := send_ok hstate hsynced hw
  refine ⟨s1, n, hread, hn, ?_, ?_, s2, effects, hsend, hready, harriving'.trans harriving, ?_⟩
  · rw [← Buffer.length_readable, hinput, List.length_take, Nat.min_eq_left hn]
  · intro hzero
    rw [hzero, List.take_zero] at hinput
    rw [hzero, List.drop_zero] at harriving
    exact ⟨⟨hstate, hsynced, hinput⟩, harriving, hconn⟩
  · rw [hstream, hconn, hinput]

theorem Ready.write_ok (h : s.Ready) (w : SysWrite) : ∃ s' effects, s.write w = .ok (s', effects) ∧ s'.Ready ∧
    s'.arriving = s.arriving ∧ written effects ++ s'.conn.outputBuffer.readable = s.conn.outputBuffer.readable := by
  obtain ⟨conn,effects,hwrite,hsynced,hconn,hstream⟩ := s.conn.handleWrite_stream h.synced w
  refine ⟨{ s with conn := conn }, effects, ?_, ⟨hconn.trans h.state, hsynced, h.input⟩, rfl, hstream⟩
  rw [write, hwrite]
  rfl

end Endpoint

namespace PingPong
variable {s : PingPong} {message : Bytes} {w : SysWrite}

/-- Each end is ready, and what is on its way is the message, turned by what has been read. -/
structure Sound (message : Bytes) (s : PingPong) : Prop where
  client : s.client.Ready
  server : s.server.Ready
  rotated : s.inFlight = message.rotate s.bytesRead
  messages : s.messagesRead ≤ s.bytesRead

theorem Sound.onClient (h : s.Sound message) (k : ℕ) (hw : Works w) :
    ∃ s' effects, s.onClient k w = .ok (s', effects) ∧ s'.Sound message := by
  obtain ⟨client,n,hread,hn,hbytes,hnothing,client',effects,hsend,hready,harriving,hstream⟩ := h.client.answers k hw
  by_cases hzero : n = 0
  · obtain ⟨hready1,harriving1,hconn⟩ := hnothing hzero
    refine ⟨{ s with client := client }, [], ?_, hready1, h.server, ?_, h.messages⟩
    · rw [PingPong.onClient, hread]
      change (if n = 0 then _ else _) = _
      rw [if_pos hzero]
      rfl
    · rw [← h.rotated, inFlight, inFlight]
      dsimp only
      rw [harriving1, hconn]
  · refine ⟨⟨client', { s.server with arriving := s.server.arriving ++ written effects },
      s.bytesRead+client.inputBuffer.readableBytes, s.messagesRead+1⟩, effects, ?_, hready,
      ⟨h.server.state, h.server.synced, h.server.input⟩, ?_, ?_⟩
    · rw [PingPong.onClient, hread]
      change (if n = 0 then _ else _) = _
      rw [if_neg hzero, hsend]
      rfl
    · -- what has been read goes to the end
      have hturn (rest : Bytes) : (s.client.arriving.take n ++ rest).rotate n = rest ++ s.client.arriving.take n := by
        have hrotate := List.rotate_append_length_eq (s.client.arriving.take n) rest
        rwa [List.length_take, Nat.min_eq_left hn] at hrotate
      dsimp only
      rw [hbytes, ← List.rotate_rotate, ← h.rotated]
      calc client'.arriving ++ s.server.conn.outputBuffer.readable ++ (s.server.arriving ++ written effects) ++
            client'.conn.outputBuffer.readable
          = s.client.arriving.drop n ++ (s.server.conn.outputBuffer.readable ++ (s.server.arriving ++
              (written effects ++ client'.conn.outputBuffer.readable))) := by
            rw [harriving]
            simp only [List.append_assoc]
        _ = s.client.arriving.drop n ++ s.server.conn.outputBuffer.readable ++ s.server.arriving ++
              s.client.conn.outputBuffer.readable ++ s.client.arriving.take n := by
            rw [hstream]
            simp only [List.append_assoc]
        _ = (s.client.arriving.take n ++ (s.client.arriving.drop n ++ s.server.conn.outputBuffer.readable ++
              s.server.arriving ++ s.client.conn.outputBuffer.readable)).rotate n := (hturn _).symm
        _ = s.inFlight.rotate n := by
            rw [inFlight, ← List.append_assoc, ← List.append_assoc, ← List.append_assoc, List.take_append_drop]
    · have hbefore := h.messages
      dsimp only
      omega

theorem Sound.onServer (h : s.Sound message) (k : ℕ) (hw : Works w) :
    ∃ s' effects, s.onServer k w = .ok (s', effects) ∧ s'.Sound message := by
  obtain ⟨server,n,hread,_,_,hnothing,server',effects,hsend,hready,harriving,hstream⟩ := h.server.answers k hw
  by_cases hzero : n = 0
  · obtain ⟨hready1,harriving1,hconn⟩ := hnothing hzero
    refine ⟨{ s with server := server }, [], ?_, h.client, hready1, ?_, h.messages⟩
    · rw [PingPong.onServer, hread]
      change (if n = 0 then _ else _) = _
      rw [if_pos hzero]
      rfl
    · rw [← h.rotated, inFlight, inFlight]
      dsimp only
      rw [harriving1, hconn]
  · refine ⟨{ s with
      client := { s.client with arriving := s.client.arriving ++ written effects }, server := server' }, effects, ?_,
      ⟨h.client.state, h.client.synced, h.client.input⟩, hready, ?_, h.messages⟩
    · rw [PingPong.onServer, hread]
      change (if n = 0 then _ else _) = _
      rw [if_neg hzero, hsend]
      rfl
    · rw [← h.rotated, inFlight, inFlight]
      dsimp only
      calc s.client.arriving ++ written effects ++ server'.conn.outputBuffer.readable ++ server'.arriving ++
            s.client.conn.outputBuffer.readable
          = s.client.arriving ++ (written effects ++ server'.conn.outputBuffer.readable) ++ s.server.arriving.drop n ++
              s.client.conn.outputBuffer.readable := by
            rw [harriving, List.append_assoc s.client.arriving]
        _ = s.client.arriving ++ s.server.conn.outputBuffer.readable ++
              (s.server.arriving.take n ++ s.server.arriving.drop n) ++ s.client.conn.outputBuffer.readable := by
            rw [hstream]
            simp only [List.append_assoc]
        _ = s.client.arriving ++ s.server.conn.outputBuffer.readable ++ s.server.arriving ++
              s.client.conn.outputBuffer.readable := by rw [List.take_append_drop]

theorem Sound.step (h : s.Sound message) (e : Event) (he : e.Works) :
    ∃ s' effects, s.step e = .ok (s', effects) ∧ s'.Sound message := by
  cases e with
  | clientReadable k w => exact h.onClient k he
  | serverReadable k w => exact h.onServer k he
  | clientWritable w =>
    obtain ⟨client,effects,hwrite,hready,harriving,hstream⟩ := h.client.write_ok w
    refine ⟨{ s with
      client := client, server := { s.server with arriving := s.server.arriving ++ written effects } }, effects, ?_, hready,
      ⟨h.server.state, h.server.synced, h.server.input⟩, ?_, h.messages⟩
    · rw [PingPong.step, hwrite]
      rfl
    · rw [← h.rotated, inFlight, inFlight]
      dsimp only
      rw [harriving, ← hstream]
      simp only [List.append_assoc]
  | serverWritable w =>
    obtain ⟨server,effects,hwrite,hready,harriving,hstream⟩ := h.server.write_ok w
    refine ⟨{ s with
      server := server, client := { s.client with arriving := s.client.arriving ++ written effects } }, effects, ?_,
      ⟨h.client.state, h.client.synced, h.client.input⟩, hready, ?_, h.messages⟩
    · rw [PingPong.step, hwrite]
      rfl
    · rw [← h.rotated, inFlight, inFlight]
      dsimp only
      rw [harriving, ← hstream]
      simp only [List.append_assoc]

theorem sound_start (message : Bytes) (m m' : ℕ) (hw : Works w) :
    ∃ s effects, start message m m' w = .ok (s, effects) ∧ s.Sound message := by
  have hstate : (TcpConnection.established m false false).state ≠ .kDisconnected := fun h => by cases h
  obtain ⟨conn,effects,hsend,hsynced,hconn,hstream⟩ :=
    (TcpConnection.established m false false).sendInLoop_stream (TcpConnection.synced_established _ _ _) hstate message w
  rw [Endpoint.not_drops _ hw, if_neg Bool.false_ne_true] at hstream
  have hempty : (Buffer.new).readable = [] := by decide
  refine ⟨⟨⟨conn, .new, []⟩, ⟨.established m' false false, .new, written effects⟩, 0, 0⟩, effects, ?_,
    ⟨hconn, hsynced, hempty⟩, ⟨rfl, TcpConnection.synced_established _ _ _, hempty⟩, ?_, le_refl 0⟩
  · rw [start, hsend]
    rfl
  · rw [List.rotate_zero]
    change [] ++ Buffer.new.readable ++ written effects ++ conn.outputBuffer.readable = message
    rw [hempty, List.append_assoc, hstream]
    exact congrArg (· ++ message) hempty

end PingPong

/-- However the loops and the kernels interleave, and however small the pieces are: as long as no end closes, nothing
is lost, doubled or reordered. What is on its way is always the whole message, turned by the bytes that the client has
read; bytes that wait are waited for, and nothing stays in an input buffer. -/
theorem ping_pong_turns (message : Bytes) (m m' : ℕ) (w : SysWrite) (events : List PingPong.Event)
    (hw : PingPong.Works w) (hevents : ∀ e ∈ events, e.Works) : ∃ s0 o0 s out,
      PingPong.start message m m' w = .ok (s0, o0) ∧ Runs.run PingPong.step s0 events = .ok (s, out) ∧
      s.inFlight = message.rotate s.bytesRead ∧ s.messagesRead ≤ s.bytesRead ∧
      ∀ e ∈ [s.client, s.server], e.conn.state = .kConnected ∧ e.inputBuffer.readable = [] ∧
        (e.conn.channel.writing = true ↔ e.conn.outputBuffer.readable ≠ []) := by
  obtain ⟨s0,o0,hstart,h0⟩ := PingPong.sound_start message m m' hw
  have halong : Runs.Along PingPong.step (fun _ e => e.Works) s0 events :=
    Runs.along_of_forall (fun e he _ => hevents e he)
  have hstep (s : PingPong) (e : PingPong.Event) (es : List PingPong.Event) (acc : List TcpEffect)
      (h : s.Sound message) (he : e.Works) : ∃ s' out, s.step e = .ok (s', out) ∧ s'.Sound message := h.step e he
  obtain ⟨s,out,hrun,h⟩ := @Runs.run_along _ _ _ _ PingPong.step (fun _ e => e.Works) (fun s _ _ => s.Sound message)
    hstep s0 events [] h0 halong
  refine ⟨s0, o0, s, out, hstart, hrun, h.rotated, h.messages, ?_⟩
  have hends (e : Endpoint) (he : e.Ready) : e.conn.state = .kConnected ∧ e.inputBuffer.readable = [] ∧
      (e.conn.channel.writing = true ↔ e.conn.outputBuffer.readable ≠ []) := ⟨he.state, he.input, he.synced⟩
  intro e he
  rcases List.mem_cons.mp he with rfl | he
  · exact hends _ h.client
  · rw [List.mem_singleton.mp he]
    exact hends _ h.server

/-- Three bytes, of which two come back first. -/
theorem ping_pong_turns_three : ∃ s0 o0 s out,
    PingPong.start [1, 2, 3] 64 64 (.wrote 3) = .ok (s0, o0) ∧
      Runs.run PingPong.step s0 [.serverReadable 2 (.wrote 2), .clientReadable 2 (.wrote 1)] = .ok (s, out) ∧
      s.inFlight = [1, 2, 3].rotate s.bytesRead ∧ s.messagesRead ≤ s.bytesRead ∧
      ∀ e ∈ [s.client, s.server], e.conn.state = .kConnected ∧ e.inputBuffer.readable = [] ∧
        (e.conn.channel.writing = true ↔ e.conn.outputBuffer.readable ≠ []) := by
  apply ping_pong_turns
  · decide
  · intro e he
    rcases List.mem_cons.mp he with rfl | he
    · exact ⟨by decide, by decide⟩
    · rw [List.mem_singleton.mp he]
      exact ⟨by decide, by decide⟩

end IdealServer
