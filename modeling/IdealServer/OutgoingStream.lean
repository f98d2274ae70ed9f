import IdealServer.Runs
import IdealServer.TcpConnection
import Mathlib.Data.List.Basic

/-! The outgoing stream of a `TcpConnection`: what the kernel has taken and what waits in the buffer. -/
namespace IdealServer

/-- The bytes that the kernel has taken. -/
def written (effects : List TcpEffect) : Bytes :=
  effects.flatMap (fun e =>
    match e with
    | .written bytes => bytes
    | _ => [])

@[simp] theorem written_append (a b : List TcpEffect) :
    written (a ++ b) = written a ++ written b := List.flatMap_append

@[simp] theorem written_cons (bytes : Bytes) (effects : List TcpEffect) :
    written (.written bytes :: effects) = bytes ++ written effects := rfl

@[simp] theorem written_nil : written [] = [] := rfl

namespace TcpConnection
variable (c : TcpConnection)

@[simp] theorem written_writeComplete : written c.writeComplete = [] := by
  unfold writeComplete
  split <;> rfl

@[simp] theorem written_shutdownInLoop : written c.shutdownInLoop = [] := by
  unfold shutdownInLoop
  split <;> rfl

/-- The direct write of the message fails with `EPIPE` or `ECONNRESET`. -/
def dropsMessage (w : SysWrite) : Bool :=
  c.isIdle && (w = .failed EPIPE || w = .failed ECONNRESET)

/-- Write interest is on exactly where bytes wait. -/
def Synced : Prop := c.channel.writing = true ↔ c.outputBuffer.readable ≠ []

variable {c}

theorem Synced.isIdle (h : c.Synced) : c.isIdle = true ↔ c.outputBuffer.readable = [] := by
  have hlen : c.outputBuffer.readableBytes = 0 ↔ c.outputBuffer.readable = [] := by
    rw [← Buffer.length_readable, List.length_eq_zero_iff]
  rw [TcpConnection.isIdle, Bool.and_eq_true, Bool.not_eq_true', decide_eq_true_iff, hlen]
  constructor
  · exact fun hboth => hboth.2
  · intro hempty
    refine ⟨?_, hempty⟩
    by_contra hwriting
    exact h.mp (Bool.not_eq_false _ ▸ hwriting) hempty

/-- What is left of a message waits behind the rest. -/
theorem bufferRest_ok (c : TcpConnection) (rest : Bytes) : ∃ c' effects,
    c.bufferRest rest = .ok (c', effects) ∧ written effects = [] ∧
      c' = { c with outputBuffer := c'.outputBuffer, channel := c'.channel } ∧
      c'.outputBuffer.readable = c.outputBuffer.readable ++ rest ∧
      (c'.channel = c.channel ∨ c'.channel = c.channel.enableWriting) ∧ c'.channel.writing = true := by
  obtain ⟨outputBuffer,happend,hreadable⟩ := c.outputBuffer.append_ok rest
  unfold bufferRest
  simp only [happend, bind, Except.bind, pure, Except.pure]
  refine ⟨_, _, rfl, ?_, rfl, hreadable, ?_, ?_⟩
  · split <;> rfl
  · dsimp only
    split
    · exact Or.inl rfl
    · exact Or.inr rfl
  · dsimp only
    split
    case isTrue hwriting => exact hwriting
    case isFalse => rfl

theorem directWrite_ok (c : TcpConnection) (message : Bytes) (w : SysWrite) :
    ∃ nwrote faultError effects, c.directWrite message w = (nwrote, faultError, effects) ∧
      nwrote ≤ message.length ∧ written effects = message.take nwrote ∧
      (faultError = true ↔ w = .failed EPIPE ∨ w = .failed ECONNRESET) ∧
      (faultError = true → nwrote = 0) := by
  cases w with
  | wrote k =>
    refine ⟨_, _, _, rfl, Nat.min_le_right .., ?_, by simp, by simp⟩
    rw [List.singleton_append, written_cons]
    split
    · rw [written_writeComplete, List.append_nil]
    · rw [written_nil, List.append_nil]
  | failed errno =>
    refine ⟨_, _, _, rfl, Nat.zero_le _, rfl, ?_, fun _ => rfl⟩
    simp only [SysWrite.failed.injEq, Bool.and_eq_true, Bool.or_eq_true, decide_eq_true_iff,
      and_iff_right_iff_imp]
    rintro (rfl | rfl) <;> decide

/-- `sendInLoop` puts its message behind what waits, or drops it. -/
theorem sendInLoop_stream (hs : c.Synced) (hopen : c.state ≠ .kDisconnected) (message : Bytes)
    (w : SysWrite) : ∃ c' effects, c.sendInLoop message w = .ok (c', effects) ∧ c'.Synced ∧
      c'.state = c.state ∧ written effects ++ c'.outputBuffer.readable =
        c.outputBuffer.readable ++ if c.dropsMessage w then [] else message := by
  unfold sendInLoop
  rw [if_neg hopen]
  have hbuffered (rest : Bytes) (hrest : 0 < rest.length) {c' : TcpConnection}
      (hreadable : c'.outputBuffer.readable = c.outputBuffer.readable ++ rest)
      (hwriting : c'.channel.writing = true) : c'.Synced := by
    refine ⟨fun _ => ?_, fun _ => hwriting⟩
    rw [hreadable]
    intro hnil
    rw [(List.append_eq_nil_iff.mp hnil).2] at hrest
    cases hrest
  have hguard (rest : Bytes) (hrest : 0 < rest.length) :
      (!false && decide (0 < rest.length)) = true := by
    rw [Bool.not_false, Bool.true_and, decide_eq_true hrest]
  have hguard' (rest : Bytes) (hrest : ¬ 0 < rest.length) :
      ¬ (!false && decide (0 < rest.length)) = true := by
    rw [Bool.not_false, Bool.true_and, decide_eq_false hrest]
    exact Bool.false_ne_true
  by_cases hidle : c.isIdle = true
  · obtain ⟨nwrote,faultError,effects,hwrite,hle,hwritten,hfault,hzero⟩ := c.directWrite_ok message w
    have hempty := hs.isIdle.mp hidle
    have hdrops : c.dropsMessage w = faultError := by
      rw [dropsMessage, hidle, Bool.true_and, Bool.eq_iff_iff, hfault]
      simp
    rw [if_pos hidle, hwrite]
    dsimp only
    cases hf : faultError with
    | true =>
      rw [hf] at hdrops hzero
      rw [hzero rfl] at hwritten
      refine ⟨c, effects, rfl, hs, rfl, ?_⟩
      rw [hwritten, hempty, hdrops]
      rfl
    | false =>
      rw [hf] at hdrops
      by_cases hrest : 0 < (message.drop nwrote).length
      · obtain ⟨c',marks,hbuffer,hmarks,hframe,hreadable,_,hwriting⟩ :=
          c.bufferRest_ok (message.drop nwrote)
        rw [if_pos (hguard _ hrest), hbuffer]
        refine ⟨c', effects ++ marks, rfl, hbuffered _ hrest hreadable hwriting, ?_, ?_⟩
        · rw [hframe]
        · rw [written_append, hmarks, List.append_nil, hreadable, hwritten, hempty, hdrops]
          exact List.take_append_drop nwrote message
      · rw [if_neg (hguard' _ hrest)]
        refine ⟨c, effects, rfl, hs, rfl, ?_⟩
        have hall : message.length ≤ nwrote := by
          rw [List.length_drop] at hrest
          omega
        rw [hwritten, hempty, hdrops, List.take_of_length_le hall]
        simp
  · have hdrops : c.dropsMessage w = false := by
      rw [dropsMessage, eq_false_of_ne_true hidle]
      rfl
    rw [if_neg hidle, hdrops]
    dsimp only
    rw [List.drop_zero]
    by_cases hrest : 0 < message.length
    · obtain ⟨c',marks,hbuffer,hmarks,hframe,hreadable,_,hwriting⟩ := c.bufferRest_ok message
      rw [if_pos (hguard _ hrest), hbuffer]
      refine ⟨c', [] ++ marks, rfl, hbuffered _ hrest hreadable hwriting, ?_, ?_⟩
      · rw [hframe]
      · rw [List.nil_append, hmarks, hreadable]
        rfl
    · rw [if_neg (hguard' _ hrest)]
      refine ⟨c, [], rfl, hs, rfl, ?_⟩
      rw [List.eq_nil_of_length_eq_zero (Nat.eq_zero_of_not_pos hrest)]
      simp

/-- The effects of a send are bytes and functors that are queued. -/
def Sends (e : TcpEffect) : Prop :=
  (∃ bytes, e = .written bytes) ∨ e = .writeCompleteCallback ∨ ∃ len, e = .highWaterMarkCallback len

theorem writeComplete_sends (c : TcpConnection) : ∀ e ∈ c.writeComplete, Sends e := by
  intro e he
  unfold writeComplete at he
  split at he
  · exact Or.inr (Or.inl (List.mem_singleton.mp he))
  · cases he

theorem directWrite_sends (c : TcpConnection) (message : Bytes) (w : SysWrite) :
    ∀ e ∈ (c.directWrite message w).2.2, Sends e := by
  intro e he
  cases w with
  | wrote k =>
    rcases List.mem_cons.mp he with rfl | he
    · exact Or.inl ⟨_, rfl⟩
    · split at he
      · exact c.writeComplete_sends e he
      · cases he
  | failed errno => cases he

/-- What a send can do to the connection, and what it does not touch. -/
theorem sendInLoop_frame {message : Bytes} {w : SysWrite} {c' : TcpConnection}
    {effects : List TcpEffect} (h : c.sendInLoop message w = .ok (c', effects)) :
    c' = { c with outputBuffer := c'.outputBuffer, channel := c'.channel } ∧
      (c'.channel = c.channel ∨ (c.state ≠ .kDisconnected ∧ c'.channel = c.channel.enableWriting)) ∧
      ∀ e ∈ effects, Sends e := by
  have hbuffer {rest : Bytes} {first effects : List TcpEffect} {c' : TcpConnection}
      (hopen : c.state ≠ .kDisconnected) (hfirst : ∀ e ∈ first, Sends e)
      (h : (c.bufferRest rest).bind (fun r => .ok (r.1, first ++ r.2)) = .ok (c', effects)) :
      c' = { c with outputBuffer := c'.outputBuffer, channel := c'.channel } ∧
        (c'.channel = c.channel ∨ (c.state ≠ .kDisconnected ∧ c'.channel = c.channel.enableWriting)) ∧
        ∀ e ∈ effects, Sends e := by
    obtain ⟨⟨c1,marks⟩,hrest,h⟩ := Runs.bind_ok h
    obtain ⟨rfl,rfl⟩ := Prod.mk.inj (Except.ok.inj h)
    obtain ⟨c2,marks2,hbuffer,_,hframe,_,hchannel,_⟩ := c.bufferRest_ok rest
    obtain ⟨rfl,rfl⟩ := Prod.mk.inj (Except.ok.inj (hrest.symm.trans hbuffer))
    refine ⟨hframe, hchannel.imp_right (fun h => ⟨hopen, h⟩), ?_⟩
    intro e he
    rcases List.mem_append.mp he with he | he
    · exact hfirst e he
    · obtain ⟨outputBuffer,_,hrest⟩ := Runs.bind_ok hrest
      obtain ⟨_,hmarks⟩ := Prod.mk.inj (Except.ok.inj hrest)
      rw [← hmarks] at he
      split at he
      · exact Or.inr (Or.inr ⟨_, List.mem_singleton.mp he⟩)
      · cases he
  unfold sendInLoop at h
  split at h
  case isTrue =>
    obtain ⟨rfl,rfl⟩ := Prod.mk.inj (Except.ok.inj h)
    exact ⟨rfl, Or.inl rfl, fun e he => by cases he⟩
  case isFalse hopen =>
    have hfirst : ∀ e ∈ (if c.isIdle then c.directWrite message w else (0, false, [])).2.2, Sends e := by
      split
      · exact c.directWrite_sends message w
      · exact fun e he => by cases he
    generalize (if c.isIdle then c.directWrite message w else (0, false, [])) = direct at h hfirst
    obtain ⟨nwrote,faultError,first⟩ := direct
    dsimp only at h hfirst
    split at h
    · exact hbuffer hopen hfirst h
    · obtain ⟨rfl,rfl⟩ := Prod.mk.inj (Except.ok.inj h)
      exact ⟨rfl, Or.inl rfl, hfirst⟩

/-- All that `handleWrite` can do on a connection that waits to write. -/
theorem handleWrite_cases (hwriting : c.channel.writing = true) (w : SysWrite) :
    c.handleWrite w = .ok (c, []) ∨
    ∃ n outputBuffer, 0 < n ∧ n ≤ c.outputBuffer.readableBytes ∧
      (∃ k, w = .wrote k ∧ n = min k c.outputBuffer.readableBytes) ∧
      outputBuffer.readable = c.outputBuffer.readable.drop n ∧
      ((n < c.outputBuffer.readableBytes ∧ c.handleWrite w =
          .ok ({ c with outputBuffer := outputBuffer }, [.written (c.outputBuffer.readable.take n)])) ∨
        (n = c.outputBuffer.readableBytes ∧ ∃ rest, c.handleWrite w =
          .ok ({ c with outputBuffer := outputBuffer, channel := c.channel.disableWriting },
            .written c.outputBuffer.readable :: rest) ∧ written rest = [] ∧
          (.shutdownWrite ∈ rest ↔ c.state = .kDisconnecting))) := by
  cases w with
  | failed errno =>
    left
    unfold handleWrite
    rw [if_pos (show c.channel.isWriting = true from hwriting)]
  | wrote k =>
    by_cases hn : 0 < min k c.outputBuffer.readableBytes
    case neg =>
      left
      unfold handleWrite
      rw [if_pos (show c.channel.isWriting = true from hwriting)]
      dsimp only
      rw [if_neg hn]
    case pos =>
      right
      have hle := Nat.min_le_right k c.outputBuffer.readableBytes
      obtain ⟨outputBuffer,hretrieve,hreadable⟩ := c.outputBuffer.retrieve_ok hle
      have hlen : outputBuffer.readableBytes =
          c.outputBuffer.readableBytes - min k c.outputBuffer.readableBytes := by
        rw [← Buffer.length_readable, hreadable, List.length_drop, Buffer.length_readable]
      refine ⟨_, outputBuffer, hn, hle, ⟨k, rfl, rfl⟩, hreadable, ?_⟩
      unfold handleWrite
      rw [if_pos (show c.channel.isWriting = true from hwriting)]
      dsimp only
      rw [if_pos hn, hretrieve]
      simp only [bind, Except.bind, pure, Except.pure]
      by_cases hall : min k c.outputBuffer.readableBytes < c.outputBuffer.readableBytes
      · left
        refine ⟨hall, ?_⟩
        rw [if_neg (by omega)]
      · right
        have heq : min k c.outputBuffer.readableBytes = c.outputBuffer.readableBytes := by omega
        refine ⟨heq, ?_⟩
        rw [if_pos (by omega), heq, List.take_of_length_le (Buffer.length_readable _).le]
        refine ⟨_, rfl, ?_, ?_⟩
        · rw [written_append, written_writeComplete]
          split
          · exact written_shutdownInLoop _
          · rfl
        · have hcallback (c : TcpConnection) : TcpEffect.shutdownWrite ∉ c.writeComplete := by
            unfold writeComplete
            split <;> simp
          rw [List.mem_append, or_iff_right (hcallback _)]
          split
          case isTrue hstate =>
            rw [iff_true_right hstate]
            exact List.mem_singleton_self _
          case isFalse hstate =>
            rw [iff_false_right hstate]
            exact List.not_mem_nil

theorem handleWrite_idle (hwriting : c.channel.writing = false) (w : SysWrite) :
    c.handleWrite w = .ok (c, []) := by
  unfold handleWrite
  rw [if_neg (by rw [Channel.isWriting, hwriting]; exact Bool.false_ne_true)]

/-- What `handleWrite` can do to the connection. -/
theorem handleWrite_frame {w : SysWrite} {c' : TcpConnection} {effects : List TcpEffect}
    (h : c.handleWrite w = .ok (c', effects)) : c'.state = c.state ∧ c'.reading = c.reading ∧
      (c'.channel = c.channel ∨ (c.channel.writing = true ∧ c'.channel = c.channel.disableWriting)) := by
  cases hwriting : c.channel.writing with
  | false =>
    rw [handleWrite_idle hwriting] at h
    obtain ⟨rfl,_⟩ := Prod.mk.inj (Except.ok.inj h)
    exact ⟨rfl, rfl, Or.inl rfl⟩
  | true =>
    rcases handleWrite_cases hwriting w with hsame | ⟨n,b,_,_,_,_,⟨_,hsome⟩ | ⟨_,rest,hall,_⟩⟩
    · obtain ⟨rfl,_⟩ := Prod.mk.inj (Except.ok.inj (h.symm.trans hsame))
      exact ⟨rfl, rfl, Or.inl rfl⟩
    · obtain ⟨rfl,_⟩ := Prod.mk.inj (Except.ok.inj (h.symm.trans hsome))
      exact ⟨rfl, rfl, Or.inl rfl⟩
    · obtain ⟨rfl,_⟩ := Prod.mk.inj (Except.ok.inj (h.symm.trans hall))
      exact ⟨rfl, rfl, Or.inr ⟨rfl, rfl⟩⟩

/-- `handleWrite` moves bytes from the buffer to the kernel. -/
theorem handleWrite_stream (hs : c.Synced) (w : SysWrite) : ∃ c' effects,
    c.handleWrite w = .ok (c', effects) ∧ c'.Synced ∧ c'.state = c.state ∧
      written effects ++ c'.outputBuffer.readable = c.outputBuffer.readable := by
  cases hwriting : c.channel.writing with
  | false => exact ⟨c, [], handleWrite_idle hwriting w, hs, rfl, rfl⟩
  | true =>
    rcases handleWrite_cases hwriting w with hsame |
      ⟨n,outputBuffer,hpos,hle,_,hreadable,⟨hlt,hsome⟩ | ⟨rfl,rest,hall,hrest,_⟩⟩
    · exact ⟨c, [], hsame, hs, rfl, rfl⟩
    · refine ⟨_, _, hsome, ⟨fun _ => ?_, fun _ => hwriting⟩, rfl, ?_⟩
      · rw [hreadable, ne_eq, List.drop_eq_nil_iff, Buffer.length_readable]
        omega
      · rw [written_cons, written_nil, List.append_nil, hreadable, List.take_append_drop]
    · have hempty : outputBuffer.readable = [] := by
        rw [hreadable, ← Buffer.length_readable, List.drop_length]
      refine ⟨_, _, hall, ?_, rfl, ?_⟩
      · rw [Synced, hempty]
        exact ⟨fun hon => (by cases hon), fun hne => absurd rfl hne⟩
      · rw [written_cons, hrest, List.append_nil, hempty, List.append_nil]

end TcpConnection

/-- What the loop thread does with an open connection that is not closed, and the answer of
`write(2)`. -/
inductive WriteOp
  | sendInLoop (message : Bytes) (w : SysWrite)
  | handleWrite (w : SysWrite)
  /-- `shutdown` on the loop thread. -/
  | shutdown

namespace WriteOp

def step (c : TcpConnection) : WriteOp → Except Fault (TcpConnection × List TcpEffect)
  | .sendInLoop message w => c.sendInLoop message w
  | .handleWrite w => c.handleWrite w
  | .shutdown => if c.state = .kConnected then .ok (c.shutdown, c.shutdown.shutdownInLoop) else .ok (c, [])

def run : TcpConnection → List WriteOp → Except Fault (TcpConnection × List TcpEffect) := Runs.run step

/-- What the operation adds to the stream. -/
def adds (c : TcpConnection) : WriteOp → Bytes
  | .sendInLoop message w => if c.dropsMessage w then [] else message
  | _ => []

/-- The messages of a run in order, without those that are dropped. -/
def messages : TcpConnection → List WriteOp → Bytes
  | _, [] => []
  | c, op :: ops => op.adds c ++
    match op.step c with
    | .ok (c', _) => messages c' ops
    | .error _ => []

theorem step_stream {c : TcpConnection} (hs : c.Synced) (hopen : c.state ≠ .kDisconnected)
    (op : WriteOp) : ∃ c' effects, op.step c = .ok (c', effects) ∧ c'.Synced ∧
      c'.state ≠ .kDisconnected ∧
      written effects ++ c'.outputBuffer.readable = c.outputBuffer.readable ++ op.adds c := by
  cases op with
  | sendInLoop message w =>
    obtain ⟨c',effects,hsend,hs',hstate,hstream⟩ := c.sendInLoop_stream hs hopen message w
    exact ⟨c', effects, hsend, hs', hstate ▸ hopen, hstream⟩
  | handleWrite w =>
    obtain ⟨c',effects,hwrite,hs',hstate,hstream⟩ := c.handleWrite_stream hs w
    refine ⟨c', effects, hwrite, hs', hstate ▸ hopen, ?_⟩
    rw [hstream]
    exact (List.append_nil _).symm
  | shutdown =>
    by_cases hstate : c.state = .kConnected
    · refine ⟨c.shutdown, c.shutdown.shutdownInLoop, if_pos hstate, ?_, ?_, ?_⟩
      · rw [TcpConnection.shutdown, if_pos hstate]
        exact hs
      · rw [TcpConnection.shutdown, if_pos hstate]
        exact fun h => by cases h
      · rw [TcpConnection.written_shutdownInLoop, TcpConnection.shutdown, if_pos hstate]
        exact (List.append_nil _).symm
    · exact ⟨c, [], if_neg hstate, hs, hopen, (List.append_nil _).symm⟩

end WriteOp

namespace TcpConnection

/-- The connection as `connectEstablished` leaves it. -/
def established (highWaterMark : ℕ) (hasWriteComplete hasHighWaterMark : Bool) : TcpConnection :=
  { new highWaterMark hasWriteComplete hasHighWaterMark with
    state := .kConnected
    channel := Channel.new.enableReading }

theorem connectEstablished_new (m : ℕ) (b h : Bool) :
    (new m b h).connectEstablished = .ok (established m b h, [.connectionCallback]) := rfl

theorem synced_established (m : ℕ) (b h : Bool) : (established m b h).Synced :=
  ⟨fun hon => (by cases hon), fun hne => absurd rfl hne⟩

end TcpConnection

end IdealServer
