import IdealServer.Buffer
import IdealServer.ByteOrder
import IdealServer.Runs
import Mathlib.Logic.Function.Basic

/-! All that is done to a `Buffer`, and the queue of bytes that it stands for. -/
namespace IdealServer

/-- A pointer to bytes and a length of type `int`. -/
structure Buffer.StringPiece where
  data : Bytes
  length : ℤ
deriving DecidableEq, Repr

namespace Buffer.StringPiece

/-- The constructors cast the length. -/
def ofBytes (data : Bytes) : StringPiece := ⟨data, Int.bmod data.length (2^32)⟩

/-- `size()` where a `size_t` is expected. -/
def size (p : StringPiece) : ℕ := (p.length%2^64).toNat

theorem size_ofBytes {data : Bytes} (h : data.length < 2^31) : (ofBytes data).size = data.length := by
  have hmod : Int.bmod data.length (2^32) = data.length := by
    rw [Int.bmod_def]
    omega
  unfold size ofBytes
  dsimp only
  rw [hmod]
  omega

end Buffer.StringPiece

namespace Buffer

/-- Bytes are put at `beginWrite()`, and then `hasWritten` is called with their number. -/
def hasWritten (b : Buffer) (data : Bytes) : Except Fault Buffer :=
  if h : data.length ≤ b.writableBytes then
    let buffer := b.buffer.take b.writerIndex ++ data ++ b.buffer.drop (b.writerIndex+data.length)
    .ok { b with
      buffer := buffer
      writerIndex := b.writerIndex+data.length
      size_gt := by
        have := b.size_gt
        have := b.writer_le
        simp only [buffer, List.length_append, List.length_take, List.length_drop]
        omega
      reader_lt := by
        have := b.reader_lt
        have := b.writer_le
        simp only [buffer, List.length_append, List.length_take, List.length_drop]
        omega
      reader_le := Nat.le_trans b.reader_le (Nat.le_add_right _ _)
      writer_le := by
        have := b.writer_le
        simp only [buffer, List.length_append, List.length_take, List.length_drop]
        omega }
  else .error .assertFailed

/-- `append` reads as many bytes as the size says. -/
def appendPiece (b : Buffer) (piece : StringPiece) : Except Fault Buffer :=
  if piece.size ≤ piece.data.length then b.append (piece.data.take piece.size)
  else .error .outOfBounds

/-- `appendInt64`, `appendInt32`, `appendInt16` and `appendInt8`: `w` bytes in network order. -/
def appendInt (b : Buffer) (w x : ℕ) : Except Fault Buffer := b.append (ByteOrder.toBE w x)

def retrieveAsString (b : Buffer) (len : ℕ) : Except Fault (Buffer × Bytes) :=
  if len ≤ b.readableBytes then do
    let result := b.readable.take len
    let b ← b.retrieve len
    return (b, result)
  else .error .assertFailed

/-- The vector with the bytes before `peek()` replaced. -/
theorem length_prepended (b : Buffer) (data : Bytes) (h : data.length ≤ b.prependableBytes) :
    (b.buffer.take (b.readerIndex-data.length) ++ data ++ b.buffer.drop b.readerIndex).length =
      b.buffer.length := by
  have hreader := b.reader_lt
  simp only [prependableBytes] at h
  simp only [List.length_append, List.length_take, List.length_drop]
  omega

def prepend (b : Buffer) (data : Bytes) : Except Fault Buffer :=
  if h : data.length ≤ b.prependableBytes then
    let buffer := b.buffer.take (b.readerIndex-data.length) ++ data ++ b.buffer.drop b.readerIndex
    .ok { b with
      buffer := buffer
      readerIndex := b.readerIndex-data.length
      size_gt := (length_prepended b data h).symm ▸ b.size_gt
      reader_lt :=
        (length_prepended b data h).symm ▸ lt_of_le_of_lt (Nat.sub_le _ _) b.reader_lt
      reader_le := Nat.le_trans (Nat.sub_le _ _) b.reader_le
      writer_le := (length_prepended b data h).symm ▸ b.writer_le }
  else .error .assertFailed

def toStringPiece (b : Buffer) : StringPiece := .ofBytes b.readable

/-- The buffer is swapped with a new one that has the content. -/
def shrink (b : Buffer) (reserve : ℕ) : Except Fault Buffer := do
  let other ← Buffer.new.ensureWritableBytes (b.readableBytes+reserve)
  other.appendPiece b.toStringPiece

end Buffer

inductive BufferOp
  | append (data : Bytes)
  | appendPiece (data : Bytes)
  | appendInt (w x : ℕ)
  | retrieve (len : ℕ)
  | retrieveUntil (pos : ℕ)
  | retrieveAll
  | retrieveAsString (len : ℕ)
  | retrieveAllAsString
  | ensureWritableBytes (len : ℕ)
  | hasWritten (data : Bytes)
  | prepend (data : Bytes)
  | shrink (reserve : ℕ)

namespace BufferOp

/-- The buffer after the operation, and the strings it returns. -/
def step (b : Buffer) : BufferOp → Except Fault (Buffer × List Bytes)
  | .append data => (b.append data).map (fun b => (b, []))
  | .appendPiece data => (b.appendPiece (.ofBytes data)).map (fun b => (b, []))
  | .appendInt w x => (b.appendInt w x).map (fun b => (b, []))
  | .retrieve len => (b.retrieve len).map (fun b => (b, []))
  | .retrieveUntil pos => (b.retrieveUntil pos).map (fun b => (b, []))
  | .retrieveAll => .ok (b.retrieveAll, [])
  | .retrieveAsString len => (b.retrieveAsString len).map (fun r => (r.1, [r.2]))
  | .retrieveAllAsString => (b.retrieveAsString b.readableBytes).map (fun r => (r.1, [r.2]))
  | .ensureWritableBytes len => (b.ensureWritableBytes len).map (fun b => (b, []))
  | .hasWritten data => (b.hasWritten data).map (fun b => (b, []))
  | .prepend data => (b.prepend data).map (fun b => (b, []))
  | .shrink reserve => (b.shrink reserve).map (fun b => (b, []))

/-- What the assertions at the beginning of the operations ask for, and lengths that an `int` holds
where a `StringPiece` is made. -/
def Asserted (b : Buffer) : BufferOp → Prop
  | .appendPiece data => data.length < 2^31
  | .retrieve len => len ≤ b.readableBytes
  | .retrieveUntil pos => pos ≤ b.readableBytes
  | .retrieveAsString len => len ≤ b.readableBytes
  | .hasWritten data => data.length ≤ b.writableBytes
  | .prepend data => data.length ≤ b.prependableBytes
  | .shrink _ => b.readableBytes < 2^31
  | _ => True

/-- The same operations on a queue of bytes. -/
def queue (q : Bytes) : BufferOp → Bytes × List Bytes
  | .append data => (q ++ data, [])
  | .appendPiece data => (q ++ data, [])
  | .appendInt w x => (q ++ ByteOrder.toBE w x, [])
  | .retrieve len => (q.drop len, [])
  | .retrieveUntil pos => (q.drop pos, [])
  | .retrieveAll => ([], [])
  | .retrieveAsString len => (q.drop len, [q.take len])
  | .retrieveAllAsString => ([], [q])
  | .ensureWritableBytes _ => (q, [])
  | .hasWritten data => (q ++ data, [])
  | .prepend data => (data ++ q, [])
  | .shrink _ => (q, [])

end BufferOp

namespace Buffer
variable (b : Buffer)

theorem hasWritten_ok {data : Bytes} (h : data.length ≤ b.writableBytes) :
    ∃ b', b.hasWritten data = .ok b' ∧ b'.readable = b.readable ++ data := by
  have hr := b.reader_le
  have hw := b.writer_le
  rw [hasWritten, dif_pos h]
  refine ⟨_, rfl, ?_⟩
  have ht : (b.buffer.take b.writerIndex).length = b.writerIndex := by
    rw [List.length_take]
    omega
  simp only [readable, readableBytes]
  rw [List.append_assoc, List.drop_append_of_le_length (by omega), ← List.append_assoc,
    List.drop_take, List.take_append_of_le_length
      (by simp only [List.length_append, List.length_take, List.length_drop]; omega)]
  apply List.take_of_length_le
  simp only [List.length_append, List.length_take, List.length_drop]
  omega

theorem appendPiece_ok {data : Bytes} (h : data.length < 2^31) :
    ∃ b', b.appendPiece (.ofBytes data) = .ok b' ∧ b'.readable = b.readable ++ data := by
  have hsize := StringPiece.size_ofBytes h
  have hall : data.length ≤ data.length := Nat.le_refl _
  rw [appendPiece, hsize, if_pos (show data.length ≤ (StringPiece.ofBytes data).data.length from hall),
    show (StringPiece.ofBytes data).data = data from rfl, List.take_length]
  exact b.append_ok data

theorem retrieveAsString_ok {len : ℕ} (h : len ≤ b.readableBytes) :
    ∃ b', b.retrieveAsString len = .ok (b', b.readable.take len) ∧ b'.readable = b.readable.drop len := by
  obtain ⟨b',hretrieve,hreadable⟩ := b.retrieve_ok h
  refine ⟨b', ?_, hreadable⟩
  rw [retrieveAsString, if_pos h, hretrieve]
  rfl

theorem prepend_ok {data : Bytes} (h : data.length ≤ b.prependableBytes) :
    ∃ b', b.prepend data = .ok b' ∧ b'.readable = data ++ b.readable := by
  have hr := b.reader_le
  have hlt := b.reader_lt
  have hle : data.length ≤ b.readerIndex := h
  rw [prepend, dif_pos h]
  refine ⟨_, rfl, ?_⟩
  have ht : (b.buffer.take (b.readerIndex-data.length)).length = b.readerIndex-data.length := by
    rw [List.length_take]
    omega
  have hcount : b.writerIndex-(b.readerIndex-data.length) =
      data.length+(b.writerIndex-b.readerIndex) := by omega
  simp only [readable, readableBytes]
  rw [List.append_assoc, List.drop_left' ht, hcount, List.take_length_add_append]

theorem shrink_ok {reserve : ℕ} (h : b.readableBytes < 2^31) :
    ∃ b', b.shrink reserve = .ok b' ∧ b'.readable = b.readable := by
  obtain ⟨other,hroom,hother,_⟩ := Buffer.new.ensureWritableBytes_ok (b.readableBytes+reserve)
  have hlen : b.readable.length < 2^31 := by
    rw [length_readable]
    exact h
  obtain ⟨b',happend,hreadable⟩ := other.appendPiece_ok hlen
  refine ⟨b', ?_, ?_⟩
  · have hshrink : b.shrink reserve = (Buffer.new.ensureWritableBytes (b.readableBytes+reserve)).bind
        (fun other => other.appendPiece b.toStringPiece) := rfl
    rw [hshrink, hroom, Except.bind, toStringPiece, happend]
  · rw [hreadable, hother, readable_new, List.nil_append]

end Buffer

/-- Every operation that is allowed does what it does on the queue. -/
theorem BufferOp.step_queue {b : Buffer} {op : BufferOp} (h : op.Asserted b) :
    ∃ b' out, op.step b = .ok (b', out) ∧ op.queue b.readable = (b'.readable, out) := by
  cases op with
  | append data =>
    obtain ⟨b',hok,hreadable⟩ := b.append_ok data
    exact ⟨b', [], by rw [step, hok]; rfl, by rw [hreadable]; rfl⟩
  | appendPiece data =>
    obtain ⟨b',hok,hreadable⟩ := b.appendPiece_ok h
    exact ⟨b', [], by rw [step, hok]; rfl, by rw [hreadable]; rfl⟩
  | appendInt w x =>
    obtain ⟨b',hok,hreadable⟩ := b.append_ok (ByteOrder.toBE w x)
    exact ⟨b', [], by rw [step, Buffer.appendInt, hok]; rfl, by rw [hreadable]; rfl⟩
  | retrieve len =>
    obtain ⟨b',hok,hreadable⟩ := b.retrieve_ok h
    exact ⟨b', [], by rw [step, hok]; rfl, by rw [hreadable]; rfl⟩
  | retrieveUntil pos =>
    obtain ⟨b',hok,hreadable⟩ := b.retrieveUntil_ok h
    exact ⟨b', [], by rw [step, hok]; rfl, by rw [hreadable]; rfl⟩
  | retrieveAll => exact ⟨b.retrieveAll, [], rfl, by rw [b.readable_retrieveAll]; rfl⟩
  | retrieveAsString len =>
    obtain ⟨b',hok,hreadable⟩ := b.retrieveAsString_ok h
    exact ⟨b', _, by rw [step, hok]; rfl, by rw [hreadable]; rfl⟩
  | retrieveAllAsString =>
    obtain ⟨b',hok,hreadable⟩ := b.retrieveAsString_ok (Nat.le_refl _)
    have hlen := b.length_readable
    refine ⟨b', [b.readable], ?_, ?_⟩
    · rw [step, hok, List.take_of_length_le hlen.le]
      rfl
    · rw [hreadable, List.drop_of_length_le hlen.le]
      rfl
  | ensureWritableBytes len =>
    obtain ⟨b',hok,hreadable,_⟩ := b.ensureWritableBytes_ok len
    exact ⟨b', [], by rw [step, hok]; rfl, by rw [hreadable]; rfl⟩
  | hasWritten data =>
    obtain ⟨b',hok,hreadable⟩ := b.hasWritten_ok h
    exact ⟨b', [], by rw [step, hok]; rfl, by rw [hreadable]; rfl⟩
  | prepend data =>
    obtain ⟨b',hok,hreadable⟩ := b.prepend_ok h
    exact ⟨b', [], by rw [step, hok]; rfl, by rw [hreadable]; rfl⟩
  | shrink reserve =>
    obtain ⟨b',hok,hreadable⟩ := b.shrink_ok h
    exact ⟨b', [], by rw [step, hok]; rfl, by rw [hreadable]; rfl⟩

/-- Any number of buffers, of which two can be swapped. -/
inductive BuffersOp
  | on (i : ℕ) (op : BufferOp)
  | swap (i j : ℕ)

namespace BuffersOp

/-- What `swap` leaves in a store of values. -/
def swapped {α : Type} (s : ℕ → α) (i j : ℕ) : ℕ → α :=
  Function.update (Function.update s i (s j)) j (s i)

def step (s : ℕ → Buffer) : BuffersOp → Except Fault ((ℕ → Buffer) × List Bytes)
  | .on i op => (op.step (s i)).map (fun r => (Function.update s i r.1, r.2))
  | .swap i j => .ok (swapped s i j, [])

def run : (ℕ → Buffer) → List BuffersOp → Except Fault ((ℕ → Buffer) × List Bytes) := Runs.run step

def Asserted (s : ℕ → Buffer) : BuffersOp → Prop
  | .on i op => op.Asserted (s i)
  | .swap _ _ => True

def queues (s : ℕ → Bytes) : BuffersOp → (ℕ → Bytes) × List Bytes
  | .on i op => (Function.update s i (op.queue (s i)).1, (op.queue (s i)).2)
  | .swap i j => (swapped s i j, [])

theorem step_queues {s : ℕ → Buffer} {op : BuffersOp} (h : op.Asserted s) :
    ∃ s' out, op.step s = .ok (s', out) ∧
      op.queues (fun i => (s i).readable) = (fun i => (s' i).readable, out) := by
  have hupdate (s : ℕ → Buffer) (i : ℕ) (b : Buffer) :
      Function.update (fun i => (s i).readable) i b.readable =
        fun k => (Function.update s i b k).readable := by
    funext k
    by_cases hk : k = i
    · rw [hk, Function.update_self, Function.update_self]
    · rw [Function.update_of_ne hk, Function.update_of_ne hk]
  cases op with
  | on i op =>
    obtain ⟨b',out,hstep,hqueue⟩ := op.step_queue h
    refine ⟨Function.update s i b', out, ?_, ?_⟩
    · rw [step, hstep]
      rfl
    · rw [queues, hqueue]
      exact congrArg (fun q => (q, out)) (hupdate s i b')
  | swap i j =>
    refine ⟨swapped s i j, [], rfl, ?_⟩
    dsimp only [queues, swapped]
    rw [hupdate, hupdate]

end BuffersOp

/-- In every run of operations on new buffers whose asserted preconditions hold, no assertion fails, the
buffers are the queues that the same operations make of empty queues, the strings that are returned are
the same, and `ensureWritableBytes` leaves the room that it was asked for. -/
theorem buffers_are_queues (ops : List BuffersOp)
    (h : Runs.Along (fun s op => BuffersOp.step s op) (fun s op => op.Asserted s) (fun _ => Buffer.new)
      ops) : ∃ s out, BuffersOp.run (fun _ => Buffer.new) ops = .ok (s, out) ∧
    Runs.runSpec BuffersOp.queues (fun _ => []) ops = (fun i => (s i).readable, out) ∧
    (∀ i, (s i).readerIndex ≤ (s i).writerIndex ∧ (s i).writerIndex ≤ (s i).buffer.length) ∧
    ∀ pre i len, ops = pre ++ [.on i (.ensureWritableBytes len)] → len ≤ (s i).writableBytes := by
  have hstep (s : ℕ → Buffer) (op : BuffersOp) (hop : op.Asserted s) := BuffersOp.step_queues hop
  obtain ⟨s,out,hrun,hqueues⟩ := Runs.run_refines (fun s i => (s i).readable) hstep h
  refine ⟨s, out, hrun, hqueues, fun i => ⟨(s i).reader_le, (s i).writer_le⟩, ?_⟩
  rintro pre i len rfl
  obtain ⟨s1,o1,o2,_,hlast,_⟩ := Runs.run_append_ok hrun
  obtain ⟨s2,o3,o4,hone,hnil,_⟩ := Runs.run_cons_ok hlast
  obtain ⟨rfl,_⟩ := Prod.mk.inj (Except.ok.inj hnil)
  obtain ⟨b',hok,_,hroom⟩ := (s1 i).ensureWritableBytes_ok len
  have hdone : BuffersOp.step s1 (.on i (.ensureWritableBytes len)) =
      .ok (Function.update s1 i b', []) := by
    rw [BuffersOp.step, BufferOp.step, hok]
    rfl
  obtain ⟨rfl,_⟩ := Prod.mk.inj (Except.ok.inj (hone.symm.trans hdone))
  rw [Function.update_self]
  exact hroom

/-- A header in front of bytes that another buffer is then swapped for. -/
theorem buffers_are_queues_swapped : ∃ s, BuffersOp.run (fun _ => Buffer.new)
      [.on 0 (.prepend [9, 9]), .on 0 (.append [1, 2, 3]), .swap 0 1, .on 1 .retrieveAllAsString,
        .on 1 (.ensureWritableBytes 5000)] = .ok (s, [[9, 9, 1, 2, 3]]) ∧
    (s 0).readable = [] ∧ 5000 ≤ (s 1).writableBytes := by
  have hrest (s : ℕ → Buffer) : Runs.Along (fun s op => BuffersOp.step s op) (fun s op => op.Asserted s)
      s [.on 0 (.append [1, 2, 3]), .swap 0 1, .on 1 .retrieveAllAsString,
        .on 1 (.ensureWritableBytes 5000)] := by
    apply Runs.along_of_forall
    intro op hop s
    simp only [List.mem_cons, List.not_mem_nil, or_false] at hop
    rcases hop with rfl | rfl | rfl | rfl <;> trivial
  obtain ⟨s,out,hrun,hqueues,_,hroom⟩ := buffers_are_queues [.on 0 (.prepend [9, 9]),
    .on 0 (.append [1, 2, 3]), .swap 0 1, .on 1 .retrieveAllAsString, .on 1 (.ensureWritableBytes 5000)]
    ⟨show 2 ≤ Buffer.new.prependableBytes by decide, fun s' _ _ => hrest s'⟩
  obtain ⟨hreadable,rfl⟩ := Prod.mk.inj hqueues
  exact ⟨s, hrun, (congrFun hreadable 0).symm, hroom [.on 0 (.prepend [9, 9]), .on 0 (.append [1, 2, 3]),
    .swap 0 1, .on 1 .retrieveAllAsString] 1 5000 rfl⟩

end IdealServer
