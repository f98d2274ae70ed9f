import IdealServer.Basics
import IdealServer.Reading
import IdealServer.Runs

/-! `H264File`: a file is read through a buffer, and cut into frames at the start codes that are found in
it. -/
namespace IdealServer

/-- `_buffer[i] == value` -/
def byteIs (i : ℕ) (value : UInt8) : Reading UInt8 Bool := do
  let b ← Reading.get i
  return b = value

/-- `(_buffer[i]&mask) == value` -/
def maskedIs (i : ℕ) (mask value : UInt8) : Reading UInt8 Bool := do
  let b ← Reading.get i
  return b &&& mask = value

def isStartCode3 (i : ℕ) : Reading UInt8 Bool :=
  (byteIs i 0).and ((byteIs (i+1) 0).and (byteIs (i+2) 1))

def isStartCode4 (i : ℕ) : Reading UInt8 Bool :=
  (byteIs i 0).and ((byteIs (i+1) 0).and ((byteIs (i+2) 0).and (byteIs (i+3) 1)))

/-- The length of the start code at `i`. -/
def startCode (i : ℕ) : Reading UInt8 (Option ℕ) := do
  if ← isStartCode3 i then return some 3
  else if ← isStartCode4 i then return some 4
  else return none

/-- The first slice of a picture. -/
def isFirstSlice (nal : ℕ) : Reading UInt8 Bool :=
  ((maskedIs nal 0x1f 0x5).or (maskedIs nal 0x1f 0x1)).and (maskedIs (nal+1) 0x80 0x80)

/-- The unit belongs to the next frame. -/
def isNextFrame (nal : ℕ) : Reading UInt8 Bool :=
  (maskedIs nal 0x1f 0x6).or ((maskedIs nal 0x1f 0x7).or ((maskedIs nal 0x1f 0x8).or (isFirstSlice nal)))

/-- One pass of either loop: whether a unit of the kind looked for begins at `i`. -/
def unitAt (test : ℕ → Reading UInt8 Bool) (i : ℕ) : Reading UInt8 (Option Unit) := do
  match ← startCode i with
  | none => return none
  | some n => if ← test (i+n) then return some () else return none

/-- `bytesRead - 5` in `size_t`. -/
def scanLimit (bytesRead : ℕ) : ℕ := (bytesRead+2^64-5)%2^64

/-- Where the frame ends, whether it is taken for the last one, and the bytes of it that are copied. -/
structure Cut where
  i : ℕ
  flag : Bool
  frame : Bytes
deriving DecidableEq, Repr

/-- What `readFrame` does with `_buffer`. There is no cut where it gives up. -/
def cutFrame (bytesRead : ℕ) (count : ℤ) (bufSize : ℕ) : Reading UInt8 (Option Cut) := do
  let (i, start) ← Reading.loop (unitAt isFirstSlice) (scanLimit bytesRead) 0
  let i := if start.isSome then i+4 else i
  let (i, stop) ← Reading.loop (unitAt isNextFrame) (scanLimit bytesRead-i) i
  let flag := start.isSome && stop.isNone && decide (0 < count)
  let i := if flag then bytesRead else i
  if start.isSome && (stop.isSome || flag) then
    let frame ← Reading.copy (if i ≤ bufSize then i else bufSize) 0
    return some ⟨i, flag, frame⟩
  else return none

/-- The position of `_fp`, if there is one, and what `_buffer` holds. -/
structure H264File where
  fp : Option ℕ
  buffer : Bytes
  buffer_lt : buffer.length < 2^31
  bytesUsed : ℤ
  count : ℤ
deriving DecidableEq

/-- What a call returns, what it has copied and what it has stored in `endOfFrame`. -/
structure FrameRead where
  size : ℤ
  frame : Bytes
  endOfFrame : Option Bool
deriving DecidableEq, Repr

/-- An index outside `_buffer`, or an `int` that overflows. -/
inductive H264Fault
  | outOfBounds
  | overflow
deriving DecidableEq, Repr

namespace H264File

/-- The constructor leaves the bytes of `_buffer` as they are in memory. -/
def new (mem : Bytes) (h : mem.length < 2^31) : H264File := ⟨none, mem, h, 0, 0⟩

/-- `open`, with whether the file can be opened. -/
def openPath (f : H264File) (found : Bool) : H264File × Bool :=
  if found then ({ f with fp := some 0 }, true) else ({ f with fp := none }, false)

def close (f : H264File) : H264File :=
  match f.fp with
  | some _ => { f with fp := none, count := 0, bytesUsed := 0 }
  | none => f

/-- `fread` of the size of `_buffer` at `pos`, with the number of bytes that have been read. -/
def fread (file : Bytes) (f : H264File) (pos : ℕ) : ℕ × H264File :=
  let n := min f.buffer.length (file.length-pos)
  (n, { f with
    fp := some (pos+n)
    buffer := (file.drop pos).take n ++ f.buffer.drop n
    buffer_lt := by
      have := f.buffer_lt
      simp only [List.length_append, List.length_take, List.length_drop]
      omega })

/-- A position in front of the file is refused. -/
def fseek (f : H264File) (offset : ℤ) : H264File :=
  if 0 ≤ offset then { f with fp := some offset.toNat } else f

/-- At the end of the file reading starts again at its beginning. -/
def refill (file : Bytes) (f : H264File) (pos : ℕ) : ℕ × H264File :=
  let r := f.fread file pos
  if r.1 = 0 then { r.2 with count := 0, bytesUsed := 0 }.fread file 0 else r

/-- What follows the search: the position is set behind the frame, or back to the beginning. -/
def conclude (f : H264File) : Option (Option Cut) → Except H264Fault (H264File × FrameRead)
  | none => .error .outOfBounds
  | some none => .ok (f.close, ⟨-1, [], some false⟩)
  | some (some cut) =>
    if cut.flag then
      .ok ({ f with count := 0, bytesUsed := 0 }.fseek 0, ⟨cut.frame.length, cut.frame, some true⟩)
    else if f.count+1 < 2^31 then
      let bytesUsed := Int.bmod (f.bytesUsed+cut.i) (2^32)
      .ok ({ f with count := f.count+1, bytesUsed := bytesUsed }.fseek bytesUsed,
        ⟨cut.frame.length, cut.frame, some false⟩)
    else .error .overflow

def readFrame (file : Bytes) (f : H264File) (bufSize : ℕ) : Except H264Fault (H264File × FrameRead) :=
  match f.fp with
  | none => .ok (f, ⟨-1, [], none⟩)
  | some pos =>
    let r := f.refill file pos
    if r.1 = 0 then .ok (r.2.close, ⟨-1, [], none⟩)
    else r.2.conclude ((cutFrame r.1 r.2.count bufSize).run r.2.buffer)

/-- The indices of `_buffer` that the call reads. -/
def readIndices (file : Bytes) (f : H264File) (bufSize : ℕ) : List ℕ :=
  match f.fp with
  | none => []
  | some pos =>
    let r := f.refill file pos
    if r.1 = 0 then [] else (cutFrame r.1 r.2.count bufSize).indices r.2.buffer

end H264File

end IdealServer
