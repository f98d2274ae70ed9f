import IdealServer.Basics
import IdealServer.Circular
import IdealServer.Numeral
import Mathlib.Algebra.Group.Nat.Defs

/-! `SudokuSolver`: the puzzle as an exact cover, which is searched by dancing links. A pointer to a node is
its index in `nodes_`. -/
namespace IdealServer
open Circular

def kCells : ℕ := 81
def kMaxNodes : ℕ := 1+81*4+9*9*9*4
def kRow : ℕ := 100
def kCol : ℕ := 200
def kBox : ℕ := 300

/-- The fields of all nodes. -/
structure Nodes where
  left : ℕ → ℕ
  right : ℕ → ℕ
  up : ℕ → ℕ
  down : ℕ → ℕ
  col : ℕ → ℕ
  name : ℕ → ℕ
  size : ℕ → ℤ

namespace Nodes

def zero : Nodes := ⟨fun _ => 0, fun _ => 0, fun _ => 0, fun _ => 0, fun _ => 0, fun _ => 0, fun _ => 0⟩

/-- A node that has been cleared and is linked to itself. -/
def single (h : Nodes) (n name col : ℕ) : Nodes where
  left := Function.update h.left n n
  right := Function.update h.right n n
  up := Function.update h.up n n
  down := Function.update h.down n n
  col := Function.update h.col n col
  name := Function.update h.name n name
  size := Function.update h.size n 0

def putLeft (h : Nodes) (old nnew : ℕ) : Nodes :=
  let h := { h with left := Function.update h.left nnew (h.left old) }
  let h := { h with right := Function.update h.right nnew old }
  let h := { h with right := Function.update h.right (h.left old) nnew }
  { h with left := Function.update h.left old nnew }

def putUp (h : Nodes) (old nnew : ℕ) : Nodes :=
  let h := { h with up := Function.update h.up nnew (h.up old) }
  let h := { h with down := Function.update h.down nnew old }
  let h := { h with down := Function.update h.down (h.up old) nnew }
  let h := { h with up := Function.update h.up old nnew }
  let h := { h with size := Function.update h.size old (h.size old+1) }
  { h with col := Function.update h.col nnew old }

/-- What `cover` does with a node `j` of a row. -/
def hide (h : Nodes) (j : ℕ) : Nodes :=
  let h := { h with up := Function.update h.up (h.down j) (h.up j) }
  let h := { h with down := Function.update h.down (h.up j) (h.down j) }
  { h with size := Function.update h.size (h.col j) (h.size (h.col j)-1) }

/-- What `uncover` does with it. -/
def unhide (h : Nodes) (j : ℕ) : Nodes :=
  let h := { h with size := Function.update h.size (h.col j) (h.size (h.col j)+1) }
  let h := { h with up := Function.update h.up (h.down j) j }
  { h with down := Function.update h.down (h.up j) j }

/-- The column header leaves the list of the columns. -/
def removeHeader (h : Nodes) (c : ℕ) : Nodes :=
  let h := { h with left := Function.update h.left (h.right c) (h.left c) }
  { h with right := Function.update h.right (h.left c) (h.right c) }

def restoreHeader (h : Nodes) (c : ℕ) : Nodes :=
  let h := { h with left := Function.update h.left (h.right c) c }
  { h with right := Function.update h.right (h.left c) c }

/-- Every ring has fewer than `kMaxNodes` members besides the node at which a loop ends. -/
def cover (c : ℕ) (h : Nodes) : Option (Bool × Nodes) :=
  let h := h.removeHeader c
  walk Nodes.down (fun row h =>
    walk Nodes.right (fun j h => some (false, h.hide j)) row kMaxNodes (h.right row) h) c kMaxNodes (h.down c) h

def uncover (c : ℕ) (h : Nodes) : Option (Bool × Nodes) :=
  (walk Nodes.up (fun row h =>
    walk Nodes.left (fun j h => some (false, h.unhide j)) row kMaxNodes (h.left row) h) c kMaxNodes (h.up c) h).map
      (fun r => (r.1, r.2.restoreHeader c))

/-- A round of the loop in `getMinColumn`, with the best column so far and its size. -/
def smaller (h : Nodes) (cc : ℕ) (best : ℕ × ℤ) : Option (Bool × ℕ × ℤ) :=
  if best.2 > h.size cc then some (decide (h.size cc ≤ 1), cc, h.size cc) else some (false, best)

/-- The first column with the smallest size, or one with at most one node. -/
def getMinColumn (h : Nodes) (root : ℕ) : Option ℕ :=
  let c := h.right root
  let minSize := h.size c
  if minSize > 1 then
    (walk (fun _ cc => h.right cc) h.smaller root kMaxNodes (h.right c) (c, minSize)).map (fun r => r.2.1)
  else some c

/-- The cell and the value of a row, found by going around it. -/
def readRow (h : Nodes) : ℕ → ℕ → Option ℕ → Option ℕ → Option (ℕ × ℕ)
  | 0, _, _, _ => none
  | fuel+1, n, cell, val =>
    match cell, val with
    | some cell, some val => some (cell, val)
    | cell, val =>
      if h.name n < 100 then readRow h fuel (h.right n) (some (h.name n)) val
      else readRow h fuel (h.right n) cell (some (h.name n%10))

end Nodes

structure SudokuSolver where
  nodes : Nodes
  root : ℕ
  inout : List ℕ
  columns : ℕ → Option ℕ
  stack : List ℕ
  curNode : ℕ

namespace SudokuSolver

def newColumn (s : SudokuSolver) (n : ℕ) : Except Fault (ℕ × SudokuSolver) :=
  if s.curNode < kMaxNodes then
    .ok (s.curNode, { s with nodes := s.nodes.single s.curNode n s.curNode, curNode := s.curNode+1 })
  else .error .assertFailed

def appendColumn (s : SudokuSolver) (n : ℕ) : Except Fault SudokuSolver :=
  if s.columns n = none then do
    let (c, s) ← s.newColumn n
    return { s with nodes := s.nodes.putLeft s.root c, columns := Function.update s.columns n (some c) }
  else .error .assertFailed

def newRow (s : SudokuSolver) (col : ℕ) : Except Fault (ℕ × SudokuSolver) :=
  match s.columns col with
  | none => .error .assertFailed
  | some c =>
    if s.curNode < kMaxNodes then
      let r := s.curNode
      .ok (r, { s with nodes := (s.nodes.single r col c).putUp c r, curNode := s.curNode+1 })
    else .error .assertFailed

def getRowCol (row val : ℕ) : ℕ := kRow+row*10+val
def getColCol (col val : ℕ) : ℕ := kCol+col*10+val
def getBoxCol (box val : ℕ) : ℕ := kBox+box*10+val

/-- Row, column and box of a cell. -/
def rowOf (i : ℕ) : ℕ := i/9
def colOf (i : ℕ) : ℕ := i%9
def boxOf (i : ℕ) : ℕ := rowOf i/3*3+colOf i/3

/-- Which values a row, column or box already has. -/
def marked (unit : ℕ → ℕ) (board : List ℕ) (u v : ℕ) : Bool :=
  (List.range kCells).any (fun i => unit i = u && board.getD i 0 = v)

/-- The four nodes of a row. -/
def appendRow (s : SudokuSolver) (i v : ℕ) : Except Fault SudokuSolver := do
  let (n0, s) ← s.newRow i
  let (nr, s) ← s.newRow (getRowCol (rowOf i) v)
  let (nc, s) ← s.newRow (getColCol (colOf i) v)
  let (nb, s) ← s.newRow (getBoxCol (boxOf i) v)
  return { s with nodes := ((s.nodes.putLeft n0 nr).putLeft n0 nc).putLeft n0 nb }

/-- The columns, in the order in which they are appended. -/
def columnNames (board : List ℕ) : List ℕ :=
  (List.range kCells).filter (fun i => board.getD i 0 = 0) ++
    (List.range 9).flatMap (fun i => (List.range' 1 9).flatMap (fun v =>
      (if marked rowOf board i v then [] else [getRowCol i v]) ++
      (if marked colOf board i v then [] else [getColCol i v]) ++
      (if marked boxOf board i v then [] else [getBoxCol i v])))

/-- The rows: an empty cell with a value that none of its units has. -/
def rowChoices (board : List ℕ) : List (ℕ × ℕ) :=
  ((List.range kCells).filter (fun i => board.getD i 0 = 0)).flatMap (fun i =>
    ((List.range' 1 9).filter (fun v =>
      !(marked rowOf board (rowOf i) v || marked colOf board (colOf i) v || marked boxOf board (boxOf i) v))).map
      (fun v => (i, v)))

def new (board : List ℕ) : Except Fault SudokuSolver := do
  let (root, s) ← newColumn ⟨.zero, 0, board, fun _ => none, [], 0⟩ 0
  let s := { s with root := root }
  let s ← (columnNames board).foldlM appendColumn s
  (rowChoices board).foldlM (fun s r => s.appendRow r.1 r.2) s

/-- The values of the chosen rows are put into their cells. -/
def writeBack (h : Nodes) (stack : List ℕ) (inout : List ℕ) : Option (List ℕ) :=
  stack.foldlM (fun inout n => (h.readRow kMaxNodes n none none).map (fun r => inout.set r.1 r.2)) inout

/-- A round of the loop in `solve`, which calls itself as `again`. -/
def tryRow (again : SudokuSolver → Option (Bool × SudokuSolver)) (row : ℕ) (s : SudokuSolver) :
    Option (Bool × SudokuSolver) := do
  let s := { s with stack := s.stack ++ [row] }
  let (_, h) ← walk Nodes.right (fun j h => h.cover (h.col j)) row kMaxNodes (s.nodes.right row) s.nodes
  let (found, s) ← again { s with nodes := h }
  if found then return (true, s)
  else
    let s := { s with stack := s.stack.dropLast }
    let (_, h) ← walk Nodes.left (fun j h => h.uncover (h.col j)) row kMaxNodes (s.nodes.left row) s.nodes
    return (false, { s with nodes := h })

/-- The body of `solve`. -/
def solveBody (again : SudokuSolver → Option (Bool × SudokuSolver)) (s : SudokuSolver) :
    Option (Bool × SudokuSolver) :=
  if s.nodes.left s.root = s.root then
    (writeBack s.nodes s.stack s.inout).map (fun inout => (true, { s with inout := inout }))
  else do
    let col ← s.nodes.getMinColumn s.root
    let (_, h) ← s.nodes.cover col
    let s := { s with nodes := h }
    let (found, s) ← walk (fun s row => s.nodes.down row) (tryRow again) col kMaxNodes (s.nodes.down col) s
    if found then return (true, s)
    else
      let (_, h) ← s.nodes.uncover col
      return (false, { s with nodes := h })

/-- `solve`, if it does not call itself more than `n` times one inside the other. -/
def solve : ℕ → SudokuSolver → Option (Bool × SudokuSolver)
  | 0 => fun _ => none
  | n+1 => solveBody (solve n)

end SudokuSolver

def kNoSolution : Bytes := ascii "NoSolution"

/-- There is no text where the search does not end. A digit is a `char` from `'0'` to `'9'`; where another
one occurs, the board is not used. -/
def solveSudoku (puzzle : Bytes) : Except Fault (Option Bytes) :=
  if puzzle.length = kCells then
    if puzzle.all Numeral.isDigit then do
      let s ← SudokuSolver.new (puzzle.map (fun c => c.toNat-48))
      return (s.solve kMaxNodes).map (fun r =>
        if r.1 then r.2.inout.map (fun v => UInt8.ofNat (v+48)) else kNoSolution)
    else .ok (some kNoSolution)
  else .error .assertFailed

end IdealServer
