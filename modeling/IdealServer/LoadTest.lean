import IdealServer.Percentile
import IdealServer.SudokuClient
import Mathlib.Data.Bool.AllAny

/-! `SudokuLoadTest`: the clients, their connections to the Sudoku server, and the two timers. What is sent comes
in pieces of any length, in any order of the events. -/
namespace IdealServer
open Lines Search

/-- A client, the input buffer of its connection at the server, and what was sent and not read yet. -/
structure Link where
  client : SudokuClient
  server : Buffer
  up : Bytes
  down : Bytes

inductive LoadObs
  | shutdown
  /-- What `tock` hands to `Percentile`, what it logs, and the file that it saves. -/
  | report (latencies : List ℤ) (infly : ℕ) (text name : Bytes) (rows : List PercentileRow)
deriving DecidableEq, Repr

namespace Link
open SudokuServer (Stop)

def new (name : Bytes) (input : List Bytes) : Link := ⟨.new name input, .new, [], []⟩

def connected (l : Link) : Link := { l with client := { l.client with connected := true } }

def send (l : Link) (n now : ℤ) : Except Stop Link := do
  let (client, data) ← l.client.send n now
  return { l with client := client, up := l.up ++ data }

def sentData : ConnAction → Bytes
  | .send data => data
  | .shutdown => []

/-- The server reads so many bytes. -/
def serve (l : Link) (k : ℕ) : Except Stop (Link × List LoadObs) := do
  let (server, acts) ← SudokuServer.onMessage l.server (l.up.take k)
  let l : Link := { l with server := server, up := l.up.drop k, down := l.down ++ acts.flatMap sentData }
  return (l, if .shutdown ∈ acts then [.shutdown] else [])

/-- The client reads so many bytes. -/
def receive (l : Link) (k : ℕ) (recvTime : ℤ) : Except Stop (Link × List LoadObs) := do
  let (client, shutdown) ← l.client.onMessage (l.down.take k) recvTime
  return ({ l with client := client, down := l.down.drop k }, if shutdown then [.shutdown] else [])

end Link

structure SudokuLoadTest where
  rps : ℤ
  clients : List Link
  /-- How many files have been saved. -/
  count : ℕ
  ticks : ℤ
  sofar : ℤ

namespace SudokuLoadTest
open SudokuServer (Stop)

def kHz : ℤ := 100

def new (rps : ℤ) (input names : List Bytes) : SudokuLoadTest := ⟨rps, names.map (Link.new · input), 0, 0, 0⟩

def sendAll (n now : ℤ) : List Link → Except Stop (List Link)
  | [] => .ok []
  | l :: ls => do
    let l ← l.send n now
    let ls ← sendAll n now ls
    return l :: ls

/-- The number of requests is a 64-bit number, and each client gets it as an `int`. -/
def tick (s : SudokuLoadTest) (now : ℤ) : Except Stop SudokuLoadTest :=
  let ticks := s.ticks+1
  if |s.rps*ticks| < 2^63 then
    let reqs := (s.rps*ticks).tdiv kHz-s.sofar
    let s := { s with ticks := ticks, sofar := s.sofar+reqs }
    if reqs > 0 then do
      let clients ← sendAll (Int.bmod reqs (2^32)) now s.clients
      return { s with clients := clients }
    else return s
  else .error .overflow

def reportAll (latencies : List ℤ) (infly : ℕ) : List Link → Except Stop (List Link × List ℤ × ℕ)
  | [] => .ok ([], latencies, infly)
  | l :: ls => do
    let (client, latencies, infly) ← l.client.report latencies infly
    let (ls, latencies, infly) ← reportAll latencies infly ls
    return ({ l with client := client } :: ls, latencies, infly)

/-- `opens` says whether the file can be opened. -/
def tock (s : SudokuLoadTest) (opens : Bool) : Except Stop (SudokuLoadTest × List LoadObs) := do
  let (clients, latencies, infly) ← reportAll [] 0 s.clients
  let p ← Percentile.new latencies infly
  let rows ← p.save opens
  if s.count+1 < 2^31 then
    return ({ s with clients := clients, count := s.count+1 },
      [.report latencies infly p.report (snprintf 64 [] (ascii "r" ++ zeroPadded 4 s.count)) rows])
  else .error .overflow

inductive Event
  | connected (i : ℕ)
  | serve (i k : ℕ)
  | receive (i k : ℕ) (recvTime : ℤ)
  | tick (now : ℤ)
  | tock (opens : Bool)
deriving DecidableEq, Repr

def onLink (s : SudokuLoadTest) (i : ℕ) (f : Link → Except Stop (Link × List LoadObs)) :
    Except Stop (SudokuLoadTest × List LoadObs) :=
  match s.clients[i]? with
  | none => .ok (s, [])
  | some l => do
    let (l, out) ← f l
    return ({ s with clients := s.clients.set i l }, out)

def step (s : SudokuLoadTest) : Event → Except Stop (SudokuLoadTest × List LoadObs)
  | .connected i => s.onLink i (fun l => .ok (l.connected, []))
  | .serve i k => s.onLink i (·.serve k)
  | .receive i k recvTime => s.onLink i (·.receive k recvTime)
  | .tick now => (s.tick now).map (·, [])
  | .tock opens => s.tock opens

/-- A `tock` can open its file, and the sums and the intervals of its latencies are numbers of type `int`. -/
def Reportable (s : SudokuLoadTest) : Event → Prop
  | .tock opens => opens = true ∧ s.count+1 < 2^31 ∧
      Percentile.SumsFit (s.clients.flatMap (·.client.latencies)).mergeSort ∧
      Percentile.Savable (s.clients.flatMap (·.client.latencies))
  | _ => True

end SudokuLoadTest

/-- The requests with so many numbers from one on. -/
def requestLines (c : SudokuClient) (i n : ℕ) : List Bytes := (List.range' i n).map (requestLine c.name c.input)

namespace Link

/-- The requests up to `served` have been answered by the server, and the client has taken the answers to those up
to `answered`. The others and their answers are in the buffers and on the way. -/
structure Progress (l : Link) (answered : ℕ) (todo : List Bytes) : Prop where
  flight : l.client.InFlight answered
  served : answered+todo.length ≤ l.client.count
  responses : Responses l.client.name l.client.input answered todo
  down : l.client.buffer.readable ++ l.down = unlines kCRLF todo
  waiting : SudokuClient.Waiting l.client.buffer
  up : l.server.readable ++ l.up =
    unlines kCRLF (requestLines l.client (answered+todo.length) (l.client.count-(answered+todo.length)))
  unbroken : ¬ kCRLF <:+: l.server.readable

structure Sound (l : Link) : Prop where
  input : LoadInput l.client.name l.client.input
  requests : l.client.requests.readable = []
  progress : ∃ answered todo, l.Progress answered todo

/-- How many latencies the client has reported. -/
def reported (l : Link) : ℤ := l.client.count-(l.client.latencies.length+l.client.sendTime.length)

/-- What the events other than those of the timers leave as it is. -/
structure Same (l l' : Link) : Prop where
  count : l'.client.count = l.client.count
  reported : l'.reported = l.reported
  name : l'.client.name = l.client.name
  input : l'.client.input = l.client.input

theorem Same.refl (l : Link) : l.Same l := ⟨rfl, rfl, rfl, rfl⟩

end Link

section Lines
variable {name : Bytes} {input : List Bytes} {i n : ℕ} {todo more : List Bytes}

theorem responses_append : Responses name input i (todo ++ more) ↔
    Responses name input i todo ∧ Responses name input (i+todo.length) more := by
  induction todo generalizing i with
  | nil => exact (and_iff_right trivial).symm
  | cons l ls ih =>
    have hnext : i+(l :: ls).length = i+1+ls.length := by
      rw [List.length_cons]
      omega
    rw [List.cons_append, Responses, Responses, ih, hnext, and_assoc]

theorem Responses.drop {k : ℕ} (h : Responses name input i todo) (hk : k ≤ todo.length) :
    Responses name input (i+k) (todo.drop k) := by
  have hsplit := h
  rw [← List.take_append_drop k todo, responses_append, List.length_take, Nat.min_eq_left hk] at hsplit
  exact hsplit.2

theorem requestLines_append {c : SudokuClient} {xs ys : List Bytes} (h : requestLines c i n = xs ++ ys) :
    ∃ k ≤ n, xs = requestLines c i k ∧ ys = requestLines c (i+k) (n-k) := by
  obtain ⟨is,js,hrange,rfl,rfl⟩ := List.map_eq_append_iff.mp h
  obtain ⟨k,hk,rfl,rfl⟩ := List.range'_eq_append_iff.mp hrange
  refine ⟨k, hk, rfl, ?_⟩
  rw [requestLines, Nat.mul_one]

theorem requests_of_load {c : SudokuClient} (h : LoadInput c.name c.input) (hlt : i+n ≤ 2^31) :
    SudokuServer.Requests (requestLines c i n) := by
  intro r hr
  obtain ⟨j,hj,rfl⟩ := List.mem_map.mp hr
  have hj' := (List.mem_range'_1.mp hj).2
  exact h.requests (by omega)

theorem eight_le_zeroPadded (k : ℕ) : 8 ≤ (zeroPadded 8 k).length := by
  rw [zeroPadded, if_neg (by omega), Int.natAbs_natCast, Radix.Alphabet.padded, List.length_append,
    List.length_replicate]
  omega

/-- What the server sends for such lines. -/
theorem responses_of_replies {c : SudokuClient} (h : LoadInput c.name c.input) {replies : List ConnAction}
    (hall : List.Forall₂ SudokuServer.Replies (requestLines c i n) replies) :
    ConnAction.shutdown ∉ replies ∧ ∃ more, more.length = n ∧ Responses c.name c.input i more ∧
      replies.flatMap Link.sentData = unlines kCRLF more := by
  induction n generalizing i replies with
  | zero =>
    obtain rfl := List.forall₂_nil_left_iff.mp hall
    exact ⟨List.not_mem_nil, [], rfl, trivial, rfl⟩
  | succ n ih =>
    rw [requestLines, List.range'_succ, List.map_cons] at hall
    obtain ⟨action,replies,hreplies,hrest,rfl⟩ := List.forall₂_cons_left_iff.mp hall
    obtain ⟨answer,hanswer,rfl⟩ := (h.replies_iff i action).mp hreplies
    obtain ⟨hnot,more,hlen,hmore,hsent⟩ := ih hrest
    refine ⟨?_, responseLine c.name i answer :: more, by rw [List.length_cons, hlen], ⟨⟨answer, hanswer, rfl⟩, hmore⟩, ?_⟩
    · intro hin
      rcases List.mem_cons.mp hin with hin | hin
      · cases hin
      · exact hnot hin
    · rw [List.flatMap_cons, hsent, unlines_cons]
      rfl

end Lines

namespace Link
variable {l : Link} {k : ℕ} {n now : ℤ}

theorem Sound.new {name : Bytes} {input : List Bytes} (h : LoadInput name input) : (new name input).Sound := by
  have hempty : Buffer.new.readable = [] := by decide
  refine ⟨h, hempty, 0, [], ?_⟩
  constructor
  case flight => exact ⟨le_refl 0, rfl⟩
  case served => exact le_refl 0
  case responses => trivial
  case down => exact (List.append_nil _).trans hempty
  case waiting =>
    apply Or.inl
    change Buffer.new.readable.length < kCells+2
    rw [hempty]
    decide
  case up => exact (List.append_nil _).trans hempty
  case unbroken =>
    change ¬ kCRLF <:+: Buffer.new.readable
    rw [hempty]
    decide

theorem Sound.connected (h : l.Sound) : l.connected.Sound ∧ l.Same l.connected := by
  obtain ⟨answered,todo,p⟩ := h.progress
  exact ⟨⟨h.input, h.requests, answered, todo, ⟨p.flight.le, p.flight.keys⟩, p.served, p.responses, p.down, p.waiting,
    p.up, p.unbroken⟩, rfl, rfl, rfl, rfl⟩

/-- The server answers what it has read, in the order of the requests. -/
theorem Sound.serve (h : l.Sound) (hcount : l.client.count < 2^31) (k : ℕ) :
    ∃ l', l.serve k = .ok (l', []) ∧ l'.Sound ∧ l.Same l' := by
  obtain ⟨answered,todo,p⟩ := h.progress
  have hserved := p.served
  obtain ⟨buf,lines,replies,out,rest,hread,htext,hlines,hall,hends⟩ :=
    SudokuServer.onMessage_ends l.server (l.up.take k)
  have hrequests := @requests_of_load (answered+todo.length) (l.client.count-(answered+todo.length)) l.client h.input
    (by omega)
  have hup : unlines kCRLF lines ++ rest ++ l.up.drop k =
      unlines kCRLF (requestLines l.client (answered+todo.length) (l.client.count-(answered+todo.length))) := by
    rw [← p.up, ← htext, List.append_assoc, List.take_append_drop]
  -- the lines that the server takes are the next requests, so that it refuses nothing
  obtain ⟨later,hsplit,hlater⟩ := SudokuServer.exists_later (fun line hl => (hlines line hl).2) hrequests hup
  have hlaterRequests : SudokuServer.Requests later := fun r hr => hrequests r (hsplit ▸ List.mem_append_right _ hr)
  obtain ⟨rfl,hleft,hunbroken⟩ := SudokuServer.ends_of_requests hends hlaterRequests hlater
  obtain ⟨m,hm,rfl,rfl⟩ := requestLines_append hsplit
  obtain ⟨hnot,more,hlen,hmore,hsent⟩ := responses_of_replies h.input hall
  have hnext : answered+(todo ++ more).length = answered+todo.length+m := by
    rw [List.length_append, hlen, Nat.add_assoc]
  refine ⟨{ l with server := buf, up := l.up.drop k, down := l.down ++ replies.flatMap sentData }, ?_,
    ⟨h.input, h.requests, answered, todo ++ more, ?_⟩, rfl, rfl, rfl, rfl⟩
  · rw [List.append_nil] at hread
    rw [Link.serve, hread]
    change Except.ok (_, if ConnAction.shutdown ∈ replies then _ else _) = _
    rw [if_neg hnot]
  · constructor
    case flight => exact p.flight
    case served =>
      dsimp only
      omega
    case responses => exact responses_append.mpr ⟨p.responses, hmore⟩
    case down => rw [← List.append_assoc, p.down, hsent, unlines_append]
    case waiting => exact p.waiting
    case up =>
      rw [hleft, hlater, hnext, Nat.sub_sub]
    case unbroken => exact hleft ▸ hunbroken

/-- The client takes answers in the order of its requests. -/
theorem Sound.receive (h : l.Sound) (hcount : l.client.count < 2^31) (k : ℕ) (recvTime : ℤ) :
    ∃ l', l.receive k recvTime = .ok (l', []) ∧ l'.Sound ∧ l.Same l' := by
  obtain ⟨answered,todo,p⟩ := h.progress
  have hserved := p.served
  obtain ⟨buf,happend,hread⟩ := l.client.buffer.append_ok (l.down.take k)
  have hbuf : buf.readable ++ l.down.drop k = unlines kCRLF todo := by
    rw [hread, List.append_assoc, List.take_append_drop, p.down]
  obtain ⟨taken,latencies,sendTime,buffer,hhandle,htaken,hlatencies,hkeys,hrest,hwaiting⟩ :=
    @SudokuClient.handle_responses { l.client with buffer := buf } answered (buf.readableBytes+1) recvTime
      (l.down.drop k) todo h.input ⟨p.flight.le, p.flight.keys⟩ hcount hserved p.responses
      (by rw [Buffer.length_readable]; exact Nat.lt_succ_self _) hbuf
  have hlen : answered+taken+(todo.drop taken).length = answered+todo.length := by
    rw [List.length_drop]
    omega
  refine ⟨{ l with
    client := { l.client with latencies := latencies, sendTime := sendTime, buffer := buffer }
    down := l.down.drop k }, ?_, ⟨h.input, h.requests, answered+taken, todo.drop taken, ?_⟩, rfl, ?_, rfl, rfl⟩
  · rw [Link.receive, SudokuClient.onMessage, happend]
    change Except.bind (SudokuClient.handle recvTime (buf.readableBytes+1) _) _ = _
    rw [hhandle]
    rfl
  · constructor
    case flight =>
      refine ⟨?_, hkeys⟩
      dsimp only
      omega
    case served =>
      dsimp only
      omega
    case responses => exact p.responses.drop htaken
    case down => exact hrest
    case waiting => exact hwaiting
    case up =>
      rw [hlen]
      exact p.up
    case unbroken => exact p.unbroken
  · have hbefore := congrArg List.length p.flight.keys
    have hafter := congrArg List.length hkeys
    rw [List.length_map, List.length_map, List.length_range'] at hbefore hafter
    have hle := p.flight.le
    rw [reported, reported]
    dsimp only at hlatencies hafter ⊢
    omega

theorem Sound.send (h : l.Sound) (hn : 0 < n) (hcount : l.client.count+n < 2^31) (now : ℤ) :
    ∃ l', l.send n now = .ok l' ∧ l'.Sound ∧ l'.client.count ≤ l.client.count+n ∧ l'.reported = l.reported ∧
      l'.client.name = l.client.name ∧ l'.client.input = l.client.input := by
  obtain ⟨answered,todo,p⟩ := h.progress
  have hserved := p.served
  have hassert : ¬ n ≤ 0 := by omega
  cases hconn : l.client.connected with
  | false =>
    refine ⟨{ l with up := l.up ++ [] }, ?_, ?_, ?_, rfl, rfl, rfl⟩
    · rw [Link.send, SudokuClient.send, if_neg hassert, hconn]
      rfl
    · rw [List.append_nil]
      exact h
    · dsimp only
      omega
  | true =>
    obtain ⟨requests,sendTime,hloop,hrequests,hkeys⟩ := @SudokuClient.sendLoop_ok l.client answered n.toNat now h.input
      p.flight (by omega)
    refine ⟨{ l with
      client := { l.client with
        requests := requests.retrieveAll, sendTime := sendTime, count := l.client.count+n.toNat }
      up := l.up ++ requests.readable }, ?_, ⟨h.input, Buffer.readable_retrieveAll _, answered, todo, ?_⟩, ?_, ?_, rfl, rfl⟩
    · rw [Link.send, SudokuClient.send, if_neg hassert, hconn, if_pos rfl, hloop]
      rfl
    · constructor
      case flight =>
        refine ⟨?_, hkeys⟩
        have hle := p.flight.le
        dsimp only
        omega
      case served =>
        dsimp only
        omega
      case responses => exact p.responses
      case down => exact p.down
      case waiting => exact p.waiting
      case up =>
        have hsum : l.client.count+n.toNat-(answered+todo.length) =
            (l.client.count-(answered+todo.length))+n.toNat := by omega
        have hlines : requestLines l.client (answered+todo.length) (l.client.count+n.toNat-(answered+todo.length)) =
            requestLines l.client (answered+todo.length) (l.client.count-(answered+todo.length)) ++
              requestLines l.client l.client.count n.toNat := by
          have hmiddle : answered+todo.length+(l.client.count-(answered+todo.length)) = l.client.count := by omega
          rw [hsum, requestLines, ← List.range'_append_1, List.map_append, hmiddle]
          rfl
        have hnew : unlines kCRLF (requestLines l.client l.client.count n.toNat) = requests.readable := by
          rw [hrequests, h.requests]
          rfl
        dsimp only
        rw [← List.append_assoc, p.up, ← hnew, ← unlines_append, ← hlines]
        rfl
      case unbroken => exact p.unbroken
    · dsimp only
      omega
    · have hbefore := congrArg List.length p.flight.keys
      have hafter := congrArg List.length hkeys
      rw [List.length_map, List.length_map, List.length_range'] at hbefore hafter
      have hle := p.flight.le
      rw [reported, reported]
      dsimp only
      omega

/-- The client is done with the latencies that it has reported. -/
def drained (l : Link) : Link := { l with client := { l.client with latencies := [] } }

theorem Sound.drained (h : l.Sound) : l.drained.Sound := by
  obtain ⟨answered,todo,p⟩ := h.progress
  exact ⟨h.input, h.requests, answered, todo, ⟨p.flight.le, p.flight.keys⟩, p.served, p.responses, p.down, p.waiting,
    p.up, p.unbroken⟩

theorem reported_drained (l : Link) : l.drained.reported = l.reported+l.client.latencies.length := by
  rw [reported, reported]
  change (l.client.count : ℤ)-((0 : ℕ)+l.client.sendTime.length) = _
  omega

theorem Sound.infly_le (h : l.Sound) : l.client.sendTime.length ≤ l.client.count := by
  obtain ⟨answered,todo,p⟩ := h.progress
  have hlen := congrArg List.length p.flight.keys
  rw [List.length_map, List.length_map, List.length_range'] at hlen
  omega

/-- No filling of the puzzle is a solution. -/
def Unsolvable (puzzle : Bytes) : Prop := ∀ b, ¬ (puzzle.all Numeral.isDigit ∧ Completes (digitsOf puzzle) b)

theorem unsolvable_of_answer {puzzle : Bytes} (h : IsAnswer puzzle kNoSolution) : Unsolvable puzzle := by
  rcases h with ⟨b,_,hb,htext⟩ | ⟨_,h⟩
  · have hlen : (textOf b).length = kCells := (List.length_map _).trans hb.length
    rw [← htext] at hlen
    exact absurd hlen (by decide)
  · exact h

theorem Responses.get {name : Bytes} {input todo : List Bytes} {i j : ℕ} (h : Responses name input i todo)
    (hj : j < todo.length) : ∃ answer, IsAnswer (puzzleAt input (i+j)) answer ∧
      todo[j] = responseLine name (i+j) answer := by
  have hdrop := Responses.drop h hj.le
  rw [List.drop_eq_getElem_cons hj] at hdrop
  exact hdrop.1

theorem length_le_unlines {todo : List Bytes} {m : ℕ} (h : ∀ line ∈ todo, m ≤ line.length) :
    todo.length*(m+2) ≤ (unlines kCRLF todo).length := by
  induction todo with
  | nil => exact le_of_eq (Nat.zero_mul _)
  | cons line todo ih =>
    have hline := h line List.mem_cons_self
    have hrest := ih (fun l hl => h l (List.mem_cons_of_mem _ hl))
    have hsep : kCRLF.length = 2 := rfl
    rw [unlines_cons, List.length_append, List.length_append, List.length_cons, Nat.succ_mul]
    omega

/-- Where nothing is on the way, all requests have been answered but a few whose puzzles have no solution. -/
theorem Sound.quiet (h : l.Sound) (hcount : l.client.count < 2^31) (hup : l.up = []) (hdown : l.down = []) :
    l.client.sendTime.length ≤ 3 ∧
      ∀ e ∈ l.client.sendTime, ∃ i : ℕ, e.1 = i ∧ i < l.client.count ∧ Unsolvable (puzzleAt l.client.input i) := by
  obtain ⟨answered,todo,p⟩ := h.progress
  have hserved := p.served
  have hlines := p.up
  have htodo := p.down
  rw [hup, List.append_nil] at hlines
  rw [hdown, List.append_nil] at htodo
  -- an unread request would be a line in the buffer of the server
  have hall : l.client.count = answered+todo.length := by
    by_contra hne
    obtain ⟨m,hm⟩ : ∃ m, l.client.count-(answered+todo.length) = m+1 := ⟨_, (Nat.succ_pred (by omega)).symm⟩
    have hin : kCRLF <:+: l.server.readable := by
      rw [hlines, hm, requestLines, List.range'_succ, List.map_cons, unlines_cons]
      exact List.infix_append _ _ _
    exact p.unbroken hin
  have hshort : (unlines kCRLF todo).length < kCells+2 := by
    rcases p.waiting with hwaiting | hwaiting
    · rwa [htodo] at hwaiting
    · cases htodo' : todo with
      | nil => decide
      | cons line todo =>
        have hin : kCRLF <:+: l.client.buffer.readable := by
          rw [htodo, htodo', unlines_cons]
          exact List.infix_append _ _ _
        exact absurd hin hwaiting
  have hno {j : ℕ} (hj : j < todo.length) : IsAnswer (puzzleAt l.client.input (answered+j)) kNoSolution := by
    obtain ⟨answer,hanswer,hline⟩ := Responses.get p.responses hj
    by_cases hne : answer = kNoSolution
    · exact hne ▸ hanswer
    · have hlong := (h.input.response_line (show answered+j < 2^31 by omega) hanswer).2.2 hne
      have hone : (responseLine l.client.name (answered+j) answer).length+2 ≤ (unlines kCRLF todo).length := by
        obtain ⟨before,after,hsplit⟩ := List.append_of_mem (hline ▸ List.getElem_mem hj)
        rw [hsplit, unlines_append, unlines_cons, List.length_append, List.length_append, List.length_append]
        change _ ≤ _+(_+2+_)
        omega
      omega
  have hlen := congrArg List.length p.flight.keys
  rw [List.length_map, List.length_map, List.length_range'] at hlen
  refine ⟨?_, ?_⟩
  · have hlines : ∀ line ∈ todo, 20 ≤ line.length := by
      intro line hline
      obtain ⟨j,hj,rfl⟩ := List.mem_iff_getElem.mp hline
      obtain ⟨answer,hanswer,hline⟩ := Responses.get p.responses hj
      have hanswerLen : 10 ≤ answer.length := by
        by_cases hne : answer = kNoSolution
        · rw [hne]
          decide
        · rw [(hanswer.digits hne).1]
          decide
      rw [hline, responseLine, List.length_append, List.length_cons]
      have hid : 9 ≤ (idText l.client.name (answered+j)).length := by
        rw [idText, List.length_append, List.length_append]
        have hdigits := eight_le_zeroPadded (answered+j)
        change 9 ≤ _+(1+_)
        omega
      omega
    have hmany := length_le_unlines hlines
    have hcells : kCells = 81 := rfl
    omega
  · intro e he
    have hmem : e.1 ∈ l.client.sendTime.map Prod.fst := List.mem_map_of_mem he
    rw [p.flight.keys] at hmem
    obtain ⟨i,hi,hie⟩ := List.mem_map.mp hmem
    obtain ⟨hlow,hhigh⟩ := List.mem_range'_1.mp hi
    obtain ⟨j,rfl⟩ := Nat.exists_eq_add_of_le hlow
    exact ⟨answered+j, hie.symm, by omega, unsolvable_of_answer (hno (by omega))⟩

end Link

namespace LoadObs

/-- How many latencies are reported. -/
def latencyCount : LoadObs → ℤ
  | .shutdown => 0
  | .report latencies _ _ _ _ => latencies.length

end LoadObs

namespace SudokuLoadTest
open SudokuServer (Stop)

/-- The invariant of the load test, and what it has reported so far. -/
structure Sound (input names : List Bytes) (s : SudokuLoadTest) (acc : List LoadObs) : Prop where
  rps : 0 ≤ s.rps
  ticks : 0 ≤ s.ticks
  sofar : s.sofar = s.rps*s.ticks/kHz
  clients : ∀ l ∈ s.clients, l.Sound ∧ (l.client.count : ℤ) ≤ s.sofar
  names : s.clients.map (fun l => (l.client.name, l.client.input)) = names.map (·, input)
  reported : (s.clients.map Link.reported).sum = (acc.map LoadObs.latencyCount).sum
  no_shutdown : LoadObs.shutdown ∉ acc
  saved : ∀ latencies infly text name rows, .report latencies infly text name rows ∈ acc → latencies ≠ [] →
    Percentile.Histogram rows latencies

variable {s : SudokuLoadTest} {input names : List Bytes} {acc : List LoadObs} {n now : ℤ}

theorem map_set_same {α β : Type*} {f : α → β} {xs : List α} {i : ℕ} {x y : α} (hx : xs[i]? = some x)
    (h : f y = f x) : (xs.set i y).map f = xs.map f := by
  have hi : (xs.map f)[i]? = some (f y) := by rw [List.getElem?_map, hx, Option.map_some, h]
  obtain ⟨hlt,hget⟩ := List.getElem?_eq_some_iff.mp hi
  rw [List.map_set, ← hget, List.set_getElem_self]

/-- The other connections stay as they are. -/
theorem Sound.onLink {f : Link → Except Stop (Link × List LoadObs)} (h : s.Sound input names acc) (i : ℕ)
    (hf : ∀ l ∈ s.clients, ∃ l', f l = .ok (l', []) ∧ l'.Sound ∧ l.Same l') :
    ∃ s', s.onLink i f = .ok (s', []) ∧ s'.Sound input names acc ∧ s'.rps = s.rps ∧ s'.ticks = s.ticks := by
  cases hi : s.clients[i]? with
  | none => exact ⟨s, by rw [SudokuLoadTest.onLink, hi], h, rfl, rfl⟩
  | some l =>
    obtain ⟨hsound,hcount⟩ := h.clients l (List.mem_of_getElem? hi)
    obtain ⟨l',hstep,hsound',hsame⟩ := hf l (List.mem_of_getElem? hi)
    refine ⟨{ s with clients := s.clients.set i l' }, ?_, ⟨h.rps, h.ticks, h.sofar, ?_, ?_, ?_, h.no_shutdown,
      h.saved⟩, rfl, rfl⟩
    · rw [SudokuLoadTest.onLink, hi]
      change Except.bind (f l) _ = _
      rw [hstep]
      rfl
    · intro k hk
      rcases List.mem_or_eq_of_mem_set hk with hk | rfl
      · exact h.clients k hk
      · exact ⟨hsound', hsame.count ▸ hcount⟩
    · rw [← h.names]
      exact map_set_same hi (by rw [hsame.name, hsame.input])
    · rw [← h.reported]
      exact congrArg List.sum (map_set_same hi hsame.reported)

theorem sendAll_ok {c : ℤ} {ls : List Link} (hn : 0 < n) (hc : c+n < 2^31)
    (h : ∀ l ∈ ls, l.Sound ∧ (l.client.count : ℤ) ≤ c) : ∃ ls', sendAll n now ls = .ok ls' ∧
      (∀ l ∈ ls', l.Sound ∧ (l.client.count : ℤ) ≤ c+n) ∧ ls'.map Link.reported = ls.map Link.reported ∧
      ls'.map (fun l => (l.client.name, l.client.input)) = ls.map (fun l => (l.client.name, l.client.input)) := by
  induction ls with
  | nil => exact ⟨[], rfl, fun l hl => absurd hl List.not_mem_nil, rfl, rfl⟩
  | cons l ls ih =>
    obtain ⟨hsound,hcount⟩ := h l List.mem_cons_self
    obtain ⟨l',hsend,hsound',hcount',hreported,hname,hinput⟩ := hsound.send hn (by omega) now
    obtain ⟨ls',hall,hsounds,hreporteds,hnames⟩ := ih (fun k hk => h k (List.mem_cons_of_mem _ hk))
    refine ⟨l' :: ls', ?_, ?_, ?_, ?_⟩
    · rw [sendAll, hsend]
      change Except.bind (sendAll n now ls) _ = _
      rw [hall]
      rfl
    · intro k hk
      rcases List.mem_cons.mp hk with rfl | hk
      · exact ⟨hsound', by omega⟩
      · exact hsounds k hk
    · rw [List.map_cons, List.map_cons, hreported, hreporteds]
    · rw [List.map_cons, List.map_cons, hname, hinput, hnames]

theorem Sound.tick (h : s.Sound input names acc) (hbound : s.rps*(s.ticks+1)/kHz < 2^31) (now : ℤ) :
    ∃ s', s.tick now = .ok s' ∧ s'.Sound input names acc ∧ s'.rps = s.rps ∧ s'.ticks = s.ticks+1 := by
  have hticks := h.ticks
  have hkHz : kHz = 100 := rfl
  have hproduct : 0 ≤ s.rps*(s.ticks+1) := mul_nonneg h.rps (by omega)
  have hbefore : 0 ≤ s.sofar := by
    rw [h.sofar]
    exact Int.ediv_nonneg (mul_nonneg h.rps hticks) (by decide)
  have hrange : |s.rps*(s.ticks+1)| < 2^63 := by
    rw [abs_of_nonneg hproduct]
    rw [hkHz] at hbound
    omega
  have hdiv : (s.rps*(s.ticks+1)).tdiv kHz = s.rps*(s.ticks+1)/kHz := Int.tdiv_eq_ediv_of_nonneg hproduct
  have hsum : s.sofar+(s.rps*(s.ticks+1)/kHz-s.sofar) = s.rps*(s.ticks+1)/kHz := by omega
  have hmono : s.sofar ≤ s.rps*(s.ticks+1)/kHz := by
    rw [h.sofar]
    exact Int.ediv_le_ediv (by decide) (mul_le_mul_of_nonneg_left (by omega) h.rps)
  by_cases hsend : s.rps*(s.ticks+1)/kHz-s.sofar > 0
  · have hint : Int.bmod (s.rps*(s.ticks+1)/kHz-s.sofar) (2^32) = s.rps*(s.ticks+1)/kHz-s.sofar := by
      rw [Int.bmod]
      omega
    obtain ⟨clients,hall,hsounds,hreported,hnames⟩ := @sendAll_ok _ now s.sofar s.clients hsend (by omega) h.clients
    refine ⟨{ s with ticks := s.ticks+1, sofar := s.rps*(s.ticks+1)/kHz, clients := clients }, ?_, ?_, rfl, rfl⟩
    · rw [SudokuLoadTest.tick]
      dsimp only
      rw [if_pos hrange, hdiv, hsum, if_pos hsend, hint, hall]
      rfl
    · refine ⟨h.rps, by dsimp only; omega, rfl, ?_, hnames.trans h.names, ?_, h.no_shutdown, h.saved⟩
      · rw [hsum] at hsounds
        exact hsounds
      · rw [← h.reported]
        exact congrArg List.sum hreported
  · refine ⟨{ s with ticks := s.ticks+1, sofar := s.rps*(s.ticks+1)/kHz }, ?_, ?_, rfl, rfl⟩
    · rw [SudokuLoadTest.tick]
      dsimp only
      rw [if_pos hrange, hdiv, hsum, if_neg hsend]
      rfl
    · refine ⟨h.rps, by dsimp only; omega, rfl, ?_, h.names, h.reported, h.no_shutdown, h.saved⟩
      intro l hl
      obtain ⟨hsound,hcount⟩ := h.clients l hl
      exact ⟨hsound, hcount.trans hmono⟩

theorem reportAll_ok {ls : List Link} {latencies : List ℤ} {infly : ℕ}
    (hinfly : infly+(ls.map (·.client.sendTime.length)).sum < 2^31) : reportAll latencies infly ls =
      .ok (ls.map Link.drained, latencies ++ ls.flatMap (·.client.latencies),
        infly+(ls.map (·.client.sendTime.length)).sum) := by
  induction ls generalizing latencies infly with
  | nil =>
    rw [List.flatMap_nil, List.append_nil]
    rfl
  | cons l ls ih =>
    rw [List.map_cons, List.sum_cons, ← Nat.add_assoc] at hinfly
    rw [reportAll, SudokuClient.report, if_pos (by omega)]
    change Except.bind (reportAll _ _ ls) _ = _
    rw [ih hinfly, List.flatMap_cons, List.map_cons, List.map_cons, List.sum_cons, List.append_assoc, Nat.add_assoc]
    rfl

theorem sum_reported_drained (ls : List Link) : ((ls.map Link.drained).map Link.reported).sum =
    (ls.map Link.reported).sum+(ls.flatMap (·.client.latencies)).length := by
  induction ls with
  | nil => rfl
  | cons l ls ih =>
    rw [List.map_cons, List.map_cons, List.sum_cons, ih, Link.reported_drained, List.map_cons, List.sum_cons,
      List.flatMap_cons, List.length_append]
    omega

theorem sum_infly_le {c : ℤ} {ls : List Link} (h : ∀ l ∈ ls, l.Sound ∧ (l.client.count : ℤ) ≤ c) :
    (((ls.map (·.client.sendTime.length)).sum : ℕ) : ℤ) ≤ ls.length*c := by
  induction ls with
  | nil => simp
  | cons l ls ih =>
    obtain ⟨hsound,hcount⟩ := h l List.mem_cons_self
    have hinfly := hsound.infly_le
    have hrest := ih (fun k hk => h k (List.mem_cons_of_mem _ hk))
    rw [List.map_cons, List.sum_cons, List.length_cons, Nat.cast_succ, add_mul, one_mul]
    omega

/-- What `tock` does with the latencies of a second. -/
theorem percentile_ok {latencies : List ℤ} (infly : ℕ) (hsums : Percentile.SumsFit latencies.mergeSort)
    (hsavable : Percentile.Savable latencies) : ∃ p rows, Percentile.new latencies infly = .ok p ∧
      p.save true = .ok rows ∧ (latencies ≠ [] → Percentile.Histogram rows latencies) := by
  by_cases hne : latencies = []
  · rw [hne]
    exact ⟨_, [], Percentile.new_nil infly, rfl, fun h => absurd rfl h⟩
  · have hlen := hsavable.2
    obtain ⟨st,hnew,_⟩ := Percentile.new_ok infly hne (by omega) hsums
    have hsave := Percentile.save_mergeSort infly (some st) hne
    rw [if_pos hsavable] at hsave
    obtain ⟨rows,hsave,hrows⟩ := hsave
    exact ⟨_, rows, hnew, hsave, fun _ => hrows⟩

theorem Sound.tock (h : s.Sound input names acc) (hbound : names.length*s.sofar < 2^31) {opens : Bool}
    (hreport : s.Reportable (.tock opens)) : ∃ s' out,
    s.tock opens = .ok (s', out) ∧ s'.Sound input names (acc ++ out) ∧ s'.rps = s.rps ∧ s'.ticks = s.ticks := by
  obtain ⟨rfl,hfile,hsums,hsavable⟩ := hreport
  have hlength : s.clients.length = names.length := by
    have hlen := congrArg List.length h.names
    rwa [List.length_map, List.length_map] at hlen
  have hinfly := sum_infly_le h.clients
  rw [hlength] at hinfly
  have hsmall : 0+(s.clients.map (·.client.sendTime.length)).sum < 2^31 := by omega
  obtain ⟨p,rows,hnew,hsave,hrows⟩ :=
    percentile_ok (0+(s.clients.map (·.client.sendTime.length)).sum) hsums hsavable
  refine ⟨{ s with clients := s.clients.map Link.drained, count := s.count+1 },
    [.report (s.clients.flatMap (·.client.latencies)) (0+(s.clients.map (·.client.sendTime.length)).sum) p.report
      (snprintf 64 [] (ascii "r" ++ zeroPadded 4 s.count)) rows], ?_, ?_, rfl, rfl⟩
  · rw [SudokuLoadTest.tock, reportAll_ok hsmall, List.nil_append]
    change Except.bind (Percentile.new _ _) _ = _
    rw [hnew]
    change Except.bind (p.save true) _ = _
    rw [hsave]
    exact if_pos hfile
  · refine ⟨h.rps, h.ticks, h.sofar, ?_, ?_, ?_, ?_, ?_⟩
    · intro l hl
      obtain ⟨k,hk,rfl⟩ := List.mem_map.mp hl
      obtain ⟨hsound,hcount⟩ := h.clients k hk
      exact ⟨hsound.drained, hcount⟩
    · rw [← h.names]
      dsimp only
      rw [List.map_map]
      rfl
    · dsimp only
      rw [sum_reported_drained, h.reported, List.map_append, List.sum_append]
      simp [LoadObs.latencyCount]
    · intro hin
      rcases List.mem_append.mp hin with hin | hin
      · exact h.no_shutdown hin
      · cases List.mem_singleton.mp hin
    · intro latencies infly text name rows' hin hne
      rcases List.mem_append.mp hin with hin | hin
      · exact h.saved latencies infly text name rows' hin hne
      · obtain ⟨rfl,_,_,_,rfl⟩ := LoadObs.report.inj (List.mem_singleton.mp hin)
        exact hrows hne

/-- How many of the events are ticks. -/
def tickCount (es : List Event) : ℕ := es.countP (fun e => match e with | .tick _ => true | _ => false)

theorem Sound.step (h : s.Sound input names acc) (e : Event) (hbound : s.rps*(s.ticks+tickCount [e])/kHz < 2^31)
    (hall : names.length*(s.rps*(s.ticks+tickCount [e])/kHz) < 2^31) (hreport : s.Reportable e) :
    ∃ s' out, s.step e = .ok (s', out) ∧ s'.Sound input names (acc ++ out) ∧ s'.rps = s.rps ∧ s'.ticks = s.ticks+tickCount [e] := by
  have hother (hcount : tickCount [e] = 0) : s.ticks+tickCount [e] = s.ticks := by omega
  have hsmall (hcount : tickCount [e] = 0) {l : Link} (hl : l ∈ s.clients) : l.client.count < 2^31 := by
    have hle := (h.clients l hl).2
    rw [hother hcount, ← h.sofar] at hbound
    omega
  cases e with
  | connected i =>
    obtain ⟨s',hstep,hsound,hrps,hticks⟩ := @Sound.onLink s input names acc (fun l => .ok (l.connected, [])) h i
      (fun l hl => ⟨_, rfl, (h.clients l hl).1.connected⟩)
    exact ⟨s', [], hstep, (List.append_nil acc).symm ▸ hsound, hrps, hticks.trans (hother rfl).symm⟩
  | serve i k =>
    obtain ⟨s',hstep,hsound,hrps,hticks⟩ := @Sound.onLink s input names acc (·.serve k) h i
      (fun l hl => (h.clients l hl).1.serve (hsmall rfl hl) k)
    exact ⟨s', [], hstep, (List.append_nil acc).symm ▸ hsound, hrps, hticks.trans (hother rfl).symm⟩
  | receive i k recvTime =>
    obtain ⟨s',hstep,hsound,hrps,hticks⟩ := @Sound.onLink s input names acc (·.receive k recvTime) h i
      (fun l hl => (h.clients l hl).1.receive (hsmall rfl hl) k recvTime)
    exact ⟨s', [], hstep, (List.append_nil acc).symm ▸ hsound, hrps, hticks.trans (hother rfl).symm⟩
  | tick now =>
    obtain ⟨s',hstep,hsound,hrps,hticks⟩ := h.tick hbound now
    refine ⟨s', [], ?_, (List.append_nil acc).symm ▸ hsound, hrps, hticks⟩
    rw [SudokuLoadTest.step, hstep]
    rfl
  | tock opens =>
    rw [hother rfl, ← h.sofar] at hall
    obtain ⟨s',out,hstep,hsound,hrps,hticks⟩ := h.tock hall hreport
    exact ⟨s', out, hstep, hsound, hrps, hticks.trans (hother rfl).symm⟩

theorem Sound.run {es : List Event} (h : s.Sound input names acc) (hbound : s.rps*(s.ticks+tickCount es)/kHz < 2^31)
    (hall : names.length*(s.rps*(s.ticks+tickCount es)/kHz) < 2^31)
    (hreport : Runs.Along SudokuLoadTest.step Reportable s es) : ∃ s' out,
      Runs.run SudokuLoadTest.step s es = .ok (s', out) ∧ s'.Sound input names (acc ++ out) ∧ s'.rps = s.rps ∧
      s'.ticks = s.ticks+tickCount es := by
  induction es generalizing s acc with
  | nil => exact ⟨s, [], rfl, (List.append_nil acc).symm ▸ h, rfl, (Int.add_zero _).symm⟩
  | cons e es ih =>
    have hcount : tickCount (e :: es) = tickCount [e]+tickCount es := by
      rw [tickCount, ← List.singleton_append, List.countP_append]
      rfl
    have hsum : s.ticks+tickCount (e :: es) = s.ticks+tickCount [e]+tickCount es := by omega
    rw [hsum] at hbound hall
    have hmono : s.rps*(s.ticks+tickCount [e])/kHz ≤ s.rps*(s.ticks+tickCount [e]+tickCount es)/kHz :=
      Int.ediv_le_ediv (by decide) (mul_le_mul_of_nonneg_left (by omega) h.rps)
    obtain ⟨s1,out1,hstep,hsound,hrps,hticks⟩ := h.step e (hmono.trans_lt hbound)
      ((mul_le_mul_of_nonneg_left hmono (by omega)).trans_lt hall) hreport.1
    rw [← hrps, ← hticks] at hbound hall
    obtain ⟨s2,out2,hrun,hsound2,hrps2,hticks2⟩ := ih hsound hbound hall (hreport.2 s1 out1 hstep)
    refine ⟨s2, out1 ++ out2, Runs.run_cons_of_ok hstep hrun, ?_, hrps2.trans hrps, ?_⟩
    · rw [← List.append_assoc]
      exact hsound2
    · rw [hticks2, hticks, hsum]

theorem Sound.new {rps : ℤ} (hrps : 0 ≤ rps) (hnames : ∀ name ∈ names, LoadInput name input) :
    (SudokuLoadTest.new rps input names).Sound input names [] := by
  have hsofar : (0 : ℤ) = rps*0/kHz := by
    rw [mul_zero]
    rfl
  refine ⟨hrps, le_refl 0, hsofar, ?_, ?_, ?_, List.not_mem_nil, fun _ _ _ _ _ hin => (by cases hin)⟩
  · intro l hl
    obtain ⟨name,hname,rfl⟩ := List.mem_map.mp hl
    exact ⟨Link.Sound.new (hnames name hname), le_refl 0⟩
  · rw [SudokuLoadTest.new, List.map_map]
    rfl
  · rw [SudokuLoadTest.new, List.map_map]
    exact List.sum_eq_zero (fun x hx => by
      obtain ⟨name,_,rfl⟩ := List.mem_map.mp hx
      rfl)

/-- Where the bytes go by is up to the connections, the timers and the scheduler. No assertion fails, no number
overflows and no side ever shuts a connection down. Each request is sent once, and its answer, found by its number,
counts as one latency: reported, still to be reported, or in flight. The requests of a client do not run ahead of
`rps`; and where nothing is on the way, at most three of them are without an answer, all of them without a solution. -/
theorem requests_accounted (rps : ℤ) (input names : List Bytes) (es : List Event) (hrps : 0 ≤ rps)
    (hnames : ∀ name ∈ names, LoadInput name input) (hbound : rps*tickCount es/kHz < 2^31)
    (hall : names.length*(rps*tickCount es/kHz) < 2^31)
    (hreport : Runs.Along step Reportable (new rps input names) es) : ∃ s out,
      Runs.run step (new rps input names) es = .ok (s, out) ∧ LoadObs.shutdown ∉ out ∧
      (∀ latencies infly text name rows, .report latencies infly text name rows ∈ out → latencies ≠ [] →
        Percentile.Histogram rows latencies) ∧
      s.clients.map (·.client.name) = names ∧
      (s.clients.map (fun l => (l.client.count : ℤ))).sum = (out.map LoadObs.latencyCount).sum+
        (s.clients.map (fun l => (l.client.latencies.length+l.client.sendTime.length : ℤ))).sum ∧
      ∀ l ∈ s.clients, l.client.count ≤ rps*tickCount es/kHz ∧ (∃ answered, l.client.InFlight answered) ∧
        (l.up = [] → l.down = [] → l.client.sendTime.length ≤ 3 ∧
          ∀ e ∈ l.client.sendTime, ∃ i : ℕ, e.1 = i ∧ i < l.client.count ∧ Link.Unsolvable (puzzleAt input i)) := by
  have hzero : (0 : ℤ)+tickCount es = tickCount es := Int.zero_add _
  obtain ⟨s,out,hrun,hsound,hrps',hticks⟩ := @Sound.run (new rps input names) input names [] es
    (Sound.new hrps hnames) (hzero.symm ▸ hbound) (hzero.symm ▸ hall) hreport
  have hsofar := hsound.sofar
  rw [hrps', hticks] at hsofar
  change s.sofar = rps*(0+tickCount es)/kHz at hsofar
  rw [hzero] at hsofar
  refine ⟨s, out, hrun, hsound.no_shutdown, hsound.saved, ?_, ?_, ?_⟩
  · have hfirst := congrArg (List.map Prod.fst) hsound.names
    rw [List.map_map, List.map_map] at hfirst
    exact hfirst.trans (List.map_id names)
  · have htotal : (s.clients.map (fun l => (l.client.count : ℤ))).sum = (s.clients.map Link.reported).sum+
        (s.clients.map (fun l => (l.client.latencies.length+l.client.sendTime.length : ℤ))).sum := by
      rw [← List.sum_map_add]
      congr 2
      funext l
      exact (Int.sub_add_cancel _ _).symm
    rw [htotal, hsound.reported]
    rfl
  · intro l hl
    obtain ⟨hlink,hcount⟩ := hsound.clients l hl
    have hinput : l.client.input = input := by
      have hmem := List.mem_map_of_mem (f := fun l : Link => (l.client.name, l.client.input)) hl
      rw [hsound.names] at hmem
      obtain ⟨name,_,heq⟩ := List.mem_map.mp hmem
      exact (congrArg Prod.snd heq).symm
    obtain ⟨answered,_,p⟩ := hlink.progress
    rw [hsofar] at hcount
    refine ⟨hcount, ⟨answered, p.flight⟩, ?_⟩
    intro hup hdown
    rw [← hinput]
    exact hlink.quiet (by omega) hup hdown

set_option maxRecDepth 6000 in
/-- A tick at a rate of 100 requests, a report before any answer, and one piece of the request that was sent. -/
theorem requests_accounted_cut : ∃ s out,
    Runs.run step (new 100 [List.replicate 81 48] [ascii "c0001"])
      [.connected 0, .tick 1, .tock true, .serve 0 20] = .ok (s, out) ∧ LoadObs.shutdown ∉ out ∧
    (∀ latencies infly text name rows, .report latencies infly text name rows ∈ out → latencies ≠ [] →
      Percentile.Histogram rows latencies) ∧
    s.clients.map (·.client.name) = [ascii "c0001"] ∧
    (s.clients.map (fun l => (l.client.count : ℤ))).sum = (out.map LoadObs.latencyCount).sum+
      (s.clients.map (fun l => (l.client.latencies.length+l.client.sendTime.length : ℤ))).sum ∧
    ∀ l ∈ s.clients, l.client.count ≤ (100 : ℤ)*tickCount [.connected 0, .tick 1, .tock true, .serve 0 20]/kHz ∧
      (∃ answered, l.client.InFlight answered) ∧
      (l.up = [] → l.down = [] → l.client.sendTime.length ≤ 3 ∧
        ∀ e ∈ l.client.sendTime, ∃ i : ℕ, e.1 = i ∧ i < l.client.count ∧
          Link.Unsolvable (puzzleAt [List.replicate 81 48] i)) := by
  apply requests_accounted
  · decide
  · intro name hname
    obtain rfl := List.mem_singleton.mp hname
    refine ⟨by decide, List.all_iff_forall_prop.mp (by decide), by decide, ?_, ?_⟩
    · intro line hline
      obtain rfl := List.mem_singleton.mp hline
      decide +kernel
    · intro line hline b hb
      obtain rfl := List.mem_singleton.mp hline
      rw [List.eq_of_mem_replicate hb]
      decide
  · decide
  · decide
  · refine Runs.along_cons trivial rfl ?_
    refine Runs.along_cons trivial rfl ?_
    refine ⟨⟨rfl, by decide, ?_, ?_⟩, fun _ _ _ => ⟨trivial, fun _ _ _ => trivial⟩⟩
    · show Percentile.SumsFit (([] : List ℤ).mergeSort)
      rw [List.mergeSort_nil]
      exact fun k hk => absurd hk (Nat.not_lt_zero k)
    · show Percentile.Savable []
      decide

end SudokuLoadTest

end IdealServer
