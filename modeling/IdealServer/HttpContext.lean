import IdealServer.Buffer
import IdealServer.HttpRequest
import IdealServer.Runs

/-! `HttpContext`: the parser of requests, which takes whole lines from the front of a buffer. -/
namespace IdealServer

inductive HttpRequestParseState
  | kExpectRequestLine
  | kExpectHeaders
  | kExpectBody
  | kGotAll
deriving DecidableEq, Repr

structure HttpContext where
  state : HttpRequestParseState
  request : HttpRequest

namespace HttpContext

def new : HttpContext := ⟨.kExpectRequestLine, .new⟩

def gotAll (c : HttpContext) : Bool := c.state = .kGotAll

def reset (_ : HttpContext) : HttpContext := ⟨.kExpectRequestLine, .new⟩

/-- The path and, from the question mark on, the query. -/
def setTarget (r : HttpRequest) (target : Bytes) : HttpRequest :=
  let question := target.idxOf 63
  if question < target.length then (r.setPath (target.take question)).setQuery (target.drop question)
  else r.setPath target

/-- The eight characters behind the second space. -/
def processVersion (r : HttpRequest) (s : Bytes) : Bool × HttpRequest :=
  if s.length = 8 ∧ s.take 7 = ascii "HTTP/1." then
    if s.drop 7 = ascii "1" then (true, r.setVersion .kHttp11)
    else if s.drop 7 = ascii "0" then (true, r.setVersion .kHttp10)
    else (false, r)
  else (false, r)

/-- What follows the method. `std::find` returns the end, here the length, where it finds nothing. -/
def processTarget (r : HttpRequest) (start : Bytes) : Bool × HttpRequest :=
  let space := start.idxOf 32
  if space < start.length then processVersion (setTarget r (start.take space)) (start.drop (space+1))
  else (false, r)

def processRequestLine (c : HttpContext) (line : Bytes) : Except Fault (Bool × HttpContext) :=
  let space := line.idxOf 32
  if space < line.length then do
    let (ok, r) ← c.request.setMethod (line.take space)
    if ok then
      let (ok, r) := processTarget r (line.drop (space+1))
      return (ok, { c with request := r })
    else return (false, { c with request := r })
  else .ok (false, c)

/-- After a round of the loop: `hasMore` and `ok`. -/
structure Round where
  hasMore : Bool
  ok : Bool
  context : HttpContext
  buffer : Buffer

/-- Two of the states have no branch that ends the loop. -/
def parseRound (c : HttpContext) (buf : Buffer) (receiveTime : ℤ) : Except Fault Round :=
  match c.state with
  | .kExpectRequestLine =>
    match buf.findCRLF with
    | some crlf => do
      let (ok, c) ← c.processRequestLine (buf.readable.take crlf)
      if ok then
        let buf ← buf.retrieveUntil (crlf+2)
        return ⟨true, true, ⟨.kExpectHeaders, c.request.setReceiveTime receiveTime⟩, buf⟩
      else return ⟨false, false, c, buf⟩
    | none => .ok ⟨false, true, c, buf⟩
  | .kExpectHeaders =>
    match buf.findCRLF with
    | some crlf => do
      let line := buf.readable.take crlf
      let colon := line.idxOf 58
      if colon < line.length then
        let buf ← buf.retrieveUntil (crlf+2)
        return ⟨true, true, { c with request := c.request.addHeader line colon }, buf⟩
      else
        let buf ← buf.retrieveUntil (crlf+2)
        return ⟨false, true, { c with state := .kGotAll }, buf⟩
    | none => .ok ⟨false, true, c, buf⟩
  | .kExpectBody => .ok ⟨true, true, c, buf⟩
  | .kGotAll => .ok ⟨true, true, c, buf⟩

/-- The loop, if it ends within `n` rounds. -/
def parseRounds (receiveTime : ℤ) :
    ℕ → HttpContext → Buffer → Except Fault (Option (Bool × HttpContext × Buffer))
  | 0, _, _ => .ok none
  | n+1, c, buf => do
    let r ← c.parseRound buf receiveTime
    if r.hasMore then parseRounds receiveTime n r.context r.buffer
    else return some (r.ok, r.context, r.buffer)

/-- Each round takes two bytes or is the last one, so a loop that ends does so within these. -/
def parseRequest (c : HttpContext) (buf : Buffer) (receiveTime : ℤ) :
    Except Fault (Option (Bool × HttpContext × Buffer)) :=
  parseRounds receiveTime (buf.readableBytes+1) c buf

section Rounds
variable {c : HttpContext} {buf : Buffer} {t : ℤ}

/-- The loop waits or goes on. -/
def Parsing (c : HttpContext) : Prop := c.state = .kExpectRequestLine ∨ c.state = .kExpectHeaders

theorem findCRLF_bound {n : ℕ} (h : buf.findCRLF = some n) : n+2 ≤ buf.readableBytes := by
  have hlen := (Search.search_eq_some h).length_le
  rw [List.length_drop, Buffer.length_readable] at hlen
  simp only [kCRLF, List.length_cons, List.length_nil] at hlen
  omega

theorem parseRound_none (hc : c.Parsing) (h : buf.findCRLF = none) :
    c.parseRound buf t = .ok ⟨false, true, c, buf⟩ := by
  rcases hc with hc | hc <;> rw [parseRound, hc] <;> dsimp only <;> rw [h]

theorem parseRound_requestLine {n : ℕ} (hc : c.state = .kExpectRequestLine) (h : buf.findCRLF = some n)
    {c1 : HttpContext} (hline : c.processRequestLine (buf.readable.take n) = .ok (true, c1)) :
    ∃ buf', c.parseRound buf t =
        .ok ⟨true, true, ⟨.kExpectHeaders, c1.request.setReceiveTime t⟩, buf'⟩ ∧
      buf'.readable = buf.readable.drop (n+2) := by
  obtain ⟨buf',hbuf',hread⟩ := buf.retrieveUntil_ok (findCRLF_bound h)
  refine ⟨buf', ?_, hread⟩
  rw [parseRound, hc]
  dsimp only
  rw [h]
  dsimp only
  rw [hline]
  simp only [bind, Except.bind, if_true, hbuf', pure, Except.pure]

theorem parseRound_refused {n : ℕ} (hc : c.state = .kExpectRequestLine) (h : buf.findCRLF = some n)
    {c1 : HttpContext} (hline : c.processRequestLine (buf.readable.take n) = .ok (false, c1)) :
    c.parseRound buf t = .ok ⟨false, false, c1, buf⟩ := by
  rw [parseRound, hc]
  dsimp only
  rw [h]
  dsimp only
  rw [hline]
  rfl

theorem parseRound_fault {n : ℕ} (hc : c.state = .kExpectRequestLine) (h : buf.findCRLF = some n) {e : Fault}
    (hline : c.processRequestLine (buf.readable.take n) = .error e) :
    c.parseRound buf t = .error e := by
  rw [parseRound, hc]
  dsimp only
  rw [h]
  dsimp only
  rw [hline]
  rfl

/-- A line behind the request line is a header or, without a colon, ends the request. -/
theorem parseRound_header {n : ℕ} (hc : c.state = .kExpectHeaders) (h : buf.findCRLF = some n) :
    ∃ buf', c.parseRound buf t = .ok (if 58 ∈ buf.readable.take n then
        ⟨true, true, ⟨.kExpectHeaders, c.request.addHeader (buf.readable.take n)
          ((buf.readable.take n).idxOf 58)⟩, buf'⟩
        else ⟨false, true, ⟨.kGotAll, c.request⟩, buf'⟩) ∧
      buf'.readable = buf.readable.drop (n+2) := by
  obtain ⟨buf',hbuf',hread⟩ := buf.retrieveUntil_ok (findCRLF_bound h)
  refine ⟨buf', ?_, hread⟩
  rw [parseRound, hc]
  dsimp only
  rw [h]
  dsimp only
  by_cases hcolon : 58 ∈ buf.readable.take n
  · rw [if_pos (List.idxOf_lt_length_iff.mpr hcolon), if_pos hcolon, ← hc]
    simp only [bind, Except.bind, hbuf', pure, Except.pure]
  · rw [if_neg (fun hlt => hcolon (List.idxOf_lt_length_iff.mp hlt)), if_neg hcolon]
    simp only [bind, Except.bind, hbuf', pure, Except.pure]

/-- A round after which the loop goes on has taken a line. -/
theorem parseRound_more (hc : c.Parsing) {r : Round} (h : c.parseRound buf t = .ok r)
    (hmore : r.hasMore = true) : r.context.state = .kExpectHeaders ∧
      r.buffer.readableBytes+2 ≤ buf.readableBytes := by
  cases hcrlf : buf.findCRLF with
  | none =>
    rw [parseRound_none hc hcrlf] at h
    rw [← Except.ok.inj h] at hmore
    cases hmore
  | some n =>
    have hn := findCRLF_bound hcrlf
    have htaken {b : Buffer} (hb : b.readable = buf.readable.drop (n+2)) :
        b.readableBytes+2 ≤ buf.readableBytes := by
      have hlen := congrArg List.length hb
      rw [List.length_drop, Buffer.length_readable, Buffer.length_readable] at hlen
      omega
    rcases hc with hc | hc
    · cases hline : c.processRequestLine (buf.readable.take n) with
      | error e =>
        rw [parseRound_fault hc hcrlf hline] at h
        cases h
      | ok result =>
        obtain ⟨ok,c1⟩ := result
        cases ok with
        | true =>
          obtain ⟨buf',hround,hread⟩ := parseRound_requestLine (t := t) hc hcrlf hline
          rw [← Except.ok.inj (hround.symm.trans h)]
          exact ⟨rfl, htaken hread⟩
        | false =>
          rw [parseRound_refused hc hcrlf hline] at h
          rw [← Except.ok.inj h] at hmore
          cases hmore
    · obtain ⟨buf',hround,hread⟩ := parseRound_header (t := t) hc hcrlf
      rw [hround] at h
      split at h
      · rw [← Except.ok.inj h]
        exact ⟨rfl, htaken hread⟩
      · rw [← Except.ok.inj h] at hmore
        cases hmore

theorem parseRounds_succ_of_ok {n : ℕ} {r : Round} (h : c.parseRound buf t = .ok r) :
    parseRounds t (n+1) c buf =
      if r.hasMore then parseRounds t n r.context r.buffer else .ok (some (r.ok, r.context, r.buffer)) := by
  rw [parseRounds, h]
  rfl

theorem parseRounds_succ_of_error {n : ℕ} {e : Fault} (h : c.parseRound buf t = .error e) :
    parseRounds t (n+1) c buf = .error e := by
  rw [parseRounds, h]
  rfl

/-- A loop that has ended does not need more rounds. -/
theorem parseRounds_add {n k : ℕ} (h : parseRounds t n c buf ≠ .ok none) :
    parseRounds t (n+k) c buf = parseRounds t n c buf := by
  induction n generalizing c buf with
  | zero => exact absurd rfl h
  | succ n ih =>
    rw [Nat.add_right_comm]
    cases hround : c.parseRound buf t with
    | error e => rw [parseRounds_succ_of_error hround, parseRounds_succ_of_error hround]
    | ok r =>
      rw [parseRounds_succ_of_ok hround] at h
      rw [parseRounds_succ_of_ok hround, parseRounds_succ_of_ok hround]
      cases hmore : r.hasMore with
      | false => rfl
      | true =>
        rw [hmore, if_pos rfl] at h
        rw [if_pos rfl, if_pos rfl]
        exact ih h

/-- A parser that expects a line ends its loop. -/
theorem parseRounds_ends {n : ℕ} (hc : c.Parsing) (hn : buf.readableBytes < n) :
    parseRounds t n c buf ≠ .ok none := by
  induction n generalizing c buf with
  | zero => omega
  | succ n ih =>
    cases hround : c.parseRound buf t with
    | error e =>
      rw [parseRounds_succ_of_error hround]
      intro h
      cases h
    | ok r =>
      rw [parseRounds_succ_of_ok hround]
      cases hmore : r.hasMore with
      | false =>
        intro h
        cases h
      | true =>
        obtain ⟨hstate,htaken⟩ := parseRound_more hc hround hmore
        exact ih (Or.inr hstate) (by omega)

theorem parseRequest_eq {n : ℕ} (hc : c.Parsing) {r : Bool × HttpContext × Buffer}
    (h : parseRounds t n c buf = .ok (some r)) : c.parseRequest buf t = .ok (some r) := by
  have hends := parseRounds_ends (t := t) hc (Nat.lt_succ_self buf.readableBytes)
  have hn : parseRounds t n c buf ≠ .ok none := by
    rw [h]
    intro hnone
    cases hnone
  calc c.parseRequest buf t
      = parseRounds t (buf.readableBytes+1+n) c buf := (parseRounds_add hends).symm
    _ = parseRounds t (n+(buf.readableBytes+1)) c buf := by rw [Nat.add_comm]
    _ = .ok (some r) := by rw [parseRounds_add hn, h]

/-- A parser that has got all, or expects a body, stays in its loop. -/
theorem parseRounds_never (hc : ¬c.Parsing) (n : ℕ) : parseRounds t n c buf = .ok none := by
  have hround : c.parseRound buf t = .ok ⟨true, true, c, buf⟩ := by
    rw [parseRound]
    cases hstate : c.state with
    | kExpectRequestLine => exact absurd (Or.inl hstate) hc
    | kExpectHeaders => exact absurd (Or.inr hstate) hc
    | kExpectBody => rfl
    | kGotAll => rfl
  induction n with
  | zero => rfl
  | succ n ih =>
    rw [parseRounds_succ_of_ok hround, if_pos rfl]
    exact ih

/-- There is no result exactly if the loop does not end in any number of rounds. -/
theorem parseRequest_eq_none_iff : c.parseRequest buf t = .ok none ↔
    ∀ n, parseRounds t n c buf = .ok none := by
  constructor
  · intro h
    apply parseRounds_never
    intro hc
    exact parseRounds_ends hc (Nat.lt_succ_self _) h
  · intro h
    exact h _

end Rounds

end HttpContext

/-- A parser and the buffer of its connection. -/
structure HttpInput where
  context : HttpContext
  buffer : Buffer

/-- How a call can fail to return. -/
inductive HttpStop
  | fault (e : Fault)
  | diverges

namespace HttpInput

/-- What has come is appended, and `parseRequest` is called. -/
def parse (s : HttpInput) (read : Bytes × ℤ) : Except HttpStop (Bool × HttpInput) :=
  match s.buffer.append read.1 with
  | .error e => .error (.fault e)
  | .ok buf =>
    match s.context.parseRequest buf read.2 with
    | .error e => .error (.fault e)
    | .ok none => .error .diverges
    | .ok (some (ok, c, buf)) => .ok (ok, ⟨c, buf⟩)

/-- The calls one after the other, and what they return. -/
def receive (s : HttpInput) (read : Bytes × ℤ) : Except HttpStop (HttpInput × List Bool) :=
  (s.parse read).map (fun r => (r.2, [r.1]))

variable {s : HttpInput} {read : Bytes × ℤ} {buf : Buffer}

theorem parse_eq {r : Bool × HttpContext × Buffer} (happend : s.buffer.append read.1 = .ok buf)
    (h : s.context.parseRequest buf read.2 = .ok (some r)) : s.parse read = .ok (r.1, ⟨r.2.1, r.2.2⟩) := by
  rw [parse, happend]
  dsimp only
  rw [h]

theorem parse_error {e : Fault} (happend : s.buffer.append read.1 = .ok buf)
    (h : s.context.parseRequest buf read.2 = .error e) : s.parse read = .error (.fault e) := by
  rw [parse, happend]
  dsimp only
  rw [h]

theorem receive_eq {r : Bool × HttpContext × Buffer} (happend : s.buffer.append read.1 = .ok buf)
    (h : s.context.parseRequest buf read.2 = .ok (some r)) :
    s.receive read = .ok (⟨r.2.1, r.2.2⟩, [r.1]) := by
  rw [receive, parse_eq happend h]
  rfl

end HttpInput

end IdealServer
