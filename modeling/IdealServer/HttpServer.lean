import IdealServer.HttpLines
import IdealServer.RtspMessage
import IdealServer.Runs

/-! `HttpServer`: what a read on a connection does. After a request line that is refused the parser stays as
it is, with the line in the buffer, and the next read meets both. -/
namespace IdealServer
open Search

inductive HttpStatusCode
  | kUnknown
  | k200Ok
  | k301MovedPermanently
  | k400BadRequest
  | k404NotFound
deriving DecidableEq, Repr

def HttpStatusCode.toNat : HttpStatusCode → ℕ
  | .kUnknown => 0
  | .k200Ok => 200
  | .k301MovedPermanently => 301
  | .k400BadRequest => 400
  | .k404NotFound => 404

structure HttpResponse where
  headers : HeaderMap
  statusCode : HttpStatusCode
  statusMessage : Bytes
  closeConnection : Bool
  body : Bytes

namespace HttpResponse

def new (close : Bool) : HttpResponse := ⟨.empty, .kUnknown, [], close, []⟩

def setStatusCode (r : HttpResponse) (code : HttpStatusCode) : HttpResponse := { r with statusCode := code }
def setStatusMessage (r : HttpResponse) (message : Bytes) : HttpResponse := { r with statusMessage := message }
def setCloseConnection (r : HttpResponse) (on : Bool) : HttpResponse := { r with closeConnection := on }
def addHeader (r : HttpResponse) (key value : Bytes) : HttpResponse :=
  { r with headers := r.headers.assign key value }
def setContentType (r : HttpResponse) (contentType : Bytes) : HttpResponse :=
  r.addHeader (ascii "Content-Type") contentType
def setBody (r : HttpResponse) (body : Bytes) : HttpResponse := { r with body := body }

/-- What `appendToBuffer` appends. -/
def appendToBuffer (r : HttpResponse) : Bytes :=
  snprintf 32 [] (ascii "HTTP/1.1 " ++ Numeral.decimal r.statusCode.toNat ++ ascii " ") ++
    r.statusMessage ++ kCRLF ++
    (if r.closeConnection then ascii "Connection: close\r\n"
      else snprintf 32 [] (ascii "Content-Length: " ++ Numeral.decimal r.body.length ++ kCRLF) ++
        ascii "Connection: kepp-Alive\r\n") ++
    r.headers.toList.flatMap (fun header => header.1 ++ ascii ": " ++ header.2 ++ kCRLF) ++ kCRLF ++ r.body

end HttpResponse

namespace HttpServer

abbrev HttpCallback := HttpRequest → HttpResponse → HttpResponse

def defaultHttpCallback : HttpCallback := fun _ resp =>
  ((resp.setStatusCode .k404NotFound).setStatusMessage (ascii "Not Found")).setCloseConnection true

def onRequest (httpCallback : HttpCallback) (req : HttpRequest) : List ConnAction :=
  let connection := req.getHeader (ascii "Connection")
  let close := connection = ascii "close" ∨ req.version = .kHttp10 ∧ connection ≠ ascii "Keep-Alive"
  let response := httpCallback req (.new close)
  .send response.appendToBuffer :: if response.closeConnection then [.shutdown] else []

/-- What `onMessage` does once `parseRequest` has returned. A refused request line is answered and stays. -/
def afterParse (httpCallback : HttpCallback) (ok : Bool) (conn : HttpInput) : HttpInput × List ConnAction :=
  let answer := if ok then [] else [.send (ascii "HTTP/1.1 400 Bad Request\r\n\r\n"), .shutdown]
  if conn.context.gotAll then
    (⟨conn.context.reset, conn.buffer⟩, answer ++ onRequest httpCallback conn.context.request)
  else (conn, answer)

/-- The context and the buffer are those of the connection. -/
def onMessage (httpCallback : HttpCallback) (conn : HttpInput) (read : Bytes × ℤ) :
    Except HttpStop (HttpInput × List ConnAction) :=
  (conn.parse read).map (fun r => afterParse httpCallback r.1 r.2)

end HttpServer

namespace HttpContext
variable {c : HttpContext} {buf : Buffer} {t : ℤ}

/-- The request line is behind the parser. -/
def PastRequestLine (c : HttpContext) : Prop := c.state = .kExpectHeaders ∨ c.state = .kGotAll

theorem parseRounds_headers (hc : c.state = .kExpectHeaders) (n : ℕ) : parseRounds t n c buf = .ok none ∨
    ∃ c' buf', parseRounds t n c buf = .ok (some (true, c', buf')) ∧ c'.PastRequestLine := by
  induction n generalizing c buf with
  | zero => exact Or.inl rfl
  | succ n ih =>
    cases hcrlf : buf.findCRLF with
    | none =>
      right
      refine ⟨c, buf, ?_, Or.inl hc⟩
      rw [parseRounds_succ_of_ok (parseRound_none (Or.inr hc) hcrlf)]
      rfl
    | some k =>
      obtain ⟨buf',hround,_⟩ := parseRound_header (t := t) hc hcrlf
      rw [parseRounds_succ_of_ok hround]
      split
      case isTrue => exact ih rfl
      case isFalse => exact Or.inr ⟨_, buf', rfl, Or.inr rfl⟩

theorem parseRequest_headers (buf : Buffer) (hc : c.state = .kExpectHeaders) :
    ∃ c' buf', c.parseRequest buf t = .ok (some (true, c', buf')) ∧ c'.PastRequestLine := by
  rcases parseRounds_headers (t := t) hc (buf.readableBytes+1) with hnone | hsome
  · exact absurd hnone (parseRounds_ends (Or.inr hc) (Nat.lt_succ_self _))
  · exact hsome

/-- No line has come yet. -/
theorem parseRequest_none (hc : c.Parsing) (h : buf.findCRLF = none) :
    c.parseRequest buf t = .ok (some (true, c, buf)) := by
  apply parseRequest_eq (n := 1) hc
  rw [parseRounds_succ_of_ok (parseRound_none hc h)]
  rfl

section RequestLine
variable {n : ℕ} (hc : c.state = .kExpectRequestLine) (h : buf.findCRLF = some n)
include hc h

theorem parseRequest_text (hm : c.request.method = .kInvalid) {l : RequestLine}
    (hl : buf.readable.take n = l.text) :
    ∃ c' buf', c.parseRequest buf t = .ok (some (true, c', buf')) ∧ c'.PastRequestLine := by
  have hline := processRequestLine_text hm l
  rw [← hl] at hline
  obtain ⟨buf1,hround,_⟩ := parseRound_requestLine (t := t) hc h hline
  obtain ⟨c',buf',hrest,hpast⟩ := parseRequest_headers (c := ⟨.kExpectHeaders, _⟩) (t := t) buf1 rfl
  refine ⟨c', buf', ?_, hpast⟩
  apply parseRequest_eq (Or.inl hc)
  rw [parseRounds_succ_of_ok hround, if_pos rfl]
  exact hrest

/-- Nothing but the request changes. -/
theorem parseRequest_refused (hm : c.request.method = .kInvalid)
    (hno : ∀ l : RequestLine, buf.readable.take n ≠ l.text) : ∃ r,
      c.parseRequest buf t = .ok (some (false, { c with request := r }, buf)) ∧
        r.method = lineMethod (buf.readable.take n) := by
  rcases processRequestLine_cases hm (buf.readable.take n) with ⟨l,hl,_⟩ | ⟨_,r,hrefused,hmethod⟩
  · exact absurd hl (hno l)
  refine ⟨r, ?_, hmethod⟩
  apply parseRequest_eq (n := 1) (Or.inl hc)
  rw [parseRounds_succ_of_ok (parseRound_refused hc h hrefused)]
  rfl

/-- The assertion in `setMethod`. -/
theorem parseRequest_assertFailed (hm : c.request.method ≠ .kInvalid) (hspace : 32 ∈ buf.readable.take n) :
    c.parseRequest buf t = .error .assertFailed := by
  have hline : c.processRequestLine (buf.readable.take n) = .error .assertFailed := by
    rw [processRequestLine]
    dsimp only
    rw [if_pos (List.idxOf_lt_length_iff.mpr hspace), HttpRequest.setMethod, if_neg hm]
    rfl
  exact parseRounds_succ_of_error (parseRound_fault hc h hline)

end RequestLine

end HttpContext

namespace HttpServer
variable {httpCallback : HttpCallback} {conn : HttpInput} {read : Bytes × ℤ}

/-- A new connection. -/
def newConnection : HttpInput := ⟨.new, .new⟩

/-- No method has been set yet, or the request line is behind the parser. -/
def Fresh (conn : HttpInput) : Prop :=
  (conn.context.state = .kExpectRequestLine ∧ conn.context.request.method = .kInvalid) ∨
    conn.context.state = .kExpectHeaders

theorem fresh_new : Fresh newConnection := Or.inl ⟨rfl, rfl⟩

/-- A method has been set, and there is a line to set it again from. -/
def Stuck (conn : HttpInput) : Prop :=
  conn.context.state = .kExpectRequestLine ∧ conn.context.request.method ≠ .kInvalid ∧
    ∃ n, conn.buffer.findCRLF = some n ∧ 32 ∈ conn.buffer.readable.take n

/-- With the read the line is complete from which a request line is expected. Its first word is one of the
methods, but it is not a request line. -/
def KeepsMethod (conn : HttpInput) (read : Bytes × ℤ) : Prop :=
  conn.context.state = .kExpectRequestLine ∧ ∃ n, search kCRLF (conn.buffer.readable ++ read.1) = some n ∧
    lineMethod ((conn.buffer.readable ++ read.1).take n) ≠ .kInvalid ∧
    ∀ l : RequestLine, (conn.buffer.readable ++ read.1).take n ≠ l.text

theorem mem_of_lineMethod {line : Bytes} (h : lineMethod line ≠ .kInvalid) : 32 ∈ line := by
  unfold lineMethod at h
  split at h
  case isTrue hspace => exact List.idxOf_lt_length_iff.mp hspace
  case isFalse => exact absurd rfl h

theorem onMessage_eq {ok : Bool} {conn1 : HttpInput} (h : conn.parse read = .ok (ok, conn1)) :
    onMessage httpCallback conn read = .ok (afterParse httpCallback ok conn1) := by
  rw [onMessage, h]
  rfl

/-- Behind the request line there is no other one before the parser is reset. -/
theorem afterParse_past {ok : Bool} (h : conn.context.PastRequestLine) :
    Fresh (afterParse httpCallback ok conn).1 := by
  unfold afterParse
  rcases h with hheaders | hgot
  · have hno : ¬ conn.context.gotAll = true := by
      rw [HttpContext.gotAll, hheaders]
      decide
    rw [if_neg hno]
    exact Or.inr hheaders
  · have hall : conn.context.gotAll = true := decide_eq_true hgot
    rw [if_pos hall]
    exact Or.inl ⟨rfl, rfl⟩

/-- A parser that waits for the request line goes on waiting. -/
theorem afterParse_waits {ok : Bool} (h : conn.context.state = .kExpectRequestLine) :
    (afterParse httpCallback ok conn).1 = conn := by
  have hno : ¬ conn.context.gotAll = true := by
    rw [HttpContext.gotAll, h]
    decide
  unfold afterParse
  rw [if_neg hno]

theorem keepsMethod_iff {n : ℕ} (hstate : conn.context.state = .kExpectRequestLine)
    (hcrlf : search kCRLF (conn.buffer.readable ++ read.1) = some n) : KeepsMethod conn read ↔
      lineMethod ((conn.buffer.readable ++ read.1).take n) ≠ .kInvalid ∧
        ∀ l : RequestLine, (conn.buffer.readable ++ read.1).take n ≠ l.text := by
  constructor
  · rintro ⟨_,m,hm,hkeeps⟩
    obtain rfl := Option.some.inj (hcrlf.symm.trans hm)
    exact hkeeps
  · intro hkeeps
    exact ⟨hstate, n, hcrlf, hkeeps⟩

/-- What `parseRequest` leaves where no method has been set before the request line. -/
theorem parse_fresh (read : Bytes × ℤ) (h : Fresh conn) : ∃ ok conn1, conn.parse read = .ok (ok, conn1) ∧
    ((¬ KeepsMethod conn read ∧ (conn1.context.PastRequestLine ∨
        conn1.context.state = .kExpectRequestLine ∧ conn1.context.request.method = .kInvalid)) ∨
      (KeepsMethod conn read ∧ Stuck conn1)) := by
  obtain ⟨buf,happend,hread⟩ := conn.buffer.append_ok read.1
  rcases h with ⟨hstate,hmethod⟩ | hstate
  · cases hcrlf : buf.findCRLF with
    | none =>
      have hno : ¬ KeepsMethod conn read := by
        rintro ⟨_,n,hn,_⟩
        rw [← hread] at hn
        cases hcrlf.symm.trans hn
      have hparse := HttpContext.parseRequest_none (t := read.2) (Or.inl hstate) hcrlf
      exact ⟨_, _, HttpInput.parse_eq happend hparse, Or.inl ⟨hno, Or.inr ⟨hstate, hmethod⟩⟩⟩
    | some n =>
      have hfirst : search kCRLF (conn.buffer.readable ++ read.1) = some n := by
        rw [← hread]
        exact hcrlf
      have hiff := keepsMethod_iff hstate hfirst
      rw [← hread] at hiff
      by_cases hline : ∃ l : RequestLine, buf.readable.take n = l.text
      · obtain ⟨l,hl⟩ := hline
        have hno : ¬ KeepsMethod conn read := fun hkeeps => (hiff.mp hkeeps).2 l hl
        obtain ⟨c,buf',hparse,hpast⟩ := HttpContext.parseRequest_text (t := read.2) hstate hcrlf hmethod hl
        exact ⟨_, _, HttpInput.parse_eq happend hparse, Or.inl ⟨hno, Or.inl hpast⟩⟩
      · have hnotext : ∀ l : RequestLine, buf.readable.take n ≠ l.text := fun l hl => hline ⟨l, hl⟩
        obtain ⟨r,hparse,hr⟩ := HttpContext.parseRequest_refused (t := read.2) hstate hcrlf hmethod hnotext
        refine ⟨_, _, HttpInput.parse_eq happend hparse, ?_⟩
        by_cases hset : lineMethod (buf.readable.take n) = .kInvalid
        · exact Or.inl ⟨fun hkeeps => (hiff.mp hkeeps).1 hset, Or.inr ⟨hstate, hr.trans hset⟩⟩
        · have hkept : r.method ≠ .kInvalid := fun hinvalid => hset (hr.symm.trans hinvalid)
          exact Or.inr ⟨hiff.mpr ⟨hset, hnotext⟩, hstate, hkept, n, hcrlf, mem_of_lineMethod hset⟩
  · have hno : ¬ KeepsMethod conn read := by
      rintro ⟨hexpect,_⟩
      cases hstate.symm.trans hexpect
    obtain ⟨c,buf',hparse,hpast⟩ := HttpContext.parseRequest_headers (t := read.2) buf hstate
    exact ⟨_, _, HttpInput.parse_eq happend hparse, Or.inl ⟨hno, Or.inl hpast⟩⟩

theorem onMessage_fresh (httpCallback : HttpCallback) (read : Bytes × ℤ) (h : Fresh conn) :
    ∃ conn' out, onMessage httpCallback conn read = .ok (conn', out) ∧
      (¬ KeepsMethod conn read → Fresh conn') ∧ (KeepsMethod conn read → Stuck conn') := by
  obtain ⟨ok,conn1,hparse,hcases⟩ := parse_fresh read h
  refine ⟨(afterParse httpCallback ok conn1).1, _, onMessage_eq hparse, ?_⟩
  rcases hcases with ⟨hno,hnext⟩ | ⟨hkeeps,hstuck⟩
  · refine ⟨fun _ => ?_, fun hkeeps => absurd hkeeps hno⟩
    rcases hnext with hpast | ⟨hstate,hmethod⟩
    · exact afterParse_past hpast
    · rw [afterParse_waits hstate]
      exact Or.inl ⟨hstate, hmethod⟩
  · refine ⟨fun hno => absurd hkeeps hno, fun _ => ?_⟩
    rw [afterParse_waits hstuck.1]
    exact hstuck

/-- The line is still the first one after the next read. -/
theorem onMessage_stuck (h : Stuck conn) : onMessage httpCallback conn read = .error (.fault .assertFailed) := by
  obtain ⟨hstate,hmethod,n,hcrlf,hspace⟩ := h
  obtain ⟨buf,happend,hread⟩ := conn.buffer.append_ok read.1
  have hn : n ≤ conn.buffer.readable.length := by
    rw [Buffer.length_readable]
    exact Nat.le_of_add_right_le (HttpContext.findCRLF_bound hcrlf)
  have hcrlf' : buf.findCRLF = some n := by
    rw [Buffer.findCRLF, hread]
    exact search_append_some hcrlf
  have hspace' : 32 ∈ buf.readable.take n := by
    rw [hread, List.take_append_of_le_length hn]
    exact hspace
  have hfault := HttpContext.parseRequest_assertFailed (t := read.2) hstate hcrlf' hmethod hspace'
  rw [onMessage, HttpInput.parse_error happend hfault]
  rfl

/-- On a connection the assertion in `setMethod` holds, and every `parseRequest` returns, exactly if no read
follows one that leaves the parser with a method and no request line. -/
theorem onMessage_safe_iff (httpCallback : HttpCallback) (reads : List (Bytes × ℤ)) :
    (Runs.run (onMessage httpCallback) newConnection reads ≠ .error (.fault .assertFailed) ∧
        Runs.run (onMessage httpCallback) newConnection reads ≠ .error .diverges) ↔
      Runs.Along (onMessage httpCallback) (fun conn read => ¬ KeepsMethod conn read) newConnection
        reads.dropLast := by
  rcases Runs.run_dropLast Fresh Stuck (fun _ read => onMessage_fresh httpCallback read)
    (fun _ _ => onMessage_stuck) reads fresh_new with ⟨halong,conn,out,hrun⟩ | ⟨hno,hrun⟩
  · refine ⟨fun _ => halong, fun _ => ?_⟩
    rw [hrun]
    constructor <;> exact fun h => by cases h
  · exact ⟨fun h => absurd hrun h.1, fun h => absurd h hno⟩

/-- A request line with a wrong version, and anything behind it. -/
theorem onMessage_fails : Runs.run (onMessage defaultHttpCallback) newConnection
    [(ascii "GET / X\r\n", 1), (ascii "\r\n", 2)] = .error (.fault .assertFailed) := by
  have hrefused : ∃ c, HttpContext.new.processRequestLine (ascii "GET / X") = .ok (false, c) := ⟨_, rfl⟩
  have hkeeps : KeepsMethod newConnection (ascii "GET / X\r\n", 1) := by
    refine ⟨rfl, 7, by decide, by decide, ?_⟩
    intro l hl
    obtain ⟨c,hc⟩ := hrefused
    have htext := processRequestLine_text (c := .new) rfl l
    have hline : l.text = ascii "GET / X" := hl.symm
    rw [hline, hc] at htext
    cases htext
  obtain ⟨conn,out,hout,_,hstuck⟩ :=
    onMessage_fresh defaultHttpCallback (ascii "GET / X\r\n", 1) fresh_new
  exact Runs.run_cons_error_of_ok hout (Runs.run_cons_of_error (onMessage_stuck (hstuck hkeeps)))

end HttpServer

end IdealServer
