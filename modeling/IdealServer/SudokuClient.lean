import IdealServer.ClockText
import IdealServer.RtspMessage
import IdealServer.SudokuServer

/-! `SudokuClient` of the load test: requests with numbers, and the answers that come back for them. -/
namespace IdealServer
open Lines Search

/-- `atoi`: the long number that `strtol` reads, as an `int`. -/
def atoi (s : Bytes) : ℤ :=
  let signed := Scanf.sign ((Scanf.cString s).dropWhile Scanf.isSpace)
  let n : ℤ := decimalDigits.read (signed.2.takeWhile Numeral.isDigit)
  Int.bmod (max (-2^63) (min (2^63-1) (if signed.1 then -n else n))) (2^32)

structure SudokuClient where
  name : Bytes
  input : List Bytes
  /-- Whether there is a `_conn`. -/
  connected : Bool
  requests : Buffer
  count : ℕ
  sendTime : List (ℤ × ℤ)
  latencies : List ℤ
  /-- The input buffer of the connection. -/
  buffer : Buffer

namespace SudokuClient
open SudokuServer (Stop)

def new (name : Bytes) (input : List Bytes) : SudokuClient := ⟨name, input, false, .new, 0, [], [], .new⟩

/-- What `"%s-%08d:%s\r\n"` prints. -/
def requestText (name req : Bytes) (count : ℕ) : Bytes :=
  Scanf.cString name ++ (ascii "-" ++ (zeroPadded 8 count ++ (ascii ":" ++ (Scanf.cString req ++ kCRLF))))

/-- The loop of `send`. The remainder of a division by zero is undefined. -/
def sendLoop (now : ℤ) : ℕ → SudokuClient → Except Stop SudokuClient
  | 0, s => .ok s
  | n+1, s =>
    match s.input[s.count%s.input.length]? with
    | none => .error (.fault .outOfBounds)
    | some req => do
      let text := requestText s.name req s.count
      -- the length that `snprintf` returns is that of the text, whatever fits into the array
      let buf := (snprintf 256 [] text ++ List.replicate 256 0).take 256
      let requests ← ((readBytes buf 0 text.length).bind s.requests.append).mapError .fault
      let sendTime := s.sendTime.filter (fun e => decide (e.1 ≠ (s.count : ℤ))) ++ [((s.count : ℤ), now)]
      if s.count+1 < 2^31 then
        sendLoop now n { s with requests := requests, sendTime := sendTime, count := s.count+1 }
      else .error .overflow

/-- The client after `send`, and what its connection takes. -/
def send (s : SudokuClient) (n now : ℤ) : Except Stop (SudokuClient × Bytes) :=
  if n ≤ 0 then .error (.fault .assertFailed)
  else if s.connected then do
    let s ← sendLoop now n.toNat s
    return ({ s with requests := s.requests.retrieveAll }, s.requests.readable)
  else return (s, [])

def verify (s : SudokuClient) (response : Bytes) (recvTime : ℤ) : SudokuClient × Bool :=
  let colon := response.idxOf 58
  let dash := response.idxOf 45
  if colon < response.length ∧ dash < response.length ∧ dash < colon then
    let id := atoi (response.drop (dash+1))
    match s.sendTime.find? (fun e => decide (e.1 = id)) with
    | some sent =>
      ({ s with
        latencies := s.latencies ++ [Int.bmod (recvTime-sent.2) (2^32)]
        sendTime := s.sendTime.filter (fun e => decide (e.1 ≠ id)) }, true)
    | none => (s, true)
  else (s, true)

/-- The loop of `onMessage`, if it ends within so many rounds, and whether it shuts the connection down. -/
def handle (recvTime : ℤ) : ℕ → SudokuClient → Except Stop (SudokuClient × Bool)
  | 0, _ => .error .diverges
  | n+1, s =>
    if s.buffer.readableBytes ≥ kCells+2 then
      match s.buffer.findCRLF with
      | some crlf => do
        let response := s.buffer.readable.take crlf
        let buffer ← (s.buffer.retrieveUntil (crlf+2)).mapError .fault
        let (s, good) := { s with buffer := buffer }.verify response recvTime
        if good then handle recvTime n s else return (s, true)
      | none => return (s, decide (s.buffer.readableBytes > 100))
    else return (s, false)

def onMessage (s : SudokuClient) (read : Bytes) (recvTime : ℤ) : Except Stop (SudokuClient × Bool) := do
  let buffer ← (s.buffer.append read).mapError .fault
  handle recvTime (buffer.readableBytes+1) { s with buffer := buffer }

/-- The client adds to the latencies and to the number of requests without an answer. -/
def report (s : SudokuClient) (latency : List ℤ) (infly : ℕ) : Except Stop (SudokuClient × List ℤ × ℕ) :=
  if infly+s.sendTime.length < 2^31 then
    .ok ({ s with latencies := [] }, latency ++ s.latencies, infly+s.sendTime.length)
  else .error .overflow

end SudokuClient

theorem isDigit_padded (w n : ℕ) : ∀ c ∈ decimalDigits.padded w n, Numeral.isDigit c = true := by
  have hsymbol : ∀ d < decimalDigits.base, Numeral.isDigit (decimalDigits.symbol d) = true := by decide
  intro c hc
  rcases List.mem_append.mp hc with hc | hc
  · rw [List.eq_of_mem_replicate hc]
    exact hsymbol 0 (by decide)
  · obtain ⟨d,hd,rfl⟩ := (decimalDigits.numeral_canonical n).digits c hc
    exact hsymbol d hd

theorem padded_ne_nil (w n : ℕ) : decimalDigits.padded w n ≠ [] :=
  List.append_ne_nil_of_right_ne_nil _ (decimalDigits.numeral_canonical n).ne_nil

/-- The number of a request is read back. -/
theorem atoi_padded {n : ℕ} (hn : n < 2^31) (rest : Bytes) (hrest : ∀ b ∈ rest.head?, b = 58) :
    atoi (zeroPadded 8 n ++ rest) = n := by
  have htext : zeroPadded 8 n = decimalDigits.padded 8 n := by
    rw [zeroPadded, if_neg (by omega)]
    rfl
  have hdigits := isDigit_padded 8 n
  obtain ⟨c,cs,hc⟩ := List.exists_cons_of_ne_nil (padded_ne_nil 8 n)
  have hfirst : Numeral.isDigit c = true := hdigits c (by rw [hc]; exact List.mem_cons_self)
  have hnul : ∀ b ∈ decimalDigits.padded 8 n, b ≠ 0 := by
    intro b hb h0
    have hdigit := hdigits b hb
    rw [h0] at hdigit
    exact absurd hdigit (by decide)
  have hread := decimalDigits.read_padded 8 n
  have hcut : Scanf.cString (decimalDigits.padded 8 n ++ rest) =
      decimalDigits.padded 8 n ++ Scanf.cString rest := Scanf.cString_append hnul
  have hbehind : ∀ b ∈ (Scanf.cString rest).head?, Numeral.isDigit b = false := by
    cases rest with
    | nil => exact fun b hb => by cases hb
    | cons d ds =>
      have hd : d = 58 := hrest d rfl
      rw [hd]
      intro b hb
      have hb : b = 58 := (Option.some.inj hb).symm
      rw [hb]
      rfl
  have htake : (decimalDigits.padded 8 n ++ Scanf.cString rest).takeWhile Numeral.isDigit = decimalDigits.padded 8 n :=
    (Numeral.takeWhile_exact hdigits hbehind).1
  have hspace : (decimalDigits.padded 8 n ++ Scanf.cString rest).dropWhile Scanf.isSpace =
      decimalDigits.padded 8 n ++ Scanf.cString rest := by
    rw [hc, List.cons_append, List.dropWhile_cons_of_neg]
    rw [Scanf.isDigit_not_space hfirst]
    exact Bool.false_ne_true
  have hsign : Scanf.sign (decimalDigits.padded 8 n ++ Scanf.cString rest) =
      (false, decimalDigits.padded 8 n ++ Scanf.cString rest) := by
    rw [hc]
    exact Scanf.sign_of_digit _ hfirst
  rw [atoi, htext, hcut, hspace, hsign]
  dsimp only
  rw [htake, hread, if_neg Bool.false_ne_true]
  rw [show max (-2^63) (min (2^63-1) (n : ℤ)) = (n : ℤ) by omega]
  rw [Int.bmod]
  omega

/-- The name of a request, in front of the colon. -/
def idText (name : Bytes) (i : ℕ) : Bytes := name ++ (ascii "-" ++ zeroPadded 8 i)

def puzzleAt (input : List Bytes) (i : ℕ) : Bytes := input.getD (i%input.length) []

/-- The lines that go to the server and come from it, without their ends. -/
def requestLine (name : Bytes) (input : List Bytes) (i : ℕ) : Bytes := idText name i ++ 58 :: puzzleAt input i
def responseLine (name : Bytes) (i : ℕ) (answer : Bytes) : Bytes := idText name i ++ 58 :: answer

/-- A name as the load test gives it to its clients, and the lines that it takes from its file. -/
structure LoadInput (name : Bytes) (input : List Bytes) : Prop where
  name_short : name.length < 7
  name_plain : ∀ b ∈ name, b ≠ 0 ∧ b ≠ 10 ∧ b ≠ 45 ∧ b ≠ 58
  input_ne_nil : input ≠ []
  input_length : ∀ l ∈ input, l.length = kCells
  input_plain : ∀ l ∈ input, ∀ b ∈ l, b ≠ 0 ∧ b ≠ 10

section Lines
variable {name : Bytes} {input : List Bytes} {i : ℕ}

theorem not_infix_of_plain {l : Bytes} (h : ∀ b ∈ l, b ≠ 10) : ¬ kCRLF <:+: l := by
  intro hin
  exact h 10 (hin.subset (by decide)) rfl

theorem zeroPadded_plain (n : ℕ) : ∀ b ∈ zeroPadded 8 n, b ≠ 0 ∧ b ≠ 10 ∧ b ≠ 45 ∧ b ≠ 58 := by
  have htext : zeroPadded 8 n = decimalDigits.padded 8 n := by
    rw [zeroPadded, if_neg (by omega)]
    rfl
  intro b hb
  rw [htext] at hb
  have hdigit := isDigit_padded 8 n b hb
  refine ⟨?_, ?_, ?_, ?_⟩
  all_goals
    rintro rfl
    exact absurd hdigit (by decide)

theorem length_zeroPadded {n : ℕ} (hn : n < 2^31) : (zeroPadded 8 n).length ≤ 10 := by
  have hlen := decimalDigits.length_numeral_le (n := n) (k := 10) (by decide) (Nat.lt_trans hn (by decide))
  rw [zeroPadded, if_neg (by omega), Int.natAbs_natCast, Radix.Alphabet.padded, List.length_append,
    List.length_replicate]
  omega

theorem puzzleAt_mem (h : input ≠ []) (i : ℕ) : input[i%input.length]? = some (puzzleAt input i) ∧
    puzzleAt input i ∈ input := by
  have hlt : i%input.length < input.length := Nat.mod_lt _ (List.length_pos_iff.mpr h)
  rw [puzzleAt, List.getD_eq_getElem _ _ hlt, List.getElem?_eq_getElem hlt]
  exact ⟨rfl, List.getElem_mem hlt⟩

namespace LoadInput
variable (h : LoadInput name input)
include h

theorem idText_plain (i : ℕ) : ∀ b ∈ idText name i, b ≠ 0 ∧ b ≠ 10 ∧ b ≠ 58 := by
  intro b hb
  rcases List.mem_append.mp hb with hb | hb
  · obtain ⟨h0,h10,_,h58⟩ := h.name_plain b hb
    exact ⟨h0, h10, h58⟩
  rcases List.mem_append.mp hb with hb | hb
  · rw [List.mem_singleton.mp hb]
    decide
  · obtain ⟨h0,h10,_,h58⟩ := zeroPadded_plain i b hb
    exact ⟨h0, h10, h58⟩

theorem length_idText (hi : i < 2^31) : (idText name i).length ≤ 17 := by
  have hname := h.name_short
  have hnumber := length_zeroPadded hi
  rw [idText, List.length_append, List.length_append]
  change name.length+(1+(zeroPadded 8 i).length) ≤ 17
  omega

/-- The server finds the name and the puzzle of a line again. -/
theorem split_line (i : ℕ) (text : Bytes) : (idText name i ++ 58 :: text).idxOf 58 = (idText name i).length ∧
    SudokuServer.idOf (idText name i ++ 58 :: text) = idText name i ∧
    SudokuServer.puzzleOf (idText name i ++ 58 :: text) = text := by
  have hnot : (58 : UInt8) ∉ idText name i := fun hin => (h.idText_plain i 58 hin).2.2 rfl
  have hidx : (idText name i ++ 58 :: text).idxOf 58 = (idText name i).length := by
    rw [List.idxOf_append_of_notMem hnot, List.idxOf_cons_self, Nat.add_zero]
  have hlt : (idText name i).length < (idText name i ++ 58 :: text).length := by
    rw [List.length_append]
    exact Nat.lt_add_of_pos_right (Nat.succ_pos _)
  refine ⟨hidx, ?_, ?_⟩
  · rw [SudokuServer.idOf, hidx, if_pos hlt, List.take_left]
  · rw [SudokuServer.puzzleOf, hidx, if_pos hlt, ← List.drop_drop, List.drop_left]
    rfl

theorem requests (hi : i < 2^31) : SudokuServer.Good (requestLine name input i) ∧
    ¬ kCRLF <:+: requestLine name input i ∧ (requestLine name input i).length < 100 := by
  have hmem := (puzzleAt_mem h.input_ne_nil i).2
  have hlen := h.input_length _ hmem
  have hid := h.length_idText hi
  refine ⟨?_, ?_, ?_⟩
  · rw [SudokuServer.Good, requestLine, (h.split_line i _).2.2]
    exact hlen
  · apply not_infix_of_plain
    intro b hb
    rcases List.mem_append.mp hb with hb | hb
    · exact (h.idText_plain i b hb).2.1
    rcases List.mem_cons.mp hb with rfl | hb
    · decide
    · exact (h.input_plain _ hmem b hb).2
  · rw [requestLine, List.length_append, List.length_cons, hlen]
    change (idText name i).length+(81+1) < 100
    omega

/-- What the client prints is the line. -/
theorem requestText_eq (i : ℕ) :
    SudokuClient.requestText name (puzzleAt input i) i = requestLine name input i ++ kCRLF := by
  have hmem := (puzzleAt_mem h.input_ne_nil i).2
  rw [SudokuClient.requestText, Scanf.cString_eq (fun b hb => (h.name_plain b hb).1),
    Scanf.cString_eq (fun b hb => (h.input_plain _ hmem b hb).1), requestLine, idText]
  simp only [List.append_assoc]
  rfl

/-- An answer is one line, and not a long one. -/
theorem response_line (hi : i < 2^31) {answer : Bytes} (hanswer : IsAnswer (puzzleAt input i) answer) :
    ¬ kCRLF <:+: responseLine name i answer ∧ (responseLine name i answer).length < 100 ∧
      (answer ≠ kNoSolution → kCells < (responseLine name i answer).length) := by
  have hid := h.length_idText hi
  have hplain : (∀ b ∈ answer, b ≠ 10) ∧ answer.length ≤ kCells := by
    by_cases hne : answer = kNoSolution
    · rw [hne]
      exact ⟨fun b hb h10 => absurd (h10 ▸ hb) (by decide), by decide⟩
    · obtain ⟨hlen,hdigits⟩ := hanswer.digits hne
      refine ⟨?_, hlen.le⟩
      intro b hb h10
      have hdigit := hdigits b hb
      rw [h10] at hdigit
      exact absurd hdigit.1 (by decide)
  have hcells : kCells = 81 := rfl
  refine ⟨?_, ?_, ?_⟩
  · apply not_infix_of_plain
    intro b hb
    rcases List.mem_append.mp hb with hb | hb
    · exact (h.idText_plain i b hb).2.1
    rcases List.mem_cons.mp hb with rfl | hb
    · decide
    · exact hplain.1 b hb
  · rw [responseLine, List.length_append, List.length_cons]
    omega
  · intro hne
    rw [responseLine, List.length_append, List.length_cons, (hanswer.digits hne).1]
    omega

theorem replies_iff (i : ℕ) (action : ConnAction) :
    SudokuServer.Replies (requestLine name input i) action ↔
      ∃ answer, IsAnswer (puzzleAt input i) answer ∧ action = .send (responseLine name i answer ++ kCRLF) := by
  obtain ⟨_,hidOf,hpuzzle⟩ := h.split_line i (puzzleAt input i)
  have hne : idText name i ≠ [] :=
    List.append_ne_nil_of_right_ne_nil _ (List.append_ne_nil_of_left_ne_nil (by decide) _)
  have hcolon : ascii ":" = [58] := rfl
  rw [SudokuServer.Replies, requestLine, hidOf, hpuzzle]
  simp only [if_neg hne, responseLine, hcolon, List.append_assoc, List.singleton_append]

end LoadInput
end Lines

/-- Answers to the requests from a number on. -/
def Responses (name : Bytes) (input : List Bytes) : ℕ → List Bytes → Prop
  | _, [] => True
  | i, l :: ls => (∃ answer, IsAnswer (puzzleAt input i) answer ∧ l = responseLine name i answer) ∧
      Responses name input (i+1) ls

namespace SudokuClient

/-- The requests that have no answer yet are those from a number on. -/
structure InFlight (s : SudokuClient) (answered : ℕ) : Prop where
  le : answered ≤ s.count
  keys : s.sendTime.map Prod.fst = (List.range' answered (s.count-answered)).map (fun i : ℕ => (i : ℤ))

variable {s : SudokuClient} {answered n : ℕ} {now : ℤ}

/-- The answer to the oldest of them ends it. -/
theorem verify_response (h : LoadInput s.name s.input) (hflight : InFlight s answered) (hlt : answered < s.count)
    (hcount : s.count < 2^31) (answer : Bytes) (now : ℤ) : ∃ latency rest,
      s.verify (responseLine s.name answered answer) now =
        ({ s with latencies := s.latencies ++ [latency], sendTime := rest }, true) ∧
      rest.map Prod.fst = (List.range' (answered+1) (s.count-(answered+1))).map (fun i : ℕ => (i : ℤ)) := by
  have hkeys := hflight.keys
  rw [show s.count-answered = s.count-(answered+1)+1 by omega, List.range'_succ, List.map_cons] at hkeys
  obtain ⟨⟨k,t⟩,rest,hsend,hk,hrest⟩ := List.map_eq_cons_iff.mp hkeys
  have hk : k = (answered : ℤ) := hk
  have hothers : ∀ e ∈ rest, e.1 ≠ (answered : ℤ) := by
    intro e he heq
    have hmem : e.1 ∈ rest.map Prod.fst := List.mem_map_of_mem he
    rw [hrest] at hmem
    obtain ⟨i,hi,hie⟩ := List.mem_map.mp hmem
    have hlow := (List.mem_range'_1.mp hi).1
    omega
  have hcolon := (h.split_line answered answer).1
  have hdash : (idText s.name answered ++ 58 :: answer).idxOf 45 = s.name.length := by
    have hnot : (45 : UInt8) ∉ s.name := fun hin => (h.name_plain 45 hin).2.2.1 rfl
    rw [idText, List.append_assoc, List.idxOf_append_of_notMem hnot]
    rfl
  have hlength : (idText s.name answered).length = s.name.length+(1+(zeroPadded 8 answered).length) := by
    rw [idText, List.length_append, List.length_append]
    rfl
  have hnumber : atoi ((idText s.name answered ++ 58 :: answer).drop (s.name.length+1)) = answered := by
    have hdrop : (idText s.name answered ++ 58 :: answer).drop (s.name.length+1) =
        zeroPadded 8 answered ++ 58 :: answer := by
      rw [idText, List.append_assoc, ← List.drop_drop, List.drop_left]
      rfl
    rw [hdrop]
    exact atoi_padded (by omega) _ (fun b hb => (Option.some.inj hb).symm)
  have hfind : s.sendTime.find? (fun e => decide (e.1 = (answered : ℤ))) = some (k, t) := by
    rw [hsend, List.find?_cons_of_pos]
    exact decide_eq_true hk
  have hfilter : s.sendTime.filter (fun e => decide (e.1 ≠ (answered : ℤ))) = rest := by
    rw [hsend, List.filter_cons_of_neg]
    · exact List.filter_eq_self.mpr (fun e he => decide_eq_true (hothers e he))
    · rw [decide_eq_true_iff]
      exact not_not.mpr hk
  refine ⟨Int.bmod (now-t) (2^32), rest, ?_, hrest⟩
  rw [verify, responseLine, hcolon, hdash, hlength, hnumber]
  dsimp only
  rw [if_pos, hfind, hfilter]
  rw [List.length_append, List.length_cons, hlength]
  omega

/-- Nothing more can be taken. -/
def Waiting (buffer : Buffer) : Prop := buffer.readable.length < kCells+2 ∨ ¬ kCRLF <:+: buffer.readable

/-- The loop takes answers in their order, and stops at the end of what has come or a little before it. -/
theorem handle_responses {w : Bytes} {todo : List Bytes} (h : LoadInput s.name s.input)
    (hflight : InFlight s answered) (hcount : s.count < 2^31) (hle : answered+todo.length ≤ s.count)
    (htodo : Responses s.name s.input answered todo) (hn : s.buffer.readable.length < n)
    (hbuf : s.buffer.readable ++ w = unlines kCRLF todo) : ∃ taken latencies sendTime buffer,
      handle now n s = .ok ({ s with latencies := latencies, sendTime := sendTime, buffer := buffer }, false) ∧
      taken ≤ todo.length ∧ latencies.length = s.latencies.length+taken ∧
      sendTime.map Prod.fst = (List.range' (answered+taken) (s.count-(answered+taken))).map (fun i : ℕ => (i : ℤ)) ∧
      buffer.readable ++ w = unlines kCRLF (todo.drop taken) ∧ Waiting buffer := by
  induction n generalizing s answered todo with
  | zero => exact absurd hn (Nat.not_lt_zero _)
  | succ n ih =>
    have hstop (hhandle : handle now (n+1) s = .ok (s, false)) (hwaiting : Waiting s.buffer) :
        ∃ taken latencies sendTime buffer,
        handle now (n+1) s = .ok ({ s with latencies := latencies, sendTime := sendTime, buffer := buffer }, false) ∧
        taken ≤ todo.length ∧ latencies.length = s.latencies.length+taken ∧
        sendTime.map Prod.fst = (List.range' (answered+taken) (s.count-(answered+taken))).map (fun i : ℕ => (i : ℤ)) ∧
        buffer.readable ++ w = unlines kCRLF (todo.drop taken) ∧ Waiting buffer :=
      ⟨0, s.latencies, s.sendTime, s.buffer, hhandle, Nat.zero_le _, rfl, hflight.keys, hbuf, hwaiting⟩
    rcases Nat.lt_or_ge s.buffer.readable.length (kCells+2) with hfew | hmany
    · apply hstop _ (Or.inl hfew)
      rw [Buffer.length_readable] at hfew
      rw [handle, if_neg (Nat.not_le_of_lt hfew)]
      rfl
    have hmany' : s.buffer.readableBytes ≥ kCells+2 := by rwa [← Buffer.length_readable]
    cases todo with
    | nil =>
      rw [unlines_nil, List.append_eq_nil_iff] at hbuf
      rw [hbuf.1] at hmany
      exact absurd hmany (by decide)
    | cons l ls =>
      obtain ⟨⟨answer,hanswer,rfl⟩,hls⟩ := htodo
      rw [List.length_cons] at hle
      obtain ⟨hunbroken,hshort,_⟩ := h.response_line (show answered < 2^31 by omega) hanswer
      rcases SudokuServer.exists_line s.buffer.readable with hnone | ⟨line,rest,hread,hline⟩
      · apply hstop _ (Or.inr hnone)
        have hcrlf : s.buffer.findCRLF = none := by
          rw [Buffer.findCRLF, search_eq_none]
          exact hnone
        have hsmall : ¬ s.buffer.readableBytes > 100 := by
          rw [← Buffer.length_readable]
          intro hlong
          -- the whole line would be there
          have hpre : responseLine s.name answered answer ++ kCRLF <+: s.buffer.readable := by
            apply List.prefix_of_prefix_length_le ⟨_, (unlines_cons ..).symm⟩ ⟨w, hbuf⟩
            rw [List.length_append]
            change (responseLine s.name answered answer).length+2 ≤ s.buffer.readable.length
            omega
          have hin : kCRLF <:+: responseLine s.name answered answer ++ kCRLF :=
            ⟨responseLine s.name answered answer, [], List.append_nil _⟩
          exact hnone (hin.trans hpre.isInfix)
        rw [handle, if_pos hmany', hcrlf]
        dsimp only
        rw [decide_eq_false hsmall]
        rfl
      · have hsplit : line ++ kCRLF ++ (rest ++ w) =
            responseLine s.name answered answer ++ kCRLF ++ unlines kCRLF ls := by
          rw [← unlines_cons, ← hbuf, hread]
          simp only [List.append_assoc]
        obtain ⟨rfl,hrest⟩ := line_inj (by decide) hline hunbroken hsplit
        obtain ⟨hcrlf,htake,buf1,hretrieve,hread1⟩ := SudokuServer.findCRLF_line hline hread
        obtain ⟨latency,sendTime,hverify,hkeys⟩ := @verify_response { s with buffer := buf1 } answered h
          ⟨hflight.le, hflight.keys⟩ (by dsimp only; omega) hcount answer now
        have hlen : buf1.readable.length < n := by
          rw [hread, List.length_append, List.length_append] at hn
          have hsep : kCRLF.length = 2 := rfl
          rw [hread1]
          omega
        obtain ⟨taken,latencies,sendTime',buffer,hhandle,htaken,hlatencies,hkeys',hbuffer,hwaiting⟩ :=
          @ih { s with latencies := s.latencies ++ [latency], sendTime := sendTime, buffer := buf1 } (answered+1) ls h
            ⟨by dsimp only; omega, hkeys⟩ hcount (by dsimp only; omega) hls hlen (by rw [hread1]; exact hrest)
        refine ⟨taken+1, latencies, sendTime', buffer, ?_, ?_, ?_, ?_, hbuffer, hwaiting⟩
        · rw [handle, if_pos hmany', hcrlf]
          dsimp only
          rw [htake, hretrieve]
          change (match ({ s with buffer := buf1 } : SudokuClient).verify (responseLine s.name answered answer) now with
            | (t, good) => if good then handle now n t else pure (t, true)) = _
          rw [hverify]
          exact hhandle
        · rw [List.length_cons]
          omega
        · rw [hlatencies, List.length_append, List.length_singleton]
          omega
        · rw [hkeys']
          have hsum : answered+1+taken = answered+(taken+1) := by omega
          rw [hsum]

/-- Requests are printed with the next numbers. -/
theorem sendLoop_ok (h : LoadInput s.name s.input) (hflight : InFlight s answered) (hcount : s.count+n < 2^31) :
    ∃ requests sendTime, sendLoop now n s =
        .ok { s with requests := requests, sendTime := sendTime, count := s.count+n } ∧
      requests.readable = s.requests.readable ++
        unlines kCRLF ((List.range' s.count n).map (requestLine s.name s.input)) ∧
      sendTime.map Prod.fst = (List.range' answered (s.count+n-answered)).map (fun i : ℕ => (i : ℤ)) := by
  induction n generalizing s with
  | zero => exact ⟨s.requests, s.sendTime, rfl, (List.append_nil _).symm, hflight.keys⟩
  | succ n ih =>
    have hle := hflight.le
    have hreq := (puzzleAt_mem h.input_ne_nil s.count).1
    have hprint := h.requestText_eq s.count
    have hlong := (h.requests (show s.count < 2^31 by omega)).2.2
    have hlen : (requestLine s.name s.input s.count ++ kCRLF).length < 256 := by
      rw [List.length_append]
      change (requestLine s.name s.input s.count).length+2 < 256
      omega
    obtain ⟨text,htext⟩ : ∃ text, text = requestLine s.name s.input s.count ++ kCRLF := ⟨_, rfl⟩
    rw [← htext] at hprint hlen
    have hfits : snprintf 256 [] text = text := snprintf_fits hlen
    have hread : readBytes ((text ++ List.replicate 256 0).take 256) 0 text.length = .ok text := by
      rw [readBytes_eq]
      · rw [List.drop_zero, List.take_take, Nat.min_eq_left hlen.le, List.take_left]
      · rw [List.length_take, List.length_append, List.length_replicate]
        omega
    obtain ⟨requests,happend,hreadable⟩ := s.requests.append_ok text
    have hfresh : s.sendTime.filter (fun e => decide (e.1 ≠ (s.count : ℤ))) = s.sendTime := by
      apply List.filter_eq_self.mpr
      intro e he
      apply decide_eq_true
      have hmem : e.1 ∈ s.sendTime.map Prod.fst := List.mem_map_of_mem he
      rw [hflight.keys] at hmem
      obtain ⟨i,hi,hie⟩ := List.mem_map.mp hmem
      have hhigh := List.mem_range'_1.mp hi
      omega
    have hkeys : (s.sendTime ++ [((s.count : ℤ), now)]).map Prod.fst =
        (List.range' answered (s.count+1-answered)).map (fun i : ℕ => (i : ℤ)) := by
      rw [List.map_append, hflight.keys, show s.count+1-answered = (s.count-answered)+1 by omega, List.range'_concat,
        List.map_append, Nat.one_mul, show answered+(s.count-answered) = s.count by omega]
      rfl
    obtain ⟨requests',sendTime',hloop,hreadable',hkeys'⟩ := @ih { s with
      requests := requests, sendTime := s.sendTime ++ [((s.count : ℤ), now)], count := s.count+1 } h
      ⟨by dsimp only; omega, hkeys⟩ (by dsimp only; omega)
    have hsum : s.count+1+n = s.count+(n+1) := by omega
    dsimp only at hloop hreadable' hkeys'
    rw [hsum] at hloop hkeys'
    refine ⟨requests', sendTime', ?_, ?_, hkeys'⟩
    · rw [sendLoop, hreq]
      dsimp only
      rw [hprint, hfits, hread, hfresh]
      change Except.bind ((s.requests.append text).mapError SudokuServer.Stop.fault) _ = _
      rw [happend]
      change (if s.count+1 < 2^31 then _ else _) = _
      rw [if_pos (by omega)]
      exact hloop
    · rw [hreadable', hreadable, htext, List.range'_succ, List.map_cons, unlines_cons, List.append_assoc]

end SudokuClient

end IdealServer
