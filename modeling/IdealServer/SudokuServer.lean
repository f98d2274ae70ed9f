import IdealServer.Buffer
import IdealServer.Lines
import IdealServer.Runs
import IdealServer.Sudoku

/-! `SudokuServer`: the lines that come on a connection, and what is sent for them. -/
namespace IdealServer
open Lines Search

namespace SudokuServer

/-- How a call can fail to return. -/
inductive Stop
  | fault (e : Fault)
  | diverges
  /-- A signed number is out of range. -/
  | overflow

/-- What is in front of the first colon, and what is behind it. -/
def idOf (request : Bytes) : Bytes := if request.idxOf 58 < request.length then request.take (request.idxOf 58) else []
def puzzleOf (request : Bytes) : Bytes :=
  if request.idxOf 58 < request.length then request.drop (request.idxOf 58+1) else request

/-- Whether the request is good, and what is sent. -/
def processRequest (request : Bytes) : Except Stop (Bool × List ConnAction) :=
  let id := idOf request
  let puzzle := puzzleOf request
  if puzzle.length = kCells then do
    match ← (solveSudoku puzzle).mapError .fault with
    | none => .error .diverges
    | some result =>
      if id = [] then return (true, [.send (result ++ kCRLF)])
      else return (true, [.send (id ++ ascii ":" ++ result ++ kCRLF)])
  else return (false, [])

/-- The loop, if it ends within so many rounds. -/
def handle : ℕ → Buffer → Except Stop (Buffer × List ConnAction)
  | 0, _ => .error .diverges
  | n+1, buf =>
    if buf.readableBytes ≥ kCells+2 then
      match buf.findCRLF with
      | some crlf => do
        let request := buf.readable.take crlf
        let buf ← (buf.retrieveUntil (crlf+2)).mapError .fault
        let (good, out) ← processRequest request
        if good then
          let (buf, rest) ← handle n buf
          return (buf, out ++ rest)
        else return (buf, out ++ [.send (ascii "Bad Request!\r\n"), .shutdown])
      | none =>
        if buf.readableBytes > 100 then return (buf, [.send (ascii "Id too long!\r\n"), .shutdown])
        else return (buf, [])
    else return (buf, [])

/-- Each round but the last takes two bytes. -/
def onMessage (buf : Buffer) (read : Bytes) : Except Stop (Buffer × List ConnAction) := do
  let buf ← (buf.append read).mapError .fault
  handle (buf.readableBytes+1) buf

/-- A line that gets an answer. -/
def Good (request : Bytes) : Prop := (puzzleOf request).length = kCells

/-- The answer to it. -/
def Replies (request : Bytes) (action : ConnAction) : Prop := ∃ result, IsAnswer (puzzleOf request) result ∧
  action = .send ((if idOf request = [] then result else idOf request ++ ascii ":" ++ result) ++ kCRLF)

theorem processRequest_good {request : Bytes} (h : Good request) :
    ∃ action, processRequest request = .ok (true, [action]) ∧ Replies request action := by
  obtain ⟨result,hsolve,hanswer⟩ := solveSudoku_ok h
  refine ⟨_, ?_, result, hanswer, rfl⟩
  have hprocess : processRequest request = if idOf request = [] then .ok (true, [.send (result ++ kCRLF)])
      else .ok (true, [.send (idOf request ++ ascii ":" ++ result ++ kCRLF)]) := by
    have hlen : (puzzleOf request).length = kCells := h
    rw [processRequest, if_pos hlen, hsolve]
    rfl
  rw [hprocess]
  split <;> rfl

theorem processRequest_bad {request : Bytes} (h : ¬ Good request) : processRequest request = .ok (false, []) := by
  rw [processRequest]
  exact if_neg h

theorem length_of_good {request : Bytes} (h : Good request) : kCells ≤ request.length := by
  rw [Good, puzzleOf] at h
  split at h
  · rw [List.length_drop] at h
    omega
  · exact h.ge

section Rounds
variable {buf buf' : Buffer} {line rest : Bytes} {n : ℕ}

theorem findCRLF_line (hline : ¬ kCRLF <:+: line) (hbuf : buf.readable = line ++ kCRLF ++ rest) :
    buf.findCRLF = some line.length ∧ buf.readable.take line.length = line ∧
      ∃ buf', buf.retrieveUntil (line.length+2) = .ok buf' ∧ buf'.readable = rest := by
  have hcrlf : buf.findCRLF = some line.length := by
    rw [Buffer.findCRLF, hbuf]
    exact search_line (by decide) hline
  have hlen : buf.readableBytes = line.length+2+rest.length := by
    rw [← Buffer.length_readable, hbuf, List.length_append, List.length_append]
    rfl
  obtain ⟨buf',hretrieve,hread⟩ := buf.retrieveUntil_ok (show line.length+2 ≤ buf.readableBytes by omega)
  refine ⟨hcrlf, ?_, buf', hretrieve, ?_⟩
  · rw [hbuf, List.append_assoc, List.take_left]
  · rw [hread, hbuf]
    exact List.drop_left' (by rw [List.length_append]; rfl)

/-- Too little for a request. -/
theorem handle_few (hfew : buf.readable.length < kCells+2) : handle (n+1) buf = .ok (buf, []) := by
  rw [Buffer.length_readable] at hfew
  rw [handle, if_neg (Nat.not_le_of_lt hfew)]
  rfl

theorem handle_good (hgood : Good line) (hline : ¬ kCRLF <:+: line) (hbuf : buf.readable = line ++ kCRLF ++ rest) :
    ∃ buf1 action, buf1.readable = rest ∧ Replies line action ∧ ∀ buf' out, handle n buf1 = .ok (buf', out) →
      handle (n+1) buf = .ok (buf', action :: out) := by
  obtain ⟨hcrlf,htake,buf1,hretrieve,hread⟩ := findCRLF_line hline hbuf
  obtain ⟨action,hprocess,hreplies⟩ := processRequest_good hgood
  refine ⟨buf1, action, hread, hreplies, ?_⟩
  intro buf' out hrest
  have hmany : buf.readableBytes ≥ kCells+2 := by
    rw [← Buffer.length_readable, hbuf, List.length_append, List.length_append]
    have hlen := length_of_good hgood
    change line.length+2+rest.length ≥ kCells+2
    omega
  rw [handle, if_pos hmany, hcrlf]
  dsimp only
  rw [htake, hretrieve, hprocess]
  change Except.bind (handle n buf1) _ = _
  rw [hrest]
  rfl

theorem handle_bad (hbad : ¬ Good line) (hline : ¬ kCRLF <:+: line) (hbuf : buf.readable = line ++ kCRLF ++ rest)
    (hmany : kCells+2 ≤ buf.readable.length) : ∃ buf1, buf1.readable = rest ∧
      handle (n+1) buf = .ok (buf1, [.send (ascii "Bad Request!\r\n"), .shutdown]) := by
  obtain ⟨hcrlf,htake,buf1,hretrieve,hread⟩ := findCRLF_line hline hbuf
  refine ⟨buf1, hread, ?_⟩
  rw [Buffer.length_readable] at hmany
  rw [handle, if_pos hmany, hcrlf]
  dsimp only
  rw [htake, hretrieve, processRequest_bad hbad]
  rfl

/-- No line is complete. -/
theorem handle_none (hnone : ¬ kCRLF <:+: buf.readable) (hmany : kCells+2 ≤ buf.readable.length) :
    handle (n+1) buf =
      .ok (buf, if buf.readable.length > 100 then [.send (ascii "Id too long!\r\n"), .shutdown] else []) := by
  have hcrlf : buf.findCRLF = none := by
    rw [Buffer.findCRLF, search_eq_none]
    exact hnone
  rw [Buffer.length_readable] at hmany ⊢
  rw [handle, if_pos hmany, hcrlf]
  dsimp only
  split <;> rfl

end Rounds

/-- How a read ends behind the lines that are answered: what is sent then, and what is left. -/
inductive Ends : Bytes → List ConnAction → Bytes → Prop
  | few {rest : Bytes} (h : rest.length < kCells+2) : Ends rest [] rest
  | bad {line rest : Bytes} (hbad : ¬ Good line) (hline : ¬ kCRLF <:+: line)
      (hmany : kCells+2 ≤ (line ++ kCRLF ++ rest).length) :
      Ends (line ++ kCRLF ++ rest) [.send (ascii "Bad Request!\r\n"), .shutdown] rest
  | waits {rest : Bytes} (h : ¬ kCRLF <:+: rest) (hlen : rest.length ≤ 100) : Ends rest [] rest
  | tooLong {rest : Bytes} (h : ¬ kCRLF <:+: rest) (hlen : 100 < rest.length) :
      Ends rest [.send (ascii "Id too long!\r\n"), .shutdown] rest

/-- The first line, if there is one. -/
theorem exists_line (text : Bytes) : ¬ kCRLF <:+: text ∨
    ∃ line rest, text = line ++ kCRLF ++ rest ∧ ¬ kCRLF <:+: line := by
  cases hn : search kCRLF text with
  | none => exact Or.inl (search_eq_none.mp hn)
  | some n =>
    obtain ⟨rest,hrest⟩ := search_eq_some hn
    refine Or.inr ⟨text.take n, rest, ?_, ?_⟩
    · rw [List.append_assoc, hrest, List.take_append_drop]
    · intro hin
      -- it would have been found there
      cases hm : search kCRLF (text.take n) with
      | none => exact search_eq_none.mp hm hin
      | some m =>
        have hfirst : search kCRLF (text.take n ++ text.drop n) = some m := search_append_some hm
        rw [List.take_append_drop, hn] at hfirst
        have hpre := search_eq_some hm
        rw [← Option.some.inj hfirst, List.drop_eq_nil_of_le (List.length_take_le _ _)] at hpre
        exact absurd (List.prefix_nil.mp hpre) (by decide)

theorem handle_ends {n : ℕ} {buf : Buffer} (hn : buf.readable.length < n) :
    ∃ buf' lines replies out rest, handle n buf = .ok (buf', replies ++ out) ∧
      buf.readable = unlines kCRLF lines ++ rest ∧ (∀ line ∈ lines, Good line ∧ ¬ kCRLF <:+: line) ∧
      List.Forall₂ Replies lines replies ∧ Ends rest out buf'.readable := by
  induction n generalizing buf with
  | zero => exact absurd hn (Nat.not_lt_zero _)
  | succ n ih =>
    rcases Nat.lt_or_ge buf.readable.length (kCells+2) with hfew | hmany
    · exact ⟨buf, [], [], [], buf.readable, handle_few hfew, rfl, fun l hl => absurd hl List.not_mem_nil, .nil,
        .few hfew⟩
    rcases exists_line buf.readable with hnone | ⟨line,rest,hbuf,hline⟩
    · have hhandle := handle_none (n := n) hnone hmany
      by_cases hlong : buf.readable.length > 100
      · rw [if_pos hlong] at hhandle
        exact ⟨buf, [], [], _, buf.readable, hhandle, rfl, fun l hl => absurd hl List.not_mem_nil, .nil,
          .tooLong hnone hlong⟩
      · rw [if_neg hlong] at hhandle
        exact ⟨buf, [], [], _, buf.readable, hhandle, rfl, fun l hl => absurd hl List.not_mem_nil, .nil,
          .waits hnone (Nat.le_of_not_lt hlong)⟩
    · by_cases hgood : Good line
      · obtain ⟨buf1,action,hread,hreplies,hnext⟩ := handle_good (n := n) hgood hline hbuf
        have hlen : buf1.readable.length < n := by
          rw [hbuf, List.length_append, List.length_append] at hn
          have hsep : kCRLF.length = 2 := rfl
          rw [hread]
          omega
        obtain ⟨buf',lines,replies,out,rest',hhandle,htext,hlines,hall,hends⟩ := ih hlen
        refine ⟨buf', line :: lines, action :: replies, out, rest', hnext _ _ hhandle, ?_, ?_, .cons hreplies hall, hends⟩
        · rw [hbuf, unlines_cons, List.append_assoc, List.append_assoc, List.append_assoc, ← htext, hread]
        · intro l hl
          rcases List.mem_cons.mp hl with rfl | hl
          · exact ⟨hgood, hline⟩
          · exact hlines l hl
      · obtain ⟨buf1,hread,hhandle⟩ := handle_bad (n := n) hgood hline hbuf hmany
        refine ⟨buf1, [], [], _, buf.readable, hhandle, rfl, fun l hl => absurd hl List.not_mem_nil, .nil, ?_⟩
        rw [hbuf] at hmany ⊢
        rw [hread]
        exact .bad hgood hline hmany

theorem onMessage_ends (buf : Buffer) (read : Bytes) : ∃ buf' lines replies out rest,
    onMessage buf read = .ok (buf', replies ++ out) ∧ buf.readable ++ read = unlines kCRLF lines ++ rest ∧
      (∀ line ∈ lines, Good line ∧ ¬ kCRLF <:+: line) ∧ List.Forall₂ Replies lines replies ∧
      Ends rest out buf'.readable := by
  obtain ⟨buf1,happend,hread⟩ := buf.append_ok read
  obtain ⟨buf',lines,replies,out,rest,hhandle,htext,hlines,hall,hends⟩ :=
    @handle_ends (buf1.readableBytes+1) buf1 (by rw [Buffer.length_readable]; exact Nat.lt_succ_self _)
  refine ⟨buf', lines, replies, out, rest, ?_, hread.symm.trans htext, hlines, hall, hends⟩
  rw [onMessage, happend]
  exact hhandle

/-- Reads one after the other, from the text that is left in the buffer: the lines that are answered with each
of them, and how it ends. -/
inductive Session : Bytes → List Bytes → List ConnAction → Bytes → Prop
  | nil (text : Bytes) : Session text [] [] text
  | read {text read rest left last : Bytes} {lines reads : List Bytes} {replies out acts : List ConnAction}
      (htext : text ++ read = unlines kCRLF lines ++ rest)
      (hlines : ∀ line ∈ lines, Good line ∧ ¬ kCRLF <:+: line) (hreplies : List.Forall₂ Replies lines replies)
      (hends : Ends rest out left) (hnext : Session left reads acts last) :
      Session text (read :: reads) (replies ++ out ++ acts) last

/-- Whatever comes, no assertion fails and every loop ends. -/
theorem run_session (buf : Buffer) (reads : List Bytes) : ∃ buf' acts,
    Runs.run onMessage buf reads = .ok (buf', acts) ∧ Session buf.readable reads acts buf'.readable := by
  induction reads generalizing buf with
  | nil => exact ⟨buf, [], rfl, .nil _⟩
  | cons read reads ih =>
    obtain ⟨buf1,lines,replies,out,rest,hread,htext,hlines,hall,hends⟩ := onMessage_ends buf read
    obtain ⟨buf2,acts,hrun,hsession⟩ := ih buf1
    exact ⟨buf2, _, Runs.run_cons_of_ok hread hrun, .read htext hlines hall hends hsession⟩

section Requests
variable {rs pending lines : List Bytes} {rest w : Bytes}

/-- Requests in which no name is too long. -/
def Requests (rs : List Bytes) : Prop := ∀ r ∈ rs, Good r ∧ ¬ kCRLF <:+: r ∧ r.length < 100

/-- The lines that are taken are the next requests. -/
theorem exists_later (hlines : ∀ l ∈ lines, ¬ kCRLF <:+: l) (hpending : Requests pending)
    (h : unlines kCRLF lines ++ rest ++ w = unlines kCRLF pending) :
    ∃ later, pending = lines ++ later ∧ rest ++ w = unlines kCRLF later := by
  induction lines generalizing pending with
  | nil => exact ⟨pending, rfl, h⟩
  | cons l ls ih =>
    cases pending with
    | nil =>
      rw [unlines_cons, unlines_nil] at h
      exact absurd h (by simp [kCRLF])
    | cons r later =>
      have hsplit : l ++ kCRLF ++ (unlines kCRLF ls ++ rest ++ w) = r ++ kCRLF ++ unlines kCRLF later := by
        rw [unlines_cons, unlines_cons] at h
        rw [← h]
        simp only [List.append_assoc]
      obtain ⟨rfl,hrest⟩ := line_inj (by decide) (hlines l List.mem_cons_self)
        (hpending r List.mem_cons_self).2.1 hsplit
      obtain ⟨later',rfl,hlater⟩ := ih (fun l hl => hlines l (List.mem_cons_of_mem _ hl))
        (fun r hr => hpending r (List.mem_cons_of_mem _ hr)) hrest
      exact ⟨later', rfl, hlater⟩

/-- What is left of such requests is the beginning of a line, and nothing else is sent. -/
theorem ends_of_requests {out : List ConnAction} {left : Bytes} (hends : Ends rest out left) (hrs : Requests rs)
    (h : rest ++ w = unlines kCRLF rs) : out = [] ∧ left = rest ∧ ¬ kCRLF <:+: rest := by
  -- a line in it is the next request
  have hfirst {line after : Bytes} (hrest : rest = line ++ kCRLF ++ after) (hline : ¬ kCRLF <:+: line) :
      line ∈ rs := by
    have hone : unlines kCRLF [line] ++ after ++ w = unlines kCRLF rs := by
      rw [← h, hrest, unlines_cons, unlines_nil, List.append_nil]
    have hunbroken : ∀ l ∈ [line], ¬ kCRLF <:+: l := fun l hl => List.mem_singleton.mp hl ▸ hline
    obtain ⟨later,rfl,_⟩ := exists_later hunbroken hrs hone
    exact List.mem_cons_self
  cases hends with
  | few hfew =>
    refine ⟨rfl, rfl, ?_⟩
    rcases exists_line rest with hnone | ⟨line,after,hrest,hline⟩
    · exact hnone
    · have hlen := length_of_good (hrs line (hfirst hrest hline)).1
      rw [hrest, List.length_append, List.length_append] at hfew
      have hsep : kCRLF.length = 2 := rfl
      omega
  | bad hbad hline _ => exact absurd (hrs _ (hfirst rfl hline)).1 hbad
  | waits hnone _ => exact ⟨rfl, rfl, hnone⟩
  | tooLong hnone hlong =>
    cases rs with
    | nil =>
      obtain ⟨rfl,_⟩ := List.append_eq_nil_iff.mp h
      exact absurd hlong (Nat.not_lt_zero _)
    | cons r rs =>
      -- the whole line would be there
      have hlen := (hrs r List.mem_cons_self).2.2
      have hline : r ++ kCRLF <+: unlines kCRLF (r :: rs) := ⟨unlines kCRLF rs, (unlines_cons ..).symm⟩
      have hpre : r ++ kCRLF <+: rest := by
        apply List.prefix_of_prefix_length_le hline ⟨w, h⟩
        rw [List.length_append]
        change r.length+2 ≤ rest.length
        omega
      exact absurd ((List.infix_append' r kCRLF []).trans (by rw [List.append_nil]; exact hpre.isInfix)) hnone

theorem requests_run {reads : List Bytes} {buf : Buffer} (hrs : Requests pending)
    (hbuf : ¬ kCRLF <:+: buf.readable) (h : buf.readable ++ (reads.flatten ++ w) = unlines kCRLF pending) :
    ∃ buf' replies done piece, Runs.run onMessage buf reads = .ok (buf', replies) ∧ done <+: pending ∧
      buf.readable ++ reads.flatten = unlines kCRLF done ++ piece ∧ ¬ kCRLF <:+: piece ∧
      buf'.readable = piece ∧ List.Forall₂ Replies done replies := by
  induction reads generalizing buf pending with
  | nil => exact ⟨buf, [], [], buf.readable, rfl, List.nil_prefix, List.append_nil _, hbuf, rfl, .nil⟩
  | cons read reads ih =>
    obtain ⟨buf1,lines,replies,out,rest,hread,htext,hlines,hall,hends⟩ := onMessage_ends buf read
    rw [List.flatten_cons, List.append_assoc, ← List.append_assoc, htext] at h
    obtain ⟨later,rfl,hlater⟩ := exists_later (fun l hl => (hlines l hl).2) hrs h
    have hrs' : Requests later := fun r hr => hrs r (List.mem_append_right _ hr)
    obtain ⟨rfl,hleft,hunbroken⟩ := ends_of_requests hends hrs' hlater
    rw [← hleft] at hunbroken hlater htext
    obtain ⟨buf2,replies',done,piece,hrun,hdone,htext',hpiece,hkept,hall'⟩ := ih hrs' hunbroken hlater
    rw [List.append_nil] at hread
    refine ⟨buf2, replies ++ replies', lines ++ done, piece, Runs.run_cons_of_ok hread hrun, ?_, ?_, hpiece, hkept,
      ?_⟩
    · exact (List.prefix_append_right_inj lines).mpr hdone
    · rw [List.flatten_cons, ← List.append_assoc, htext, List.append_assoc, htext', unlines_append, List.append_assoc]
    · exact List.rel_append hall hall'

/-- However the requests are cut into reads, each of them is answered once, in their order, with the read that
brings the end of its line, and the piece of the next one stays in the buffer. -/
theorem requests_answered (rs reads : List Bytes) (hrs : Requests rs) (hreads : reads.flatten <+: unlines kCRLF rs) :
    ∃ buf replies finished piece, Runs.run onMessage .new reads = .ok (buf, replies) ∧
      finished <+: rs ∧ reads.flatten = unlines kCRLF finished ++ piece ∧ ¬ kCRLF <:+: piece ∧
      buf.readable = piece ∧ List.Forall₂ Replies finished replies := by
  obtain ⟨w,hw⟩ := hreads
  have hnew : ¬ kCRLF <:+: Buffer.new.readable := by decide
  exact requests_run hrs hnew hw

/-- One request in two reads, the second of which brings the beginning of another one. -/
theorem requests_answered_cut : ∃ buf replies finished piece,
    Runs.run onMessage .new [List.replicate 60 48, List.replicate 21 48 ++ kCRLF ++ [48]] = .ok (buf, replies) ∧
      finished <+: [List.replicate 81 48, List.replicate 81 48] ∧
      [List.replicate 60 48, List.replicate 21 48 ++ kCRLF ++ [48]].flatten = unlines kCRLF finished ++ piece ∧
      ¬ kCRLF <:+: piece ∧ buf.readable = piece ∧ List.Forall₂ Replies finished replies := by
  have hgood : Good (List.replicate 81 48) := by
    rw [Good]
    decide +kernel
  apply requests_answered
  · intro r hr
    obtain rfl : r = List.replicate 81 48 := by simpa using hr
    exact ⟨hgood, by decide +kernel, by decide +kernel⟩
  · decide +kernel

end Requests

end SudokuServer

end IdealServer
