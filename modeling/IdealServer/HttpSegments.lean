import IdealServer.HttpLines
import IdealServer.Runs

/-! A request that comes in pieces. The parser waits for the lines that are still to come, and it does not
matter with which read each of them becomes complete. -/
namespace IdealServer
open Lines Search

namespace HttpRequest

def addHeaders (r : HttpRequest) (headers : List Bytes) : HttpRequest :=
  headers.foldl (fun r line => r.addHeader line (line.idxOf 58)) r

theorem SameContent.trans_symm {r q p : HttpRequest} (h : SameContent r p) (h' : SameContent q p) :
    SameContent r q where
  method := h.method.trans h'.method.symm
  version := h.version.trans h'.version.symm
  path := h.path.trans h'.path.symm
  query := h.query.trans h'.query.symm
  headers := h.headers.trans h'.headers.symm

theorem SameContent.setReceiveTime {r q : HttpRequest} (h : SameContent r q) (t : ℤ) :
    SameContent (r.setReceiveTime t) q := ⟨h.method, h.version, h.path, h.query, h.headers⟩

theorem addHeaders_setReceiveTime (r : HttpRequest) (headers : List Bytes) (t : ℤ) :
    (r.setReceiveTime t).addHeaders headers = (r.addHeaders headers).setReceiveTime t := by
  induction headers generalizing r with
  | nil => rfl
  | cons h headers ih => exact ih (r.addHeader h (h.idxOf 58))

end HttpRequest

namespace RequestLine

/-- The lines of a request. -/
def lines (l : RequestLine) (headers : List Bytes) : List Bytes := l.text :: (headers ++ [[]])

def message (l : RequestLine) (headers : List Bytes) : Bytes := unlines kCRLF (l.lines headers)

end RequestLine

namespace HttpContext

/-- The lines that are still to come, and the request that is there after them. -/
inductive Expects (q : HttpRequest) : HttpContext → List Bytes → Prop
  | requestLine {l : RequestLine} {headers : List Bytes} (h : ∀ h ∈ headers, 58 ∈ h)
      (hq : ((l.apply .new).addHeaders headers).SameContent q) : Expects q .new (l.lines headers)
  | headers {r : HttpRequest} {headers : List Bytes} (h : ∀ h ∈ headers, 58 ∈ h)
      (hq : (r.addHeaders headers).SameContent q) : Expects q ⟨.kExpectHeaders, r⟩ (headers ++ [[]])
  | gotAll {r : HttpRequest} (hq : r.SameContent q) : Expects q ⟨.kGotAll, r⟩ []

section Lines
variable {q : HttpRequest} {c : HttpContext} {todo : List Bytes}

theorem Expects.parsing (h : Expects q c todo) (hne : todo ≠ []) : c.Parsing := by
  cases h with
  | requestLine _ _ => exact Or.inl rfl
  | headers _ _ => exact Or.inr rfl
  | gotAll _ => exact absurd rfl hne

theorem Expects.gotAll_eq (h : Expects q c todo) : c.gotAll = todo.isEmpty := by
  cases h with
  | requestLine _ _ => rfl
  | @headers r headers _ _ => cases headers <;> rfl
  | gotAll _ => rfl

theorem Expects.sameContent (h : Expects q c []) : c.request.SameContent q := by
  generalize htodo : ([] : List Bytes) = todo at h
  cases h with
  | requestLine _ _ => cases htodo
  | headers _ _ => exact absurd htodo.symm (List.append_ne_nil_of_right_ne_nil _ (List.cons_ne_nil _ _))
  | gotAll hq => exact hq

/-- A round takes the next line; the loop goes on exactly if there is another one. -/
theorem Expects.parseRound {line rest : Bytes} {buf : Buffer} {t : ℤ} (h : Expects q c (line :: todo))
    (hline : ¬ kCRLF <:+: line) (hbuf : buf.readable = line ++ kCRLF ++ rest) :
    ∃ c' buf', c.parseRound buf t = .ok ⟨!todo.isEmpty, true, c', buf'⟩ ∧ Expects q c' todo ∧
      buf'.readable = rest := by
  have hcrlf : buf.findCRLF = some line.length := by
    rw [Buffer.findCRLF, hbuf]
    exact search_line (by decide) hline
  have htake : buf.readable.take line.length = line := by
    rw [hbuf, List.append_assoc, List.take_left]
  have hdrop : buf.readable.drop (line.length+2) = rest := by
    rw [hbuf]
    exact List.drop_left' (by rw [List.length_append]; rfl)
  generalize hlines : line :: todo = lines at h
  cases h with
  | @requestLine l headers hcolon hq =>
    obtain ⟨rfl,rfl⟩ := List.cons.inj hlines
    have hok := processRequestLine_text (c := .new) rfl l
    rw [← htake] at hok
    obtain ⟨buf',hround,hread⟩ := parseRound_requestLine (t := t) rfl hcrlf hok
    have hnext : Expects q ⟨.kExpectHeaders, (l.apply .new).setReceiveTime t⟩ (headers ++ [[]]) := by
      apply Expects.headers hcolon
      rw [HttpRequest.addHeaders_setReceiveTime]
      exact hq.setReceiveTime t
    refine ⟨_, buf', ?_, hnext, hread.trans hdrop⟩
    rw [hround]
    cases headers <;> rfl
  | @headers r headers hcolon hq =>
    obtain ⟨buf',hround,hread⟩ := parseRound_header (c := ⟨.kExpectHeaders, r⟩) (t := t) rfl hcrlf
    rw [htake] at hround
    cases headers with
    | nil =>
      -- the empty line
      obtain ⟨rfl,rfl⟩ := List.cons.inj hlines
      refine ⟨_, buf', hround, .gotAll hq, hread.trans hdrop⟩
    | cons header headers =>
      obtain ⟨rfl,rfl⟩ := List.cons.inj hlines
      rw [if_pos (hcolon line List.mem_cons_self)] at hround
      refine ⟨_, buf', ?_, .headers (fun h hh => hcolon h (List.mem_cons_of_mem _ hh)) hq, hread.trans hdrop⟩
      rw [hround]
      cases headers <;> rfl
  | gotAll _ => cases hlines

/-- The loop takes all lines that are complete, and waits if these are not all lines. -/
theorem Expects.parseRounds {ready : List Bytes} {piece : Bytes} {buf : Buffer} {t : ℤ}
    (h : Expects q c (ready ++ todo)) (hne : ready ++ todo ≠ []) (hready : ∀ l ∈ ready, ¬ kCRLF <:+: l)
    (hbuf : buf.readable = unlines kCRLF ready ++ piece) (hpiece : todo ≠ [] → ¬ kCRLF <:+: piece) :
    ∃ n c' buf', HttpContext.parseRounds t n c buf = .ok (some (true, c', buf')) ∧ Expects q c' todo ∧
      buf'.readable = piece := by
  induction ready generalizing c buf with
  | nil =>
    have hnone : buf.findCRLF = none := by
      rw [Buffer.findCRLF, search_eq_none, hbuf]
      exact hpiece hne
    refine ⟨1, c, buf, ?_, h, hbuf⟩
    rw [parseRounds_succ_of_ok (parseRound_none (h.parsing hne) hnone)]
    rfl
  | cons line ready ih =>
    rw [unlines_cons, List.append_assoc] at hbuf
    rw [List.cons_append] at h
    obtain ⟨c1,buf1,hround,h1,hbuf1⟩ := Expects.parseRound (t := t) h (hready line List.mem_cons_self) hbuf
    by_cases hlast : ready ++ todo = []
    · -- the loop ends with the empty line
      obtain ⟨rfl,rfl⟩ := List.append_eq_nil_iff.mp hlast
      refine ⟨1, c1, buf1, ?_, h1, hbuf1⟩
      rw [parseRounds_succ_of_ok hround]
      rfl
    · obtain ⟨n,c2,buf2,hrounds,h2,hbuf2⟩ :=
        ih h1 hlast (fun l hl => hready l (List.mem_cons_of_mem _ hl)) hbuf1
      refine ⟨n+1, c2, buf2, ?_, h2, hbuf2⟩
      have hmore : (ready ++ todo).isEmpty = false := List.isEmpty_eq_false_iff.mpr hlast
      rw [parseRounds_succ_of_ok hround, hmore]
      exact hrounds

end Lines

end HttpContext

namespace HttpInput

/-- What the reads bring. -/
def content (reads : List (Bytes × ℤ)) : Bytes := reads.flatMap Prod.fst

/-- `parseRequest` is called after each read, and accepts what there is. -/
def Reaches (s : HttpInput) (reads : List (Bytes × ℤ)) (s' : HttpInput) : Prop :=
  ∃ oks, Runs.run receive s reads = .ok (s', oks) ∧ ∀ ok ∈ oks, ok = true

theorem reaches_nil (s : HttpInput) : s.Reaches [] s := ⟨[], rfl, fun _ h => absurd h List.not_mem_nil⟩

theorem reaches_cons {s s1 s2 : HttpInput} {read : Bytes × ℤ} {reads : List (Bytes × ℤ)}
    (h1 : s.receive read = .ok (s1, [true])) (h2 : s1.Reaches reads s2) : s.Reaches (read :: reads) s2 := by
  obtain ⟨oks,hrun,hoks⟩ := h2
  refine ⟨_, Runs.run_cons_of_ok h1 hrun, ?_⟩
  intro ok hok
  rcases List.mem_cons.mp hok with rfl | hok
  · rfl
  · exact hoks ok hok

section Segments
variable {q : HttpRequest} {s : HttpInput} {read : Bytes × ℤ} {todo : List Bytes}

/-- A read with which the request is not complete. -/
theorem receive_part {missing : Bytes} (h : HttpContext.Expects q s.context todo)
    (hlines : ∀ l ∈ todo, ¬ kCRLF <:+: l) (hmissing : missing ≠ [])
    (hbuf : s.buffer.readable ++ read.1 ++ missing = unlines kCRLF todo) :
    ∃ s1 taken left, s.receive read = .ok (s1, [true]) ∧ HttpContext.Expects q s1.context left ∧
      todo = taken ++ left ∧ s.buffer.readable ++ read.1 = unlines kCRLF taken ++ s1.buffer.readable ∧
      s1.buffer.readable ++ missing = unlines kCRLF left := by
  obtain ⟨buf,happend,hread⟩ := s.buffer.append_ok read.1
  obtain ⟨taken,left,piece,rfl,htext,hpiece,hunbroken⟩ := exists_complete_lines (by decide) hlines hbuf
  have hne : taken ++ left ≠ [] := by
    intro hnil
    rw [hnil, unlines_nil, List.append_eq_nil_iff] at hbuf
    exact hmissing hbuf.2
  have htaken : ∀ l ∈ taken, ¬ kCRLF <:+: l := fun l hl => hlines l (List.mem_append_left _ hl)
  obtain ⟨n,c,buf',hrounds,hc,hbuf'⟩ :=
    h.parseRounds (t := read.2) hne htaken (hread.trans htext) (fun _ => hunbroken)
  subst hbuf'
  have hparse := HttpContext.parseRequest_eq (h.parsing hne) hrounds
  exact ⟨⟨c,buf'⟩, taken, left, receive_eq happend hparse, hc, rfl, htext, hpiece⟩

/-- A read with which it is. -/
theorem receive_whole {rest : Bytes} (h : HttpContext.Expects q s.context todo) (hne : todo ≠ [])
    (hlines : ∀ l ∈ todo, ¬ kCRLF <:+: l)
    (hbuf : s.buffer.readable ++ read.1 = unlines kCRLF todo ++ rest) :
    ∃ s1, s.receive read = .ok (s1, [true]) ∧ s1.context.gotAll = true ∧ s1.buffer.readable = rest ∧
      s1.context.request.SameContent q := by
  obtain ⟨buf,happend,hread⟩ := s.buffer.append_ok read.1
  have htodo : todo = todo ++ [] := (List.append_nil todo).symm
  rw [htodo] at h hne
  obtain ⟨n,c,buf',hrounds,hc,hbuf'⟩ :=
    h.parseRounds (t := read.2) hne hlines (hread.trans hbuf) (fun hnil => absurd rfl hnil)
  have hparse := HttpContext.parseRequest_eq (h.parsing hne) hrounds
  exact ⟨⟨c,buf'⟩, receive_eq happend hparse, hc.gotAll_eq, hbuf', hc.sameContent⟩

/-- The request is complete with the read that brings the last of `n` bytes, and not before. -/
def Completes (q : HttpRequest) (rest : Bytes) (s : HttpInput) (reads : List (Bytes × ℤ)) (n : ℕ) : Prop :=
  ∃ before last after, reads = before ++ last :: after ∧
    (content before).length < n ∧ n ≤ (content (before ++ [last])).length ∧
    (∀ k ≤ before.length, ∃ s', s.Reaches (before.take k) s' ∧ s'.context.gotAll = false) ∧
    ∃ s', s.Reaches (before ++ [last]) s' ∧ s'.context.gotAll = true ∧
      s'.buffer.readable ++ content after = rest ∧ s'.context.request.SameContent q

theorem content_cons (read : Bytes × ℤ) (reads : List (Bytes × ℤ)) :
    content (read :: reads) = read.1 ++ content reads := List.flatMap_cons

theorem completes_cons {s1 : HttpInput} {rest : Bytes} {reads : List (Bytes × ℤ)} {n : ℕ}
    (hwait : s.context.gotAll = false) (hread : s.receive read = .ok (s1, [true]))
    (h : Completes q rest s1 reads n) : Completes q rest s (read :: reads) (read.1.length+n) := by
  obtain ⟨before,last,after,rfl,hbefore,hlast,hwaits,s2,hreach,hend⟩ := h
  refine ⟨read :: before, last, after, rfl, ?_, ?_, ?_, s2, reaches_cons hread hreach, hend⟩
  · rw [content_cons, List.length_append]
    omega
  · rw [List.cons_append, content_cons, List.length_append]
    omega
  · intro k hk
    cases k with
    | zero => exact ⟨s, reaches_nil s, hwait⟩
    | succ k =>
      obtain ⟨s',hs',hno⟩ := hwaits k (Nat.le_of_succ_le_succ hk)
      exact ⟨s', reaches_cons hread hs', hno⟩

theorem completes_here {s1 : HttpInput} {rest : Bytes} {reads : List (Bytes × ℤ)} {n : ℕ}
    (hwait : s.context.gotAll = false) (hread : s.receive read = .ok (s1, [true])) (hpos : 0 < n)
    (hn : n ≤ read.1.length) (hgot : s1.context.gotAll = true)
    (hrest : s1.buffer.readable ++ content reads = rest) (hq : s1.context.request.SameContent q) :
    Completes q rest s (read :: reads) n := by
  refine ⟨[], read, reads, rfl, hpos, ?_, ?_, s1, reaches_cons hread (reaches_nil s1), hgot, hrest, hq⟩
  · rw [List.nil_append, content_cons, List.length_append]
    omega
  · intro k _
    rw [List.take_nil]
    exact ⟨s, reaches_nil s, hwait⟩

/-- However the lines that are still to come are cut into reads. -/
theorem completes_of_expects {rest : Bytes} {reads : List (Bytes × ℤ)} {n : ℕ}
    (h : HttpContext.Expects q s.context todo) (hlines : ∀ l ∈ todo, ¬ kCRLF <:+: l) (hpos : 0 < n)
    (hn : s.buffer.readable.length+n = (unlines kCRLF todo).length)
    (hbuf : s.buffer.readable ++ content reads = unlines kCRLF todo ++ rest) : Completes q rest s reads n := by
  induction reads generalizing s todo n with
  | nil =>
    have hlen := congrArg List.length hbuf
    rw [content, List.flatMap_nil, List.append_nil, List.length_append] at hlen
    omega
  | cons read reads ih =>
    have hne : todo ≠ [] := by
      rintro rfl
      rw [unlines_nil, List.length_nil] at hn
      omega
    have hwait : s.context.gotAll = false := by
      rw [h.gotAll_eq]
      exact List.isEmpty_eq_false_iff.mpr hne
    rw [content_cons, ← List.append_assoc] at hbuf
    have hcome : s.buffer.readable ++ read.1 <+: unlines kCRLF todo ++ rest := ⟨content reads, hbuf⟩
    have hall : unlines kCRLF todo <+: unlines kCRLF todo ++ rest := List.prefix_append _ _
    have hlen : (s.buffer.readable ++ read.1).length = s.buffer.readable.length+read.1.length :=
      List.length_append
    by_cases hfew : read.1.length < n
    · -- the request goes on behind this read
      obtain ⟨missing,hpart⟩ := List.prefix_of_prefix_length_le hcome hall (by omega)
      have hmissing := congrArg List.length hpart
      rw [List.length_append] at hmissing
      have hnil : missing ≠ [] := by
        rintro rfl
        rw [List.length_nil] at hmissing
        omega
      obtain ⟨s1,taken,left,hread,h1,rfl,htext,hleft⟩ := receive_part h hlines hnil hpart
      have hlenleft := congrArg List.length hleft
      rw [List.length_append] at hlenleft
      have hrest : unlines kCRLF taken ++ (s1.buffer.readable ++ content reads) =
          unlines kCRLF taken ++ (unlines kCRLF left ++ rest) := by
        rw [← List.append_assoc, ← htext, hbuf, unlines_append, List.append_assoc]
      have htail := ih (n := missing.length) h1 (fun l hl => hlines l (List.mem_append_right _ hl))
        (List.length_pos_iff.mpr hnil) hlenleft (List.append_cancel_left hrest)
      have hsplit : n = read.1.length+missing.length := by omega
      rw [hsplit]
      exact completes_cons hwait hread htail
    · -- it ends with this read, or in it
      obtain ⟨after,hwhole⟩ := List.prefix_of_prefix_length_le hall hcome (by omega)
      obtain ⟨s1,hread,hgot,hafter,hq⟩ := receive_whole h hne hlines hwhole.symm
      rw [← hwhole, List.append_assoc] at hbuf
      apply completes_here hwait hread hpos (Nat.le_of_not_lt hfew) hgot _ hq
      rw [hafter]
      exact List.append_cancel_left hbuf

end Segments

/-- A request that comes in any pieces, with anything behind it, is complete with the read that brings its
last byte. It is then the one that a single read would have given, and what is behind it is left. -/
theorem segmentation_independent {l : RequestLine} {headers : List Bytes} {rest : Bytes}
    {reads : List (Bytes × ℤ)} {buf : Buffer} (hl : ¬ kCRLF <:+: l.text)
    (hheaders : ∀ h ∈ headers, 58 ∈ h ∧ ¬ kCRLF <:+: h) (hbuf : buf.readable = [])
    (hreads : content reads = l.message headers ++ rest) :
    ∃ before last after, reads = before ++ last :: after ∧
      (content before).length < (l.message headers).length ∧
      (l.message headers).length ≤ (content (before ++ [last])).length ∧
      (∀ k ≤ before.length, ∃ s, Reaches ⟨.new, buf⟩ (before.take k) s ∧ s.context.gotAll = false) ∧
      ∃ s, Reaches ⟨.new, buf⟩ (before ++ [last]) s ∧ s.context.gotAll = true ∧
        s.buffer.readable ++ content after = rest ∧
        ∀ t, ∃ one, Reaches ⟨.new, buf⟩ [(l.message headers ++ rest, t)] one ∧ one.context.gotAll = true ∧
          one.buffer.readable = rest ∧ s.context.request.SameContent one.context.request := by
  have hlines : ∀ m ∈ l.lines headers, ¬ kCRLF <:+: m := by
    intro m hm
    rcases List.mem_cons.mp hm with rfl | hm
    · exact hl
    rcases List.mem_append.mp hm with hm | hm
    · exact (hheaders m hm).2
    · rw [List.mem_singleton.mp hm]
      decide
  have hexpects : HttpContext.Expects ((l.apply .new).addHeaders headers) .new (l.lines headers) :=
    .requestLine (fun h hh => (hheaders h hh).1) ⟨rfl, rfl, rfl, rfl, rfl⟩
  have hpos : 0 < (l.message headers).length := by
    rw [RequestLine.message, RequestLine.lines, unlines_cons, List.length_append, List.length_append]
    exact Nat.lt_add_right _ (Nat.lt_add_left _ Nat.two_pos)
  have hstart (text : Bytes) : buf.readable ++ text = text := by rw [hbuf, List.nil_append]
  have hlen : buf.readable.length+(l.message headers).length = (l.message headers).length := by
    rw [hbuf, List.length_nil, Nat.zero_add]
  obtain ⟨before,last,after,rfl,hbefore,hlast,hwait,s,hreach,hgot,hrest,hq⟩ :=
    completes_of_expects (s := ⟨.new, buf⟩) hexpects hlines hpos hlen ((hstart _).trans hreads)
  refine ⟨before, last, after, rfl, hbefore, hlast, hwait, s, hreach, hgot, hrest, ?_⟩
  intro t
  have hwhole : buf.readable ++ (l.message headers ++ rest, t).1 = unlines kCRLF (l.lines headers) ++ rest :=
    hstart _
  obtain ⟨one,hread,hgot',hrest',hq'⟩ :=
    receive_whole (s := ⟨.new, buf⟩) hexpects (List.cons_ne_nil _ _) hlines hwhole
  exact ⟨one, reaches_cons hread (reaches_nil one), hgot', hrest', hq.trans_symm hq'⟩

def aRequestLine : RequestLine := ⟨.kGet, by decide, ascii "/a?b", by decide, .kHttp11, by decide⟩

/-- A cut between `CR` and `LF`. -/
def cutReads : List (Bytes × ℤ) :=
  [(ascii "GET /a?b HTTP/1.1\r", 1), (ascii "\nHost: c\r\n\r\nd", 2)]

theorem segmentation_independent_cut : ∃ s, Reaches ⟨.new, .new⟩ cutReads s ∧
    s.context.gotAll = true ∧ s.buffer.readable = ascii "d" := by
  have hline : ¬ kCRLF <:+: aRequestLine.text := by decide
  have hheaders : ∀ h ∈ [ascii "Host: c"], 58 ∈ h ∧ ¬ kCRLF <:+: h := by decide
  have hreads : content cutReads = aRequestLine.message [ascii "Host: c"] ++ ascii "d" := by decide
  obtain ⟨before,last,after,hcut,_,hlast,_,s,hreach,hgot,hrest,_⟩ :=
    segmentation_independent hline hheaders Buffer.readable_new hreads
  cases before with
  | nil =>
    -- the first read is too short
    obtain ⟨hlast',_⟩ := List.cons.inj hcut
    rw [← hlast'] at hlast
    exact absurd hlast (by decide)
  | cons first before =>
    obtain ⟨hfirst,hcut'⟩ := List.cons.inj hcut
    cases before with
    | nil =>
      obtain ⟨hlast',hafter⟩ := List.cons.inj hcut'
      rw [← hfirst, ← hlast'] at hreach
      rw [← hafter] at hrest
      exact ⟨s, hreach, hgot, (List.append_nil _).symm.trans hrest⟩
    | cons second before =>
      obtain ⟨_,hnone⟩ := List.cons.inj hcut'
      exact absurd hnone.symm (List.append_ne_nil_of_right_ne_nil _ (List.cons_ne_nil _ _))

end HttpInput

end IdealServer
