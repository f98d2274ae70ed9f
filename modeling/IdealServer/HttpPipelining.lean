import IdealServer.HttpSegments
import IdealServer.HttpServer

/-! Requests that come one behind the other on a connection. After each read the server calls `parseRequest`
once, so that it answers one of them at most; what is behind it waits for the next read. -/
namespace IdealServer
open Lines Search

/-- The text of a request that the parser accepts. -/
structure HttpText where
  line : RequestLine
  headers : List Bytes
  line_plain : ¬ kCRLF <:+: line.text
  headers_plain : ∀ h ∈ headers, 58 ∈ h ∧ ¬ kCRLF <:+: h

namespace HttpText

def lines (r : HttpText) : List Bytes := r.line.lines r.headers

def message (r : HttpText) : Bytes := r.line.message r.headers

/-- What it says. -/
def request (r : HttpText) : HttpRequest := (r.line.apply .new).addHeaders r.headers

/-- What a client sends. -/
def wireText (rs : List HttpText) : Bytes := rs.flatMap message

theorem wireText_cons (r : HttpText) (rs : List HttpText) : wireText (r :: rs) = unlines kCRLF r.lines ++ wireText rs :=
  List.flatMap_cons

theorem wireText_append (rs rs' : List HttpText) : wireText (rs ++ rs') = wireText rs ++ wireText rs' :=
  List.flatMap_append

theorem lines_plain (r : HttpText) : ∀ l ∈ r.lines, ¬ kCRLF <:+: l := by
  intro l hl
  rw [lines, RequestLine.lines, List.mem_cons, List.mem_append, List.mem_singleton] at hl
  rcases hl with rfl | hl | rfl
  · exact r.line_plain
  · exact (r.headers_plain l hl).2
  · decide

theorem expects (r : HttpText) : HttpContext.Expects r.request .new r.lines :=
  .requestLine (fun h hh => (r.headers_plain h hh).1) ⟨rfl, rfl, rfl, rfl, rfl⟩

/-- How many requests are answered behind the first `done`, when `sent` bytes have been read and reads of these
lengths follow. -/
def answered (rs : List HttpText) (done sent : ℕ) : List ℕ → ℕ
  | [] => done
  | n :: ns =>
    if done < rs.length ∧ (wireText (rs.take (done+1))).length ≤ sent+n then answered rs (done+1) (sent+n) ns
    else answered rs done (sent+n) ns

/-- One of them at most for each read. -/
theorem answered_le (rs : List HttpText) (done sent : ℕ) (ns : List ℕ) :
    answered rs done sent ns ≤ done+ns.length := by
  induction ns generalizing done sent with
  | nil => exact Nat.le_refl _
  | cons n ns ih =>
    rw [answered, List.length_cons]
    split
    · have h := ih (done+1) (sent+n)
      omega
    · have h := ih done (sent+n)
      omega

theorem le_answered (rs : List HttpText) (done sent : ℕ) (ns : List ℕ) : done ≤ answered rs done sent ns := by
  induction ns generalizing done sent with
  | nil => exact Nat.le_refl _
  | cons n ns ih =>
    rw [answered]
    split
    · exact Nat.le_trans (Nat.le_succ done) (ih (done+1) (sent+n))
    · exact ih done (sent+n)

end HttpText

namespace HttpServer
open HttpText HttpInput
variable {httpCallback : HttpCallback} {conn conn' : HttpInput} {read : Bytes × ℤ} {rs pending : List HttpText}
  {todo : List Bytes}

/-- The lines of the first request that are still to come. -/
inductive Awaits : List HttpText → HttpContext → List Bytes → Prop
  | idle : Awaits [] .new []
  | request {r : HttpText} {later : List HttpText} {c : HttpContext} {taken todo : List Bytes}
      (h : HttpContext.Expects r.request c todo) (hlines : r.lines = taken ++ todo) (hne : todo ≠ []) :
      Awaits (r :: later) c todo

theorem awaits_new (pending : List HttpText) : Awaits pending .new (pending.head?.elim [] HttpText.lines) := by
  cases pending with
  | nil => exact .idle
  | cons r later => exact .request r.expects (List.nil_append _).symm (List.cons_ne_nil _ _)

theorem awaits_nil {c : HttpContext} (h : Awaits [] c todo) : c = .new ∧ todo = [] := by
  generalize hnil : ([] : List HttpText) = p at h
  cases h with
  | idle => exact ⟨rfl, rfl⟩
  | request _ _ _ => cases hnil

theorem awaits_cons {r : HttpText} {later : List HttpText} {c : HttpContext} (h : Awaits (r :: later) c todo) :
    HttpContext.Expects r.request c todo ∧ todo ≠ [] ∧ ∃ taken, r.lines = taken ++ todo := by
  generalize hcons : r :: later = p at h
  cases h with
  | idle => cases hcons
  | request hexpects hlines hne =>
    obtain ⟨rfl,rfl⟩ := List.cons.inj hcons
    exact ⟨hexpects, hne, _, hlines⟩

theorem Awaits.plain {c : HttpContext} (h : Awaits pending c todo) : ∀ l ∈ todo, ¬ kCRLF <:+: l := by
  cases h with
  | idle => exact fun l hl => absurd hl List.not_mem_nil
  | @request r later c taken todo _ hlines _ =>
    intro l hl
    apply r.lines_plain
    rw [hlines]
    exact List.mem_append_right taken hl

/-- `done` requests have been answered, `sent` bytes have been read, and `w` is still to come. -/
structure Serving (rs : List HttpText) (done sent : ℕ) (w : Bytes) (conn : HttpInput) (pending : List HttpText)
    (todo : List Bytes) : Prop where
  rest : pending = rs.drop done
  le : done ≤ rs.length
  awaits : Awaits pending conn.context todo
  stream : conn.buffer.readable ++ w = unlines kCRLF todo ++ wireText pending.tail
  count : sent+w.length = (wireText rs).length

theorem onMessage_receive {ok : Bool} (h : conn.receive read = .ok (conn', [ok])) :
    onMessage httpCallback conn read = .ok (afterParse httpCallback ok conn') := by
  cases hparse : conn.parse read with
  | error e =>
    rw [HttpInput.receive, hparse] at h
    cases h
  | ok r =>
    rw [HttpInput.receive, hparse] at h
    obtain ⟨rfl,hok⟩ := Prod.mk.inj (Except.ok.inj h)
    obtain rfl : r.1 = ok := (List.cons.inj hok).1
    exact onMessage_eq hparse

theorem onMessage_waits (h : conn.receive read = .ok (conn', [true])) (hno : conn'.context.gotAll = false) :
    onMessage httpCallback conn read = .ok (conn', []) := by
  rw [onMessage_receive h, afterParse, if_neg (by rw [hno]; decide)]
  rfl

theorem onMessage_answers (h : conn.receive read = .ok (conn', [true])) (hgot : conn'.context.gotAll = true) :
    onMessage httpCallback conn read =
      .ok (⟨.new, conn'.buffer⟩, onRequest httpCallback conn'.context.request) := by
  rw [onMessage_receive h, afterParse, if_pos hgot]
  rfl

section Step
variable {done sent : ℕ} {w : Bytes} {r : HttpText} {later : List HttpText}

/-- What is sent up to the end of the next request. -/
theorem Serving.sent_eq (h : Serving rs done sent w conn (r :: later) todo) :
    done < rs.length ∧ rs[done]? = some r ∧ later = rs.drop (done+1) ∧
      (wireText (rs.take (done+1))).length+conn.buffer.readable.length = sent+(unlines kCRLF todo).length := by
  have hrest := h.rest
  have hlt : done < rs.length := by
    by_contra hge
    rw [List.drop_eq_nil_of_le (Nat.le_of_not_lt hge)] at hrest
    cases hrest
  rw [List.drop_eq_getElem_cons hlt] at hrest
  obtain ⟨rfl,rfl⟩ := List.cons.inj hrest
  refine ⟨hlt, List.getElem?_eq_getElem hlt, rfl, ?_⟩
  have hall : (wireText rs).length = (wireText (rs.take (done+1))).length+(wireText (rs.drop (done+1))).length := by
    rw [← List.length_append, ← wireText_append, List.take_append_drop]
  have hstream := congrArg List.length h.stream
  rw [List.length_append, List.length_append, List.tail_cons] at hstream
  have hcount := h.count
  omega

/-- Where nothing is awaited nothing comes. -/
theorem Serving.idle (httpCallback : HttpCallback) (h : Serving rs done sent (read.1 ++ w) conn [] todo) : ∃ conn',
    onMessage httpCallback conn read = .ok (conn', []) ∧ Serving rs done (sent+read.1.length) w conn' [] todo := by
  have hstream := h.stream
  obtain ⟨hcontext,rfl⟩ := awaits_nil h.awaits
  obtain ⟨hbefore,hafter⟩ := List.append_eq_nil_iff.mp hstream
  obtain ⟨hread,rfl⟩ := List.append_eq_nil_iff.mp hafter
  obtain ⟨buf,happend,hbuf⟩ := conn.buffer.append_ok read.1
  rw [hbefore, hread] at hbuf
  have hnone : buf.findCRLF = none := by
    rw [Buffer.findCRLF, hbuf]
    decide
  have hparse : conn.context.parseRequest buf read.2 = .ok (some (true, conn.context, buf)) :=
    HttpContext.parseRequest_none (Or.inl (by rw [hcontext]; rfl)) hnone
  refine ⟨⟨conn.context, buf⟩, ?_, h.rest, h.le, h.awaits, ?_, ?_⟩
  · apply onMessage_waits (HttpInput.receive_eq happend hparse)
    rw [hcontext]
    rfl
  · exact congrArg (· ++ []) hbuf
  · rw [← h.count, hread]
    rfl

/-- A read behind which the request is not complete. -/
theorem Serving.part (httpCallback : HttpCallback) (h : Serving rs done sent (read.1 ++ w) conn (r :: later) todo)
    (hfew : ¬ (wireText (rs.take (done+1))).length ≤ sent+read.1.length) : ∃ conn' todo',
    onMessage httpCallback conn read = .ok (conn', []) ∧
      Serving rs done (sent+read.1.length) w conn' (r :: later) todo' := by
  obtain ⟨_,_,_,hsent⟩ := h.sent_eq
  obtain ⟨hexpects,hne,taken,hlines⟩ := awaits_cons h.awaits
  have hstream := h.stream
  rw [← List.append_assoc] at hstream
  have hlen : (conn.buffer.readable ++ read.1).length = conn.buffer.readable.length+read.1.length :=
    List.length_append
  -- what is in the buffer now is a part of the lines that are awaited
  obtain ⟨missing,hpart⟩ : conn.buffer.readable ++ read.1 <+: unlines kCRLF todo := by
    apply List.prefix_of_prefix_length_le ⟨w, hstream⟩ (List.prefix_append _ _)
    omega
  have hmissing : missing ≠ [] := by
    rintro rfl
    have hall := congrArg List.length hpart
    rw [List.append_nil] at hall
    omega
  obtain ⟨s1,taken',left,hread,h1,rfl,htext,hleft⟩ :=
    receive_part hexpects h.awaits.plain hmissing hpart
  have hne' : left ≠ [] := by
    rintro rfl
    rw [unlines_nil, List.append_eq_nil_iff] at hleft
    exact hmissing hleft.2
  refine ⟨s1, left, onMessage_waits hread ?_, h.rest, h.le, ?_, ?_, ?_⟩
  · rw [h1.gotAll_eq]
    exact List.isEmpty_eq_false_iff.mpr hne'
  · exact .request h1 (hlines.trans (List.append_assoc _ _ _).symm) hne'
  · have hrest : unlines kCRLF taken' ++ (s1.buffer.readable ++ w) =
        unlines kCRLF taken' ++ (unlines kCRLF left ++ wireText later) := by
      rw [← List.append_assoc, ← htext, hstream, unlines_append, List.append_assoc]
      rfl
    exact List.append_cancel_left hrest
  · have hcount := h.count
    rw [List.length_append] at hcount
    omega

/-- A read with which it is complete. The ones behind it stay in the buffer. -/
theorem Serving.whole (httpCallback : HttpCallback) (h : Serving rs done sent (read.1 ++ w) conn (r :: later) todo)
    (hmany : (wireText (rs.take (done+1))).length ≤ sent+read.1.length) : ∃ conn' q todo',
    onMessage httpCallback conn read = .ok (conn', onRequest httpCallback q) ∧ q.SameContent r.request ∧
      Serving rs (done+1) (sent+read.1.length) w conn' later todo' := by
  obtain ⟨hlt,_,hlater,hsent⟩ := h.sent_eq
  obtain ⟨hexpects,hne,_⟩ := awaits_cons h.awaits
  have hstream := h.stream
  rw [← List.append_assoc] at hstream
  have hlen : (conn.buffer.readable ++ read.1).length = conn.buffer.readable.length+read.1.length :=
    List.length_append
  -- all lines that are awaited are in the buffer now
  obtain ⟨rest,hwhole⟩ : unlines kCRLF todo <+: conn.buffer.readable ++ read.1 := by
    apply List.prefix_of_prefix_length_le (List.prefix_append _ _) ⟨w, hstream⟩
    omega
  obtain ⟨s1,hread,hgot,hrest,hq⟩ := receive_whole hexpects hne h.awaits.plain hwhole.symm
  refine ⟨⟨.new, s1.buffer⟩, s1.context.request, _, onMessage_answers hread hgot, hq, hlater, hlt,
    awaits_new later, ?_, ?_⟩
  · rw [← hwhole, List.append_assoc] at hstream
    have hafter : rest ++ w = wireText later := List.append_cancel_left hstream
    rw [hrest, hafter]
    cases later with
    | nil => rfl
    | cons r later => exact wireText_cons r later
  · have hcount := h.count
    rw [List.length_append] at hcount
    omega

end Step

theorem serving_run (httpCallback : HttpCallback) {done sent : ℕ} {reads : List (Bytes × ℤ)} {w : Bytes}
    (h : Serving rs done sent (content reads ++ w) conn pending todo) : ∃ conn' served,
    Runs.run (onMessage httpCallback) conn reads = .ok (conn', served.flatMap (onRequest httpCallback)) ∧
      List.Forall₂ (fun q r => q.SameContent r.request) served
        ((rs.take (answered rs done sent (reads.map (fun read => read.1.length)))).drop done) := by
  induction reads generalizing done sent conn pending todo with
  | nil =>
    refine ⟨conn, [], rfl, ?_⟩
    have hnone : (rs.take done).drop done = [] := List.drop_eq_nil_of_le (List.length_take_le _ _)
    rw [List.map_nil, answered, hnone]
    exact .nil
  | cons read reads ih =>
    rw [content_cons, List.append_assoc] at h
    rw [List.map_cons, answered]
    cases pending with
    -- all requests have been answered
    | nil =>
      have hno : ¬ (done < rs.length ∧ (wireText (rs.take (done+1))).length ≤ sent+read.1.length) := by
        intro hyes
        exact absurd (List.drop_eq_nil_iff.mp h.rest.symm) (Nat.not_le_of_lt hyes.1)
      obtain ⟨conn1,hread,h1⟩ := h.idle httpCallback
      obtain ⟨conn2,served,hrun,hserved⟩ := ih h1
      rw [if_neg hno]
      exact ⟨conn2, served, Runs.run_cons_of_ok hread hrun, hserved⟩
    | cons r later =>
      obtain ⟨hlt,hr,_,_⟩ := h.sent_eq
      by_cases hmany : (wireText (rs.take (done+1))).length ≤ sent+read.1.length
      · obtain ⟨conn1,q,todo1,hread,hq,h1⟩ := h.whole httpCallback hmany
        obtain ⟨conn2,served,hrun,hserved⟩ := ih h1
        rw [if_pos ⟨hlt, hmany⟩]
        refine ⟨conn2, q :: served, Runs.run_cons_of_ok hread hrun, ?_⟩
        have hmore := le_answered rs (done+1) (sent+read.1.length) (reads.map (fun read => read.1.length))
        generalize answered rs (done+1) (sent+read.1.length) (reads.map (fun read => read.1.length)) = n
          at hserved hmore
        have hhead : (rs.take n).drop done = r :: (rs.take n).drop (done+1) := by
          have hlt' : done < (rs.take n).length := by
            rw [List.length_take]
            omega
          rw [List.drop_eq_getElem_cons hlt', List.getElem_take]
          rw [List.getElem?_eq_getElem hlt] at hr
          rw [Option.some.inj hr]
        rw [hhead]
        exact .cons hq hserved
      · obtain ⟨conn1,todo1,hread,h1⟩ := h.part httpCallback hmany
        obtain ⟨conn2,served,hrun,hserved⟩ := ih h1
        rw [if_neg (fun hyes => hmany hyes.2)]
        exact ⟨conn2, served, Runs.run_cons_of_ok hread hrun, hserved⟩

/-- Requests one behind the other, cut into reads in any way: they are answered in their order, and with every
read the next one if it is complete by then. -/
theorem pipelined_requests (httpCallback : HttpCallback) (rs : List HttpText) (reads : List (Bytes × ℤ))
    (hreads : content reads <+: wireText rs) : ∃ conn served,
    Runs.run (onMessage httpCallback) newConnection reads =
        .ok (conn, served.flatMap (onRequest httpCallback)) ∧
      List.Forall₂ (fun q r => q.SameContent r.request) served
        (rs.take (answered rs 0 0 (reads.map (fun read => read.1.length)))) ∧ served.length ≤ reads.length := by
  obtain ⟨w,hw⟩ := hreads
  have hstart : Serving rs 0 0 (content reads ++ w) newConnection rs (rs.head?.elim [] HttpText.lines) := by
    refine ⟨rfl, Nat.zero_le _, awaits_new rs, ?_, ?_⟩
    · rw [hw]
      cases rs with
      | nil => rfl
      | cons r later => exact wireText_cons r later
    · rw [hw, Nat.zero_add]
  obtain ⟨conn,served,hrun,hserved⟩ := serving_run httpCallback hstart
  rw [List.drop_zero] at hserved
  refine ⟨conn, served, hrun, hserved, ?_⟩
  have hmost := answered_le rs 0 0 (reads.map (fun read => read.1.length))
  rw [hserved.length_eq, List.length_take]
  rw [List.length_map] at hmost
  omega

def aHttpText : HttpText := ⟨aRequestLine, [ascii "Host: c"], by decide, by decide⟩

/-- Of two requests in one read the second one is not answered. -/
theorem pipelined_requests_two : ∃ (conn : HttpInput) (served : List HttpRequest),
    Runs.run (onMessage defaultHttpCallback) newConnection [(wireText [aHttpText, aHttpText], 0)] =
      .ok (conn, served.flatMap (onRequest defaultHttpCallback)) ∧ served.length = 1 := by
  have hall : content [(wireText [aHttpText, aHttpText], 0)] <+: wireText [aHttpText, aHttpText] := by
    rw [content_cons]
    exact ⟨[], by rw [List.append_nil, content, List.flatMap_nil, List.append_nil]⟩
  obtain ⟨conn,served,hrun,hserved,_⟩ := pipelined_requests defaultHttpCallback [aHttpText, aHttpText]
    [(wireText [aHttpText, aHttpText], 0)] hall
  refine ⟨conn, served, hrun, ?_⟩
  rw [hserved.length_eq]
  decide

end HttpServer

end IdealServer
