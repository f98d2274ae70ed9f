import IdealServer.Lines
import IdealServer.OutgoingStream
import Mathlib.Data.List.Perm.Subperm

/-! `send` and `shutdown` on one `TcpConnection` from its loop thread and from other threads. The
other threads queue functors, which the loop runs in order; `k` is how many bytes a `write(2)` takes
at most. -/
namespace IdealServer

/-- `inTime`: the call of `send` returned before `shutdown` was called. -/
inductive TcpFunctor
  | sendInLoop (message : Bytes) (inTime : Bool)
  | shutdownInLoop

structure SharedConnection where
  conn : TcpConnection
  /-- The calls of `send` that have seen `kConnected` and have not posted yet. -/
  calls : List Bytes
  /-- The calls of `shutdown` that have seen `kConnected`, before and after they set the state. -/
  seen : ℕ
  set : ℕ
  /-- Whether there has been such a call. -/
  called : Bool
  pending : List TcpFunctor

inductive SharedEvent
  /-- `send` and `shutdown` on the loop thread. -/
  | send (message : Bytes) (k : ℕ)
  | shutdown
  /-- The same on other threads, where a call tests the state, sets it and posts in steps. -/
  | sendElsewhere (message : Bytes)
  | post (i : ℕ)
  | shutdownElsewhere
  | setState
  | postShutdown
  | runFunctor (k : ℕ)
  | handleWrite (k : ℕ)

inductive SharedObs
  /-- A call of `send` that has seen `kConnected` returns. -/
  | returned (message : Bytes)
  /-- A call of `shutdown` sees `kConnected`. -/
  | shutdownCalled
  | sendInLoop (message : Bytes)
  | effect (e : TcpEffect)

namespace SharedConnection

def new (highWaterMark : ℕ) (hasWriteComplete hasHighWaterMark : Bool) : SharedConnection :=
  ⟨TcpConnection.established highWaterMark hasWriteComplete hasHighWaterMark, [], 0, 0, false, []⟩

def sendInLoop (s : SharedConnection) (message : Bytes) (k : ℕ) :
    Except Fault (SharedConnection × List SharedObs) := do
  let (conn, effects) ← s.conn.sendInLoop message (.wrote k)
  return ({ s with conn := conn }, .sendInLoop message :: effects.map SharedObs.effect)

def step (s : SharedConnection) : SharedEvent → Except Fault (SharedConnection × List SharedObs)
  | .send message k =>
    if s.conn.state = .kConnected then do
      let (s, out) ← s.sendInLoop message k
      return (s, out ++ [.returned message])
    else .ok (s, [])
  | .shutdown =>
    if s.conn.state = .kConnected then
      .ok ({ s with conn := s.conn.shutdown, called := true },
        .shutdownCalled :: s.conn.shutdownInLoop.map SharedObs.effect)
    else .ok (s, [])
  | .sendElsewhere message =>
    if s.conn.state = .kConnected then .ok ({ s with calls := message :: s.calls }, [])
    else .ok (s, [])
  | .post i =>
    match s.calls[i]? with
    | none => .ok (s, [])
    | some message => .ok ({ s with
        calls := s.calls.eraseIdx i
        pending := s.pending ++ [.sendInLoop message (!s.called)] }, [.returned message])
  | .shutdownElsewhere =>
    if s.conn.state = .kConnected then
      .ok ({ s with seen := s.seen+1, called := true }, [.shutdownCalled])
    else .ok (s, [])
  | .setState =>
    if 0 < s.seen then
      .ok ({ s with
        conn := { s.conn with state := .kDisconnecting }, seen := s.seen-1, set := s.set+1 }, [])
    else .ok (s, [])
  | .postShutdown =>
    if 0 < s.set then
      .ok ({ s with set := s.set-1, pending := s.pending ++ [.shutdownInLoop] }, [])
    else .ok (s, [])
  | .runFunctor k =>
    match s.pending with
    | [] => .ok (s, [])
    | .sendInLoop message _ :: rest => { s with pending := rest }.sendInLoop message k
    | .shutdownInLoop :: rest =>
      .ok ({ s with pending := rest }, s.conn.shutdownInLoop.map SharedObs.effect)
  | .handleWrite k => do
    let (conn, effects) ← s.conn.handleWrite (.wrote k)
    return ({ s with conn := conn }, effects.map SharedObs.effect)

def run : SharedConnection → List SharedEvent → Except Fault (SharedConnection × List SharedObs) :=
  Runs.run step

end SharedConnection

namespace SharedObs

/-- The messages for which `sendInLoop` has begun. -/
def begun (out : List SharedObs) : List Bytes :=
  out.filterMap (fun o =>
    match o with
    | .sendInLoop message => some message
    | _ => none)

def effects (out : List SharedObs) : List TcpEffect :=
  out.filterMap (fun o =>
    match o with
    | .effect e => some e
    | _ => none)

/-- The messages of the calls that returned before `shutdown` was called. -/
def accepted : List SharedObs → List Bytes
  | [] => []
  | .shutdownCalled :: _ => []
  | .returned message :: out => message :: accepted out
  | _ :: out => accepted out

@[simp] theorem begun_append (a b : List SharedObs) : begun (a ++ b) = begun a ++ begun b :=
  List.filterMap_append

@[simp] theorem effects_append (a b : List SharedObs) : effects (a ++ b) = effects a ++ effects b :=
  List.filterMap_append

@[simp] theorem begun_effects (e : List TcpEffect) : begun (e.map SharedObs.effect) = [] := by
  rw [begun, List.filterMap_map]
  exact List.filterMap_eq_nil_iff.mpr (fun _ _ => rfl)

@[simp] theorem effects_effects (e : List TcpEffect) : effects (e.map SharedObs.effect) = e := by
  rw [effects, List.filterMap_map]
  exact List.filterMap_some

/-- After the call of `shutdown` no message counts. -/
theorem accepted_append_of_mem {a b : List SharedObs} (h : .shutdownCalled ∈ a) :
    accepted (a ++ b) = accepted a := by
  induction a with
  | nil => cases h
  | cons o a ih =>
    cases o with
    | shutdownCalled => rfl
    | returned message =>
      have hrest := (List.mem_cons.mp h).resolve_left (fun heq => by cases heq)
      exact congrArg (message :: ·) (ih hrest)
    | sendInLoop message => exact ih ((List.mem_cons.mp h).resolve_left (fun heq => by cases heq))
    | effect e => exact ih ((List.mem_cons.mp h).resolve_left (fun heq => by cases heq))

theorem accepted_append_of_notMem {a b : List SharedObs} (h : .shutdownCalled ∉ a) :
    accepted (a ++ b) = accepted a ++ accepted b := by
  induction a with
  | nil => rfl
  | cons o a ih =>
    have hrest : .shutdownCalled ∉ a := fun hmem => h (List.mem_cons_of_mem _ hmem)
    cases o with
    | shutdownCalled => exact absurd List.mem_cons_self h
    | returned message => exact congrArg (message :: ·) (ih hrest)
    | sendInLoop message => exact ih hrest
    | effect e => exact ih hrest

/-- What brings no message by itself brings none behind anything. -/
theorem accepted_append_of_nil {a b : List SharedObs} (h : accepted b = []) :
    accepted (a ++ b) = accepted a := by
  by_cases hmem : SharedObs.shutdownCalled ∈ a
  · exact accepted_append_of_mem hmem
  · rw [accepted_append_of_notMem hmem, h, List.append_nil]

theorem accepted_effects (e : List TcpEffect) (out : List SharedObs) :
    accepted (e.map SharedObs.effect ++ out) = accepted out := by
  induction e with
  | nil => rfl
  | cons e es ih => exact ih

theorem shutdownCalled_notMem (e : List TcpEffect) : .shutdownCalled ∉ e.map SharedObs.effect := by
  intro h
  obtain ⟨_,_,heq⟩ := List.mem_map.mp h
  cases heq

end SharedObs

namespace SharedConnection
open SharedObs

/-- The messages of the queued functors whose calls returned in time. -/
def due (pending : List TcpFunctor) : List Bytes :=
  pending.filterMap (fun f =>
    match f with
    | .sendInLoop message true => some message
    | _ => none)

@[simp] theorem due_append (a b : List TcpFunctor) : due (a ++ b) = due a ++ due b :=
  List.filterMap_append

/-- The socket is shut down for writing while a message that was accepted still is in a functor. -/
def Cuts (s : SharedConnection) : SharedEvent → Prop
  | .shutdown => s.conn.state = .kConnected ∧ s.conn.channel.writing = false ∧ due s.pending ≠ []
  | .handleWrite k => s.conn.state = .kDisconnecting ∧ s.conn.channel.writing = true ∧
      0 < k ∧ s.conn.outputBuffer.readableBytes ≤ k ∧ due s.pending ≠ []
  | _ => False

/-- Everything that has been given to `sendInLoop` is written, with every message that was accepted. -/
def Complete (out : List SharedObs) : Prop :=
  written (effects out) = (begun out).flatten ∧ (accepted out).Subperm (begun out)

/-- So it is whenever the socket is shut down. -/
def Graceful (out : List SharedObs) : Prop :=
  ∀ o1 o2, out = o1 ++ .effect .shutdownWrite :: o2 → Complete o1

structure Invariant (s : SharedConnection) (acc : List SharedObs) : Prop where
  synced : s.conn.Synced
  isOpen : s.conn.state ≠ .kDisconnected
  called : s.called = true ↔ .shutdownCalled ∈ acc
  counted : 0 < s.seen ∨ 0 < s.set ∨ .shutdownInLoop ∈ s.pending → s.called = true
  stream : written (effects acc) ++ s.conn.outputBuffer.readable = (begun acc).flatten
  accepted : (accepted acc).Subperm (begun acc ++ due s.pending)
  order : ∀ a b, s.pending = a ++ .shutdownInLoop :: b → due b = []

variable {s s' : SharedConnection} {acc out : List SharedObs} {message : Bytes} {k : ℕ}

theorem Graceful.append (hacc : Graceful acc)
    (hout : ∀ o1 o2, out = o1 ++ .effect .shutdownWrite :: o2 → Complete (acc ++ o1)) :
    Graceful (acc ++ out) := by
  intro o1 o2 h
  rcases Lines.append_eq_append_cons h with ⟨t,rfl,hmid⟩ | ⟨t,hfront,_⟩
  · exact hout t o2 hmid
  · exact hacc o1 t hfront

theorem Graceful.append_of_notMem (hacc : Graceful acc) (hout : .effect .shutdownWrite ∉ out) :
    Graceful (acc ++ out) := by
  apply hacc.append
  rintro o1 o2 rfl
  exact absurd (List.mem_append_right o1 List.mem_cons_self) hout

/-- With an empty buffer and no message in a functor everything is written. -/
theorem Invariant.complete (hI : s.Invariant acc) (hwriting : s.conn.channel.writing = false)
    (hdue : due s.pending = []) : Complete acc := by
  have hempty : s.conn.outputBuffer.readable = [] := by
    by_contra hne
    rw [hI.synced.mpr hne] at hwriting
    cases hwriting
  have hstream := hI.stream
  have haccepted := hI.accepted
  rw [hempty, List.append_nil] at hstream
  rw [hdue, List.append_nil] at haccepted
  exact ⟨hstream, haccepted⟩

/-- What one execution of `sendInLoop` does. -/
theorem sendInLoop_cases (hs : s.conn.Synced) (hopen : s.conn.state ≠ .kDisconnected)
    (h : s.sendInLoop message k = .ok (s', out)) : ∃ (conn : TcpConnection) (effects : List TcpEffect),
      s' = { s with conn := conn } ∧ conn.Synced ∧ conn.state = s.conn.state ∧
      out = .sendInLoop message :: effects.map SharedObs.effect ∧
      written effects ++ conn.outputBuffer.readable = s.conn.outputBuffer.readable ++ message ∧
      .shutdownWrite ∉ effects := by
  obtain ⟨⟨conn,effects⟩,hsend,h⟩ := Runs.bind_ok h
  obtain ⟨rfl,rfl⟩ := Prod.mk.inj (Except.ok.inj h)
  obtain ⟨conn',effects',hok,hs',hstate,hstream⟩ := s.conn.sendInLoop_stream hs hopen message (.wrote k)
  obtain ⟨rfl,rfl⟩ := Prod.mk.inj (Except.ok.inj (hsend.symm.trans hok))
  refine ⟨conn, effects, rfl, hs', hstate, rfl, ?_, ?_⟩
  · rw [hstream, TcpConnection.dropsMessage]
    simp
  · intro hmem
    rcases (TcpConnection.sendInLoop_frame hsend).2.2 _ hmem with ⟨_,heq⟩ | heq | ⟨_,heq⟩ <;> cases heq

theorem Invariant.called_append (hI : s.Invariant acc) (hsame : s'.called = s.called)
    (hout : .shutdownCalled ∉ out) : s'.called = true ↔ .shutdownCalled ∈ acc ++ out := by
  rw [hsame, hI.called, List.mem_append]
  exact (or_iff_left hout).symm

theorem Invariant.stream_append (hI : s.Invariant acc)
    (hout : written (effects out) ++ s'.conn.outputBuffer.readable =
      s.conn.outputBuffer.readable ++ (begun out).flatten) :
    written (effects (acc ++ out)) ++ s'.conn.outputBuffer.readable = (begun (acc ++ out)).flatten := by
  calc
    written (effects (acc ++ out)) ++ s'.conn.outputBuffer.readable
      = written (effects acc) ++ (written (effects out) ++ s'.conn.outputBuffer.readable) := by
        rw [effects_append, written_append, List.append_assoc]
    _ = written (effects acc) ++ s.conn.outputBuffer.readable ++ (begun out).flatten := by
        rw [hout, List.append_assoc]
    _ = (begun (acc ++ out)).flatten := by rw [hI.stream, begun_append, List.flatten_append]

/-- Steps that accept no message. -/
theorem Invariant.accepted_append (hI : s.Invariant acc) (hout : SharedObs.accepted out = [])
    (hkept : (due s.pending).Subperm (begun out ++ due s'.pending)) :
    (SharedObs.accepted (acc ++ out)).Subperm (begun (acc ++ out) ++ due s'.pending) := by
  rw [accepted_append_of_nil hout, begun_append, List.append_assoc]
  exact hI.accepted.trans ((List.subperm_append_left _).mpr hkept)

/-- A message that is accepted unless `shutdown` has been called. -/
theorem Invariant.accepted_returned (hI : s.Invariant acc)
    (hout : SharedObs.accepted out = [message])
    (hin : s.called = false → (due s.pending ++ [message]).Subperm (begun out ++ due s'.pending))
    (hlate : (due s.pending).Subperm (begun out ++ due s'.pending)) :
    (SharedObs.accepted (acc ++ out)).Subperm (begun (acc ++ out) ++ due s'.pending) := by
  rw [begun_append, List.append_assoc]
  cases hcalled : s.called with
  | false =>
    have hnot : .shutdownCalled ∉ acc := fun h => by
      rw [hI.called.mpr h] at hcalled
      cases hcalled
    rw [accepted_append_of_notMem hnot, hout]
    have hall : (SharedObs.accepted acc ++ [message]).Subperm
        (begun acc ++ (due s.pending ++ [message])) := by
      rw [← List.append_assoc]
      exact (List.subperm_append_right _).mpr hI.accepted
    exact hall.trans ((List.subperm_append_left _).mpr (hin hcalled))
  | true =>
    rw [accepted_append_of_mem (hI.called.mp hcalled)]
    exact hI.accepted.trans ((List.subperm_append_left _).mpr hlate)

theorem Invariant.send (hI : s.Invariant acc) (hg : Graceful acc)
    (h : s.step (.send message k) = .ok (s', out)) :
    s'.Invariant (acc ++ out) ∧ Graceful (acc ++ out) := by
  by_cases hconnected : s.conn.state = .kConnected
  case neg =>
    obtain ⟨rfl,rfl⟩ := Prod.mk.inj (Except.ok.inj ((if_neg hconnected).symm.trans h))
    rw [List.append_nil]
    exact ⟨hI, hg⟩
  case pos =>
    replace h : (s.sendInLoop message k).bind (fun r => .ok (r.1, r.2 ++ [.returned message])) =
        .ok (s', out) := (if_pos hconnected).symm.trans h
    obtain ⟨⟨s1,out1⟩,hsend,h⟩ := Runs.bind_ok h
    obtain ⟨rfl,rfl⟩ := Prod.mk.inj (Except.ok.inj h)
    obtain ⟨conn,effects,rfl,hsynced,hstate,rfl,hstream,hnot⟩ :=
      sendInLoop_cases hI.synced hI.isOpen hsend
    have hbegun : begun (.sendInLoop message :: effects.map SharedObs.effect ++ [.returned message]) =
        [message] := by
      show message :: begun (effects.map SharedObs.effect ++ [.returned message]) = _
      rw [begun_append, begun_effects]
      rfl
    have heffects : SharedObs.effects (.sendInLoop message :: effects.map SharedObs.effect ++
        [.returned message]) = effects := by
      show SharedObs.effects (effects.map SharedObs.effect ++ [.returned message]) = _
      rw [effects_append, effects_effects]
      exact List.append_nil _
    refine ⟨⟨hsynced, hstate ▸ hI.isOpen, hI.called_append rfl (by simp), hI.counted, ?_, ?_, hI.order⟩,
      hg.append_of_notMem (by simp [hnot])⟩
    · apply hI.stream_append
      rw [heffects, hbegun, hstream, List.flatten_singleton]
    · apply hI.accepted_returned
      · show SharedObs.accepted (effects.map SharedObs.effect ++ [.returned message]) = [message]
        exact accepted_effects effects _
      · intro _
        rw [hbegun]
        exact List.perm_append_comm.subperm
      · rw [hbegun]
        exact (List.sublist_cons_self message _).subperm

theorem Invariant.runSend (hI : s.Invariant acc) (hg : Graceful acc) {inTime : Bool}
    {rest : List TcpFunctor} (hpending : s.pending = .sendInLoop message inTime :: rest)
    (h : { s with pending := rest }.sendInLoop message k = .ok (s', out)) :
    s'.Invariant (acc ++ out) ∧ Graceful (acc ++ out) := by
  obtain ⟨conn,effects,rfl,hsynced,hstate,rfl,hstream,hnot⟩ := sendInLoop_cases
    (show ({ s with pending := rest } : SharedConnection).conn.Synced from hI.synced) hI.isOpen h
  have hbegun : begun (.sendInLoop message :: effects.map SharedObs.effect) = [message] := by
    show message :: begun (effects.map SharedObs.effect) = _
    rw [begun_effects]
  refine ⟨⟨hsynced, hstate ▸ hI.isOpen, hI.called_append rfl (by simp), ?_, ?_, ?_, ?_⟩,
    hg.append_of_notMem (by simp [hnot])⟩
  · intro hcount
    apply hI.counted
    rw [hpending]
    exact hcount.imp_right (fun hcount => hcount.imp_right (List.mem_cons_of_mem _))
  · apply hI.stream_append
    show written (SharedObs.effects (effects.map SharedObs.effect)) ++ _ = _
    rw [effects_effects, hbegun, hstream, List.flatten_singleton]
  · apply hI.accepted_append
    · have haccepted := accepted_effects effects []
      rw [List.append_nil] at haccepted
      exact haccepted
    · rw [hpending, hbegun]
      -- a message that was posted in time moves from the queue to those that have begun
      cases inTime with
      | true => exact List.Subperm.refl _
      | false => exact (List.sublist_cons_self message _).subperm
  · intro a b hrest
    replace hrest : rest = a ++ .shutdownInLoop :: b := hrest
    apply hI.order (.sendInLoop message inTime :: a) b
    rw [hpending, hrest]
    rfl

/-- Observations that bring neither messages nor bytes. -/
theorem Complete.append {quiet : List SharedObs} (h : Complete acc) (hbegun : begun quiet = [])
    (hwritten : written (effects quiet) = []) (haccepted : accepted quiet = []) :
    Complete (acc ++ quiet) := by
  unfold Complete
  rw [begun_append, effects_append, written_append, accepted_append_of_nil haccepted, hbegun, hwritten,
    List.append_nil, List.append_nil]
  exact h

theorem shutdownInLoop_split {c : TcpConnection} {o1 o2 : List SharedObs}
    (h : c.shutdownInLoop.map SharedObs.effect = o1 ++ .effect .shutdownWrite :: o2) :
    o1 = [] ∧ c.channel.writing = false := by
  unfold TcpConnection.shutdownInLoop at h
  split at h
  case isTrue => cases o1 <;> cases h
  case isFalse hwriting =>
    refine ⟨?_, eq_false_of_ne_true hwriting⟩
    cases o1 with
    | nil => rfl
    | cons o o1 =>
      obtain ⟨_,htail⟩ := List.cons.inj h
      cases o1 <;> cases htail

theorem shutdown_eq {c : TcpConnection} (h : c.state = .kConnected) :
    c.shutdown = { c with state := .kDisconnecting } := if_pos h

theorem Invariant.shutdown (hI : s.Invariant acc) (hg : Graceful acc) (hcuts : ¬ s.Cuts .shutdown)
    (h : s.step .shutdown = .ok (s', out)) :
    s'.Invariant (acc ++ out) ∧ Graceful (acc ++ out) := by
  by_cases hconnected : s.conn.state = .kConnected
  case neg =>
    obtain ⟨rfl,rfl⟩ := Prod.mk.inj (Except.ok.inj ((if_neg hconnected).symm.trans h))
    rw [List.append_nil]
    exact ⟨hI, hg⟩
  case pos =>
    obtain ⟨rfl,rfl⟩ := Prod.mk.inj (Except.ok.inj ((if_pos hconnected).symm.trans h))
    have hquiet : begun (.shutdownCalled :: s.conn.shutdownInLoop.map SharedObs.effect) = [] :=
      begun_effects _
    have hwritten : written (SharedObs.effects
        (.shutdownCalled :: s.conn.shutdownInLoop.map SharedObs.effect)) = [] := by
      show written (SharedObs.effects (s.conn.shutdownInLoop.map SharedObs.effect)) = []
      rw [effects_effects, TcpConnection.written_shutdownInLoop]
    rw [shutdown_eq hconnected]
    refine ⟨⟨hI.synced, fun h => (by cases h), ?_, fun _ => rfl, ?_, ?_, hI.order⟩, ?_⟩
    · exact iff_of_true rfl (List.mem_append_right _ List.mem_cons_self)
    · apply hI.stream_append
      rw [hwritten, hquiet]
      exact (List.append_nil _).symm
    · apply hI.accepted_append rfl
      rw [hquiet]
      exact List.Subperm.refl _
    · apply hg.append
      intro o1 o2 hsplit
      cases o1 with
      | nil => cases hsplit
      | cons o o1 =>
        obtain ⟨rfl,hrest⟩ := List.cons.inj hsplit
        obtain ⟨rfl,hwriting⟩ := shutdownInLoop_split hrest
        have hdue : due s.pending = [] := by
          by_contra hne
          exact hcuts ⟨hconnected, hwriting, hne⟩
        exact (hI.complete hwriting hdue).append rfl rfl rfl

theorem Invariant.post (hI : s.Invariant acc) (hg : Graceful acc) {i : ℕ}
    (h : s.step (.post i) = .ok (s', out)) : s'.Invariant (acc ++ out) ∧ Graceful (acc ++ out) := by
  dsimp only [step] at h
  split at h
  case h_1 =>
    obtain ⟨rfl,rfl⟩ := Prod.mk.inj (Except.ok.inj h)
    rw [List.append_nil]
    exact ⟨hI, hg⟩
  case h_2 message hcall =>
    obtain ⟨rfl,rfl⟩ := Prod.mk.inj (Except.ok.inj h)
    have hdue : due s.pending ++ due [.sendInLoop message (!s.called)] =
        due (s.pending ++ [.sendInLoop message (!s.called)]) := (due_append _ _).symm
    refine ⟨⟨hI.synced, hI.isOpen, hI.called_append rfl (by simp), ?_, ?_, ?_, ?_⟩,
      hg.append_of_notMem (by simp)⟩
    · intro hcount
      apply hI.counted
      apply hcount.imp_right
      intro hcount
      apply hcount.imp_right
      intro hmem
      exact (List.mem_append.mp hmem).resolve_right (by simp)
    · exact hI.stream_append (List.append_nil _).symm
    · apply hI.accepted_returned rfl
      · intro hcalled
        rw [← hdue, hcalled]
        exact List.Subperm.refl _
      · rw [← hdue]
        exact (List.sublist_append_left _ _).subperm
    · intro a b hsplit
      rcases Lines.append_eq_append_cons hsplit with ⟨t,rfl,hlast⟩ | ⟨t,hfront,rfl⟩
      · cases t with
        | nil => cases hlast
        | cons f t => cases t <;> cases (List.cons.inj hlast).2
      · -- the functor of `shutdown` was there before, so the call has come too late
        have hcalled := hI.counted (Or.inr (Or.inr
          (hfront ▸ List.mem_append_right _ List.mem_cons_self)))
        rw [due_append, hI.order a t hfront, hcalled]
        rfl

theorem Invariant.shutdownElsewhere (hI : s.Invariant acc) (hg : Graceful acc)
    (h : s.step .shutdownElsewhere = .ok (s', out)) :
    s'.Invariant (acc ++ out) ∧ Graceful (acc ++ out) := by
  by_cases hconnected : s.conn.state = .kConnected
  · obtain ⟨rfl,rfl⟩ := Prod.mk.inj (Except.ok.inj ((if_pos hconnected).symm.trans h))
    refine ⟨⟨hI.synced, hI.isOpen, ?_, fun _ => rfl, ?_, ?_, hI.order⟩, hg.append_of_notMem (by simp)⟩
    · exact iff_of_true rfl (List.mem_append_right _ List.mem_cons_self)
    · exact hI.stream_append (List.append_nil _).symm
    · exact hI.accepted_append rfl (List.Subperm.refl _)
  · obtain ⟨rfl,rfl⟩ := Prod.mk.inj (Except.ok.inj ((if_neg hconnected).symm.trans h))
    rw [List.append_nil]
    exact ⟨hI, hg⟩

theorem Invariant.setState (hI : s.Invariant acc) (hg : Graceful acc)
    (h : s.step .setState = .ok (s', out)) :
    s'.Invariant (acc ++ out) ∧ Graceful (acc ++ out) := by
  by_cases hseen : 0 < s.seen
  · obtain ⟨rfl,rfl⟩ := Prod.mk.inj (Except.ok.inj ((if_pos hseen).symm.trans h))
    rw [List.append_nil]
    exact ⟨⟨hI.synced, fun h => (by cases h), hI.called, fun _ => hI.counted (Or.inl hseen), hI.stream,
      hI.accepted, hI.order⟩, hg⟩
  · obtain ⟨rfl,rfl⟩ := Prod.mk.inj (Except.ok.inj ((if_neg hseen).symm.trans h))
    rw [List.append_nil]
    exact ⟨hI, hg⟩

theorem Invariant.postShutdown (hI : s.Invariant acc) (hg : Graceful acc)
    (h : s.step .postShutdown = .ok (s', out)) :
    s'.Invariant (acc ++ out) ∧ Graceful (acc ++ out) := by
  by_cases hset : 0 < s.set
  case neg =>
    obtain ⟨rfl,rfl⟩ := Prod.mk.inj (Except.ok.inj ((if_neg hset).symm.trans h))
    rw [List.append_nil]
    exact ⟨hI, hg⟩
  case pos =>
    obtain ⟨rfl,rfl⟩ := Prod.mk.inj (Except.ok.inj ((if_pos hset).symm.trans h))
    rw [List.append_nil]
    refine ⟨⟨hI.synced, hI.isOpen, hI.called, fun _ => hI.counted (Or.inr (Or.inl hset)), hI.stream, ?_,
      ?_⟩, hg⟩
    · show (SharedObs.accepted acc).Subperm (begun acc ++ due (s.pending ++ [.shutdownInLoop]))
      rw [due_append]
      show (SharedObs.accepted acc).Subperm (begun acc ++ (due s.pending ++ []))
      rw [List.append_nil]
      exact hI.accepted
    · intro a b hsplit
      rcases Lines.append_eq_append_cons hsplit with ⟨t,rfl,hlast⟩ | ⟨t,hfront,rfl⟩
      · cases t with
        | nil =>
          obtain ⟨_,rfl⟩ := List.cons.inj hlast
          rfl
        | cons f t => cases t <;> cases (List.cons.inj hlast).2
      · rw [due_append, hI.order a t hfront]
        rfl

theorem Invariant.runShutdown (hI : s.Invariant acc) (hg : Graceful acc) {rest : List TcpFunctor}
    (hpending : s.pending = .shutdownInLoop :: rest) :
    { s with pending := rest }.Invariant (acc ++ s.conn.shutdownInLoop.map SharedObs.effect) ∧
      Graceful (acc ++ s.conn.shutdownInLoop.map SharedObs.effect) := by
  have hcalled := hI.counted (Or.inr (Or.inr (hpending ▸ List.mem_cons_self)))
  refine ⟨⟨hI.synced, hI.isOpen, hI.called_append rfl (shutdownCalled_notMem _), fun _ => hcalled, ?_, ?_,
    ?_⟩, ?_⟩
  · apply hI.stream_append
    rw [begun_effects, effects_effects, TcpConnection.written_shutdownInLoop]
    exact (List.append_nil _).symm
  · apply hI.accepted_append
    · have haccepted := accepted_effects s.conn.shutdownInLoop []
      rw [List.append_nil] at haccepted
      exact haccepted
    · rw [hpending, begun_effects]
      exact List.Subperm.refl _
  · intro a b hrest
    apply hI.order (.shutdownInLoop :: a) b
    rw [hpending]
    exact congrArg (TcpFunctor.shutdownInLoop :: ·) hrest
  · apply hg.append
    intro o1 o2 hsplit
    obtain ⟨rfl,hwriting⟩ := shutdownInLoop_split hsplit
    rw [List.append_nil]
    apply hI.complete hwriting
    rw [hpending]
    exact hI.order [] rest hpending

/-- Effects that write bytes and then shut the socket down. -/
theorem drained_split {bytes : Bytes} {rest : List TcpEffect} {o1 o2 : List SharedObs}
    (hrest : written rest = [])
    (h : (.written bytes :: rest).map SharedObs.effect = o1 ++ .effect .shutdownWrite :: o2) :
    ∃ quiet, o1 = (.written bytes :: quiet).map SharedObs.effect ∧ written quiet = [] ∧
      .shutdownWrite ∈ rest := by
  cases o1 with
  | nil => cases h
  | cons o o1 =>
    obtain ⟨rfl,htail⟩ := List.cons.inj h
    obtain ⟨quiet,last,rfl,rfl,hlast⟩ := List.map_eq_append_iff.mp htail
    obtain ⟨e,last,rfl,he,_⟩ := List.map_eq_cons_iff.mp hlast
    cases he
    rw [written_append] at hrest
    exact ⟨quiet, rfl, (List.append_eq_nil_iff.mp hrest).1, List.mem_append_right _ List.mem_cons_self⟩

theorem Invariant.handleWrite (hI : s.Invariant acc) (hg : Graceful acc)
    (hcuts : ¬ s.Cuts (.handleWrite k)) (h : s.step (.handleWrite k) = .ok (s', out)) :
    s'.Invariant (acc ++ out) ∧ Graceful (acc ++ out) := by
  obtain ⟨⟨conn,effects⟩,hwrite,h⟩ := Runs.bind_ok h
  obtain ⟨rfl,rfl⟩ := Prod.mk.inj (Except.ok.inj h)
  obtain ⟨conn',effects',hok,hsynced,hstate,hstream⟩ :=
    TcpConnection.handleWrite_stream hI.synced (.wrote k)
  obtain ⟨rfl,rfl⟩ := Prod.mk.inj (Except.ok.inj (hok.symm.trans hwrite))
  refine ⟨⟨hsynced, hstate ▸ hI.isOpen, hI.called_append rfl (shutdownCalled_notMem _), hI.counted, ?_, ?_,
    hI.order⟩, ?_⟩
  · apply hI.stream_append
    rw [begun_effects, effects_effects, hstream]
    exact (List.append_nil _).symm
  · apply hI.accepted_append
    · have haccepted := accepted_effects effects' []
      rw [List.append_nil] at haccepted
      exact haccepted
    · rw [begun_effects]
      exact List.Subperm.refl _
  · apply hg.append
    intro o1 o2 hsplit
    cases hwriting : s.conn.channel.writing with
    | false =>
      rw [TcpConnection.handleWrite_idle hwriting] at hwrite
      obtain ⟨_,rfl⟩ := Prod.mk.inj (Except.ok.inj hwrite)
      cases o1 <;> cases hsplit
    | true =>
      rcases TcpConnection.handleWrite_cases hwriting (.wrote k) with hsame |
        ⟨n,outputBuffer,hpos,_,⟨k',hk,hn⟩,_,⟨_,hsome⟩ | ⟨hall,rest,hdrained,hrest,hshut⟩⟩
      · rw [hsame] at hwrite
        obtain ⟨_,rfl⟩ := Prod.mk.inj (Except.ok.inj hwrite)
        cases o1 <;> cases hsplit
      · rw [hsome] at hwrite
        obtain ⟨_,rfl⟩ := Prod.mk.inj (Except.ok.inj hwrite)
        cases o1 with
        | nil => cases hsplit
        | cons o o1 => cases o1 <;> cases (List.cons.inj hsplit).2
      · rw [hdrained] at hwrite
        obtain ⟨_,rfl⟩ := Prod.mk.inj (Except.ok.inj hwrite)
        obtain ⟨quiet,rfl,hquiet,hmem⟩ := drained_split hrest hsplit
        cases hk
        have hdue : due s.pending = [] := by
          by_contra hne
          exact hcuts ⟨hshut.mp hmem, hwriting, by omega, by omega, hne⟩
        have haccepted := accepted_effects (.written s.conn.outputBuffer.readable :: quiet) []
        rw [List.append_nil] at haccepted
        refine ⟨?_, ?_⟩
        · rw [effects_append, begun_append, begun_effects, effects_effects, List.append_nil,
            written_append, written_cons, hquiet, List.append_nil]
          exact hI.stream
        · have hold := hI.accepted
          rw [hdue, List.append_nil] at hold
          rw [accepted_append_of_nil haccepted, begun_append, begun_effects, List.append_nil]
          exact hold

/-- Every event keeps the invariant, unless it cuts the connection. -/
theorem step_invariant (hI : s.Invariant acc) (hg : Graceful acc) {ev : SharedEvent}
    (hcuts : ¬ s.Cuts ev) (h : s.step ev = .ok (s', out)) :
    s'.Invariant (acc ++ out) ∧ Graceful (acc ++ out) := by
  cases ev with
  | send message k => exact hI.send hg h
  | shutdown => exact hI.shutdown hg hcuts h
  | sendElsewhere message =>
    by_cases hconnected : s.conn.state = .kConnected
    · obtain ⟨rfl,rfl⟩ := Prod.mk.inj (Except.ok.inj ((if_pos hconnected).symm.trans h))
      rw [List.append_nil]
      exact ⟨⟨hI.synced, hI.isOpen, hI.called, hI.counted, hI.stream, hI.accepted, hI.order⟩, hg⟩
    · obtain ⟨rfl,rfl⟩ := Prod.mk.inj (Except.ok.inj ((if_neg hconnected).symm.trans h))
      rw [List.append_nil]
      exact ⟨hI, hg⟩
  | post i => exact hI.post hg h
  | shutdownElsewhere => exact hI.shutdownElsewhere hg h
  | setState => exact hI.setState hg h
  | postShutdown => exact hI.postShutdown hg h
  | runFunctor k =>
    dsimp only [step] at h
    split at h
    case h_1 =>
      obtain ⟨rfl,rfl⟩ := Prod.mk.inj (Except.ok.inj h)
      rw [List.append_nil]
      exact ⟨hI, hg⟩
    case h_2 message inTime rest hpending => exact hI.runSend hg hpending h
    case h_3 rest hpending =>
      obtain ⟨rfl,rfl⟩ := Prod.mk.inj (Except.ok.inj h)
      exact hI.runShutdown hg hpending
  | handleWrite k => exact hI.handleWrite hg hcuts h

theorem invariant_new (m : ℕ) (b h : Bool) : (new m b h).Invariant [] where
  synced := TcpConnection.synced_established m b h
  isOpen := fun h => by cases h
  called := iff_of_false Bool.false_ne_true List.not_mem_nil
  counted := by simp [new]
  stream := rfl
  accepted := List.Subperm.refl _
  order := by simp [new]

end SharedConnection
open SharedObs

/-- Whenever the socket is shut down for writing, every message that was accepted before the call of
`shutdown` has been given to `sendInLoop`, and all that `sendInLoop` was given is written, provided
that the socket is never shut down while an accepted message still is in a functor. -/
theorem shutdown_loses_nothing (m : ℕ) (b h : Bool) (evs : List SharedEvent) {s : SharedConnection}
    {o1 o2 : List SharedObs}
    (hcuts : Runs.Along SharedConnection.step (fun s ev => ¬ s.Cuts ev) (.new m b h) evs)
    (hrun : SharedConnection.run (.new m b h) evs = .ok (s, o1 ++ .effect .shutdownWrite :: o2)) :
    written (effects o1) = (begun o1).flatten ∧ (accepted o1).Subperm (begun o1) := by
  have hI := Runs.run_invariant_along
    (fun (s : SharedConnection) acc => s.Invariant acc ∧ SharedConnection.Graceful acc)
    (fun s acc ev s' out hI hP hok => SharedConnection.step_invariant hI.1 hI.2 hP hok)
    ⟨SharedConnection.invariant_new m b h, fun o1 o2 hnil => by cases o1 <;> cases hnil⟩ hcuts hrun
  exact hI.2 o1 o2 rfl

/-- A message of another thread that is written before the socket is shut down. -/
theorem shutdown_loses_nothing_ok :
    let out : List SharedObs := [.returned [1, 2, 3], .sendInLoop [1, 2, 3],
      .effect (.written [1, 2, 3]), .shutdownCalled]
    written (effects out) = (begun out).flatten ∧ (accepted out).Subperm (begun out) :=
  @shutdown_loses_nothing 100 false false
    [.sendElsewhere [1, 2, 3], .post 0, .runFunctor 8, .shutdown] _ _ []
    (Runs.along_cons id rfl (Runs.along_cons id rfl (Runs.along_cons id rfl
      (Runs.along_cons (fun h => h.2.2 rfl) rfl trivial)))) rfl

/-- `shutdown` on the loop thread overtakes a message that another thread has sent before. -/
theorem shutdown_loses_message : ∃ s,
    SharedConnection.run (.new 100 false false) [.sendElsewhere [1, 2, 3], .post 0, .shutdown] =
      .ok (s, [.returned [1, 2, 3], .shutdownCalled, .effect .shutdownWrite]) ∧
    accepted [.returned [1, 2, 3], .shutdownCalled] = [[1, 2, 3]] ∧
    written (effects [.returned [1, 2, 3], .shutdownCalled]) = [] :=
  ⟨_, rfl, rfl, rfl⟩

end IdealServer
