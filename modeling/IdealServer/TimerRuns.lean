import IdealServer.TimerMoves

/-! Runs of the `TimerQueue`: which timers are run and deleted, when, and what the `timerfd` waits
for. -/
namespace IdealServer

/-- The timer that must exist for this. -/
def TimerObs.uses : TimerObs → Option ActiveTimer
  | .created _ _ => none
  | .inserted timer => some timer
  | .deleted timer => some timer
  | .cancelled _ => none
  | .started timer _ _ => some timer

namespace TimerQueue
variable {s s' : TimerQueue} {op : TimerOp} {acc out : List TimerObs} {a : ActiveTimer}

/-- A run goes through, and keeps what every step between valid states keeps, where the steps meet the
condition. -/
theorem run_of_moves {P : TimerQueue → TimerOp → Prop} (I : TimerQueue → List TimerObs → Prop)
    (hmove : ∀ s acc op s' out, s.Valid → I s acc → P s op → s.Move op s' out → I s' (acc ++ out))
    {ops : List TimerOp} (hs : s.Valid) (h0 : I s []) (hP : Runs.Along step P s ops) :
    ∃ s' out, s.run ops = .ok (s', out) ∧ s'.Valid ∧ I s' out := by
  let J (s : TimerQueue) (_ : List TimerOp) (acc : List TimerObs) : Prop := s.Valid ∧ I s acc
  have hstep (s : TimerQueue) (op : TimerOp) (rest : List TimerOp) (acc : List TimerObs)
      (h : J s (op :: rest) acc) (hop : P s op) :
      ∃ s' out, s.step op = .ok (s', out) ∧ J s' rest (acc ++ out) := by
    obtain ⟨s',out,hok,hm⟩ := h.1.step_move op
    exact ⟨s', out, hok, h.1.move hm, hmove s acc op s' out h.1 h.2 hop hm⟩
  have h0' : J s ops [] := ⟨hs, h0⟩
  exact Runs.run_along J hstep h0' hP

theorem run_of_all_moves (I : TimerQueue → List TimerObs → Prop)
    (hmove : ∀ s acc op s' out, s.Valid → I s acc → s.Move op s' out → I s' (acc ++ out))
    (hs : s.Valid) (h0 : I s []) (ops : List TimerOp) :
    ∃ s' out, s.run ops = .ok (s', out) ∧ s'.Valid ∧ I s' out :=
  run_of_moves (P := fun _ _ => True) I (fun s acc op s' out hs h _ m => hmove s acc op s' out hs h m) hs h0
    (Runs.along_of_forall (fun _ _ _ => trivial))

/-- What is used exists before the step. -/
theorem Move.uses (m : s.Move op s' out) {y : TimerObs} (hy : y ∈ out)
    (ha : y.uses = some a) : ∃ timer, s.heap a.timer = some timer ∧ timer.sequence = a.sequence := by
  cases m with
  | stay => cases hy
  | fire => cases hy
  | handleRead => cases hy
  | endCalls => cases hy
  | rearm => cases hy
  | newTimer =>
    rw [List.mem_singleton.mp hy] at ha
    cases ha
  | cancelCalling =>
    rw [List.mem_singleton.mp hy] at ha
    cases ha
  | cancelIdle =>
    rw [List.mem_singleton.mp hy] at ha
    cases ha
  | add p clock timer early _ hheap =>
    rw [List.mem_singleton.mp hy] at ha
    obtain rfl := Option.some.inj ha
    exact ⟨timer, hheap, rfl⟩
  | cancelActive timerId timer _ hheap hseq =>
    rcases List.mem_cons.mp hy with rfl | hy
    · obtain rfl := Option.some.inj ha
      exact ⟨timer, hheap, hseq⟩
    · rw [List.mem_singleton.mp hy] at ha
      cases ha
  | callNext now expired e rest timer _ hheap =>
    rw [List.mem_singleton.mp hy] at ha
    obtain rfl := Option.some.inj ha
    exact ⟨timer, hheap, rfl⟩
  | restart now e todo timer interval _ hheap =>
    rw [List.mem_singleton.mp hy] at ha
    obtain rfl := Option.some.inj ha
    exact ⟨timer, hheap, rfl⟩
  | delete now e todo timer _ hheap =>
    rw [List.mem_singleton.mp hy] at ha
    obtain rfl := Option.some.inj ha
    exact ⟨timer, hheap, rfl⟩

theorem Move.numCreated_le (m : s.Move op s' out) : s.numCreated ≤ s'.numCreated := by
  cases m <;> first | exact Nat.le_refl _ | exact Nat.le_succ _

/-- Timers that exist after a step are the old ones, restarted or not, and new ones. -/
theorem Move.heap (m : s.Move op s' out) {p : TimerPtr} {timer : Timer} (hp : s'.heap p = some timer) :
    timer.sequence = s.numCreated+1 ∨
    ∃ old, s.heap p = some old ∧ old.sequence = timer.sequence ∧ old.interval = timer.interval := by
  have hdelete {q : TimerPtr} (hq : Function.update s.heap q none p = some timer) :
      s.heap p = some timer := by
    by_cases hpq : p = q
    · rw [hpq, Function.update_self] at hq
      cases hq
    · exact (Function.update_of_ne hpq _ _).symm.trans hq
  cases m with
  | newTimer q time interval hfree =>
    replace hp : Function.update s.heap q (some ⟨time, interval, s.numCreated+1⟩) p = some timer := hp
    by_cases hpq : p = q
    · rw [hpq, Function.update_self] at hp
      exact Or.inl (congrArg Timer.sequence (Option.some.inj hp)).symm
    · exact Or.inr ⟨timer, (Function.update_of_ne hpq _ _).symm.trans hp, rfl, rfl⟩
  | restart now e todo t interval _ hheap =>
    replace hp : Function.update s.heap e.timer (some { t with expiration := addTime now interval }) p =
      some timer := hp
    by_cases hpq : p = e.timer
    · rw [hpq, Function.update_self] at hp
      rw [hpq, ← Option.some.inj hp]
      exact Or.inr ⟨t, hheap, rfl, rfl⟩
    · exact Or.inr ⟨timer, (Function.update_of_ne hpq _ _).symm.trans hp, rfl, rfl⟩
  | cancelActive => exact Or.inr ⟨timer, hdelete hp, rfl, rfl⟩
  | delete => exact Or.inr ⟨timer, hdelete hp, rfl, rfl⟩
  | stay => exact Or.inr ⟨timer, hp, rfl, rfl⟩
  | add => exact Or.inr ⟨timer, hp, rfl, rfl⟩
  | cancelCalling => exact Or.inr ⟨timer, hp, rfl, rfl⟩
  | cancelIdle => exact Or.inr ⟨timer, hp, rfl, rfl⟩
  | fire => exact Or.inr ⟨timer, hp, rfl, rfl⟩
  | handleRead => exact Or.inr ⟨timer, hp, rfl, rfl⟩
  | callNext => exact Or.inr ⟨timer, hp, rfl, rfl⟩
  | endCalls => exact Or.inr ⟨timer, hp, rfl, rfl⟩
  | rearm => exact Or.inr ⟨timer, hp, rfl, rfl⟩

theorem Move.deleted (m : s.Move op s' out) (ha : .deleted a ∈ out) : s'.heap a.timer = none := by
  cases m with
  | cancelActive timerId timer =>
    rcases List.mem_cons.mp ha with heq | hmem
    · rw [TimerObs.deleted.inj heq]
      exact Function.update_self ..
    · cases List.mem_singleton.mp hmem
  | delete now e todo timer =>
    rw [TimerObs.deleted.inj (List.mem_singleton.mp ha)]
    exact Function.update_self ..
  | newTimer => cases List.mem_singleton.mp ha
  | add => cases List.mem_singleton.mp ha
  | cancelCalling => cases List.mem_singleton.mp ha
  | cancelIdle => cases List.mem_singleton.mp ha
  | callNext => cases List.mem_singleton.mp ha
  | restart => cases List.mem_singleton.mp ha
  | stay => cases ha
  | fire => cases ha
  | handleRead => cases ha
  | endCalls => cases ha
  | rearm => cases ha

/-- Only `cancelInLoop` reports two things. -/
theorem Move.pairwise {R : TimerObs → TimerObs → Prop} (m : s.Move op s' out)
    (h : ∀ a, R (.deleted a) (.cancelled a)) : out.Pairwise R := by
  cases m with
  | cancelActive timerId =>
    apply List.Pairwise.cons _ (List.pairwise_singleton _ _)
    intro y hy
    rw [List.mem_singleton.mp hy]
    exact h timerId
  | stay => exact List.Pairwise.nil
  | fire => exact List.Pairwise.nil
  | handleRead => exact List.Pairwise.nil
  | endCalls => exact List.Pairwise.nil
  | rearm => exact List.Pairwise.nil
  | newTimer => exact List.pairwise_singleton _ _
  | add => exact List.pairwise_singleton _ _
  | cancelCalling => exact List.pairwise_singleton _ _
  | cancelIdle => exact List.pairwise_singleton _ _
  | callNext => exact List.pairwise_singleton _ _
  | restart => exact List.pairwise_singleton _ _
  | delete => exact List.pairwise_singleton _ _

/-- Nothing is done with a timer after it has been deleted. -/
def NotReused (x y : TimerObs) : Prop := ∀ a, x = .deleted a → y.uses ≠ some a

structure Deletes (s : TimerQueue) (acc : List TimerObs) : Prop where
  gone : ∀ a, .deleted a ∈ acc → a.sequence ≤ s.numCreated ∧
    ∀ p timer, s.heap p = some timer → timer.sequence ≠ a.sequence
  order : acc.Pairwise NotReused

theorem Deletes.move (h : s.Deletes acc) (hs : s.Valid) (m : s.Move op s' out) : s'.Deletes (acc ++ out) := by
  refine ⟨?_, ?_⟩
  · intro a ha
    have hgone : a.sequence ≤ s.numCreated ∧
        ∀ p timer, s'.heap p = some timer → timer.sequence ≠ s.numCreated+1 → timer.sequence ≠ a.sequence := by
      rcases List.mem_append.mp ha with ha | ha
      · obtain ⟨hle,hnone⟩ := h.gone a ha
        refine ⟨hle, ?_⟩
        intro p timer hp hnew
        obtain ⟨old,hold,hseq,_⟩ := (m.heap hp).resolve_left hnew
        rw [← hseq]
        exact hnone p old hold
      · obtain ⟨t,ht,hseq⟩ := m.uses ha rfl
        refine ⟨hseq ▸ hs.rep.given _ t ht, ?_⟩
        intro p timer hp hnew heq
        obtain ⟨old,hold,hsame,_⟩ := (m.heap hp).resolve_left hnew
        -- the sequence number belongs to the address that has just been freed
        have hptr := hs.rep.unique p a.timer old t hold ht (hsame.trans (heq.trans hseq.symm))
        rw [hptr, m.deleted ha] at hp
        cases hp
    refine ⟨Nat.le_trans hgone.1 m.numCreated_le, ?_⟩
    intro p timer hp heq
    by_cases hnew : timer.sequence = s.numCreated+1
    · have := hgone.1
      omega
    · exact hgone.2 p timer hp hnew heq
  · rw [List.pairwise_append]
    refine ⟨h.order, ?_, ?_⟩
    · apply m.pairwise
      intro b c _ huses
      cases huses
    · rintro x hx y hy b rfl huses
      obtain ⟨timer,hheap,hseq⟩ := m.uses hy huses
      exact (h.gone b hx).2 _ timer hheap hseq

end TimerQueue

/-- In every state of every run, also between the callbacks of a batch, the two sets hold the same timers
under their expirations, these exist and are not in the batch; no assertion fails, and a deleted timer is
not deleted, run or inserted again. -/
theorem timer_queue_consistent (ops : List TimerOp) : ∃ s out, TimerQueue.new.run ops = .ok (s, out) ∧
    (∀ e ∈ s.timers, ∃ timer, s.heap e.timer = some timer ∧ timer.expiration = e.time ∧
      ⟨e.timer, timer.sequence⟩ ∈ s.activeTimers) ∧
    (∀ a ∈ s.activeTimers, ∃ timer, s.heap a.timer = some timer ∧ timer.sequence = a.sequence ∧
      ⟨timer.expiration, a.timer⟩ ∈ s.timers) ∧
    s.timers.size = s.activeTimers.size ∧
    (∀ e ∈ s.timers, ∀ f ∈ s.phase.owned, e.timer ≠ f.timer) ∧
    out.Pairwise (fun x y => ∀ a, x = .deleted a → y.uses ≠ some a) := by
  obtain ⟨s,out,hrun,hs,hdeletes⟩ := TimerQueue.run_of_all_moves TimerQueue.Deletes
    (fun _ _ _ _ _ hs h m => h.move hs m) TimerQueue.valid_new
    ⟨fun a ha => (by cases ha), List.Pairwise.nil⟩ ops
  refine ⟨s, out, hrun, hs.rep.key, hs.rep.active, hs.rep.size, ?_, hdeletes.order⟩
  intro e he f hf hptr
  have hloose : f.timer ∈ s.waiting ++ s.phase.owned.map Entry.timer :=
    List.mem_append_right _ (List.mem_map_of_mem hf)
  exact hs.rep.not_mem_timers hloose e.time (hptr ▸ he)

namespace TimerQueue
variable {s s' : TimerQueue} {op : TimerOp} {acc out : List TimerObs} {a : ActiveTimer}

/-- The timer is in the running batch and its callback has not been started, or `addTimerInLoop` has not
run for it. -/
def NotStarted (s : TimerQueue) (a : ActiveTimer) : Prop :=
  (∃ timer, s.heap a.timer = some timer ∧ timer.sequence = a.sequence) ∧
    (a.timer ∈ s.phase.rest.map Entry.timer ∨ a.timer ∈ s.waiting)

/-- No cancel names such a timer. -/
def CancelsInTime (s : TimerQueue) (op : TimerOp) : Prop :=
  ∀ a, op = .cancelInLoop a → ¬ s.NotStarted a

/-- A cancelled timer exists only in the batch, where it has been started and will be deleted. -/
def Gone (s : TimerQueue) (a : ActiveTimer) : Prop :=
  ∀ timer, s.heap a.timer = some timer → timer.sequence = a.sequence →
    a ∈ s.cancelingTimers ∧ a.timer ∈ s.phase.owned.map Entry.timer ∧
    a.timer ∉ s.phase.rest.map Entry.timer

structure Cancels (s : TimerQueue) (acc : List TimerObs) : Prop where
  gone : ∀ a, .cancelled a ∈ acc → a.sequence ≤ s.numCreated ∧ s.Gone a
  order : acc.Pairwise (fun x y => ∀ a, x = .cancelled a → ∀ e n, y ≠ .started a e n)

/-- Where nothing is owned, a cancelled timer does not exist. -/
theorem Gone.absent (h : s.Gone a) (howned : s.phase.owned = []) {timer : Timer}
    (hheap : s.heap a.timer = some timer) : timer.sequence ≠ a.sequence := by
  intro hseq
  have hmem := (h timer hheap hseq).2.1
  rw [howned] at hmem
  cases hmem

/-- The heap loses timers, `_cancelingTimers` grows, and the batch goes on. -/
theorem Gone.keep (h : s.Gone a)
    (hheap : ∀ timer, s'.heap a.timer = some timer → timer.sequence = a.sequence →
      s.heap a.timer = some timer)
    (hcanceling : a ∈ s.cancelingTimers → a ∈ s'.cancelingTimers)
    (howned : s'.phase.owned = s.phase.owned) (hrest : s'.phase.rest ⊆ s.phase.rest) : s'.Gone a := by
  intro timer hp hseq
  obtain ⟨hmem,hbatch,hnot⟩ := h timer (hheap timer hp hseq) hseq
  refine ⟨hcanceling hmem, ?_, ?_⟩
  · rw [howned]
    exact hbatch
  · intro hin
    exact hnot (List.map_subset _ hrest hin)

theorem Gone.move (h : s.Gone a) (hgiven : a.sequence ≤ s.numCreated) (m : s.Move op s' out) :
    s'.Gone a := by
  cases m with
  | stay => exact h
  | cancelIdle => exact h
  | add => exact h.keep (fun _ hp _ => hp) id rfl (List.Subset.refl _)
  | fire => exact h.keep (fun _ hp _ => hp) id rfl (List.Subset.refl _)
  | newTimer p time interval hfree =>
    refine h.keep ?_ id rfl (List.Subset.refl _)
    intro timer hp hseq
    -- the new timer has a sequence number that nobody knows yet
    rcases (Move.newTimer p time interval hfree).heap hp with hnew | ⟨_,hold,_,_⟩
    · omega
    · have hne : a.timer ≠ p := by
        rintro rfl
        cases hfree.symm.trans hold
      exact (Function.update_of_ne hne _ _).symm.trans hp
  | cancelActive timerId timer =>
    refine h.keep ?_ id rfl (List.Subset.refl _)
    intro t hp _
    have hne : a.timer ≠ timerId.timer := by
      intro heq
      rw [heq] at hp
      cases (Function.update_self ..).symm.trans hp
    exact (Function.update_of_ne hne _ _).symm.trans hp
  | cancelCalling timerId =>
    exact h.keep (fun _ hp _ => hp) (fun hmem => OrderedSet.mem_insert.mpr (Or.inr hmem)) rfl
      (List.Subset.refl _)
  | handleRead now activeTimers hphase =>
    intro timer hp hseq
    exact absurd hseq (h.absent (by rw [hphase]; rfl) hp)
  | callNext now expired e rest timer hphase =>
    refine h.keep (fun _ hp _ => hp) id ?_ ?_
    · rw [hphase]
      rfl
    · rw [hphase]
      exact List.subset_cons_self e rest
  | endCalls now expired hphase =>
    refine h.keep (fun _ hp _ => hp) id ?_ ?_
    · rw [hphase]
      rfl
    · exact List.nil_subset _
  | restart now e todo timer interval hphase hheap _ hcanceling =>
    intro t hp hseq
    replace hp : Function.update s.heap e.timer (some { timer with expiration := addTime now interval })
      a.timer = some t := hp
    by_cases hptr : a.timer = e.timer
    · -- it would have been deleted
      rw [hptr, Function.update_self] at hp
      obtain rfl := Option.some.inj hp
      have hmem := (h timer (hptr ▸ hheap) hseq).1
      have hsame : (⟨e.timer, timer.sequence⟩ : ActiveTimer) = a := by
        cases a
        exact congrArg₂ ActiveTimer.mk hptr.symm hseq
      exact absurd (hsame ▸ hmem) hcanceling
    · rw [Function.update_of_ne hptr] at hp
      obtain ⟨hmem,hbatch,_⟩ := h t hp hseq
      rw [hphase] at hbatch
      exact ⟨hmem, (List.mem_cons.mp hbatch).resolve_left hptr, List.not_mem_nil⟩
  | delete now e todo timer hphase =>
    intro t hp hseq
    replace hp : Function.update s.heap e.timer none a.timer = some t := hp
    by_cases hptr : a.timer = e.timer
    · rw [hptr, Function.update_self] at hp
      cases hp
    · rw [Function.update_of_ne hptr] at hp
      obtain ⟨hmem,hbatch,_⟩ := h t hp hseq
      rw [hphase] at hbatch
      exact ⟨hmem, (List.mem_cons.mp hbatch).resolve_left hptr, List.not_mem_nil⟩
  | rearm now clock timerfd hphase =>
    intro timer hp hseq
    exact absurd hseq (h.absent (by rw [hphase]; rfl) hp)

/-- A cancel that comes in time. -/
theorem gone_of_cancelled (hs : s.Valid) (hP : s.CancelsInTime op) (m : s.Move op s' out)
    (ha : .cancelled a ∈ out) : a.sequence ≤ s.numCreated ∧ s'.Gone a := by
  -- it is not in the sets, and so it is loose
  have hloose {timer : Timer} (hin : a ∉ s.activeTimers) (hp : s.heap a.timer = some timer)
      (hseq : timer.sequence = a.sequence) (hnot : ¬ s.NotStarted a) :
      a.timer ∈ s.phase.owned.map Entry.timer ∧ a.timer ∉ s.phase.rest.map Entry.timer := by
    have hmem : a.timer ∈ s.waiting ++ s.phase.owned.map Entry.timer :=
      (hs.rep.loose _).mpr ⟨timer, hp, hseq ▸ hin⟩
    have hrest : a.timer ∉ s.phase.rest.map Entry.timer := fun hr => hnot ⟨⟨timer, hp, hseq⟩, Or.inl hr⟩
    rcases List.mem_append.mp hmem with hw | ho
    · exact absurd ⟨⟨timer, hp, hseq⟩, Or.inr hw⟩ hnot
    · exact ⟨ho, hrest⟩
  cases m with
  | cancelActive timerId timer hactive hheap hseq =>
    obtain rfl : a = timerId := by
      rcases List.mem_cons.mp ha with heq | hmem
      · cases heq
      · exact TimerObs.cancelled.inj (List.mem_singleton.mp hmem)
    refine ⟨hseq ▸ hs.rep.given _ timer hheap, ?_⟩
    intro t hp _
    cases (Function.update_self ..).symm.trans hp
  | cancelCalling timerId hgiven hactive =>
    obtain rfl := TimerObs.cancelled.inj (List.mem_singleton.mp ha)
    refine ⟨hgiven, ?_⟩
    intro t hp hseq
    exact ⟨OrderedSet.mem_insert.mpr (Or.inl rfl), hloose hactive hp hseq (hP a rfl)⟩
  | cancelIdle timerId hgiven hactive hphase =>
    obtain rfl := TimerObs.cancelled.inj (List.mem_singleton.mp ha)
    refine ⟨hgiven, ?_⟩
    intro t hp hseq
    have hmem := (hloose hactive hp hseq (hP a rfl)).1
    rw [hphase] at hmem
    cases hmem
  | newTimer => cases List.mem_singleton.mp ha
  | add => cases List.mem_singleton.mp ha
  | callNext => cases List.mem_singleton.mp ha
  | restart => cases List.mem_singleton.mp ha
  | delete => cases List.mem_singleton.mp ha
  | stay => cases ha
  | fire => cases ha
  | handleRead => cases ha
  | endCalls => cases ha
  | rearm => cases ha

/-- What is started is at the head of the rest of the batch, and leaves it. -/
theorem Move.started (m : s.Move op s' out) {e n : Timestamp} (ha : .started a e n ∈ out) :
    ∃ now expired f rest timer, s.phase = .calling now expired (f :: rest) ∧ f.timer = a.timer ∧
      s.heap a.timer = some timer ∧ timer.sequence = a.sequence ∧ timer.expiration = f.time ∧
      e = f.time ∧ n = now ∧ s' = { s with phase := .calling now expired rest } := by
  cases m with
  | callNext now expired f rest timer hphase hheap htime =>
    obtain ⟨rfl,rfl,rfl⟩ := TimerObs.started.inj (List.mem_singleton.mp ha)
    exact ⟨n, expired, f, rest, timer, hphase, rfl, hheap, rfl, htime, htime, rfl, rfl⟩
  | cancelActive =>
    rcases List.mem_cons.mp ha with heq | hmem
    · cases heq
    · cases List.mem_singleton.mp hmem
  | newTimer => cases List.mem_singleton.mp ha
  | add => cases List.mem_singleton.mp ha
  | cancelCalling => cases List.mem_singleton.mp ha
  | cancelIdle => cases List.mem_singleton.mp ha
  | restart => cases List.mem_singleton.mp ha
  | delete => cases List.mem_singleton.mp ha
  | stay => cases ha
  | fire => cases ha
  | handleRead => cases ha
  | endCalls => cases ha
  | rearm => cases ha

theorem Cancels.move (h : s.Cancels acc) (hs : s.Valid) (hP : s.CancelsInTime op) (m : s.Move op s' out) :
    s'.Cancels (acc ++ out) := by
  refine ⟨?_, ?_⟩
  · intro a ha
    rcases List.mem_append.mp ha with ha | ha
    · obtain ⟨hgiven,hgone⟩ := h.gone a ha
      exact ⟨Nat.le_trans hgiven m.numCreated_le, hgone.move hgiven m⟩
    · obtain ⟨hgiven,hgone⟩ := gone_of_cancelled hs hP m ha
      exact ⟨Nat.le_trans hgiven m.numCreated_le, hgone⟩
  · rw [List.pairwise_append]
    refine ⟨h.order, ?_, ?_⟩
    · apply m.pairwise
      intro b c hb
      cases hb
    · rintro x hx y hy b rfl e n rfl
      obtain ⟨now,expired,f,rest,timer,hphase,hptr,hheap,hseq,_⟩ := m.started hy
      have hnot := ((h.gone b hx).2 timer hheap hseq).2.2
      rw [hphase] at hnot
      apply hnot
      rw [← hptr]
      exact List.mem_cons_self

/-- A cancel leaves the timers alone that have another address or another sequence number. -/
theorem Move.cancel_frame (m : s.Move (.cancelInLoop a) s' out) {p : TimerPtr} {timer : Timer}
    (hp : s.heap p = some timer) (hne : ⟨p, timer.sequence⟩ ≠ a) : s'.heap p = some timer ∧
    (⟨p, timer.sequence⟩ ∈ s'.activeTimers ↔ ⟨p, timer.sequence⟩ ∈ s.activeTimers) ∧
    (∀ t, ⟨t, p⟩ ∈ s'.timers ↔ ⟨t, p⟩ ∈ s.timers) ∧
    (⟨p, timer.sequence⟩ ∈ s'.cancelingTimers ↔ ⟨p, timer.sequence⟩ ∈ s.cancelingTimers) ∧
    s'.waiting = s.waiting ∧ s'.phase = s.phase := by
  cases m with
  | stay => exact ⟨hp, Iff.rfl, fun _ => Iff.rfl, Iff.rfl, rfl, rfl⟩
  | cancelIdle => exact ⟨hp, Iff.rfl, fun _ => Iff.rfl, Iff.rfl, rfl, rfl⟩
  | cancelCalling =>
    refine ⟨hp, Iff.rfl, fun _ => Iff.rfl, ?_, rfl, rfl⟩
    rw [OrderedSet.mem_insert]
    exact ⟨fun hor => hor.resolve_left hne, Or.inr⟩
  | cancelActive _ t _ hheap hseq =>
    -- the timer at the address of the cancelled one is the cancelled one
    have hptr : p ≠ a.timer := by
      rintro rfl
      rw [Option.some.inj (hp.symm.trans hheap), hseq] at hne
      exact hne rfl
    refine ⟨(Function.update_of_ne hptr _ _).trans hp, ?_, ?_, Iff.rfl, rfl, rfl⟩
    · rw [OrderedSet.mem_erase]
      exact ⟨And.right, fun hmem => ⟨hne, hmem⟩⟩
    · intro time
      rw [OrderedSet.mem_erase]
      exact ⟨And.right, fun hmem => ⟨fun heq => hptr (congrArg Entry.timer heq), hmem⟩⟩

end TimerQueue

/-- Where no cancel names a timer of the running batch that has not been started yet, nor one that has
not been added yet, a cancelled timer is never started again; and a cancel never affects another timer,
whatever its address is. -/
theorem timers_cancelled (ops : List TimerOp) : ∃ s out, TimerQueue.new.run ops = .ok (s, out) ∧
    (Runs.Along TimerQueue.step TimerQueue.CancelsInTime TimerQueue.new ops →
      out.Pairwise (fun x y => ∀ a, x = .cancelled a → ∀ e n, y ≠ .started a e n)) ∧
    ∀ a s' out', s.step (.cancelInLoop a) = .ok (s', out') → ∀ p timer, s.heap p = some timer →
      ⟨p, timer.sequence⟩ ≠ a → s'.heap p = some timer ∧
      (⟨p, timer.sequence⟩ ∈ s'.activeTimers ↔ ⟨p, timer.sequence⟩ ∈ s.activeTimers) ∧
      (∀ t, ⟨t, p⟩ ∈ s'.timers ↔ ⟨t, p⟩ ∈ s.timers) ∧
      (⟨p, timer.sequence⟩ ∈ s'.cancelingTimers ↔ ⟨p, timer.sequence⟩ ∈ s.cancelingTimers) ∧
      s'.waiting = s.waiting ∧ s'.phase = s.phase := by
  obtain ⟨s,out,hrun,hs,_⟩ := TimerQueue.run_of_all_moves (fun _ _ => True) (fun _ _ _ _ _ _ _ _ => trivial)
    TimerQueue.valid_new trivial ops
  refine ⟨s, out, hrun, ?_, ?_⟩
  · intro hP
    obtain ⟨s1,out1,hrun1,_,hcancels⟩ := TimerQueue.run_of_moves TimerQueue.Cancels
      (fun _ _ _ _ _ hs h hop m => h.move hs hop m) TimerQueue.valid_new
      ⟨fun a ha => (by cases ha), List.Pairwise.nil⟩ hP
    obtain ⟨_,rfl⟩ := Prod.mk.inj (Except.ok.inj (hrun.symm.trans hrun1))
    exact hcancels.order
  · intro a s' out' hstep p timer hp hne
    obtain ⟨s1,out1,hok,m⟩ := hs.step_move (.cancelInLoop a)
    obtain ⟨rfl,_⟩ := Prod.mk.inj (Except.ok.inj (hok.symm.trans hstep))
    exact m.cancel_frame hp hne

/-- A timer that is pending is cancelled, and a repeating one by its own callback. -/
theorem timers_cancelled_self : ∃ s, TimerQueue.new.run [.newTimer 1 5 (some 50), .addTimerInLoop 1 0,
      .newTimer 2 500 none, .addTimerInLoop 2 0, .cancelInLoop ⟨2, 2⟩, .fire, .handleRead 200, .callNext,
      .cancelInLoop ⟨1, 1⟩, .endCalls, .resetNext, .rearm 210, .handleRead 900] =
        .ok (s, [.created ⟨1, 1⟩ (some 50), .inserted ⟨1, 1⟩, .created ⟨2, 2⟩ none, .inserted ⟨2, 2⟩,
          .deleted ⟨2, 2⟩, .cancelled ⟨2, 2⟩, .started ⟨1, 1⟩ 5 200, .cancelled ⟨1, 1⟩, .deleted ⟨1, 1⟩]) ∧
    [.created ⟨1, 1⟩ (some 50), .inserted ⟨1, 1⟩, .created ⟨2, 2⟩ none, .inserted ⟨2, 2⟩, .deleted ⟨2, 2⟩,
      .cancelled ⟨2, 2⟩, .started ⟨1, 1⟩ 5 200, .cancelled ⟨1, 1⟩, .deleted ⟨1, 1⟩].Pairwise
        (fun x y => ∀ a, x = TimerObs.cancelled a → ∀ e n, y ≠ .started a e n) := by
  obtain ⟨s,out,hrun,horder,_⟩ := timers_cancelled [.newTimer 1 5 (some 50), .addTimerInLoop 1 0,
    .newTimer 2 500 none, .addTimerInLoop 2 0, .cancelInLoop ⟨2, 2⟩, .fire, .handleRead 200, .callNext,
    .cancelInLoop ⟨1, 1⟩, .endCalls, .resetNext, .rearm 210, .handleRead 900]
  obtain ⟨rfl,rfl⟩ := Prod.mk.inj (Except.ok.inj (hrun.symm.trans rfl))
  have hnone {s : TimerQueue} {op : TimerOp} (hop : ∀ a, op ≠ .cancelInLoop a) : s.CancelsInTime op :=
    fun a heq => absurd heq (hop a)
  refine ⟨_, hrun, horder ?_⟩
  refine Runs.along_cons (hnone (fun _ h => by cases h)) rfl ?_
  refine Runs.along_cons (hnone (fun _ h => by cases h)) rfl ?_
  refine Runs.along_cons (hnone (fun _ h => by cases h)) rfl ?_
  refine Runs.along_cons (hnone (fun _ h => by cases h)) rfl ?_
  refine Runs.along_cons ?_ rfl ?_
  · rintro a ⟨rfl⟩ ⟨_,h⟩
    exact absurd h (by decide)
  refine Runs.along_cons (hnone (fun _ h => by cases h)) rfl ?_
  refine Runs.along_cons (hnone (fun _ h => by cases h)) rfl ?_
  refine Runs.along_cons (hnone (fun _ h => by cases h)) rfl ?_
  refine Runs.along_cons ?_ rfl ?_
  · rintro a ⟨rfl⟩ ⟨_,h⟩
    exact absurd h (by decide)
  refine Runs.along_cons (hnone (fun _ h => by cases h)) rfl ?_
  refine Runs.along_cons (hnone (fun _ h => by cases h)) rfl ?_
  refine Runs.along_cons (hnone (fun _ h => by cases h)) rfl ?_
  exact Runs.along_cons (hnone (fun _ h => by cases h)) rfl trivial

/-- Two timers are due together, and the callback of the first one cancels the second one. -/
theorem timers_cancelled_fails : ∃ s pre, TimerQueue.new.run [.newTimer 1 5 none, .addTimerInLoop 1 0,
      .newTimer 2 5 none, .addTimerInLoop 2 0, .fire, .handleRead 200, .callNext, .cancelInLoop ⟨2, 2⟩,
      .callNext] = .ok (s, pre ++ [.cancelled ⟨2, 2⟩, .started ⟨2, 2⟩ 5 200]) :=
  ⟨_, [.created ⟨1, 1⟩ none, .inserted ⟨1, 1⟩, .created ⟨2, 2⟩ none, .inserted ⟨2, 2⟩,
    .started ⟨1, 1⟩ 5 200], rfl⟩

end IdealServer
