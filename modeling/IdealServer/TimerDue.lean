import IdealServer.TimerRuns

/-! When the callbacks of timers are started, and for what time the `timerfd` is armed. -/
namespace IdealServer

def TimerObs.startedOf : TimerObs → Option ActiveTimer
  | .started timer _ _ => some timer
  | _ => none

/-- The callbacks that have been started, in order. -/
def startedTimers (out : List TimerObs) : List ActiveTimer := out.filterMap TimerObs.startedOf

theorem startedTimers_append (out out' : List TimerObs) :
    startedTimers (out ++ out') = startedTimers out ++ startedTimers out' := List.filterMap_append

theorem mem_startedTimers {out : List TimerObs} {a : ActiveTimer} :
    a ∈ startedTimers out ↔ ∃ e n, .started a e n ∈ out := by
  rw [startedTimers, List.mem_filterMap]
  constructor
  · rintro ⟨y,hy,hof⟩
    cases y <;> cases hof
    exact ⟨_, _, hy⟩
  · rintro ⟨e,n,hmem⟩
    exact ⟨_, hmem, rfl⟩

namespace TimerQueue
variable {s s' : TimerQueue} {op : TimerOp} {acc out : List TimerObs}

/-- The id of the timer at an address. -/
def idAt (s : TimerQueue) (e : Entry) : Option ActiveTimer :=
  (s.heap e.timer).map (fun timer => ⟨e.timer, timer.sequence⟩)

/-- During a batch a step starts nothing and keeps the rest, or it starts the first timer of the rest. -/
theorem Move.started_cases (m : s.Move op s' out) (hop : ∀ now, op ≠ .handleRead now) :
    (startedTimers out = [] ∧ s'.phase.rest = s.phase.rest) ∨
    ∃ e timer, s.phase.rest = e :: s'.phase.rest ∧ s.heap e.timer = some timer ∧
      startedTimers out = [⟨e.timer, timer.sequence⟩] := by
  cases m with
  | callNext now expired e rest timer hphase hheap =>
    exact Or.inr ⟨e, timer, by rw [hphase]; rfl, hheap, rfl⟩
  | handleRead now => exact absurd rfl (hop now)
  | endCalls now expired hphase => exact Or.inl ⟨rfl, by rw [hphase]; rfl⟩
  | restart now e todo timer interval hphase => exact Or.inl ⟨rfl, by rw [hphase]; rfl⟩
  | delete now e todo timer hphase => exact Or.inl ⟨rfl, by rw [hphase]; rfl⟩
  | rearm now clock timerfd hphase => exact Or.inl ⟨rfl, by rw [hphase]; rfl⟩
  | stay => exact Or.inl ⟨rfl, rfl⟩
  | newTimer => exact Or.inl ⟨rfl, rfl⟩
  | add => exact Or.inl ⟨rfl, rfl⟩
  | cancelActive => exact Or.inl ⟨rfl, rfl⟩
  | cancelCalling => exact Or.inl ⟨rfl, rfl⟩
  | cancelIdle => exact Or.inl ⟨rfl, rfl⟩
  | fire => exact Or.inl ⟨rfl, rfl⟩

/-- The timers of the batch are left alone until `reset`. -/
theorem Move.heap_rest (m : s.Move op s' out) (hs : s.Valid) {e : Entry} (he : e ∈ s'.phase.rest)
    (hold : e ∈ s.phase.rest) : s'.heap e.timer = s.heap e.timer := by
  obtain ⟨_,timer,hheap,_,hnot⟩ := hs.owned (hs.rest.subset hold)
  cases m with
  | newTimer p time interval hfree =>
    apply Function.update_of_ne
    rintro rfl
    cases hfree.symm.trans hheap
  | cancelActive timerId t hactive hcancelled hseq =>
    apply Function.update_of_ne
    intro hptr
    rw [hptr] at hheap hnot
    obtain rfl := Option.some.inj (hheap.symm.trans hcancelled)
    rw [hseq] at hnot
    exact hnot hactive
  | restart => cases he
  | delete => cases he
  | stay => rfl
  | add => rfl
  | cancelCalling => rfl
  | cancelIdle => rfl
  | fire => rfl
  | handleRead => rfl
  | callNext => rfl
  | endCalls => rfl
  | rearm => rfl

/-- The entries after a step are old ones, with their timers, and those that it has inserted. -/
theorem Move.entries (m : s.Move op s' out) (hs : s.Valid) {e : Entry} (he : e ∈ s'.timers) :
    (e ∈ s.timers ∧ s'.heap e.timer = s.heap e.timer) ∨
    ∃ timer, s'.heap e.timer = some timer ∧ .inserted ⟨e.timer, timer.sequence⟩ ∈ out := by
  -- a loose timer has no entry
  have hloose {f : Entry} (hf : f ∈ s.timers) {now : Timestamp} {g : Entry} {todo : List Entry}
      (hphase : s.phase = .resetting now (g :: todo)) : f.timer ≠ g.timer := by
    intro hptr
    have hmem : g.timer ∈ s.waiting ++ s.phase.owned.map Entry.timer := by
      rw [hphase]
      exact List.mem_append_right _ List.mem_cons_self
    exact hs.rep.not_mem_timers hmem f.time (hptr ▸ hf)
  cases m with
  | newTimer p time interval hfree =>
    refine Or.inl ⟨he, Function.update_of_ne ?_ _ _⟩
    obtain ⟨timer,hheap,_⟩ := hs.rep.key e he
    rintro rfl
    cases hfree.symm.trans hheap
  | add p clock timer early _ hheap =>
    rcases OrderedSet.mem_insert.mp he with rfl | he
    · exact Or.inr ⟨timer, hheap, List.mem_cons_self⟩
    · exact Or.inl ⟨he, rfl⟩
  | cancelActive timerId timer hactive hheap =>
    obtain ⟨hne,he⟩ := OrderedSet.mem_erase.mp he
    refine Or.inl ⟨he, Function.update_of_ne ?_ _ _⟩
    intro hptr
    obtain ⟨t,ht,_,hkey⟩ := hs.rep.active timerId hactive
    rw [Option.some.inj (ht.symm.trans hheap)] at hkey
    exact hne (hs.rep.entry_unique he hkey hptr)
  | handleRead now => exact Or.inl ⟨(OrderedSet.mem_above.mp he).1, rfl⟩
  | restart now f todo timer interval hphase =>
    rcases OrderedSet.mem_insert.mp he with rfl | he
    · exact Or.inr ⟨_, Function.update_self .., List.mem_cons_self⟩
    · exact Or.inl ⟨he, Function.update_of_ne (hloose he hphase) _ _⟩
  | delete now f todo timer hphase => exact Or.inl ⟨he, Function.update_of_ne (hloose he hphase) _ _⟩
  | stay => exact Or.inl ⟨he, rfl⟩
  | cancelCalling => exact Or.inl ⟨he, rfl⟩
  | cancelIdle => exact Or.inl ⟨he, rfl⟩
  | fire => exact Or.inl ⟨he, rfl⟩
  | callNext => exact Or.inl ⟨he, rfl⟩
  | endCalls => exact Or.inl ⟨he, rfl⟩
  | rearm => exact Or.inl ⟨he, rfl⟩

/-- A `handleRead` that began in the state `s0` has started the first ones of the entries that were due,
and what is due now has been inserted since. -/
structure Reading (s0 : TimerQueue) (now : Timestamp) (s : TimerQueue) (acc : List TimerObs) : Prop where
  progress : ∃ done, s0.timers.upTo ⟨now, UINTPTR_MAX⟩ = done ++ s.phase.rest ∧
    startedTimers acc = done.filterMap s0.idAt
  same : ∀ e ∈ s.phase.rest, s.heap e.timer = s0.heap e.timer
  later : ∀ e ∈ s.timers, now < e.time ∨
    ∃ timer, s.heap e.timer = some timer ∧ .inserted ⟨e.timer, timer.sequence⟩ ∈ acc

theorem Reading.move {s0 : TimerQueue} {now : Timestamp} (h : Reading s0 now s acc) (hs : s.Valid)
    (hop : ∀ n, op ≠ .handleRead n) (m : s.Move op s' out) : Reading s0 now s' (acc ++ out) := by
  obtain ⟨done,hsplit,hstarted⟩ := h.progress
  refine ⟨?_, ?_, ?_⟩
  · rcases m.started_cases hop with ⟨hnone,hrest⟩ | ⟨e,timer,hrest,hheap,hone⟩
    · refine ⟨done, ?_, ?_⟩
      · rw [hrest]
        exact hsplit
      · rw [startedTimers_append, hnone, List.append_nil]
        exact hstarted
    · refine ⟨done ++ [e], ?_, ?_⟩
      · rw [hsplit, hrest, List.append_assoc]
        rfl
      · have hid : s0.idAt e = some ⟨e.timer, timer.sequence⟩ := by
          have hsame := h.same e (by rw [hrest]; exact List.mem_cons_self)
          rw [idAt, ← hsame, hheap]
          rfl
        have hsingle : [e].filterMap s0.idAt = [⟨e.timer, timer.sequence⟩] := by
          simp only [List.filterMap_cons, hid, List.filterMap_nil]
        rw [startedTimers_append, hone, hstarted, List.filterMap_append, hsingle]
  · intro e he
    have hold : e ∈ s.phase.rest := by
      rcases m.started_cases hop with ⟨_,hrest⟩ | ⟨f,_,hrest,_⟩
      · exact hrest ▸ he
      · rw [hrest]
        exact List.mem_cons_of_mem f he
    exact (m.heap_rest hs he hold).trans (h.same e hold)
  · intro e he
    rcases m.entries hs he with ⟨hold,hheap⟩ | ⟨timer,hheap,hmem⟩
    · rcases h.later e hold with hlt | ⟨timer,ht,hmem⟩
      · exact Or.inl hlt
      · exact Or.inr ⟨timer, hheap.trans ht, List.mem_append_left _ hmem⟩
    · exact Or.inr ⟨timer, hheap, List.mem_append_right _ hmem⟩

/-- The state after `handleRead` has taken the entries that are due. -/
theorem Move.reading {now : Timestamp} (m : s.Move (.handleRead now) s' out) (hphase : s.phase = .idle) :
    Reading s now s' out := by
  cases m with
  | stay _ hbusy => exact absurd hphase (hbusy now rfl)
  | handleRead =>
    refine ⟨⟨[], rfl, rfl⟩, fun _ _ => rfl, ?_⟩
    intro e he
    exact Or.inl (Entry.sentry_lt.mp (OrderedSet.lt_of_mem_above he))

/-- As many calls as entries are left start all of them. -/
theorem Reading.finish {s0 : TimerQueue} {now : Timestamp} (h : Reading s0 now s acc) (hs : s.Valid) :
    ∃ s' out, s.run (List.replicate s.phase.rest.length .callNext) = .ok (s', out) ∧ s'.phase.rest = [] ∧
      Reading s0 now s' (acc ++ out) := by
  induction hrest : s.phase.rest generalizing s acc with
  | nil => exact ⟨s, [], rfl, hrest, by rw [List.append_nil]; exact h⟩
  | cons e rest ih =>
    have hcalling : ∃ n expired, s.phase = .calling n expired (e :: rest) := by
      cases hphase : s.phase with
      | calling n expired left =>
        rw [hphase] at hrest
        obtain rfl : left = e :: rest := hrest
        exact ⟨n, expired, rfl⟩
      | idle =>
        rw [hphase] at hrest
        cases hrest
      | resetting =>
        rw [hphase] at hrest
        cases hrest
    obtain ⟨n,expired,hphase⟩ := hcalling
    obtain ⟨timer,hheap,htime,hok⟩ := hs.callNext_ok hphase
    have m := Move.callNext n expired e rest timer hphase hheap htime
    obtain ⟨s',out,hrun,hnil,hreading⟩ := ih (h.move hs (fun _ hop => by cases hop) m) (hs.move m) rfl
    refine ⟨s', _, Runs.run_cons_of_ok hok hrun, hnil, ?_⟩
    rw [← List.append_assoc]
    exact hreading

/-- The timer will be run before it is deleted: it waits, or is active, or is in the rest of the batch. -/
def Due (s : TimerQueue) (a : ActiveTimer) : Prop :=
  a.timer ∈ s.waiting ∨ a ∈ s.activeTimers ∨ a.timer ∈ s.phase.rest.map Entry.timer

/-- How often timers without an interval have been started. -/
structure OneShots (s : TimerQueue) (acc : List TimerObs) : Prop where
  created : ∀ a interval, .created a interval ∈ acc → a.sequence ≤ s.numCreated ∧
    ∀ p timer, s.heap p = some timer → timer.sequence = a.sequence → timer.interval = interval
  started : ∀ a ∈ startedTimers acc, a.sequence ≤ s.numCreated
  once : ∀ a, .created a none ∈ acc → (startedTimers acc).count a ≤ 1
  fresh : ∀ p timer, s.heap p = some timer → timer.interval = none → s.Due ⟨p, timer.sequence⟩ →
    ⟨p, timer.sequence⟩ ∉ startedTimers acc

theorem Move.created (m : s.Move op s' out) {a : ActiveTimer} {interval : Option ℕ}
    (ha : .created a interval ∈ out) : a.sequence = s.numCreated+1 ∧ s'.numCreated = s.numCreated+1 ∧
    ∃ time, s'.heap a.timer = some ⟨time, interval, a.sequence⟩ := by
  cases m with
  | newTimer p time i =>
    obtain ⟨rfl,rfl⟩ := TimerObs.created.inj (List.mem_singleton.mp ha)
    exact ⟨rfl, rfl, time, Function.update_self ..⟩
  | cancelActive =>
    rcases List.mem_cons.mp ha with heq | hmem
    · cases heq
    · cases List.mem_singleton.mp hmem
  | add => cases List.mem_singleton.mp ha
  | cancelCalling => cases List.mem_singleton.mp ha
  | cancelIdle => cases List.mem_singleton.mp ha
  | callNext => cases List.mem_singleton.mp ha
  | restart => cases List.mem_singleton.mp ha
  | delete => cases List.mem_singleton.mp ha
  | stay => cases ha
  | fire => cases ha
  | handleRead => cases ha
  | endCalls => cases ha
  | rearm => cases ha

/-- A timer without an interval that will be run was going to be run before the step. -/
theorem Move.due (m : s.Move op s' out) (hs : s.Valid) {p : TimerPtr} {timer : Timer}
    (hp : s.heap p = some timer) (hnone : timer.interval = none) (hdue : s'.Due ⟨p, timer.sequence⟩) :
    s.Due ⟨p, timer.sequence⟩ := by
  cases m with
  | newTimer q time interval hfree =>
    rcases hdue with hw | hdue
    · apply Or.inl
      apply (List.mem_cons.mp hw).resolve_left
      rintro rfl
      cases hfree.symm.trans hp
    · exact Or.inr hdue
  | add q clock t early hwaiting =>
    rcases hdue with hw | ha | hr
    · exact Or.inl (List.mem_of_mem_erase hw)
    · rcases OrderedSet.mem_insert.mp ha with heq | ha
      · apply Or.inl
        show p ∈ s.waiting
        rw [show p = q from congrArg ActiveTimer.timer heq]
        exact hwaiting
      · exact Or.inr (Or.inl ha)
    · exact Or.inr (Or.inr hr)
  | cancelActive =>
    rcases hdue with hw | ha | hr
    · exact Or.inl hw
    · exact Or.inr (Or.inl (OrderedSet.mem_erase.mp ha).2)
    · exact Or.inr (Or.inr hr)
  | handleRead now activeTimers _ hactive =>
    rcases hdue with hw | ha | hr
    · exact Or.inl hw
    · exact Or.inr (Or.inl ((hactive _).mp ha).1)
    · -- the entries that are due were active
      obtain ⟨e,he,hptr⟩ := List.mem_map.mp hr
      replace hptr : e.timer = p := hptr
      obtain ⟨t,ht,_,ha⟩ := hs.rep.key e (OrderedSet.mem_upTo.mp he).1
      rw [hptr] at ht ha
      rw [Option.some.inj (ht.symm.trans hp)] at ha
      exact Or.inr (Or.inl ha)
  | callNext now expired e rest t hphase =>
    rcases hdue with hw | ha | hr
    · exact Or.inl hw
    · exact Or.inr (Or.inl ha)
    · apply Or.inr
      apply Or.inr
      rw [hphase]
      exact List.mem_cons_of_mem e.timer hr
  | endCalls =>
    rcases hdue with hw | ha | hr
    · exact Or.inl hw
    · exact Or.inr (Or.inl ha)
    · cases hr
  | restart now e todo t interval _ hheap hinterval =>
    rcases hdue with hw | ha | hr
    · exact Or.inl hw
    · rcases OrderedSet.mem_insert.mp ha with heq | ha
      · -- the timer that is restarted has an interval
        have hptr : p = e.timer := congrArg ActiveTimer.timer heq
        rw [hptr] at hp
        rw [Option.some.inj (hp.symm.trans hheap), hinterval] at hnone
        cases hnone
      · exact Or.inr (Or.inl ha)
    · cases hr
  | delete =>
    rcases hdue with hw | ha | hr
    · exact Or.inl hw
    · exact Or.inr (Or.inl ha)
    · cases hr
  | rearm =>
    rcases hdue with hw | ha | hr
    · exact Or.inl hw
    · exact Or.inr (Or.inl ha)
    · cases hr
  | stay => exact hdue
  | cancelCalling => exact hdue
  | cancelIdle => exact hdue
  | fire => exact hdue

/-- A timer that is started will not be run again unless `reset` restarts it. -/
theorem Move.not_due (m : s.Move op s' out) (hs : s.Valid) {a : ActiveTimer} {e n : Timestamp}
    (ha : .started a e n ∈ out) : ¬ s'.Due a := by
  obtain ⟨now,expired,f,rest,timer,hphase,hptr,hheap,hseq,_,_,_,rfl⟩ := m.started ha
  have hf : f ∈ s.phase.owned := hs.rest.subset (by rw [hphase]; exact List.mem_cons_self)
  obtain ⟨hwaiting,t,ht,_,hactive⟩ := hs.owned hf
  have hnodup := ((List.nodup_append.mp hs.rep.nodup).2.1.sublist
    (List.Sublist.map Entry.timer hs.rest.sublist))
  rw [hphase] at hnodup
  rintro (hw | hin | hr)
  · exact hwaiting (hptr ▸ hw)
  · rw [hptr] at ht hactive
    rw [Option.some.inj (ht.symm.trans hheap), hseq] at hactive
    exact hactive hin
  · exact (List.nodup_cons.mp hnodup).1 (hptr ▸ hr)

/-- A step starts one timer at most. -/
theorem Move.count_started_le (m : s.Move op s' out) (a : ActiveTimer) : (startedTimers out).count a ≤ 1 := by
  have hlength : (startedTimers out).length ≤ 1 := by
    cases m <;> first | exact Nat.zero_le 1 | exact Nat.le_refl 1
  exact Nat.le_trans List.count_le_length hlength

theorem OneShots.move (h : s.OneShots acc) (hs : s.Valid) (m : s.Move op s' out) :
    s'.OneShots (acc ++ out) := by
  have hgiven {a : ActiveTimer} (ha : a ∈ startedTimers out) : a.sequence ≤ s.numCreated := by
    obtain ⟨e,n,hmem⟩ := mem_startedTimers.mp ha
    obtain ⟨timer,hheap,hseq⟩ := m.uses hmem rfl
    exact hseq ▸ hs.rep.given _ timer hheap
  refine ⟨?_, ?_, ?_, ?_⟩
  · intro a interval ha
    rcases List.mem_append.mp ha with ha | ha
    · obtain ⟨hle,hsame⟩ := h.created a interval ha
      refine ⟨Nat.le_trans hle m.numCreated_le, ?_⟩
      intro p timer hp hseq
      rcases m.heap hp with hnew | ⟨old,hold,hoseq,hinterval⟩
      · omega
      · exact hinterval ▸ hsame p old hold (hoseq.trans hseq)
    · obtain ⟨hnew,hnum,time,hheap⟩ := m.created ha
      refine ⟨by omega, ?_⟩
      intro p timer hp hseq
      have hptr := (hs.move m).rep.unique p a.timer timer _ hp hheap hseq
      rw [hptr] at hp
      rw [Option.some.inj (hp.symm.trans hheap)]
  · intro a ha
    rw [startedTimers_append, List.mem_append] at ha
    rcases ha with ha | ha
    · exact Nat.le_trans (h.started a ha) m.numCreated_le
    · exact Nat.le_trans (hgiven ha) m.numCreated_le
  · intro a ha
    rw [startedTimers_append, List.count_append]
    rcases List.mem_append.mp ha with hcreated | hcreated
    · by_cases hstarted : a ∈ startedTimers out
      · -- it is started now, and so it has not been started before
        obtain ⟨e,n,hmem⟩ := mem_startedTimers.mp hstarted
        obtain ⟨now,expired,f,rest,timer,hphase,hptr,hheap,hseq,_⟩ := m.started hmem
        have hdue : s.Due ⟨a.timer, timer.sequence⟩ := by
          apply Or.inr
          apply Or.inr
          rw [hphase, ← hptr]
          exact List.mem_cons_self
        have hfresh := h.fresh a.timer timer hheap ((h.created a none hcreated).2 _ timer hheap hseq) hdue
        rw [hseq] at hfresh
        have hzero : (startedTimers acc).count a = 0 := List.count_eq_zero.mpr hfresh
        have := m.count_started_le a
        omega
      · have hzero : (startedTimers out).count a = 0 := List.count_eq_zero.mpr hstarted
        have := h.once a hcreated
        omega
    · obtain ⟨hnew,_⟩ := m.created hcreated
      have hzero : (startedTimers acc).count a = 0 := by
        apply List.count_eq_zero.mpr
        intro hmem
        have := h.started a hmem
        omega
      have := m.count_started_le a
      omega
  · intro p timer hp hnone hdue hmem
    rw [startedTimers_append, List.mem_append] at hmem
    rcases m.heap hp with hnew | ⟨old,hold,hseq,hinterval⟩
    · have hle : timer.sequence ≤ s.numCreated := hmem.elim (h.started _) hgiven
      omega
    · rcases hmem with hmem | hmem
      · rw [← hseq] at hmem hdue
        rw [← hinterval] at hnone
        exact h.fresh p old hold hnone (m.due hs hold hnone hdue) hmem
      · obtain ⟨e,n,hstarted⟩ := mem_startedTimers.mp hmem
        exact m.not_due hs hstarted hdue

/-- A new timer that the loop adds becomes active, with an entry for its time. -/
theorem Valid.added (hs : s.Valid) {p : TimerPtr} (hfree : s.heap p = none) (hmay : s.mayCall = true)
    (time : Timestamp) (interval : Option ℕ) (clock : Timestamp) :
    ∃ s' out, s.run [.newTimer p time interval, .addTimerInLoop p clock] = .ok (s', out) ∧
      s'.heap p = some ⟨time, interval, s.numCreated+1⟩ ∧ ⟨p, s.numCreated+1⟩ ∈ s'.activeTimers ∧
      ⟨time, p⟩ ∈ s'.timers := by
  have hnew : s.step (.newTimer p time interval) = .ok (_, _) := congrArg Except.ok (if_pos hfree)
  have hs1 := hs.move (Move.newTimer p time interval hfree)
  obtain ⟨timer,early,hheap,_,hadd⟩ := hs1.add_ok List.mem_cons_self hmay clock
  have htimer : Function.update s.heap p (some ⟨time, interval, s.numCreated+1⟩) p =
      some ⟨time, interval, s.numCreated+1⟩ := Function.update_self ..
  obtain rfl := Option.some.inj (htimer.symm.trans hheap)
  exact ⟨_, _, Runs.run_cons_of_ok hnew (Runs.run_single hadd), htimer,
    OrderedSet.mem_insert.mpr (Or.inl rfl), OrderedSet.mem_insert.mpr (Or.inl rfl)⟩

end TimerQueue

/-- What a `timespec` means. -/
def Timespec.microseconds (t : Timespec) : ℤ := t.tv_sec*1000000+t.tv_nsec/1000

theorem howmuchTimeFromNow_microseconds (expiration clock : Timestamp) :
    (howmuchTimeFromNow expiration clock).microseconds = max 100 (int64 (expiration-clock)) := by
  have hsplit (n : ℤ) : n/1000000*1000000+n%1000000*1000/1000 = n := by omega
  unfold howmuchTimeFromNow Timespec.microseconds
  dsimp only
  rw [hsplit]
  split
  case isTrue hsmall => exact (max_eq_left (le_of_lt hsmall)).symm
  case isFalse hlarge => exact (max_eq_right (not_lt.mp hlarge)).symm

/-- The `timerfd` is never disarmed. -/
theorem resetTimerfd_armed (expiration clock : Timestamp) : resetTimerfd expiration clock =
    .armed ⟨expiration, clock, howmuchTimeFromNow expiration clock⟩ := by
  apply if_neg
  intro hzero
  have hmicro := howmuchTimeFromNow_microseconds expiration clock
  rw [hzero] at hmicro
  have hnone : (⟨0, 0⟩ : Timespec).microseconds = 0 := rfl
  have hle := le_max_left 100 (int64 (expiration-clock))
  omega

namespace TimerQueue
variable {s s' : TimerQueue} {op : TimerOp} {acc out : List TimerObs}

/-- The `timerfd` will fire, or has fired, for the time or an earlier one. -/
def CoveredBy (fd : Timerfd) (time : Timestamp) : Prop :=
  ∃ setting, (fd = .armed setting ∨ fd = .fired setting) ∧ setting.expiration ≤ time ∧
    setting.value.microseconds = max 100 (setting.expiration-setting.clock)

theorem coveredBy_reset {expiration clock time : Timestamp} (h : expiration ≤ time)
    (hfits : FitsInt64 (expiration-clock)) : CoveredBy (resetTimerfd expiration clock) time := by
  have hvalue := howmuchTimeFromNow_microseconds expiration clock
  rw [int64_eq hfits] at hvalue
  rw [resetTimerfd_armed]
  exact ⟨_, Or.inl rfl, h, hvalue⟩

theorem CoveredBy.later {fd : Timerfd} {t u : Timestamp} (h : CoveredBy fd t) (hle : t ≤ u) :
    CoveredBy fd u := by
  obtain ⟨setting,hfd,htime,hvalue⟩ := h
  exact ⟨setting, hfd, le_trans htime hle, hvalue⟩

/-- During `handleRead` only the entries that are not valid count: what is left is later than its `now`,
and `reset` will arm the `timerfd` for that. -/
structure Armed (s : TimerQueue) : Prop where
  covered : ∀ e ∈ s.timers, s.phase = .idle ∨ e.time ≤ 0 → CoveredBy s.timerfd e.time
  calling : ∀ now expired rest, s.phase = .calling now expired rest → 0 < now
  resetting : ∀ now todo, s.phase = .resetting now todo → 0 < now

/-- `handleRead` reads a clock that is after the epoch, and neither the new expiration of a timer nor the
time that is left until an expiration leaves the range of `int64_t`. -/
def TimesFit (s : TimerQueue) : TimerOp → Prop
  | .handleRead now => 0 < now
  | .addTimerInLoop p clock => ∀ timer, p ∈ s.waiting → s.heap p = some timer →
      (∀ e ∈ s.timers, timer.expiration < e.time) → FitsInt64 (timer.expiration-clock)
  | .resetNext => ∀ now e todo timer interval, s.phase = .resetting now (e :: todo) →
      s.heap e.timer = some timer → timer.interval = some interval →
      ⟨e.timer, timer.sequence⟩ ∉ s.cancelingTimers → FitsInt64 (now+interval)
  | .rearm clock => ∀ now e, s.phase = .resetting now [] → s.timers.first = some e → 0 < e.time →
      FitsInt64 (e.time-clock)
  | .newTimer _ _ _ | .cancelInLoop _ | .fire | .callNext | .endCalls => True

/-- The entries after `addTimerInLoop`, which sets the `timerfd` for one that comes first. -/
theorem Armed.covered_add (h : s.Armed) {p : TimerPtr} {clock time : Timestamp} {early : Bool}
    (hearly : early = true ↔ ∀ e ∈ s.timers, time < e.time) (hfits : early = true → FitsInt64 (time-clock))
    {e : Entry} (he : e ∈ (s.timers.insert ⟨time, p⟩).1) (hcase : s.phase = .idle ∨ e.time ≤ 0) :
    CoveredBy (if early then resetTimerfd time clock else s.timerfd) e.time := by
  cases early with
  | true =>
    refine coveredBy_reset ?_ (hfits rfl)
    rcases OrderedSet.mem_insert.mp he with rfl | he
    · exact le_refl _
    · exact le_of_lt (hearly.mp rfl e he)
  | false =>
    rcases OrderedSet.mem_insert.mp he with rfl | he
    · -- there is an entry that is not later
      have hnot : ¬ ∀ e ∈ s.timers, time < e.time := fun hall => by cases hearly.mpr hall
      obtain ⟨f,hf,hle⟩ := not_forall₂.mp hnot
      have hlef : f.time ≤ time := not_lt.mp hle
      exact (h.covered f hf (hcase.imp id (le_trans hlef))).later hlef
    · exact h.covered e he hcase

/-- The entries after `reset`, which sets the `timerfd` for the first one where its time is valid. -/
theorem Armed.covered_rearm (h : s.Armed) {clock : Timestamp} {timerfd : Timerfd}
    (hfd : match s.timers.first with
      | none => timerfd = s.timerfd
      | some e => timerfd = if 0 < e.time then resetTimerfd e.time clock else s.timerfd)
    (hfits : ∀ f, s.timers.first = some f → 0 < f.time → FitsInt64 (f.time-clock))
    {e : Entry} (he : e ∈ s.timers) : CoveredBy timerfd e.time := by
  cases hfirst : s.timers.first with
  | none => exact absurd he (OrderedSet.first_eq_none.mp hfirst e)
  | some f =>
    rw [hfirst] at hfd
    replace hfd : timerfd = if 0 < f.time then resetTimerfd f.time clock else s.timerfd := hfd
    have hle : f.time ≤ e.time := Entry.time_le (OrderedSet.first_le hfirst he)
    rw [hfd]
    split
    case isTrue hvalid => exact coveredBy_reset hle (hfits f hfirst hvalid)
    case isFalse hinvalid =>
      -- it was inserted during the batch, which has armed the `timerfd` for it or an earlier one
      exact (h.covered f (OrderedSet.first_mem hfirst) (Or.inr (not_lt.mp hinvalid))).later hle

/-- Inside a `handleRead` only the entries that are not valid have to be covered. -/
theorem Armed.inside {now : Timestamp} (hnow : 0 < now)
    (hphase : (∃ expired rest, s.phase = .calling now expired rest) ∨ ∃ todo, s.phase = .resetting now todo)
    (hcovered : ∀ e ∈ s.timers, e.time ≤ 0 → CoveredBy s.timerfd e.time) : s.Armed := by
  refine ⟨?_, ?_, ?_⟩
  · intro e he hcase
    rcases hcase with hidle | hle
    · rcases hphase with ⟨_,_,hcalling⟩ | ⟨_,hresetting⟩
      · cases hidle.symm.trans hcalling
      · cases hidle.symm.trans hresetting
    · exact hcovered e he hle
  · intro now' expired rest heq
    rcases hphase with ⟨_,_,hcalling⟩ | ⟨_,hresetting⟩
    · exact (ReadPhase.calling.inj (hcalling.symm.trans heq)).1 ▸ hnow
    · cases hresetting.symm.trans heq
  · intro now' todo heq
    rcases hphase with ⟨_,_,hcalling⟩ | ⟨_,hresetting⟩
    · cases hcalling.symm.trans heq
    · exact (ReadPhase.resetting.inj (hresetting.symm.trans heq)).1 ▸ hnow

theorem Armed.move (h : s.Armed) (hop : s.TimesFit op) (m : s.Move op s' out) : s'.Armed := by
  have hinvalid (e : Entry) (he : e ∈ s.timers) (hle : e.time ≤ 0) : CoveredBy s.timerfd e.time :=
    h.covered e he (Or.inr hle)
  cases m with
  | stay => exact h
  | newTimer => exact ⟨h.covered, h.calling, h.resetting⟩
  | cancelCalling => exact ⟨h.covered, h.calling, h.resetting⟩
  | cancelIdle => exact h
  | cancelActive =>
    exact ⟨fun e he => h.covered e (OrderedSet.mem_erase.mp he).2, h.calling, h.resetting⟩
  | add p clock timer early hwaiting hheap hearly =>
    have hfits (hfirst : early = true) := hop timer hwaiting hheap (hearly.mp hfirst)
    exact ⟨fun e he hcase => h.covered_add hearly hfits he hcase, h.calling, h.resetting⟩
  | fire setting harmed =>
    refine ⟨?_, h.calling, h.resetting⟩
    intro e he hcase
    obtain ⟨setting',hfd,hle,hvalue⟩ := h.covered e he hcase
    rw [harmed] at hfd
    rcases hfd with heq | heq
    · exact ⟨setting', Or.inr (congrArg Timerfd.fired (Timerfd.armed.inj heq)), hle, hvalue⟩
    · cases heq
  | handleRead now activeTimers hphase =>
    have hnow : 0 < now := hop
    refine Armed.inside hnow (Or.inl ⟨_, _, rfl⟩) ?_
    intro e he hle
    have hlater : now < e.time := Entry.sentry_lt.mp (OrderedSet.lt_of_mem_above he)
    exact absurd hle (not_le.mpr (lt_trans hnow hlater))
  | callNext now expired e rest timer hphase =>
    exact Armed.inside (h.calling now expired (e :: rest) hphase) (Or.inl ⟨_, _, rfl⟩) hinvalid
  | endCalls now expired hphase =>
    exact Armed.inside (h.calling now expired [] hphase) (Or.inr ⟨_, rfl⟩) hinvalid
  | restart now e todo timer interval hphase hheap hinterval hcanceling =>
    have hnow := h.resetting now (e :: todo) hphase
    refine Armed.inside hnow (Or.inr ⟨_, rfl⟩) ?_
    intro f hf hle
    rcases OrderedSet.mem_insert.mp hf with rfl | hf
    · have hfits := hop now e todo timer interval hphase hheap hinterval hcanceling
      have hnew : 0 < addTime now interval := by
        rw [addTime, int64_eq hfits]
        exact Int.add_pos_of_pos_of_nonneg hnow (Int.natCast_nonneg interval)
      exact absurd hle (not_le.mpr hnew)
    · exact hinvalid f hf hle
  | delete now e todo timer hphase =>
    exact Armed.inside (h.resetting now (e :: todo) hphase) (Or.inr ⟨_, rfl⟩) hinvalid
  | rearm now clock timerfd hphase hfd =>
    refine ⟨?_, fun _ _ _ heq => (by cases heq), fun _ _ heq => by cases heq⟩
    exact fun e he _ => h.covered_rearm hfd (fun f => hop now f hphase) he

end TimerQueue

/-- In every run in which the clock is after the epoch when `handleRead` reads it and no time leaves the
range of `int64_t`, the `timerfd` is armed or has fired whenever there are timers and no `handleRead` is
running, and it was set for a time not later than their first one, a hundred microseconds ahead at least. -/
theorem timerfd_covers_timers (ops : List TimerOp)
    (h : Runs.Along TimerQueue.step TimerQueue.TimesFit TimerQueue.new ops) :
    ∃ s out, TimerQueue.new.run ops = .ok (s, out) ∧ (s.phase = .idle → ∀ e ∈ s.timers, ∃ setting,
      (s.timerfd = .armed setting ∨ s.timerfd = .fired setting) ∧ setting.expiration ≤ e.time ∧
      setting.value.microseconds = max 100 (setting.expiration-setting.clock)) := by
  have hnew : TimerQueue.new.Armed :=
    ⟨fun e he => (by cases he), fun _ _ _ heq => (by cases heq), fun _ _ heq => by cases heq⟩
  obtain ⟨s,out,hrun,_,harmed⟩ := TimerQueue.run_of_moves (fun s _ => s.Armed)
    (fun _ _ _ _ _ _ h hop m => h.move hop m) TimerQueue.valid_new hnew h
  exact ⟨s, out, hrun, fun hidle e he => harmed.covered e he (Or.inl hidle)⟩

/-- A timer that is due at once is run, and another one is still to come. -/
theorem timerfd_covers_timers_later : ∃ s out, TimerQueue.new.run [.newTimer 1 (-5) none,
      .addTimerInLoop 1 10, .newTimer 2 500 (some 50), .addTimerInLoop 2 20, .fire, .handleRead 200, .callNext,
      .endCalls, .resetNext, .rearm 210] = .ok (s, out) ∧ ∃ setting,
    (s.timerfd = .armed setting ∨ s.timerfd = .fired setting) ∧ setting.expiration ≤ 500 ∧
    setting.value.microseconds = max 100 (setting.expiration-setting.clock) := by
  have hfit : Runs.Along TimerQueue.step TimerQueue.TimesFit TimerQueue.new [.newTimer 1 (-5) none,
      .addTimerInLoop 1 10, .newTimer 2 500 (some 50), .addTimerInLoop 2 20, .fire, .handleRead 200, .callNext,
      .endCalls, .resetNext, .rearm 210] := by
    refine Runs.along_cons trivial rfl ?_
    refine Runs.along_cons ?_ rfl ?_
    · rintro timer _ ⟨rfl⟩ _
      exact ⟨by decide, by decide⟩
    refine Runs.along_cons trivial rfl ?_
    refine Runs.along_cons ?_ rfl ?_
    · rintro timer _ ⟨rfl⟩ _
      exact ⟨by decide, by decide⟩
    refine Runs.along_cons trivial rfl ?_
    refine Runs.along_cons (show 0 < 200 by decide) rfl ?_
    refine Runs.along_cons trivial rfl ?_
    refine Runs.along_cons trivial rfl ?_
    refine Runs.along_cons ?_ rfl ?_
    · rintro now e todo timer interval ⟨rfl⟩ ⟨rfl⟩ ⟨⟩
    refine Runs.along_cons ?_ rfl trivial
    rintro now e ⟨rfl⟩ ⟨rfl⟩ _
    exact ⟨by decide, by decide⟩
  obtain ⟨s,out,hrun,hcovered⟩ := timerfd_covers_timers _ hfit
  obtain ⟨rfl,_⟩ := Prod.mk.inj (Except.ok.inj (hrun.symm.trans rfl))
  exact ⟨_, out, hrun, hcovered rfl ⟨500, 2⟩ List.mem_cons_self⟩

/-- For a timer at the least `Timestamp` the greatest delay is set, and a repeating one whose new
expiration overflows is left without a `timerfd`. -/
theorem timerfd_covers_timers_fails : (∃ s out value, TimerQueue.new.run [.newTimer 1 (-2^63) none,
      .addTimerInLoop 1 10] = .ok (s, out) ∧ s.phase = .idle ∧ ⟨-2^63, 1⟩ ∈ s.timers ∧
      s.timerfd = .armed ⟨-2^63, 10, value⟩ ∧ value.microseconds = 2^63-10) ∧
    ∃ s out, TimerQueue.new.run [.newTimer 1 500 (some (2^63-2048)), .addTimerInLoop 1 10, .fire,
        .handleRead 3000, .callNext, .endCalls, .resetNext, .rearm 3010] = .ok (s, out) ∧
      s.phase = .idle ∧ ⟨952-2^63, 1⟩ ∈ s.timers ∧ s.timerfd = .disarmed :=
  ⟨⟨_, _, _, rfl, rfl, List.mem_cons_self, rfl, rfl⟩, _, _, rfl, rfl, List.mem_cons_self, rfl⟩

end IdealServer
