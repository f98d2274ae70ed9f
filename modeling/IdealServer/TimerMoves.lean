import IdealServer.TimerQueue

/-! What a step of the `TimerQueue` can do, and what it keeps. -/
namespace IdealServer
namespace TimerQueue

variable {s s' : TimerQueue} {op : TimerOp} {out : List TimerObs}

structure Valid (s : TimerQueue) : Prop where
  rep : s.Represents (s.waiting ++ s.phase.owned.map Entry.timer)
  calling : s.callingExpiredTimers = s.phase.isCalling
  keys : ∀ e ∈ s.phase.owned, ∃ timer, s.heap e.timer = some timer ∧ timer.expiration = e.time
  rest : s.phase.rest <:+ s.phase.owned
  due : ∀ now expired rest, s.phase = .calling now expired rest → ∀ e ∈ expired, e.time ≤ now

theorem valid_new : new.Valid := by
  refine ⟨⟨?_, ?_, rfl, ?_, ?_, List.nodup_nil, ?_⟩, rfl, ?_, List.suffix_refl _, ?_⟩
  · intro e he
    cases he
  · intro a ha
    cases ha
  · intro p timer hp
    cases hp
  · intro p q timer timer' hp
    cases hp
  · intro p
    refine ⟨fun hp => (by cases hp), ?_⟩
    rintro ⟨timer,hp,_⟩
    cases hp
  · intro e he
    cases he
  · intro now expired rest hphase
    cases hphase

/-- All that a step can do in a state that is valid. -/
inductive Move (s : TimerQueue) : TimerOp → TimerQueue → List TimerObs → Prop
  | stay (op : TimerOp) (hbusy : ∀ now, op = .handleRead now → s.phase ≠ .idle) : Move s op s []
  | newTimer (p time interval) (hfree : s.heap p = none) : Move s (.newTimer p time interval)
      { s with
        heap := Function.update s.heap p (some ⟨time, interval, s.numCreated+1⟩)
        numCreated := s.numCreated+1
        waiting := p :: s.waiting } [.created ⟨p, s.numCreated+1⟩ interval]
  | add (p clock timer) (early : Bool) (hwaiting : p ∈ s.waiting) (hheap : s.heap p = some timer)
      (hearly : early = true ↔ ∀ e ∈ s.timers, timer.expiration < e.time) : Move s (.addTimerInLoop p clock)
      { s with
        waiting := s.waiting.erase p
        timers := (s.timers.insert ⟨timer.expiration, p⟩).1
        activeTimers := (s.activeTimers.insert ⟨p, timer.sequence⟩).1
        timerfd := if early then resetTimerfd timer.expiration clock else s.timerfd }
      [.inserted ⟨p, timer.sequence⟩]
  | cancelActive (timerId timer) (hactive : timerId ∈ s.activeTimers)
      (hheap : s.heap timerId.timer = some timer) (hseq : timer.sequence = timerId.sequence) :
      Move s (.cancelInLoop timerId)
      { s with
        timers := (s.timers.erase ⟨timer.expiration, timerId.timer⟩).1
        heap := Function.update s.heap timerId.timer none
        activeTimers := (s.activeTimers.erase timerId).1 } [.deleted timerId, .cancelled timerId]
  | cancelCalling (timerId) (hgiven : timerId.sequence ≤ s.numCreated) (hactive : timerId ∉ s.activeTimers)
      (hcalling : s.phase.isCalling = true) : Move s (.cancelInLoop timerId)
      { s with cancelingTimers := (s.cancelingTimers.insert timerId).1 } [.cancelled timerId]
  | cancelIdle (timerId) (hgiven : timerId.sequence ≤ s.numCreated) (hactive : timerId ∉ s.activeTimers)
      (hphase : s.phase = .idle) : Move s (.cancelInLoop timerId) s [.cancelled timerId]
  | fire (setting) (harmed : s.timerfd = .armed setting) :
      Move s .fire { s with timerfd := .fired setting } []
  | handleRead (now activeTimers) (hphase : s.phase = .idle)
      (hactive : ∀ a, a ∈ activeTimers ↔
        a ∈ s.activeTimers ∧ a.timer ∉ (s.timers.upTo ⟨now, UINTPTR_MAX⟩).map Entry.timer)
      (hsize : (s.timers.above ⟨now, UINTPTR_MAX⟩).size = activeTimers.size) : Move s (.handleRead now)
      { s with
        timers := s.timers.above ⟨now, UINTPTR_MAX⟩
        activeTimers := activeTimers
        callingExpiredTimers := true
        cancelingTimers := .empty
        timerfd := s.readTimerfd.timerfd
        phase := .calling now (s.timers.upTo ⟨now, UINTPTR_MAX⟩) (s.timers.upTo ⟨now, UINTPTR_MAX⟩) } []
  | callNext (now expired e rest timer) (hphase : s.phase = .calling now expired (e :: rest))
      (hheap : s.heap e.timer = some timer) (htime : timer.expiration = e.time) : Move s .callNext
      { s with phase := .calling now expired rest } [.started ⟨e.timer, timer.sequence⟩ timer.expiration now]
  | endCalls (now expired) (hphase : s.phase = .calling now expired []) :
      Move s .endCalls { s with callingExpiredTimers := false, phase := .resetting now expired } []
  | restart (now e todo timer interval) (hphase : s.phase = .resetting now (e :: todo))
      (hheap : s.heap e.timer = some timer) (hinterval : timer.interval = some interval)
      (hcanceling : ⟨e.timer, timer.sequence⟩ ∉ s.cancelingTimers) : Move s .resetNext
      { s with
        heap := Function.update s.heap e.timer (some { timer with expiration := addTime now interval })
        timers := (s.timers.insert ⟨addTime now interval, e.timer⟩).1
        activeTimers := (s.activeTimers.insert ⟨e.timer, timer.sequence⟩).1
        phase := .resetting now todo } [.inserted ⟨e.timer, timer.sequence⟩]
  | delete (now e todo timer) (hphase : s.phase = .resetting now (e :: todo))
      (hheap : s.heap e.timer = some timer)
      (hgone : timer.interval = none ∨ ⟨e.timer, timer.sequence⟩ ∈ s.cancelingTimers) : Move s .resetNext
      { s with heap := Function.update s.heap e.timer none, phase := .resetting now todo }
      [.deleted ⟨e.timer, timer.sequence⟩]
  | rearm (now clock) (timerfd : Timerfd) (hphase : s.phase = .resetting now [])
      (hfd : match s.timers.first with
        | none => timerfd = s.timerfd
        | some e => timerfd = if 0 < e.time then resetTimerfd e.time clock else s.timerfd) :
      Move s (.rearm clock) { s with phase := .idle, timerfd := timerfd } []

theorem newTimer_move (s : TimerQueue) (p : TimerPtr) (time : Timestamp) (interval : Option ℕ) :
    s.Move (.newTimer p time interval) (s.newTimer p time interval).1 (s.newTimer p time interval).2 := by
  unfold newTimer
  split
  case isTrue h => exact .newTimer p time interval h
  case isFalse => exact .stay _ (fun _ h => by cases h)

/-- A timer that waits is inserted, and the `timerfd` is set where it comes first. -/
theorem Valid.add_ok (h : s.Valid) {p : TimerPtr} (hwaiting : p ∈ s.waiting) (hmay : s.mayCall = true)
    (clock : Timestamp) : ∃ timer early, s.heap p = some timer ∧
      (early = true ↔ ∀ e ∈ s.timers, timer.expiration < e.time) ∧
      s.addTimerInLoop p clock = .ok ({ s with
        waiting := s.waiting.erase p
        timers := (s.timers.insert ⟨timer.expiration, p⟩).1
        activeTimers := (s.activeTimers.insert ⟨p, timer.sequence⟩).1
        timerfd := if early then resetTimerfd timer.expiration clock else s.timerfd },
        [.inserted ⟨p, timer.sequence⟩]) := by
  have hloose : p ∈ s.waiting ++ s.phase.owned.map Entry.timer := List.mem_append_left _ hwaiting
  obtain ⟨timer,hheap,hactive⟩ := (h.rep.loose p).mp hloose
  have htimers := h.rep.not_mem_timers hloose timer.expiration
  obtain ⟨early,hok,hearly⟩ := @insert_ok { s with waiting := s.waiting.erase p } p timer hheap h.rep.size
    htimers hactive
  refine ⟨timer, early, hheap, hearly, ?_⟩
  unfold addTimerInLoop
  rw [if_pos ⟨hwaiting, hmay⟩, hheap]
  dsimp only
  rw [hok]
  cases early with
  | true => rfl
  | false => rfl

theorem Valid.add_move (h : s.Valid) (p : TimerPtr) (clock : Timestamp) : ∃ s' out,
    s.addTimerInLoop p clock = .ok (s', out) ∧ s.Move (.addTimerInLoop p clock) s' out := by
  by_cases hmay : p ∈ s.waiting ∧ s.mayCall = true
  · obtain ⟨timer,early,hheap,hearly,hok⟩ := h.add_ok hmay.1 hmay.2 clock
    exact ⟨_, _, hok, .add p clock timer early hmay.1 hheap hearly⟩
  · exact ⟨s, [], if_neg hmay, .stay _ (fun _ h => by cases h)⟩

theorem Valid.cancel_move (h : s.Valid) (timerId : TimerId) : ∃ s' out,
    s.cancelInLoop timerId = .ok (s', out) ∧ s.Move (.cancelInLoop timerId) s' out := by
  unfold cancelInLoop
  split
  case isFalse => exact ⟨s, [], rfl, .stay _ (fun _ h => by cases h)⟩
  case isTrue hgiven =>
    rw [if_pos h.rep.size]
    by_cases hactive : timerId ∈ s.activeTimers
    · obtain ⟨timer,hheap,hseq,hkey⟩ := h.rep.active _ hactive
      obtain ⟨hone,hsize⟩ := OrderedSet.erase_mem hkey
      obtain ⟨_,hsize'⟩ := OrderedSet.erase_mem hactive
      have hsizes := h.rep.size
      rw [if_pos hactive, hheap]
      dsimp only
      rw [if_pos ⟨hone, by omega⟩]
      exact ⟨_, _, rfl, .cancelActive timerId timer hactive hheap hseq⟩
    · rw [if_neg hactive]
      by_cases hcalling : s.callingExpiredTimers = true
      · rw [if_pos hcalling]
        exact ⟨_, _, rfl, .cancelCalling timerId hgiven.1 hactive (h.calling.symm.trans hcalling)⟩
      · rw [if_neg hcalling]
        refine ⟨_, _, rfl, .cancelIdle timerId hgiven.1 hactive ?_⟩
        have hnot := h.calling.symm.trans (Bool.not_eq_true _ ▸ hcalling)
        have hmay := hgiven.2
        unfold mayCall at hmay
        cases hphase : s.phase with
        | idle => rfl
        | calling now expired rest =>
          rw [hphase] at hnot
          cases hnot
        | resetting now todo =>
          rw [hphase] at hmay
          cases hmay

theorem Valid.handleRead_move (h : s.Valid) (now : Timestamp) : ∃ s' out,
    s.handleRead now = .ok (s', out) ∧ s.Move (.handleRead now) s' out := by
  unfold handleRead
  cases hphase : s.phase with
  | calling => exact ⟨s, [], rfl, .stay _ (fun _ _ hidle => by cases hphase.symm.trans hidle)⟩
  | resetting => exact ⟨s, [], rfl, .stay _ (fun _ _ hidle => by cases hphase.symm.trans hidle)⟩
  | idle =>
    dsimp only
    have hread : s.readTimerfd = { s with timerfd := s.readTimerfd.timerfd } := by
      unfold readTimerfd
      split <;> rfl
    have hmem {e : Entry} (he : e ∈ s.timers.upTo ⟨now, UINTPTR_MAX⟩) : e ∈ s.timers :=
      (OrderedSet.mem_upTo.mp he).1
    have hsame (a : ActiveTimer) (ha : a ∈ s.activeTimers) (timer : Timer)
        (hheap : s.heap a.timer = some timer) : timer.sequence = a.sequence := by
      obtain ⟨t,ht,hseq,_⟩ := h.rep.active a ha
      rw [Option.some.inj (hheap.symm.trans ht)]
      exact hseq
    obtain ⟨rest,hok,hrest,hsize⟩ := eraseActive_ok (h.rep.nodup_upTo _) hsame (fun e he => by
      obtain ⟨t,ht,_,hactive⟩ := h.rep.key e (hmem he)
      exact ⟨t, ht, hactive⟩)
    have hlater : (s.timers.above ⟨now, UINTPTR_MAX⟩).first.all (fun e => now < e.time) = true := by
      cases hfirst : (s.timers.above ⟨now, UINTPTR_MAX⟩).first with
      | none => rfl
      | some e => exact decide_eq_true (Entry.sentry_lt.mp (OrderedSet.lt_of_mem_above
          (OrderedSet.first_mem hfirst)))
    have habove : (s.timers.above ⟨now, UINTPTR_MAX⟩).size = rest.size := by
      have hsplit := s.timers.size_above ⟨now, UINTPTR_MAX⟩
      have hsizes := h.rep.size
      omega
    rw [hread]
    unfold getExpired
    dsimp only
    rw [if_pos ⟨h.rep.size, hlater⟩, hok]
    dsimp only [Except.bind]
    rw [if_pos habove]
    exact ⟨_, _, rfl, .handleRead now rest hphase hrest habove⟩

/-- While entries are left, the callback of the next one is started. -/
theorem Valid.callNext_ok (h : s.Valid) {now : Timestamp} {e : Entry} {expired rest : List Entry}
    (hphase : s.phase = .calling now expired (e :: rest)) : ∃ timer, s.heap e.timer = some timer ∧
      timer.expiration = e.time ∧ s.callNext = .ok ({ s with phase := .calling now expired rest },
        [.started ⟨e.timer, timer.sequence⟩ timer.expiration now]) := by
  have hrest := h.rest
  have hkeys := h.keys
  rw [hphase] at hrest hkeys
  obtain ⟨timer,hheap,htime⟩ := hkeys e (hrest.subset List.mem_cons_self)
  refine ⟨timer, hheap, htime, ?_⟩
  rw [callNext, hphase]
  dsimp only
  rw [hheap]

theorem Valid.callNext_move (h : s.Valid) : ∃ s' out,
    s.callNext = .ok (s', out) ∧ s.Move .callNext s' out := by
  cases hphase : s.phase with
  | idle => exact ⟨s, [], by rw [callNext, hphase], .stay _ (fun _ h => by cases h)⟩
  | resetting => exact ⟨s, [], by rw [callNext, hphase], .stay _ (fun _ h => by cases h)⟩
  | calling now expired rest =>
    cases rest with
    | nil => exact ⟨s, [], by rw [callNext, hphase], .stay _ (fun _ h => by cases h)⟩
    | cons e rest =>
      obtain ⟨timer,hheap,htime,hok⟩ := h.callNext_ok hphase
      exact ⟨_, _, hok, .callNext now expired e rest timer hphase hheap htime⟩

theorem Valid.resetNext_move (h : s.Valid) : ∃ s' out,
    s.resetNext = .ok (s', out) ∧ s.Move .resetNext s' out := by
  unfold resetNext
  split
  case h_2 => exact ⟨s, [], rfl, .stay _ (fun _ h => by cases h)⟩
  case h_1 now e todo hphase =>
    have hloose : e.timer ∈ s.waiting ++ s.phase.owned.map Entry.timer := by
      rw [hphase]
      exact List.mem_append_right _ List.mem_cons_self
    obtain ⟨timer,hheap,hactive⟩ := (h.rep.loose _).mp hloose
    rw [hheap]
    dsimp only
    by_cases hrepeat : timer.isRepeat = true ∧ ⟨e.timer, timer.sequence⟩ ∉ s.cancelingTimers
    · obtain ⟨interval,hinterval⟩ := Option.isSome_iff_exists.mp hrepeat.1
      have hrestart : timer.restart now = { timer with expiration := addTime now interval } := by
        rw [Timer.restart, hinterval]
      have htimers := h.rep.not_mem_timers hloose (addTime now interval)
      obtain ⟨early,hok,_⟩ := @insert_ok { s with
          heap := Function.update s.heap e.timer (some (timer.restart now))
          phase := .resetting now todo } e.timer { timer with expiration := addTime now interval }
        (by rw [hrestart]; exact Function.update_self ..) h.rep.size htimers hactive
      rw [if_pos hrepeat, hok, hrestart]
      exact ⟨_, _, rfl, .restart now e todo timer interval hphase hheap hinterval hrepeat.2⟩
    · rw [if_neg hrepeat]
      refine ⟨_, _, rfl, .delete now e todo timer hphase hheap ?_⟩
      by_cases hcanceling : ⟨e.timer, timer.sequence⟩ ∈ s.cancelingTimers
      · exact Or.inr hcanceling
      · apply Or.inl
        by_contra hsome
        exact hrepeat ⟨Option.isSome_iff_ne_none.mpr hsome, hcanceling⟩

theorem Valid.rearm_move (h : s.Valid) (clock : Timestamp) : ∃ s' out,
    s.rearm clock = .ok (s', out) ∧ s.Move (.rearm clock) s' out := by
  unfold rearm
  split
  case h_2 => exact ⟨s, [], rfl, .stay _ (fun _ h => by cases h)⟩
  case h_1 now hphase =>
    cases hfirst : s.timers.first with
    | none =>
      refine ⟨_, _, rfl, ?_⟩
      exact .rearm now clock s.timerfd hphase (by rw [hfirst])
    | some e =>
      obtain ⟨timer,hheap,htime,_⟩ := h.rep.key e (OrderedSet.first_mem hfirst)
      dsimp only
      rw [hheap]
      refine ⟨_, _, rfl, ?_⟩
      rw [htime]
      refine .rearm now clock _ hphase ?_
      rw [hfirst]
      simp only [Timestamp.valid, decide_eq_true_eq]

/-- No assertion fails, and no timer is used that does not exist. -/
theorem Valid.step_move (h : s.Valid) (op : TimerOp) : ∃ s' out,
    s.step op = .ok (s', out) ∧ s.Move op s' out := by
  cases op with
  | newTimer p time interval => exact ⟨_, _, rfl, s.newTimer_move p time interval⟩
  | addTimerInLoop p clock => exact h.add_move p clock
  | cancelInLoop timerId => exact h.cancel_move timerId
  | handleRead now => exact h.handleRead_move now
  | callNext => exact h.callNext_move
  | resetNext => exact h.resetNext_move
  | rearm clock => exact h.rearm_move clock
  | fire =>
    refine ⟨_, _, rfl, ?_⟩
    unfold fire
    split
    case h_1 setting harmed => exact .fire setting harmed
    case h_2 => exact .stay _ (fun _ h => by cases h)
  | endCalls =>
    refine ⟨_, _, rfl, ?_⟩
    unfold endCalls
    split
    case h_1 now expired hphase => exact .endCalls now expired hphase
    case h_2 => exact .stay _ (fun _ h => by cases h)

/-- The timers of the entries that `handleRead` still owns are not in the sets, and not waiting. -/
theorem Valid.owned (h : s.Valid) {e : Entry} (he : e ∈ s.phase.owned) : e.timer ∉ s.waiting ∧
    ∃ timer, s.heap e.timer = some timer ∧ timer.expiration = e.time ∧
      ⟨e.timer, timer.sequence⟩ ∉ s.activeTimers := by
  have hmem : e.timer ∈ s.phase.owned.map Entry.timer := List.mem_map_of_mem he
  obtain ⟨timer,hheap,hnot⟩ := (h.rep.loose _).mp (List.mem_append_right _ hmem)
  obtain ⟨timer',hheap',htime⟩ := h.keys e he
  obtain rfl := Option.some.inj (hheap.symm.trans hheap')
  refine ⟨?_, timer, hheap, htime, hnot⟩
  intro hwaiting
  exact (List.nodup_append.mp h.rep.nodup).2.2 _ hwaiting _ hmem rfl

/-- An entry of the timer that an iteration of `reset` takes care of is not among the others. -/
theorem Valid.todo (h : s.Valid) {now : Timestamp} {e : Entry} {todo : List Entry}
    (hphase : s.phase = .resetting now (e :: todo)) : (∀ f ∈ todo, f.timer ≠ e.timer) ∧
    (s.waiting ++ s.phase.owned.map Entry.timer).erase e.timer =
      s.waiting ++ todo.map Entry.timer := by
  have hnodup := h.rep.nodup
  have hwaiting := (h.owned (show e ∈ s.phase.owned by rw [hphase]; exact List.mem_cons_self)).1
  rw [hphase] at hnodup ⊢
  obtain ⟨_,hcons,_⟩ := List.nodup_append.mp hnodup
  refine ⟨?_, ?_⟩
  · intro f hf hptr
    exact (List.nodup_cons.mp hcons).1 (List.mem_map.mpr ⟨f, hf, hptr⟩)
  · rw [List.erase_append_right _ hwaiting]
    exact congrArg (fun l => s.waiting ++ l) (List.erase_cons_head ..)

/-- The entries that are owned keep their timers where the timer that goes, or comes, is another one. -/
theorem Valid.keys_update (h : s.Valid) {p : TimerPtr} {new : Option Timer}
    (hp : ∀ timer, s.heap p = some timer → ⟨p, timer.sequence⟩ ∈ s.activeTimers) {e : Entry}
    (he : e ∈ s.phase.owned) :
    ∃ timer, Function.update s.heap p new e.timer = some timer ∧ timer.expiration = e.time := by
  obtain ⟨_,timer,hheap,htime,hnot⟩ := h.owned he
  have hne : e.timer ≠ p := by
    rintro rfl
    exact hnot (hp timer hheap)
  exact ⟨timer, (Function.update_of_ne hne _ _).trans hheap, htime⟩

theorem Valid.newTimer (h : s.Valid) {p : TimerPtr} {time : Timestamp} {interval : Option ℕ}
    (m : s.Move (.newTimer p time interval) s' out) : s'.Valid := by
  cases m with
  | stay => exact h
  | newTimer _ _ _ hfree =>
    refine ⟨(h.rep.allocate hfree time interval).congr rfl rfl rfl rfl, h.calling, ?_, h.rest, h.due⟩
    intro e he
    exact h.keys_update (fun timer hp => by cases hfree.symm.trans hp) he

theorem Valid.addTimerInLoop (h : s.Valid) {p : TimerPtr} {clock : Timestamp}
    (m : s.Move (.addTimerInLoop p clock) s' out) : s'.Valid := by
  cases m with
  | stay => exact h
  | add _ _ timer early hwaiting hheap =>
    have hplace := h.rep.place (List.mem_append_left _ hwaiting) hheap rfl
    rw [List.erase_append_left _ hwaiting] at hplace
    rw [← hheap, Function.update_eq_self] at hplace
    exact ⟨hplace.congr rfl rfl rfl rfl, h.calling, h.keys, h.rest, h.due⟩

theorem Valid.cancelInLoop (h : s.Valid) {timerId : TimerId} (m : s.Move (.cancelInLoop timerId) s' out) :
    s'.Valid := by
  cases m with
  | stay => exact h
  | cancelIdle => exact h
  | cancelCalling => exact ⟨h.rep.congr rfl rfl rfl rfl, h.calling, h.keys, h.rest, h.due⟩
  | cancelActive _ timer hactive hheap hseq =>
    refine ⟨h.rep.cancel hactive hheap, h.calling, ?_, h.rest, h.due⟩
    intro e he
    refine h.keys_update ?_ he
    intro t ht
    rw [Option.some.inj (ht.symm.trans hheap), hseq]
    exact hactive

theorem Valid.handleRead (h : s.Valid) {now : Timestamp} (m : s.Move (.handleRead now) s' out) :
    s'.Valid := by
  cases m with
  | stay => exact h
  | handleRead _ activeTimers hphase hactive hsize =>
    have hrep := h.rep
    rw [hphase] at hrep
    have htaken (e : Entry) : e ∈ s.timers ↔ e ∈ s.timers.above ⟨now, UINTPTR_MAX⟩ ∨
        e ∈ s.timers.upTo ⟨now, UINTPTR_MAX⟩ := by
      rw [OrderedSet.mem_above, OrderedSet.mem_upTo]
      constructor
      · intro he
        rcases lt_or_ge (⟨now, UINTPTR_MAX⟩ : Entry) e with hlt | hle
        · exact Or.inl ⟨he, hlt⟩
        · exact Or.inr ⟨he, hle⟩
      · rintro (he | he) <;> exact he.1
    have htake := hrep.take (h.rep.nodup_upTo _) htaken
      (fun e he hmem => absurd (OrderedSet.le_of_mem_upTo hmem) (not_le.mpr (OrderedSet.lt_of_mem_above he)))
      hactive hsize
    refine ⟨?_, rfl, ?_, List.suffix_refl _, ?_⟩
    · rw [show (ReadPhase.idle.owned.map Entry.timer) = [] from rfl, List.append_nil] at htake
      exact htake.congr rfl rfl rfl rfl
    · intro e he
      obtain ⟨timer,hheap,htime,_⟩ := h.rep.key e (OrderedSet.mem_upTo.mp he).1
      exact ⟨timer, hheap, htime⟩
    · intro now' expired rest heq e he
      obtain ⟨rfl,rfl,_⟩ := ReadPhase.calling.inj heq
      exact Entry.le_sentry.mp (OrderedSet.le_of_mem_upTo he)

theorem Valid.callNext (h : s.Valid) (m : s.Move .callNext s' out) : s'.Valid := by
  cases m with
  | stay => exact h
  | callNext now expired e rest timer hphase =>
    have hrep := h.rep
    have hkeys := h.keys
    have hrest := h.rest
    have hcalling := h.calling
    rw [hphase] at hrep hkeys hrest hcalling
    refine ⟨hrep.congr rfl rfl rfl rfl, hcalling, hkeys, ?_, ?_⟩
    · exact (List.suffix_cons e rest).trans hrest
    · intro now' expired' rest' heq f hf
      obtain ⟨rfl,rfl,_⟩ := ReadPhase.calling.inj heq
      exact h.due _ _ _ hphase f hf

theorem Valid.resetNext (h : s.Valid) (m : s.Move .resetNext s' out) : s'.Valid := by
  have hkeys := h.keys
  have hcalling := h.calling
  have hloose {now : Timestamp} {e : Entry} {todo : List Entry}
      (hphase : s.phase = .resetting now (e :: todo)) :
      e.timer ∈ s.waiting ++ s.phase.owned.map Entry.timer := by
    rw [hphase]
    exact List.mem_append_right _ List.mem_cons_self
  cases m with
  | stay => exact h
  | restart now e todo timer interval hphase hheap hinterval =>
    obtain ⟨hothers,herase⟩ := h.todo hphase
    have hplace := @Represents.place s _ e.timer { timer with expiration := addTime now interval } h.rep
      (hloose hphase) timer hheap rfl
    rw [herase] at hplace
    rw [hphase] at hkeys hcalling
    refine ⟨hplace.congr rfl rfl rfl rfl, hcalling, ?_, List.nil_suffix, fun _ _ _ heq => by cases heq⟩
    intro f hf
    obtain ⟨t,ht,htime⟩ := hkeys f (List.mem_cons_of_mem _ hf)
    exact ⟨t, (Function.update_of_ne (hothers f hf) _ _).trans ht, htime⟩
  | delete now e todo timer hphase hheap =>
    obtain ⟨hothers,herase⟩ := h.todo hphase
    have hfree := h.rep.free (hloose hphase)
    rw [herase] at hfree
    rw [hphase] at hkeys hcalling
    refine ⟨hfree.congr rfl rfl rfl rfl, hcalling, ?_, List.nil_suffix, fun _ _ _ heq => by cases heq⟩
    intro f hf
    obtain ⟨t,ht,htime⟩ := hkeys f (List.mem_cons_of_mem _ hf)
    exact ⟨t, (Function.update_of_ne (hothers f hf) _ _).trans ht, htime⟩

theorem Valid.move (h : s.Valid) (m : s.Move op s' out) : s'.Valid := by
  cases op with
  | newTimer => exact h.newTimer m
  | addTimerInLoop => exact h.addTimerInLoop m
  | cancelInLoop => exact h.cancelInLoop m
  | handleRead => exact h.handleRead m
  | callNext => exact h.callNext m
  | resetNext => exact h.resetNext m
  | fire =>
    cases m with
    | stay => exact h
    | fire => exact ⟨h.rep.congr rfl rfl rfl rfl, h.calling, h.keys, h.rest, h.due⟩
  | endCalls =>
    cases m with
    | stay => exact h
    | endCalls now expired hphase =>
      have hrep := h.rep
      have hkeys := h.keys
      rw [hphase] at hrep hkeys
      exact ⟨hrep.congr rfl rfl rfl rfl, rfl, hkeys, List.nil_suffix, fun _ _ _ heq => by cases heq⟩
  | rearm =>
    cases m with
    | stay => exact h
    | rearm now clock timerfd hphase =>
      have hrep := h.rep
      have hcalling := h.calling
      rw [hphase] at hrep hcalling
      exact ⟨hrep.congr rfl rfl rfl rfl, hcalling, fun e he => (by cases he), List.suffix_refl _,
        fun _ _ _ heq => by cases heq⟩

end TimerQueue
end IdealServer
