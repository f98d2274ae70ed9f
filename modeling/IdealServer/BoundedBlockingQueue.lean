import IdealServer.Monitor
import IdealServer.RingBuffer
import IdealServer.Runs

/-! `BoundedBlockingQueue`: threads that put and take around one `RingBuffer`. The overload of `put` for
lvalues is not instantiable, since `std::forward<T>` does not take its argument. -/
namespace IdealServer

inductive QueueCondition
  | noEmpty
  | noFull
deriving DecidableEq, Repr

inductive QueueCall (T : Type*)
  | put (x : T)
  | take

def QueueCall.putValue {T : Type*} : QueueCall T → Option T
  | .put x => some x
  | .take => none

def QueueCall.isTake {T : Type*} : QueueCall T → Bool
  | .put _ => false
  | .take => true

structure BoundedBlockingQueue (T : Type*) where
  monitor : Monitor ℕ QueueCondition (RingBuffer T)
  /-- The calls that have not returned, awake or asleep. -/
  calls : ℕ → Option (QueueCall T)

inductive QueueEvent (T : Type*)
  | put (thread : ℕ) (x : T)
  | take (thread : ℕ)
  /-- The thread gets the mutex. -/
  | enter (thread : ℕ)
  /-- A wakeup without a notification. -/
  | wake (thread : ℕ)

inductive QueueObs (T : Type*)
  | put (x : T)
  | taken (x : T)

/-- The predicates of the two `wait`s. -/
def QueueCondition.Holds {T : Type*} : QueueCondition → RingBuffer T → Prop
  | .noEmpty, r => r.empty = false
  | .noFull, r => r.full = false

def QueueObs.putValue {T : Type*} : QueueObs T → Option T
  | .put x => some x
  | .taken _ => none

def QueueObs.takenValue {T : Type*} : QueueObs T → Option T
  | .taken x => some x
  | .put _ => none

namespace BoundedBlockingQueue

variable {T : Type*}

def new (T : Type*) [Inhabited T] (maxSize : ℕ) : BoundedBlockingQueue T :=
  ⟨Monitor.new (RingBuffer.new T maxSize), fun _ => none⟩

/-- The member `_queue`. -/
def ring (s : BoundedBlockingQueue T) : RingBuffer T := s.monitor.data

def call (s : BoundedBlockingQueue T) (thread : ℕ) (c : QueueCall T) : BoundedBlockingQueue T :=
  if (s.calls thread).isNone then { s with calls := Function.update s.calls thread (some c) } else s

def finish (s : BoundedBlockingQueue T) (thread : ℕ) (r : RingBuffer T) (c : QueueCondition) :
    BoundedBlockingQueue T :=
  { s with monitor := s.monitor.notifyAll r c, calls := Function.update s.calls thread none }

/-- `put` with the mutex. -/
def put (s : BoundedBlockingQueue T) (thread : ℕ) (x : T) :
    Except RingFault (BoundedBlockingQueue T × List (QueueObs T)) :=
  if s.ring.full then .ok ({ s with monitor := s.monitor.sleep thread .noFull }, [])
  else (s.ring.pushBack x).map (fun r => (s.finish thread r .noEmpty, [.put x]))

/-- `take` with the mutex. -/
def take (s : BoundedBlockingQueue T) (thread : ℕ) :
    Except RingFault (BoundedBlockingQueue T × List (QueueObs T)) :=
  if s.ring.empty then .ok ({ s with monitor := s.monitor.sleep thread .noEmpty }, [])
  else s.ring.front.map (fun x => (s.finish thread s.ring.popFront .noFull, [.taken x]))

def enter (s : BoundedBlockingQueue T) (thread : ℕ) :
    Except RingFault (BoundedBlockingQueue T × List (QueueObs T)) :=
  if (s.monitor.asleep thread).isSome then .ok (s, [])
  else
    match s.calls thread with
    | none => .ok (s, [])
    | some (.put x) => s.put thread x
    | some .take => s.take thread

def step (s : BoundedBlockingQueue T) :
    QueueEvent T → Except RingFault (BoundedBlockingQueue T × List (QueueObs T))
  | .put thread x => .ok (s.call thread (.put x), [])
  | .take thread => .ok (s.call thread .take, [])
  | .enter thread => s.enter thread
  | .wake thread => .ok ({ s with monitor := s.monitor.wake thread }, [])

def runAll : BoundedBlockingQueue T → List (QueueEvent T) →
    Except RingFault (BoundedBlockingQueue T × List (QueueObs T)) := Runs.run step

/-- The call that returns with the step from `s` to `s'`. -/
def returned (s s' : BoundedBlockingQueue T) : QueueEvent T → Option (QueueCall T)
  | .enter thread => if (s'.calls thread).isNone then s.calls thread else none
  | _ => none

/-- The calls that return during a run. -/
def returnedCalls : BoundedBlockingQueue T → List (QueueEvent T) → List (QueueCall T)
  | _, [] => []
  | s, event :: events =>
    match s.step event with
    | .error _ => []
    | .ok (s', _) => (s.returned s' event).toList ++ s'.returnedCalls events

/-- The ring holds what has been put and not been taken, and whoever sleeps has to. -/
structure Fifo (c : ℕ) (s : BoundedBlockingQueue T) (obs : List (QueueObs T)) (queue : List T) : Prop where
  represents : s.ring.Represents queue
  capacity : s.ring.capacity = c
  watched : s.monitor.Watched QueueCondition.Holds
  order : obs.filterMap QueueObs.putValue = obs.filterMap QueueObs.takenValue ++ queue

variable {c : ℕ} {s : BoundedBlockingQueue T} {obs : List (QueueObs T)} {queue : List T}

theorem fifo_new [Inhabited T] (h : 0 < c) : Fifo c (new T c) [] [] :=
  ⟨RingBuffer.represents_new h, rfl, Monitor.watched_new _, rfl⟩

/-- A step of a call, which has the mutex and gives it back. -/
def Progress (c : ℕ) (obs : List (QueueObs T))
    (result : Except RingFault (BoundedBlockingQueue T × List (QueueObs T))) : Prop :=
  ∃ s' out queue', result = .ok (s', out) ∧ Fifo c s' (obs ++ out) queue'

theorem Fifo.quiet {s' : BoundedBlockingQueue T} (h : Fifo c s' obs queue) : Progress c obs (.ok (s', [])) :=
  ⟨s', [], queue, rfl, by rwa [List.append_nil]⟩

theorem Fifo.put (h : Fifo c s obs queue) (thread : ℕ) (x : T) : Progress c obs (s.put thread x) := by
  unfold BoundedBlockingQueue.put
  by_cases hfull : s.ring.full = true
  · -- the thread waits for a place
    rw [if_pos hfull]
    have hsleep : s.monitor.sleep thread .noFull |>.Watched QueueCondition.Holds := by
      apply h.watched.sleep
      intro hroom
      replace hroom : s.ring.full = false := hroom
      rw [hfull] at hroom
      cases hroom
    exact Fifo.quiet ⟨h.represents, h.capacity, hsleep, h.order⟩
  · rw [if_neg hfull]
    have hroom : queue.length < s.ring.capacity :=
      lt_of_le_of_ne h.represents.bound (fun heq => hfull (h.represents.full_iff.mpr heq))
    obtain ⟨r,hr,hcapacity,hrepresents⟩ := h.represents.pushBack hroom x
    rw [hr]
    refine ⟨_, _, queue ++ [x], rfl, hrepresents, hcapacity.trans h.capacity, ?_, ?_⟩
    · apply h.watched.notifyAll
      intro d hd _
      cases d with
      | noEmpty => exact absurd rfl hd
      | noFull => exact Bool.eq_false_of_not_eq_true hfull
    · rw [List.filterMap_append, List.filterMap_append, h.order]
      simp [QueueObs.putValue, QueueObs.takenValue]

theorem Fifo.take (h : Fifo c s obs queue) (thread : ℕ) : Progress c obs (s.take thread) := by
  unfold BoundedBlockingQueue.take
  by_cases hempty : s.ring.empty = true
  · -- the thread waits for a value
    rw [if_pos hempty]
    have hsleep : s.monitor.sleep thread .noEmpty |>.Watched QueueCondition.Holds := by
      apply h.watched.sleep
      intro hsome
      replace hsome : s.ring.empty = false := hsome
      rw [hempty] at hsome
      cases hsome
    exact Fifo.quiet ⟨h.represents, h.capacity, hsleep, h.order⟩
  · rw [if_neg hempty]
    cases queue with
    | nil => exact absurd (h.represents.empty_iff.mpr rfl) hempty
    | cons x rest =>
      rw [h.represents.front]
      refine ⟨_, _, rest, rfl, h.represents.popFront, h.capacity, ?_, ?_⟩
      · apply h.watched.notifyAll
        intro d hd _
        cases d with
        | noEmpty => exact Bool.eq_false_of_not_eq_true hempty
        | noFull => exact absurd rfl hd
      · rw [List.filterMap_append, List.filterMap_append, h.order]
        simp [QueueObs.putValue, QueueObs.takenValue]

theorem Fifo.step (h : Fifo c s obs queue) (event : QueueEvent T) : Progress c obs (s.step event) := by
  have hcall (thread : ℕ) (d : QueueCall T) : Fifo c (s.call thread d) obs queue := by
    unfold BoundedBlockingQueue.call
    split
    · exact ⟨h.represents, h.capacity, h.watched, h.order⟩
    · exact h
  cases event with
  | put thread x => exact (hcall thread (.put x)).quiet
  | take thread => exact (hcall thread .take).quiet
  | enter thread =>
    show Progress c obs (s.enter thread)
    unfold BoundedBlockingQueue.enter
    split
    · exact h.quiet
    · split
      · exact h.quiet
      · exact h.put thread _
      · exact h.take thread
  | wake thread => exact Fifo.quiet ⟨h.represents, h.capacity, h.watched.wake, h.order⟩

theorem fifo_runAll [Inhabited T] (h : 0 < c) (events : List (QueueEvent T)) :
    ∃ s obs queue, (new T c).runAll events = .ok (s, obs) ∧ Fifo c s obs queue := by
  have hstep (s : BoundedBlockingQueue T) (event : QueueEvent T) (events : List (QueueEvent T))
      (acc : List (QueueObs T)) (hs : ∃ queue, Fifo c s acc queue) (_ : True) :
      ∃ s' out, s.step event = .ok (s', out) ∧ ∃ queue, Fifo c s' (acc ++ out) queue := by
    obtain ⟨queue,hs⟩ := hs
    obtain ⟨s',out,queue',hok,hs'⟩ := hs.step event
    exact ⟨s', out, hok, queue', hs'⟩
  obtain ⟨s,obs,hrun,queue,hs⟩ := Runs.run_along (fun s _ acc => ∃ queue, Fifo c s acc queue) hstep
    ⟨[], fifo_new h⟩ (Runs.along_of_forall (fun _ _ _ => trivial))
  exact ⟨s, obs, queue, hrun, hs⟩

theorem finish_calls (s : BoundedBlockingQueue T) (thread : ℕ) (r : RingBuffer T) (c : QueueCondition) :
    (s.finish thread r c).calls thread = none := Function.update_self ..

/-- A call of `put` that returns has put its value, and one of `take` has taken one. -/
theorem returned_step {s' : BoundedBlockingQueue T} {event : QueueEvent T} {out : List (QueueObs T)}
    (h : s.step event = .ok (s', out)) :
    out.filterMap QueueObs.putValue = (s.returned s' event).toList.filterMap QueueCall.putValue ∧
    (out.filterMap QueueObs.takenValue).length = (s.returned s' event).toList.countP QueueCall.isTake := by
  have hquiet {thread : ℕ} (hcalls : s'.calls = s.calls) : s.returned s' (.enter thread) = none := by
    rw [returned, hcalls]
    cases s.calls thread with
    | none => rfl
    | some d => rfl
  cases event with
  | put thread x =>
    obtain ⟨_,rfl⟩ := Prod.mk.inj (Except.ok.inj h)
    exact ⟨rfl, rfl⟩
  | take thread =>
    obtain ⟨_,rfl⟩ := Prod.mk.inj (Except.ok.inj h)
    exact ⟨rfl, rfl⟩
  | wake thread =>
    obtain ⟨_,rfl⟩ := Prod.mk.inj (Except.ok.inj h)
    exact ⟨rfl, rfl⟩
  | enter thread =>
    replace h : s.enter thread = .ok (s', out) := h
    unfold BoundedBlockingQueue.enter at h
    split at h
    case isTrue =>
      obtain ⟨rfl,rfl⟩ := Prod.mk.inj (Except.ok.inj h)
      rw [hquiet rfl]
      exact ⟨rfl, rfl⟩
    case isFalse =>
      split at h
      case h_1 =>
        obtain ⟨rfl,rfl⟩ := Prod.mk.inj (Except.ok.inj h)
        rw [hquiet rfl]
        exact ⟨rfl, rfl⟩
      case h_2 x hcall =>
        unfold BoundedBlockingQueue.put at h
        split at h
        case isTrue =>
          obtain ⟨rfl,rfl⟩ := Prod.mk.inj (Except.ok.inj h)
          rw [hquiet rfl]
          exact ⟨rfl, rfl⟩
        case isFalse =>
          obtain ⟨r,_,hr⟩ := Runs.map_ok h
          obtain ⟨rfl,rfl⟩ := Prod.mk.inj hr
          rw [returned, finish_calls, hcall]
          exact ⟨rfl, rfl⟩
      case h_3 hcall =>
        unfold BoundedBlockingQueue.take at h
        split at h
        case isTrue =>
          obtain ⟨rfl,rfl⟩ := Prod.mk.inj (Except.ok.inj h)
          rw [hquiet rfl]
          exact ⟨rfl, rfl⟩
        case isFalse =>
          obtain ⟨x,_,hx⟩ := Runs.map_ok h
          obtain ⟨rfl,rfl⟩ := Prod.mk.inj hx
          rw [returned, finish_calls, hcall]
          exact ⟨rfl, rfl⟩

theorem returned_runAll {s' : BoundedBlockingQueue T} {events : List (QueueEvent T)}
    (h : s.runAll events = .ok (s', obs)) :
    obs.filterMap QueueObs.putValue = (s.returnedCalls events).filterMap QueueCall.putValue ∧
    (obs.filterMap QueueObs.takenValue).length = (s.returnedCalls events).countP QueueCall.isTake := by
  induction events generalizing s obs with
  | nil =>
    obtain ⟨_,rfl⟩ := Prod.mk.inj (Except.ok.inj h)
    exact ⟨rfl, rfl⟩
  | cons event events ih =>
    obtain ⟨s1,o1,o2,hstep,hrun,rfl⟩ := Runs.run_cons_ok h
    obtain ⟨hputs,htakes⟩ := returned_step hstep
    obtain ⟨hputs',htakes'⟩ := ih hrun
    rw [returnedCalls, hstep]
    dsimp only
    rw [List.filterMap_append, List.filterMap_append, List.filterMap_append, List.length_append,
      List.countP_append, hputs, htakes, hputs', htakes']
    exact ⟨rfl, rfl⟩

/-- A call of `put` that gets the mutex while there is room returns, with its value in the ring. -/
theorem Fifo.put_returns (h : Fifo c s obs queue) {thread : ℕ} {x : T} (hcall : s.calls thread = some (.put x))
    (hawake : s.monitor.asleep thread = none) (hroom : queue.length < c) :
    ∃ s', s.step (.enter thread) = .ok (s', [.put x]) ∧ s'.calls thread = none ∧
      s'.ring.Represents (queue ++ [x]) := by
  have hfull : s.ring.full ≠ true := by
    intro hfull
    have := h.represents.full_iff.mp hfull
    rw [h.capacity] at this
    omega
  obtain ⟨r,hr,_,hrepresents⟩ := h.represents.pushBack (h.capacity ▸ hroom) x
  have hput : s.put thread x = .ok (s.finish thread r .noEmpty, [.put x]) := by
    rw [BoundedBlockingQueue.put, if_neg hfull, hr]
    rfl
  refine ⟨s.finish thread r .noEmpty, ?_, finish_calls .., hrepresents⟩
  show s.enter thread = _
  rw [BoundedBlockingQueue.enter, hawake, hcall]
  exact hput

/-- A call of `take` that gets the mutex while there is a value returns with the first one. -/
theorem Fifo.take_returns {x : T} (h : Fifo c s obs (x :: queue)) {thread : ℕ}
    (hcall : s.calls thread = some .take) (hawake : s.monitor.asleep thread = none) :
    ∃ s', s.step (.enter thread) = .ok (s', [.taken x]) ∧ s'.calls thread = none ∧
      s'.ring.Represents queue := by
  have hempty : s.ring.empty ≠ true := fun hempty => by cases h.represents.empty_iff.mp hempty
  have htake : s.take thread = .ok (s.finish thread s.ring.popFront .noFull, [.taken x]) := by
    rw [BoundedBlockingQueue.take, if_neg hempty, h.represents.front]
    rfl
  refine ⟨s.finish thread s.ring.popFront .noFull, ?_, finish_calls .., h.represents.popFront⟩
  show s.enter thread = _
  rw [BoundedBlockingQueue.enter, hawake, hcall]
  exact htake

/-- Whoever sleeps unnotified would find the queue full, or empty. -/
theorem queue_watched [Inhabited T] (h : 0 < c) (events : List (QueueEvent T)) :
    ∃ s obs, (new T c).runAll events = .ok (s, obs) ∧ s.monitor.Watched QueueCondition.Holds := by
  obtain ⟨s,obs,queue,hrun,hs⟩ := fifo_runAll h events
  exact ⟨s, obs, hrun, hs.watched⟩

end BoundedBlockingQueue

/-- For every capacity and every order of the steps of any number of threads no assertion fails, the positions
stay inside the buffer, the counter counts what has been put and not been taken, and the values of the calls
of `put` that have returned are those that have been taken, in that order, and `rest`, which the ring holds.
A call that gets the mutex returns where there is room for its value, or a value for it. -/
theorem bounded_fifo {T : Type*} [Inhabited T] (c : ℕ) (h : 0 < c) (events : List (QueueEvent T)) :
    ∃ s obs rest, (BoundedBlockingQueue.new T c).runAll events = .ok (s, obs) ∧
      s.ring.putPos < c ∧ s.ring.getPos < c ∧
      s.ring.numDatas = ((obs.filterMap QueueObs.putValue).length : ℤ)-(obs.filterMap QueueObs.takenValue).length ∧
      0 ≤ s.ring.numDatas ∧ s.ring.numDatas ≤ c ∧ s.ring.Represents rest ∧
      obs.filterMap QueueObs.putValue = obs.filterMap QueueObs.takenValue ++ rest ∧
      ((BoundedBlockingQueue.new T c).returnedCalls events).filterMap QueueCall.putValue =
        obs.filterMap QueueObs.takenValue ++ rest ∧
      ((BoundedBlockingQueue.new T c).returnedCalls events).countP QueueCall.isTake =
        (obs.filterMap QueueObs.takenValue).length ∧
      (∀ thread d, s.calls thread = none → (s.call thread d).calls thread = some d) ∧
      (∀ thread x, s.calls thread = some (.put x) → s.monitor.asleep thread = none → rest.length < c →
        ∃ s', s.step (.enter thread) = .ok (s', [.put x]) ∧ s'.calls thread = none ∧
          s'.ring.Represents (rest ++ [x])) ∧
      ∀ thread x tail, s.calls thread = some .take → s.monitor.asleep thread = none → rest = x :: tail →
        ∃ s', s.step (.enter thread) = .ok (s', [.taken x]) ∧ s'.calls thread = none ∧
          s'.ring.Represents tail := by
  obtain ⟨s,obs,rest,hrun,hs⟩ := BoundedBlockingQueue.fifo_runAll h events
  obtain ⟨hputs,htakes⟩ := BoundedBlockingQueue.returned_runAll hrun
  have hput := hs.represents.put_lt
  have hget := hs.represents.get
  have hbound := hs.represents.bound
  rw [hs.capacity] at hput hget hbound
  refine ⟨s, obs, rest, hrun, hput, hget, ?_, ?_, ?_, hs.represents, hs.order, hputs.symm.trans hs.order,
    htakes.symm, ?_, fun _ _ hcall hawake hroom => hs.put_returns hcall hawake hroom, ?_⟩
  · rw [hs.represents.count, hs.order, List.length_append]
    omega
  · rw [hs.represents.count]
    exact Int.natCast_nonneg _
  · rw [hs.represents.count]
    exact Int.ofNat_le.mpr hbound
  · intro thread d hnone
    rw [BoundedBlockingQueue.call, hnone]
    exact Function.update_self ..
  · rintro thread x tail hcall hawake rfl
    exact hs.take_returns hcall hawake

/-- A capacity of two and three values: the positions wrap around, and the third call waits for the place of
the first value. -/
theorem bounded_fifo_wraps :
    ∃ s, (BoundedBlockingQueue.new ℕ 2).runAll
        [.put 0 7, .enter 0, .put 0 8, .enter 0, .put 0 9, .enter 0, .take 1, .enter 1, .enter 0] =
          .ok (s, [.put 7, .put 8, .taken 7, .put 9]) ∧
      s.ring.putPos < 2 ∧ s.ring.numDatas = 2 ∧ s.ring.Represents [8, 9] ∧
      ((BoundedBlockingQueue.new ℕ 2).returnedCalls [.put 0 7, .enter 0, .put 0 8, .enter 0, .put 0 9,
        .enter 0, .take 1, .enter 1, .enter 0]).filterMap QueueCall.putValue = [7] ++ [8, 9] := by
  obtain ⟨s,obs,rest,hrun,hput,_,hcount,_,_,hring,horder,hreturned,_⟩ := bounded_fifo (T := ℕ) 2 (by decide)
    [.put 0 7, .enter 0, .put 0 8, .enter 0, .put 0 9, .enter 0, .take 1, .enter 1, .enter 0]
  obtain rfl : obs = [.put 7, .put 8, .taken 7, .put 9] :=
    (Prod.mk.inj (Except.ok.inj (hrun.symm.trans rfl))).2
  obtain rfl : [8, 9] = rest := (List.cons.inj (show [7, 8, 9] = 7 :: rest from horder)).2
  exact ⟨s, hrun, hput, hcount, hring, hreturned⟩

end IdealServer
