import IdealServer.ThreadPool

/-! `ThreadPool::stop` and the tasks it leaves behind. Only the workers that are in `take` when `_running`
becomes false take another task, one each. -/
namespace IdealServer
namespace ThreadPool

variable {Task : Type*} {n : ℕ}

/-- The workers in `take`, awake or asleep. -/
def inTake (s : ThreadPool Task n) : ℕ := (List.finRange n).countP (fun w => (s.workers w).isTaking)

/-- `run` puts its task into the queue when it gets the mutex now. -/
def Admits (s : ThreadPool Task n) (p : ℕ) : Prop :=
  (s.producers p).isSome ∧ s.asleep (.producer p) = false ∧
    ¬(0 < s.maxQueueSize ∧ s.maxQueueSize ≤ s.queue.length)

/-- No more tasks are queued than there are workers that will take one. -/
def Drains (s : ThreadPool Task n) : PoolEvent Task n → Prop
  | .stop => s.stopper = .idle → s.queue.length ≤ s.inTake
  | .push p => s.running = false → s.Admits p → s.queue.length < s.inTake
  | .run _ _ | .testRunning _ | .take _ | .finish _ | .wake _ | .join => True

/-- What a step does, without the sleepers. -/
inductive Effect (s : ThreadPool Task n) : PoolEvent Task n → ThreadPool Task n → Prop
  | quiet (event : PoolEvent Task n) (s' : ThreadPool Task n) (hdrains : s.Drains event)
      (hqueue : s'.queue = s.queue) (hworkers : s'.workers = s.workers)
      (hrunning : s'.running = s.running) (hstopper : s'.stopper = s.stopper) : Effect s event s'
  | push (p : ℕ) (task : Task) (s' : ThreadPool Task n) (hadmits : s.Admits p)
      (hqueue : s'.queue = s.queue ++ [task]) (hworkers : s'.workers = s.workers)
      (hrunning : s'.running = s.running) (hstopper : s'.stopper = s.stopper) : Effect s (.push p) s'
  /-- A worker outside `take`. -/
  | work (event : PoolEvent Task n) (w : Fin n) (phase : WorkerPhase Task) (s' : ThreadPool Task n)
      (hdrains : s.Drains event) (hexited : (s.workers w).isExited = false)
      (hphase : (s.workers w).isTaking = false) (henter : phase.isTaking = s.running ∨ phase.isTaking = false)
      (hqueue : s'.queue = s.queue) (hworkers : s'.workers = Function.update s.workers w phase)
      (hrunning : s'.running = s.running) (hstopper : s'.stopper = s.stopper) : Effect s event s'
  /-- A worker that leaves `take`, with or without a task. -/
  | leave (event : PoolEvent Task n) (w : Fin n) (phase : WorkerPhase Task) (s' : ThreadPool Task n)
      (hdrains : s.Drains event) (hexited : (s.workers w).isExited = false)
      (hphase : (s.workers w).isTaking = true) (hleave : phase.isTaking = false)
      (hqueue : s'.queue = s.queue.tail) (hworkers : s'.workers = Function.update s.workers w phase)
      (hrunning : s'.running = s.running) (hstopper : s'.stopper = s.stopper) : Effect s event s'
  | stop (s' : ThreadPool Task n) (hidle : s.stopper = .idle) (hqueue : s'.queue = s.queue)
      (hworkers : s'.workers = s.workers) (hrunning : s'.running = false) (hstopper : s'.stopper = .joining) :
      Effect s .stop s'
  | join (s' : ThreadPool Task n) (hjoining : s.stopper = .joining) (hexited : ∀ w, (s.workers w).isExited)
      (hqueue : s'.queue = s.queue) (hworkers : s'.workers = s.workers) (hrunning : s'.running = s.running)
      (hstopper : s'.stopper = .returned) : Effect s .join s'

variable {s s' : ThreadPool Task n} {event : PoolEvent Task n}

theorem Effect.same (hdrains : s.Drains event) : Effect s event s :=
  .quiet event s hdrains rfl rfl rfl rfl

theorem effect_push (s : ThreadPool Task n) (p : ℕ) : Effect s (.push p) (s.push p).1 := by
  by_cases hadmits : s.Admits p
  · obtain ⟨hcalls,hawake,hroom⟩ := hadmits
    obtain ⟨task,htask⟩ := Option.isSome_iff_exists.mp hcalls
    have hpush : s.push p = ({ s with
        monitor := s.monitor.notifyAll ⟨s.queue ++ [task], s.running⟩ .notEmpty
        producers := Function.update s.producers p none }, [.accepted task]) := by
      unfold push
      simp only [htask, hawake, Bool.false_eq_true, if_false]
      rw [if_neg hroom]
    rw [hpush]
    exact .push p task _ ⟨hcalls, hawake, hroom⟩ rfl rfl rfl rfl
  · have hdrains : s.Drains (.push p) := fun _ h => absurd h hadmits
    unfold push
    split
    · exact .same hdrains
    case h_2 task htask =>
      split
      · exact .same hdrains
      case isFalse hawake =>
        split
        · exact .quiet _ _ hdrains rfl rfl rfl rfl
        case isFalse hroom =>
          have hcalls : (s.producers p).isSome := by
            rw [htask]
            rfl
          exact absurd ⟨hcalls, Bool.eq_false_of_not_eq_true hawake, hroom⟩ hadmits

theorem effect_testRunning (s : ThreadPool Task n) (w : Fin n) :
    Effect s (.testRunning w) (s.testRunning w) := by
  unfold testRunning
  split
  case isFalse => exact .same trivial
  case isTrue htesting =>
    have hphase := WorkerPhase.isTesting_iff.mp htesting
    refine .work _ w _ _ trivial ?_ ?_ (Or.inl ?_) rfl rfl rfl rfl
    · rw [hphase]
      rfl
    · rw [hphase]
      rfl
    · cases s.running with
      | true => rfl
      | false => rfl

theorem effect_take (s : ThreadPool Task n) (w : Fin n) : Effect s (.take w) (s.take w).1 := by
  unfold take
  split
  case isFalse => exact .same trivial
  case isTrue htaking =>
    obtain ⟨htaking,_⟩ := htaking
    have hexited : (s.workers w).isExited = false := by
      rw [WorkerPhase.isTaking_iff.mp htaking]
      rfl
    cases hqueue : s.queue with
    | nil =>
      dsimp only
      split
      · exact .quiet _ _ trivial rfl rfl rfl rfl
      · refine .leave _ w .testing _ trivial hexited htaking rfl ?_ rfl rfl rfl
        rw [hqueue]
        exact hqueue
    | cons task rest =>
      refine .leave _ w (.executing task) _ trivial hexited htaking rfl ?_ rfl ?_ rfl
      · rw [hqueue]
        dsimp only [queue]
        split
        · rfl
        · rfl
      · dsimp only [running]
        split
        · rfl
        · rfl

theorem effect_finish (s : ThreadPool Task n) (w : Fin n) : Effect s (.finish w) (s.finish w).1 := by
  unfold finish
  split
  case h_1 task hw =>
    refine .work _ w .testing _ trivial ?_ ?_ (Or.inr rfl) rfl rfl rfl rfl
    · rw [hw]
      rfl
    · rw [hw]
      rfl
  · exact .same trivial
  · exact .same trivial
  · exact .same trivial

theorem effect_step (s : ThreadPool Task n) (event : PoolEvent Task n) : Effect s event (s.step event).1 := by
  cases event with
  | run p task =>
    unfold step run
    dsimp only
    split
    · exact .same trivial
    · split
      · exact .quiet _ _ trivial rfl rfl rfl rfl
      · exact .same trivial
  | push p => exact effect_push s p
  | testRunning w => exact effect_testRunning s w
  | take w => exact effect_take s w
  | finish w => exact effect_finish s w
  | wake t => exact .quiet _ _ trivial rfl rfl rfl rfl
  | stop =>
    show Effect s .stop s.stop
    unfold stop
    split
    case isTrue hidle => exact .stop _ hidle rfl rfl rfl rfl
    case isFalse hcalled => exact .same (fun hidle => absurd hidle hcalled)
  | join =>
    show Effect s .join s.join
    unfold join
    split
    case isTrue h => exact .join _ h.1 h.2 rfl rfl rfl rfl
    case isFalse => exact .same trivial

/-- `_running` tells whether `stop` has been called, and when it has returned nobody works any more. -/
structure Leaving (s : ThreadPool Task n) : Prop where
  stopped : s.running = false ↔ s.stopper ≠ .idle
  joined : s.stopper = .returned → ∀ w, (s.workers w).isExited

theorem leaving_started (Task : Type*) (n m : ℕ) : Leaving (started Task n m) :=
  ⟨⟨fun h => (by cases h), fun h => absurd rfl h⟩, fun h => (by cases h)⟩

theorem Leaving.frame (h : Leaving s) (hrunning : s'.running = s.running) (hstopper : s'.stopper = s.stopper)
    (hworkers : s.stopper = .returned → ∀ w, (s'.workers w).isExited) : Leaving s' := by
  refine ⟨?_, ?_⟩
  · rw [hrunning, hstopper]
    exact h.stopped
  · rw [hstopper]
    exact hworkers

/-- A worker that has returned does nothing. -/
theorem Leaving.not_returned (h : Leaving s) {w : Fin n} (hw : (s.workers w).isExited = false) :
    s.stopper ≠ .returned := by
  intro hreturned
  rw [h.joined hreturned w] at hw
  cases hw

theorem Leaving.effect (h : Leaving s) (heffect : Effect s event s') : Leaving s' := by
  cases heffect with
  | quiet _ _ _ _ hworkers hrunning hstopper =>
    apply h.frame hrunning hstopper
    rw [hworkers]
    exact h.joined
  | push p task _ _ _ hworkers hrunning hstopper =>
    apply h.frame hrunning hstopper
    rw [hworkers]
    exact h.joined
  | work _ w phase _ _ hexited _ _ _ _ hrunning hstopper =>
    apply h.frame hrunning hstopper
    exact fun hreturned => absurd hreturned (h.not_returned hexited)
  | leave _ w phase _ _ hexited _ _ _ _ hrunning hstopper =>
    apply h.frame hrunning hstopper
    exact fun hreturned => absurd hreturned (h.not_returned hexited)
  | stop _ _ _ _ hrunning hstopper =>
    refine ⟨?_, ?_⟩
    · rw [hrunning, hstopper]
      exact ⟨fun _ hidle => (by cases hidle), fun _ => rfl⟩
    · rw [hstopper]
      intro hreturned
      cases hreturned
  | join _ hjoining hexited _ hworkers hrunning hstopper =>
    refine ⟨?_, ?_⟩
    · rw [hrunning, hstopper, h.stopped, hjoining]
      exact ⟨fun _ hidle => (by cases hidle), fun _ hidle => (by cases hidle)⟩
    · rw [hworkers]
      exact fun _ => hexited

/-- After `stop`, every task in the queue has a worker. -/
def Covered (s : ThreadPool Task n) : Prop := s.running = false → s.queue.length ≤ s.inTake

theorem inTake_congr (h : s'.workers = s.workers) : s'.inTake = s.inTake := by
  rw [inTake, h, inTake]

theorem inTake_update {w : Fin n} {phase : WorkerPhase Task}
    (h : s'.workers = Function.update s.workers w phase) :
    s'.inTake+(s.workers w).isTaking.toNat = s.inTake+phase.isTaking.toNat := by
  rw [inTake, h, inTake]
  exact Monitor.countP_update (List.mem_finRange w) (List.nodup_finRange n)

theorem covered_congr (hqueue : s'.queue = s.queue) (hworkers : s'.workers = s.workers)
    (hrunning : s'.running = s.running) : s'.Covered ↔ s.Covered := by
  rw [Covered, Covered, hqueue, inTake_congr hworkers, hrunning]

/-- The steps that can leave a task without a worker are `stop` and those of `run`, and no task finds its
worker later. -/
theorem Effect.covered (h : Leaving s) (heffect : Effect s event s') :
    s'.Covered ↔ s.Covered ∧ s.Drains event := by
  cases heffect with
  | quiet _ _ hdrains hqueue hworkers hrunning _ =>
    rw [covered_congr hqueue hworkers hrunning]
    exact (and_iff_left hdrains).symm
  | push p task _ hadmits hqueue hworkers hrunning _ =>
    -- one task more for the same workers
    have hlength : s'.queue.length = s.queue.length+1 := by
      rw [hqueue, List.length_append, List.length_singleton]
    rw [Covered, hrunning, hlength, inTake_congr hworkers]
    constructor
    · intro hlt
      exact ⟨fun hstopped => Nat.le_of_succ_le (hlt hstopped), fun hstopped _ => hlt hstopped⟩
    · intro hdrains hstopped
      exact hdrains.2 hstopped hadmits
  | work _ w phase _ hdrains _ hphase henter hqueue hworkers hrunning _ =>
    rw [and_iff_left hdrains, Covered, Covered, hqueue, hrunning]
    -- nobody enters `take` any more
    apply forall_congr'
    intro hstopped
    have hstays : phase.isTaking = false := henter.elim (fun h => h.trans hstopped) id
    have hcount := inTake_update hworkers
    rw [hphase, hstays] at hcount
    rw [Nat.add_right_cancel hcount]
  | leave _ w phase _ hdrains _ hphase hleave hqueue hworkers hrunning _ =>
    rw [and_iff_left hdrains, Covered, Covered, hqueue, hrunning, List.length_tail]
    -- a worker less, and a task less unless there is none
    apply forall_congr'
    intro hstopped
    have hcount := inTake_update hworkers
    rw [hphase, hleave, Bool.toNat_true, Bool.toNat_false] at hcount
    omega
  | stop _ hidle hqueue hworkers hrunning _ =>
    -- before `stop` the pool runs
    have hruns : ¬s.running = false := fun hstopped => h.stopped.mp hstopped hidle
    rw [Covered, hqueue, inTake_congr hworkers]
    constructor
    · intro hle
      exact ⟨fun hstopped => absurd hstopped hruns, fun _ => hle hrunning⟩
    · intro hdrains _
      exact hdrains.2 hidle
  | join _ _ _ hqueue hworkers hrunning _ =>
    rw [covered_congr hqueue hworkers hrunning]
    exact (and_iff_left trivial).symm

theorem leaving_runAll (m : ℕ) (events : List (PoolEvent Task n)) :
    Leaving ((started Task n m).runAll events).1 :=
  Runs.runSpec_invariant (fun s _ => Leaving s) (fun s _ event h => h.effect (effect_step s event))
    (leaving_started Task n m) events

theorem covered_runAll (m : ℕ) (events : List (PoolEvent Task n)) :
    Covered ((started Task n m).runAll events).1 ↔ Runs.AlongSpec step Drains (started Task n m) events := by
  have hstarted : Covered (started Task n m) := fun hstopped => by cases hstopped
  rw [← and_iff_right hstarted (b := Runs.AlongSpec step Drains (started Task n m) events)]
  exact Runs.runSpec_iff_along Leaving Covered (fun s event h => h.effect (effect_step s event))
    (fun s event h => (effect_step s event).covered h) (leaving_started Task n m)

/-- Nobody is in `take` when `stop` has returned. -/
theorem Leaving.inTake_eq_zero (h : Leaving s) (hreturned : s.stopper = .returned) : s.inTake = 0 := by
  apply List.countP_eq_zero.mpr
  intro w _ htaking
  rw [WorkerPhase.isExited_iff.mp (h.joined hreturned w)] at htaking
  cases htaking

end ThreadPool

/-- When `stop` has returned, the queue is empty and no producer sleeps exactly if every task that was queued
when `stop` was called, or that `run` accepted later, had a worker in `take`. -/
theorem stop_drains {Task : Type*} (n maxQueueSize : ℕ) (events : List (PoolEvent Task n))
    (s : ThreadPool Task n) (obs : List (PoolObs Task))
    (h : (ThreadPool.started Task n maxQueueSize).runAll events = (s, obs)) (hreturned : s.stopper = .returned) :
    (s.queue = [] ∧ ∀ p, s.asleep (.producer p) = false) ↔
      Runs.AlongSpec ThreadPool.step ThreadPool.Drains (ThreadPool.started Task n maxQueueSize) events := by
  have hleaving := ThreadPool.leaving_runAll maxQueueSize events
  have hcovered := ThreadPool.covered_runAll maxQueueSize events
  have hordered := ThreadPool.ordered_runAll maxQueueSize events
  rw [h] at hleaving hcovered hordered
  have hstopped : s.running = false := by
    rw [hleaving.stopped, hreturned]
    intro hidle
    cases hidle
  rw [← hcovered, ThreadPool.Covered, hleaving.inTake_eq_zero hreturned]
  constructor
  · intro hempty _
    rw [hempty.1, List.length_nil]
  · intro hle
    have hempty : s.queue = [] := List.eq_nil_of_length_eq_zero (Nat.le_zero.mp (hle hstopped))
    refine ⟨hempty, ?_⟩
    -- a producer sleeps where the queue is full
    apply hordered.producer_awake
    rw [hempty, List.length_nil]
    omega

/-- One task is queued and the worker is in `take`. -/
theorem stop_drains_taken :
    Runs.AlongSpec ThreadPool.step ThreadPool.Drains (ThreadPool.started ℕ 1 1)
      [.testRunning 0, .run 0 7, .push 0, .stop, .take 0, .finish 0, .testRunning 0, .join] :=
  (stop_drains 1 1 _ _ _ rfl rfl).mp ⟨rfl, fun _ => rfl⟩

/-- The worker executes a task, another one fills the queue, and a producer waits for room. The worker leaves
without another look at the queue, and the producer sleeps for ever. -/
theorem stop_drains_fails : ∃ events : List (PoolEvent ℕ 1),
    let s := ((ThreadPool.started ℕ 1 1).runAll events).1
    s.stopper = .returned ∧ s.queue = [8] ∧ s.asleep (.producer 2) = true := by
  refine ⟨[.testRunning 0, .run 0 7, .push 0, .take 0, .run 1 8, .push 1, .run 2 9, .push 2, .stop, .finish 0,
    .testRunning 0, .join], ?_⟩
  exact ⟨rfl, rfl, rfl⟩

end IdealServer
