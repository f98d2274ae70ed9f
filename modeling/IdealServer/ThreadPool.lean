import IdealServer.Monitor
import IdealServer.Runs
import Mathlib.Data.List.FinRange

/-! A `ThreadPool` that has been started, any number of threads that call `run`, its workers, and one
thread that calls `stop`. `_running` is read outside the mutex by `runInThread` alone. -/
namespace IdealServer

inductive PoolThread (n : ℕ)
  | producer (p : ℕ)
  | worker (w : Fin n)
deriving DecidableEq

inductive PoolCondition
  | notEmpty
  | notFull
deriving DecidableEq, Repr

/-- What the mutex protects. -/
structure PoolData (Task : Type*) where
  queue : List Task
  running : Bool

/-- Where a worker is in `runInThread`. -/
inductive WorkerPhase (Task : Type*)
  /-- In front of the condition of the `while`. -/
  | testing
  /-- In `take`, awake or asleep. -/
  | taking
  | executing (task : Task)
  | exited

inductive StopPhase
  | idle
  | joining
  | returned
deriving DecidableEq, Repr

structure ThreadPool (Task : Type*) (n : ℕ) where
  maxQueueSize : ℕ
  monitor : Monitor (PoolThread n) PoolCondition (PoolData Task)
  /-- The calls of `run` that have not returned, awake or asleep. -/
  producers : ℕ → Option Task
  workers : Fin n → WorkerPhase Task
  stopper : StopPhase

inductive PoolEvent (Task : Type*) (n : ℕ)
  /-- The thread calls `run`. -/
  | run (p : ℕ) (task : Task)
  /-- It gets the mutex. -/
  | push (p : ℕ)
  | testRunning (w : Fin n)
  /-- A worker in `take` gets the mutex. -/
  | take (w : Fin n)
  | finish (w : Fin n)
  /-- A wakeup without a notification. -/
  | wake (t : PoolThread n)
  | stop
  /-- All threads have been joined. -/
  | join

inductive PoolObs (Task : Type*)
  /-- `run` has put the task into the queue. -/
  | accepted (task : Task)
  | taken (task : Task)
  | executed (task : Task)

/-- The predicates of the two `wait`s. -/
def PoolCondition.Holds {Task : Type*} (maxQueueSize : ℕ) : PoolCondition → PoolData Task → Prop
  | .notEmpty, x => x.queue ≠ [] ∨ x.running = false
  | .notFull, x => x.queue.length < maxQueueSize

def PoolObs.acceptedTask {Task : Type*} : PoolObs Task → Option Task
  | .accepted task => some task
  | .taken _ | .executed _ => none

def PoolObs.takenTask {Task : Type*} : PoolObs Task → Option Task
  | .taken task => some task
  | .accepted _ | .executed _ => none

namespace WorkerPhase
variable {Task : Type*}

def isTesting : WorkerPhase Task → Bool
  | .testing => true
  | .taking | .executing _ | .exited => false

def isTaking : WorkerPhase Task → Bool
  | .taking => true
  | .testing | .executing _ | .exited => false

def isExited : WorkerPhase Task → Bool
  | .exited => true
  | .testing | .taking | .executing _ => false

variable {phase : WorkerPhase Task}

theorem isTesting_iff : phase.isTesting = true ↔ phase = .testing := by
  cases phase <;> simp [isTesting]

theorem isTaking_iff : phase.isTaking = true ↔ phase = .taking := by
  cases phase <;> simp [isTaking]

theorem isExited_iff : phase.isExited = true ↔ phase = .exited := by
  cases phase <;> simp [isExited]

end WorkerPhase

namespace ThreadPool

variable {Task : Type*} {n : ℕ}

/-- After `start`. -/
def started (Task : Type*) (n maxQueueSize : ℕ) : ThreadPool Task n :=
  ⟨maxQueueSize, Monitor.new ⟨[], true⟩, fun _ => none, fun _ => .testing, .idle⟩

def queue (s : ThreadPool Task n) : List Task := s.monitor.data.queue
def running (s : ThreadPool Task n) : Bool := s.monitor.data.running

/-- It sleeps, and no notification is on its way. -/
def asleep (s : ThreadPool Task n) (t : PoolThread n) : Bool := (s.monitor.asleep t).isSome

def setWorker (s : ThreadPool Task n) (w : Fin n) (phase : WorkerPhase Task) : ThreadPool Task n :=
  { s with workers := Function.update s.workers w phase }

/-- A pool without threads executes the task at once. -/
def run (s : ThreadPool Task n) (p : ℕ) (task : Task) : ThreadPool Task n × List (PoolObs Task) :=
  if n = 0 then (s, [.executed task])
  else if (s.producers p).isNone then
    ({ s with producers := Function.update s.producers p (some task) }, [])
  else (s, [])

def push (s : ThreadPool Task n) (p : ℕ) : ThreadPool Task n × List (PoolObs Task) :=
  match s.producers p with
  | none => (s, [])
  | some task =>
    if s.asleep (.producer p) then (s, [])
    else if 0 < s.maxQueueSize ∧ s.maxQueueSize ≤ s.queue.length then
      ({ s with monitor := s.monitor.sleep (.producer p) .notFull }, [])
    else
      ({ s with
        monitor := s.monitor.notifyAll ⟨s.queue ++ [task], s.running⟩ .notEmpty
        producers := Function.update s.producers p none }, [.accepted task])

def testRunning (s : ThreadPool Task n) (w : Fin n) : ThreadPool Task n :=
  if (s.workers w).isTesting then s.setWorker w (if s.running then .taking else .exited) else s

/-- The task that is taken is called unless it is empty, which the task is where the queue is. -/
def take (s : ThreadPool Task n) (w : Fin n) : ThreadPool Task n × List (PoolObs Task) :=
  if (s.workers w).isTaking ∧ ¬s.asleep (.worker w) then
    match s.queue with
    | [] =>
      if s.running then ({ s with monitor := s.monitor.sleep (.worker w) .notEmpty }, [])
      else (s.setWorker w .testing, [])
    | task :: rest =>
      let monitor :=
        if 0 < s.maxQueueSize then s.monitor.notifyAll ⟨rest, s.running⟩ .notFull
        else { s.monitor with data := ⟨rest, s.running⟩ }
      ({ s.setWorker w (.executing task) with monitor := monitor }, [.taken task])
  else (s, [])

def finish (s : ThreadPool Task n) (w : Fin n) : ThreadPool Task n × List (PoolObs Task) :=
  match s.workers w with
  | .executing task => (s.setWorker w .testing, [.executed task])
  | .testing | .taking | .exited => (s, [])

def stop (s : ThreadPool Task n) : ThreadPool Task n :=
  if s.stopper = .idle then
    { s with monitor := s.monitor.notifyAll ⟨s.queue, false⟩ .notEmpty, stopper := .joining }
  else s

def join (s : ThreadPool Task n) : ThreadPool Task n :=
  if s.stopper = .joining ∧ ∀ w, (s.workers w).isExited then { s with stopper := .returned } else s

def step (s : ThreadPool Task n) : PoolEvent Task n → ThreadPool Task n × List (PoolObs Task)
  | .run p task => s.run p task
  | .push p => s.push p
  | .testRunning w => (s.testRunning w, [])
  | .take w => s.take w
  | .finish w => s.finish w
  | .wake t => ({ s with monitor := s.monitor.wake t }, [])
  | .stop => (s.stop, [])
  | .join => (s.join, [])

def runAll : ThreadPool Task n → List (PoolEvent Task n) → ThreadPool Task n × List (PoolObs Task) :=
  Runs.runSpec step

/-- What holds whatever the threads do: nobody sleeps who has something to do, producers wait for room
and workers for tasks, the bound is kept, and tasks are taken in the order in which they come. -/
structure Ordered (m : ℕ) (s : ThreadPool Task n) (obs : List (PoolObs Task)) : Prop where
  bound : s.maxQueueSize = m
  watched : s.monitor.Watched (PoolCondition.Holds m)
  producer : ∀ p c, s.monitor.asleep (.producer p) = some c → c = .notFull ∧ 0 < m
  worker : ∀ w c, s.monitor.asleep (.worker w) = some c → c = .notEmpty
  room : 0 < m → s.queue.length ≤ m
  fifo : obs.filterMap PoolObs.acceptedTask = obs.filterMap PoolObs.takenTask ++ s.queue

variable {m : ℕ} {s s' : ThreadPool Task n} {obs : List (PoolObs Task)}

theorem ordered_started (Task : Type*) (n m : ℕ) : Ordered m (started Task n m) [] :=
  ⟨rfl, Monitor.watched_new _, fun _ _ h => (by cases h), fun _ _ h => (by cases h), fun _ => Nat.zero_le _, rfl⟩

/-- A step that neither sends anybody to sleep nor touches the queue. -/
theorem Ordered.frame (h : Ordered m s obs) (out : List (PoolObs Task))
    (hbound : s'.maxQueueSize = s.maxQueueSize) (hmonitor : s'.monitor = s.monitor)
    (haccepted : out.filterMap PoolObs.acceptedTask = []) (htaken : out.filterMap PoolObs.takenTask = []) :
    Ordered m s' (obs ++ out) := by
  have hqueue : s'.queue = s.queue := by rw [queue, queue, hmonitor]
  refine ⟨hbound.trans h.bound, ?_, ?_, ?_, ?_, ?_⟩
  · rw [hmonitor]
    exact h.watched
  · rw [hmonitor]
    exact h.producer
  · rw [hmonitor]
    exact h.worker
  · rw [hqueue]
    exact h.room
  · rw [List.filterMap_append, List.filterMap_append, haccepted, htaken, List.append_nil, List.append_nil, hqueue]
    exact h.fifo

/-- The sleepers after a notification are sleepers from before. -/
theorem notifyAll_asleep {x : PoolData Task} {c d : PoolCondition} {t : PoolThread n}
    (h : (s.monitor.notifyAll x c).asleep t = some d) : s.monitor.asleep t = some d := by
  unfold Monitor.notifyAll at h
  dsimp only at h
  split at h
  · cases h
  · exact h

theorem Ordered.run (h : Ordered m s obs) (p : ℕ) (task : Task) :
    Ordered m (s.run p task).1 (obs ++ (s.run p task).2) := by
  unfold ThreadPool.run
  split
  · exact h.frame [.executed task] rfl rfl rfl rfl
  · split
    · exact h.frame [] rfl rfl rfl rfl
    · exact h.frame [] rfl rfl rfl rfl

theorem Ordered.push (h : Ordered m s obs) (p : ℕ) :
    Ordered m (s.push p).1 (obs ++ (s.push p).2) := by
  unfold ThreadPool.push
  split
  · exact h.frame [] rfl rfl rfl rfl
  case h_2 task _ =>
    split
    · exact h.frame [] rfl rfl rfl rfl
    · split
      case isTrue hfull =>
        -- the producer finds no room
        obtain ⟨hpos,hfull⟩ := hfull
        rw [h.bound] at hpos hfull
        rw [List.append_nil]
        refine ⟨h.bound, h.watched.sleep (fun hroom => absurd hroom (Nat.not_lt.mpr hfull)), ?_, ?_, h.room,
          h.fifo⟩
        · intro q c hq
          unfold Monitor.sleep at hq
          dsimp only at hq
          by_cases hqp : (PoolThread.producer q : PoolThread n) = .producer p
          · rw [hqp, Function.update_self] at hq
            exact ⟨(Option.some.inj hq).symm, hpos⟩
          · rw [Function.update_of_ne hqp] at hq
            exact h.producer q c hq
        · intro w c hw
          unfold Monitor.sleep at hw
          dsimp only at hw
          rw [Function.update_of_ne (fun hwp => by cases hwp)] at hw
          exact h.worker w c hw
      case isFalse hroom =>
        -- only `_notEmpty` is notified, and a longer queue lets no producer go on
        rw [h.bound] at hroom
        refine ⟨h.bound, h.watched.notifyAll ?_, ?_, ?_, ?_, ?_⟩
        · intro d hd hholds
          cases d with
          | notEmpty => exact absurd rfl hd
          | notFull =>
            replace hholds : (s.queue ++ [task]).length < m := hholds
            rw [List.length_append, List.length_singleton] at hholds
            show s.queue.length < m
            omega
        · exact fun q c hq => h.producer q c (notifyAll_asleep hq)
        · exact fun w c hw => h.worker w c (notifyAll_asleep hw)
        · intro hpos
          show (s.queue ++ [task]).length ≤ m
          rw [List.length_append, List.length_singleton]
          omega
        · show _ = _ ++ (s.queue ++ [task])
          rw [List.filterMap_append, List.filterMap_append, h.fifo]
          simp [PoolObs.acceptedTask, PoolObs.takenTask]

theorem Ordered.take (h : Ordered m s obs) (w : Fin n) :
    Ordered m (s.take w).1 (obs ++ (s.take w).2) := by
  unfold ThreadPool.take
  split
  case isFalse => exact h.frame [] rfl rfl rfl rfl
  case isTrue =>
    cases hqueue : s.queue with
    | nil =>
      dsimp only
      split
      case isTrue hrunning =>
        -- the worker finds no task
        rw [List.append_nil]
        refine ⟨h.bound, h.watched.sleep ?_, ?_, ?_, h.room, h.fifo⟩
        · intro hholds
          rcases hholds with hne | hstopped
          · exact hne hqueue
          · replace hstopped : s.running = false := hstopped
            rw [hrunning] at hstopped
            cases hstopped
        · intro q c hq
          unfold Monitor.sleep at hq
          dsimp only at hq
          rw [Function.update_of_ne (fun hwp => by cases hwp)] at hq
          exact h.producer q c hq
        · intro v c hv
          unfold Monitor.sleep at hv
          dsimp only at hv
          by_cases hvw : (PoolThread.worker v : PoolThread n) = .worker w
          · rw [hvw, Function.update_self] at hv
            exact (Option.some.inj hv).symm
          · rw [Function.update_of_ne hvw] at hv
            exact h.worker v c hv
      case isFalse => exact h.frame [] rfl rfl rfl rfl
    | cons task rest =>
      -- the first task goes, and with it at most a reason to wake up
      have hroom (hpos : 0 < m) : rest.length ≤ m := by
        have hle := h.room hpos
        rw [hqueue, List.length_cons] at hle
        omega
      have hfifo : (obs ++ [PoolObs.taken task]).filterMap PoolObs.acceptedTask =
          (obs ++ [PoolObs.taken task]).filterMap PoolObs.takenTask ++ rest := by
        rw [List.filterMap_append, List.filterMap_append, h.fifo, hqueue]
        simp [PoolObs.acceptedTask, PoolObs.takenTask]
      have hempty (hholds : PoolCondition.Holds m .notEmpty ⟨rest, s.running⟩) :
          PoolCondition.Holds m .notEmpty s.monitor.data := by
        refine Or.inl ?_
        show s.queue ≠ []
        rw [hqueue]
        exact List.cons_ne_nil task rest
      dsimp only
      rw [h.bound]
      split
      case isTrue hpos =>
        refine ⟨h.bound, h.watched.notifyAll ?_, ?_, ?_, hroom, hfifo⟩
        · intro d hd hholds
          cases d with
          | notEmpty => exact hempty hholds
          | notFull => exact absurd rfl hd
        · exact fun q c hq => h.producer q c (notifyAll_asleep hq)
        · exact fun v c hv => h.worker v c (notifyAll_asleep hv)
      case isFalse hzero =>
        refine ⟨h.bound, h.watched.set ?_, h.producer, h.worker, hroom, hfifo⟩
        intro d hholds
        cases d with
        | notEmpty => exact hempty hholds
        | notFull =>
          replace hholds : rest.length < m := hholds
          omega

theorem Ordered.stop (h : Ordered m s obs) : Ordered m s.stop obs := by
  unfold ThreadPool.stop
  split
  case isFalse => exact h
  case isTrue =>
    -- `_running` says nothing about room
    refine ⟨h.bound, h.watched.notifyAll ?_, ?_, ?_, h.room, h.fifo⟩
    · intro d hd hholds
      cases d with
      | notEmpty => exact absurd rfl hd
      | notFull => exact hholds
    · exact fun q c hq => h.producer q c (notifyAll_asleep hq)
    · exact fun v c hv => h.worker v c (notifyAll_asleep hv)

theorem Ordered.wake (h : Ordered m s obs) (t : PoolThread n) :
    Ordered m { s with monitor := s.monitor.wake t } obs := by
  have hold {u : PoolThread n} {c : PoolCondition} (hu : (s.monitor.wake t).asleep u = some c) :
      s.monitor.asleep u = some c := by
    unfold Monitor.wake at hu
    dsimp only at hu
    by_cases hut : u = t
    · rw [hut, Function.update_self] at hu
      cases hu
    · rw [Function.update_of_ne hut] at hu
      exact hu
  exact ⟨h.bound, h.watched.wake, fun q c hq => h.producer q c (hold hq), fun v c hv => h.worker v c (hold hv),
    h.room, h.fifo⟩

theorem Ordered.step (h : Ordered m s obs) (event : PoolEvent Task n) :
    Ordered m (s.step event).1 (obs ++ (s.step event).2) := by
  cases event with
  | run p task => exact h.run p task
  | push p => exact h.push p
  | testRunning w =>
    unfold ThreadPool.step testRunning
    dsimp only
    split
    · exact h.frame [] rfl rfl rfl rfl
    · exact h.frame [] rfl rfl rfl rfl
  | take w => exact h.take w
  | finish w =>
    unfold ThreadPool.step finish
    dsimp only
    split
    case h_1 task _ => exact h.frame [.executed task] rfl rfl rfl rfl
    · exact h.frame [] rfl rfl rfl rfl
    · exact h.frame [] rfl rfl rfl rfl
    · exact h.frame [] rfl rfl rfl rfl
  | wake t =>
    show Ordered m _ (obs ++ [])
    rw [List.append_nil]
    exact h.wake t
  | stop =>
    show Ordered m _ (obs ++ [])
    rw [List.append_nil]
    exact h.stop
  | join =>
    unfold ThreadPool.step join
    dsimp only
    split
    · exact h.frame [] rfl rfl rfl rfl
    · exact h.frame [] rfl rfl rfl rfl

theorem ordered_runAll (m : ℕ) (events : List (PoolEvent Task n)) :
    Ordered m ((started Task n m).runAll events).1 ((started Task n m).runAll events).2 :=
  Runs.runSpec_invariant (fun s obs => Ordered m s obs) (fun _ _ event h => h.step event)
    (ordered_started Task n m) events

/-- Who sleeps unnotified finds nothing to do. -/
theorem Ordered.worker_awake (h : Ordered m s obs) (hne : s.queue ≠ []) (w : Fin n) :
    s.asleep (.worker w) = false := by
  cases hw : s.monitor.asleep (.worker w) with
  | none =>
    rw [asleep, hw]
    rfl
  | some c =>
    have hc := h.worker w c hw
    rw [hc] at hw
    exact absurd (Or.inl hne) (h.watched _ _ hw)

theorem Ordered.producer_awake (h : Ordered m s obs) (hroom : m = 0 ∨ s.queue.length < m) (p : ℕ) :
    s.asleep (.producer p) = false := by
  cases hp : s.monitor.asleep (.producer p) with
  | none =>
    rw [asleep, hp]
    rfl
  | some c =>
    obtain ⟨hc,hpos⟩ := h.producer p c hp
    rw [hc] at hp
    exact absurd (hroom.resolve_left (Nat.ne_of_gt hpos)) (h.watched _ _ hp)

end ThreadPool

/-- For any number of workers and producers and every order of their steps, the queue keeps its bound, the
tasks that are taken are the first ones that were accepted, in their order and once each, no worker sleeps
unnotified while there is a task, and no producer while there is room. -/
theorem pool_queueing {Task : Type*} (n maxQueueSize : ℕ) (events : List (PoolEvent Task n))
    (s : ThreadPool Task n) (obs : List (PoolObs Task))
    (h : (ThreadPool.started Task n maxQueueSize).runAll events = (s, obs)) :
    (0 < maxQueueSize → s.queue.length ≤ maxQueueSize) ∧
    obs.filterMap PoolObs.acceptedTask = obs.filterMap PoolObs.takenTask ++ s.queue ∧
    (s.queue ≠ [] → ∀ w, s.asleep (.worker w) = false) ∧
    (maxQueueSize = 0 ∨ s.queue.length < maxQueueSize → ∀ p, s.asleep (.producer p) = false) := by
  have hs := ThreadPool.ordered_runAll maxQueueSize events
  rw [h] at hs
  exact ⟨hs.room, hs.fifo, hs.worker_awake, hs.producer_awake⟩

/-- Two producers and a queue for one task: the second one sleeps until the worker has taken the first task. -/
theorem pool_queueing_waiting :
    let events := [.run 0 7, .push 0, .run 1 8, .push 1, .testRunning 0, .take 0, .push 1]
    let s := ((ThreadPool.started ℕ 1 1).runAll events).1
    s.queue = [8] ∧ s.queue.length ≤ 1 ∧ s.asleep (.worker 0) = false := by
  intro events s
  have h := pool_queueing 1 1 events s _ rfl
  exact ⟨rfl, h.1 (by decide), h.2.2.1 (List.cons_ne_nil 8 []) 0⟩

end IdealServer
