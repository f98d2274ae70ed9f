import IdealServer.Convert
import IdealServer.Monitor
import IdealServer.Runs
import Mathlib.Data.List.FinRange

/-! `BlockingQueue` and `CountDownLatch`, and the threads that meet at them: those which a `Test` starts, hands
texts to, stops and joins. -/
namespace IdealServer

/-- The count, behind its mutex. -/
abbrev CountDownLatch (τ : Type*) := Monitor τ Unit ℤ

namespace CountDownLatch
variable {τ : Type*} [DecidableEq τ]

/-- With the mutex. -/
def countDown (l : CountDownLatch τ) : CountDownLatch τ :=
  if l.data-1 = 0 then l.notifyAll (l.data-1) () else { l with data := l.data-1 }

/-- Whether `wait` returns when the thread has the mutex. -/
def wait (l : CountDownLatch τ) (t : τ) : CountDownLatch τ × Bool :=
  if (l.asleep t).isSome then (l, false)
  else if l.data = 0 then (l, true)
  else (l.sleep t (), false)

/-- The predicate of the `wait`. -/
def Zero : Unit → ℤ → Prop := fun _ count => count = 0

variable {l : CountDownLatch τ} {t : τ}

omit [DecidableEq τ] in
theorem countDown_data (l : CountDownLatch τ) : l.countDown.data = l.data-1 := by
  unfold countDown
  split <;> rfl

omit [DecidableEq τ] in
/-- Only the last call has somebody to notify. -/
theorem watched_countDown (h : l.Watched Zero) : l.countDown.Watched Zero := by
  unfold countDown
  split
  · exact h.notifyAll (fun _ hd => absurd rfl hd)
  case isFalse hcount => exact h.set (fun _ hzero => absurd hzero hcount)

theorem wait_data (l : CountDownLatch τ) (t : τ) : (l.wait t).1.data = l.data := by
  unfold wait
  split
  · rfl
  · split <;> rfl

theorem watched_wait (h : l.Watched Zero) (t : τ) : (l.wait t).1.Watched Zero := by
  unfold wait
  split
  · exact h
  · split
    · exact h
    case isFalse hcount => exact h.sleep hcount

theorem data_of_wait (h : (l.wait t).2 = true) : l.data = 0 := by
  unfold wait at h
  split at h
  · cases h
  · split at h
    case isTrue hcount => exact hcount
    · cases h

theorem wait_of_zero (h : l.Watched Zero) (hcount : l.data = 0) : (l.wait t).2 = true := by
  have hawake : l.asleep t = none := by
    by_contra hasleep
    obtain ⟨c,hc⟩ := Option.ne_none_iff_exists'.mp hasleep
    exact h t c hc hcount
  rw [wait, hawake, if_neg (by decide), if_pos hcount]

end CountDownLatch

/-- The `deque`, behind its mutex. -/
abbrev BlockingQueue (τ T : Type*) := Monitor τ Unit (List T)

namespace BlockingQueue
variable {τ T : Type*} [DecidableEq τ]

def put (q : BlockingQueue τ T) (x : T) : BlockingQueue τ T := q.notifyAll (q.data ++ [x]) ()

/-- What `take` returns when the thread has the mutex. -/
def take (q : BlockingQueue τ T) (t : τ) : BlockingQueue τ T × Option T :=
  if (q.asleep t).isSome then (q, none)
  else
    match q.data with
    | [] => (q.sleep t (), none)
    | x :: rest => ({ q with data := rest }, some x)

/-- The predicate of the `wait`. -/
def NotEmpty : Unit → List T → Prop := fun _ xs => xs ≠ []

variable {q : BlockingQueue τ T} {t : τ}

omit [DecidableEq τ] in
theorem watched_put (h : q.Watched NotEmpty) (x : T) : (q.put x).Watched NotEmpty :=
  h.notifyAll (fun _ hd => absurd rfl hd)

inductive TakeCases (q : BlockingQueue τ T) (t : τ) : BlockingQueue τ T × Option T → Prop
  | waits {q' : BlockingQueue τ T} (hdata : q'.data = q.data) (hwatched : q'.Watched NotEmpty) : TakeCases q t (q', none)
  | takes {x : T} {rest : List T} (hdata : q.data = x :: rest) (hwatched : { q with data := rest }.Watched NotEmpty) :
      TakeCases q t ({ q with data := rest }, some x)

theorem take_cases (h : q.Watched NotEmpty) (t : τ) : TakeCases q t (q.take t) := by
  unfold take
  split
  · exact .waits rfl h
  · split
    case h_1 hdata => exact .waits rfl (h.sleep (fun hne => hne hdata))
    case h_2 x rest hdata =>
      apply TakeCases.takes hdata
      exact h.set (fun _ _ hnil => by rw [hdata] at hnil; cases hnil)

/-- Nobody sleeps in front of a text. -/
theorem take_of_cons (h : q.Watched NotEmpty) {x : T} {rest : List T} (hdata : q.data = x :: rest) (t : τ) :
    q.take t = ({ q with data := rest }, some x) := by
  have hawake : q.asleep t = none := by
    by_contra hasleep
    obtain ⟨c,hc⟩ := Option.ne_none_iff_exists'.mp hasleep
    exact h t c hc (by rw [hdata]; exact List.cons_ne_nil _ _)
  rw [take, hawake, if_neg (by decide), hdata]

end BlockingQueue

inductive TestThread (n : ℕ)
  | main
  | worker (w : Fin n)
deriving DecidableEq

/-- Where the main thread is: in the constructor, in `run`, or in `joinAll`. -/
inductive TestMain (n : ℕ)
  | starting (i : ℕ)
  /-- In `Thread::start`, which waits until the thread has its id. -/
  | awaiting (w : Fin n)
  /-- In front of the texts. -/
  | latched
  | putting (i : ℕ)
  | stopping (i : ℕ)
  | joining (i : ℕ)
  | returned
deriving DecidableEq

/-- Where a thread is: in `runInThread`, then in `threadFunc`. -/
inductive TestWorker
  | unborn
  | starting
  | reporting
  | working
  | taking
  | holding (d : Bytes)
  | finished
deriving DecidableEq

structure Test (n : ℕ) where
  /-- The argument of `run`. -/
  times : ℕ
  main : TestMain n
  workers : Fin n → TestWorker
  /-- Whether the `_tid` of the thread has been set. -/
  tid : Fin n → Bool
  /-- The `_latch` of each thread. -/
  startLatch : Fin n → CountDownLatch (TestThread n)
  latch : CountDownLatch (TestThread n)
  queue : BlockingQueue (TestThread n) Bytes

inductive TestEvent (n : ℕ)
  | main
  | worker (w : Fin n)
  /-- A wakeup without a notification. -/
  | wakeStart (w : Fin n) (t : TestThread n)
  | wakeLatch (t : TestThread n)
  | wakeQueue (t : TestThread n)

inductive TestObs (n : ℕ)
  | put (x : Bytes)
  | took (w : Fin n) (x : Bytes)

def TestObs.putText {n : ℕ} : TestObs n → Option Bytes
  | .put x => some x
  | .took _ _ => none

def TestObs.tookText {n : ℕ} : TestObs n → Option Bytes
  | .took _ x => some x
  | .put _ => none

/-- The texts that one thread takes. -/
def TestObs.tookBy {n : ℕ} (w : Fin n) : TestObs n → Option Bytes
  | .took v x => if v = w then some x else none
  | .put _ => none

/-- How far the thread has come. -/
def TestWorker.rank : TestWorker → ℕ
  | .unborn => 0
  | .starting => 1
  | .reporting => 2
  | .working => 3
  | .taking | .holding _ => 4
  | .finished => 5

namespace Test
variable {n : ℕ}

def hello (i : ℕ) : Bytes := ascii "hello " ++ decimalText i
def stop : Bytes := ascii "stop"

/-- Everything that is put into the queue. -/
def texts (n times : ℕ) : List Bytes := (List.range times).map hello ++ List.replicate n stop

/-- In front of `start` for the first thread. -/
def new (n times : ℕ) : Test n :=
  ⟨times, .starting 0, fun _ => .unborn, fun _ => false, fun _ => Monitor.new 1, Monitor.new n, Monitor.new []⟩

def setWorker (s : Test n) (w : Fin n) (phase : TestWorker) : Test n :=
  { s with workers := Function.update s.workers w phase }

def put (s : Test n) (x : Bytes) (next : TestMain n) : Test n × List (TestObs n) :=
  ({ s with queue := s.queue.put x, main := next }, [.put x])

def mainStep (s : Test n) : Test n × List (TestObs n) :=
  match s.main with
  | .starting i =>
    if h : i < n then ({ s.setWorker ⟨i, h⟩ .starting with main := .awaiting ⟨i, h⟩ }, [])
    else ({ s with main := .latched }, [])
  | .awaiting w =>
    let (l, returns) := (s.startLatch w).wait .main
    let main := if returns then .starting (w+1) else .awaiting w
    ({ s with startLatch := Function.update s.startLatch w l, main := main }, [])
  | .latched =>
    let (l, returns) := s.latch.wait .main
    ({ s with latch := l, main := if returns then .putting 0 else .latched }, [])
  | .putting i => if i < s.times then s.put (hello i) (.putting (i+1)) else ({ s with main := .stopping 0 }, [])
  | .stopping i => if i < n then s.put stop (.stopping (i+1)) else ({ s with main := .joining 0 }, [])
  | .joining i =>
    if h : i < n then
      if s.workers ⟨i, h⟩ = .finished then ({ s with main := .joining (i+1) }, []) else (s, [])
    else ({ s with main := .returned }, [])
  | .returned => (s, [])

def workerStep (s : Test n) (w : Fin n) : Test n × List (TestObs n) :=
  match s.workers w with
  | .unborn => (s, [])
  | .starting => ({ s.setWorker w .reporting with tid := Function.update s.tid w true }, [])
  | .reporting =>
    ({ s.setWorker w .working with startLatch := Function.update s.startLatch w (s.startLatch w).countDown }, [])
  | .working => ({ s.setWorker w .taking with latch := s.latch.countDown }, [])
  | .taking =>
    match s.queue.take (.worker w) with
    | (q, none) => ({ s with queue := q }, [])
    | (q, some d) => ({ s.setWorker w (.holding d) with queue := q }, [.took w d])
  | .holding d => (s.setWorker w (if d = stop then .finished else .taking), [])
  | .finished => (s, [])

def step (s : Test n) : TestEvent n → Test n × List (TestObs n)
  | .main => s.mainStep
  | .worker w => s.workerStep w
  | .wakeStart w t =>
    ({ s with startLatch := Function.update s.startLatch w ((s.startLatch w).wake t) }, [])
  | .wakeLatch t => ({ s with latch := s.latch.wake t }, [])
  | .wakeQueue t => ({ s with queue := s.queue.wake t }, [])

/-- Whether the thread has taken its last text. -/
def hasStop : TestWorker → Bool
  | .holding d => decide (d = stop)
  | .finished => true
  | .unborn | .starting | .reporting | .working | .taking => false

/-- How many of the last texts have been put. -/
def stopsPut : TestMain n → ℕ
  | .starting _ | .awaiting _ | .latched | .putting _ => 0
  | .stopping i => i
  | .joining _ | .returned => n

/-- How many of the threads exist. -/
def bornCount : TestMain n → ℕ
  | .starting i => i
  | .awaiting w => w+1
  | .latched | .putting _ | .stopping _ | .joining _ | .returned => n

/-- What the main thread knows about the others, from where it is. -/
def MainSound (times : ℕ) (rank : Fin n → ℕ) : TestMain n → Prop
  | .starting i => i ≤ n ∧ ∀ w : Fin n, w < i → 3 ≤ rank w
  | .awaiting v => ∀ w, w < v → 3 ≤ rank w
  | .latched => ∀ w, 3 ≤ rank w
  | .putting i => i ≤ times ∧ ∀ w, 4 ≤ rank w
  | .stopping i => i ≤ n ∧ ∀ w, 4 ≤ rank w
  | .joining i => i ≤ n ∧ (∀ w, 4 ≤ rank w) ∧ ∀ w : Fin n, w < i → 5 ≤ rank w
  | .returned => ∀ w, 5 ≤ rank w

structure Sound (s : Test n) : Prop where
  born : ∀ w : Fin n, 1 ≤ (s.workers w).rank ↔ w < bornCount s.main
  ids : ∀ w, 2 ≤ (s.workers w).rank → s.tid w = true
  starts : ∀ w, (s.startLatch w).data = if 3 ≤ (s.workers w).rank then 0 else 1
  running : s.latch.data+(List.finRange n).countP (fun w => decide (4 ≤ (s.workers w).rank)) = n
  stops : s.queue.data.count stop+(List.finRange n).countP (fun w => hasStop (s.workers w)) = stopsPut s.main
  startWatched : ∀ w, (s.startLatch w).Watched CountDownLatch.Zero
  latchWatched : s.latch.Watched CountDownLatch.Zero
  queueWatched : s.queue.Watched BlockingQueue.NotEmpty
  main : MainSound s.times (fun w => (s.workers w).rank) s.main

variable {s : Test n} {w : Fin n}

theorem MainSound.mono {times : ℕ} {rank rank' : Fin n → ℕ} {m : TestMain n} (h : MainSound times rank m)
    (hmono : ∀ w, rank w ≤ rank' w) : MainSound times rank' m := by
  have hle {k : ℕ} {w : Fin n} (hk : k ≤ rank w) : k ≤ rank' w := hk.trans (hmono w)
  cases m with
  | starting i => exact ⟨h.1, fun w hw => hle (h.2 w hw)⟩
  | awaiting v => exact fun w hw => hle (h w hw)
  | latched => exact fun w => hle (h w)
  | putting i => exact ⟨h.1, fun w => hle (h.2 w)⟩
  | stopping i => exact ⟨h.1, fun w => hle (h.2 w)⟩
  | joining i => exact ⟨h.1, fun w => hle (h.2.1 w), fun w hw => hle (h.2.2 w hw)⟩
  | returned => exact fun w => hle (h w)

theorem rank_update (f : Fin n → TestWorker) (w v : Fin n) (p : TestWorker) :
    (Function.update f w p v).rank = if v = w then p.rank else (f v).rank := by
  rw [Function.update_apply, apply_ite TestWorker.rank]

/-- What the thread had reached and still has, every thread has as before. -/
theorem le_rank_update {f : Fin n → TestWorker} {p : TestWorker} {k : ℕ} (hw : k ≤ (f w).rank) (hp : k ≤ p.rank)
    (v : Fin n) : k ≤ (Function.update f w p v).rank ↔ k ≤ (f v).rank := by
  rw [rank_update]
  split
  case isTrue hv =>
    rw [hv]
    exact iff_of_true hp hw
  · exact Iff.rfl

theorem rank_eq_zero {p : TestWorker} : p.rank = 0 ↔ p = .unborn := by
  cases p <;> simp [TestWorker.rank]

theorem MainSound.worker {p : TestWorker} (h : Sound s) (hp : (s.workers w).rank ≤ p.rank) :
    MainSound s.times (fun v => (Function.update s.workers w p v).rank) s.main := by
  apply h.main.mono
  intro v
  rw [rank_update]
  split
  case isTrue hv => exact hv ▸ hp
  · exact le_refl _

/-- What the count of the threads in a phase is after the step of one of them. -/
theorem countP_workers (f : Fin n → TestWorker) (q : TestWorker → Bool) (w : Fin n) (p : TestWorker) :
    (List.finRange n).countP (fun v => q (Function.update f w p v))+(q (f w)).toNat =
      (List.finRange n).countP (fun v => q (f v))+(q p).toNat :=
  Monitor.countP_update (List.mem_finRange w) (List.nodup_finRange n)

theorem sound_new (n times : ℕ) : (new n times).Sound := by
  have hnone (q : TestWorker → Bool) (hq : q .unborn = false) :
      (List.finRange n).countP (fun w => q ((new n times).workers w)) = 0 := by
    rw [List.countP_eq_zero]
    intro w _
    change ¬ q .unborn = true
    rw [hq]
    exact Bool.false_ne_true
  refine ⟨fun w => iff_of_false (Nat.not_lt_zero _) (Nat.not_lt_zero _), fun w hw => ?_, fun w => rfl, ?_, ?_,
    fun w => Monitor.watched_new _, Monitor.watched_new _, Monitor.watched_new _, Nat.zero_le n,
    fun w hw => absurd hw (Nat.not_lt_zero _)⟩
  · exact absurd hw (by decide : ¬ 2 ≤ TestWorker.unborn.rank)
  · rw [hnone (fun p => decide (4 ≤ p.rank)) (by decide)]
    exact Int.add_zero _
  · rw [hnone hasStop rfl]
    rfl

/-- A step of a thread that concerns neither the queue nor the second latch. -/
theorem Sound.advance {p : TestWorker} {tid : Fin n → Bool} {startLatch : Fin n → CountDownLatch (TestThread n)}
    {m : TestMain n} (h : s.Sound) (hrank : (s.workers w).rank ≤ p.rank) (hp : p.rank < 4) (hstop : hasStop p = false)
    (hborn : ∀ v : Fin n, 1 ≤ (Function.update s.workers w p v).rank ↔ v < bornCount m)
    (hstops : stopsPut m = stopsPut s.main) (hmain : MainSound s.times (fun v => (Function.update s.workers w p v).rank) m)
    (hids : ∀ v, 2 ≤ (Function.update s.workers w p v).rank → tid v = true)
    (hstarts : ∀ v, (startLatch v).data = if 3 ≤ (Function.update s.workers w p v).rank then 0 else 1)
    (hwatched : ∀ v, (startLatch v).Watched CountDownLatch.Zero) :
    ({ s.setWorker w p with tid := tid, startLatch := startLatch, main := m } : Test n).Sound := by
  have hearly : hasStop (s.workers w) = false := by
    cases hw : s.workers w with
    | holding d =>
      rw [hw] at hrank
      exact absurd (hrank.trans_lt hp) (Nat.lt_irrefl 4)
    | finished =>
      rw [hw] at hrank
      exact absurd (hrank.trans_lt hp) (by decide)
    | _ => rfl
  refine ⟨hborn, hids, hstarts, ?_, ?_, hwatched, h.latchWatched, h.queueWatched, hmain⟩
  · have hcount := countP_workers s.workers (fun p => decide (4 ≤ p.rank)) w p
    rw [decide_eq_false (show ¬ 4 ≤ p.rank by omega), decide_eq_false (show ¬ 4 ≤ (s.workers w).rank by omega)] at hcount
    have hbefore := h.running
    change s.latch.data+((List.finRange n).countP (fun v => decide (4 ≤ (Function.update s.workers w p v).rank)) : ℕ) = n
    rw [Nat.add_right_cancel hcount]
    exact hbefore
  · have hcount := countP_workers s.workers hasStop w p
    rw [hstop, hearly] at hcount
    change s.queue.data.count stop+(List.finRange n).countP (fun v => hasStop (Function.update s.workers w p v)) = _
    rw [Nat.add_right_cancel hcount, hstops]
    exact h.stops

/-- A step of a thread past both latches. -/
theorem Sound.serve {p : TestWorker} {q : BlockingQueue (TestThread n) Bytes} (h : s.Sound)
    (hrank : 4 ≤ (s.workers w).rank) (hp : (s.workers w).rank ≤ p.rank) (hwatched : q.Watched BlockingQueue.NotEmpty)
    (hstops : q.data.count stop+(hasStop p).toNat = s.queue.data.count stop+(hasStop (s.workers w)).toNat) :
    ({ s.setWorker w p with queue := q } : Test n).Sound := by
  have hsame {k : ℕ} (hk : k ≤ 4) (v : Fin n) :
      k ≤ (Function.update s.workers w p v).rank ↔ k ≤ (s.workers v).rank :=
    le_rank_update (hk.trans hrank) (hk.trans (hrank.trans hp)) v
  refine ⟨fun v => (hsame (by decide) v).trans (h.born v), ?_, ?_, ?_, ?_, h.startWatched, h.latchWatched, hwatched,
    MainSound.worker h hp⟩
  · exact fun v hv => h.ids v ((hsame (by decide) v).mp hv)
  · intro v
    change (s.startLatch v).data = if 3 ≤ (Function.update s.workers w p v).rank then 0 else 1
    simp only [hsame (show 3 ≤ 4 by decide) v]
    exact h.starts v
  · change s.latch.data+((List.finRange n).countP (fun v => decide (4 ≤ (Function.update s.workers w p v).rank)) : ℕ) = n
    simp only [hsame (le_refl 4)]
    exact h.running
  · have hcount := countP_workers s.workers hasStop w p
    have hbefore := h.stops
    change q.data.count stop+(List.finRange n).countP (fun v => hasStop (Function.update s.workers w p v)) = stopsPut s.main
    omega

theorem Sound.setId (h : s.Sound) (hw : s.workers w = .starting) :
    ({ s.setWorker w .reporting with tid := Function.update s.tid w true } : Test n).Sound := by
  have hrank : (s.workers w).rank ≤ TestWorker.reporting.rank := by
    rw [hw]
    decide
  apply @Sound.advance n s w .reporting (Function.update s.tid w true) s.startLatch s.main h hrank (by decide) rfl
  · exact fun v => (le_rank_update (by rw [hw]; decide) (by decide) v).trans (h.born v)
  · rfl
  · exact MainSound.worker h hrank
  · intro v hv
    rw [rank_update] at hv
    rw [Function.update_apply]
    split
    · rfl
    case isFalse hvw =>
      rw [if_neg hvw] at hv
      exact h.ids v hv
  · intro v
    rw [rank_update]
    split
    case isTrue hvw =>
      rw [hvw, h.starts w, hw]
      rfl
    · exact h.starts v
  · exact h.startWatched

theorem Sound.countStart (h : s.Sound) (hw : s.workers w = .reporting) :
    ({ s.setWorker w .working with
      startLatch := Function.update s.startLatch w (s.startLatch w).countDown } : Test n).Sound := by
  have hrank : (s.workers w).rank ≤ TestWorker.working.rank := by
    rw [hw]
    decide
  apply @Sound.advance n s w .working s.tid _ s.main h hrank (by decide) rfl
  · exact fun v => (le_rank_update (by rw [hw]; decide) (by decide) v).trans (h.born v)
  · rfl
  · exact MainSound.worker h hrank
  · intro v hv
    exact h.ids v ((le_rank_update (by rw [hw]; decide) (by decide) v).mp hv)
  · intro v
    rw [rank_update, Function.update_apply]
    split
    · rw [CountDownLatch.countDown_data, h.starts w, hw]
      rfl
    · exact h.starts v
  · intro v
    rw [Function.update_apply]
    split
    · exact CountDownLatch.watched_countDown (h.startWatched w)
    · exact h.startWatched v

theorem Sound.countLatch (h : s.Sound) (hw : s.workers w = .working) :
    ({ s.setWorker w .taking with latch := s.latch.countDown } : Test n).Sound := by
  have hrunning := countP_workers s.workers (fun p => decide (4 ≤ p.rank)) w .taking
  have hstop := countP_workers s.workers hasStop w .taking
  rw [hw] at hrunning hstop
  refine ⟨?_, ?_, ?_, ?_, ?_, h.startWatched, CountDownLatch.watched_countDown h.latchWatched, h.queueWatched,
    MainSound.worker h (by rw [hw]; decide)⟩
  · exact fun v => (le_rank_update (by rw [hw]; decide) (by decide) v).trans (h.born v)
  · intro v hv
    exact h.ids v ((le_rank_update (by rw [hw]; decide) (by decide) v).mp hv)
  · intro v
    change (s.startLatch v).data = if 3 ≤ (Function.update s.workers w .taking v).rank then 0 else 1
    simp only [@le_rank_update n w s.workers .taking 3 (by rw [hw]; decide) (by decide) v]
    exact h.starts v
  · have hbefore := h.running
    change s.latch.countDown.data+((List.finRange n).countP
      (fun v => decide (4 ≤ (Function.update s.workers w .taking v).rank)) : ℕ) = n
    rw [CountDownLatch.countDown_data]
    change _+0 = _+1 at hrunning
    omega
  · have hbefore := h.stops
    change s.queue.data.count stop+(List.finRange n).countP (fun v => hasStop (Function.update s.workers w .taking v)) = _
    rw [Nat.add_right_cancel hstop]
    exact hbefore

theorem Sound.workerStep (h : s.Sound) (w : Fin n) : (s.workerStep w).1.Sound := by
  unfold Test.workerStep
  cases hw : s.workers w with
  | unborn => exact h
  | starting => exact h.setId hw
  | reporting => exact h.countStart hw
  | working => exact h.countLatch hw
  | taking =>
    have hcases := BlockingQueue.take_cases h.queueWatched (.worker w)
    generalize s.queue.take (.worker w) = r at hcases
    cases hcases with
    | waits hdata hqueue =>
      exact ⟨h.born, h.ids, h.starts, h.running, by rw [← h.stops, ← hdata], h.startWatched, h.latchWatched, hqueue, h.main⟩
    | @takes d rest hdata hqueue =>
      apply @Sound.serve n s w (.holding d) _ h (by rw [hw]; decide) (by rw [hw]; exact le_refl 4) hqueue
      rw [hdata, hw, List.count_cons]
      change rest.count stop+(decide (d = stop)).toNat = rest.count stop+(if (d == stop) = true then 1 else 0)+0
      by_cases hd : d = stop <;> simp [hd]
  | holding d =>
    apply @Sound.serve n s w (if d = stop then .finished else .taking) s.queue h
    · rw [hw]
      exact le_refl 4
    · rw [hw]
      split
      · exact Nat.le_succ 4
      · exact le_refl 4
    · exact h.queueWatched
    · rw [hw]
      change _ = _+(decide (d = stop)).toNat
      by_cases hd : d = stop <;> simp [hd, hasStop]
  | finished => exact h

theorem Sound.setMain {m : TestMain n} (h : s.Sound) (hborn : bornCount m = bornCount s.main)
    (hstops : stopsPut m = stopsPut s.main) (hm : MainSound s.times (fun w => (s.workers w).rank) m) :
    ({ s with main := m } : Test n).Sound :=
  ⟨hborn ▸ h.born, h.ids, h.starts, h.running, hstops ▸ h.stops, h.startWatched, h.latchWatched, h.queueWatched, hm⟩

theorem Sound.put {m : TestMain n} {x : Bytes} (h : s.Sound) (hborn : bornCount m = bornCount s.main)
    (hstops : stopsPut m = stopsPut s.main+if x = stop then 1 else 0)
    (hm : MainSound s.times (fun w => (s.workers w).rank) m) : (s.put x m).1.Sound := by
  refine ⟨hborn ▸ h.born, h.ids, h.starts, h.running, ?_, h.startWatched, h.latchWatched,
    BlockingQueue.watched_put h.queueWatched x, hm⟩
  have hbefore := h.stops
  change (s.queue.data ++ [x]).count stop+(List.finRange n).countP (fun w => hasStop (s.workers w)) = stopsPut m
  rw [hstops, List.count_append, List.count_singleton]
  simp only [beq_iff_eq]
  omega

theorem hello_ne_stop (i : ℕ) : hello i ≠ stop := by
  intro heq
  have hfirst := congrArg List.head? heq
  exact absurd hfirst (by decide : ¬ some 104 = (some 115 : Option UInt8))

theorem Sound.next_unborn {i : ℕ} (h : s.Sound) (hm : s.main = .starting i) (hlt : i < n) :
    s.workers ⟨i, hlt⟩ = .unborn := by
  have hborn := h.born ⟨i, hlt⟩
  rw [hm] at hborn
  rw [← rank_eq_zero]
  by_contra hrank
  exact absurd (hborn.mp (Nat.pos_of_ne_zero hrank)) (Nat.lt_irrefl i)

/-- The next thread, which does not exist yet, is created. -/
theorem Sound.startNext {i : ℕ} (h : s.Sound) (hm : s.main = .starting i) (hlt : i < n) :
    ({ s.setWorker ⟨i, hlt⟩ .starting with main := .awaiting ⟨i, hlt⟩ } : Test n).Sound := by
  have hmain := h.main
  have hborn := h.born
  have hunborn := h.next_unborn hm hlt
  rw [hm] at hmain hborn
  apply @Sound.advance n s ⟨i, hlt⟩ .starting s.tid s.startLatch (.awaiting ⟨i, hlt⟩) h (by rw [hunborn]; decide)
    (by decide) rfl
  · intro v
    rw [rank_update]
    split
    case isTrue hv =>
      rw [hv]
      exact iff_of_true (by decide) (Nat.lt_succ_self i)
    case isFalse hv =>
      have hvi : v.val ≠ i := fun hvi => hv (Fin.ext hvi)
      exact (hborn v).trans ⟨fun hlt => Nat.lt_succ_of_lt hlt, fun hle => Nat.lt_of_le_of_ne (Nat.le_of_lt_succ hle) hvi⟩
  · rw [hm]
    rfl
  · intro v hv
    have hne : v ≠ ⟨i, hlt⟩ := by
      intro heq
      rw [heq] at hv
      exact Nat.lt_irrefl i hv
    dsimp only
    rw [rank_update, if_neg hne]
    exact hmain.2 v hv
  · intro v hv
    rw [rank_update] at hv
    split at hv
    · exact absurd hv (by decide)
    · exact h.ids v hv
  · intro v
    rw [rank_update]
    split
    case isTrue hv =>
      rw [hv, h.starts, hunborn]
      rfl
    · exact h.starts v
  · exact h.startWatched

/-- The `_latch` of a thread, after its count or its sleepers have changed. -/
theorem Sound.setStartLatch {v : Fin n} {l : CountDownLatch (TestThread n)} (h : s.Sound)
    (hdata : l.data = (s.startLatch v).data) (hwatched : l.Watched CountDownLatch.Zero) :
    ({ s with startLatch := Function.update s.startLatch v l } : Test n).Sound := by
  refine ⟨h.born, h.ids, ?_, h.running, h.stops, ?_, h.latchWatched, h.queueWatched, h.main⟩
  · intro w
    dsimp only
    rw [Function.update_apply]
    split
    case isTrue hwv =>
      rw [hdata, hwv]
      exact h.starts v
    · exact h.starts w
  · intro w
    dsimp only
    rw [Function.update_apply]
    split
    · exact hwatched
    · exact h.startWatched w

/-- `start` returns when the thread has counted down. -/
theorem Sound.awaitStart {v : Fin n} (h : s.Sound) (hm : s.main = .awaiting v) :
    ({ s with
      startLatch := Function.update s.startLatch v ((s.startLatch v).wait .main).1
      main := if ((s.startLatch v).wait .main).2 then .starting (v+1) else .awaiting v } : Test n).Sound := by
  have hmain := h.main
  rw [hm] at hmain
  have hlatched := h.setStartLatch (CountDownLatch.wait_data (s.startLatch v) .main)
    (CountDownLatch.watched_wait (h.startWatched v) .main)
  split
  case isTrue hreturned =>
    have hstarted : 3 ≤ (s.workers v).rank := by
      by_contra hearly
      have hzero := CountDownLatch.data_of_wait hreturned
      rw [h.starts v, if_neg hearly] at hzero
      exact absurd hzero (by decide)
    apply hlatched.setMain
    · dsimp only
      rw [hm]
      rfl
    · dsimp only
      rw [hm]
      rfl
    · refine ⟨v.isLt, ?_⟩
      intro w hw
      rcases Nat.lt_succ_iff_lt_or_eq.mp hw with hw | hw
      · exact hmain w hw
      · rw [Fin.ext hw]
        exact hstarted
  · exact hlatched.setMain (by dsimp only; rw [hm]) (by dsimp only; rw [hm]) hmain

theorem Sound.latch_zero_iff (h : s.Sound) : s.latch.data = 0 ↔ ∀ w, 4 ≤ (s.workers w).rank := by
  have hrunning := h.running
  have hcount : (List.finRange n).countP (fun w => decide (4 ≤ (s.workers w).rank)) = n ↔ ∀ w, 4 ≤ (s.workers w).rank := by
    have hall := List.countP_eq_length (p := fun w => decide (4 ≤ (s.workers w).rank)) (l := List.finRange n)
    rw [List.length_finRange] at hall
    rw [hall]
    exact ⟨fun hw w => of_decide_eq_true (hw w (List.mem_finRange w)), fun hw w _ => decide_eq_true (hw w)⟩
  rw [← hcount]
  omega

/-- `run` goes on when all threads have counted down. -/
theorem Sound.awaitAll (h : s.Sound) (hm : s.main = .latched) :
    ({ s with
      latch := (s.latch.wait .main).1
      main := if (s.latch.wait .main).2 then .putting 0 else .latched } : Test n).Sound := by
  have hmain := h.main
  rw [hm] at hmain
  have hlatched : ({ s with latch := (s.latch.wait .main).1 } : Test n).Sound :=
    ⟨h.born, h.ids, h.starts, by rw [← h.running, ← CountDownLatch.wait_data s.latch .main], h.stops, h.startWatched,
      CountDownLatch.watched_wait h.latchWatched .main, h.queueWatched, h.main⟩
  split
  case isTrue hreturned =>
    have hall := h.latch_zero_iff.mp (CountDownLatch.data_of_wait hreturned)
    exact hlatched.setMain (by dsimp only; rw [hm]; rfl) (by dsimp only; rw [hm]; rfl) ⟨Nat.zero_le _, hall⟩
  · exact hlatched.setMain (by dsimp only; rw [hm]) (by dsimp only; rw [hm]) hmain

/-- The latches tell the main thread how far the others have come. -/
theorem Sound.mainStep (h : s.Sound) : s.mainStep.1.Sound := by
  have hmain := h.main
  unfold Test.mainStep
  cases hm : s.main with
  | starting i =>
    rw [hm] at hmain
    obtain ⟨hi,hstarted⟩ := hmain
    dsimp only
    split
    case isTrue hlt => exact h.startNext hm hlt
    case isFalse hge =>
      have hin : i = n := Nat.le_antisymm hi (Nat.le_of_not_lt hge)
      exact h.setMain (by rw [hm, hin]; rfl) (by rw [hm]; rfl) (fun w => hstarted w (by omega))
  | awaiting v => exact h.awaitStart hm
  | latched => exact h.awaitAll hm
  | putting i =>
    rw [hm] at hmain
    obtain ⟨hi,hrunning⟩ := hmain
    dsimp only
    split
    case isTrue hlt =>
      apply h.put
      · rw [hm]
        rfl
      · rw [hm, if_neg (hello_ne_stop i)]
        rfl
      · exact ⟨hlt, hrunning⟩
    · exact h.setMain (by rw [hm]; rfl) (by rw [hm]; rfl) ⟨Nat.zero_le n, hrunning⟩
  | stopping i =>
    rw [hm] at hmain
    obtain ⟨hi,hrunning⟩ := hmain
    dsimp only
    split
    case isTrue hlt =>
      apply h.put
      · rw [hm]
        rfl
      · rw [hm, if_pos rfl]
        rfl
      · exact ⟨hlt, hrunning⟩
    case isFalse hge =>
      have hin : i = n := by omega
      exact h.setMain (by rw [hm]; rfl) (by rw [hm, hin]; rfl)
        ⟨Nat.zero_le n, hrunning, fun w hw => absurd hw (Nat.not_lt_zero _)⟩
  | joining i =>
    rw [hm] at hmain
    obtain ⟨hi,hrunning,hjoined⟩ := hmain
    dsimp only
    split
    case isTrue hlt =>
      split
      case isTrue hfinished =>
        refine h.setMain (by rw [hm]; rfl) (by rw [hm]; rfl) ⟨hlt, hrunning, ?_⟩
        intro w hw
        rcases Nat.lt_succ_iff_lt_or_eq.mp hw with hw | rfl
        · exact hjoined w hw
        · dsimp only
          rw [hfinished]
          exact le_refl 5
      · exact h
    case isFalse hge => exact h.setMain (by rw [hm]; rfl) (by rw [hm]; rfl) (fun w => hjoined w (by omega))
  | returned => exact h

theorem Sound.step (h : s.Sound) (e : TestEvent n) : (s.step e).1.Sound := by
  cases e with
  | main => exact h.mainStep
  | worker w => exact h.workerStep w
  | wakeStart w t => exact h.setStartLatch rfl (h.startWatched w).wake
  | wakeLatch t =>
    exact ⟨h.born, h.ids, h.starts, h.running, h.stops, h.startWatched, h.latchWatched.wake, h.queueWatched, h.main⟩
  | wakeQueue t =>
    exact ⟨h.born, h.ids, h.starts, h.running, h.stops, h.startWatched, h.latchWatched, h.queueWatched.wake, h.main⟩

end Test

end IdealServer
