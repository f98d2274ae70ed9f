import IdealServer.BlockingQueue
import Mathlib.Algebra.BigOperators.Fin

/-! What the threads of a `Test` put and take, and that they get to their end. -/
namespace IdealServer

namespace Test
variable {n : ℕ} {s s' : Test n} {w : Fin n} {times : ℕ} {obs : List (TestObs n)}

/-- What the main thread has put. -/
def textsPut (times : ℕ) : TestMain n → List Bytes
  | .starting _ | .awaiting _ | .latched => []
  | .putting i => (List.range i).map hello
  | .stopping i => (List.range times).map hello ++ List.replicate i stop
  | .joining _ | .returned => texts n times

/-- A thread takes nothing behind `stop`. -/
def Stops (p : TestWorker) (xs : List Bytes) : Prop :=
  if hasStop p then ∃ ys, xs = ys ++ [stop] ∧ stop ∉ ys else stop ∉ xs

/-- The texts are taken in the order in which they are put. -/
structure Ordered (times : ℕ) (s : Test n) (obs : List (TestObs n)) : Prop where
  asked : s.times = times
  fifo : obs.filterMap TestObs.putText = obs.filterMap TestObs.tookText ++ s.queue.data
  puts : obs.filterMap TestObs.putText = textsPut times s.main
  own : ∀ w, Stops (s.workers w) (obs.filterMap (TestObs.tookBy w))

/-- Where nothing is put and nothing taken. -/
theorem Ordered.silent (h : Ordered times s obs) (htimes : s'.times = s.times) (hqueue : s'.queue.data = s.queue.data)
    (hputs : textsPut times s'.main = textsPut times s.main)
    (hown : ∀ w, hasStop (s'.workers w) = hasStop (s.workers w)) : Ordered times s' (obs ++ []) := by
  rw [List.append_nil]
  refine ⟨htimes.trans h.asked, by rw [hqueue]; exact h.fifo, hputs ▸ h.puts, ?_⟩
  intro w
  rw [Stops, hown w]
  exact h.own w

theorem Ordered.put {m : TestMain n} {x : Bytes} (h : Ordered times s obs)
    (hputs : textsPut times m = textsPut times s.main ++ [x]) : Ordered times (s.put x m).1 (obs ++ [.put x]) := by
  refine ⟨h.asked, ?_, ?_, ?_⟩
  · change _ = _ ++ (s.queue.data ++ [x])
    rw [List.filterMap_append, List.filterMap_append, h.fifo]
    simp [TestObs.putText, TestObs.tookText]
  · change _ = textsPut times m
    rw [List.filterMap_append, h.puts, hputs]
    rfl
  · intro w
    have hnone : [TestObs.put (n := n) x].filterMap (TestObs.tookBy w) = [] := rfl
    rw [List.filterMap_append, hnone, List.append_nil]
    exact h.own w

theorem hasStop_update {f : Fin n → TestWorker} {p : TestWorker} (h : hasStop p = hasStop (f w)) (v : Fin n) :
    hasStop (Function.update f w p v) = hasStop (f v) := by
  rw [Function.update_apply]
  split
  case isTrue hv => rw [hv, h]
  · rfl

theorem Ordered.mainStep (hs : s.Sound) (h : Ordered times s obs) : Ordered times s.mainStep.1 (obs ++ s.mainStep.2) := by
  unfold Test.mainStep
  cases hm : s.main with
  | starting i =>
    dsimp only
    split
    case isTrue hlt =>
      have hunborn : hasStop (s.workers ⟨i, hlt⟩) = false := by
        rw [hs.next_unborn hm hlt]
        rfl
      exact h.silent rfl rfl (by rw [hm]; rfl) (hasStop_update hunborn.symm)
    · exact h.silent rfl rfl (by rw [hm]; rfl) (fun _ => rfl)
  | awaiting v =>
    dsimp only
    split
    · exact h.silent rfl rfl (by rw [hm]; rfl) (fun _ => rfl)
    · exact h.silent rfl rfl (by rw [hm]) (fun _ => rfl)
  | latched =>
    dsimp only
    split
    · exact h.silent rfl rfl (by rw [hm]; rfl) (fun _ => rfl)
    · exact h.silent rfl rfl (by rw [hm]) (fun _ => rfl)
  | putting i =>
    dsimp only
    split
    · apply h.put
      rw [hm, textsPut, textsPut, List.range_succ, List.map_append]
      rfl
    case isFalse hge =>
      have hmain := hs.main
      rw [hm] at hmain
      have hi : i = times := by
        rw [h.asked] at hge hmain
        exact Nat.le_antisymm hmain.1 (Nat.le_of_not_lt hge)
      exact h.silent rfl rfl (by rw [hm, hi]; exact List.append_nil _) (fun _ => rfl)
  | stopping i =>
    dsimp only
    split
    · apply h.put
      rw [hm, textsPut, textsPut, List.replicate_succ', List.append_assoc]
    case isFalse hge =>
      have hmain := hs.main
      rw [hm] at hmain
      have hi : i = n := Nat.le_antisymm hmain.1 (Nat.le_of_not_lt hge)
      exact h.silent rfl rfl (by rw [hm, hi]; rfl) (fun _ => rfl)
  | joining i =>
    dsimp only
    split
    · split
      · exact h.silent rfl rfl (by rw [hm]; rfl) (fun _ => rfl)
      · exact h.silent rfl rfl rfl (fun _ => rfl)
    · exact h.silent rfl rfl (by rw [hm]; rfl) (fun _ => rfl)
  | returned => exact h.silent rfl rfl rfl (fun _ => rfl)

theorem Ordered.workerStep (hs : s.Sound) (h : Ordered times s obs) (w : Fin n) :
    Ordered times (s.workerStep w).1 (obs ++ (s.workerStep w).2) := by
  unfold Test.workerStep
  cases hw : s.workers w with
  | unborn => exact h.silent rfl rfl rfl (fun _ => rfl)
  | starting => exact h.silent rfl rfl rfl (hasStop_update (by rw [hw]; rfl))
  | reporting => exact h.silent rfl rfl rfl (hasStop_update (by rw [hw]; rfl))
  | working => exact h.silent rfl rfl rfl (hasStop_update (by rw [hw]; rfl))
  | taking =>
    have hcases := BlockingQueue.take_cases hs.queueWatched (.worker w)
    dsimp only
    generalize s.queue.take (.worker w) = r at hcases
    cases hcases with
    | waits hdata _ => exact h.silent rfl hdata rfl (fun _ => rfl)
    | @takes d rest hdata _ =>
      refine ⟨h.asked, ?_, ?_, ?_⟩
      · rw [List.filterMap_append, List.filterMap_append, h.fifo, hdata]
        simp [TestObs.putText, TestObs.tookText]
      · rw [List.filterMap_append]
        exact (List.append_nil _).trans h.puts
      · intro v
        have hbefore := h.own v
        rw [List.filterMap_append]
        by_cases hv : v = w
        · subst hv
          -- the thread has not taken `stop` before
          rw [Stops, hw, if_neg (by decide)] at hbefore
          have htook : [TestObs.took v d].filterMap (TestObs.tookBy v) = [d] := by simp [TestObs.tookBy]
          change Stops (Function.update s.workers v (.holding d) v) _
          rw [htook, Function.update_self, Stops]
          by_cases hd : d = stop
          · rw [hd, if_pos (by decide)]
            exact ⟨_, rfl, hbefore⟩
          · have hno : hasStop (.holding d) = false := decide_eq_false hd
            rw [hno, if_neg (by decide), List.mem_append, List.mem_singleton, not_or]
            exact ⟨hbefore, fun heq => hd heq.symm⟩
        · have hwv : ¬ w = v := fun heq => hv heq.symm
          have htook : [TestObs.took w d].filterMap (TestObs.tookBy v) = [] := by simp [TestObs.tookBy, hwv]
          change Stops (Function.update s.workers w (.holding d) v) _
          rw [htook, List.append_nil, Function.update_of_ne hv]
          exact hbefore
  | holding d =>
    refine h.silent rfl rfl rfl (hasStop_update ?_)
    rw [hw]
    by_cases hd : d = stop <;> simp [hd, hasStop]
  | finished => exact h.silent rfl rfl rfl (fun _ => rfl)

theorem Ordered.step (hs : s.Sound) (h : Ordered times s obs) (e : TestEvent n) :
    Ordered times (s.step e).1 (obs ++ (s.step e).2) := by
  cases e with
  | main => exact h.mainStep hs
  | worker w => exact h.workerStep hs w
  | wakeStart w t => exact h.silent rfl rfl rfl (fun _ => rfl)
  | wakeLatch t => exact h.silent rfl rfl rfl (fun _ => rfl)
  | wakeQueue t => exact h.silent rfl rfl rfl (fun _ => rfl)

theorem run_sound (n times : ℕ) (events : List (TestEvent n)) :
    (Runs.runSpec step (new n times) events).1.Sound ∧
      Ordered times (Runs.runSpec step (new n times) events).1 (Runs.runSpec step (new n times) events).2 := by
  have hordered : Ordered times (new n times) [] :=
    ⟨rfl, rfl, rfl, fun w => by
      rw [Stops]
      exact List.not_mem_nil⟩
  exact Runs.runSpec_invariant (fun s obs => s.Sound ∧ Ordered times s obs)
    (fun s obs e h => ⟨h.1.step e, h.2.step h.1 e⟩) ⟨sound_new n times, hordered⟩ events

/-- How many steps a thread has in front of it, apart from those for the texts. -/
def left : TestWorker → ℕ
  | .unborn | .starting => 4
  | .reporting => 3
  | .working => 2
  | .taking => 1
  | .holding _ => 2
  | .finished => 0

/-- How many the main thread has, with two more for each text. -/
def mainLeft (times : ℕ) : TestMain n → ℕ
  | .starting i => 2*(n-i)+(3*times+4*n+5)
  | .awaiting w => 2*(n-(w+1))+1+(3*times+4*n+5)
  | .latched => 3*times+4*n+4
  | .putting i => 3*(times-i)+4*n+3
  | .stopping i => 3*(n-i)+n+2
  | .joining i => n-i+1
  | .returned => 0

def measure (s : Test n) : ℕ := mainLeft s.times s.main+2*s.queue.data.length+∑ w, left (s.workers w)

theorem sum_left_update (f : Fin n → TestWorker) (w : Fin n) (p : TestWorker) :
    ∑ v, left (Function.update f w p v)+left (f w) = ∑ v, left (f v)+left p := by
  have hupdate : (fun v => left (Function.update f w p v)) = Function.update (fun v => left (f v)) w (left p) := by
    funext v
    rw [Function.update_apply, Function.update_apply, apply_ite left]
  have hrest := Finset.add_sum_erase Finset.univ (fun v => left (f v)) (Finset.mem_univ w)
  rw [hupdate, Finset.sum_update_of_mem (Finset.mem_univ w), ← Finset.erase_eq, ← hrest]
  omega

theorem measure_worker {p : TestWorker} {q : BlockingQueue (TestThread n) Bytes} {tid : Fin n → Bool}
    {startLatch : Fin n → CountDownLatch (TestThread n)} {latch : CountDownLatch (TestThread n)}
    (h : left p+2*q.data.length < left (s.workers w)+2*s.queue.data.length) :
    measure ({ s.setWorker w p with tid := tid, startLatch := startLatch, latch := latch, queue := q } : Test n) <
      s.measure := by
  have hsum := sum_left_update s.workers w p
  change mainLeft s.times s.main+2*q.data.length+∑ v, left (Function.update s.workers w p v) < _
  rw [measure]
  omega

/-- A thread that neither has ended nor waits for a text comes nearer to its end. -/
theorem worker_progress (h : s.Sound) (hborn : s.workers w ≠ .unborn) (hlive : s.workers w ≠ .finished)
    (htext : s.workers w = .taking → s.queue.data ≠ []) : (s.step (.worker w)).1.measure < s.measure := by
  change (s.workerStep w).1.measure < s.measure
  unfold Test.workerStep
  cases hw : s.workers w with
  | unborn => exact absurd hw hborn
  | starting => exact measure_worker (by rw [hw]; exact Nat.add_lt_add_right (by decide) _)
  | reporting => exact measure_worker (by rw [hw]; exact Nat.add_lt_add_right (by decide) _)
  | working => exact measure_worker (by rw [hw]; exact Nat.add_lt_add_right (by decide) _)
  | taking =>
    obtain ⟨d,rest,hdata⟩ := List.exists_cons_of_ne_nil (htext hw)
    rw [BlockingQueue.take_of_cons h.queueWatched hdata]
    apply measure_worker
    rw [hw, hdata, List.length_cons]
    change 2+2*rest.length < 1+2*(rest.length+1)
    omega
  | holding d =>
    apply measure_worker
    rw [hw]
    apply Nat.add_lt_add_right
    change left (if d = stop then .finished else .taking) < 2
    split <;> decide
  | finished => exact absurd hw hlive

theorem measure_main {m : TestMain n} {q : BlockingQueue (TestThread n) Bytes} {latch : CountDownLatch (TestThread n)}
    {startLatch : Fin n → CountDownLatch (TestThread n)}
    (h : mainLeft s.times m+2*q.data.length < mainLeft s.times s.main+2*s.queue.data.length) :
    measure ({ s with main := m, startLatch := startLatch, latch := latch, queue := q } : Test n) < s.measure := by
  rw [measure, measure]
  dsimp only
  omega

/-- A thread that holds up the main thread at a latch is on its way to it. -/
theorem late_progress (h : s.Sound) (hborn : w < bornCount s.main) (hlate : (s.workers w).rank < 4) :
    (s.step (.worker w)).1.measure < s.measure := by
  apply worker_progress h
  · intro hw
    have hrank := (h.born w).mpr hborn
    rw [hw] at hrank
    exact absurd hrank (by decide)
  · intro hw
    rw [hw] at hlate
    exact absurd hlate (by decide)
  · intro hw
    rw [hw] at hlate
    exact absurd hlate (by decide)

/-- So does the main thread where no latch and no thread holds it up. -/
theorem main_progress (h : s.Sound) (hmain : s.main ≠ .returned)
    (hstart : ∀ v, s.main = .awaiting v → (s.startLatch v).data = 0) (hlatch : s.main = .latched → s.latch.data = 0)
    (hjoin : ∀ i (hlt : i < n), s.main = .joining i → s.workers ⟨i, hlt⟩ = .finished) :
    s.mainStep.1.measure < s.measure := by
  have hput {x : Bytes} {m : TestMain n} (hm : mainLeft s.times m+2 < mainLeft s.times s.main) :
      (s.put x m).1.measure < s.measure := by
    apply measure_main
    change _+2*(s.queue.data ++ [x]).length < _
    rw [List.length_append, List.length_singleton]
    omega
  unfold Test.mainStep
  cases hm : s.main with
  | returned => exact absurd hm hmain
  | starting i =>
    dsimp only
    split
    case isTrue hlt =>
      have hsum := sum_left_update s.workers ⟨i, hlt⟩ .starting
      rw [h.next_unborn hm hlt] at hsum
      change mainLeft s.times (.awaiting ⟨i, hlt⟩)+2*s.queue.data.length+
        ∑ v, left (Function.update s.workers ⟨i, hlt⟩ .starting v) < _
      rw [Nat.add_right_cancel hsum, measure, hm, mainLeft, mainLeft]
      dsimp only
      omega
    case isFalse hge =>
      apply measure_main
      rw [hm, mainLeft, mainLeft]
      omega
  | awaiting v =>
    dsimp only
    rw [CountDownLatch.wait_of_zero (h.startWatched v) (hstart v hm), if_pos rfl]
    apply measure_main
    rw [hm, mainLeft, mainLeft]
    omega
  | latched =>
    dsimp only
    rw [CountDownLatch.wait_of_zero h.latchWatched (hlatch hm), if_pos rfl]
    apply measure_main
    rw [hm, mainLeft, mainLeft]
    omega
  | putting i =>
    dsimp only
    split
    · apply hput
      rw [hm, mainLeft, mainLeft]
      omega
    · apply measure_main
      rw [hm, mainLeft, mainLeft]
      omega
  | stopping i =>
    dsimp only
    split
    · apply hput
      rw [hm, mainLeft, mainLeft]
      omega
    · apply measure_main
      rw [hm, mainLeft, mainLeft]
      omega
  | joining i =>
    dsimp only
    split
    case isTrue hlt =>
      rw [if_pos (hjoin i hlt hm)]
      apply measure_main
      rw [hm, mainLeft, mainLeft]
      omega
    case isFalse hge =>
      apply measure_main
      rw [hm, mainLeft, mainLeft]
      omega

/-- As long as the main thread has not returned, it or one of the others comes nearer to the end. -/
theorem progress (h : s.Sound) (hmain : s.main ≠ .returned) : ∃ e, (s.step e).1.measure < s.measure := by
  by_cases hblocked : (∀ v, s.main = .awaiting v → (s.startLatch v).data = 0) ∧ (s.main = .latched → s.latch.data = 0) ∧
      ∀ i (hlt : i < n), s.main = .joining i → s.workers ⟨i, hlt⟩ = .finished
  · obtain ⟨hstart,hlatch,hjoin⟩ := hblocked
    exact ⟨.main, main_progress h hmain hstart hlatch hjoin⟩
  cases hm : s.main with
  | awaiting v =>
    refine ⟨.worker v, late_progress h (hm ▸ Nat.lt_succ_self _) ?_⟩
    have hcount := h.starts v
    split at hcount
    · refine absurd ⟨?_, fun hl => ?_, fun i _ hj => ?_⟩ hblocked
      · intro u hu
        rw [TestMain.awaiting.inj (hm.symm.trans hu)] at hcount
        exact hcount
      · cases hm.symm.trans hl
      · cases hm.symm.trans hj
    · omega
  | latched =>
    -- somebody has not counted down
    have hlate : ¬ ∀ w, 4 ≤ (s.workers w).rank := by
      intro hall
      refine hblocked ⟨fun v hv => ?_, fun _ => h.latch_zero_iff.mpr hall, fun i _ hj => ?_⟩
      · cases hm.symm.trans hv
      · cases hm.symm.trans hj
    obtain ⟨w,hw⟩ := not_forall.mp hlate
    exact ⟨.worker w, late_progress h (hm ▸ w.isLt) (Nat.lt_of_not_le hw)⟩
  | joining i =>
    have hsound := h.main
    rw [hm] at hsound
    obtain ⟨w,hw⟩ : ∃ w : Fin n, s.workers w ≠ .finished := by
      by_contra hall
      rw [not_exists_not] at hall
      refine hblocked ⟨fun v hv => ?_, fun hl => ?_, fun i hlt _ => hall ⟨i, hlt⟩⟩
      · cases hm.symm.trans hv
      · cases hm.symm.trans hl
    refine ⟨.worker w, worker_progress h ?_ hw ?_⟩
    · intro hunborn
      have hrank : 4 ≤ (s.workers w).rank := hsound.2.1 w
      rw [hunborn] at hrank
      exact absurd hrank (by decide)
    · -- a text is left for each thread that has not stopped
      intro htaking hempty
      have hstops := h.stops
      rw [hempty, hm, List.count_nil, Nat.zero_add] at hstops
      have hall := List.countP_eq_length.mp (hstops.trans List.length_finRange.symm) w (List.mem_finRange w)
      rw [htaking] at hall
      exact absurd hall (by decide)
  | _ =>
    refine absurd ⟨fun v hv => ?_, fun hl => ?_, fun i _ hj => ?_⟩ hblocked
    · cases hm.symm.trans hv
    · cases hm.symm.trans hl
    · cases hm.symm.trans hj

/-- How many calls of `start` have returned. -/
def startedCount : TestMain n → ℕ
  | .starting i => i
  | .awaiting w => w
  | .latched | .putting _ | .stopping _ | .joining _ | .returned => n

theorem Sound.started (h : s.Sound) (hw : w < startedCount s.main) : s.tid w = true := by
  apply h.ids
  have hmain := h.main
  cases hm : s.main with
  | starting i =>
    rw [hm] at hmain hw
    exact Nat.le_of_succ_le (hmain.2 w hw)
  | awaiting v =>
    rw [hm] at hmain hw
    exact Nat.le_of_succ_le (hmain w hw)
  | latched =>
    rw [hm] at hmain
    exact Nat.le_of_succ_le (hmain w)
  | putting i =>
    rw [hm] at hmain
    exact le_trans (by decide) (hmain.2 w)
  | stopping i =>
    rw [hm] at hmain
    exact le_trans (by decide) (hmain.2 w)
  | joining i =>
    rw [hm] at hmain
    exact le_trans (by decide) (hmain.2.1 w)
  | returned =>
    rw [hm] at hmain
    exact le_trans (by decide) (hmain w)

/-- Texts are put when all threads run, and in the order of `texts`. -/
theorem Sound.put_texts (h : s.Sound) (hs : s.times = times) :
    textsPut times s.main <+: texts n times ∧ (textsPut times s.main ≠ [] → ∀ w, 4 ≤ (s.workers w).rank) := by
  have hmain := h.main
  rw [hs] at hmain
  cases hm : s.main with
  | starting i => exact ⟨List.nil_prefix, fun hne => absurd rfl hne⟩
  | awaiting v => exact ⟨List.nil_prefix, fun hne => absurd rfl hne⟩
  | latched => exact ⟨List.nil_prefix, fun hne => absurd rfl hne⟩
  | putting i =>
    rw [hm] at hmain
    refine ⟨?_, fun _ => hmain.2⟩
    have hrange : List.range i <+: List.range times := by
      obtain ⟨k,rfl⟩ := Nat.exists_eq_add_of_le hmain.1
      rw [List.range_add]
      exact List.prefix_append _ _
    exact (hrange.map hello).trans (List.prefix_append _ _)
  | stopping i =>
    rw [hm] at hmain
    refine ⟨?_, fun _ => hmain.2⟩
    obtain ⟨k,hk⟩ := Nat.exists_eq_add_of_le hmain.1
    rw [textsPut, texts, List.prefix_append_right_inj, hk, List.replicate_add]
    exact List.prefix_append _ _
  | joining i =>
    rw [hm] at hmain
    exact ⟨List.prefix_rfl, fun _ => hmain.2.1⟩
  | returned =>
    rw [hm] at hmain
    exact ⟨List.prefix_rfl, fun _ w => Nat.le_of_succ_le (hmain w)⟩

theorem rank_finished {p : TestWorker} (h : 5 ≤ p.rank) : p = .finished := by
  cases p with
  | finished => rfl
  | holding d => exact absurd h (Nat.not_succ_le_self 4)
  | _ => exact absurd h (by decide)

/-- Behind the last `stop` there is nothing. -/
theorem queue_empty (h : s.Sound) (ho : Ordered times s obs) (hn : 0 < n) (hm : s.main = .returned) :
    s.queue.data = [] := by
  have hmain := h.main
  have hstops := h.stops
  have hfifo := ho.puts.symm.trans ho.fifo
  rw [hm] at hmain hstops hfifo
  have hall : (List.finRange n).countP (fun w => hasStop (s.workers w)) = (List.finRange n).length := by
    rw [List.countP_eq_length]
    intro w _
    rw [rank_finished (hmain w)]
    rfl
  rw [hall, List.length_finRange] at hstops
  have hnone : s.queue.data.count stop = 0 := by
    change s.queue.data.count stop+n = n at hstops
    omega
  by_contra hne
  -- the last text is a `stop`
  obtain ⟨k,hk⟩ : ∃ k, n = k+1 := ⟨n-1, by omega⟩
  obtain ⟨rest,x,hdata⟩ := List.eq_nil_or_concat' s.queue.data |>.resolve_left hne
  have hlast : x = stop := by
    have htexts : textsPut times (TestMain.returned : TestMain n) =
        ((List.range times).map hello ++ List.replicate k stop) ++ [stop] := by
      rw [textsPut, texts, hk, List.replicate_succ', List.append_assoc]
    rw [htexts, hdata, ← List.append_assoc] at hfifo
    exact (List.append_singleton_inj.mp hfifo).2.symm
  rw [hdata, hlast, List.count_append, List.count_singleton_self] at hnone
  omega

end Test

/-- For every order of the steps, and whoever wakes up without a notification: the threads take what has been put,
in its order; `start` returns when the thread has its id, and texts are put when all threads run. The main thread
can always get to its end. There every thread has taken one `stop`, as its last text, and all that was put is
taken. -/
theorem queue_test_runs (n times : ℕ) (events : List (TestEvent n)) :
    ∃ s obs, Runs.runSpec Test.step (Test.new n times) events = (s, obs) ∧
      obs.filterMap TestObs.putText = obs.filterMap TestObs.tookText ++ s.queue.data ∧
      obs.filterMap TestObs.putText <+: Test.texts n times ∧
      (∀ w : Fin n, w < Test.startedCount s.main → s.tid w = true) ∧
      (obs.filterMap TestObs.putText ≠ [] → ∀ w, 4 ≤ (s.workers w).rank) ∧
      (∃ more, (Runs.runSpec Test.step s more).1.main = .returned) ∧
      (s.main = .returned → obs.filterMap TestObs.putText = Test.texts n times ∧ (0 < n → s.queue.data = []) ∧
        ∀ w, s.workers w = .finished ∧ ∃ xs, obs.filterMap (TestObs.tookBy w) = xs ++ [Test.stop] ∧ Test.stop ∉ xs) := by
  obtain ⟨hsound,hordered⟩ := Test.run_sound n times events
  generalize hrun : Runs.runSpec Test.step (Test.new n times) events = r at hsound hordered
  obtain ⟨s,obs⟩ := r
  obtain ⟨hbegin,hrunning⟩ := hsound.put_texts hordered.asked
  refine ⟨s, obs, rfl, hordered.fifo, ?_, fun w hw => hsound.started hw, ?_, ?_, ?_⟩
  · rw [hordered.puts]
    exact hbegin
  · rw [hordered.puts]
    exact hrunning
  · have hnearer (s : Test n) (h : s.Sound) (hmain : ¬ s.main = .returned) :
        ∃ e, True ∧ (s.step e).1.Sound ∧ (s.step e).1.measure < s.measure := by
      obtain ⟨e,hlt⟩ := Test.progress h hmain
      exact ⟨e, trivial, h.step e, hlt⟩
    obtain ⟨more,_,hmore⟩ := Runs.exists_run_to Test.Sound (fun s => s.main = .returned) hnearer hsound
    exact ⟨more, hmore⟩
  · intro hm
    refine ⟨?_, fun hn => Test.queue_empty hsound hordered hn hm, ?_⟩
    · rw [hordered.puts, hm]
      rfl
    · intro w
      have hmain := hsound.main
      rw [hm] at hmain
      have hfinished := Test.rank_finished (hmain w)
      have hown := hordered.own w
      rw [hfinished] at hown
      exact ⟨hfinished, hown⟩

end IdealServer
