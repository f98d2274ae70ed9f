import IdealServer.Runs
import Mathlib.Algebra.Group.Nat.Defs
import Mathlib.Logic.Function.Basic

/-! An `EventLoop` and the threads that call `queueInLoop` and `quit`. Every step is one access to what
the threads share. -/
namespace IdealServer

inductive Caller
  | loopThread
  | foreign (n : ℕ)
deriving DecidableEq, Repr

/-- Where a thread stands in `queueInLoop` or `quit`: the functor has been pushed, or `_quit` has been
set, and the decision to wake the loop up is still to come. -/
inductive CallPhase
  | idle
  | queued
  | quitting
deriving DecidableEq, Repr

/-- Where the loop thread stands. -/
inductive LoopPhase (Functor : Type*)
  /-- Nobody else knows the loop. `threadFunc` runs the init callback. -/
  | constructed
  /-- Others know the loop. `threadFunc` has set `_loop`. -/
  | published
  /-- `loop` has set `_looping`. -/
  | entered
  /-- In front of the condition of the `while`. -/
  | testing
  | polling
  /-- Events are handled, that of `_wakeupChannel` is among those to come or not. -/
  | handling (wakeup : Bool)
  /-- `doPendingFunctors` has set `_callingPendingFunctors`. -/
  | swapping
  /-- The functors that have not been called yet, and whether one is being called. -/
  | running (calling : Bool) (functors : List Functor)
  | exited

namespace LoopPhase
variable {Functor : Type*}

/-- The loop thread runs code of its user: callbacks, or what stands in front of the call of `loop`. -/
def inCallback : LoopPhase Functor → Bool
  | .constructed => true
  | .published => true
  | .handling _ => true
  | .running calling _ => calling
  | _ => false

def inWhile : LoopPhase Functor → Bool
  | .constructed => false
  | .published => false
  | .entered => false
  | .exited => false
  | _ => true

def functors : LoopPhase Functor → List Functor
  | .running _ functors => functors
  | _ => []

/-- `loop` has set `_quit` to `false`. -/
def hasReset : LoopPhase Functor → Bool
  | .constructed => false
  | .published => false
  | .entered => false
  | _ => true

end LoopPhase

structure EventLoop (Functor : Type*) where
  phase : LoopPhase Functor
  pendingFunctors : List Functor
  callingPendingFunctors : Bool
  quit : Bool
  /-- The counter of the `eventfd`. -/
  wakeupFd : ℕ
  callers : Caller → CallPhase

inductive LoopAction (Functor : Type*)
  | publish
  | enter
  | resetQuit
  | testQuit
  /-- `poll` returns, with `_wakeupChannel` among the active channels or without it. -/
  | pollReturn (wakeup : Bool)
  | handleRead
  | doPendingFunctors
  | swap
  | call
  | finish
  | queueInLoop (c : Caller) (cb : Functor)
  | quit (c : Caller)
  /-- The second half of `queueInLoop` or `quit`. -/
  | decide (c : Caller)

inductive LoopObs (Functor : Type*)
  | pushed (cb : Functor)
  | swapped
  | started (cb : Functor)
  | quitReturned (c : Caller)
deriving DecidableEq

namespace EventLoop
variable {Functor : Type*}

def new : EventLoop Functor := ⟨.constructed, [], false, false, 0, fun _ => .idle⟩

/-- The counter of an `eventfd` stops below `2^64-1`, where a write fails with `EAGAIN`. -/
def wakeup (s : EventLoop Functor) : EventLoop Functor :=
  { s with wakeupFd := if s.wakeupFd < 2^64-2 then s.wakeupFd+1 else s.wakeupFd }

def setCaller (s : EventLoop Functor) (c : Caller) (p : CallPhase) : EventLoop Functor :=
  { s with callers := Function.update s.callers c p }

/-- The loop thread calls from callbacks, and the others when they know the loop. -/
def mayCall (s : EventLoop Functor) : Caller → Bool
  | .loopThread => s.phase.inCallback
  | .foreign _ => match s.phase with
    | .constructed => false
    | _ => true

/-- What the loop thread does next, when it is not inside `queueInLoop` or `quit`. -/
def proceed (s : EventLoop Functor) (ev : LoopAction Functor) : EventLoop Functor × List (LoopObs Functor) :=
  match s.phase, ev with
  | .constructed, .publish => ({ s with phase := .published }, [])
  | .published, .enter => ({ s with phase := .entered }, [])
  | .entered, .resetQuit => ({ s with quit := false, phase := .testing }, [])
  | .testing, .testQuit => ({ s with phase := if s.quit then .exited else .polling }, [])
  -- `poll` also returns for other channels and after ten seconds, but reports no channel that is not ready
  | .polling, .pollReturn wakeup => ({ s with phase := .handling (wakeup && 0 < s.wakeupFd) }, [])
  | .handling true, .handleRead => ({ s with wakeupFd := 0, phase := .handling false }, [])
  | .handling false, .doPendingFunctors => ({ s with callingPendingFunctors := true, phase := .swapping }, [])
  | .swapping, .swap => ({ s with pendingFunctors := [], phase := .running false s.pendingFunctors }, [.swapped])
  | .running _ (cb :: functors), .call => ({ s with phase := .running true functors }, [.started cb])
  | .running _ [], .finish => ({ s with callingPendingFunctors := false, phase := .testing }, [])
  | _, _ => (s, [])

/-- An event that is not enabled changes nothing. -/
def step (s : EventLoop Functor) : LoopAction Functor → EventLoop Functor × List (LoopObs Functor)
  | .queueInLoop c cb =>
    if s.callers c = .idle ∧ s.mayCall c = true then
      ({ s with pendingFunctors := s.pendingFunctors ++ [cb] }.setCaller c .queued, [.pushed cb])
    else (s, [])
  | .quit c =>
    if s.callers c = .idle ∧ s.mayCall c = true then ({ s with quit := true }.setCaller c .quitting, [])
    else (s, [])
  | .decide c =>
    match s.callers c with
    | .idle => (s, [])
    -- another thread does not get to read `_callingPendingFunctors`
    | .queued =>
      ((if c ≠ .loopThread ∨ s.callingPendingFunctors = true then s.wakeup else s).setCaller c .idle, [])
    | .quitting => ((if c ≠ .loopThread then s.wakeup else s).setCaller c .idle, [.quitReturned c])
  | ev => if s.callers .loopThread = .idle then s.proceed ev else (s, [])

def run : EventLoop Functor → List (LoopAction Functor) → EventLoop Functor × List (LoopObs Functor) :=
  Runs.runSpec step

/-- All that a step can do. -/
inductive Move (s : EventLoop Functor) : LoopAction Functor → EventLoop Functor → List (LoopObs Functor) → Prop
  | stay (ev) : Move s ev s []
  | publish (h : s.phase = .constructed) (hown : s.callers .loopThread = .idle) :
      Move s .publish { s with phase := .published } []
  | enter (h : s.phase = .published) (hown : s.callers .loopThread = .idle) :
      Move s .enter { s with phase := .entered } []
  | resetQuit (h : s.phase = .entered) : Move s .resetQuit { s with quit := false, phase := .testing } []
  | testQuit (h : s.phase = .testing) :
      Move s .testQuit { s with phase := if s.quit then .exited else .polling } []
  | pollReturn (wakeup) (h : s.phase = .polling) :
      Move s (.pollReturn wakeup) { s with phase := .handling (wakeup && 0 < s.wakeupFd) } []
  | handleRead (h : s.phase = .handling true) :
      Move s .handleRead { s with wakeupFd := 0, phase := .handling false } []
  | doPendingFunctors (h : s.phase = .handling false) (hown : s.callers .loopThread = .idle) :
      Move s .doPendingFunctors { s with callingPendingFunctors := true, phase := .swapping } []
  | swap (h : s.phase = .swapping) :
      Move s .swap { s with pendingFunctors := [], phase := .running false s.pendingFunctors } [.swapped]
  | call (calling cb functors) (h : s.phase = .running calling (cb :: functors)) :
      Move s .call { s with phase := .running true functors } [.started cb]
  | finish (calling) (h : s.phase = .running calling []) (hown : s.callers .loopThread = .idle) :
      Move s .finish { s with callingPendingFunctors := false, phase := .testing } []
  | queueInLoop (c cb) (hidle : s.callers c = .idle) (hmay : s.mayCall c = true) :
      Move s (.queueInLoop c cb)
        ({ s with pendingFunctors := s.pendingFunctors ++ [cb] }.setCaller c .queued) [.pushed cb]
  | quit (c) (hidle : s.callers c = .idle) (hmay : s.mayCall c = true) :
      Move s (.quit c) ({ s with quit := true }.setCaller c .quitting) []
  | queued (c) (h : s.callers c = .queued) : Move s (.decide c)
      ((if c ≠ .loopThread ∨ s.callingPendingFunctors = true then s.wakeup else s).setCaller c .idle) []
  | quitting (c) (h : s.callers c = .quitting) : Move s (.decide c)
      ((if c ≠ .loopThread then s.wakeup else s).setCaller c .idle) [.quitReturned c]

theorem proceed_move (s : EventLoop Functor) (ev : LoopAction Functor) (hown : s.callers .loopThread = .idle) :
    s.Move ev (s.proceed ev).1 (s.proceed ev).2 := by
  unfold proceed
  split
  case h_1 h => exact .publish h hown
  case h_2 h => exact .enter h hown
  case h_3 h => exact .resetQuit h
  case h_4 h => exact .testQuit h
  case h_5 wakeup h => exact .pollReturn wakeup h
  case h_6 h => exact .handleRead h
  case h_7 h => exact .doPendingFunctors h hown
  case h_8 h => exact .swap h
  case h_9 calling cb functors h => exact .call calling cb functors h
  case h_10 calling h => exact .finish calling h hown
  case h_11 => exact .stay _

theorem step_move (s : EventLoop Functor) (ev : LoopAction Functor) :
    s.Move ev (s.step ev).1 (s.step ev).2 := by
  unfold step
  split
  case h_1 c cb =>
    split
    case isTrue h => exact .queueInLoop c cb h.1 h.2
    case isFalse => exact .stay _
  case h_2 c =>
    split
    case isTrue h => exact .quit c h.1 h.2
    case isFalse => exact .stay _
  case h_3 c =>
    split
    case h_1 => exact .stay _
    case h_2 h => exact .queued c h
    case h_3 h => exact .quitting c h
  case h_4 =>
    split
    case isTrue h => exact s.proceed_move _ h
    case isFalse => exact .stay _

section
variable {s s' : EventLoop Functor} {ev : LoopAction Functor} {out : List (LoopObs Functor)}

@[simp] theorem setCaller_phase (c : Caller) (p : CallPhase) : (s.setCaller c p).phase = s.phase := rfl
@[simp] theorem setCaller_quit (c : Caller) (p : CallPhase) : (s.setCaller c p).quit = s.quit := rfl
@[simp] theorem setCaller_wakeupFd (c : Caller) (p : CallPhase) :
    (s.setCaller c p).wakeupFd = s.wakeupFd := rfl
@[simp] theorem wakeup_phase : s.wakeup.phase = s.phase := rfl
@[simp] theorem wakeup_quit : s.wakeup.quit = s.quit := rfl
@[simp] theorem wakeup_callers : s.wakeup.callers = s.callers := rfl

@[simp] theorem setCaller_self (c : Caller) (p : CallPhase) : (s.setCaller c p).callers c = p :=
  Function.update_self ..

theorem setCaller_of_ne {c d : Caller} (h : d ≠ c) (p : CallPhase) :
    (s.setCaller c p).callers d = s.callers d := Function.update_of_ne h ..

theorem wakeup_pos : 0 < s.wakeup.wakeupFd := by
  dsimp only [wakeup]
  split <;> omega

/-- The loop thread is inside `queueInLoop` or `quit` only when a callback has called it. -/
def OwnerInCallback (s : EventLoop Functor) : Prop :=
  s.phase.inCallback = false → s.callers .loopThread = .idle

theorem OwnerInCallback.move (h : s.OwnerInCallback) (m : s.Move ev s' out) : s'.OwnerInCallback := by
  have hother {c : Caller} {p : CallPhase} {t : EventLoop Functor} (ht : t.OwnerInCallback)
      (hc : c = .loopThread → t.phase.inCallback = true ∨ p = .idle) :
      (t.setCaller c p).OwnerInCallback := by
    intro hphase
    by_cases hloop : c = .loopThread
    · rcases hc hloop with hin | rfl
      · cases hphase.symm.trans hin
      · rw [hloop, setCaller_self]
    · rw [setCaller_of_ne (Ne.symm hloop)]
      exact ht hphase
  cases m with
  | stay ev => exact h
  | publish _ hown => exact fun _ => hown
  | enter _ hown => exact fun _ => hown
  | resetQuit hphase => exact fun _ => h (by rw [hphase]; rfl)
  | testQuit hphase => exact fun _ => h (by rw [hphase]; rfl)
  | pollReturn wakeup hphase => exact fun _ => h (by rw [hphase]; rfl)
  | handleRead hphase => exact fun hin => by cases hin
  | doPendingFunctors _ hown => exact fun _ => hown
  | swap hphase => exact fun _ => h (by rw [hphase]; rfl)
  | call calling cb functors hphase => exact fun hin => by cases hin
  | finish _ _ hown => exact fun _ => hown
  | queueInLoop c cb _ hmay =>
    apply hother h
    rintro rfl
    exact Or.inl hmay
  | quit c _ hmay =>
    apply hother h
    rintro rfl
    exact Or.inl hmay
  | queued c _ =>
    apply hother _ (fun _ => Or.inr rfl)
    split
    case isTrue => exact h
    case isFalse => exact h
  | quitting c _ =>
    apply hother _ (fun _ => Or.inr rfl)
    split
    case isTrue => exact h
    case isFalse => exact h

end

end EventLoop

namespace LoopPhase
variable {Functor : Type*}

/-- `doPendingFunctors` runs, or is about to take the pending functors. -/
def inRound : LoopPhase Functor → Bool
  | .swapping => true
  | .running _ _ => true
  | _ => false

def willSwap : LoopPhase Functor → Bool
  | .handling _ => true
  | .swapping => true
  | _ => false

end LoopPhase

namespace EventLoop
variable {Functor : Type*} {s s' : EventLoop Functor} {ev : LoopAction Functor} {out : List (LoopObs Functor)}

/-- Somebody will wake the loop up, or the counter keeps it awake. -/
def WakesUp (s : EventLoop Functor) : Prop := 0 < s.wakeupFd ∨ ∃ c, s.callers c = .queued

/-- The thread of the loop queues nothing before it calls `loop`: that would wake nobody up. -/
def QueuesFromLoop (s : EventLoop Functor) (ev : LoopAction Functor) : Prop :=
  ∀ cb, ev = .queueInLoop .loopThread cb → s.phase.hasReset = true

/-- Functors wait for nothing but the next swap. -/
structure Awake (s : EventLoop Functor) : Prop where
  owner : s.OwnerInCallback
  before : s.phase.hasReset = false → s.callers .loopThread ≠ .queued
  calling : s.callingPendingFunctors = s.phase.inRound
  woken : s.phase.willSwap = false → s.pendingFunctors ≠ [] → s.WakesUp

theorem awake_new : (new : EventLoop Functor).Awake :=
  ⟨fun _ => rfl, fun _ h => (by cases h), rfl, fun _ h => absurd rfl h⟩

/-- What stands in front of its wakeup before `loop` is called is not the thread of the loop. -/
theorem Awake.before_setCaller (h : s.Awake) {c : Caller} {p : CallPhase}
    (hp : s.phase.hasReset = false → c = .loopThread → p ≠ .queued) (hphase : s.phase.hasReset = false) :
    (s.setCaller c p).callers .loopThread ≠ .queued := by
  by_cases hc : c = .loopThread
  · rw [hc, setCaller_self]
    exact hp hphase hc
  · rw [setCaller_of_ne (Ne.symm hc)]
    exact h.before hphase

/-- A caller in front of its wakeup stays there while another one goes on. -/
theorem WakesUp.setCaller (h : s.WakesUp) {c : Caller} {p : CallPhase}
    (hc : s.callers c = .queued → p = .queued) : (s.setCaller c p).WakesUp := by
  rcases h with hpos | ⟨d,hd⟩
  · exact Or.inl hpos
  · apply Or.inr
    by_cases hdc : d = c
    · refine ⟨c, ?_⟩
      rw [setCaller_self]
      exact hc (hdc ▸ hd)
    · refine ⟨d, ?_⟩
      rw [setCaller_of_ne hdc]
      exact hd

/-- In front of its decision and outside a round, the loop thread is in a handler. -/
theorem Awake.in_handler (h : s.Awake) (hqueued : s.callers .loopThread = .queued)
    (hcalling : s.callingPendingFunctors = false) : s.phase.willSwap = true := by
  have hcallback : s.phase.inCallback = true := by
    by_contra hout
    cases (h.owner (Bool.not_eq_true _ ▸ hout)).symm.trans hqueued
  have hbefore := h.before
  rw [h.calling] at hcalling
  cases hphase : s.phase <;> rw [hphase] at hcallback hcalling hbefore
  case constructed => exact absurd hqueued (hbefore rfl)
  case published => exact absurd hqueued (hbefore rfl)
  case handling => rfl
  case running => cases hcalling
  all_goals cases hcallback

theorem Awake.move (h : s.Awake) (hev : s.QueuesFromLoop ev) (m : s.Move ev s' out) : s'.Awake := by
  have howner := h.owner.move m
  cases m with
  | stay ev => exact h
  | publish hphase =>
    refine ⟨howner, fun _ => h.before (by rw [hphase]; rfl), ?_, fun _ => h.woken (by rw [hphase]; rfl)⟩
    rw [h.calling, hphase]
    rfl
  | enter hphase =>
    refine ⟨howner, fun _ => h.before (by rw [hphase]; rfl), ?_, fun _ => h.woken (by rw [hphase]; rfl)⟩
    rw [h.calling, hphase]
    rfl
  | resetQuit hphase =>
    refine ⟨howner, fun hnew => (by cases hnew), ?_, fun _ => h.woken (by rw [hphase]; rfl)⟩
    rw [h.calling, hphase]
    rfl
  | testQuit hphase =>
    refine ⟨howner, ?_, ?_, fun _ => h.woken (by rw [hphase]; rfl)⟩
    · dsimp only
      split <;> exact fun hnew => by cases hnew
    · dsimp only
      rw [h.calling, hphase]
      split <;> rfl
  | pollReturn wakeup hphase =>
    refine ⟨howner, fun hnew => (by cases hnew), ?_, fun hin => (by cases hin)⟩
    rw [h.calling, hphase]
    rfl
  | handleRead hphase =>
    refine ⟨howner, fun hnew => (by cases hnew), ?_, fun hin => (by cases hin)⟩
    rw [h.calling, hphase]
    rfl
  | doPendingFunctors => exact ⟨howner, fun hnew => (by cases hnew), rfl, fun hin => (by cases hin)⟩
  | swap hphase =>
    refine ⟨howner, fun hnew => (by cases hnew), ?_, fun _ hpending => absurd rfl hpending⟩
    rw [h.calling, hphase]
    rfl
  | call calling cb functors hphase =>
    refine ⟨howner, fun hnew => (by cases hnew), ?_, fun _ => h.woken (by rw [hphase]; rfl)⟩
    rw [h.calling, hphase]
    rfl
  | finish calling hphase =>
    exact ⟨howner, fun hnew => (by cases hnew), rfl, fun _ => h.woken (by rw [hphase]; rfl)⟩
  | queueInLoop c cb =>
    refine ⟨howner, h.before_setCaller ?_, h.calling, fun _ _ => Or.inr ⟨c, setCaller_self ..⟩⟩
    rintro hbefore rfl
    cases (hev cb rfl).symm.trans hbefore
  | quit c hidle =>
    refine ⟨howner, h.before_setCaller (fun _ _ hp => (by cases hp)), h.calling, fun hin hpending => ?_⟩
    apply WakesUp.setCaller (h.woken hin hpending)
    intro hqueued
    cases hidle.symm.trans hqueued
  | queued c hqueued =>
    have hbefore := h.before_setCaller (c := c) (p := .idle) (fun _ _ hp => by cases hp)
    by_cases hwake : c ≠ .loopThread ∨ s.callingPendingFunctors = true
    · rw [if_pos hwake] at howner ⊢
      exact ⟨howner, hbefore, h.calling, fun _ _ => Or.inl wakeup_pos⟩
    · -- the loop thread will take the functor after the handler
      rw [if_neg hwake] at howner ⊢
      refine ⟨howner, hbefore, h.calling, fun hin _ => ?_⟩
      obtain ⟨hloop,hcalling⟩ := not_or.mp hwake
      rw [not_not.mp hloop] at hqueued
      have hswaps := h.in_handler hqueued (eq_false_of_ne_true hcalling)
      cases hin.symm.trans hswaps
  | quitting c hquitting =>
    have hbefore := h.before_setCaller (c := c) (p := .idle) (fun _ _ hp => by cases hp)
    by_cases hwake : c ≠ .loopThread
    · rw [if_pos hwake] at howner ⊢
      exact ⟨howner, hbefore, h.calling, fun _ _ => Or.inl wakeup_pos⟩
    · rw [if_neg hwake] at howner ⊢
      refine ⟨howner, hbefore, h.calling, fun hin hpending => ?_⟩
      apply WakesUp.setCaller (h.woken hin hpending)
      intro hqueued
      cases hquitting.symm.trans hqueued

end EventLoop

/-- Where the thread of the loop queues nothing before it calls `loop`, it never waits in `poll` with
functors that nobody will wake it up for. -/
theorem no_lost_wakeup {Functor : Type*} (evs : List (LoopAction Functor))
    (h : Runs.AlongSpec EventLoop.step EventLoop.QueuesFromLoop EventLoop.new evs) :
    ¬ ((EventLoop.new.run evs).1.phase = .polling ∧ (EventLoop.new.run evs).1.pendingFunctors ≠ [] ∧
      (EventLoop.new.run evs).1.wakeupFd = 0 ∧ ∀ c, (EventLoop.new.run evs).1.callers c ≠ .queued) := by
  have hawake : (EventLoop.new.run evs).1.Awake := by
    have hstep (s : EventLoop Functor) (acc : List (LoopObs Functor)) (ev : LoopAction Functor)
        (h : s.Awake) (hev : s.QueuesFromLoop ev) : (s.step ev).1.Awake := h.move hev (s.step_move ev)
    exact Runs.runSpec_invariant_along (fun (s : EventLoop Functor) _ => s.Awake) hstep EventLoop.awake_new h
  rintro ⟨hphase,hpending,hzero,hnobody⟩
  rcases hawake.woken (by rw [hphase]; rfl) hpending with hpos | ⟨c,hc⟩
  · omega
  · exact hnobody c hc

/-- A functor that another thread queues before `loop` is entered, and one that a handler queues. -/
theorem no_lost_wakeup_foreign : ∃ s : EventLoop ℕ, ∃ out, EventLoop.new.run [.publish,
      .queueInLoop (.foreign 0) 7, .enter, .resetQuit, .testQuit, .pollReturn false,
      .queueInLoop .loopThread 8, .decide .loopThread, .doPendingFunctors, .swap, .call, .call, .finish,
      .queueInLoop (.foreign 1) 9, .decide (.foreign 0), .testQuit] = (s, out) ∧
    s.phase = .polling ∧ s.pendingFunctors = [9] ∧ ¬ (s.wakeupFd = 0 ∧ ∀ c, s.callers c ≠ .queued) := by
  have hqueues : Runs.AlongSpec EventLoop.step EventLoop.QueuesFromLoop (EventLoop.new : EventLoop ℕ)
      [.publish, .queueInLoop (.foreign 0) 7, .enter, .resetQuit, .testQuit, .pollReturn false,
      .queueInLoop .loopThread 8, .decide .loopThread, .doPendingFunctors, .swap, .call, .call, .finish,
      .queueInLoop (.foreign 1) 9, .decide (.foreign 0), .testQuit] := by
    have hother {s : EventLoop ℕ} {ev : LoopAction ℕ} (hev : ∀ cb, ev ≠ .queueInLoop .loopThread cb) :
        s.QueuesFromLoop ev := fun cb heq => absurd heq (hev cb)
    have hhandler : ∀ cb, LoopAction.queueInLoop .loopThread 8 = .queueInLoop .loopThread cb →
        (LoopPhase.handling false : LoopPhase ℕ).hasReset = true := fun _ _ => rfl
    exact ⟨hother (fun _ h => by cases h), hother (fun _ h => by cases h), hother (fun _ h => by cases h),
      hother (fun _ h => by cases h), hother (fun _ h => by cases h), hother (fun _ h => by cases h), hhandler,
      hother (fun _ h => by cases h), hother (fun _ h => by cases h), hother (fun _ h => by cases h),
      hother (fun _ h => by cases h), hother (fun _ h => by cases h), hother (fun _ h => by cases h),
      hother (fun _ h => by cases h), hother (fun _ h => by cases h), hother (fun _ h => by cases h), trivial⟩
  refine ⟨_, _, rfl, rfl, rfl, ?_⟩
  rintro ⟨hzero,hnobody⟩
  exact no_lost_wakeup _ hqueues ⟨rfl, fun h => (by cases h), hzero, hnobody⟩

/-- The thread of the loop queues a functor and then calls `loop`. -/
theorem no_lost_wakeup_fails : ∃ s : EventLoop ℕ, ∃ out, EventLoop.new.run [.queueInLoop .loopThread 7,
      .decide .loopThread, .publish, .enter, .resetQuit, .testQuit] = (s, out) ∧
    s.phase = .polling ∧ s.pendingFunctors ≠ [] ∧ s.wakeupFd = 0 ∧ ∀ c, s.callers c ≠ .queued := by
  refine ⟨_, _, rfl, rfl, fun h => (by cases h), rfl, ?_⟩
  rintro (_ | n) hqueued
  · cases hqueued
  · cases hqueued

namespace LoopObs
variable {Functor : Type*}

def pushedOf : LoopObs Functor → Option Functor
  | .pushed cb => some cb
  | _ => none

def startedOf : LoopObs Functor → Option Functor
  | .started cb => some cb
  | _ => none

end LoopObs

/-- The functors that have been pushed, in the order of the mutex, and those that have been called. -/
def pushes {Functor : Type*} (out : List (LoopObs Functor)) : List Functor := out.filterMap LoopObs.pushedOf
def starts {Functor : Type*} (out : List (LoopObs Functor)) : List Functor := out.filterMap LoopObs.startedOf

namespace EventLoop
variable {Functor : Type*} {s s' : EventLoop Functor} {ev : LoopAction Functor}
  {acc out : List (LoopObs Functor)}

/-- What has been pushed has been called, or is in the batch of the round, or is pending; and the round
calls what was pushed before its swap. -/
structure InOrder (s : EventLoop Functor) (acc : List (LoopObs Functor)) : Prop where
  queue : pushes acc = starts acc ++ (s.phase.functors ++ s.pendingFunctors)
  round : ∀ pre post, acc = pre ++ .swapped :: post → .swapped ∉ post →
    starts acc ++ s.phase.functors = pushes pre

theorem inOrder_new : (new : EventLoop Functor).InOrder [] :=
  ⟨rfl, fun pre post h => by cases pre <;> cases h⟩

theorem pushes_append (out out' : List (LoopObs Functor)) : pushes (out ++ out') = pushes out ++ pushes out' :=
  List.filterMap_append

theorem starts_append (out out' : List (LoopObs Functor)) : starts (out ++ out') = starts out ++ starts out' :=
  List.filterMap_append

theorem pushes_concat {x : LoopObs Functor} (h : x.pushedOf = none) : pushes (acc ++ [x]) = pushes acc := by
  rw [pushes_append]
  simp only [pushes, List.filterMap_cons, h, List.filterMap_nil, List.append_nil]

theorem starts_concat {x : LoopObs Functor} (h : x.startedOf = none) : starts (acc ++ [x]) = starts acc := by
  rw [starts_append]
  simp only [starts, List.filterMap_cons, h, List.filterMap_nil, List.append_nil]

/-- The last swap of a list that something else is appended to. -/
theorem split_concat {x : LoopObs Functor} {pre post : List (LoopObs Functor)} (hx : x ≠ .swapped)
    (h : acc ++ [x] = pre ++ .swapped :: post) :
    ∃ rest, acc = pre ++ .swapped :: rest ∧ post = rest ++ [x] := by
  rcases List.eq_nil_or_concat post with rfl | ⟨rest,y,rfl⟩
  · exact absurd (List.append_inj_right' h rfl) (fun heq => hx (List.head_eq_of_cons_eq heq))
  · rw [List.concat_eq_append, ← List.cons_append, ← List.append_assoc] at h
    obtain ⟨hacc,hlast⟩ := List.append_inj' h rfl
    refine ⟨rest, hacc, ?_⟩
    rw [List.concat_eq_append, hlast]

/-- A step that appends nothing to the history. -/
theorem InOrder.silent (h : s.InOrder acc) (hfunctors : s'.phase.functors = s.phase.functors)
    (hpending : s'.pendingFunctors = s.pendingFunctors) : s'.InOrder (acc ++ []) := by
  rw [List.append_nil]
  refine ⟨?_, ?_⟩
  · rw [hfunctors, hpending]
    exact h.queue
  · rw [hfunctors]
    exact h.round

theorem InOrder.move (h : s.InOrder acc) (m : s.Move ev s' out) : s'.InOrder (acc ++ out) := by
  cases m with
  | stay ev => exact h.silent rfl rfl
  | publish hphase => exact h.silent (by rw [hphase]; rfl) rfl
  | enter hphase => exact h.silent (by rw [hphase]; rfl) rfl
  | resetQuit hphase => exact h.silent (by rw [hphase]; rfl) rfl
  | testQuit hphase =>
    refine h.silent ?_ rfl
    dsimp only
    rw [hphase]
    split <;> rfl
  | pollReturn wakeup hphase => exact h.silent (by rw [hphase]; rfl) rfl
  | handleRead hphase => exact h.silent (by rw [hphase]; rfl) rfl
  | doPendingFunctors hphase => exact h.silent (by rw [hphase]; rfl) rfl
  | finish calling hphase => exact h.silent (by rw [hphase]; rfl) rfl
  | quit c => exact h.silent rfl rfl
  | queued c =>
    apply h.silent
    · rw [setCaller_phase]
      split <;> rfl
    · dsimp only [setCaller]
      split <;> rfl
  | swap hphase =>
    have hqueue := h.queue
    rw [hphase] at hqueue
    refine ⟨?_, ?_⟩
    · rw [pushes_concat rfl, starts_concat rfl, hqueue]
      show starts acc ++ ([] ++ s.pendingFunctors) = starts acc ++ (s.pendingFunctors ++ [])
      rw [List.nil_append, List.append_nil]
    · -- everything before this swap is in the new batch
      intro pre post hacc hpost
      rcases List.eq_nil_or_concat post with rfl | ⟨rest,y,rfl⟩
      · rw [← List.append_inj_left' hacc rfl, starts_concat rfl, hqueue]
        rfl
      · rw [List.concat_eq_append, ← List.cons_append, ← List.append_assoc] at hacc
        have hlast := List.append_inj_right' hacc rfl
        rw [List.concat_eq_append, ← hlast] at hpost
        exact absurd (List.mem_append_right rest List.mem_cons_self) hpost
  | call calling cb functors hphase =>
    have hqueue := h.queue
    have hround := h.round
    rw [hphase] at hqueue hround
    have hstarts : starts (acc ++ [.started cb]) = starts acc ++ [cb] := starts_append ..
    refine ⟨?_, ?_⟩
    · rw [pushes_concat rfl, hstarts, hqueue, List.append_assoc]
      rfl
    · intro pre post hacc hpost
      obtain ⟨rest,hsplit,rfl⟩ := split_concat (fun heq => by cases heq) hacc
      rw [hstarts, ← hround pre rest hsplit (fun hmem => hpost (List.mem_append_left _ hmem)),
        List.append_assoc]
      rfl
  | queueInLoop c cb =>
    have hpushes : pushes (acc ++ [.pushed cb]) = pushes acc ++ [cb] := pushes_append ..
    refine ⟨?_, ?_⟩
    · rw [hpushes, starts_concat rfl, h.queue, List.append_assoc, List.append_assoc]
      rfl
    · intro pre post hacc hpost
      obtain ⟨rest,hsplit,rfl⟩ := split_concat (fun heq => by cases heq) hacc
      rw [starts_concat rfl]
      exact h.round pre rest hsplit (fun hmem => hpost (List.mem_append_left _ hmem))
  | quitting c =>
    have hsame : (if c ≠ .loopThread then s.wakeup else s).phase = s.phase ∧
        (if c ≠ .loopThread then s.wakeup else s).pendingFunctors = s.pendingFunctors := by
      split <;> exact ⟨rfl, rfl⟩
    refine ⟨?_, ?_⟩
    · rw [pushes_concat rfl, starts_concat rfl, h.queue, setCaller_phase, hsame.1]
      exact congrArg (fun p => starts acc ++ (s.phase.functors ++ p)) hsame.2.symm
    · intro pre post hacc hpost
      obtain ⟨rest,hsplit,rfl⟩ := split_concat (fun heq => by cases heq) hacc
      rw [starts_concat rfl, setCaller_phase, hsame.1]
      exact h.round pre rest hsplit (fun hmem => hpost (List.mem_append_left _ hmem))

end EventLoop

namespace EventLoop
variable {Functor : Type*} {s s' : EventLoop Functor} {ev : LoopAction Functor}
  {acc out : List (LoopObs Functor)}

/-- The functor of a call of `queueInLoop` that is made: by a thread that is not inside another call, and
that can call. -/
def queuedBy (s : EventLoop Functor) : LoopAction Functor → List Functor
  | .queueInLoop c cb => if s.callers c = .idle ∧ s.mayCall c = true then [cb] else []
  | _ => []

/-- The functors of all calls of a run. -/
def queued : EventLoop Functor → List (LoopAction Functor) → List Functor
  | _, [] => []
  | s, ev :: evs => s.queuedBy ev ++ queued (s.step ev).1 evs

/-- Each call pushes its functor, and nothing else is pushed. -/
theorem pushes_step (s : EventLoop Functor) (ev : LoopAction Functor) : pushes (s.step ev).2 = s.queuedBy ev := by
  have hproceed (ev : LoopAction Functor) : pushes (s.proceed ev).2 = [] := by
    unfold proceed
    split <;> rfl
  have hown (ev : LoopAction Functor) :
      pushes (if s.callers .loopThread = .idle then s.proceed ev else (s, [])).2 = [] := by
    split
    · exact hproceed ev
    · rfl
  cases ev with
  | queueInLoop c cb =>
    rw [step, queuedBy]
    split <;> rfl
  | quit c =>
    rw [step]
    split <;> rfl
  | decide c =>
    rw [step]
    split <;> rfl
  | publish => exact hown _
  | enter => exact hown _
  | resetQuit => exact hown _
  | testQuit => exact hown _
  | pollReturn wakeup => exact hown _
  | handleRead => exact hown _
  | doPendingFunctors => exact hown _
  | swap => exact hown _
  | call => exact hown _
  | finish => exact hown _

theorem pushes_run (s : EventLoop Functor) (evs : List (LoopAction Functor)) :
    pushes (s.run evs).2 = s.queued evs := by
  induction evs generalizing s with
  | nil => rfl
  | cons ev evs ih =>
    rw [run, Runs.runSpec, pushes_append, pushes_step]
    exact congrArg (fun l => s.queuedBy ev ++ l) (ih _)

theorem inOrder_run (evs : List (LoopAction Functor)) : (new.run evs).1.InOrder (new.run evs).2 := by
  have hstep (s : EventLoop Functor) (acc : List (LoopObs Functor)) (ev : LoopAction Functor)
      (h : s.InOrder acc) : (s.step ev).1.InOrder (acc ++ (s.step ev).2) := h.move (s.step_move ev)
  exact Runs.runSpec_invariant InOrder hstep inOrder_new evs

theorem owner_run (evs : List (LoopAction Functor)) : (new.run evs).1.OwnerInCallback := by
  have hstep (s : EventLoop Functor) (acc : List (LoopObs Functor)) (ev : LoopAction Functor)
      (h : s.OwnerInCallback) : (s.step ev).1.OwnerInCallback := h.move (s.step_move ev)
  exact Runs.runSpec_invariant (fun (s : EventLoop Functor) _ => s.OwnerInCallback) hstep (fun _ => rfl) evs

/-- How far the loop is from having called all that is queued, when nothing more is. -/
def distance (s : EventLoop Functor) : ℕ :=
  match s.phase with
  | .running _ functors => functors.length+(if s.pendingFunctors = [] then 0 else s.pendingFunctors.length+7)
  | .testing => s.pendingFunctors.length+5
  | .polling => s.pendingFunctors.length+4
  | .handling true => s.pendingFunctors.length+3
  | .handling false => s.pendingFunctors.length+2
  | .swapping => s.pendingFunctors.length+1
  | .entered => s.pendingFunctors.length+6
  | .published => s.pendingFunctors.length+7
  | .constructed => s.pendingFunctors.length+8
  | .exited => 0

/-- The loop will go on, and its thread is not inside a call. -/
structure GoesOn (s : EventLoop Functor) : Prop where
  notExited : s.phase ≠ .exited
  notQuit : s.phase.inWhile = true → s.quit = false
  idle : s.callers .loopThread = .idle

end EventLoop

/-- The loop thread goes on without calling `queueInLoop` or `quit`. -/
def LoopAction.ofLoop {Functor : Type*} : LoopAction Functor → Bool
  | .queueInLoop _ _ | .quit _ | .decide _ => false
  | _ => true

namespace EventLoop
variable {Functor : Type*} {s s' : EventLoop Functor} {ev : LoopAction Functor}
  {acc out : List (LoopObs Functor)}

theorem step_ofLoop (hown : s.callers .loopThread = .idle) (hev : ev.ofLoop = true) :
    s.step ev = s.proceed ev := by
  cases ev with
  | queueInLoop => cases hev
  | quit => cases hev
  | decide => cases hev
  | publish => exact if_pos hown
  | enter => exact if_pos hown
  | resetQuit => exact if_pos hown
  | testQuit => exact if_pos hown
  | pollReturn => exact if_pos hown
  | handleRead => exact if_pos hown
  | doPendingFunctors => exact if_pos hown
  | swap => exact if_pos hown
  | call => exact if_pos hown
  | finish => exact if_pos hown

/-- As long as something is queued, the next step of the loop thread leads nearer to its call. -/
theorem GoesOn.nearer (h : s.GoesOn) (hleft : ¬ (s.phase.functors = [] ∧ s.pendingFunctors = [])) :
    ∃ ev : LoopAction Functor, ev.ofLoop = true ∧ (s.step ev).1.GoesOn ∧ (s.step ev).1.distance < s.distance := by
  obtain ⟨hexited,hquit,hidle⟩ := h
  have hstep (ev : LoopAction Functor) {r : EventLoop Functor × List (LoopObs Functor)}
      (hev : ev.ofLoop = true) (hr : s.proceed ev = r) (hgoes : r.1.GoesOn) (hlt : r.1.distance < s.distance) :
      ∃ ev : LoopAction Functor, ev.ofLoop = true ∧ (s.step ev).1.GoesOn ∧
        (s.step ev).1.distance < s.distance := by
    refine ⟨ev, hev, ?_, ?_⟩
    · rw [step_ofLoop hidle hev, hr]
      exact hgoes
    · rw [step_ofLoop hidle hev, hr]
      exact hlt
  have hgoes {t : EventLoop Functor} (hphase : t.phase ≠ .exited) (hcallers : t.callers = s.callers)
      (hq : t.phase.inWhile = true → t.quit = false) : t.GoesOn := ⟨hphase, hq, hcallers ▸ hidle⟩
  cases hphase : s.phase with
  | exited => exact absurd hphase hexited
  | constructed =>
    refine hstep .publish rfl (by unfold proceed; rw [hphase])
      (hgoes (fun h => by cases h) rfl (fun h => by cases h)) ?_
    simp only [distance, hphase]
    omega
  | published =>
    refine hstep .enter rfl (by unfold proceed; rw [hphase])
      (hgoes (fun h => by cases h) rfl (fun h => by cases h)) ?_
    simp only [distance, hphase]
    omega
  | entered =>
    refine hstep .resetQuit rfl (by unfold proceed; rw [hphase])
      (hgoes (fun h => by cases h) rfl (fun _ => rfl)) ?_
    simp only [distance, hphase]
    omega
  | testing =>
    have hq : s.quit = false := hquit (by rw [hphase]; rfl)
    have hproceed : s.proceed .testQuit = ({ s with phase := .polling }, []) := by
      unfold proceed
      rw [hphase]
      exact congrArg (fun b : Bool => ({ s with phase := if b then .exited else .polling }, [])) hq
    refine hstep .testQuit rfl hproceed (hgoes (fun h => by cases h) rfl (fun _ => hq)) ?_
    simp only [distance, hphase]
    omega
  | polling =>
    have hq : s.quit = false := hquit (by rw [hphase]; rfl)
    refine hstep (.pollReturn true) rfl (by unfold proceed; rw [hphase])
      (hgoes (fun h => by cases h) rfl (fun _ => hq)) ?_
    simp only [distance, hphase]
    split <;> simp_all
  | handling wakeup =>
    have hq : s.quit = false := hquit (by rw [hphase]; rfl)
    cases wakeup with
    | true =>
      refine hstep .handleRead rfl (by unfold proceed; rw [hphase])
        (hgoes (fun h => by cases h) rfl (fun _ => hq)) ?_
      simp only [distance, hphase]
      omega
    | false =>
      refine hstep .doPendingFunctors rfl (by unfold proceed; rw [hphase])
        (hgoes (fun h => by cases h) rfl (fun _ => hq)) ?_
      simp only [distance, hphase]
      omega
  | swapping =>
    have hq : s.quit = false := hquit (by rw [hphase]; rfl)
    refine hstep .swap rfl (by unfold proceed; rw [hphase])
      (hgoes (fun h => by cases h) rfl (fun _ => hq)) ?_
    simp only [distance, hphase]
    simp
  | running calling functors =>
    have hq : s.quit = false := hquit (by rw [hphase]; rfl)
    cases functors with
    | cons cb functors =>
      refine hstep .call rfl (by unfold proceed; rw [hphase])
        (hgoes (fun h => by cases h) rfl (fun _ => hq)) ?_
      simp only [distance, hphase, List.length_cons]
      omega
    | nil =>
      have hpending : s.pendingFunctors ≠ [] := fun hnil => hleft ⟨by rw [hphase]; rfl, hnil⟩
      refine hstep .finish rfl (by unfold proceed; rw [hphase])
        (hgoes (fun h => by cases h) rfl (fun _ => hq)) ?_
      simp only [distance, hphase, if_neg hpending]
      simp

/-- The loop thread alone can call all that is queued. -/
theorem GoesOn.drains (h : s.GoesOn) : ∃ rest : List (LoopAction Functor), (∀ ev ∈ rest, ev.ofLoop = true) ∧
    (s.run rest).1.phase.functors = [] ∧ (s.run rest).1.pendingFunctors = [] :=
  Runs.exists_run_to GoesOn (fun s => s.phase.functors = [] ∧ s.pendingFunctors = [])
    (fun _ h hleft => h.nearer hleft) h

theorem queued_ofLoop {evs : List (LoopAction Functor)} (h : ∀ ev ∈ evs, ev.ofLoop = true) :
    s.queued evs = [] := by
  induction evs generalizing s with
  | nil => rfl
  | cons ev evs ih =>
    obtain ⟨hev,hevs⟩ := List.forall_mem_cons.mp h
    have hnone : s.queuedBy ev = [] := by
      cases ev with
      | queueInLoop => cases hev
      | _ => rfl
    rw [queued, hnone, ih hevs, List.append_nil]

end EventLoop

/-- At every moment the functors that have been called are the first ones of those that were queued, in
that order and each once, and the others are in the batch of the round or pending. A round calls what was
queued before its swap, all of it before it ends. Unless the loop has been told to quit, its thread can
call all that is queued; and the loop thread queues from code of its user, another one when it knows the loop. -/
theorem functors_in_order {Functor : Type*} (evs : List (LoopAction Functor)) :
    pushes (EventLoop.new.run evs).2 = EventLoop.new.queued evs ∧
    pushes (EventLoop.new.run evs).2 = starts (EventLoop.new.run evs).2 ++
      ((EventLoop.new.run evs).1.phase.functors ++ (EventLoop.new.run evs).1.pendingFunctors) ∧
    starts (EventLoop.new.run evs).2 <+: pushes (EventLoop.new.run evs).2 ∧
    (∀ pre post, (EventLoop.new.run evs).2 = pre ++ .swapped :: post → .swapped ∉ post →
      starts (EventLoop.new.run evs).2 <+: pushes pre) ∧
    (∀ pre post, evs = pre ++ .swap :: post → (EventLoop.new.run pre).1.phase = .swapping →
      .swapped ∉ ((EventLoop.new.run (pre ++ [.swap])).1.run post).2 →
      starts (EventLoop.new.run evs).2 ++ (EventLoop.new.run evs).1.phase.functors = EventLoop.new.queued pre) ∧
    ((EventLoop.new.run evs).1.phase ≠ .exited →
      ((EventLoop.new.run evs).1.phase.inWhile = true → (EventLoop.new.run evs).1.quit = false) →
      (EventLoop.new.run evs).1.callers .loopThread = .idle → ∃ rest, (∀ ev ∈ rest, ev.ofLoop = true) ∧
        starts (EventLoop.new.run (evs ++ rest)).2 = EventLoop.new.queued evs) ∧
    ∀ c cb, (EventLoop.new.run evs).1.callers c = .idle →
      (c = .loopThread ∧ (EventLoop.new.run evs).1.phase.inCallback = true ∨
        c ≠ .loopThread ∧ (EventLoop.new.run evs).1.phase ≠ .constructed) →
      (EventLoop.new.run evs).1.queued [.queueInLoop c cb] = [cb] := by
  have horder := EventLoop.inOrder_run evs
  refine ⟨EventLoop.pushes_run _ evs, horder.queue, ⟨_, horder.queue.symm⟩, ?_, ?_, ?_, ?_⟩
  · intro pre post hsplit hpost
    exact ⟨_, horder.round pre post hsplit hpost⟩
  · rintro pre post rfl hphase hpost
    have hidle := EventLoop.owner_run pre (by rw [hphase]; rfl)
    have hswap : ((EventLoop.new.run pre).1.step .swap).2 = [.swapped] := by
      rw [EventLoop.step_ofLoop hidle rfl]
      unfold EventLoop.proceed
      rw [hphase]
    have hrun := Runs.runSpec_append EventLoop.step EventLoop.new pre (.swap :: post)
    have hlast := Runs.runSpec_append EventLoop.step EventLoop.new pre [.swap]
    have hout : (EventLoop.new.run (pre ++ .swap :: post)).2 = (EventLoop.new.run pre).2 ++
        .swapped :: ((EventLoop.new.run (pre ++ [.swap])).1.run post).2 := by
      rw [EventLoop.run, hrun]
      dsimp only [EventLoop.run]
      rw [hlast, Runs.runSpec]
      dsimp only
      rw [show Runs.runSpec EventLoop.step EventLoop.new pre = EventLoop.new.run pre from rfl, hswap]
      rfl
    rw [← EventLoop.pushes_run]
    exact horder.round _ _ hout hpost
  · intro hexited hquit hidle
    have hgoes : (EventLoop.new.run evs).1.GoesOn := ⟨hexited, hquit, hidle⟩
    obtain ⟨rest,hrest,hfunctors,hpending⟩ := hgoes.drains
    refine ⟨rest, hrest, ?_⟩
    have hrun : EventLoop.new.run (evs ++ rest) = (((EventLoop.new.run evs).1.run rest).1,
        (EventLoop.new.run evs).2 ++ ((EventLoop.new.run evs).1.run rest).2) :=
      Runs.runSpec_append EventLoop.step EventLoop.new evs rest
    have hqueue := (EventLoop.inOrder_run (evs ++ rest)).queue
    rw [hrun] at hqueue ⊢
    dsimp only at hqueue ⊢
    rw [hfunctors, hpending, List.append_nil, List.append_nil] at hqueue
    rw [← hqueue, EventLoop.pushes_append, EventLoop.pushes_run, EventLoop.pushes_run, EventLoop.queued_ofLoop hrest,
      List.append_nil]
  · intro c cb hidle hcan
    have hmay : (EventLoop.new.run evs).1.mayCall c = true := by
      rcases hcan with ⟨rfl,hcallback⟩ | ⟨hc,hphase⟩
      · exact hcallback
      · cases c with
        | loopThread => exact absurd rfl hc
        | foreign n =>
          dsimp only [EventLoop.mayCall]
          split
          case h_1 hconstructed => exact absurd hconstructed hphase
          case h_2 => rfl
    rw [EventLoop.queued, EventLoop.queued, EventLoop.queuedBy, if_pos ⟨hidle, hmay⟩, List.append_nil]

namespace EventLoop
variable {Functor : Type*} {s s' : EventLoop Functor} {ev : LoopAction Functor}
  {acc out : List (LoopObs Functor)}

/-- A call of `quit` sets `_quit` after `loop` has set it to `false`. -/
def QuitsAfterReset (s : EventLoop Functor) (ev : LoopAction Functor) : Prop :=
  ∀ c, ev = .quit c → s.phase.hasReset = true

/-- A call of `quit` has returned, or has set `_quit`. -/
def HasQuit (s : EventLoop Functor) (acc : List (LoopObs Functor)) : Prop :=
  (∃ c, .quitReturned c ∈ acc) ∨ ∃ c, s.callers c = .quitting

structure Quits (s : EventLoop Functor) (acc : List (LoopObs Functor)) : Prop where
  owner : s.OwnerInCallback
  set : s.HasQuit acc → s.phase.hasReset = true ∧ s.quit = true
  awake : (∃ c, .quitReturned c ∈ acc) → s.phase = .polling → 0 < s.wakeupFd

theorem quits_new : (new : EventLoop Functor).Quits [] := by
  refine ⟨fun _ => rfl, ?_, ?_⟩
  · rintro (⟨c,hc⟩ | ⟨c,hc⟩)
    · cases hc
    · cases hc
  · rintro ⟨c,hc⟩
    cases hc

/-- What has returned before a step that reports no return. -/
theorem returned_append (h : ∃ c, LoopObs.quitReturned c ∈ acc ++ out) (hout : ∀ c, .quitReturned c ∉ out) :
    ∃ c, .quitReturned c ∈ acc := by
  obtain ⟨c,hc⟩ := h
  rcases List.mem_append.mp hc with hc | hc
  · exact ⟨c, hc⟩
  · exact absurd hc (hout c)

theorem HasQuit.setCaller {c : Caller} {p : CallPhase} (h : (s.setCaller c p).HasQuit acc)
    (hp : p ≠ .quitting) : s.HasQuit acc := by
  rcases h with hreturned | ⟨d,hd⟩
  · exact Or.inl hreturned
  · apply Or.inr
    by_cases hdc : d = c
    · rw [hdc, setCaller_self] at hd
      exact absurd hd hp
    · rw [setCaller_of_ne hdc] at hd
      exact ⟨d, hd⟩

/-- A step of the loop thread between the reset and the next test of `_quit`. -/
theorem Quits.keep (h : s.Quits acc) (howner : s'.OwnerInCallback) (hcallers : s'.callers = s.callers)
    (hquit : s'.quit = s.quit) (hreset : s.phase.hasReset = true → s'.phase.hasReset = true)
    (hpolling : s'.phase = .polling → s.phase = .polling ∧ s'.wakeupFd = s.wakeupFd)
    (hout : ∀ c, LoopObs.quitReturned c ∉ out) : s'.Quits (acc ++ out) := by
  refine ⟨howner, ?_, ?_⟩
  · intro hhas
    have hold : s.HasQuit acc := by
      rcases hhas with hreturned | hcaller
      · exact Or.inl (returned_append hreturned hout)
      · rw [hcallers] at hcaller
        exact Or.inr hcaller
    obtain ⟨hphase,hset⟩ := h.set hold
    exact ⟨hreset hphase, hquit.trans hset⟩
  · intro hreturned hphase
    obtain ⟨hold,hfd⟩ := hpolling hphase
    rw [hfd]
    exact h.awake (returned_append hreturned hout) hold

theorem Quits.move (h : s.Quits acc) (hev : s.QuitsAfterReset ev) (m : s.Move ev s' out) :
    s'.Quits (acc ++ out) := by
  have howner := h.owner.move m
  have hnil (c : Caller) : LoopObs.quitReturned c ∉ ([] : List (LoopObs Functor)) := List.not_mem_nil
  cases m with
  | stay ev => exact h.keep howner rfl rfl id (fun hphase => ⟨hphase, rfl⟩) hnil
  | publish hphase =>
    exact h.keep howner rfl rfl (fun hr => by rw [hphase] at hr; cases hr) (fun hp => by cases hp) hnil
  | enter hphase =>
    exact h.keep howner rfl rfl (fun hr => by rw [hphase] at hr; cases hr) (fun hp => by cases hp) hnil
  | resetQuit hphase =>
    -- nobody has called `quit` yet, and so nothing is lost
    rw [List.append_nil]
    refine ⟨howner, ?_, ?_⟩
    · intro hhas
      have hreset := (h.set hhas).1
      rw [hphase] at hreset
      cases hreset
    · intro _ hpolling
      cases hpolling
  | testQuit hphase =>
    rw [List.append_nil]
    refine ⟨howner, ?_, ?_⟩
    · intro hhas
      refine ⟨?_, (h.set hhas).2⟩
      dsimp only
      split <;> rfl
    · -- the loop waits again only when `_quit` is false
      intro hreturned hpolling
      replace hpolling : (if s.quit then LoopPhase.exited else LoopPhase.polling) =
        (LoopPhase.polling : LoopPhase Functor) := hpolling
      rw [if_pos (h.set (Or.inl hreturned)).2] at hpolling
      cases hpolling
  | pollReturn wakeup hphase =>
    exact h.keep howner rfl rfl (fun _ => rfl) (fun hp => by cases hp) hnil
  | handleRead hphase => exact h.keep howner rfl rfl (fun _ => rfl) (fun hp => by cases hp) hnil
  | doPendingFunctors => exact h.keep howner rfl rfl (fun _ => rfl) (fun hp => by cases hp) hnil
  | swap hphase =>
    exact h.keep howner rfl rfl (fun _ => rfl) (fun hp => by cases hp) (fun c hc => by simp at hc)
  | call calling cb functors hphase =>
    exact h.keep howner rfl rfl (fun _ => rfl) (fun hp => by cases hp) (fun c hc => by simp at hc)
  | finish calling hphase => exact h.keep howner rfl rfl (fun _ => rfl) (fun hp => by cases hp) hnil
  | queueInLoop c cb =>
    have hout (d : Caller) : LoopObs.quitReturned d ∉ [LoopObs.pushed cb] := fun hd => by simp at hd
    refine ⟨howner, ?_, ?_⟩
    · intro hhas
      rcases hhas.setCaller (fun hp => by cases hp) with hreturned | hcaller
      · exact h.set (Or.inl (returned_append hreturned hout))
      · exact h.set (Or.inr hcaller)
    · exact fun hreturned => h.awake (returned_append hreturned hout)
  | quit c =>
    rw [List.append_nil]
    exact ⟨howner, fun _ => ⟨hev c rfl, rfl⟩, h.awake⟩
  | queued c =>
    rw [List.append_nil]
    have hsame : (if c ≠ .loopThread ∨ s.callingPendingFunctors = true then s.wakeup else s) = s ∨
        (if c ≠ .loopThread ∨ s.callingPendingFunctors = true then s.wakeup else s) = s.wakeup := by
      split
      · exact Or.inr rfl
      · exact Or.inl rfl
    rcases hsame with hsame | hsame <;> rw [hsame] at howner ⊢
    · exact ⟨howner, fun hhas => h.set (hhas.setCaller (fun hp => by cases hp)), h.awake⟩
    · exact ⟨howner, fun hhas => h.set (hhas.setCaller (fun hp => by cases hp)), fun _ _ => wakeup_pos⟩
  | quitting c hquitting =>
    have hset := h.set (Or.inr ⟨c, hquitting⟩)
    by_cases hwake : c ≠ .loopThread
    · rw [if_pos hwake] at howner ⊢
      exact ⟨howner, fun _ => hset, fun _ _ => wakeup_pos⟩
    · -- the loop thread is in a callback, and not in `poll`
      rw [if_neg hwake] at howner ⊢
      refine ⟨howner, fun _ => hset, ?_⟩
      intro _ hpolling
      rw [setCaller_phase] at hpolling
      have hidle := h.owner (by rw [hpolling]; rfl)
      rw [not_not.mp hwake, hidle] at hquitting
      cases hquitting

end EventLoop

/-- Where every call of `quit` sets `_quit` after `loop` has reset it, the loop does not go on once one
has returned: `_quit` is set in the `while`, and `poll` does not wait. -/
theorem quit_is_kept {Functor : Type*} (evs : List (LoopAction Functor))
    (h : Runs.AlongSpec EventLoop.step EventLoop.QuitsAfterReset EventLoop.new evs) (c : Caller)
    (hc : .quitReturned c ∈ (EventLoop.new.run evs).2) :
    ((EventLoop.new.run evs).1.phase.inWhile = true → (EventLoop.new.run evs).1.quit = true) ∧
    ((EventLoop.new.run evs).1.phase = .polling → 0 < (EventLoop.new.run evs).1.wakeupFd) := by
  have hquits : (EventLoop.new.run evs).1.Quits (EventLoop.new.run evs).2 := by
    have hstep (s : EventLoop Functor) (acc : List (LoopObs Functor)) (ev : LoopAction Functor)
        (h : s.Quits acc) (hev : s.QuitsAfterReset ev) : (s.step ev).1.Quits (acc ++ (s.step ev).2) :=
      h.move hev (s.step_move ev)
    exact Runs.runSpec_invariant_along EventLoop.Quits hstep EventLoop.quits_new h
  exact ⟨fun _ => (hquits.set (Or.inl ⟨c, hc⟩)).2, hquits.awake ⟨c, hc⟩⟩

/-- A call that finds the loop in `poll`. -/
theorem quit_is_kept_polling : ∃ s : EventLoop ℕ, ∃ out, EventLoop.new.run [.publish, .enter, .resetQuit,
      .testQuit, .quit (.foreign 0), .decide (.foreign 0)] = (s, out) ∧ .quitReturned (.foreign 0) ∈ out ∧
    s.phase = .polling ∧ s.quit = true ∧ 0 < s.wakeupFd := by
  have hafter : Runs.AlongSpec EventLoop.step EventLoop.QuitsAfterReset (EventLoop.new : EventLoop ℕ)
      [.publish, .enter, .resetQuit, .testQuit, .quit (.foreign 0), .decide (.foreign 0)] :=
    ⟨fun c h => (by cases h), fun c h => (by cases h), fun c h => (by cases h), fun c h => (by cases h),
      fun _ _ => rfl, fun c h => (by cases h), trivial⟩
  obtain ⟨hquit,hawake⟩ := quit_is_kept _ hafter (.foreign 0) List.mem_cons_self
  exact ⟨_, _, rfl, List.mem_cons_self, rfl, hquit rfl, hawake rfl⟩

/-- The call comes between the publication of the loop and the reset: it returns, its wakeup is read, and
the loop waits again. -/
theorem quit_is_lost : ∃ evs : List (LoopAction ℕ),
    .quitReturned (.foreign 0) ∈ (EventLoop.new.run evs).2 ∧ (EventLoop.new.run evs).1.phase = .polling ∧
    (EventLoop.new.run evs).1.quit = false ∧ (EventLoop.new.run evs).1.wakeupFd = 0 :=
  ⟨[.publish, .quit (.foreign 0), .decide (.foreign 0), .enter, .resetQuit, .testQuit, .pollReturn true,
    .handleRead, .doPendingFunctors, .swap, .finish, .testQuit], List.mem_cons_self, rfl, rfl, rfl⟩

end IdealServer
