import IdealServer.Basics
import IdealServer.Runs
import IdealServer.OrderedSet
import Mathlib.Data.Prod.Lex
import Mathlib.Logic.Function.Basic

/-! The `TimerQueue` of a loop. A step is one iteration of a loop of the source, so that callbacks can
add and cancel timers while a batch is running. -/
namespace IdealServer

/-- Microseconds since the epoch. -/
abbrev Timestamp := ℤ

def Timestamp.valid (t : Timestamp) : Bool := 0 < t

/-- The result of a sum or a difference of `int64_t`. One that does not fit is undefined in C++; here it
wraps around. -/
def int64 (n : ℤ) : ℤ := n.bmod (2^64)

def FitsInt64 (n : ℤ) : Prop := -2^63 ≤ n ∧ n < 2^63

theorem int64_eq {n : ℤ} (h : FitsInt64 n) : int64 n = n :=
  Int.bmod_eq_of_le (by have := h.1; omega) (by have := h.2; omega)

/-- The seconds are given as microseconds. -/
def addTime (t : Timestamp) (delta : ℕ) : Timestamp := int64 (t+delta)

structure Timer where
  expiration : Timestamp
  /-- `_interval`, in microseconds, where `_repeat` is set. -/
  interval : Option ℕ
  sequence : ℕ
deriving DecidableEq, Repr

namespace Timer

def isRepeat (timer : Timer) : Bool := timer.interval.isSome

def restart (timer : Timer) (now : Timestamp) : Timer :=
  match timer.interval with
  | some interval => { timer with expiration := addTime now interval }
  | none => { timer with expiration := 0 }

end Timer

/-- An address. -/
abbrev TimerPtr := Fin (2^64)

def UINTPTR_MAX : TimerPtr := Fin.last (2^64-1)

structure Entry where
  time : Timestamp
  timer : TimerPtr

structure ActiveTimer where
  timer : TimerPtr
  sequence : ℕ

abbrev TimerId := ActiveTimer

theorem Entry.toLex_injective : Function.Injective (fun e : Entry => toLex (e.time, e.timer)) := by
  rintro ⟨t,p⟩ ⟨u,q⟩ h
  obtain ⟨rfl,rfl⟩ := Prod.mk.inj (toLex_inj.mp h)
  rfl

theorem ActiveTimer.toLex_injective :
    Function.Injective (fun a : ActiveTimer => toLex (a.timer, a.sequence)) := by
  rintro ⟨p,n⟩ ⟨q,m⟩ h
  obtain ⟨rfl,rfl⟩ := Prod.mk.inj (toLex_inj.mp h)
  rfl

/-- The order of `std::pair`. -/
instance : LinearOrder Entry := LinearOrder.lift' _ Entry.toLex_injective
instance : LinearOrder ActiveTimer := LinearOrder.lift' _ ActiveTimer.toLex_injective

theorem Entry.le_iff {e f : Entry} : e ≤ f ↔ e.time < f.time ∨ e.time = f.time ∧ e.timer ≤ f.timer :=
  Prod.Lex.toLex_le_toLex

/-- The sentry comes after all entries of its time, whatever their addresses are. -/
theorem Entry.le_sentry {e : Entry} {now : Timestamp} : e ≤ ⟨now, UINTPTR_MAX⟩ ↔ e.time ≤ now := by
  rw [Entry.le_iff]
  constructor
  · rintro (h | ⟨h,_⟩)
    · exact le_of_lt h
    · exact le_of_eq h
  · intro h
    rcases lt_or_eq_of_le h with h | h
    · exact Or.inl h
    · exact Or.inr ⟨h, Fin.le_last e.timer⟩

theorem Entry.sentry_lt {e : Entry} {now : Timestamp} : ⟨now, UINTPTR_MAX⟩ < e ↔ now < e.time := by
  rw [← not_le, Entry.le_sentry, not_le]

theorem Entry.time_le {e f : Entry} (h : e ≤ f) : e.time ≤ f.time := by
  rcases Entry.le_iff.mp h with h | ⟨h,_⟩
  · exact le_of_lt h
  · exact le_of_eq h

structure Timespec where
  tv_sec : ℤ
  tv_nsec : ℤ
deriving DecidableEq, Repr

/-- `clock` is what `Timestamp::now` returns. -/
def howmuchTimeFromNow (expiration clock : Timestamp) : Timespec :=
  let difference := int64 (expiration-clock)
  let microseconds := if difference < 100 then 100 else difference
  ⟨microseconds/1000000, microseconds%1000000*1000⟩

/-- What a call of `resetTimerfd` has set. -/
structure Setting where
  expiration : Timestamp
  clock : Timestamp
  value : Timespec
deriving DecidableEq, Repr

/-- A `timerfd` without an interval. -/
inductive Timerfd
  | disarmed
  | armed (setting : Setting)
  /-- It is readable. -/
  | fired (setting : Setting)
deriving DecidableEq, Repr

/-- A value of zero would disarm it. -/
def resetTimerfd (expiration clock : Timestamp) : Timerfd :=
  let value := howmuchTimeFromNow expiration clock
  if value = ⟨0, 0⟩ then .disarmed else .armed ⟨expiration, clock, value⟩

/-- Where `handleRead` stands: the entries of `expired`, and those whose timers have not been run, or
not been reset, yet. -/
inductive ReadPhase
  | idle
  | calling (now : Timestamp) (expired rest : List Entry)
  | resetting (now : Timestamp) (todo : List Entry)

structure TimerQueue where
  /-- The `Timer` objects that exist. -/
  heap : TimerPtr → Option Timer
  numCreated : ℕ
  /-- The timers for which `addTimerInLoop` has not run yet. -/
  waiting : List TimerPtr
  timers : OrderedSet Entry
  activeTimers : OrderedSet ActiveTimer
  callingExpiredTimers : Bool
  cancelingTimers : OrderedSet ActiveTimer
  timerfd : Timerfd
  phase : ReadPhase

inductive TimerOp
  /-- `addTimer` on any thread makes the timer, at an address that is free. -/
  | newTimer (p : TimerPtr) (time : Timestamp) (interval : Option ℕ)
  | addTimerInLoop (p : TimerPtr) (clock : Timestamp)
  | cancelInLoop (timerId : TimerId)
  /-- The time of the `timerfd` has come. -/
  | fire
  | handleRead (now : Timestamp)
  | callNext
  | endCalls
  | resetNext
  | rearm (clock : Timestamp)

inductive TimerObs
  | created (timer : ActiveTimer) (interval : Option ℕ)
  | inserted (timer : ActiveTimer)
  | deleted (timer : ActiveTimer)
  /-- `cancelInLoop` returns. -/
  | cancelled (timer : ActiveTimer)
  | started (timer : ActiveTimer) (expiration now : Timestamp)

namespace TimerQueue

def new : TimerQueue :=
  ⟨fun _ => none, 0, [], .empty, .empty, false, .empty, .disarmed, .idle⟩

/-- The asserts are tested together. -/
def insert (s : TimerQueue) (p : TimerPtr) : Except Fault (TimerQueue × Bool × List TimerObs) :=
  match s.heap p with
  | none => .error .danglingPointer
  | some timer =>
    let earliestChanged := match s.timers.first with
      | none => true
      | some e => decide (timer.expiration < e.time)
    let timers := s.timers.insert ⟨timer.expiration, p⟩
    let activeTimers := s.activeTimers.insert ⟨p, timer.sequence⟩
    if s.timers.size = s.activeTimers.size ∧ timers.2 = true ∧ activeTimers.2 = true ∧
        timers.1.size = activeTimers.1.size then
      .ok ({ s with timers := timers.1, activeTimers := activeTimers.1 }, earliestChanged,
        [.inserted ⟨p, timer.sequence⟩])
    else .error .assertFailed

/-- A callback can call, or a handler or functor outside of `handleRead`. -/
def mayCall (s : TimerQueue) : Bool :=
  match s.phase with
  | .idle => true
  | .calling _ expired rest => rest.length < expired.length
  | .resetting _ _ => false

def newTimer (s : TimerQueue) (p : TimerPtr) (time : Timestamp) (interval : Option ℕ) :
    TimerQueue × List TimerObs :=
  if s.heap p = none then
    ({ s with
      heap := Function.update s.heap p (some ⟨time, interval, s.numCreated+1⟩)
      numCreated := s.numCreated+1
      waiting := p :: s.waiting }, [.created ⟨p, s.numCreated+1⟩ interval])
  else (s, [])

def addTimerInLoop (s : TimerQueue) (p : TimerPtr) (clock : Timestamp) :
    Except Fault (TimerQueue × List TimerObs) :=
  if p ∈ s.waiting ∧ s.mayCall = true then
    match s.heap p with
    | none => .error .danglingPointer
    | some timer =>
      (TimerQueue.insert { s with waiting := s.waiting.erase p } p).map (fun r =>
        (if r.2.1 then { r.1 with timerfd := resetTimerfd timer.expiration clock } else r.1, r.2.2))
  else .ok (s, [])

/-- A `TimerId` comes from `addTimer`, or is the default one. -/
def cancelInLoop (s : TimerQueue) (timerId : TimerId) : Except Fault (TimerQueue × List TimerObs) :=
  if timerId.sequence ≤ s.numCreated ∧ s.mayCall = true then
    if s.timers.size = s.activeTimers.size then
      if timerId ∈ s.activeTimers then
        match s.heap timerId.timer with
        | none => .error .danglingPointer
        | some timer =>
          let timers := s.timers.erase ⟨timer.expiration, timerId.timer⟩
          let activeTimers := (s.activeTimers.erase timerId).1
          if timers.2 = 1 ∧ timers.1.size = activeTimers.size then
            .ok ({ s with
              timers := timers.1
              heap := Function.update s.heap timerId.timer none
              activeTimers := activeTimers }, [.deleted timerId, .cancelled timerId])
          else .error .assertFailed
      else if s.callingExpiredTimers then
        .ok ({ s with cancelingTimers := (s.cancelingTimers.insert timerId).1 }, [.cancelled timerId])
      else .ok (s, [.cancelled timerId])
    else .error .assertFailed
  else .ok (s, [])

/-- The loop of `getExpired`. -/
def eraseActive (heap : TimerPtr → Option Timer) :
    OrderedSet ActiveTimer → List Entry → Except Fault (OrderedSet ActiveTimer)
  | activeTimers, [] => .ok activeTimers
  | activeTimers, e :: expired =>
    match heap e.timer with
    | none => .error .danglingPointer
    | some timer =>
      let r := activeTimers.erase ⟨e.timer, timer.sequence⟩
      if r.2 = 1 then eraseActive heap r.1 expired else .error .assertFailed

def getExpired (s : TimerQueue) (now : Timestamp) : Except Fault (TimerQueue × List Entry) :=
  let sentry : Entry := ⟨now, UINTPTR_MAX⟩
  let expired := s.timers.upTo sentry
  let timers := s.timers.above sentry
  if s.timers.size = s.activeTimers.size ∧ timers.first.all (fun e => now < e.time) = true then
    (eraseActive s.heap s.activeTimers expired).bind (fun activeTimers =>
      if timers.size = activeTimers.size then
        .ok ({ s with timers := timers, activeTimers := activeTimers }, expired)
      else .error .assertFailed)
  else .error .assertFailed

def readTimerfd (s : TimerQueue) : TimerQueue :=
  match s.timerfd with
  | .fired _ => { s with timerfd := .disarmed }
  | _ => s

/-- `handleRead` up to the first callback. -/
def handleRead (s : TimerQueue) (now : Timestamp) : Except Fault (TimerQueue × List TimerObs) :=
  match s.phase with
  | .idle => (s.readTimerfd.getExpired now).map (fun r => ({ r.1 with
      callingExpiredTimers := true
      cancelingTimers := .empty
      phase := .calling now r.2 r.2 }, []))
  | _ => .ok (s, [])

/-- The callback of the next entry starts. -/
def callNext (s : TimerQueue) : Except Fault (TimerQueue × List TimerObs) :=
  match s.phase with
  | .calling now expired (e :: rest) =>
    match s.heap e.timer with
    | none => .error .danglingPointer
    | some timer => .ok ({ s with phase := .calling now expired rest },
        [.started ⟨e.timer, timer.sequence⟩ timer.expiration now])
  | _ => .ok (s, [])

/-- The last callback has returned. -/
def endCalls (s : TimerQueue) : TimerQueue :=
  match s.phase with
  | .calling now expired [] => { s with callingExpiredTimers := false, phase := .resetting now expired }
  | _ => s

/-- An iteration of `reset`. -/
def resetNext (s : TimerQueue) : Except Fault (TimerQueue × List TimerObs) :=
  match s.phase with
  | .resetting now (e :: todo) =>
    match s.heap e.timer with
    | none => .error .danglingPointer
    | some timer =>
      if timer.isRepeat = true ∧ ⟨e.timer, timer.sequence⟩ ∉ s.cancelingTimers then
        (TimerQueue.insert { s with
          heap := Function.update s.heap e.timer (some (timer.restart now))
          phase := .resetting now todo } e.timer).map (fun r => (r.1, r.2.2))
      else .ok ({ s with
        heap := Function.update s.heap e.timer none
        phase := .resetting now todo }, [.deleted ⟨e.timer, timer.sequence⟩])
  | _ => .ok (s, [])

/-- The end of `reset`. -/
def rearm (s : TimerQueue) (clock : Timestamp) : Except Fault (TimerQueue × List TimerObs) :=
  match s.phase with
  | .resetting _ [] =>
    match s.timers.first with
    | none => .ok ({ s with phase := .idle }, [])
    | some e =>
      match s.heap e.timer with
      | none => .error .danglingPointer
      | some timer => .ok ({ s with
          phase := .idle
          timerfd := if timer.expiration.valid then resetTimerfd timer.expiration clock else s.timerfd }, [])
  | _ => .ok (s, [])

def fire (s : TimerQueue) : TimerQueue :=
  match s.timerfd with
  | .armed setting => { s with timerfd := .fired setting }
  | _ => s

def step (s : TimerQueue) : TimerOp → Except Fault (TimerQueue × List TimerObs)
  | .newTimer p time interval => .ok (s.newTimer p time interval)
  | .addTimerInLoop p clock => s.addTimerInLoop p clock
  | .cancelInLoop timerId => s.cancelInLoop timerId
  | .fire => .ok (s.fire, [])
  | .handleRead now => s.handleRead now
  | .callNext => s.callNext
  | .endCalls => .ok (s.endCalls, [])
  | .resetNext => s.resetNext
  | .rearm clock => s.rearm clock

def run : TimerQueue → List TimerOp → Except Fault (TimerQueue × List TimerObs) := Runs.run step

end TimerQueue

namespace ReadPhase

/-- The entries that the local vector still owns. -/
def owned : ReadPhase → List Entry
  | .idle => []
  | .calling _ expired _ => expired
  | .resetting _ todo => todo

def rest : ReadPhase → List Entry
  | .calling _ _ rest => rest
  | _ => []

def isCalling : ReadPhase → Bool
  | .calling _ _ _ => true
  | _ => false

end ReadPhase

namespace TimerQueue
variable {s s' : TimerQueue} {loose : List TimerPtr} {p : TimerPtr} {timer : Timer}

/-- The two sets hold the same timers, and the timers that exist outside of them are the loose ones. -/
structure Represents (s : TimerQueue) (loose : List TimerPtr) : Prop where
  key : ∀ e ∈ s.timers, ∃ timer, s.heap e.timer = some timer ∧ timer.expiration = e.time ∧
    ⟨e.timer, timer.sequence⟩ ∈ s.activeTimers
  active : ∀ a ∈ s.activeTimers, ∃ timer, s.heap a.timer = some timer ∧ timer.sequence = a.sequence ∧
    ⟨timer.expiration, a.timer⟩ ∈ s.timers
  size : s.timers.size = s.activeTimers.size
  given : ∀ p timer, s.heap p = some timer → timer.sequence ≤ s.numCreated
  unique : ∀ p q timer timer', s.heap p = some timer → s.heap q = some timer' →
    timer.sequence = timer'.sequence → p = q
  nodup : loose.Nodup
  loose : ∀ p, p ∈ loose ↔ ∃ timer, s.heap p = some timer ∧ ⟨p, timer.sequence⟩ ∉ s.activeTimers

theorem Represents.not_mem_timers (h : s.Represents loose) (hp : p ∈ loose) (t : Timestamp) :
    ⟨t, p⟩ ∉ s.timers := by
  intro hmem
  obtain ⟨timer,hheap,_,hactive⟩ := h.key _ hmem
  obtain ⟨timer',hheap',hloose⟩ := (h.loose p).mp hp
  rw [Option.some.inj (hheap'.symm.trans hheap)] at hloose
  exact hloose hactive

theorem insert_ok (hheap : s.heap p = some timer) (hsize : s.timers.size = s.activeTimers.size)
    (htimers : ⟨timer.expiration, p⟩ ∉ s.timers) (hactive : ⟨p, timer.sequence⟩ ∉ s.activeTimers) :
    ∃ early : Bool, s.insert p = .ok ({ s with
      timers := (s.timers.insert ⟨timer.expiration, p⟩).1
      activeTimers := (s.activeTimers.insert ⟨p, timer.sequence⟩).1 }, early,
        [.inserted ⟨p, timer.sequence⟩]) ∧
    (early = true ↔ ∀ e ∈ s.timers, timer.expiration < e.time) := by
  obtain ⟨hnew,hsizes⟩ := OrderedSet.insert_new htimers
  obtain ⟨hnew',hsizes'⟩ := OrderedSet.insert_new hactive
  unfold TimerQueue.insert
  rw [hheap]
  dsimp only
  rw [if_pos ⟨hsize, hnew, hnew', by rw [hsizes, hsizes', hsize]⟩]
  refine ⟨_, rfl, ?_⟩
  cases hfirst : s.timers.first with
  | none => exact ⟨fun _ e he => absurd he (OrderedSet.first_eq_none.mp hfirst e), fun _ => rfl⟩
  | some f =>
    dsimp only
    rw [decide_eq_true_iff]
    constructor
    · intro hlt e he
      exact lt_of_lt_of_le hlt (Entry.time_le (OrderedSet.first_le hfirst he))
    · intro hall
      exact hall f (OrderedSet.first_mem hfirst)

/-- The loop of `getExpired` removes the timers of the entries. -/
theorem eraseActive_ok {heap : TimerPtr → Option Timer} {activeTimers : OrderedSet ActiveTimer}
    {expired : List Entry} (hnodup : (expired.map Entry.timer).Nodup)
    (hsame : ∀ a ∈ activeTimers, ∀ timer, heap a.timer = some timer → timer.sequence = a.sequence)
    (hmem : ∀ e ∈ expired, ∃ timer, heap e.timer = some timer ∧ ⟨e.timer, timer.sequence⟩ ∈ activeTimers) :
    ∃ rest, eraseActive heap activeTimers expired = .ok rest ∧
    (∀ a, a ∈ rest ↔ a ∈ activeTimers ∧ a.timer ∉ expired.map Entry.timer) ∧
    rest.size+expired.length = activeTimers.size := by
  induction expired generalizing activeTimers with
  | nil => exact ⟨activeTimers, rfl, fun a => ⟨fun ha => ⟨ha, List.not_mem_nil⟩, And.left⟩, rfl⟩
  | cons e expired ih =>
    rw [List.map_cons, List.nodup_cons] at hnodup
    obtain ⟨timer,hheap,hactive⟩ := hmem e List.mem_cons_self
    obtain ⟨hone,hsize⟩ := OrderedSet.erase_mem hactive
    obtain ⟨rest,hok,hrest,hsizes⟩ := @ih (activeTimers.erase ⟨e.timer, timer.sequence⟩).1 hnodup.2
      (fun a ha => hsame a (OrderedSet.mem_erase.mp ha).2) (by
        intro f hf
        obtain ⟨timer',hheap',hactive'⟩ := hmem f (List.mem_cons_of_mem _ hf)
        refine ⟨timer', hheap', OrderedSet.mem_erase.mpr ⟨?_, hactive'⟩⟩
        -- the timers are different, as the addresses are
        intro heq
        have hptr : f.timer = e.timer := congrArg ActiveTimer.timer heq
        exact hnodup.1 (hptr ▸ List.mem_map_of_mem hf))
    refine ⟨rest, ?_, ?_, ?_⟩
    · unfold eraseActive
      rw [hheap]
      dsimp only
      rw [if_pos hone, hok]
    · intro a
      rw [hrest, OrderedSet.mem_erase, List.map_cons, List.mem_cons, not_or]
      constructor
      · rintro ⟨⟨hne,ha⟩,hnot⟩
        refine ⟨ha, ?_, hnot⟩
        intro hptr
        have hseq := hsame a ha timer (by rw [hptr]; exact hheap)
        apply hne
        cases a
        exact congrArg₂ ActiveTimer.mk hptr hseq.symm
      · rintro ⟨ha,hne,hnot⟩
        exact ⟨⟨fun heq => hne (congrArg ActiveTimer.timer heq), ha⟩, hnot⟩
    · rw [List.length_cons]
      omega

/-- Two entries with one address have the expiration of its timer. -/
theorem Represents.entry_unique (h : s.Represents loose) {e f : Entry} (he : e ∈ s.timers)
    (hf : f ∈ s.timers) (hptr : e.timer = f.timer) : e = f := by
  obtain ⟨t,ht,htime,_⟩ := h.key e he
  obtain ⟨u,hu,hutime,_⟩ := h.key f hf
  rw [hptr] at ht
  rw [Option.some.inj (ht.symm.trans hu)] at htime
  cases e
  cases f
  exact congrArg₂ Entry.mk (htime.symm.trans hutime) hptr

theorem Represents.nodup_upTo (h : s.Represents loose) (sentry : Entry) :
    ((s.timers.upTo sentry).map Entry.timer).Nodup := by
  apply List.Nodup.map_on
  · intro e he f hf
    exact h.entry_unique (OrderedSet.mem_upTo.mp he).1 (OrderedSet.mem_upTo.mp hf).1
  · exact (s.timers.sorted_upTo sentry).imp ne_of_lt

/-- Only the heap, the counter and the two sets matter. -/
theorem Represents.congr (h : s.Represents loose) (hheap : s'.heap = s.heap)
    (hnum : s'.numCreated = s.numCreated) (htimers : s'.timers = s.timers)
    (hactive : s'.activeTimers = s.activeTimers) : s'.Represents loose := by
  obtain ⟨heap,numCreated,waiting,timers,activeTimers,calling,canceling,fd,phase⟩ := s'
  obtain rfl : heap = s.heap := hheap
  obtain rfl : numCreated = s.numCreated := hnum
  obtain rfl : timers = s.timers := htimers
  obtain rfl : activeTimers = s.activeTimers := hactive
  exact ⟨h.key, h.active, h.size, h.given, h.unique, h.nodup, h.loose⟩

/-- A new timer. -/
theorem Represents.allocate (h : s.Represents loose) (hfree : s.heap p = none) (time : Timestamp)
    (interval : Option ℕ) : Represents { s with
      heap := Function.update s.heap p (some ⟨time, interval, s.numCreated+1⟩)
      numCreated := s.numCreated+1 } (p :: loose) := by
  have hne {q : TimerPtr} {timer : Timer} (hq : s.heap q = some timer) : q ≠ p := by
    rintro rfl
    cases hfree.symm.trans hq
  have hcases {q : TimerPtr} {timer : Timer}
      (hq : Function.update s.heap p (some ⟨time, interval, s.numCreated+1⟩) q = some timer) :
      (q = p ∧ timer.sequence = s.numCreated+1) ∨ s.heap q = some timer := by
    by_cases hqp : q = p
    · rw [hqp, Function.update_self] at hq
      exact Or.inl ⟨hqp, congrArg Timer.sequence (Option.some.inj hq).symm⟩
    · exact Or.inr ((Function.update_of_ne hqp _ _).symm.trans hq)
  refine ⟨?_, ?_, h.size, ?_, ?_, ?_, ?_⟩
  · intro e he
    obtain ⟨timer,hheap,hkey⟩ := h.key e he
    exact ⟨timer, (Function.update_of_ne (hne hheap) _ _).trans hheap, hkey⟩
  · intro a ha
    obtain ⟨timer,hheap,hkey⟩ := h.active a ha
    exact ⟨timer, (Function.update_of_ne (hne hheap) _ _).trans hheap, hkey⟩
  · intro q timer hq
    rcases hcases hq with ⟨_,hseq⟩ | hq
    · exact le_of_eq hseq
    · exact Nat.le_succ_of_le (h.given q timer hq)
  · -- the sequence number has not been given out before
    intro q r timer timer' hq hr hseq
    rcases hcases hq with ⟨hqp,hnew⟩ | hq'
    · rcases hcases hr with ⟨hrp,_⟩ | hr'
      · rw [hqp, hrp]
      · have := h.given r timer' hr'
        omega
    · rcases hcases hr with ⟨_,hnew⟩ | hr'
      · have := h.given q timer hq'
        omega
      · exact h.unique q r timer timer' hq' hr' hseq
  · rw [List.nodup_cons]
    refine ⟨?_, h.nodup⟩
    intro hp
    obtain ⟨timer,hheap,_⟩ := (h.loose p).mp hp
    cases hfree.symm.trans hheap
  · intro q
    dsimp only
    by_cases hqp : q = p
    · rw [hqp, Function.update_self]
      refine ⟨fun _ => ⟨_, rfl, ?_⟩, fun _ => List.mem_cons_self⟩
      intro hactive
      obtain ⟨timer,hheap,_⟩ := h.active _ hactive
      cases hfree.symm.trans hheap
    · rw [Function.update_of_ne hqp, ← h.loose q, List.mem_cons]
      exact ⟨fun hor => hor.resolve_left hqp, Or.inr⟩

/-- A loose timer, which may have a new expiration, is put into the sets. -/
theorem Represents.place (h : s.Represents loose) (hp : p ∈ loose) {old : Timer}
    (hheap : s.heap p = some old) (hseq : timer.sequence = old.sequence) : Represents { s with
      heap := Function.update s.heap p (some timer)
      timers := (s.timers.insert ⟨timer.expiration, p⟩).1
      activeTimers := (s.activeTimers.insert ⟨p, timer.sequence⟩).1 } (loose.erase p) := by
  have hactive : ⟨p, timer.sequence⟩ ∉ s.activeTimers := by
    obtain ⟨timer',hheap',hnot⟩ := (h.loose p).mp hp
    rw [hseq, Option.some.inj (hheap.symm.trans hheap')]
    exact hnot
  have htimers := h.not_mem_timers hp timer.expiration
  have hself : Function.update s.heap p (some timer) p = some timer := Function.update_self ..
  -- every timer of the old heap is there, with its sequence number
  have hold {q : TimerPtr} {t : Timer} (hq : Function.update s.heap p (some timer) q = some t) :
      ∃ t', s.heap q = some t' ∧ t'.sequence = t.sequence := by
    by_cases hqp : q = p
    · rw [hqp, Function.update_self] at hq
      rw [hqp]
      exact ⟨old, hheap, hseq.symm.trans (congrArg Timer.sequence (Option.some.inj hq))⟩
    · exact ⟨t, (Function.update_of_ne hqp _ _).symm.trans hq, rfl⟩
  refine ⟨?_, ?_, ?_, ?_, ?_, h.nodup.erase p, ?_⟩
  · intro e he
    rcases OrderedSet.mem_insert.mp he with rfl | he
    · exact ⟨timer, hself, rfl, OrderedSet.mem_insert.mpr (Or.inl rfl)⟩
    · obtain ⟨t,hq,hkey,hmem⟩ := h.key e he
      have hne : e.timer ≠ p := fun heq => h.not_mem_timers hp e.time (heq ▸ he)
      exact ⟨t, (Function.update_of_ne hne _ _).trans hq, hkey, OrderedSet.mem_insert.mpr (Or.inr hmem)⟩
  · intro a ha
    rcases OrderedSet.mem_insert.mp ha with rfl | ha
    · exact ⟨timer, hself, rfl, OrderedSet.mem_insert.mpr (Or.inl rfl)⟩
    · obtain ⟨t,hq,hkey,hmem⟩ := h.active a ha
      have hne : a.timer ≠ p := by
        intro heq
        rw [heq] at hmem
        exact h.not_mem_timers hp _ hmem
      exact ⟨t, (Function.update_of_ne hne _ _).trans hq, hkey, OrderedSet.mem_insert.mpr (Or.inr hmem)⟩
  · dsimp only
    rw [(OrderedSet.insert_new htimers).2, (OrderedSet.insert_new hactive).2, h.size]
  · intro q t hq
    obtain ⟨t',hq',hseq'⟩ := hold hq
    exact hseq' ▸ h.given q t' hq'
  · intro q r t u hq hr heq
    obtain ⟨t',hq',ht⟩ := hold hq
    obtain ⟨u',hr',hu⟩ := hold hr
    exact h.unique q r t' u' hq' hr' (ht.trans (heq.trans hu.symm))
  · intro q
    rw [h.nodup.mem_erase_iff, h.loose q]
    constructor
    · rintro ⟨hqp,t,hq,hnot⟩
      refine ⟨t, (Function.update_of_ne hqp _ _).trans hq, ?_⟩
      intro hmem
      rcases OrderedSet.mem_insert.mp hmem with heq | hmem
      · exact hqp (congrArg ActiveTimer.timer heq)
      · exact hnot hmem
    · rintro ⟨t,hq,hnot⟩
      have hqp : q ≠ p := by
        rintro rfl
        rw [← Option.some.inj (hself.symm.trans hq)] at hnot
        exact hnot (OrderedSet.mem_insert.mpr (Or.inl rfl))
      exact ⟨hqp, t, (Function.update_of_ne hqp _ _).symm.trans hq,
        fun hmem => hnot (OrderedSet.mem_insert.mpr (Or.inr hmem))⟩

/-- A loose timer is deleted. -/
theorem Represents.free (h : s.Represents loose) (hp : p ∈ loose) :
    Represents { s with heap := Function.update s.heap p none } (loose.erase p) := by
  obtain ⟨old,hheap,hactive⟩ := (h.loose p).mp hp
  have hold {q : TimerPtr} {t : Timer} (hq : Function.update s.heap p none q = some t) :
      q ≠ p ∧ s.heap q = some t := by
    by_cases hqp : q = p
    · rw [hqp, Function.update_self] at hq
      cases hq
    · exact ⟨hqp, (Function.update_of_ne hqp _ _).symm.trans hq⟩
  refine ⟨?_, ?_, h.size, ?_, ?_, h.nodup.erase p, ?_⟩
  · intro e he
    obtain ⟨t,hq,hkey⟩ := h.key e he
    have hne : e.timer ≠ p := fun heq => h.not_mem_timers hp e.time (heq ▸ he)
    exact ⟨t, (Function.update_of_ne hne _ _).trans hq, hkey⟩
  · intro a ha
    obtain ⟨t,hq,hkey,hmem⟩ := h.active a ha
    have hne : a.timer ≠ p := by
      intro heq
      rw [heq] at hmem
      exact h.not_mem_timers hp _ hmem
    exact ⟨t, (Function.update_of_ne hne _ _).trans hq, hkey, hmem⟩
  · exact fun q t hq => h.given q t (hold hq).2
  · exact fun q r t u hq hr => h.unique q r t u (hold hq).2 (hold hr).2
  · intro q
    rw [h.nodup.mem_erase_iff, h.loose q]
    constructor
    · rintro ⟨hqp,t,hq,hnot⟩
      exact ⟨t, (Function.update_of_ne hqp _ _).trans hq, hnot⟩
    · rintro ⟨t,hq,hnot⟩
      exact ⟨(hold hq).1, t, (hold hq).2, hnot⟩

/-- Timers are taken out of both sets. -/
theorem Represents.take (h : s.Represents loose) {timers : OrderedSet Entry}
    {activeTimers : OrderedSet ActiveTimer} {taken : List Entry} (hnodup : (taken.map Entry.timer).Nodup)
    (htaken : ∀ e, e ∈ s.timers ↔ e ∈ timers ∨ e ∈ taken) (hnot : ∀ e ∈ timers, e ∉ taken)
    (hactive : ∀ a, a ∈ activeTimers ↔ a ∈ s.activeTimers ∧ a.timer ∉ taken.map Entry.timer)
    (hsize : timers.size = activeTimers.size) :
    Represents { s with timers := timers, activeTimers := activeTimers }
      (loose ++ taken.map Entry.timer) := by
  have htimer {q : TimerPtr} (hq : q ∈ taken.map Entry.timer) :
      ∃ e ∈ taken, e.timer = q ∧ ∃ t, s.heap q = some t ∧ t.expiration = e.time ∧
        ⟨q, t.sequence⟩ ∈ s.activeTimers := by
    obtain ⟨e,he,rfl⟩ := List.mem_map.mp hq
    exact ⟨e, he, rfl, h.key e ((htaken e).mpr (Or.inr he))⟩
  -- an address has one entry, because its timer has one expiration
  have hkept {e : Entry} (he : e ∈ timers) : e.timer ∉ taken.map Entry.timer := by
    intro hmem
    obtain ⟨f,hf,hptr,_⟩ := htimer hmem
    have hef := h.entry_unique ((htaken e).mpr (Or.inl he)) ((htaken f).mpr (Or.inr hf)) hptr.symm
    exact hnot e he (hef ▸ hf)
  refine ⟨?_, ?_, hsize, h.given, h.unique, ?_, ?_⟩
  · intro e he
    obtain ⟨t,hq,hkey,hmem⟩ := h.key e ((htaken e).mpr (Or.inl he))
    exact ⟨t, hq, hkey, (hactive _).mpr ⟨hmem, hkept he⟩⟩
  · intro a ha
    obtain ⟨ha,hfree⟩ := (hactive a).mp ha
    obtain ⟨t,hq,hseq,hmem⟩ := h.active a ha
    refine ⟨t, hq, hseq, ?_⟩
    rcases (htaken _).mp hmem with hin | hin
    · exact hin
    · exact absurd (List.mem_map_of_mem hin) hfree
  · rw [List.nodup_append]
    refine ⟨h.nodup, hnodup, ?_⟩
    rintro q hq r hr rfl
    obtain ⟨e,he,hptr,_⟩ := htimer hr
    apply h.not_mem_timers hq e.time
    rw [← hptr]
    exact (htaken e).mpr (Or.inr he)
  · intro q
    rw [List.mem_append, h.loose q]
    constructor
    · rintro (⟨t,hq,hmem⟩ | hmem)
      · exact ⟨t, hq, fun hin => hmem ((hactive _).mp hin).1⟩
      · obtain ⟨e,_,_,t,hq,_⟩ := htimer hmem
        exact ⟨t, hq, fun hin => ((hactive _).mp hin).2 hmem⟩
    · rintro ⟨t,hq,hmem⟩
      by_cases hin : q ∈ taken.map Entry.timer
      · exact Or.inr hin
      · exact Or.inl ⟨t, hq, fun ha => hmem ((hactive _).mpr ⟨ha, hin⟩)⟩

/-- An active timer is deleted. -/
theorem Represents.cancel (h : s.Represents loose) {a : ActiveTimer} (ha : a ∈ s.activeTimers)
    (hheap : s.heap a.timer = some timer) : Represents { s with
      timers := (s.timers.erase ⟨timer.expiration, a.timer⟩).1
      heap := Function.update s.heap a.timer none
      activeTimers := (s.activeTimers.erase a).1 } loose := by
  obtain ⟨t,hheap',hseq,hkey⟩ := h.active a ha
  obtain rfl : t = timer := Option.some.inj (hheap'.symm.trans hheap)
  have hfree : a.timer ∉ loose := by
    intro hmem
    exact h.not_mem_timers hmem _ hkey
  have htaken (e : Entry) : e ∈ s.timers ↔
      e ∈ (s.timers.erase ⟨t.expiration, a.timer⟩).1 ∨ e ∈ [(⟨t.expiration, a.timer⟩ : Entry)] := by
    rw [OrderedSet.mem_erase, List.mem_singleton]
    constructor
    · intro he
      by_cases heq : e = ⟨t.expiration, a.timer⟩
      · exact Or.inr heq
      · exact Or.inl ⟨heq, he⟩
    · rintro (⟨_,he⟩ | rfl)
      · exact he
      · exact hkey
  have hactive (b : ActiveTimer) : b ∈ (s.activeTimers.erase a).1 ↔
      b ∈ s.activeTimers ∧ b.timer ∉ [(⟨t.expiration, a.timer⟩ : Entry)].map Entry.timer := by
    rw [OrderedSet.mem_erase, List.map_singleton, List.mem_singleton]
    constructor
    · rintro ⟨hne,hb⟩
      refine ⟨hb, ?_⟩
      -- the timer of an address has one sequence number
      intro hptr
      obtain ⟨u,hu,hbseq,_⟩ := h.active b hb
      rw [hptr] at hu
      obtain rfl := Option.some.inj (hu.symm.trans hheap')
      apply hne
      cases a
      cases b
      exact congrArg₂ ActiveTimer.mk hptr (hbseq.symm.trans hseq)
    · rintro ⟨hb,hne⟩
      exact ⟨fun heq => hne (congrArg ActiveTimer.timer heq), hb⟩
  have hsize : (s.timers.erase ⟨t.expiration, a.timer⟩).1.size = (s.activeTimers.erase a).1.size := by
    have := (OrderedSet.erase_mem hkey).2
    have := (OrderedSet.erase_mem ha).2
    have := h.size
    omega
  have hsingle : ([(⟨t.expiration, a.timer⟩ : Entry)].map Entry.timer).Nodup := List.nodup_singleton _
  have htake := h.take hsingle htaken
    (fun e he hmem => (OrderedSet.mem_erase.mp he).1 (List.mem_singleton.mp hmem)) hactive hsize
  have hdone := htake.free (List.mem_append_right loose List.mem_cons_self)
  rw [List.map_singleton, List.erase_append_right _ hfree, List.erase_cons_head, List.append_nil] at hdone
  exact hdone

end TimerQueue

end IdealServer
