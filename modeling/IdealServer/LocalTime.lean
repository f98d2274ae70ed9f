import IdealServer.LowerBound
import IdealServer.UtcTime

/-! `TimeZone`: a table of local time types and of the seconds at which they change, and the local time
of a second by it. -/
namespace IdealServer

structure Transition where
  gmttime : ℤ
  localtime : ℤ
  localtimeIdx : ℕ
deriving DecidableEq, Repr

structure Localtime where
  gmtOffset : ℤ
  isDst : Bool
  arrbIdx : ℕ
deriving DecidableEq, Repr

structure Comp where
  compareGmt : Bool

namespace Comp

def less (comp : Comp) (lhs rhs : Transition) : Bool :=
  if comp.compareGmt then decide (lhs.gmttime < rhs.gmttime) else decide (lhs.localtime < rhs.localtime)

def equal (comp : Comp) (lhs rhs : Transition) : Bool :=
  if comp.compareGmt then decide (lhs.gmttime = rhs.gmttime) else decide (lhs.localtime = rhs.localtime)

/-- The time that is compared. -/
def key (comp : Comp) (tr : Transition) : ℤ := if comp.compareGmt then tr.gmttime else tr.localtime

theorem less_eq (comp : Comp) (lhs rhs : Transition) :
    comp.less lhs rhs = decide (comp.key lhs < comp.key rhs) := by
  cases comp with
  | mk gmt => cases gmt <;> rfl

theorem equal_eq (comp : Comp) (lhs rhs : Transition) :
    comp.equal lhs rhs = decide (comp.key lhs = comp.key rhs) := by
  cases comp with
  | mk gmt => cases gmt <;> rfl

end Comp

namespace TimeZone

/-- The names are never written or read. -/
structure Data where
  transitions : List Transition
  localtimes : List Localtime
  abbreviation : Bytes
deriving DecidableEq, Repr

end TimeZone

/-- `_data` is null in a zone that is not valid. -/
structure TimeZone where
  data : Option TimeZone.Data
deriving DecidableEq, Repr

/-- `xs[i]` of a vector, and `front` and `back` with it. -/
def element {α : Type} (xs : List α) (i : ℕ) : Except Fault α :=
  match xs[i]? with
  | some x => .ok x
  | none => .error .outOfBounds

open TimeZone in
def findLocaltime (data : Data) (entry : Transition) (comp : Comp) : Except Fault Localtime :=
  match data.transitions.head? with
  | none => element data.localtimes 0
  | some front =>
    if comp.less entry front then element data.localtimes 0
    else
      let iter := LowerBound.lowerBound (fun tr => comp.less tr entry) data.transitions
      match data.transitions[iter]? with
      | some tr =>
        if comp.equal entry tr then element data.localtimes tr.localtimeIdx
        else if iter = 0 then .error .assertFailed
        else do
          let tr ← element data.transitions (iter-1)
          element data.localtimes tr.localtimeIdx
      | none => do
        let back ← element data.transitions (data.transitions.length-1)
        element data.localtimes back.localtimeIdx

namespace TimeZone

/-- The constructor for a fixed offset. -/
def ofOffset (eastOfUtc : ℤ) (name : Bytes) : TimeZone :=
  ⟨some { transitions := [], localtimes := [⟨eastOfUtc, false, 0⟩], abbreviation := name }⟩

def valid (tz : TimeZone) : Bool := tz.data.isSome

section Clock
variable (gmtime : ℤ → Tm) (timegm : Tm → ℤ)

/-- Seconds are counted without bounds: the years of `struct tm` end long before those of `time_t`. -/
def toLocalTime (tz : TimeZone) (seconds : ℤ) : Except Fault Tm :=
  match tz.data with
  | none => .error .assertFailed
  | some data => do
    let localType ← findLocaltime data ⟨seconds, 0, 0⟩ ⟨true⟩
    let localtime := gmtime (seconds+localType.gmtOffset)
    if localType.arrbIdx ≤ data.abbreviation.length then
      return { localtime with
        isdst := if localType.isDst then 1 else 0
        gmtoff := localType.gmtOffset
        zone := data.abbreviation.drop localType.arrbIdx }
    else .error .outOfBounds

def fromLocalTime (tz : TimeZone) (localtm : Tm) : Except Fault ℤ :=
  match tz.data with
  | none => .error .assertFailed
  | some data => do
    let seconds := timegm localtm
    let localType ← findLocaltime data ⟨0, seconds, 0⟩ ⟨false⟩
    if localtm.isdst ≠ 0 then do
      let trytm ← tz.toLocalTime gmtime (seconds-localType.gmtOffset)
      if trytm.isdst = 0 ∧ trytm.hour = localtm.hour ∧ trytm.min = localtm.min then
        return seconds-3600-localType.gmtOffset
      else return seconds-localType.gmtOffset
    else return seconds-localType.gmtOffset

end Clock

namespace Data

/-- Transitions in the order of both times, each with its local time by the offset of its type, and every
index within what it is an index of. -/
structure WellFormed (data : Data) : Prop where
  localtimes : data.localtimes ≠ []
  gmttime : data.transitions.Pairwise (fun a b => a.gmttime < b.gmttime)
  localtime : data.transitions.Pairwise (fun a b => a.localtime < b.localtime)
  localtimeIdx : ∀ tr ∈ data.transitions, ∃ localType ∈ data.localtimes[tr.localtimeIdx]?,
    tr.localtime = tr.gmttime+localType.gmtOffset
  arrbIdx : ∀ localType ∈ data.localtimes, localType.arrbIdx ≤ data.abbreviation.length

/-- The type that begins with a transition, and the first one where there is none. -/
def typeOf (data : Data) : Option Transition → Localtime
  | none => data.localtimes.getD 0 ⟨0, false, 0⟩
  | some tr => data.localtimes.getD tr.localtimeIdx ⟨0, false, 0⟩

/-- The type in force at a second. -/
def inForce (data : Data) (t : ℤ) : Localtime :=
  data.typeOf (LowerBound.lastUpTo Transition.gmttime t data.transitions)

/-- The type by which local time is read: that of the last transition up to it, by its own local time. -/
def readBy (data : Data) (s : ℤ) : Localtime :=
  data.typeOf (LowerBound.lastUpTo Transition.localtime s data.transitions)

end Data

end TimeZone

theorem element_ok {α : Type} {xs : List α} {i : ℕ} {x : α} (h : xs[i]? = some x) :
    element xs i = .ok x := by
  rw [element, h]

namespace TimeZone.Data
variable {data : Data}

theorem WellFormed.sorted (h : data.WellFormed) (comp : Comp) :
    data.transitions.Pairwise (fun a b => comp.key a < comp.key b) := by
  cases comp with
  | mk gmt =>
    cases gmt with
    | true => exact h.gmttime
    | false => exact h.localtime

theorem WellFormed.element_none (h : data.WellFormed) :
    element data.localtimes 0 = .ok (data.typeOf none) ∧ data.typeOf none ∈ data.localtimes := by
  obtain ⟨first,rest,hcons⟩ := List.exists_cons_of_ne_nil h.localtimes
  rw [typeOf, hcons]
  exact ⟨rfl, List.mem_cons_self⟩

theorem WellFormed.element_some (h : data.WellFormed) {tr : Transition} (htr : tr ∈ data.transitions) :
    element data.localtimes tr.localtimeIdx = .ok (data.typeOf (some tr)) ∧
    data.typeOf (some tr) ∈ data.localtimes ∧
    tr.localtime = tr.gmttime+(data.typeOf (some tr)).gmtOffset := by
  obtain ⟨localType,hget,hlocal⟩ := h.localtimeIdx tr htr
  have htype : data.typeOf (some tr) = localType := by
    rw [typeOf, List.getD_eq_getElem?_getD, hget]
    rfl
  rw [htype]
  exact ⟨element_ok hget, List.mem_of_getElem? hget, hlocal⟩

theorem WellFormed.typeOf_mem (h : data.WellFormed) {key : Transition → ℤ} {x : ℤ} :
    data.typeOf (LowerBound.lastUpTo key x data.transitions) ∈ data.localtimes := by
  cases hlast : LowerBound.lastUpTo key x data.transitions with
  | none => exact h.element_none.2
  | some tr => exact (h.element_some (LowerBound.lastUpTo_mem hlast).1).2.1

/-- What is at the index of a transition, or in front where there is none. -/
def elementOf (data : Data) : Option Transition → Except Fault Localtime
  | none => element data.localtimes 0
  | some tr => element data.localtimes tr.localtimeIdx

/-- A transition that the search may choose: it is not behind the entry, and the next one is, unless the
two are equal; or there is none, and the first one is behind the entry. -/
def Chosen (data : Data) (entry : Transition) (comp : Comp) : Option Transition → Prop
  | none => ∀ front, data.transitions[0]? = some front → comp.key entry < comp.key front
  | some tr => ∃ i : ℕ, data.transitions[i]? = some tr ∧ comp.key tr ≤ comp.key entry ∧
      ∀ next, data.transitions[i+1]? = some next →
        comp.key entry < comp.key next ∨ comp.key tr = comp.key entry

/-- The search chooses a transition in any table. -/
theorem findLocaltime_chosen (data : Data) (entry : Transition) (comp : Comp) :
    ∃ chosen, data.Chosen entry comp chosen ∧ findLocaltime data entry comp = data.elementOf chosen := by
  rw [findLocaltime]
  cases hhead : data.transitions.head? with
  | none =>
    refine ⟨none, ?_, rfl⟩
    intro front hfront
    rw [← List.head?_eq_getElem?, hhead] at hfront
    cases hfront
  | some front =>
    dsimp only
    rw [List.head?_eq_getElem?] at hhead
    by_cases hless : comp.less entry front = true
    · rw [if_pos hless]
      refine ⟨none, ?_, rfl⟩
      intro first hfirst
      rw [← Option.some.inj (hhead.symm.trans hfirst)]
      rwa [Comp.less_eq, decide_eq_true_eq] at hless
    · rw [if_neg hless]
      rw [Comp.less_eq, decide_eq_true_eq, not_lt] at hless
      have hlength : 0 < data.transitions.length := (List.getElem?_eq_some_iff.mp hhead).1
      obtain ⟨iter,hiter⟩ : ∃ iter, iter =
          LowerBound.lowerBound (fun tr => comp.less tr entry) data.transitions := ⟨_, rfl⟩
      have hbefore (hpos : 0 < iter) : ∃ tr, data.transitions[iter-1]? = some tr ∧
          comp.key tr < comp.key entry := by
        rw [hiter] at hpos ⊢
        obtain ⟨tr,hget,hbelow⟩ := LowerBound.below_of_pos hpos
        exact ⟨tr, hget, by rwa [Comp.less_eq, decide_eq_true_eq] at hbelow⟩
      rw [← hiter]
      cases hget : data.transitions[iter]? with
      | some tr =>
        dsimp only
        have hnot : comp.key entry ≤ comp.key tr := by
          have hfalse := LowerBound.not_below_of_getElem? (by rw [← hiter]; exact hget)
          rwa [Comp.less_eq, decide_eq_false_iff_not, not_lt] at hfalse
        by_cases hequal : comp.equal entry tr = true
        · rw [if_pos hequal]
          rw [Comp.equal_eq, decide_eq_true_eq] at hequal
          exact ⟨some tr, ⟨iter, hget, le_of_eq hequal.symm, fun _ _ => .inr hequal.symm⟩, rfl⟩
        · rw [if_neg hequal]
          rw [Comp.equal_eq, decide_eq_true_eq] at hequal
          have hgt : comp.key entry < comp.key tr := lt_of_le_of_ne hnot hequal
          by_cases hzero : iter = 0
          · -- the entry would be in front of the first transition
            rw [hzero, hhead] at hget
            rw [Option.some.inj hget] at hless
            exact absurd hgt (not_lt_of_ge hless)
          · rw [if_neg hzero]
            obtain ⟨previous,hprevious,hlt⟩ := hbefore (by omega)
            have hnext : iter-1+1 = iter := by omega
            refine ⟨some previous, ⟨iter-1, hprevious, le_of_lt hlt, ?_⟩, ?_⟩
            · intro next hget'
              rw [hnext, hget] at hget'
              rw [← Option.some.inj hget']
              exact .inl hgt
            · rw [element_ok hprevious]
              rfl
      | none =>
        dsimp only
        have hend : iter = data.transitions.length := by
          have hle := LowerBound.lowerBound_le (fun tr => comp.less tr entry) data.transitions
          have hge := List.getElem?_eq_none_iff.mp hget
          omega
        obtain ⟨back,hback,hlt⟩ := hbefore (by omega)
        refine ⟨some back, ⟨iter-1, hback, le_of_lt hlt, ?_⟩, ?_⟩
        · intro next hnext
          have hlt' := (List.getElem?_eq_some_iff.mp hnext).1
          omega
        · rw [← hend, element_ok hback]
          rfl

/-- In a table in order the chosen transition is the last one up to the entry. -/
theorem Chosen.eq_lastUpTo {entry : Transition} {comp : Comp} {chosen : Option Transition}
    (h : data.Chosen entry comp chosen)
    (hsorted : data.transitions.Pairwise (fun a b => comp.key a < comp.key b)) :
    LowerBound.lastUpTo comp.key (comp.key entry) data.transitions = chosen := by
  cases chosen with
  | none =>
    cases hfront : data.transitions[0]? with
    | none =>
      have hnil : data.transitions = [] := List.eq_nil_of_length_eq_zero (by
        have hge := List.getElem?_eq_none_iff.mp hfront
        omega)
      rw [hnil]
      rfl
    | some front => exact LowerBound.lastUpTo_eq_none hsorted hfront (h front hfront)
  | some tr =>
    obtain ⟨i,hget,hle,hnext⟩ := h
    apply LowerBound.lastUpTo_eq_some hsorted hget hle
    intro next hnextGet
    rcases hnext next hnextGet with hlt | hequal
    · exact hlt
    · rw [← hequal]
      obtain ⟨hi,rfl⟩ := List.getElem?_eq_some_iff.mp hget
      obtain ⟨hj,rfl⟩ := List.getElem?_eq_some_iff.mp hnextGet
      exact List.pairwise_iff_getElem.mp hsorted i (i+1) hi hj (Nat.lt_succ_self _)

theorem WellFormed.findLocaltime_eq (h : data.WellFormed) (entry : Transition) (comp : Comp) :
    findLocaltime data entry comp =
      .ok (data.typeOf (LowerBound.lastUpTo comp.key (comp.key entry) data.transitions)) := by
  obtain ⟨chosen,hchosen,hfind⟩ := findLocaltime_chosen data entry comp
  rw [hfind, hchosen.eq_lastUpTo (h.sorted comp)]
  cases chosen with
  | none => exact h.element_none.1
  | some tr =>
    obtain ⟨i,hget,_⟩ := hchosen
    exact (h.element_some (List.mem_of_getElem? hget)).1

end TimeZone.Data

end IdealServer
