import IdealServer.ClockText
import IdealServer.SudokuServer
import Mathlib.Algebra.Order.BigOperators.Group.List
import Mathlib.Data.List.Sort

/-! `Percentile`: what the load test reports about latencies, and the histogram that it saves. -/

namespace Ranks
variable {l : List ℤ} {i : ℕ}

theorem head_le {a : ℤ} (hl : l.Pairwise (· ≤ ·)) (ha : l.head? = some a) : a ∈ l ∧ ∀ x ∈ l, a ≤ x := by
  refine ⟨List.mem_of_head? ha, ?_⟩
  cases l with
  | nil => cases ha
  | cons b l =>
    obtain rfl := Option.some.inj ha
    intro x hx
    rcases List.mem_cons.mp hx with rfl | hx
    · exact le_refl _
    · exact (List.pairwise_cons.mp hl).1 x hx

theorem le_getLast {a : ℤ} (hl : l.Pairwise (· ≤ ·)) (ha : l.getLast? = some a) : a ∈ l ∧ ∀ x ∈ l, x ≤ a := by
  obtain ⟨init,rfl⟩ := List.getLast?_eq_some_iff.mp ha
  refine ⟨List.mem_append_right _ List.mem_cons_self, ?_⟩
  intro x hx
  rcases List.mem_append.mp hx with hx | hx
  · exact (List.pairwise_append.mp hl).2.2 x hx a List.mem_cons_self
  · exact (List.mem_singleton.mp hx).le

/-- In a sorted list the elements up to a position are not greater than its element. -/
theorem lt_countP_le (hl : l.Pairwise (· ≤ ·)) (hi : i < l.length) : i < l.countP (fun x => decide (x ≤ l[i])) := by
  have hfirst : ∀ x ∈ l.take (i+1), x ≤ l[i] := by
    intro x hx
    obtain ⟨j,hj,rfl⟩ := List.mem_take_iff_getElem.mp hx
    have hji : j ≤ i := by omega
    rcases Nat.lt_or_eq_of_le hji with hlt | rfl
    · exact List.pairwise_iff_getElem.mp hl j i (by omega) hi hlt
    · exact le_refl _
  calc i < (l.take (i+1)).length := by
        rw [List.length_take]
        omega
    _ = (l.take (i+1)).countP (fun x => decide (x ≤ l[i])) :=
        (List.countP_eq_length.mpr (fun x hx => decide_eq_true (hfirst x hx))).symm
    _ ≤ l.countP (fun x => decide (x ≤ l[i])) := (List.take_sublist _ _).countP_le

/-- Only those in front of it can be less. -/
theorem countP_lt_le (hl : l.Pairwise (· ≤ ·)) (hi : i < l.length) : l.countP (fun x => decide (x < l[i])) ≤ i := by
  have hlast : (l.drop i).countP (fun x => decide (x < l[i])) = 0 := by
    rw [List.countP_eq_zero]
    intro x hx
    obtain ⟨j,hj,rfl⟩ := List.mem_drop_iff_getElem.mp hx
    rw [decide_eq_true_iff, not_lt]
    rcases Nat.eq_zero_or_pos j with rfl | hpos
    · exact le_refl _
    · exact List.pairwise_iff_getElem.mp hl i (i+j) hi (by omega) (by omega)
  calc l.countP (fun x => decide (x < l[i]))
      = (l.take i).countP (fun x => decide (x < l[i]))+(l.drop i).countP (fun x => decide (x < l[i])) := by
        rw [← List.countP_append, List.take_append_drop]
    _ = (l.take i).countP (fun x => decide (x < l[i])) := by rw [hlast, Nat.add_zero]
    _ ≤ (l.take i).length := List.countP_le_length
    _ ≤ i := List.length_take_le _ _

end Ranks

namespace IdealServer
open SudokuServer (Stop)

structure PercentileStats where
  min : ℤ
  max : ℤ
  mean : ℤ
  median : ℤ
  p90 : ℤ
  p99 : ℤ

/-- A `Percentile` with the sorted latencies. -/
structure Percentile where
  latencies : List ℤ
  infly : ℕ
  /-- Without latencies there are none. -/
  stats : Option PercentileStats

/-- A line of the file: where the interval begins, how many latencies are in it, and how many of all lie before it
or in it. -/
structure PercentileRow where
  low : ℤ
  count : ℕ
  sum : ℕ
deriving DecidableEq, Repr

namespace Percentile

/-- The sum of `int`s. -/
def accumulate (sum : ℤ) : List ℤ → Except Stop ℤ
  | [] => .ok sum
  | x :: xs => if -2^31 ≤ sum+x ∧ sum+x < 2^31 then accumulate (sum+x) xs else .error .overflow

def getPercentile (latencies : List ℤ) (percent : ℕ) : Except Stop ℤ :=
  let index := if percent > 0 then (latencies.length*percent+99)/100-1 else 0
  match latencies[index]? with
  | none => .error (.fault .assertFailed)
  | some x => .ok x

def new (latencies : List ℤ) (infly : ℕ) : Except Stop Percentile :=
  let sorted := latencies.mergeSort
  match sorted.head?, sorted.getLast? with
  | some min, some max => do
    let sum ← accumulate 0 sorted
    let mean := sum.tdiv (Int.bmod sorted.length (2^32))
    let median ← getPercentile sorted 50
    let p90 ← getPercentile sorted 90
    let p99 ← getPercentile sorted 99
    return ⟨sorted, infly, some ⟨min, max, mean, median, p90, p99⟩⟩
  | _, _ => return ⟨sorted, infly, none⟩

/-- The text that is printed. -/
def report (p : Percentile) : Bytes :=
  ascii "recv " ++ spacePadded 6 p.latencies.length ++ ascii " in-fly " ++ decimalText p.infly ++
    match p.stats with
    | none => []
    | some st => ascii " min " ++ decimalText st.min ++ ascii " max " ++ decimalText st.max ++
        ascii " avg " ++ decimalText st.mean ++ ascii " median " ++ decimalText st.median ++
        ascii " p90 " ++ decimalText st.p90 ++ ascii " p99 " ++ decimalText st.p99

def kInterval : ℤ := 5

/-- A line, whose percentage is a quotient of an `int` and a `double`. -/
def line (low : ℤ) (count sum : ℕ) : Except Stop PercentileRow :=
  if 100*sum < 2^31 then .ok ⟨low, count, sum⟩ else .error .overflow

/-- The loop of `save`, and its last line. -/
def saveLoop (total : ℕ) (low : ℤ) (count sum : ℕ) : List ℤ → Except Stop (List PercentileRow)
  | [] =>
    if sum+count = total then (line low count (sum+count)).map (fun row => [row])
    else .error (.fault .assertFailed)
  | x :: xs =>
    if low+kInterval < 2^31 then
      if x < low+kInterval then
        if count+1 < 2^31 then saveLoop total low (count+1) sum xs else .error .overflow
      else do
        let row ← line low count (sum+count)
        let next := x.tdiv kInterval*kInterval
        if next+kInterval < 2^31 then
          if x < next+kInterval then do
            let rows ← saveLoop total next 1 (sum+count) xs
            return row :: rows
          else .error (.fault .assertFailed)
        else .error .overflow
    else .error .overflow

/-- The file has to be opened. The text of the report comes in front of the lines. -/
def save (p : Percentile) (opens : Bool) : Except Stop (List PercentileRow) :=
  match p.latencies with
  | [] => .ok []
  | x :: xs =>
    if opens then saveLoop (xs.length+1) (x.tdiv kInterval*kInterval) 0 0 (x :: xs)
    else .error (.fault .assertFailed)

variable {xs : List ℤ} {x low : ℤ} {total count sum : ℕ}

theorem accumulate_eq {acc : ℤ} : accumulate acc xs =
    if ∀ k < xs.length, -2^31 ≤ acc+(xs.take (k+1)).sum ∧ acc+(xs.take (k+1)).sum < 2^31 then .ok (acc+xs.sum)
    else .error .overflow := by
  induction xs generalizing acc with
  | nil => simp [accumulate]
  | cons x xs ih =>
    have hall : (∀ k < (x :: xs).length, -2^31 ≤ acc+((x :: xs).take (k+1)).sum ∧ acc+((x :: xs).take (k+1)).sum < 2^31) ↔
        (-2^31 ≤ acc+x ∧ acc+x < 2^31) ∧
          ∀ k < xs.length, -2^31 ≤ acc+x+(xs.take (k+1)).sum ∧ acc+x+(xs.take (k+1)).sum < 2^31 := by
      constructor
      · intro h
        refine ⟨?_, fun k hk => ?_⟩
        · have hzero := h 0 (Nat.succ_pos _)
          simpa using hzero
        · have hnext := h (k+1) (Nat.succ_lt_succ hk)
          rwa [List.take_succ_cons, List.sum_cons, ← add_assoc] at hnext
      · rintro ⟨hzero,hnext⟩ k hk
        rw [List.take_succ_cons, List.sum_cons, ← add_assoc]
        cases k with
        | zero => simpa using hzero
        | succ k => exact hnext k (Nat.lt_of_succ_lt_succ hk)
    rw [accumulate, ih]
    -- the first sum decides, or all that follow do
    by_cases hx : -2^31 ≤ acc+x ∧ acc+x < 2^31
    · rw [if_pos hx, List.sum_cons, ← add_assoc]
      simp only [hall, hx, true_and]
    · rw [if_neg hx]
      simp only [hall, hx, false_and, if_false]

/-- The next interval begins behind the last one, and not behind what is in it. -/
theorem next_interval (hlow : kInterval ∣ low) (hx : ¬ x < low+kInterval) :
    low+kInterval ≤ x.tdiv kInterval*kInterval ∧ x < x.tdiv kInterval*kInterval+kInterval := by
  obtain ⟨k,rfl⟩ := hlow
  have hinterval : kInterval = 5 := rfl
  rw [hinterval] at hx ⊢
  rw [Int.tdiv_eq_ediv]
  split
  · omega
  · have hsign : Int.sign 5 = 1 := rfl
    rw [hsign]
    omega

theorem first_interval (x : ℤ) : kInterval ∣ x.tdiv kInterval*kInterval ∧ (0 ≤ x → x.tdiv kInterval*kInterval ≤ x) := by
  refine ⟨Int.dvd_mul_left _ _, ?_⟩
  intro hx
  have hinterval : kInterval = 5 := rfl
  rw [Int.tdiv_eq_ediv_of_nonneg hx, hinterval]
  omega

/-- The end of the interval of a latency is an `int`, except for the last three of the range. -/
theorem interval_fits (x : ℤ) : x.tdiv kInterval*kInterval+kInterval < 2^31 ↔ x < 2147483645 := by
  have hinterval : kInterval = 5 := rfl
  rw [hinterval, Int.tdiv_eq_ediv]
  split
  · omega
  · have hsign : Int.sign 5 = 1 := rfl
    rw [hsign]
    omega

theorem line_ok {row : PercentileRow} (h : line low count sum = .ok row) : row = ⟨low, count, sum⟩ := by
  unfold line at h
  split at h
  · exact (Except.ok.inj h).symm
  · cases h

theorem line_eq (h : 100*sum < 2^31) : line low count sum = .ok ⟨low, count, sum⟩ := if_pos h

theorem intervals_apart {a b : ℤ} (ha : kInterval ∣ a) (hb : kInterval ∣ b) (hle : a ≤ b) (hne : b ≠ a) :
    a+kInterval ≤ b := by
  obtain ⟨i,rfl⟩ := ha
  obtain ⟨j,rfl⟩ := hb
  have hinterval : kInterval = 5 := rfl
  rw [hinterval] at hle hne ⊢
  omega

/-- The sums run over the counts. -/
def Cumulates : ℕ → List PercentileRow → Prop
  | _, [] => True
  | sum, r :: rows => r.sum = sum+r.count ∧ Cumulates r.sum rows

theorem saveLoop_spec (hlow : kInterval ∣ low) (hsorted : xs.Pairwise (· ≤ ·)) (htotal : total = sum+count+xs.length)
    (hfits : low+kInterval < 2^31) (hxs : ∀ x ∈ xs, x < 2147483645) (hsmall : 100*total < 2^31) :
    ∃ rows, saveLoop total low count sum xs = .ok rows ∧
      (∀ r ∈ rows, low ≤ r.low ∧ r.sum = sum+count+xs.countP (fun x => decide (x < r.low+kInterval))) ∧
      rows.Pairwise (fun r r' => r.low+kInterval ≤ r'.low) ∧ Cumulates sum rows ∧
      ∃ init r, rows = init ++ [r] ∧ r.sum = total := by
  induction xs generalizing low count sum with
  | nil =>
    have htotal : sum+count = total := htotal.symm
    refine ⟨[⟨low, count, sum+count⟩], ?_, ?_, List.pairwise_singleton _ _, ⟨rfl, trivial⟩, [], _, rfl, htotal⟩
    · rw [saveLoop, if_pos htotal, line_eq (by omega)]
      rfl
    intro r hr
    obtain rfl := List.mem_singleton.mp hr
    exact ⟨le_refl _, rfl⟩
  | cons x xs ih =>
    obtain ⟨hx,hrest⟩ := List.pairwise_cons.mp hsorted
    rw [List.length_cons] at htotal
    have hbehind : ∀ y ∈ xs, y < 2147483645 := fun y hy => hxs y (List.mem_cons_of_mem _ hy)
    by_cases hin : x < low+kInterval
    · -- it is counted in the open interval
      obtain ⟨rows,hloop,hrows,hrest⟩ := @ih low (count+1) sum hlow hrest (by omega) hfits hbehind
      refine ⟨rows, by rw [saveLoop, if_pos hfits, if_pos hin, if_pos (by omega), hloop], ?_, hrest⟩
      intro r hr
      obtain ⟨hle,hsum⟩ := hrows r hr
      refine ⟨hle, ?_⟩
      rw [hsum, List.countP_cons_of_pos (by exact decide_eq_true (by omega))]
      omega
    · -- it opens an interval of its own, and a line is written for the last one
      obtain ⟨hnext,hlast⟩ := next_interval hlow hin
      have hnextfits := (interval_fits x).mpr (hxs x List.mem_cons_self)
      obtain ⟨rows,hloop,hrows,hpairwise,hcumulates,init,last,rfl,hsum⟩ :=
        @ih (x.tdiv kInterval*kInterval) 1 (sum+count) (first_interval x).1 hrest (by omega) hnextfits hbehind
      refine ⟨⟨low, count, sum+count⟩ :: (init ++ [last]), ?_, ?_, ?_, ⟨rfl, hcumulates⟩, _ :: init, last, rfl, hsum⟩
      · rw [saveLoop, if_pos hfits, if_neg hin, line_eq (by omega)]
        change (if x.tdiv kInterval*kInterval+kInterval < 2^31 then _ else _) = _
        rw [if_pos hnextfits, if_pos hlast, hloop]
        rfl
      · intro r hr
        rcases List.mem_cons.mp hr with rfl | hr
        · -- the others are behind the end of the interval
          have hnone : (x :: xs).countP (fun y => decide (y < low+kInterval)) = 0 := by
            rw [List.countP_eq_zero]
            intro y hy
            rw [decide_eq_true_iff]
            rcases List.mem_cons.mp hy with rfl | hy
            · exact hin
            · have hxy := hx y hy
              omega
          exact ⟨le_refl _, by rw [hnone, Nat.add_zero]⟩
        · obtain ⟨hle,hrow⟩ := hrows r hr
          have hpos : 0 < kInterval := by decide
          refine ⟨by omega, ?_⟩
          rw [hrow, List.countP_cons_of_pos (by exact decide_eq_true (by omega))]
          omega
      · refine List.pairwise_cons.mpr ⟨?_, hpairwise⟩
        intro r hr
        exact hnext.trans (hrows r hr).1

/-- Where no latency is negative, a line counts those in its interval. -/
theorem saveLoop_counts {rows : List PercentileRow} (hlow : kInterval ∣ low) (hsorted : xs.Pairwise (· ≤ ·))
    (hxs : ∀ x ∈ xs, 0 ≤ x ∧ low ≤ x) (h : saveLoop total low count sum xs = .ok rows) : ∀ r ∈ rows,
      low ≤ r.low ∧ kInterval ∣ r.low ∧
      r.count = (if r.low = low then count else 0)+xs.countP (fun x => decide (r.low ≤ x ∧ x < r.low+kInterval)) := by
  induction xs generalizing low count sum rows with
  | nil =>
    rw [saveLoop] at h
    split at h
    · obtain ⟨row,hrow,rfl⟩ := Runs.map_ok h
      obtain rfl := line_ok hrow
      intro r hr
      obtain rfl := List.mem_singleton.mp hr
      exact ⟨le_refl _, hlow, by rw [if_pos rfl]; rfl⟩
    · cases h
  | cons x xs ih =>
    obtain ⟨hx,hrest⟩ := List.pairwise_cons.mp hsorted
    obtain ⟨hnonneg,hle⟩ := hxs x List.mem_cons_self
    have hbehind : ∀ y ∈ xs, 0 ≤ y ∧ low ≤ y := fun y hy => hxs y (List.mem_cons_of_mem _ hy)
    have hinterval : kInterval = 5 := rfl
    rw [saveLoop] at h
    split at h
    case isFalse => cases h
    case isTrue =>
    by_cases hin : x < low+kInterval
    · rw [if_pos hin] at h
      split at h
      case isFalse => cases h
      case isTrue =>
      intro r hr
      obtain ⟨hlowr,hdvd,hcount⟩ := ih hlow hrest hbehind h r hr
      refine ⟨hlowr, hdvd, ?_⟩
      rw [hcount]
      -- only the line of the open interval counts it
      by_cases hfirst : r.low = low
      · rw [if_pos hfirst, if_pos hfirst, List.countP_cons_of_pos (by exact decide_eq_true (by omega))]
        omega
      · have hapart := intervals_apart hlow hdvd hlowr hfirst
        rw [if_neg hfirst, if_neg hfirst, List.countP_cons_of_neg]
        rw [decide_eq_true_iff]
        omega
    · obtain ⟨hnext,hlast⟩ := next_interval hlow hin
      obtain ⟨hdvd,hfirst⟩ := first_interval x
      have hfirst := hfirst hnonneg
      rw [if_neg hin] at h
      obtain ⟨row,hrow,h⟩ := Runs.bind_ok h
      obtain rfl := line_ok hrow
      dsimp only at h
      rw [if_pos hlast] at h
      split at h
      case isFalse => cases h
      case isTrue =>
      obtain ⟨rows',hloop,hrows⟩ := Runs.bind_ok h
      obtain rfl := Except.ok.inj hrows
      have hbehind' : ∀ y ∈ xs, 0 ≤ y ∧ x.tdiv kInterval*kInterval ≤ y := by
        intro y hy
        have hxy := hx y hy
        exact ⟨(hbehind y hy).1, by omega⟩
      intro r hr
      rcases List.mem_cons.mp hr with rfl | hr
      · refine ⟨le_refl _, hlow, ?_⟩
        have hnone : (x :: xs).countP (fun y => decide (low ≤ y ∧ y < low+kInterval)) = 0 := by
          rw [List.countP_eq_zero]
          intro y hy
          rw [decide_eq_true_iff]
          rcases List.mem_cons.mp hy with rfl | hy
          · exact fun hboth => hin hboth.2
          · have hxy := hx y hy
            omega
        rw [if_pos rfl, hnone, Nat.add_zero]
      · obtain ⟨hlowr,hdvdr,hcount⟩ := ih hdvd hrest hbehind' hloop r hr
        refine ⟨by omega, hdvdr, ?_⟩
        rw [hcount, if_neg (show ¬ r.low = low by omega)]
        by_cases hnextr : r.low = x.tdiv kInterval*kInterval
        · rw [if_pos hnextr, List.countP_cons_of_pos (by exact decide_eq_true (by omega))]
          omega
        · have hapart := intervals_apart hdvd hdvdr hlowr hnextr
          rw [if_neg hnextr, List.countP_cons_of_neg]
          rw [decide_eq_true_iff]
          omega

/-- Where the end of an interval or a hundredfold sum is no `int`, the loop gets there. -/
theorem saveLoop_overflow (hlow : kInterval ∣ low) (htotal : total = sum+count+xs.length)
    (hfits : low+kInterval < 2^31) (h : ¬ ((∀ x ∈ xs, x < 2147483645) ∧ 100*total < 2^31)) :
    saveLoop total low count sum xs = .error .overflow := by
  induction xs generalizing low count sum with
  | nil =>
    have htotal : sum+count = total := htotal.symm
    have hlarge : ¬ 100*(sum+count) < 2^31 := by
      rw [htotal]
      exact fun hsmall => h ⟨fun x hx => (by cases hx), hsmall⟩
    rw [saveLoop, if_pos htotal, line, if_neg hlarge]
    rfl
  | cons x xs ih =>
    rw [List.length_cons] at htotal
    have hrest (hx : x < 2147483645) : ¬ ((∀ y ∈ xs, y < 2147483645) ∧ 100*total < 2^31) :=
      fun hall => h ⟨List.forall_mem_cons.mpr ⟨hx, hall.1⟩, hall.2⟩
    rw [saveLoop, if_pos hfits]
    by_cases hin : x < low+kInterval
    · rw [if_pos hin]
      split
      · -- the largest end of an interval is 2147483645
        have hx : x < 2147483645 := by
          obtain ⟨k,rfl⟩ := hlow
          have hinterval : kInterval = 5 := rfl
          rw [hinterval] at hin hfits
          omega
        exact ih hlow (by omega) hfits (hrest hx)
      · rfl
    · rw [if_neg hin]
      by_cases hsmall : 100*(sum+count) < 2^31
      · rw [line_eq hsmall]
        change (if x.tdiv kInterval*kInterval+kInterval < 2^31 then _ else _) = _
        split
        case isFalse => rfl
        case isTrue hnext =>
          have hloop := @ih (x.tdiv kInterval*kInterval) 1 (sum+count) (first_interval x).1 (by omega) hnext
            (hrest ((interval_fits x).mp hnext))
          rw [if_pos (next_interval hlow hin).2, hloop]
          rfl
      · rw [line, if_neg hsmall]
        rfl

/-- The nearest rank: at least so many of a hundred are not greater, and fewer are less. -/
structure NearestRank (percent : ℕ) (l : List ℤ) (v : ℤ) : Prop where
  mem : v ∈ l
  reached : percent*l.length ≤ 100*l.countP (fun x => decide (x ≤ v))
  least : 100*l.countP (fun x => decide (x < v)) < percent*l.length

theorem NearestRank.perm {percent : ℕ} {l l' : List ℤ} {v : ℤ} (h : NearestRank percent l v) (hl : l.Perm l') :
    NearestRank percent l' v := by
  refine ⟨hl.mem_iff.mp h.mem, ?_, ?_⟩
  · rw [← hl.length_eq, ← hl.countP_eq]
    exact h.reached
  · rw [← hl.length_eq, ← hl.countP_eq]
    exact h.least

theorem getPercentile_ok {percent : ℕ} {l : List ℤ} (hl : l.Pairwise (· ≤ ·)) (hne : l ≠ []) (hpos : 0 < percent)
    (hle : percent ≤ 100) : ∃ v, getPercentile l percent = .ok v ∧ NearestRank percent l v := by
  have hlen := List.length_pos_iff.mpr hne
  have hproduct : 0 < l.length*percent := Nat.mul_pos hlen hpos
  have hbound : l.length*percent ≤ l.length*100 := Nat.mul_le_mul_left _ hle
  have hindex : (l.length*percent+99)/100-1 < l.length := by omega
  have hreached := Ranks.lt_countP_le hl hindex
  have hleast := Ranks.countP_lt_le hl hindex
  refine ⟨l[(l.length*percent+99)/100-1], ?_, List.getElem_mem hindex, ?_, ?_⟩
  · rw [getPercentile, if_pos hpos, List.getElem?_eq_getElem hindex]
  · rw [Nat.mul_comm percent]
    omega
  · rw [Nat.mul_comm percent]
    omega

/-- A mean that is rounded towards zero is between the bounds. -/
theorem tdiv_between {low high sum : ℤ} {n : ℕ} (hn : 0 < n) (hlow : n*low ≤ sum) (hhigh : sum ≤ n*high) :
    low ≤ sum.tdiv n ∧ sum.tdiv n ≤ high := by
  have hpos : (0 : ℤ) < n := Int.natCast_pos.mpr hn
  have hfloor : low ≤ sum/n := (Int.le_ediv_iff_mul_le hpos).mpr (by rwa [mul_comm] at hlow)
  rw [Int.tdiv_eq_ediv]
  split
  · refine ⟨by omega, ?_⟩
    have hceil : sum/n ≤ high := Int.ediv_le_of_le_mul hpos (by rwa [mul_comm] at hhigh)
    omega
  case isFalse hround =>
    rw [not_or] at hround
    have hne : sum ≠ n*high := fun heq => hround.2 (heq ▸ Int.dvd_mul_right _ _)
    have hceil : sum/n < high := Int.ediv_lt_of_lt_mul hpos (by rw [mul_comm]; omega)
    rw [Int.sign_eq_one_of_pos hpos]
    omega

theorem sum_between {l : List ℤ} {low high : ℤ} (h : ∀ x ∈ l, low ≤ x ∧ x ≤ high) :
    l.length*low ≤ l.sum ∧ l.sum ≤ l.length*high := by
  have hlow := List.card_nsmul_le_sum l low (fun x hx => (h x hx).1)
  have hhigh := List.sum_le_card_nsmul l high (fun x hx => (h x hx).2)
  rw [nsmul_eq_mul] at hlow hhigh
  exact ⟨hlow, hhigh⟩

/-- The statistics are those of the latencies. -/
structure Describes (st : PercentileStats) (l : List ℤ) : Prop where
  min : st.min ∈ l ∧ ∀ x ∈ l, st.min ≤ x
  max : st.max ∈ l ∧ ∀ x ∈ l, x ≤ st.max
  mean : st.mean = l.sum.tdiv l.length ∧ st.min ≤ st.mean ∧ st.mean ≤ st.max
  median : NearestRank 50 l st.median
  p90 : NearestRank 90 l st.p90
  p99 : NearestRank 99 l st.p99

/-- The lines of the file tell how the latencies are distributed. -/
structure Histogram (rows : List PercentileRow) (l : List ℤ) : Prop where
  apart : rows.Pairwise (fun r r' => r.low+kInterval ≤ r'.low)
  sums : ∀ r ∈ rows, r.sum = l.countP (fun x => decide (x < r.low+kInterval))
  cumulates : Cumulates 0 rows
  total : ∃ init r, rows = init ++ [r] ∧ r.sum = l.length
  counts : (∀ x ∈ l, 0 ≤ x) → ∀ r ∈ rows, r.count = l.countP (fun x => decide (r.low ≤ x ∧ x < r.low+kInterval))

/-- What `save` can write: no interval and no hundredfold sum leaves the range of `int`. -/
def Savable (l : List ℤ) : Prop := (∀ x ∈ l, x < 2147483645) ∧ 100*l.length < 2^31

instance (l : List ℤ) : Decidable (Savable l) := inferInstanceAs (Decidable (_ ∧ _))

theorem save_ok {p : Percentile} (hsorted : p.latencies.Pairwise (· ≤ ·)) (hne : p.latencies ≠ [])
    (hsavable : Savable p.latencies) : ∃ rows, p.save true = .ok rows ∧ Histogram rows p.latencies := by
  obtain ⟨x,xs,hl⟩ := List.exists_cons_of_ne_nil hne
  rw [hl] at hsorted hsavable ⊢
  obtain ⟨hdvd,hfirst⟩ := first_interval x
  obtain ⟨rows,hloop,hrows,hapart,hcumulates,htotal⟩ :=
    @saveLoop_spec (x :: xs) (x.tdiv kInterval*kInterval) (xs.length+1) 0 0 hdvd hsorted
      (by rw [List.length_cons, Nat.zero_add]) ((interval_fits x).mpr (hsavable.1 x List.mem_cons_self))
      hsavable.1 hsavable.2
  refine ⟨rows, by rw [save, hl]; exact hloop, hapart, ?_, hcumulates, htotal, ?_⟩
  · intro r hr
    rw [(hrows r hr).2, Nat.zero_add]
  · intro hnonneg r hr
    have hfrom : ∀ y ∈ x :: xs, 0 ≤ y ∧ x.tdiv kInterval*kInterval ≤ y := by
      intro y hy
      refine ⟨hnonneg y hy, (hfirst (hnonneg x List.mem_cons_self)).trans ?_⟩
      rcases List.mem_cons.mp hy with rfl | hy
      · exact le_refl _
      · exact (List.pairwise_cons.mp hsorted).1 y hy
    rw [(saveLoop_counts hdvd hsorted hfrom hloop r hr).2.2]
    split <;> omega

theorem save_overflow {p : Percentile} (hne : p.latencies ≠ []) (hsavable : ¬ Savable p.latencies) :
    p.save true = .error .overflow := by
  obtain ⟨x,xs,hl⟩ := List.exists_cons_of_ne_nil hne
  rw [hl] at hsavable
  rw [save, hl]
  dsimp only
  rw [if_pos rfl]
  by_cases hfits : x.tdiv kInterval*kInterval+kInterval < 2^31
  · exact saveLoop_overflow (first_interval x).1 (by rw [List.length_cons, Nat.zero_add]) hfits hsavable
  · rw [saveLoop, if_neg hfits]

/-- The sums that `std::accumulate` forms are numbers of type `int`. -/
def SumsFit (l : List ℤ) : Prop := ∀ k < l.length, -2^31 ≤ (l.take (k+1)).sum ∧ (l.take (k+1)).sum < 2^31

/-- What the constructor does with some latencies. -/
theorem new_of_sorted {latencies l : List ℤ} {infly : ℕ} (hl : latencies.mergeSort = l) (hsorted : l.Pairwise (· ≤ ·))
    (hne : l ≠ []) (hlen : l.length < 2^31) :
    (SumsFit l → ∃ st, new latencies infly = .ok ⟨l, infly, some st⟩ ∧ Describes st l) ∧
    (¬ SumsFit l → new latencies infly = .error .overflow) := by
  have hpos := List.length_pos_iff.mpr hne
  have hmin : l.head? = some (l.head hne) := List.head?_eq_some_head hne
  have hmax : l.getLast? = some (l.getLast hne) := List.getLast?_eq_some_getLast hne
  have hnew : new latencies infly = (do
      let sum ← accumulate 0 l
      let mean := sum.tdiv (Int.bmod l.length (2^32))
      let median ← getPercentile l 50
      let p90 ← getPercentile l 90
      let p99 ← getPercentile l 99
      return ⟨l, infly, some ⟨l.head hne, l.getLast hne, mean, median, p90, p99⟩⟩) := by
    rw [new, hl]
    dsimp only
    rw [hmin, hmax]
  have hsum := @accumulate_eq l 0
  simp only [zero_add] at hsum
  refine ⟨?_, ?_⟩
  case refine_2 =>
    intro hfit
    unfold SumsFit at hfit
    rw [hnew, hsum, if_neg hfit]
    rfl
  case refine_1 =>
    intro hfit
    unfold SumsFit at hfit
    rw [hnew, hsum, if_pos hfit]
    obtain ⟨median,hmedian,hrank50⟩ := getPercentile_ok hsorted hne (show 0 < 50 by decide) (by decide)
    obtain ⟨p90,hp90,hrank90⟩ := getPercentile_ok hsorted hne (show 0 < 90 by decide) (by decide)
    obtain ⟨p99,hp99,hrank99⟩ := getPercentile_ok hsorted hne (show 0 < 99 by decide) (by decide)
    obtain ⟨hmem,hle⟩ := Ranks.head_le hsorted hmin
    obtain ⟨hmem',hge⟩ := Ranks.le_getLast hsorted hmax
    have hint : Int.bmod l.length (2^32) = l.length := by
      rw [Int.bmod]
      omega
    obtain ⟨hlow,hhigh⟩ := sum_between (fun x hx => ⟨hle x hx, hge x hx⟩)
    refine ⟨⟨l.head hne, l.getLast hne, l.sum.tdiv l.length, median, p90, p99⟩, ?_, ⟨hmem, hle⟩, ⟨hmem', hge⟩,
      ⟨rfl, tdiv_between hpos hlow hhigh⟩, hrank50, hrank90, hrank99⟩
    rw [hint, hmedian, hp90, hp99]
    rfl

theorem Describes.perm {st : PercentileStats} {l l' : List ℤ} (h : Describes st l) (hl : l.Perm l') : Describes st l' := by
  refine ⟨⟨hl.mem_iff.mp h.min.1, fun x hx => h.min.2 x (hl.mem_iff.mpr hx)⟩,
    ⟨hl.mem_iff.mp h.max.1, fun x hx => h.max.2 x (hl.mem_iff.mpr hx)⟩, ?_, h.median.perm hl, h.p90.perm hl, h.p99.perm hl⟩
  rw [← hl.sum_eq, ← hl.length_eq]
  exact h.mean

theorem Histogram.perm {rows : List PercentileRow} {l l' : List ℤ} (h : Histogram rows l) (hl : l.Perm l') :
    Histogram rows l' := by
  obtain ⟨init,r,hrows,hsum⟩ := h.total
  refine ⟨h.apart, ?_, h.cumulates, ⟨init, r, hrows, hsum.trans hl.length_eq⟩, ?_⟩
  · intro r hr
    rw [h.sums r hr, hl.countP_eq]
  · intro hnonneg r hr
    rw [h.counts (fun x hx => hnonneg x (hl.mem_iff.mp hx)) r hr, hl.countP_eq]

theorem Savable.perm {l l' : List ℤ} (hl : l.Perm l') : Savable l ↔ Savable l' := by
  rw [Savable, Savable, hl.length_eq]
  exact and_congr_left' ⟨fun h x hx => h x (hl.mem_iff.mpr hx), fun h x hx => h x (hl.mem_iff.mp hx)⟩

theorem sorted_mergeSort (l : List ℤ) : l.mergeSort.Pairwise (· ≤ ·) := by
  have hpairwise := @List.pairwise_mergeSort ℤ (fun a b => decide (a ≤ b))
    (fun a b c hab hbc => decide_eq_true ((of_decide_eq_true hab).trans (of_decide_eq_true hbc)))
    (fun a b => by simp [le_total]) l
  exact hpairwise.imp (fun h => of_decide_eq_true h)

theorem new_nil (infly : ℕ) : new [] infly = .ok ⟨[], infly, none⟩ := by
  rw [new, List.mergeSort_nil]
  rfl

theorem new_ok {latencies : List ℤ} (infly : ℕ) (hne : latencies ≠ []) (hlen : latencies.length < 2^31)
    (hsums : SumsFit latencies.mergeSort) :
    ∃ st, new latencies infly = .ok ⟨latencies.mergeSort, infly, some st⟩ ∧ Describes st latencies := by
  have hperm := List.mergeSort_perm latencies (fun a b => decide (a ≤ b))
  have hne' : latencies.mergeSort ≠ [] := fun hnil => hne (hnil ▸ hperm).nil_eq.symm
  have hlength : latencies.mergeSort.length = latencies.length := hperm.length_eq
  obtain ⟨st,hnew,hst⟩ :=
    (@new_of_sorted latencies _ infly rfl (sorted_mergeSort _) hne' (hlength ▸ hlen)).1 hsums
  exact ⟨st, hnew, hst.perm hperm⟩

theorem new_overflow {latencies : List ℤ} (infly : ℕ) (hne : latencies ≠ []) (hlen : latencies.length < 2^31)
    (hsums : ¬ SumsFit latencies.mergeSort) : new latencies infly = .error .overflow := by
  have hperm := List.mergeSort_perm latencies (fun a b => decide (a ≤ b))
  have hne' : latencies.mergeSort ≠ [] := fun hnil => hne (hnil ▸ hperm).nil_eq.symm
  have hlength : latencies.mergeSort.length = latencies.length := hperm.length_eq
  exact (@new_of_sorted latencies _ infly rfl (sorted_mergeSort _) hne' (hlength ▸ hlen)).2 hsums

/-- A `Percentile` with the latencies in order saves their histogram. -/
theorem save_mergeSort {latencies : List ℤ} (infly : ℕ) (stats : Option PercentileStats) (hne : latencies ≠ []) :
    if Savable latencies then
      ∃ rows, (⟨latencies.mergeSort, infly, stats⟩ : Percentile).save true = .ok rows ∧ Histogram rows latencies
    else (⟨latencies.mergeSort, infly, stats⟩ : Percentile).save true = .error .overflow := by
  have hperm := List.mergeSort_perm latencies (fun a b => decide (a ≤ b))
  have hne' : latencies.mergeSort ≠ [] := fun hnil => hne (hnil ▸ hperm).nil_eq.symm
  split
  case isTrue hsavable =>
    obtain ⟨rows,hsave,hrows⟩ := @save_ok ⟨latencies.mergeSort, infly, stats⟩ (sorted_mergeSort _) hne'
      ((Savable.perm hperm).mpr hsavable)
    exact ⟨rows, hsave, hrows.perm hperm⟩
  case isFalse hsavable =>
    exact @save_overflow ⟨latencies.mergeSort, infly, stats⟩ hne' (fun h => hsavable ((Savable.perm hperm).mp h))

end Percentile

/-- Without latencies their number and that of the requests in flight are reported, and nothing is saved. Otherwise
the sums of the sorted latencies have to stay in the range of an `int`; then the percentiles are nearest ranks and
the mean is between the extremes. Where the file can be opened, `save` overflows exactly where the end of an
interval or a hundredfold sum is no `int`; else no assertion fails, and the lines count all latencies. -/
theorem percentile_report (latencies : List ℤ) (infly : ℕ) (hlen : latencies.length < 2^31) :
    if latencies = [] then
      ∃ p, Percentile.new latencies infly = .ok p ∧ p.report = ascii "recv      0 in-fly " ++ decimalText infly ∧
        ∀ opens, p.save opens = .ok []
    else if ∀ k < latencies.length, -2^31 ≤ (latencies.mergeSort.take (k+1)).sum ∧
        (latencies.mergeSort.take (k+1)).sum < 2^31 then
      ∃ p st, Percentile.new latencies infly = .ok p ∧ p.infly = infly ∧ p.stats = some st ∧
        Percentile.Describes st latencies ∧
        if (∀ x ∈ latencies, x < 2147483645) ∧ 100*latencies.length < 2^31 then
          ∃ rows, p.save true = .ok rows ∧ Percentile.Histogram rows latencies
        else p.save true = .error .overflow
    else Percentile.new latencies infly = .error .overflow := by
  split
  case isTrue hnil =>
    rw [hnil, Percentile.new_nil]
    refine ⟨_, rfl, ?_, fun _ => rfl⟩
    have hzero : spacePadded 6 ((([] : List ℤ).length : ℕ) : ℤ) = ascii "     0" := by decide
    rw [Percentile.report]
    dsimp only
    rw [hzero, List.append_nil]
    rfl
  case isFalse hne =>
    have hlength : latencies.mergeSort.length = latencies.length :=
      (List.mergeSort_perm latencies (fun a b => decide (a ≤ b))).length_eq
    split
    case isTrue hsums =>
      rw [← hlength] at hsums
      obtain ⟨st,hnew,hst⟩ := Percentile.new_ok infly hne hlen hsums
      exact ⟨_, st, hnew, rfl, rfl, hst, Percentile.save_mergeSort infly (some st) hne⟩
    case isFalse hsums =>
      rw [← hlength] at hsums
      exact Percentile.new_overflow infly hne hlen hsums

/-- Four latencies, and two requests that are still in flight. -/
theorem percentile_report_four : ∃ p st, Percentile.new [7, 3, 12, 3] 2 = .ok p ∧ p.infly = 2 ∧ p.stats = some st ∧
    Percentile.Describes st [7, 3, 12, 3] ∧
    ∃ rows, p.save true = .ok rows ∧ Percentile.Histogram rows [7, 3, 12, 3] := by
  have hreport := percentile_report [7, 3, 12, 3] 2 (by decide)
  have hsorted : [7, 3, 12, (3 : ℤ)].mergeSort = [3, 3, 7, 12] := by
    simp [List.mergeSort, List.MergeSort.Internal.splitInTwo]
  rw [if_neg (by decide), hsorted, if_pos (by decide)] at hreport
  obtain ⟨p,st,hnew,hinfly,hstats,hst,hsave⟩ := hreport
  rw [if_pos (by decide)] at hsave
  exact ⟨p, st, hnew, hinfly, hstats, hst, hsave⟩

end IdealServer
