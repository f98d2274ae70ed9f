import IdealServer.ByteOrder
import IdealServer.LocalTime
import IdealServer.Runs

/-! `readTimeZoneFile`: a table that is filled while a file is read, and what is left of it where reading
ends early. -/
namespace IdealServer

/-- What a part of the reading does to a state: it is undefined, it throws a `logic_error` (no result), or it
returns. -/
def Load (σ α : Type) : Type := σ → Except Fault (σ × Option α)

namespace Load
variable {σ α β : Type}

protected def bind (x : Load σ α) (f : α → Load σ β) : Load σ β := fun s =>
  match x s with
  | .error e => .error e
  | .ok (s', none) => .ok (s', none)
  | .ok (s', some a) => f a s'

instance : Monad (Load σ) where
  pure := fun a s => .ok (s, some a)
  bind := Load.bind

/-- Throws where the condition fails. -/
def require (p : Prop) [Decidable p] : Load σ Unit := fun s => .ok (s, if p then some () else none)

def lift (x : Except Fault α) : Load σ α := fun s => x.map (fun a => (s, some a))

def update (f : σ → σ) : Load σ Unit := fun s => .ok (f s, some ())

/-- `k` results in a vector. -/
def repeated (x : Load σ α) : ℕ → Load σ (List α)
  | 0 => pure []
  | k+1 => do
    let a ← x
    let as ← repeated x k
    return a :: as

end Load

/-- Where in the file it is, and the table so far. -/
structure FileState where
  pos : ℕ
  data : TimeZone.Data
deriving DecidableEq, Repr

/-- The four bytes in network order. -/
def int32At (bytes : Bytes) (i : ℕ) : ℤ :=
  (BitVec.ofNat 32 (ByteOrder.ofBE ((bytes.drop i).take 4))).toInt

def uint8At (bytes : Bytes) (i : ℕ) : ℕ := (bytes.getD i 0).toNat

namespace File
variable (bytes : Bytes)

/-- The array on the stack has no negative length; that a long one finds space there is not checked. -/
def readBytes (n : ℤ) : Load FileState Bytes := fun s =>
  if n < 0 then .error .outOfBounds
  else if s.pos+n.toNat ≤ bytes.length then
    .ok ({ s with pos := s.pos+n.toNat }, some ((bytes.drop s.pos).take n.toNat))
  else .ok ({ s with pos := bytes.length }, none)

def readInt32 : Load FileState ℤ := fun s =>
  if s.pos+4 ≤ bytes.length then .ok ({ s with pos := s.pos+4 }, some (int32At bytes s.pos))
  else .ok ({ s with pos := bytes.length }, none)

def readUint8 : Load FileState ℕ := fun s =>
  if s.pos+1 ≤ bytes.length then .ok ({ s with pos := s.pos+1 }, some (uint8At bytes s.pos))
  else .ok ({ s with pos := bytes.length }, none)

/-- The loop over the types. -/
def readTypes : ℕ → Load FileState Unit
  | 0 => pure ()
  | k+1 => do
    let gmtoff ← readInt32 bytes
    let isdst ← readUint8 bytes
    let abbrind ← readUint8 bytes
    Load.update (fun s => { s with data :=
      { s.data with localtimes := s.data.localtimes ++ [⟨gmtoff, decide (isdst ≠ 0), abbrind⟩] } })
    readTypes k

/-- The loop over the transitions, for the indices `is`. -/
def pushTransitions (trans : List ℤ) (localtimes : List ℕ) : List ℕ → Load FileState Unit
  | [] => pure ()
  | i :: is => do
    let localIdx ← Load.lift (element localtimes i)
    let gmttime ← Load.lift (element trans i)
    let localType ← fun s => (element s.data.localtimes localIdx).map (fun a => (s, some a))
    Load.update (fun s => { s with data := { s.data with
      transitions := s.data.transitions ++ [⟨gmttime, gmttime+localType.gmtOffset, localIdx⟩] } })
    pushTransitions trans localtimes is

/-- The counts that are used of those in the header. -/
structure Counts where
  timecnt : ℤ
  typecnt : ℤ
  charcnt : ℤ
deriving DecidableEq, Repr

/-- The first half of what is tried. -/
def readHeader : Load FileState Counts := do
  let header ← readBytes bytes 4
  Load.require (header = ascii "TZif")
  let _version ← readBytes bytes 1
  let _ ← readBytes bytes 15
  let _isgmtcnt ← readInt32 bytes
  let _isstdcnt ← readInt32 bytes
  let _leapcnt ← readInt32 bytes
  let timecnt ← readInt32 bytes
  let typecnt ← readInt32 bytes
  let charcnt ← readInt32 bytes
  return { timecnt := timecnt, typecnt := typecnt, charcnt := charcnt }

/-- The second half; `reserve` throws a `length_error`, which is a `logic_error`, for a negative count. -/
def readTable (timecnt typecnt charcnt : ℤ) : Load FileState Unit := do
  Load.require (0 ≤ timecnt)
  let trans ← Load.repeated (readInt32 bytes) timecnt.toNat
  let localtimes ← Load.repeated (readUint8 bytes) timecnt.toNat
  readTypes bytes typecnt.toNat
  pushTransitions trans localtimes (List.range timecnt.toNat)
  let abbreviation ← readBytes bytes charcnt
  Load.update (fun s => { s with data := { s.data with abbreviation := abbreviation } })

def readZone : Load FileState Unit := do
  let counts ← readHeader bytes
  readTable bytes counts.timecnt counts.typecnt counts.charcnt

end File

/-- The file, if it can be opened. Whatever is thrown is caught, and the result is `true`. -/
def readTimeZoneFile (zonefile : Option Bytes) (data : TimeZone.Data) :
    Except Fault (Bool × TimeZone.Data) :=
  match zonefile with
  | none => .ok (true, data)
  | some bytes => (File.readZone bytes ⟨0, data⟩).map (fun r => (true, r.1.data))

namespace TimeZone

def Data.empty : Data := ⟨[], [], []⟩

/-- The constructor for a file. -/
def ofFile (zonefile : Option Bytes) : Except Fault TimeZone :=
  (readTimeZoneFile zonefile .empty).map (fun r => if r.1 then ⟨some r.2⟩ else ⟨none⟩)

end TimeZone

namespace Load
variable {σ α β : Type}

theorem bind_returns_iff {x : Load σ α} {f : α → Load σ β} {s s2 : σ} {b : β} :
    (x >>= f) s = .ok (s2, some b) ↔ ∃ s1 a, x s = .ok (s1, some a) ∧ f a s1 = .ok (s2, some b) := by
  show Load.bind x f s = _ ↔ _
  rw [Load.bind]
  constructor
  · intro h
    split at h
    · cases h
    · cases h
    · exact ⟨_, _, by assumption, h⟩
  · intro ⟨s1,a,hx,hf⟩
    rw [hx]
    exact hf

theorem pure_returns_iff {s s1 : σ} {a b : α} :
    (pure a : Load σ α) s = .ok (s1, some b) ↔ s1 = s ∧ b = a := by
  show (Except.ok (s, some a) : Except Fault (σ × Option α)) = .ok (s1, some b) ↔ _
  simp only [Except.ok.injEq, Prod.mk.injEq, Option.some.injEq, eq_comm]

theorem require_returns_iff {p : Prop} [Decidable p] {s s1 : σ} {u : Unit} :
    (require p : Load σ Unit) s = .ok (s1, some u) ↔ s1 = s ∧ p := by
  rw [require]
  by_cases h : p
  · simp only [h, if_true, Except.ok.injEq, Prod.mk.injEq, and_true, eq_comm]
  · simp only [h, if_false, Except.ok.injEq, Prod.mk.injEq, reduceCtorEq, and_false]

theorem update_returns_iff {f : σ → σ} {s s1 : σ} {u : Unit} :
    update f s = .ok (s1, some u) ↔ s1 = f s := by
  simp only [update, Except.ok.injEq, Prod.mk.injEq, and_true, eq_comm]

/-- A field of the state that is kept, whether the reading returns or throws. -/
def Keeps {γ : Type} (g : σ → γ) (x : Load σ α) : Prop := ∀ s s' r, x s = .ok (s', r) → g s' = g s

theorem keeps_bind {γ : Type} {g : σ → γ} {x : Load σ α} {f : α → Load σ β} (hx : Keeps g x)
    (hf : ∀ a, Keeps g (f a)) : Keeps g (x >>= f) := by
  intro s s' r h
  have h : Load.bind x f s = .ok (s', r) := h
  rw [Load.bind] at h
  split at h
  · cases h
  · next s1 hthrown =>
    obtain ⟨rfl,_⟩ := Prod.mk.inj (Except.ok.inj h)
    exact hx s s1 none hthrown
  · next s1 a hreturned => exact (hf a s1 s' r h).trans (hx s s1 (some a) hreturned)

/-- A field of the state that is kept where the reading throws. -/
def Silent {γ : Type} (g : σ → γ) (x : Load σ α) : Prop := ∀ s s', x s = .ok (s', none) → g s' = g s

theorem silent_bind {γ : Type} {g : σ → γ} {x : Load σ α} {f : α → Load σ β} (hx : Keeps g x)
    (hf : ∀ a, Silent g (f a)) : Silent g (x >>= f) := by
  intro s s' h
  have h : Load.bind x f s = .ok (s', none) := h
  rw [Load.bind] at h
  split at h
  · cases h
  · next s1 hthrown =>
    obtain ⟨rfl,_⟩ := Prod.mk.inj (Except.ok.inj h)
    exact hx s s1 none hthrown
  · next s1 a hreturned => exact (hf a s1 s' h).trans (hx s s1 (some a) hreturned)

theorem keeps_require {γ : Type} {g : σ → γ} {p : Prop} [Decidable p] :
    Keeps g (require p : Load σ Unit) := by
  intro s s' r h
  obtain ⟨rfl,_⟩ := Prod.mk.inj (Except.ok.inj h)
  rfl

theorem keeps_update {γ : Type} {g : σ → γ} {f : σ → σ} (hf : ∀ s, g (f s) = g s) :
    Keeps g (update f) := by
  intro s s' r h
  obtain ⟨rfl,_⟩ := Prod.mk.inj (Except.ok.inj h)
  exact hf s

theorem keeps_map {γ : Type} {g : σ → γ} {x : σ → Except Fault α} :
    Keeps g (fun s => (x s).map (fun a => (s, some a))) := by
  intro s s' r h
  dsimp only at h
  cases hx : x s with
  | error e =>
    rw [hx] at h
    cases h
  | ok a =>
    rw [hx] at h
    obtain ⟨rfl,_⟩ := Prod.mk.inj (Except.ok.inj h)
    rfl

theorem keeps_pure {γ : Type} {g : σ → γ} (a : α) : Keeps g (pure a : Load σ α) := by
  intro s s' r h
  obtain ⟨rfl,_⟩ := Prod.mk.inj (Except.ok.inj h)
  rfl

theorem keeps_repeated {γ : Type} {g : σ → γ} {x : Load σ α} (hx : Keeps g x) (k : ℕ) :
    Keeps g (repeated x k) := by
  induction k with
  | zero => exact keeps_pure []
  | succ k ih =>
    apply keeps_bind hx
    intro a
    apply keeps_bind ih
    intro as
    exact keeps_pure (a :: as)

end Load

namespace File
variable {bytes : Bytes}

theorem readBytes_returns_iff {n : ℤ} {s s1 : FileState} {b : Bytes} :
    readBytes bytes n s = .ok (s1, some b) ↔ 0 ≤ n ∧ s.pos+n.toNat ≤ bytes.length ∧
      s1 = { s with pos := s.pos+n.toNat } ∧ b = (bytes.drop s.pos).take n.toNat := by
  rw [readBytes]
  by_cases hneg : n < 0
  · rw [if_pos hneg]
    exact ⟨fun h => (nomatch h), fun h => absurd h.1 (by omega)⟩
  · rw [if_neg hneg]
    by_cases hlen : s.pos+n.toNat ≤ bytes.length
    · rw [if_pos hlen]
      simp only [Except.ok.injEq, Prod.mk.injEq, Option.some.injEq, hlen, true_and, eq_comm]
      exact ⟨fun h => ⟨by omega, h⟩, fun h => h.2⟩
    · rw [if_neg hlen]
      exact ⟨fun h => absurd (congrArg Prod.snd (Except.ok.inj h)) (fun he => nomatch he),
        fun h => absurd h.2.1 hlen⟩

theorem readInt32_returns_iff {s s1 : FileState} {x : ℤ} :
    readInt32 bytes s = .ok (s1, some x) ↔ s.pos+4 ≤ bytes.length ∧
      s1 = { s with pos := s.pos+4 } ∧ x = int32At bytes s.pos := by
  rw [readInt32]
  by_cases hlen : s.pos+4 ≤ bytes.length
  · rw [if_pos hlen]
    simp only [Except.ok.injEq, Prod.mk.injEq, Option.some.injEq, hlen, true_and, eq_comm]
  · rw [if_neg hlen]
    exact ⟨fun h => absurd (congrArg Prod.snd (Except.ok.inj h)) (fun he => nomatch he),
      fun h => absurd h.1 hlen⟩

theorem readUint8_returns_iff {s s1 : FileState} {x : ℕ} :
    readUint8 bytes s = .ok (s1, some x) ↔ s.pos+1 ≤ bytes.length ∧
      s1 = { s with pos := s.pos+1 } ∧ x = uint8At bytes s.pos := by
  rw [readUint8]
  by_cases hlen : s.pos+1 ≤ bytes.length
  · rw [if_pos hlen]
    simp only [Except.ok.injEq, Prod.mk.injEq, Option.some.injEq, hlen, true_and, eq_comm]
  · rw [if_neg hlen]
    exact ⟨fun h => absurd (congrArg Prod.snd (Except.ok.inj h)) (fun he => nomatch he),
      fun h => absurd h.1 hlen⟩

/-- Steps of `w` from `p` on. -/
theorem map_range_succ {α : Type} (g : ℕ → α) (p w k : ℕ) :
    (List.range (k+1)).map (fun i => g (p+w*i)) =
      g p :: (List.range k).map (fun i => g (p+w+w*i)) := by
  rw [List.range_succ_eq_map, List.map_cons, List.map_map]
  congr 1
  apply List.map_congr_left
  intro i _
  show g (p+w*(i+1)) = _
  rw [Nat.mul_succ, Nat.add_comm (w*i), Nat.add_assoc]

/-- A read of `w` bytes, repeated. -/
theorem repeated_returns_iff {α : Type} {x : Load FileState α} {w : ℕ} {g : ℕ → α}
    (hx : ∀ s s1 a, x s = .ok (s1, some a) ↔ s.pos+w ≤ bytes.length ∧
      s1 = { s with pos := s.pos+w } ∧ a = g s.pos) {k : ℕ} {s s1 : FileState} {as : List α}
    (hs : s.pos ≤ bytes.length) :
    Load.repeated x k s = .ok (s1, some as) ↔ s.pos+w*k ≤ bytes.length ∧
      s1 = { s with pos := s.pos+w*k } ∧ as = (List.range k).map (fun i => g (s.pos+w*i)) := by
  induction k generalizing s s1 as with
  | zero =>
    rw [Load.repeated, Load.pure_returns_iff]
    exact ⟨fun h => ⟨hs, h⟩, fun h => h.2⟩
  | succ k ih =>
    have hpos : s.pos+w*(k+1) = s.pos+w+w*k := by
      rw [Nat.mul_succ, Nat.add_comm (w*k), Nat.add_assoc]
    rw [Load.repeated, Load.bind_returns_iff, map_range_succ, hpos]
    constructor
    · intro ⟨s2,a,hone,hrest⟩
      obtain ⟨s3,as',hmany,hdone⟩ := Load.bind_returns_iff.mp hrest
      obtain ⟨hfits,rfl,rfl⟩ := (hx _ _ _).mp hone
      obtain ⟨hall,rfl,rfl⟩ := (ih (s := { s with pos := s.pos+w }) hfits).mp hmany
      obtain ⟨rfl,rfl⟩ := Load.pure_returns_iff.mp hdone
      exact ⟨hall, rfl, rfl⟩
    · intro ⟨hall,hs1,has⟩
      have hfits : s.pos+w ≤ bytes.length := by omega
      refine ⟨_, _, (hx _ _ _).mpr ⟨hfits, rfl, rfl⟩, Load.bind_returns_iff.mpr ⟨_, _,
        (ih (s := { s with pos := s.pos+w }) hfits).mpr ⟨hall, rfl, rfl⟩, ?_⟩⟩
      exact Load.pure_returns_iff.mpr ⟨hs1, has⟩

/-- The six bytes of a type. -/
def typeAt (bytes : Bytes) (i : ℕ) : Localtime :=
  ⟨int32At bytes i, decide (uint8At bytes (i+4) ≠ 0), uint8At bytes (i+5)⟩

theorem readTypes_returns_iff {k : ℕ} {s s1 : FileState} {u : Unit} (hs : s.pos ≤ bytes.length) :
    readTypes bytes k s = .ok (s1, some u) ↔ s.pos+6*k ≤ bytes.length ∧
      s1 = { pos := s.pos+6*k, data := { s.data with
        localtimes := s.data.localtimes ++ (List.range k).map (fun i => typeAt bytes (s.pos+6*i)) } } := by
  induction k generalizing s s1 with
  | zero =>
    rw [readTypes, Load.pure_returns_iff, List.range_zero, List.map_nil, List.append_nil]
    exact ⟨fun h => ⟨hs, h.1⟩, fun h => ⟨h.2, rfl⟩⟩
  | succ k ih =>
    have hpos : s.pos+6*(k+1) = s.pos+6+6*k := by omega
    rw [readTypes, map_range_succ, hpos]
    constructor
    · intro h
      obtain ⟨s2,gmtoff,hgmtoff,h⟩ := Load.bind_returns_iff.mp h
      obtain ⟨s3,isdst,hisdst,h⟩ := Load.bind_returns_iff.mp h
      obtain ⟨s4,abbrind,habbrind,h⟩ := Load.bind_returns_iff.mp h
      obtain ⟨s5,_,hpush,h⟩ := Load.bind_returns_iff.mp h
      obtain ⟨_,rfl,hx⟩ := readInt32_returns_iff.mp hgmtoff
      obtain ⟨_,rfl,hy⟩ := readUint8_returns_iff.mp hisdst
      obtain ⟨hfits,rfl,hz⟩ := readUint8_returns_iff.mp habbrind
      rw [Load.update_returns_iff] at hpush
      subst hpush
      obtain ⟨hall,rfl⟩ := (ih hfits).mp h
      refine ⟨hall, ?_⟩
      dsimp only at hy hz ⊢
      rw [List.append_assoc, hx, hy, hz]
      rfl
    · intro ⟨hall,hs1⟩
      refine Load.bind_returns_iff.mpr ⟨_, _, readInt32_returns_iff.mpr ⟨by omega, rfl, rfl⟩, ?_⟩
      refine Load.bind_returns_iff.mpr ⟨_, _, readUint8_returns_iff.mpr ⟨by dsimp only; omega, rfl, rfl⟩, ?_⟩
      refine Load.bind_returns_iff.mpr ⟨_, _, readUint8_returns_iff.mpr ⟨by dsimp only; omega, rfl, rfl⟩, ?_⟩
      refine Load.bind_returns_iff.mpr ⟨_, (), Load.update_returns_iff.mpr rfl, ?_⟩
      refine (ih (by dsimp only; omega)).mpr ⟨by dsimp only; omega, ?_⟩
      rw [hs1]
      dsimp only
      rw [List.append_assoc]
      rfl

theorem readTypes_returns {k : ℕ} {s s1 : FileState} {u : Unit} (hs : s.pos ≤ bytes.length)
    (h : readTypes bytes k s = .ok (s1, some u)) : s1.pos = s.pos+6*k ∧
      s1.data.transitions = s.data.transitions ∧
      s1.data.localtimes =
        s.data.localtimes ++ (List.range k).map (fun i => typeAt bytes (s.pos+6*i)) := by
  obtain ⟨_,rfl⟩ := (readTypes_returns_iff hs).mp h
  exact ⟨rfl, rfl, rfl⟩

/-- Where reading has come to, and that the table is as before. -/
theorem repeated_returns {α : Type} {x : Load FileState α} {w : ℕ} {g : ℕ → α}
    (hx : ∀ s s1 a, x s = .ok (s1, some a) ↔ s.pos+w ≤ bytes.length ∧
      s1 = { s with pos := s.pos+w } ∧ a = g s.pos) {k : ℕ} {s s1 : FileState} {as : List α}
    (hs : s.pos ≤ bytes.length) (h : Load.repeated x k s = .ok (s1, some as)) :
    s1.pos ≤ bytes.length ∧ s1.pos = s.pos+w*k ∧ s1.data = s.data ∧
      as = (List.range k).map (fun i => g (s.pos+w*i)) := by
  obtain ⟨hall,rfl,has⟩ := (repeated_returns_iff hx hs).mp h
  exact ⟨hall, rfl, rfl, has⟩

theorem lift_element_returns_iff {α : Type} {xs : List α} {i : ℕ} {s s1 : FileState} {a : α} :
    (Load.lift (element xs i) : Load FileState α) s = .ok (s1, some a) ↔ s1 = s ∧ xs[i]? = some a := by
  rw [Load.lift, element]
  cases hget : xs[i]? with
  | none =>
    constructor
    · intro h
      cases h
    · intro h
      cases h.2
  | some x =>
    simp only [Except.map, Except.ok.injEq, Prod.mk.injEq, Option.some.injEq, eq_comm]

/-- The transitions are pushed where every index of a type is one of the types that were read. -/
theorem pushTransitions_returns {trans : List ℤ} {localtimes : List ℕ} {is : List ℕ} {s s1 : FileState}
    {u : Unit} (h : pushTransitions trans localtimes is s = .ok (s1, some u)) :
    s1.pos = s.pos ∧ s1.data.localtimes = s.data.localtimes ∧
    (∀ i ∈ is, ∃ localIdx, localtimes[i]? = some localIdx ∧ localIdx < s.data.localtimes.length) ∧
    ∀ tr ∈ s1.data.transitions, tr ∈ s.data.transitions ∨
      tr.localtimeIdx < s.data.localtimes.length := by
  induction is generalizing s with
  | nil =>
    obtain ⟨rfl,_⟩ := Load.pure_returns_iff.mp h
    exact ⟨rfl, rfl, fun i hi => absurd hi List.not_mem_nil, fun tr htr => .inl htr⟩
  | cons i is ih =>
    obtain ⟨s2,localIdx,hindex,h⟩ := Load.bind_returns_iff.mp h
    obtain ⟨s3,gmttime,htrans,h⟩ := Load.bind_returns_iff.mp h
    obtain ⟨s4,localType,htype,h⟩ := Load.bind_returns_iff.mp h
    obtain ⟨s5,_,hpush,h⟩ := Load.bind_returns_iff.mp h
    obtain ⟨rfl,hget⟩ := lift_element_returns_iff.mp hindex
    obtain ⟨rfl,_⟩ := lift_element_returns_iff.mp htrans
    obtain ⟨rfl,htype⟩ := lift_element_returns_iff.mp htype
    rw [Load.update_returns_iff] at hpush
    subst hpush
    have hlt := (List.getElem?_eq_some_iff.mp htype).1
    obtain ⟨hpos,htypes,hindices,htransitions⟩ := ih h
    refine ⟨hpos, htypes, ?_, ?_⟩
    · intro j hj
      rcases List.mem_cons.mp hj with rfl | hj
      · exact ⟨localIdx, hget, hlt⟩
      · exact hindices j hj
    · intro tr htr
      rcases htransitions tr htr with hold | hnew
      · rcases List.mem_append.mp hold with hold | hlast
        · exact .inl hold
        · rw [List.mem_singleton.mp hlast]
          exact .inr hlt
      · exact .inr hnew

theorem pushTransitions_ok {trans : List ℤ} {localtimes : List ℕ} {is : List ℕ} {s : FileState}
    (htrans : ∀ i ∈ is, i < trans.length)
    (hindices : ∀ i ∈ is, ∃ localIdx, localtimes[i]? = some localIdx ∧
      localIdx < s.data.localtimes.length) :
    ∃ s1, pushTransitions trans localtimes is s = .ok (s1, some ()) := by
  induction is generalizing s with
  | nil => exact ⟨s, rfl⟩
  | cons i is ih =>
    obtain ⟨localIdx,hindex,hlt⟩ := hindices i List.mem_cons_self
    have hi := htrans i List.mem_cons_self
    obtain ⟨s1,hrest⟩ := ih (s := { s with data := { s.data with transitions := s.data.transitions ++
        [⟨trans[i], trans[i]+(s.data.localtimes[localIdx]).gmtOffset, localIdx⟩] } })
      (fun j hj => htrans j (List.mem_cons_of_mem _ hj))
      (fun j hj => hindices j (List.mem_cons_of_mem _ hj))
    refine ⟨s1, ?_⟩
    refine Load.bind_returns_iff.mpr ⟨s, localIdx, lift_element_returns_iff.mpr ⟨rfl, hindex⟩, ?_⟩
    refine Load.bind_returns_iff.mpr ⟨s, trans[i],
      lift_element_returns_iff.mpr ⟨rfl, List.getElem?_eq_getElem hi⟩, ?_⟩
    refine Load.bind_returns_iff.mpr ⟨s, s.data.localtimes[localIdx],
      lift_element_returns_iff.mpr ⟨rfl, List.getElem?_eq_getElem hlt⟩, ?_⟩
    exact Load.bind_returns_iff.mpr ⟨_, (), Load.update_returns_iff.mpr rfl, hrest⟩

section Keeps

/-- The text of the abbreviations, which is read last. -/
def abbreviation (s : FileState) : Bytes := s.data.abbreviation

theorem keeps_readBytes (n : ℤ) : Load.Keeps abbreviation (readBytes bytes n) := by
  intro s s' r h
  rw [readBytes] at h
  split at h
  · cases h
  · split at h
    · obtain ⟨rfl,_⟩ := Prod.mk.inj (Except.ok.inj h)
      rfl
    · obtain ⟨rfl,_⟩ := Prod.mk.inj (Except.ok.inj h)
      rfl

theorem keeps_readInt32 : Load.Keeps abbreviation (readInt32 bytes) := by
  intro s s' r h
  rw [readInt32] at h
  split at h
  · obtain ⟨rfl,_⟩ := Prod.mk.inj (Except.ok.inj h)
    rfl
  · obtain ⟨rfl,_⟩ := Prod.mk.inj (Except.ok.inj h)
    rfl

theorem keeps_readUint8 : Load.Keeps abbreviation (readUint8 bytes) := by
  intro s s' r h
  rw [readUint8] at h
  split at h
  · obtain ⟨rfl,_⟩ := Prod.mk.inj (Except.ok.inj h)
    rfl
  · obtain ⟨rfl,_⟩ := Prod.mk.inj (Except.ok.inj h)
    rfl

theorem keeps_readTypes (k : ℕ) : Load.Keeps abbreviation (readTypes bytes k) := by
  induction k with
  | zero => exact Load.keeps_pure ()
  | succ k ih =>
    apply Load.keeps_bind keeps_readInt32
    intro gmtoff
    apply Load.keeps_bind keeps_readUint8
    intro isdst
    apply Load.keeps_bind keeps_readUint8
    intro abbrind
    refine Load.keeps_bind (Load.keeps_update ?_) ?_
    · intro s
      rfl
    intro _
    exact ih

theorem keeps_pushTransitions (trans : List ℤ) (localtimes is : List ℕ) :
    Load.Keeps abbreviation (pushTransitions trans localtimes is) := by
  induction is with
  | nil => exact Load.keeps_pure ()
  | cons i is ih =>
    apply Load.keeps_bind Load.keeps_map
    intro localIdx
    apply Load.keeps_bind Load.keeps_map
    intro gmttime
    apply Load.keeps_bind Load.keeps_map
    intro localType
    refine Load.keeps_bind (Load.keeps_update ?_) ?_
    · intro s
      rfl
    intro _
    exact ih

theorem keeps_readHeader : Load.Keeps abbreviation (readHeader bytes) := by
  apply Load.keeps_bind (keeps_readBytes 4)
  intro header
  apply Load.keeps_bind Load.keeps_require
  intro _
  apply Load.keeps_bind (keeps_readBytes 1)
  intro _
  apply Load.keeps_bind (keeps_readBytes 15)
  intro _
  -- the six counts
  apply Load.keeps_bind keeps_readInt32
  intro _
  apply Load.keeps_bind keeps_readInt32
  intro _
  apply Load.keeps_bind keeps_readInt32
  intro _
  apply Load.keeps_bind keeps_readInt32
  intro timecnt
  apply Load.keeps_bind keeps_readInt32
  intro typecnt
  apply Load.keeps_bind keeps_readInt32
  intro charcnt
  exact Load.keeps_pure _

/-- Where reading throws, no text has been stored. -/
theorem silent_readZone : Load.Silent abbreviation (readZone bytes) := by
  apply Load.silent_bind keeps_readHeader
  intro counts
  apply Load.silent_bind Load.keeps_require
  intro _
  apply Load.silent_bind (Load.keeps_repeated keeps_readInt32 _)
  intro trans
  apply Load.silent_bind (Load.keeps_repeated keeps_readUint8 _)
  intro localtimes
  apply Load.silent_bind (keeps_readTypes _)
  intro _
  apply Load.silent_bind (keeps_pushTransitions _ _ _)
  intro _
  apply Load.silent_bind (keeps_readBytes _)
  intro text s s' h
  cases (Prod.mk.inj (Except.ok.inj h)).2

end Keeps

def timecnt (bytes : Bytes) : ℕ := (int32At bytes 32).toNat
def typecnt (bytes : Bytes) : ℕ := (int32At bytes 36).toNat
def charcnt (bytes : Bytes) : ℕ := (int32At bytes 40).toNat

/-- Nothing is missing, no count that is used is negative, and the indices of the transitions are those of
types. -/
structure Readable (bytes : Bytes) : Prop where
  header : 44 ≤ bytes.length
  magic : bytes.take 4 = ascii "TZif"
  timecnt_nonneg : 0 ≤ int32At bytes 32
  charcnt_nonneg : 0 ≤ int32At bytes 40
  length : 44+5*timecnt bytes+6*typecnt bytes+charcnt bytes ≤ bytes.length
  localtimeIdx : ∀ i < timecnt bytes, uint8At bytes (44+4*timecnt bytes+i) < typecnt bytes

/-- There is a type too, and the abbreviations of the types begin within the text. -/
structure Complete (bytes : Bytes) : Prop extends Readable bytes where
  typecnt_pos : 0 < typecnt bytes
  arrbIdx : ∀ i < typecnt bytes, uint8At bytes (44+5*timecnt bytes+6*i+5) < charcnt bytes

/-- The smallest such file, for UTC. -/
def utcFile : Bytes := [84, 90, 105, 102] ++ List.replicate 32 0 ++ [0, 0, 0, 1, 0, 0, 0, 4] ++
  List.replicate 6 0 ++ [85, 84, 67, 0]

example : Complete utcFile := by
  have htimecnt : timecnt utcFile = 0 := by decide +kernel
  have htypecnt : typecnt utcFile = 1 := by decide +kernel
  have hcharcnt : charcnt utcFile = 4 := by decide +kernel
  refine ⟨⟨by decide, by simp [utcFile, ascii], by decide +kernel, by decide +kernel, ?_, ?_⟩, ?_, ?_⟩
  · rw [htimecnt, htypecnt, hcharcnt]
    decide
  · rw [htimecnt, htypecnt]
    decide
  · rw [htypecnt]
    decide
  · rw [htimecnt, htypecnt, hcharcnt]
    decide +kernel

/-- What has been read where reading returns. -/
structure Loaded (bytes : Bytes) (data : TimeZone.Data) : Prop where
  localtimes : data.localtimes =
    (List.range (typecnt bytes)).map (fun i => typeAt bytes (44+5*timecnt bytes+6*i))
  abbreviation : data.abbreviation.length = charcnt bytes
  localtimeIdx : ∀ tr ∈ data.transitions, tr.localtimeIdx < data.localtimes.length

theorem readHeader_returns_iff {data : TimeZone.Data} {s : FileState} {counts : Counts} :
    readHeader bytes ⟨0, data⟩ = .ok (s, some counts) ↔ 44 ≤ bytes.length ∧
      bytes.take 4 = ascii "TZif" ∧ s = ⟨44, data⟩ ∧ counts.timecnt = int32At bytes 32 ∧
      counts.typecnt = int32At bytes 36 ∧ counts.charcnt = int32At bytes 40 := by
  simp only [readHeader, Load.bind_returns_iff, readBytes_returns_iff, Load.require_returns_iff,
    readInt32_returns_iff, Load.pure_returns_iff]
  constructor
  · rintro ⟨_,_,⟨_,_,rfl,rfl⟩,_,_,⟨rfl,hmagic⟩,_,_,⟨_,_,rfl,_⟩,_,_,⟨_,_,rfl,_⟩,_,_,⟨_,rfl,_⟩,_,_,⟨_,rfl,_⟩,
      _,_,⟨_,rfl,_⟩,_,_,⟨_,rfl,htimecnt⟩,_,_,⟨_,rfl,htypecnt⟩,_,_,⟨hlen,rfl,hcharcnt⟩,rfl,hcounts⟩
    rw [hcounts]
    exact ⟨hlen, hmagic, rfl, htimecnt, htypecnt, hcharcnt⟩
  · rintro ⟨hlen,hmagic,rfl,htimecnt,htypecnt,hcharcnt⟩
    have hcounts : counts = ⟨int32At bytes 32, int32At bytes 36, int32At bytes 40⟩ := by
      rw [← htimecnt, ← htypecnt, ← hcharcnt]
    have hfront : (bytes.drop 0).take (4 : ℤ).toNat = ascii "TZif" := hmagic
    refine ⟨⟨4, data⟩, _, ⟨by omega, ?_, rfl, rfl⟩, _, (), ⟨rfl, hfront⟩,
      ⟨5, data⟩, _, ⟨by omega, ?_, rfl, rfl⟩, ⟨20, data⟩, _, ⟨by omega, ?_, rfl, rfl⟩,
      ⟨24, data⟩, _, ⟨?_, rfl, rfl⟩, ⟨28, data⟩, _, ⟨?_, rfl, rfl⟩, ⟨32, data⟩, _, ⟨?_, rfl, rfl⟩,
      ⟨36, data⟩, _, ⟨?_, rfl, rfl⟩, ⟨40, data⟩, _, ⟨?_, rfl, rfl⟩, ⟨44, data⟩, _, ⟨?_, rfl, rfl⟩,
      rfl, hcounts⟩
    all_goals
      simp only [Int.reduceToNat]
      omega

/-- The types of the transitions, as they lie in the file. -/
theorem getElem?_indices {i : ℕ} (hi : i < timecnt bytes) :
    ((List.range (timecnt bytes)).map (fun i => uint8At bytes (44+4*timecnt bytes+1*i)))[i]? =
      some (uint8At bytes (44+4*timecnt bytes+i)) := by
  rw [List.getElem?_map, List.getElem?_range hi, Option.map_some, Nat.one_mul]

/-- Where the second half of the file ends. -/
theorem tableEnd_eq (t k c : ℕ) : 44+4*t+1*t+6*k+c = 44+5*t+6*k+c := by omega

theorem readTable_returns {s : FileState} {u : Unit} (hheader : 44 ≤ bytes.length)
    (hmagic : bytes.take 4 = ascii "TZif")
    (h : readTable bytes (int32At bytes 32) (int32At bytes 36) (int32At bytes 40)
      ⟨44, TimeZone.Data.empty⟩ = .ok (s, some u)) :
    Readable bytes ∧ Loaded bytes s.data := by
  obtain ⟨s1,_,h1,h⟩ := Load.bind_returns_iff.mp h
  obtain ⟨s2,trans,h2,h⟩ := Load.bind_returns_iff.mp h
  obtain ⟨s3,localtimes,h3,h⟩ := Load.bind_returns_iff.mp h
  obtain ⟨s4,_,h4,h⟩ := Load.bind_returns_iff.mp h
  obtain ⟨s5,_,h5,h⟩ := Load.bind_returns_iff.mp h
  obtain ⟨s6,text,h6,hupdate⟩ := Load.bind_returns_iff.mp h
  obtain ⟨rfl,hnonneg⟩ := Load.require_returns_iff.mp h1
  obtain ⟨hlen2,hpos2,hdata2,_⟩ := repeated_returns (fun _ _ _ => readInt32_returns_iff) hheader h2
  obtain ⟨hlen3,hpos3,hdata3,hlocaltimes⟩ :=
    repeated_returns (fun _ _ _ => readUint8_returns_iff) hlen2 h3
  obtain ⟨hpos4,htransitions4,htypes4⟩ := readTypes_returns hlen3 h4
  obtain ⟨hpos5,htypes5,hindices,htransitions⟩ := pushTransitions_returns h5
  obtain ⟨hchars,hlen6,hs6,htext⟩ := readBytes_returns_iff.mp h6
  rw [Load.update_returns_iff] at hupdate
  have hcount : (int32At bytes 32).toNat = timecnt bytes := by rw [timecnt]
  have hcount' : (int32At bytes 36).toNat = typecnt bytes := by rw [typecnt]
  have hcount'' : (int32At bytes 40).toNat = charcnt bytes := by rw [charcnt]
  rw [hcount] at hpos2 hpos3 hlocaltimes hindices
  rw [hcount'] at hpos4 htypes4
  rw [hcount''] at hlen6
  dsimp only at hpos2
  have hend3 : s3.pos = 44+5*timecnt bytes := by omega
  have hnil : TimeZone.Data.empty.localtimes = [] := rfl
  rw [hdata3, hdata2, hnil, List.nil_append, hend3] at htypes4
  rw [hdata3, hdata2] at htransitions4
  have hlength4 : s4.data.localtimes.length = typecnt bytes := by
    rw [htypes4, List.length_map, List.length_range]
  rw [hlength4] at hindices htransitions
  have hlength : 44+5*timecnt bytes+6*typecnt bytes+charcnt bytes ≤ bytes.length := by
    rwa [hpos5, hpos4, hend3] at hlen6
  rw [hpos2] at hlocaltimes
  refine ⟨⟨hheader, hmagic, hnonneg, hchars, hlength, ?_⟩, ?_⟩
  · intro i hi
    obtain ⟨localIdx,hget,hlt⟩ := hindices i (List.mem_range.mpr hi)
    rw [hlocaltimes, getElem?_indices hi] at hget
    rwa [← Option.some.inj hget] at hlt
  · rw [hupdate, hs6]
    have hsame : s5.data.localtimes = (List.range (typecnt bytes)).map
        (fun i => typeAt bytes (44+5*timecnt bytes+6*i)) := by rw [htypes5, htypes4]
    refine ⟨hsame, ?_, ?_⟩
    · show text.length = charcnt bytes
      rw [htext, hcount'', List.length_take_of_le]
      rw [List.length_drop]
      exact Nat.le_sub_of_add_le' hlen6
    · intro tr htr
      have htr : tr ∈ s5.data.transitions := htr
      show tr.localtimeIdx < s5.data.localtimes.length
      rw [hsame, List.length_map, List.length_range]
      rcases htransitions tr htr with hold | hlt
      · rw [htransitions4] at hold
        exact absurd hold List.not_mem_nil
      · exact hlt

/-- A file in which nothing is missing is read to its end. -/
theorem readTable_ok (h : Readable bytes) :
    ∃ s, readTable bytes (int32At bytes 32) (int32At bytes 36) (int32At bytes 40)
      ⟨44, TimeZone.Data.empty⟩ = .ok (s, some ()) := by
  have hlength := h.length
  have hcount : (int32At bytes 32).toNat = timecnt bytes := by rw [timecnt]
  have hcount' : (int32At bytes 36).toNat = typecnt bytes := by rw [typecnt]
  have hcount'' : (int32At bytes 40).toNat = charcnt bytes := by rw [charcnt]
  have htrans := (repeated_returns_iff (s := ⟨44, TimeZone.Data.empty⟩) (k := timecnt bytes)
    (fun _ _ _ => readInt32_returns_iff) h.header).mpr ⟨by dsimp only; omega, rfl, rfl⟩
  have hlocaltimes := (repeated_returns_iff (k := timecnt bytes) (fun _ _ _ => readUint8_returns_iff)
    (show (FileState.mk (44+4*timecnt bytes) TimeZone.Data.empty).pos ≤ bytes.length by
      dsimp only; omega)).mpr ⟨by dsimp only; omega, rfl, rfl⟩
  have htypes := (readTypes_returns_iff (k := typecnt bytes) (u := ())
    (show (FileState.mk (44+4*timecnt bytes+1*timecnt bytes) TimeZone.Data.empty).pos ≤ bytes.length by
      dsimp only; omega)).mpr ⟨by dsimp only; omega, rfl⟩
  have hindices : ∀ i ∈ List.range (timecnt bytes), ∃ localIdx,
      ((List.range (timecnt bytes)).map (fun i => uint8At bytes (44+4*timecnt bytes+1*i)))[i]? = some localIdx ∧
        localIdx < (TimeZone.Data.empty.localtimes ++ (List.range (typecnt bytes)).map
          (fun i => typeAt bytes (44+4*timecnt bytes+1*timecnt bytes+6*i))).length := by
    intro i hi
    have hi := List.mem_range.mp hi
    refine ⟨_, getElem?_indices hi, ?_⟩
    rw [TimeZone.Data.empty, List.nil_append, List.length_map, List.length_range]
    exact h.localtimeIdx i hi
  have htimes : ∀ i ∈ List.range (timecnt bytes),
      i < ((List.range (timecnt bytes)).map (fun i => int32At bytes (44+4*i))).length := by
    intro i hi
    rw [List.length_map, List.length_range]
    exact List.mem_range.mp hi
  obtain ⟨s1,hpush⟩ := pushTransitions_ok htimes (s := ⟨44+4*timecnt bytes+1*timecnt bytes+6*typecnt bytes,
    { TimeZone.Data.empty with
      localtimes := TimeZone.Data.empty.localtimes ++ (List.range (typecnt bytes)).map
        (fun i => typeAt bytes (44+4*timecnt bytes+1*timecnt bytes+6*i)) }⟩) hindices
  have hpos := (pushTransitions_returns hpush).1
  dsimp only at hpos
  have htext := (readBytes_returns_iff (n := int32At bytes 40) (s := s1)).mpr
    ⟨h.charcnt_nonneg, by
      rw [hpos, hcount'', tableEnd_eq]
      exact hlength, rfl, rfl⟩
  rw [readTable, hcount, hcount']
  exact ⟨_, Load.bind_returns_iff.mpr ⟨_, (), Load.require_returns_iff.mpr ⟨rfl, h.timecnt_nonneg⟩,
    Load.bind_returns_iff.mpr ⟨_, _, htrans, Load.bind_returns_iff.mpr ⟨_, _, hlocaltimes,
    Load.bind_returns_iff.mpr ⟨_, (), htypes, Load.bind_returns_iff.mpr ⟨_, (), hpush,
    Load.bind_returns_iff.mpr ⟨_, _, htext, Load.update_returns_iff.mpr rfl⟩⟩⟩⟩⟩⟩⟩

/-- Whatever the file holds: reading is undefined, or it throws, or it returns. -/
theorem readZone_returns {s : FileState} {u : Unit}
    (h : readZone bytes ⟨0, TimeZone.Data.empty⟩ = .ok (s, some u)) :
    Readable bytes ∧ Loaded bytes s.data := by
  obtain ⟨s1,counts,hheader,htable⟩ := Load.bind_returns_iff.mp h
  obtain ⟨hlen,hmagic,rfl,htimecnt,htypecnt,hcharcnt⟩ := readHeader_returns_iff.mp hheader
  rw [htimecnt, htypecnt, hcharcnt] at htable
  exact readTable_returns hlen hmagic htable

theorem readZone_ok (h : Readable bytes) :
    ∃ s, readZone bytes ⟨0, TimeZone.Data.empty⟩ = .ok (s, some ()) := by
  obtain ⟨s,htable⟩ := readTable_ok h
  exact ⟨s, Load.bind_returns_iff.mpr ⟨_, ⟨_, _, _⟩,
    readHeader_returns_iff.mpr ⟨h.header, h.magic, rfl, rfl, rfl, rfl⟩, htable⟩⟩

end File

namespace TimeZone

/-- A table whose indices are all within what they are indices of. -/
structure Data.Usable (data : Data) : Prop where
  localtimes : data.localtimes ≠ []
  localtimeIdx : ∀ tr ∈ data.transitions, tr.localtimeIdx < data.localtimes.length
  arrbIdx : ∀ localType ∈ data.localtimes, localType.arrbIdx < data.abbreviation.length

/-- In a table that can be used a type is found for every entry, also where the transitions are out of
order. -/
theorem Data.Usable.findLocaltime_ok {data : Data} (h : data.Usable) (entry : Transition) (comp : Comp) :
    ∃ localType ∈ data.localtimes, findLocaltime data entry comp = .ok localType := by
  obtain ⟨chosen,hchosen,hfind⟩ := findLocaltime_chosen data entry comp
  rw [hfind]
  cases chosen with
  | none =>
    obtain ⟨first,rest,hcons⟩ := List.exists_cons_of_ne_nil h.localtimes
    rw [Data.elementOf, hcons]
    exact ⟨first, List.mem_cons_self, rfl⟩
  | some tr =>
    obtain ⟨i,hget,_⟩ := hchosen
    have hlt := h.localtimeIdx tr (List.mem_of_getElem? hget)
    exact ⟨data.localtimes[tr.localtimeIdx], List.getElem_mem hlt,
      element_ok (List.getElem?_eq_getElem hlt)⟩

theorem Data.Usable.toLocalTime_ok {data : Data} (h : data.Usable) (gmtime : ℤ → Tm) (t : ℤ) :
    ∃ tm, toLocalTime gmtime ⟨some data⟩ t = .ok tm := by
  obtain ⟨localType,hmem,hfind⟩ := h.findLocaltime_ok ⟨t, 0, 0⟩ ⟨true⟩
  simp only [toLocalTime, hfind, bind, Except.bind]
  rw [if_pos (le_of_lt (h.arrbIdx localType hmem))]
  exact ⟨_, rfl⟩

theorem Data.Usable.fromLocalTime_ok {data : Data} (h : data.Usable) (gmtime : ℤ → Tm) (timegm : Tm → ℤ)
    (localtm : Tm) : ∃ t, fromLocalTime gmtime timegm ⟨some data⟩ localtm = .ok t := by
  obtain ⟨localType,_,hfind⟩ := h.findLocaltime_ok ⟨0, timegm localtm, 0⟩ ⟨false⟩
  obtain ⟨trytm,htry⟩ := h.toLocalTime_ok gmtime (timegm localtm-localType.gmtOffset)
  simp only [fromLocalTime, hfind, bind, Except.bind, htry]
  split
  · split
    · exact ⟨_, rfl⟩
    · exact ⟨_, rfl⟩
  · exact ⟨_, rfl⟩

/-- The zone of a file can be made, and if it is valid its table can be used: no time is then converted with
an index out of range. -/
def AllOrNothing (zonefile : Option Bytes) : Prop := ∃ tz, ofFile zonefile = .ok tz ∧
  (tz.valid = true → (∃ data, tz.data = some data ∧ data.Usable) ∧
    ∀ gmtime timegm, (∀ t, ∃ tm, toLocalTime gmtime tz t = .ok tm) ∧
      ∀ localtm, ∃ t, fromLocalTime gmtime timegm tz localtm = .ok t)

/-- Whatever is returned, the zone is valid. -/
theorem ofFile_data {zonefile : Option Bytes} {tz : TimeZone} (h : ofFile zonefile = .ok tz) :
    ∃ data, tz = ⟨some data⟩ ∧ readTimeZoneFile zonefile .empty = .ok (true, data) := by
  obtain ⟨⟨result,data⟩,hread,rfl⟩ := Runs.map_ok h
  have htrue : result = true := by
    cases zonefile with
    | none => exact (Prod.mk.inj (Except.ok.inj hread)).1.symm
    | some bytes =>
      obtain ⟨_,_,hpair⟩ := Runs.map_ok hread
      exact (Prod.mk.inj hpair).1.symm
  rw [htrue] at hread ⊢
  exact ⟨data, rfl, hread⟩

theorem usable_iff {bytes : Bytes} {data : Data} (hreadable : File.Readable bytes)
    (h : File.Loaded bytes data) : data.Usable ↔ File.Complete bytes := by
  have hlength : data.localtimes.length = File.typecnt bytes := by
    rw [h.localtimes, List.length_map, List.length_range]
  constructor
  · intro husable
    refine ⟨hreadable, ?_, ?_⟩
    · rw [← hlength]
      exact List.length_pos_of_ne_nil husable.localtimes
    · intro i hi
      rw [← h.abbreviation]
      apply husable.arrbIdx (File.typeAt bytes (44+5*File.timecnt bytes+6*i))
      rw [h.localtimes]
      exact List.mem_map_of_mem (List.mem_range.mpr hi)
  · intro hcomplete
    refine ⟨?_, h.localtimeIdx, ?_⟩
    · apply List.ne_nil_of_length_pos
      rw [hlength]
      exact hcomplete.typecnt_pos
    · intro localType hmem
      rw [h.localtimes] at hmem
      obtain ⟨i,hi,rfl⟩ := List.mem_map.mp hmem
      rw [h.abbreviation]
      exact hcomplete.arrbIdx i (List.mem_range.mp hi)

/-- A table that can be used is that of a file in which nothing is missing. -/
theorem complete_of_usable {zonefile : Option Bytes} {data : Data}
    (hread : readTimeZoneFile zonefile .empty = .ok (true, data)) (h : data.Usable) :
    ∃ bytes, zonefile = some bytes ∧ File.Complete bytes := by
  cases zonefile with
  | none =>
    have hempty : Data.empty = data := (Prod.mk.inj (Except.ok.inj hread)).2
    exact absurd (hempty ▸ rfl) h.localtimes
  | some bytes =>
    refine ⟨bytes, rfl, ?_⟩
    obtain ⟨⟨s,result⟩,hzone,hpair⟩ := Runs.map_ok hread
    have hdata : s.data = data := (Prod.mk.inj hpair).2
    cases result with
    | none =>
      -- no text of abbreviations, but a type with an index in it
      have hsilent : s.data.abbreviation = [] := File.silent_readZone _ _ hzone
      obtain ⟨first,rest,hcons⟩ := List.exists_cons_of_ne_nil h.localtimes
      have hlt := h.arrbIdx first (by rw [hcons]; exact List.mem_cons_self)
      rw [← hdata, hsilent] at hlt
      exact absurd hlt (Nat.not_lt_zero _)
    | some u =>
      obtain ⟨hreadable,hloaded⟩ := File.readZone_returns hzone
      rw [hdata] at hloaded
      exact (usable_iff hreadable hloaded).mp h

/-- The table can be used exactly where nothing is missing in the file; for every other one the constructor
is undefined or leaves a zone that is valid and cannot be used. -/
theorem zone_file_iff (zonefile : Option Bytes) :
    AllOrNothing zonefile ↔ ∃ bytes, zonefile = some bytes ∧ File.Complete bytes := by
  constructor
  · intro ⟨tz,hmade,hvalid⟩
    obtain ⟨data,rfl,hread⟩ := ofFile_data hmade
    obtain ⟨data',hdata,husable⟩ := (hvalid rfl).1
    obtain rfl := Option.some.inj hdata
    exact complete_of_usable hread husable
  · intro ⟨bytes,hfile,hcomplete⟩
    obtain ⟨s,hzone⟩ := File.readZone_ok hcomplete.toReadable
    have hloaded := (File.readZone_returns hzone).2
    have husable := (usable_iff hcomplete.toReadable hloaded).mpr hcomplete
    refine ⟨⟨some s.data⟩, ?_, ?_⟩
    · rw [ofFile, hfile, readTimeZoneFile, hzone]
      rfl
    · intro _
      exact ⟨⟨s.data, rfl, husable⟩, fun gmtime timegm =>
        ⟨husable.toLocalTime_ok gmtime, husable.fromLocalTime_ok gmtime timegm⟩⟩

/-- A file that is not there: the zone is valid, and its table is empty. -/
theorem zone_file_fails : ¬AllOrNothing none := by
  intro ⟨tz,hmade,hvalid⟩
  obtain ⟨data,rfl,hread⟩ := ofFile_data hmade
  obtain ⟨data',hdata,husable⟩ := (hvalid rfl).1
  obtain rfl := Option.some.inj hdata
  obtain ⟨bytes,hnone,_⟩ := complete_of_usable hread husable
  cases hnone

end TimeZone

end IdealServer
