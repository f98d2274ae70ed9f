import IdealServer.Connector
import IdealServer.Slots

/-! `Acceptor`: the loop's thread accepts connections while other threads open and close descriptors. One
descriptor is kept in reserve for the time when no other is left. -/
namespace IdealServer

def EPERM : ℤ := 1
def EMFILE : ℤ := 24
def EPROTO : ℤ := 71
def ECONNABORTED : ℤ := 103

inductive FdOwner
  /-- `_idleFd`, or a connection that has not been handed over -/
  | acceptor
  | connection (id : ℕ)
  | other
deriving DecidableEq, Repr

inductive AcceptorFault
  /-- `LOG_FATAL` -/
  | abort
  /-- A descriptor is closed that is not the acceptor's. -/
  | foreignDescriptor
  /-- `_idleFd >= 0` in the constructor -/
  | constructor
deriving DecidableEq, Repr

/-- Which call of `handleRead` comes next. Other threads may run between any two. -/
inductive AcceptorCall
  | accept
  | closeIdle
  | acceptIdle
  | closeAccepted
  | openIdle
  /-- The destructor has run. -/
  | gone
deriving DecidableEq, Repr

inductive AcceptorObs
  /-- `_newConnectionCallback` is called with it. -/
  | handed (id : ℕ)
  | dropped (id : ℕ)
deriving DecidableEq, Repr

/-- The process's table of descriptors, the connections that wait in the kernel and how many there have been, and
what the acceptor has. -/
structure Acceptor where
  table : List (Option FdOwner)
  backlog : List ℕ
  arrived : ℕ
  /-- Whether `_newConnectionCallback` is set. -/
  callback : Bool
  call : AcceptorCall
  idleFd : Option ℕ
deriving DecidableEq, Repr

inductive AcceptorEvent
  /-- A peer connects. -/
  | arrive
  /-- Another thread opens a descriptor. -/
  | opened
  /-- A connection or another thread closes a descriptor of its own. -/
  | closed (fd : ℕ)
  /-- `handleRead` begins. `error` is a reason for `accept` to fail other than those in the model, and `errno` what
  the log has left in `errno` if it has changed it. -/
  | handleRead (error errno : Option ℤ)
  /-- The next call of `handleRead`. -/
  | proceed (error : Option ℤ)
  | destroy
deriving DecidableEq, Repr

namespace Acceptor

/-- `::open` of `/dev/null` -/
def openIdle (s : Acceptor) (error : Option ℤ) : Acceptor :=
  match error with
  | some _ => { s with idleFd := none }
  | none =>
    match Slots.allocate s.table .acceptor with
    | some (fd, table) => { s with table := table, idleFd := some fd }
    | none => { s with idleFd := none }

def new (table : List (Option FdOwner)) (callback : Bool) : Except AcceptorFault Acceptor :=
  let s := openIdle ⟨table, [], 0, callback, .accept, none⟩ none
  if s.idleFd = none then .error .constructor else .ok s

/-- `::close`. A negative number is no descriptor. -/
def close (s : Acceptor) (fd : Option ℕ) : Except AcceptorFault Acceptor :=
  match fd with
  | none => .ok s
  | some fd =>
    if Slots.owner s.table fd = some .acceptor then .ok { s with table := Slots.release s.table fd }
    else .error .foreignDescriptor

/-- `::accept`. A descriptor is looked for before a connection. -/
def accept (s : Acceptor) (error : Option ℤ) : Except ℤ (ℕ × ℕ × Acceptor) :=
  match error with
  | some e => .error e
  | none =>
    match Slots.allocate s.table .acceptor with
    | none => .error EMFILE
    | some (fd, table) =>
      match s.backlog with
      | [] => .error EAGAIN
      | id :: backlog => .ok (id, fd, { s with table := table, backlog := backlog })

/-- `handleRead` as far as its first call goes. -/
def handleRead (s : Acceptor) (error errno : Option ℤ) : Except AcceptorFault (Acceptor × List AcceptorObs) :=
  match s.accept error with
  | .ok (id, fd, s) =>
    if s.callback then .ok ({ s with table := Slots.transfer s.table fd (.connection id) }, [.handed id])
    else (s.close (some fd)).map (fun s => (s, [.dropped id]))
  | .error e =>
    if e ∈ [EAGAIN, ECONNABORTED, EINTR, EPROTO, EPERM, EMFILE] then
      -- by now the log may have changed `errno`
      if errno.getD e = EMFILE then .ok ({ s with call := .closeIdle }, []) else .ok (s, [])
    -- `LOG_FATAL`
    else .error .abort

/-- The calls behind `errno == EMFILE`. -/
def proceed (s : Acceptor) (error : Option ℤ) : Except AcceptorFault (Acceptor × List AcceptorObs) :=
  match s.call with
  | .closeIdle => (s.close s.idleFd).map (fun s => ({ s with call := .acceptIdle }, []))
  | .acceptIdle =>
    match s.accept error with
    | .ok (id, fd, s) => .ok ({ s with idleFd := some fd, call := .closeAccepted }, [.dropped id])
    | .error _ => .ok ({ s with idleFd := none, call := .closeAccepted }, [])
  | .closeAccepted => (s.close s.idleFd).map (fun s => ({ s with call := .openIdle }, []))
  | .openIdle => .ok ({ s.openIdle error with call := .accept }, [])
  | _ => .ok (s, [])

def step (s : Acceptor) : AcceptorEvent → Except AcceptorFault (Acceptor × List AcceptorObs)
  | .arrive => .ok ({ s with backlog := s.backlog ++ [s.arrived], arrived := s.arrived+1 }, [])
  | .opened =>
    match Slots.allocate s.table .other with
    | some (_, table) => .ok ({ s with table := table }, [])
    | none => .ok (s, [])
  | .closed fd =>
    if Slots.owner s.table fd = some .acceptor then .ok (s, [])
    else .ok ({ s with table := Slots.release s.table fd }, [])
  | .handleRead error errno => if s.call = .accept then s.handleRead error errno else .ok (s, [])
  | .proceed error => s.proceed error
  | .destroy =>
    if s.call = .accept then (s.close s.idleFd).map (fun s => ({ s with call := .gone }, [])) else .ok (s, [])

/-- The descriptor that is the acceptor's. Behind a `close` the number in `_idleFd` is stale. -/
def held (s : Acceptor) : Option ℕ :=
  match s.call with
  | .accept | .closeIdle | .closeAccepted => s.idleFd
  | .acceptIdle | .openIdle | .gone => none

end Acceptor

def AcceptorObs.id : AcceptorObs → ℕ
  | .handed id => id
  | .dropped id => id

/-- The acceptor has its descriptor and no other, the connections come in their order, each once, and those that
have a descriptor have been handed over. -/
structure Acceptor.Sound (s : Acceptor) (obs : List AcceptorObs) : Prop where
  taken : obs.map AcceptorObs.id ++ s.backlog = List.range s.arrived
  owned : ∀ fd, Slots.owner s.table fd = some .acceptor ↔ s.held = some fd
  connections : ∀ fd id, Slots.owner s.table fd = some (.connection id) → .handed id ∈ obs
  sole : ∀ fd fd' id, Slots.owner s.table fd = some (.connection id) →
    Slots.owner s.table fd' = some (.connection id) → fd = fd'

namespace Acceptor
variable {s s' : Acceptor} {obs out : List AcceptorObs} {id fd : ℕ}

theorem accept_ok {error : Option ℤ} (h : s.accept error = .ok (id, fd, s')) : ∃ table backlog,
    Slots.allocate s.table .acceptor = some (fd, table) ∧ s.backlog = id :: backlog ∧
      s' = { s with table := table, backlog := backlog } := by
  cases error with
  | some e => cases h
  | none =>
    rw [accept] at h
    cases ha : Slots.allocate s.table .acceptor with
    | none =>
      rw [ha] at h
      cases h
    | some r =>
      rw [ha] at h
      dsimp only at h
      cases hb : s.backlog with
      | nil =>
        rw [hb] at h
        cases h
      | cons c backlog =>
        rw [hb] at h
        obtain ⟨rfl,hrest⟩ := Prod.mk.inj (Except.ok.inj h)
        obtain ⟨rfl,rfl⟩ := Prod.mk.inj hrest
        exact ⟨r.2, backlog, rfl, rfl, rfl⟩

theorem openIdle_cases (s : Acceptor) (error : Option ℤ) :
    (∃ fd table, error = none ∧ Slots.allocate s.table .acceptor = some (fd, table) ∧
      s.openIdle error = { s with table := table, idleFd := some fd }) ∨
    ((error ≠ none ∨ Slots.free s.table = 0) ∧ s.openIdle error = { s with idleFd := none }) := by
  cases error with
  | some e => exact Or.inr ⟨Or.inl (Option.some_ne_none e), rfl⟩
  | none =>
    rw [openIdle]
    cases halloc : Slots.allocate s.table .acceptor with
    | none => exact Or.inr ⟨Or.inr (Slots.allocate_eq_none.mp halloc), rfl⟩
    | some r => exact Or.inl ⟨r.1, r.2, rfl, rfl, rfl⟩

namespace Sound

/-- The table changes, and with it what the acceptor has. No connection gets a descriptor. -/
theorem retable (h : Sound s obs) (hbacklog : s'.backlog = s.backlog) (harrived : s'.arrived = s.arrived)
    (howned : ∀ fd, Slots.owner s'.table fd = some .acceptor ↔ s'.held = some fd)
    (hconn : ∀ fd id, Slots.owner s'.table fd = some (.connection id) →
      Slots.owner s.table fd = some (.connection id)) : Sound s' obs :=
  ⟨by rw [hbacklog, harrived]; exact h.taken, howned, fun fd id hfd => h.connections fd id (hconn fd id hfd),
    fun fd fd' id hfd hfd' => h.sole fd fd' id (hconn fd id hfd) (hconn fd' id hfd')⟩

theorem take (h : Sound s obs) {backlog : List ℕ} (hbacklog : s.backlog = id :: backlog) (o : AcceptorObs)
    (ho : o.id = id) : (obs ++ [o]).map AcceptorObs.id ++ backlog = List.range s.arrived ∧
      AcceptorObs.handed id ∉ obs := by
  have htaken := h.taken
  rw [hbacklog] at htaken
  refine ⟨?_, ?_⟩
  · rw [List.map_append, List.map_singleton, ho, List.append_assoc, ← htaken]
    rfl
  · intro hmem
    have hnodup : (obs.map AcceptorObs.id ++ id :: backlog).Nodup := htaken ▸ List.nodup_range
    have hin : id ∈ obs.map AcceptorObs.id := List.mem_map.mpr ⟨_, hmem, rfl⟩
    exact (List.nodup_append.mp hnodup).2.2 id hin id List.mem_cons_self rfl

/-- The descriptor that is the acceptor's can be closed. -/
theorem close (h : Sound s obs) {idleFd : Option ℕ} (hheld : s.held = idleFd) : ∃ table,
    s.close idleFd = .ok { s with table := table } ∧
      (∀ fd, Slots.owner table fd ≠ some .acceptor) ∧
      (∀ fd id, Slots.owner table fd = some (.connection id) → Slots.owner s.table fd = some (.connection id)) ∧
      Slots.free table = Slots.free s.table+(if idleFd.isSome then 1 else 0) := by
  cases idleFd with
  | none =>
    refine ⟨s.table, rfl, ?_, fun fd id hfd => hfd, rfl⟩
    intro fd hfd
    rw [h.owned, hheld] at hfd
    cases hfd
  | some fd =>
    have howner : Slots.owner s.table fd = some .acceptor := by rw [h.owned, hheld]
    rw [Acceptor.close, if_pos howner]
    refine ⟨_, rfl, ?_, ?_, Slots.free_release howner⟩
    · intro fd' hfd'
      rw [Slots.owner_release] at hfd'
      split at hfd'
      case isTrue => cases hfd'
      case isFalse hne =>
        rw [h.owned, hheld] at hfd'
        exact hne (Option.some.inj hfd').symm
    · intro fd' id hfd'
      rw [Slots.owner_release] at hfd'
      split at hfd'
      case isTrue => cases hfd'
      case isFalse => exact hfd'

/-- Nothing but the first connection is taken off the backlog, and it is handed over or closed. -/
theorem handleRead (h : Sound s obs) (hcall : s.call = .accept) (error errno : Option ℤ) :
    (∃ e ∉ [EAGAIN, ECONNABORTED, EINTR, EPROTO, EPERM, EMFILE], s.accept error = .error e ∧
      s.handleRead error errno = .error .abort) ∨
    ∃ s' out, s.handleRead error errno = .ok (s', out) ∧ Sound s' (obs ++ out) := by
  rw [Acceptor.handleRead]
  cases ha : s.accept error with
  | error e =>
    dsimp only
    by_cases he : e ∈ [EAGAIN, ECONNABORTED, EINTR, EPROTO, EPERM, EMFILE]
    · rw [if_pos he]
      split
      · refine Or.inr ⟨_, [], rfl, ?_⟩
        have hheld : ({ s with call := .closeIdle } : Acceptor).held = s.held := by
          simp only [held, hcall]
        rw [List.append_nil]
        exact h.retable rfl rfl (by rw [hheld]; exact h.owned) (fun _ _ hfd => hfd)
      · exact Or.inr ⟨s, [], rfl, by rw [List.append_nil]; exact h⟩
    · rw [if_neg he]
      exact Or.inl ⟨e, he, rfl, rfl⟩
  | ok r =>
    obtain ⟨id,fd,s1⟩ := r
    obtain ⟨table,backlog,halloc,hbacklog,rfl⟩ := accept_ok ha
    obtain ⟨hfree,howner⟩ := Slots.allocate_owner halloc
    have hself : Slots.owner table fd = some .acceptor := by rw [howner, if_pos rfl]
    have hnot : s.held ≠ some fd := by
      intro hheld
      rw [(h.owned fd).mpr hheld] at hfree
      cases hfree
    have hkeep (fd' : ℕ) : Slots.owner s.table fd' = some .acceptor ↔ s.held = some fd' := h.owned fd'
    refine Or.inr ?_
    dsimp only
    split
    · obtain ⟨htaken,hnew⟩ := h.take hbacklog (.handed id) rfl
      have hafter (fd' : ℕ) : Slots.owner (Slots.transfer table fd (.connection id)) fd' =
          if fd' = fd then some (.connection id) else Slots.owner s.table fd' := by
        rw [Slots.owner_transfer hself, howner]
        split
        · rfl
        · rfl
      refine ⟨_, _, rfl, htaken, ?_, ?_, ?_⟩
      · intro fd'
        dsimp only
        rw [hafter]
        split
        case isTrue heq => exact iff_of_false (fun hother => by cases hother) (heq ▸ hnot)
        case isFalse => exact hkeep fd'
      · intro fd' id' hfd'
        dsimp only at hfd'
        rw [hafter] at hfd'
        split at hfd'
        case isTrue =>
          obtain rfl := FdOwner.connection.inj (Option.some.inj hfd')
          exact List.mem_append_right _ List.mem_cons_self
        case isFalse => exact List.mem_append_left _ (h.connections fd' id' hfd')
      · intro fd1 fd2 id' h1 h2
        dsimp only at h1 h2
        rw [hafter] at h1 h2
        split at h1
        case isTrue heq1 =>
          obtain rfl := FdOwner.connection.inj (Option.some.inj h1)
          split at h2
          case isTrue heq2 => exact heq1.trans heq2.symm
          case isFalse => exact absurd (h.connections fd2 _ h2) hnew
        case isFalse =>
          split at h2
          case isTrue =>
            obtain rfl := FdOwner.connection.inj (Option.some.inj h2)
            exact absurd (h.connections fd1 _ h1) hnew
          case isFalse => exact h.sole fd1 fd2 id' h1 h2
    · -- without a callback the descriptor is given back at once
      obtain ⟨htaken,_⟩ := h.take hbacklog (.dropped id) rfl
      have hafter (fd' : ℕ) : Slots.owner (Slots.release table fd) fd' = Slots.owner s.table fd' := by
        rw [Slots.owner_release, howner]
        by_cases heq : fd' = fd
        · rw [if_pos heq, heq, hfree]
        · rw [if_neg heq, if_neg heq]
      rw [Acceptor.close, if_pos hself]
      refine ⟨_, _, rfl, htaken, ?_, ?_, ?_⟩
      · intro fd'
        dsimp only
        rw [hafter]
        exact hkeep fd'
      · intro fd' id' hfd'
        dsimp only at hfd'
        rw [hafter] at hfd'
        exact List.mem_append_left _ (h.connections fd' id' hfd')
      · intro fd1 fd2 id' h1 h2
        dsimp only at h1 h2
        rw [hafter] at h1 h2
        exact h.sole fd1 fd2 id' h1 h2

/-- A descriptor that nobody had becomes the acceptor's. -/
theorem owned_allocate {t table : List (Option FdOwner)} (hnone : ∀ fd, Slots.owner t fd ≠ some .acceptor)
    (halloc : Slots.allocate t .acceptor = some (fd, table)) :
    (∀ fd', Slots.owner table fd' = some .acceptor ↔ some fd = some fd') ∧
      ∀ fd' id, Slots.owner table fd' = some (.connection id) → Slots.owner t fd' = some (.connection id) := by
  obtain ⟨_,howner⟩ := Slots.allocate_owner halloc
  refine ⟨?_, ?_⟩
  · intro fd'
    rw [howner, Option.some.injEq]
    by_cases heq : fd' = fd
    · rw [if_pos heq]
      exact iff_of_true rfl heq.symm
    · rw [if_neg heq]
      exact iff_of_false (hnone fd') (Ne.symm heq)
  · intro fd' id hfd'
    rw [howner] at hfd'
    split at hfd'
    case isTrue => cases hfd'
    case isFalse => exact hfd'

theorem none_owned (h : Sound s obs) (hheld : s.held = none) (fd : ℕ) : Slots.owner s.table fd ≠ some .acceptor := by
  intro hfd
  rw [h.owned, hheld] at hfd
  cases hfd

/-- Each of the calls behind `errno == EMFILE`. -/
theorem proceed (h : Sound s obs) (error : Option ℤ) :
    ∃ s' out, s.proceed error = .ok (s', out) ∧ Sound s' (obs ++ out) := by
  rw [Acceptor.proceed]
  cases hcall : s.call with
  | accept => exact ⟨s, [], rfl, by rw [List.append_nil]; exact h⟩
  | gone => exact ⟨s, [], rfl, by rw [List.append_nil]; exact h⟩
  | closeIdle =>
    obtain ⟨table,hclose,hnone,hconn,_⟩ := h.close (show s.held = s.idleFd by simp only [held, hcall])
    dsimp only
    rw [hclose]
    refine ⟨_, [], rfl, ?_⟩
    rw [List.append_nil]
    exact h.retable rfl rfl (fun fd => iff_of_false (hnone fd) (fun hfd => by cases hfd)) hconn
  | closeAccepted =>
    obtain ⟨table,hclose,hnone,hconn,_⟩ := h.close (show s.held = s.idleFd by simp only [held, hcall])
    dsimp only
    rw [hclose]
    refine ⟨_, [], rfl, ?_⟩
    rw [List.append_nil]
    exact h.retable rfl rfl (fun fd => iff_of_false (hnone fd) (fun hfd => by cases hfd)) hconn
  | acceptIdle =>
    have hnone := h.none_owned (by simp only [held, hcall])
    dsimp only
    cases ha : s.accept error with
    -- the number becomes negative, and the `close` that follows does nothing
    | error e =>
      refine ⟨_, [], rfl, ?_⟩
      rw [List.append_nil]
      exact h.retable rfl rfl (fun fd => iff_of_false (hnone fd) (fun hfd => by cases hfd)) (fun _ _ hfd => hfd)
    | ok r =>
      obtain ⟨id,fd,s1⟩ := r
      obtain ⟨table,backlog,halloc,hbacklog,rfl⟩ := accept_ok ha
      obtain ⟨howned,hconn⟩ := owned_allocate hnone halloc
      obtain ⟨htaken,_⟩ := h.take hbacklog (.dropped id) rfl
      refine ⟨_, _, rfl, htaken, howned, ?_, ?_⟩
      · intro fd' id' hfd'
        exact List.mem_append_left _ (h.connections fd' id' (hconn fd' id' hfd'))
      · intro fd1 fd2 id' h1 h2
        exact h.sole fd1 fd2 id' (hconn fd1 id' h1) (hconn fd2 id' h2)
  | openIdle =>
    have hnone := h.none_owned (by simp only [held, hcall])
    refine ⟨_, [], rfl, ?_⟩
    rw [List.append_nil]
    rcases s.openIdle_cases error with ⟨fd,table,_,halloc,hopen⟩ | ⟨_,hopen⟩
    · obtain ⟨howned,hconn⟩ := owned_allocate hnone halloc
      rw [hopen]
      exact h.retable rfl rfl howned hconn
    · rw [hopen]
      exact h.retable rfl rfl (fun fd => iff_of_false (hnone fd) (fun hfd => by cases hfd)) (fun _ _ hfd => hfd)

/-- One step, of any thread. -/
theorem step (h : Sound s obs) (event : AcceptorEvent) :
    (∃ error errno, event = .handleRead error errno ∧ s.step event = .error .abort ∧
      ∃ e ∉ [EAGAIN, ECONNABORTED, EINTR, EPROTO, EPERM, EMFILE], s.accept error = .error e) ∨
    ∃ s' out, s.step event = .ok (s', out) ∧ Sound s' (obs ++ out) := by
  have hskip : ∃ s' out, (Except.ok (s, []) : Except AcceptorFault (Acceptor × List AcceptorObs)) = .ok (s', out) ∧
      Sound s' (obs ++ out) := ⟨s, [], rfl, by rw [List.append_nil]; exact h⟩
  cases event with
  | arrive =>
    refine Or.inr ⟨_, [], rfl, ?_, h.owned, ?_, h.sole⟩
    · rw [List.append_nil]
      dsimp only
      rw [← List.append_assoc, h.taken, List.range_succ]
    · rw [List.append_nil]
      exact h.connections
  | opened =>
    refine Or.inr ?_
    rw [Acceptor.step]
    cases halloc : Slots.allocate s.table .other with
    | none => exact hskip
    | some r =>
      obtain ⟨hfree,howner⟩ := Slots.allocate_owner halloc
      refine ⟨_, [], rfl, ?_⟩
      rw [List.append_nil]
      refine h.retable rfl rfl ?_ ?_
      · intro fd
        dsimp only
        rw [howner]
        by_cases heq : fd = r.1
        · rw [if_pos heq]
          refine iff_of_false (fun hother => by cases hother) ?_
          intro hheld
          have hacceptor := (h.owned fd).mpr hheld
          rw [heq, hfree] at hacceptor
          cases hacceptor
        · rw [if_neg heq]
          exact h.owned fd
      · intro fd id hfd
        dsimp only at hfd
        rw [howner] at hfd
        split at hfd
        case isTrue => cases hfd
        case isFalse => exact hfd
  | closed fd =>
    refine Or.inr ?_
    rw [Acceptor.step]
    split
    case isTrue => exact hskip
    case isFalse hforeign =>
      refine ⟨_, [], rfl, ?_⟩
      rw [List.append_nil]
      refine h.retable rfl rfl ?_ ?_
      · intro fd'
        dsimp only
        rw [Slots.owner_release]
        by_cases heq : fd' = fd
        · rw [if_pos heq]
          exact iff_of_false (fun hnone => by cases hnone) (fun hheld => hforeign (heq ▸ (h.owned fd').mpr hheld))
        · rw [if_neg heq]
          exact h.owned fd'
      · intro fd' id hfd'
        dsimp only at hfd'
        rw [Slots.owner_release] at hfd'
        split at hfd'
        case isTrue => cases hfd'
        case isFalse => exact hfd'
  | handleRead error errno =>
    rw [Acceptor.step]
    split
    case isTrue hcall =>
      rcases h.handleRead hcall error errno with ⟨e,he,ha,habort⟩ | hok
      · exact Or.inl ⟨error, errno, rfl, habort, e, he, ha⟩
      · exact Or.inr hok
    case isFalse => exact Or.inr hskip
  | proceed error => exact Or.inr (h.proceed error)
  | destroy =>
    refine Or.inr ?_
    rw [Acceptor.step]
    split
    case isTrue hcall =>
      obtain ⟨table,hclose,hnone,hconn,_⟩ := h.close (show s.held = s.idleFd by simp only [held, hcall])
      rw [hclose]
      refine ⟨_, [], rfl, ?_⟩
      rw [List.append_nil]
      exact h.retable rfl rfl (fun fd => iff_of_false (hnone fd) (fun hfd => by cases hfd)) hconn
    case isFalse => exact hskip

end Sound
end Acceptor

end IdealServer
