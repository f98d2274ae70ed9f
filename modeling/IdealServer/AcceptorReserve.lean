import IdealServer.Acceptor

/-! Runs of an `Acceptor`: whose descriptors it closes, and that its reserve keeps it from running hot when no
descriptor is left. -/
namespace IdealServer
namespace Acceptor

variable {s s' : Acceptor} {obs out : List AcceptorObs} {fd : ℕ}

theorem accept_error {error : Option ℤ} {e : ℤ} (h : s.accept error = .error e) :
    error = some e ∨ e = EMFILE ∨ e = EAGAIN := by
  cases error with
  | some e' => exact Or.inl (congrArg some (Except.error.inj h))
  | none =>
    rw [accept] at h
    split at h
    · exact Or.inr (Or.inl (Except.error.inj h).symm)
    · split at h
      · exact Or.inr (Or.inr (Except.error.inj h).symm)
      · cases h

theorem run_sound (h : Sound s obs) (events : List AcceptorEvent) :
    (∃ s' out, Runs.run step s events = .ok (s', out) ∧ Sound s' (obs ++ out)) ∨
    (Runs.run step s events = .error .abort ∧ ∃ e ∉ [EAGAIN, ECONNABORTED, EINTR, EPROTO, EPERM, EMFILE], ∃ errno,
      .handleRead (some e) errno ∈ events) := by
  induction events generalizing s obs with
  | nil => exact Or.inl ⟨s, [], rfl, by rw [List.append_nil]; exact h⟩
  | cons event events ih =>
    rcases h.step event with ⟨error,errno,rfl,hstep,e,he,ha⟩ | ⟨s1,out1,hstep,h1⟩
    · have herror : error = some e := by
        rcases accept_error ha with herror | rfl | rfl
        · exact herror
        · exact absurd (by decide) he
        · exact absurd (by decide) he
      exact Or.inr ⟨Runs.run_cons_of_error hstep, e, he, errno, by rw [herror]; exact List.mem_cons_self⟩
    · rcases ih h1 with ⟨s2,out2,hrun,h2⟩ | ⟨hrun,e,he,errno,hmem⟩
      · exact Or.inl ⟨s2, out1 ++ out2, Runs.run_cons_of_ok hstep hrun, by rw [← List.append_assoc]; exact h2⟩
      · exact Or.inr ⟨Runs.run_cons_error_of_ok hstep hrun, e, he, errno, List.mem_cons_of_mem _ hmem⟩

/-- The constructor takes one descriptor for itself. -/
theorem new_sound {table : List (Option FdOwner)} {callback : Bool}
    (htable : ∀ fd o, Slots.owner table fd = some o → o = .other) (h : new table callback = .ok s) :
    Sound s [] ∧ s.call = .accept ∧ s.callback = callback ∧ s.idleFd.isSome := by
  have hnone (fd : ℕ) : Slots.owner table fd ≠ some .acceptor := by
    intro hfd
    cases htable fd _ hfd
  have hconn (fd id : ℕ) : Slots.owner table fd ≠ some (.connection id) := by
    intro hfd
    cases htable fd _ hfd
  rw [new] at h
  rcases openIdle_cases ⟨table, [], 0, callback, .accept, none⟩ none with ⟨fd,table',_,halloc,hopen⟩ | ⟨_,hopen⟩
  · rw [hopen, if_neg (Option.some_ne_none fd)] at h
    obtain rfl := Except.ok.inj h
    obtain ⟨howned,hkeep⟩ := Sound.owned_allocate hnone halloc
    refine ⟨⟨rfl, howned, ?_, ?_⟩, rfl, rfl, rfl⟩
    · exact fun fd' id hfd => absurd (hkeep fd' id hfd) (hconn fd' id)
    · exact fun fd' _ id hfd => absurd (hkeep fd' id hfd) (hconn fd' id)
  · rw [hopen, if_pos rfl] at h
    cases h

/-- Whatever other threads do in between, the acceptor closes no descriptor but its own and has no more than the one
in reserve, all connections are taken in the order in which they come, each once, and the descriptors of
connections belong to different ones that have been handed over. Only an error that `accept` is not known to give
ends the process. -/
theorem own_descriptors_closed {table : List (Option FdOwner)} {callback : Bool} {s0 : Acceptor}
    (htable : ∀ fd o, Slots.owner table fd = some o → o = .other) (hnew : new table callback = .ok s0)
    (events : List AcceptorEvent) :
    (∃ s obs, Runs.run step s0 events = .ok (s, obs) ∧
      obs.map AcceptorObs.id ++ s.backlog = List.range s.arrived ∧
      (∀ fd, Slots.owner s.table fd = some .acceptor ↔ s.held = some fd) ∧
      (∀ fd id, Slots.owner s.table fd = some (.connection id) → .handed id ∈ obs) ∧
      ∀ fd fd' id, Slots.owner s.table fd = some (.connection id) →
        Slots.owner s.table fd' = some (.connection id) → fd = fd') ∨
    (Runs.run step s0 events = .error .abort ∧
      ∃ e ∉ [EAGAIN, ECONNABORTED, EINTR, EPROTO, EPERM, EMFILE], ∃ errno, .handleRead (some e) errno ∈ events) := by
  rcases run_sound (new_sound htable hnew).1 events with ⟨s,obs,hrun,h⟩ | habort
  · exact Or.inl ⟨s, obs, hrun, h.taken, h.owned, h.connections, h.sole⟩
  · exact Or.inr habort

/-- Two descriptors are free, of which the constructor takes one. -/
def smallTable : List (Option FdOwner) := [some .other, none, none]

theorem smallTable_other (fd : ℕ) (o : FdOwner) (h : Slots.owner smallTable fd = some o) : o = .other := by
  rcases fd with _ | _ | _ | fd
  · exact (Option.some.inj h).symm
  · cases h
  · cases h
  · cases h

/-- Two connections come, and the second finds no descriptor. -/
def busyEvents : List AcceptorEvent :=
  [.arrive, .arrive, .handleRead none none, .handleRead none none, .proceed none, .opened, .proceed none]

theorem own_descriptors_closed_busy : ∃ s0, new smallTable true = .ok s0 ∧
    ((∃ s obs, Runs.run step s0 busyEvents = .ok (s, obs) ∧
      obs.map AcceptorObs.id ++ s.backlog = List.range s.arrived ∧
      (∀ fd, Slots.owner s.table fd = some .acceptor ↔ s.held = some fd) ∧
      (∀ fd id, Slots.owner s.table fd = some (.connection id) → .handed id ∈ obs) ∧
      ∀ fd fd' id, Slots.owner s.table fd = some (.connection id) →
        Slots.owner s.table fd' = some (.connection id) → fd = fd') ∨
    (Runs.run step s0 busyEvents = .error .abort ∧
      ∃ e ∉ [EAGAIN, ECONNABORTED, EINTR, EPROTO, EPERM, EMFILE], ∃ errno,
        .handleRead (some e) errno ∈ busyEvents)) :=
  ⟨_, rfl, own_descriptors_closed smallTable_other rfl busyEvents⟩

/-- The reserve is there, or there is a free descriptor for it. -/
def Reserve (s : Acceptor) : Prop :=
  match s.call with
  | .accept | .closeIdle => s.idleFd.isSome
  | .acceptIdle | .openIdle => 0 < Slots.free s.table
  | .closeAccepted => s.idleFd.isSome ∨ 0 < Slots.free s.table
  | .gone => True

/-- The reserve has been given up for a moment. -/
def Exposed (s : Acceptor) : Prop := s.call = .acceptIdle ∨ s.call = .closeAccepted ∨ s.call = .openIdle

/-- No other thread takes the last descriptor while the reserve is given up, and `/dev/null` can be opened. -/
def Calm (s : Acceptor) : AcceptorEvent → Prop
  | .opened => s.Exposed → 1 < Slots.free s.table
  | .proceed error => s.call = .openIdle → error = none
  | _ => True

/-- More descriptors are free than before, and the acceptor has what it had. -/
theorem Reserve.mono (h : s.Reserve) (hcall : s'.call = s.call) (hidle : s'.idleFd = s.idleFd)
    (hfree : s.Exposed → 0 < Slots.free s.table → 0 < Slots.free s'.table) : s'.Reserve := by
  rw [Reserve, hcall, hidle]
  rw [Reserve] at h
  cases hc : s.call with
  | accept =>
    rw [hc] at h
    exact h
  | closeIdle =>
    rw [hc] at h
    exact h
  | acceptIdle =>
    rw [hc] at h
    exact hfree (Or.inl hc) h
  | closeAccepted =>
    rw [hc] at h
    exact h.imp_right (hfree (Or.inr (Or.inl hc)))
  | openIdle =>
    rw [hc] at h
    exact hfree (Or.inr (Or.inr hc)) h
  | gone => trivial

theorem Reserve.proceed (hr : s.Reserve) (h : Sound s obs) {error : Option ℤ} (hcalm : s.Calm (.proceed error))
    (hstep : s.proceed error = .ok (s', out)) : s'.Reserve := by
  rw [Acceptor.proceed] at hstep
  rw [Reserve] at hr
  cases hcall : s.call with
  | accept =>
    rw [hcall] at hstep hr
    obtain ⟨rfl,_⟩ := Prod.mk.inj (Except.ok.inj hstep)
    rw [Reserve, hcall]
    exact hr
  | gone =>
    rw [hcall] at hstep
    obtain ⟨rfl,_⟩ := Prod.mk.inj (Except.ok.inj hstep)
    rw [Reserve, hcall]
    trivial
  | closeIdle =>
    rw [hcall] at hstep hr
    obtain ⟨table,hclose,_,_,hfree⟩ := h.close (show s.held = s.idleFd by simp only [held, hcall])
    dsimp only at hstep
    rw [hclose] at hstep
    obtain ⟨rfl,_⟩ := Prod.mk.inj (Except.ok.inj hstep)
    rw [if_pos hr] at hfree
    exact show 0 < Slots.free table by omega
  | acceptIdle =>
    rw [hcall] at hstep hr
    dsimp only at hstep
    split at hstep
    · obtain ⟨rfl,_⟩ := Prod.mk.inj (Except.ok.inj hstep)
      exact Or.inl rfl
    · obtain ⟨rfl,_⟩ := Prod.mk.inj (Except.ok.inj hstep)
      exact Or.inr hr
  | closeAccepted =>
    rw [hcall] at hstep hr
    obtain ⟨table,hclose,_,_,hfree⟩ := h.close (show s.held = s.idleFd by simp only [held, hcall])
    dsimp only at hstep
    rw [hclose] at hstep
    obtain ⟨rfl,_⟩ := Prod.mk.inj (Except.ok.inj hstep)
    change 0 < Slots.free table
    rcases hr with hidle | hpos
    · rw [if_pos hidle] at hfree
      omega
    · omega
  | openIdle =>
    rw [hcall] at hstep hr
    obtain ⟨rfl,_⟩ := Prod.mk.inj (Except.ok.inj hstep)
    rcases s.openIdle_cases error with ⟨fd,table,_,_,hopen⟩ | ⟨herror | hfull,_⟩
    · rw [hopen]
      exact rfl
    · exact absurd (hcalm hcall) herror
    · rw [hfull] at hr
      exact absurd hr (Nat.lt_irrefl 0)

theorem Reserve.handleRead (hr : s.Reserve) (hcall : s.call = .accept) {error errno : Option ℤ}
    (hstep : s.handleRead error errno = .ok (s', out)) : s'.Reserve := by
  have hidle : s.idleFd.isSome := by
    rw [Reserve, hcall] at hr
    exact hr
  have hstay {t : Acceptor} (ht : t.call = .accept) (hidle' : t.idleFd = s.idleFd) : t.Reserve := by
    rw [Reserve, ht, hidle']
    exact hidle
  rw [Acceptor.handleRead] at hstep
  split at hstep
  case h_1 id fd s1 ha =>
    obtain ⟨table,backlog,_,_,rfl⟩ := accept_ok ha
    split at hstep
    · obtain ⟨rfl,_⟩ := Prod.mk.inj (Except.ok.inj hstep)
      exact hstay hcall rfl
    · obtain ⟨s2,hclose,heq⟩ := Runs.map_ok hstep
      obtain ⟨rfl,_⟩ := Prod.mk.inj heq
      rw [Acceptor.close] at hclose
      split at hclose
      · obtain rfl := Except.ok.inj hclose
        exact hstay hcall rfl
      · cases hclose
  case h_2 e _ =>
    split at hstep
    · split at hstep
      · obtain ⟨rfl,_⟩ := Prod.mk.inj (Except.ok.inj hstep)
        exact hidle
      · obtain ⟨rfl,_⟩ := Prod.mk.inj (Except.ok.inj hstep)
        exact hr
    · cases hstep

theorem Reserve.step (hr : s.Reserve) (h : Sound s obs) {event : AcceptorEvent} (hcalm : s.Calm event)
    (hstep : s.step event = .ok (s', out)) : s'.Reserve := by
  cases event with
  | arrive =>
    obtain ⟨rfl,_⟩ := Prod.mk.inj (Except.ok.inj hstep)
    exact hr
  | opened =>
    rw [Acceptor.step] at hstep
    split at hstep
    case h_1 fd table halloc =>
      obtain ⟨rfl,_⟩ := Prod.mk.inj (Except.ok.inj hstep)
      refine hr.mono rfl rfl ?_
      intro hexposed _
      have hfree := Slots.allocate_free halloc
      have hspare := hcalm hexposed
      dsimp only
      omega
    case h_2 =>
      obtain ⟨rfl,_⟩ := Prod.mk.inj (Except.ok.inj hstep)
      exact hr
  | closed fd =>
    rw [Acceptor.step] at hstep
    split at hstep
    · obtain ⟨rfl,_⟩ := Prod.mk.inj (Except.ok.inj hstep)
      exact hr
    · obtain ⟨rfl,_⟩ := Prod.mk.inj (Except.ok.inj hstep)
      exact hr.mono rfl rfl (fun _ hpos => Nat.lt_of_lt_of_le hpos (Slots.free_le_free_release _ _))
  | handleRead error errno =>
    rw [Acceptor.step] at hstep
    split at hstep
    case isTrue hcall => exact hr.handleRead hcall hstep
    case isFalse =>
      obtain ⟨rfl,_⟩ := Prod.mk.inj (Except.ok.inj hstep)
      exact hr
  | proceed error => exact hr.proceed h hcalm hstep
  | destroy =>
    rw [Acceptor.step] at hstep
    split at hstep
    · obtain ⟨s1,_,heq⟩ := Runs.map_ok hstep
      obtain ⟨rfl,_⟩ := Prod.mk.inj heq
      trivial
    · obtain ⟨rfl,_⟩ := Prod.mk.inj (Except.ok.inj hstep)
      exact hr

/-- The calls of one `handleRead`, with none of another thread between. -/
def onePass : List AcceptorEvent :=
  [.handleRead none none, .proceed none, .proceed none, .proceed none, .proceed none]

/-- Which connection it is, and whether it is handed over. -/
def verdict : AcceptorObs → ℕ × Bool
  | .handed id => (id, true)
  | .dropped id => (id, false)

theorem run_onePass {s1 s2 s3 s4 s5 : Acceptor} {o1 o2 o3 o4 o5 : List AcceptorObs} (hcall : s.call = .accept)
    (h1 : s.handleRead none none = .ok (s1, o1)) (h2 : s1.proceed none = .ok (s2, o2))
    (h3 : s2.proceed none = .ok (s3, o3)) (h4 : s3.proceed none = .ok (s4, o4))
    (h5 : s4.proceed none = .ok (s5, o5)) :
    Runs.run step s onePass = .ok (s5, o1 ++ (o2 ++ (o3 ++ (o4 ++ (o5 ++ []))))) := by
  have hfirst : s.step (.handleRead none none) = .ok (s1, o1) := by
    rw [step, if_pos hcall]
    exact h1
  exact Runs.run_cons_of_ok hfirst (Runs.run_cons_of_ok h2 (Runs.run_cons_of_ok h3 (Runs.run_cons_of_ok h4
    (Runs.run_cons_of_ok h5 rfl))))

/-- While there are free descriptors the first connection is handed over. -/
theorem pass_room (hcall : s.call = .accept) (hcallback : s.callback = true) (hfree : 0 < Slots.free s.table) :
    ∃ table, Runs.run step s onePass =
        .ok ({ s with table := table, backlog := s.backlog.tail }, (s.backlog.head?.map AcceptorObs.handed).toList) ∧
      Slots.free table = Slots.free s.table-s.backlog.head?.toList.length := by
  obtain ⟨fd,table,halloc⟩ := Slots.exists_allocate .acceptor hfree
  have hidle {t : Acceptor} (ht : t.call = .accept) : t.proceed none = .ok (t, []) := by
    rw [Acceptor.proceed, ht]
  cases hb : s.backlog with
  | nil =>
    have hfirst : s.handleRead none none = .ok (s, []) := by
      have ha : s.accept none = .error EAGAIN := by
        rw [accept, halloc]
        dsimp only
        rw [hb]
      rw [Acceptor.handleRead, ha]
      rfl
    refine ⟨s.table, ?_, rfl⟩
    rw [run_onePass hcall hfirst (hidle hcall) (hidle hcall) (hidle hcall) (hidle hcall)]
    rw [show s = { s with backlog := [] } by rw [← hb]]
    rfl
  | cons id backlog =>
    have ha : s.accept none = .ok (id, fd, { s with table := table, backlog := backlog }) := by
      rw [accept, halloc]
      dsimp only
      rw [hb]
    have hfirst : s.handleRead none none =
        .ok ({ s with table := Slots.transfer table fd (.connection id), backlog := backlog }, [.handed id]) := by
      rw [Acceptor.handleRead, ha]
      dsimp only
      rw [if_pos hcallback]
    have hself : Slots.owner table fd = some .acceptor := by
      rw [(Slots.allocate_owner halloc).2, if_pos rfl]
    refine ⟨Slots.transfer table fd (.connection id), ?_, ?_⟩
    · rw [run_onePass hcall hfirst (hidle hcall) (hidle hcall) (hidle hcall) (hidle hcall)]
      rfl
    · have hone := Slots.allocate_free halloc
      rw [Slots.free_transfer hself]
      exact show Slots.free table = Slots.free s.table-1 by omega

/-- Where no descriptor is free the first connection is dropped, and the reserve is filled again. -/
theorem pass_full (h : Sound s obs) (hcall : s.call = .accept) (hidle : s.idleFd.isSome)
    (hfull : Slots.free s.table = 0) : ∃ table fd, Runs.run step s onePass =
        .ok ({ s with table := table, backlog := s.backlog.tail, idleFd := some fd },
          (s.backlog.head?.map AcceptorObs.dropped).toList) ∧
      Slots.free table = 0 := by
  have hfirst : s.handleRead none none = .ok ({ s with call := .closeIdle }, []) := by
    have ha : s.accept none = .error EMFILE := by
      rw [accept, Slots.allocate_eq_none.mpr hfull]
    rw [Acceptor.handleRead, ha]
    rfl
  -- giving up the reserve makes room for one descriptor
  obtain ⟨table1,hclose,_,_,hfree1⟩ := h.close (show s.held = s.idleFd by simp only [held, hcall])
  rw [if_pos hidle, hfull] at hfree1
  have hsecond : ({ s with call := .closeIdle } : Acceptor).proceed none =
      .ok ({ s with table := table1, call := .acceptIdle }, []) := by
    have hclose' : ({ s with call := .closeIdle } : Acceptor).close s.idleFd =
        .ok { s with table := table1, call := .closeIdle } := by
      obtain ⟨fd,hfd⟩ := Option.isSome_iff_exists.mp hidle
      have howner : Slots.owner s.table fd = some .acceptor := by
        rw [h.owned, held, hcall]
        exact hfd
      rw [hfd, Acceptor.close, if_pos howner] at hclose ⊢
      have htable := congrArg Acceptor.table (Except.ok.inj hclose)
      dsimp only at htable ⊢
      rw [htable]
    rw [Acceptor.proceed]
    dsimp only
    rw [hclose']
    rfl
  obtain ⟨fd,table2,halloc⟩ := Slots.exists_allocate FdOwner.acceptor (show 0 < Slots.free table1 by omega)
  have hone := Slots.allocate_free halloc
  cases hb : s.backlog with
  -- nothing is accepted, and the room is there for the next reserve
  | nil =>
    have hthird : ({ s with table := table1, call := .acceptIdle } : Acceptor).proceed none =
        .ok ({ s with table := table1, call := .closeAccepted, idleFd := none }, []) := by
      rw [Acceptor.proceed]
      dsimp only [accept]
      rw [halloc]
      dsimp only
      rw [hb]
    have hfourth : ({ s with table := table1, call := .closeAccepted, idleFd := none } : Acceptor).proceed none =
        .ok ({ s with table := table1, call := .openIdle, idleFd := none }, []) := rfl
    have hfifth : ({ s with table := table1, call := .openIdle, idleFd := none } : Acceptor).proceed none =
        .ok ({ s with table := table2, call := .accept, idleFd := some fd }, []) := by
      rw [Acceptor.proceed]
      dsimp only [openIdle]
      rw [halloc]
    refine ⟨table2, fd, ?_, by omega⟩
    rw [run_onePass hcall hfirst hsecond hthird hfourth hfifth, ← hcall, hb]
    rfl
  -- the connection takes the room and leaves it again
  | cons id backlog =>
    have hthird : ({ s with table := table1, call := .acceptIdle } : Acceptor).proceed none =
        .ok ({ s with table := table2, backlog := backlog, call := .closeAccepted, idleFd := some fd },
          [.dropped id]) := by
      rw [Acceptor.proceed]
      dsimp only [accept]
      rw [halloc]
      dsimp only
      rw [hb]
    have hself : Slots.owner table2 fd = some .acceptor := by
      rw [(Slots.allocate_owner halloc).2, if_pos rfl]
    have hfourth : ({ s with table := table2, backlog := backlog, call := .closeAccepted, idleFd := some fd } :
        Acceptor).proceed none =
        .ok ({ s with table := Slots.release table2 fd, backlog := backlog, call := .openIdle, idleFd := some fd },
          []) := by
      rw [Acceptor.proceed]
      dsimp only
      rw [Acceptor.close, if_pos hself]
      rfl
    have hfree3 := Slots.free_release hself
    obtain ⟨fd3,table3,halloc3⟩ := Slots.exists_allocate FdOwner.acceptor
      (show 0 < Slots.free (Slots.release table2 fd) by omega)
    have hthree := Slots.allocate_free halloc3
    have hfifth : ({ s with
        table := Slots.release table2 fd, backlog := backlog, call := .openIdle, idleFd := some fd } :
        Acceptor).proceed none =
        .ok ({ s with table := table3, backlog := backlog, call := .accept, idleFd := some fd3 }, []) := by
      rw [Acceptor.proceed]
      dsimp only [openIdle]
      rw [halloc3]
    refine ⟨table3, fd3, ?_, by omega⟩
    rw [run_onePass hcall hfirst hsecond hthird hfourth hfifth, ← hcall]
    rfl

/-- As many of the first connections as there are free descriptors are handed over, and the rest is dropped. -/
theorem passes (h : Sound s obs) (hcall : s.call = .accept) (hcallback : s.callback = true)
    (hidle : s.idleFd.isSome) (k : ℕ) : ∃ s' out, Runs.run step s (List.replicate k onePass).flatten = .ok (s', out) ∧
      s'.backlog = s.backlog.drop k ∧ s'.call = .accept ∧ s'.idleFd.isSome ∧
      out.map verdict = (s.backlog.take k).mapIdx (fun i id => (id, decide (i < Slots.free s.table))) := by
  induction k generalizing s obs with
  | zero => exact ⟨s, [], rfl, rfl, hcall, hidle, rfl⟩
  | succ k ih =>
    have hone : ∃ s1 out1, Runs.run step s onePass = .ok (s1, out1) ∧ s1.backlog = s.backlog.tail ∧
        s1.call = .accept ∧ s1.callback = true ∧ s1.idleFd.isSome ∧
        (s.backlog ≠ [] → Slots.free s1.table = Slots.free s.table-1) ∧
        out1.map verdict = s.backlog.head?.toList.map (fun id => (id, decide (0 < Slots.free s.table))) := by
      rcases Nat.eq_zero_or_pos (Slots.free s.table) with hfull | hfree
      · obtain ⟨table,fd,hrun,hafter⟩ := pass_full h hcall hidle hfull
        refine ⟨_, _, hrun, rfl, hcall, hcallback, rfl, fun _ => by dsimp only; omega, ?_⟩
        rw [hfull]
        cases s.backlog with
        | nil => rfl
        | cons id backlog => rfl
      · obtain ⟨table,hrun,hafter⟩ := pass_room hcall hcallback hfree
        refine ⟨_, _, hrun, rfl, hcall, hcallback, hidle, ?_, ?_⟩
        · intro hne
          obtain ⟨id,backlog,hb⟩ := List.exists_cons_of_ne_nil hne
          rw [hb] at hafter
          exact hafter
        · rw [decide_eq_true hfree]
          cases s.backlog with
          | nil => rfl
          | cons id backlog => rfl
    obtain ⟨s1,out1,hrun1,hbacklog1,hcall1,hcallback1,hidle1,hfree1,hout1⟩ := hone
    have hsound1 : Sound s1 (obs ++ out1) := by
      rcases run_sound h onePass with ⟨s2,out2,hrun2,h2⟩ | ⟨herror,_⟩
      · obtain ⟨rfl,rfl⟩ := Prod.mk.inj (Except.ok.inj (hrun1.symm.trans hrun2))
        exact h2
      · cases herror.symm.trans hrun1
    obtain ⟨s',out,hrun,hbacklog,hcall',hidle',hout⟩ := ih hsound1 hcall1 hcallback1 hidle1
    refine ⟨s', out1 ++ out, ?_, ?_, hcall', hidle', ?_⟩
    · rw [List.replicate_succ, List.flatten_cons]
      exact Runs.run_append_of_ok hrun1 hrun
    · rw [hbacklog, hbacklog1, List.drop_tail]
    · rw [List.map_append, hout1, hout, hbacklog1]
      cases hb : s.backlog with
      | nil =>
        rw [List.tail_nil, List.take_nil, List.take_nil]
        rfl
      | cons id backlog =>
        have hless := hfree1 (by rw [hb]; exact List.cons_ne_nil _ _)
        -- the first has taken a descriptor, so that the others stand one further ahead
        have hshift (i : ℕ) : decide (i < Slots.free s1.table) = decide (i+1 < Slots.free s.table) := by
          rw [hless]
          exact decide_eq_decide.mpr (by omega)
        rw [List.take_succ_cons, List.mapIdx_cons]
        simp only [List.tail_cons, hshift]
        rfl

/-- As long as no other thread takes the last descriptor while the reserve is given up, the reserve is there whenever
the acceptor returns to the loop. From then on as many calls of `handleRead` as there are connections take all of
these off the listening socket: the first are handed over while descriptors are free, and the rest is dropped. -/
theorem reserve_drains {table : List (Option FdOwner)} {callback : Bool} {s0 : Acceptor}
    (htable : ∀ fd o, Slots.owner table fd = some o → o = .other) (hnew : new table callback = .ok s0)
    {events : List AcceptorEvent} (hcalm : Runs.Along step Calm s0 events)
    (hrun : Runs.run step s0 events = .ok (s, obs)) (hcall : s.call = .accept) : s.idleFd.isSome ∧
      (s.callback = true → ∀ k, ∃ s' out, Runs.run step s (List.replicate k onePass).flatten = .ok (s', out) ∧
        s'.backlog = s.backlog.drop k ∧ s'.idleFd.isSome ∧
        out.map verdict = (s.backlog.take k).mapIdx (fun i id => (id, decide (i < Slots.free s.table)))) := by
  obtain ⟨hsound0,hcall0,_,hidle0⟩ := new_sound htable hnew
  have hreserve0 : s0.Reserve := by
    rw [Reserve, hcall0]
    exact hidle0
  have hstep (s : Acceptor) (acc : List AcceptorObs) (event : AcceptorEvent) (s' : Acceptor) (out : List AcceptorObs)
      (h : Sound s acc ∧ s.Reserve) (hcalm : s.Calm event) (hok : s.step event = .ok (s', out)) :
      Sound s' (acc ++ out) ∧ s'.Reserve := by
    refine ⟨?_, h.2.step h.1 hcalm hok⟩
    rcases h.1.step event with ⟨_,_,_,herror,_⟩ | ⟨s1,out1,hok1,h1⟩
    · cases herror.symm.trans hok
    · obtain ⟨rfl,rfl⟩ := Prod.mk.inj (Except.ok.inj (hok.symm.trans hok1))
      exact h1
  obtain ⟨hsound,hreserve⟩ := @Runs.run_invariant_along _ _ _ _ step Calm (fun s acc => Sound s acc ∧ s.Reserve) hstep s0
    s events [] obs ⟨hsound0, hreserve0⟩ hcalm hrun
  have hidle : s.idleFd.isSome := by
    rw [Reserve, hcall] at hreserve
    exact hreserve
  refine ⟨hidle, ?_⟩
  intro hcallback k
  obtain ⟨s',out,hpasses,hbacklog,_,hidle',hout⟩ := passes hsound hcall hcallback hidle k
  exact ⟨s', out, hpasses, hbacklog, hidle', hout⟩

/-- Three connections where one descriptor is left for them. -/
theorem reserve_drains_three : ∃ s0 s obs s' out, new smallTable true = .ok s0 ∧
    Runs.run step s0 [.arrive, .arrive, .arrive] = .ok (s, obs) ∧
    Runs.run step s (List.replicate 3 onePass).flatten = .ok (s', out) ∧ s'.backlog = [] ∧ s'.idleFd.isSome ∧
    out.map verdict = [(0, true), (1, false), (2, false)] := by
  have hcalm (s0 : Acceptor) : Runs.Along step Calm s0 [.arrive, .arrive, .arrive] := by
    apply Runs.along_of_forall
    simp only [List.forall_mem_cons, Calm, implies_true, true_and]
    exact fun event hevent => absurd hevent List.not_mem_nil
  obtain ⟨s',out,hpasses,hbacklog,hidle,hout⟩ := (reserve_drains smallTable_other rfl (hcalm _) rfl rfl).2 rfl 3
  exact ⟨_, _, _, s', out, rfl, rfl, hpasses, hbacklog, hidle, hout⟩

-- another thread takes the descriptor that has just been given up, and keeps it
example : (Runs.run step ⟨[some .other, some .acceptor], [0], 1, true, .accept, some 1⟩
    [.handleRead none none, .proceed none, .opened, .proceed none, .proceed none, .proceed none]).map
      (fun r => (r.1.idleFd, r.1.backlog)) = .ok (none, [0]) := by decide

end Acceptor
end IdealServer
