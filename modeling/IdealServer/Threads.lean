import IdealServer.Membership

/-! The threads that share an `RtpConnection`: its loop, which owns it through the `RtspConnection`,
and a media thread, which holds shared pointers while it runs the send callback. A task that has been
posted knows the object by its address only. -/
namespace IdealServer

/-- A push belongs to the media thread; here it is made call by call. -/
def ServerEvent.OnLoop : ServerEvent → Prop
  | .pushFrame .. => False
  | _ => True

inductive ThreadEvent
  | loop (ev : ServerEvent) (onLoop : ev.OnLoop)
  /-- The first loop of the send callback locks the weak pointer of a client. -/
  | lock (conn : ConnId)
  /-- The second one calls `sendRtpPacket`, which looks at `_isClosed` and at the TCP connection. -/
  | check (h : Handed)
  /-- The call posts its task and returns. -/
  | post (conn : ConnId)
  /-- One of the shared pointers goes out of scope. -/
  | release (conn : ConnId)
  /-- The `TcpConnection` of a closed connection is destroyed. -/
  | expire (conn : ConnId)

/-- `held` has an entry for each shared pointer of the media thread, `checked` are its calls that are
about to post, and `orphans` are the objects that only these pointers still keep. -/
structure Threads where
  srv : RtspServer
  held : List ConnId
  checked : List Handed
  orphans : ConnId → Option RtpConnection

namespace Threads

def new (ipPort version : Bytes) : Threads :=
  ⟨RtspServer.new ipPort version, [], [], fun _ => none⟩

/-- The `RtpConnection` of the connection, as long as it exists. -/
def object (t : Threads) (c : ConnId) : Option RtpConnection := (t.srv.lock c).or (t.orphans c)

/-- The tasks that are pending and those that will be. -/
def tasks (t : Threads) : List Handed := t.srv.pending ++ t.checked

/-- The calls on the object that have not returned. -/
def inCall (t : Threads) (c : ConnId) : ℕ := t.checked.countP (fun h => h.conn = c)

def lock (t : Threads) (c : ConnId) : Threads :=
  if (t.object c).isSome then { t with held := c :: t.held } else t

/-- Every call is made through a pointer of its own. -/
def check (t : Threads) (h : Handed) : Threads :=
  if t.inCall h.conn < t.held.count h.conn ∧ (t.object h.conn).any RtpConnection.sendRtpPacket then
    { t with checked := h :: t.checked }
  else t

def post (t : Threads) (c : ConnId) : Threads :=
  match t.checked.find? (fun h => h.conn = c) with
  | none => t
  | some h => { t with
      srv := { t.srv with pending := t.srv.pending ++ [h] }
      checked := t.checked.eraseP (fun h => h.conn = c) }

/-- The last pointer takes the object with it. -/
def release (t : Threads) (c : ConnId) : Threads × List ServerObs :=
  if t.inCall c < t.held.count c then
    let held := t.held.erase c
    if c ∈ held ∨ (t.srv.lock c).isSome then ({ t with held := held }, [])
    else ({ t with held := held, orphans := Function.update t.orphans c none },
      ((t.orphans c).elim [] RtpConnection.destroy).map (ServerObs.call c))
  else (t, [])

/-- `RtspServer::onConnection` erases the `RtspConnection`; its `RtpConnection` outlives it where the
media thread holds a pointer. -/
def close (t : Threads) (c : ConnId) : Threads × List ServerObs :=
  let (srv, out) := t.srv.onClose c
  if c ∈ t.held then
    ({ t with srv := srv, orphans := Function.update t.orphans c (t.object c) }, [])
  else ({ t with srv := srv, orphans := Function.update t.orphans c none }, out)

def expire (t : Threads) (c : ConnId) : Threads :=
  { t with orphans :=
      Function.update t.orphans c ((t.orphans c).map (fun s => { s with tcpConn := none })) }

/-- A pending functor runs: the first one that was posted for the connection. -/
def runTask (t : Threads) (c : ConnId) (ret : ℤ) : Except Fault (Threads × List ServerObs) :=
  match t.srv.pending.find? (fun h => h.conn = c) with
  | none => .ok (t, [])
  | some h =>
    if (t.srv.lock c).isSome then do
      let (srv, out) ← t.srv.runTask c ret
      return ({ t with srv := srv }, out)
    else
      match t.orphans c with
      | none => .error .danglingPointer
      | some rtpConn => do
        let (rtpConn, calls) ← rtpConn.sendRtpPacketInLoop h.channelId h.pkt ret
        return ({ t with
          srv := { t.srv with pending := t.srv.pending.eraseP (fun h => h.conn = c) }
          orphans := Function.update t.orphans c (some rtpConn) }, calls.map (ServerObs.call c))

def loopStep (t : Threads) : ServerEvent → Except Fault (Threads × List ServerObs)
  | .close c => .ok (t.close c)
  | .runTask c ret => t.runTask c ret
  | ev => do
    let (srv, out) ← t.srv.step ev
    return ({ t with srv := srv }, out)

def step (t : Threads) : ThreadEvent → Except Fault (Threads × List ServerObs)
  | .loop ev _ => t.loopStep ev
  | .lock c => .ok (t.lock c, [])
  | .check h => .ok (t.check h, [])
  | .post c => .ok (t.post c, [])
  | .release c => .ok (t.release c)
  | .expire c => .ok (t.expire c, [])

def run : Threads → List ThreadEvent → Except Fault (Threads × List ServerObs) := Runs.run step

/-- The event drops the last pointer to the connection's `RtpConnection`. -/
def Drops (t : Threads) (c : ConnId) : ThreadEvent → Prop
  | .loop (.close d) _ => d = c ∧ c ∉ t.held
  | .release d => d = c ∧ t.inCall c < t.held.count c ∧ c ∉ t.held.erase c ∧ t.srv.lock c = none
  | _ => False

/-- An object is not destroyed while a task for it is pending. -/
def DropsIdle (t : Threads) (ev : ThreadEvent) : Prop :=
  ∀ c, t.Drops c ev → ∀ h ∈ t.srv.pending, h.conn ≠ c

/-- Every task finds its object, and every call that has not returned has its pointer. -/
structure Lives (t : Threads) : Prop where
  alive : ∀ h ∈ t.tasks, (t.object h.conn).isSome
  pointer : ∀ c, t.inCall c ≤ t.held.count c

section Queue
variable {srv srv' : RtspServer} {ev : ServerEvent} {out : List ServerObs}

/-- Only a push and the tasks themselves touch the queue. -/
theorem step_pending (h : srv.step ev = .ok (srv', out)) (hloop : ev.OnLoop)
    (htask : ∀ c ret, ev ≠ .runTask c ret) : srv'.pending = srv.pending := by
  cases ev with
  | newConnection fd peer mem =>
    obtain ⟨rfl,_⟩ := Prod.mk.inj (Except.ok.inj h)
    rfl
  | message c bytes env =>
    cases RtspServer.onMessage_cases h with
    | closed gone => rfl
    | waiting conn input here read => rfl
    | described conn input here read q dispatch method srv1 conn' calls effect =>
      obtain ⟨_,_,hpending,_⟩ := effect.frame
      exact hpending
    | other conn here q dispatch method conn' read ops kept asked calls => rfl
  | close c =>
    obtain ⟨rfl,_⟩ := Prod.mk.inj (Except.ok.inj h)
    rfl
  | addMediaSession suffix sources =>
    obtain ⟨rfl,_⟩ := Prod.mk.inj (Except.ok.inj h)
    unfold RtspServer.addMediaSession
    dsimp only
    split
    · rfl
    · split <;> rfl
  | removeMediaSession id =>
    obtain ⟨srv1,hremove,h⟩ := Runs.bind_ok h
    obtain ⟨rfl,_⟩ := Prod.mk.inj (Except.ok.inj h)
    unfold RtspServer.removeMediaSession at hremove
    split at hremove
    · obtain rfl := Except.ok.inj hremove
      rfl
    · contradiction
    · obtain rfl := Except.ok.inj hremove
      rfl
  | setRtspUrlSuffix id suffix =>
    obtain ⟨rfl,_⟩ := Prod.mk.inj (Except.ok.inj h)
    unfold RtspServer.setRtspUrlSuffix
    split <;> rfl
  | pushFrame id channelId frame now alloc mem => exact hloop.elim
  | runTask c ret => exact absurd rfl (htask c ret)

/-- A task that runs leaves the queue, and its object is still there. -/
theorem runTask_object {c : ConnId} {ret : ℤ} (hc : (srv.lock c).isSome)
    (h : srv.runTask c ret = .ok (srv', out)) :
    (srv.pending.find? (fun h => h.conn = c) = none ∧ srv' = srv ∧ out = []) ∨
    ∃ task s s' calls, srv.pending.find? (fun h => h.conn = c) = some task ∧ srv.lock c = some s ∧
      s.sendRtpPacketInLoop task.channelId task.pkt ret = .ok (s', calls) ∧
      srv'.pending = srv.pending.eraseP (fun h => h.conn = c) ∧ srv'.lock c = some s' ∧
      (∀ d, d ≠ c → srv'.lock d = srv.lock d) ∧ out = calls.map (ServerObs.call c) := by
  unfold RtspServer.runTask at h
  cases hfind : srv.pending.find? (fun h => h.conn = c) with
  | none =>
    rw [hfind] at h
    obtain ⟨rfl,rfl⟩ := Prod.mk.inj (Except.ok.inj h)
    exact Or.inl ⟨rfl, rfl, rfl⟩
  | some task =>
    rw [hfind] at h
    cases hconn : srv.rtspConnMap c with
    | none =>
      rw [RtspServer.lock, hconn] at hc
      contradiction
    | some conn =>
      rw [hconn] at h
      dsimp only at h
      cases hs : conn.rtpConn with
      | none =>
        rw [RtspServer.lock, hconn, Option.bind_some, hs] at hc
        contradiction
      | some s =>
        rw [hs] at h
        obtain ⟨⟨s',calls⟩,hsend,h⟩ := Runs.bind_ok h
        obtain ⟨rfl,rfl⟩ := Prod.mk.inj (Except.ok.inj h)
        refine Or.inr ⟨task, s, s', calls, rfl, ?_, hsend, rfl, ?_, ?_, rfl⟩
        · rw [RtspServer.lock, hconn, Option.bind_some, hs]
        · have hself := RtspServer.setConn_self srv c { conn with rtpConn := some s' }
          show ((srv.setConn c { conn with rtpConn := some s' }).rtspConnMap c).bind _ = _
          rw [hself, Option.bind_some]
        · intro d hd
          have hother : (srv.setConn c { conn with rtpConn := some s' }).rtspConnMap d =
              srv.rtspConnMap d := Function.update_of_ne hd ..
          show ((srv.setConn c { conn with rtpConn := some s' }).rtspConnMap d).bind _ = _
          rw [hother]
          rfl

end Queue

section Lifetimes
variable {t t' : Threads} {srv srv' : RtspServer} {ev : ServerEvent} {out : List ServerObs} {c : ConnId}

/-- No event but a close takes the `RtpConnection` of a connection away. -/
theorem lock_isSome_step (hI : RtspServer.ConnInvariant srv) (h : srv.step ev = .ok (srv', out))
    (hev : ev ≠ .close c) (hc : (srv.lock c).isSome) : (srv'.lock c).isSome := by
  unfold RtspServer.lock at hc ⊢
  cases (RtspServer.step_conn h c).1 with
  | same unchanged unserved => rwa [unchanged]
  | opened number next conn' after sessionId rtpConn name input unserved =>
    rw [hI.number c number.ge] at hc
    contradiction
  | closed event after unserved => exact absurd event hev
  | kept conn conn' before after ops kept read asked served =>
    rw [before, Option.bind_some] at hc
    rw [after, Option.bind_some, kept.ran.isSome]
    exact hc
  | described conn conn' input q srv1 calls before after read dispatch method effect obs =>
    rw [after, Option.bind_some]
    obtain ⟨_,_,_,_,_,hsome⟩ := effect.frame
    exact hsome

theorem loopStep_other (hclose : ∀ c, ev ≠ .close c) (htask : ∀ c ret, ev ≠ .runTask c ret) :
    t.loopStep ev = (t.srv.step ev).bind (fun r => .ok ({ t with srv := r.1 }, r.2)) := by
  cases ev with
  | close c => exact absurd rfl (hclose c)
  | runTask c ret => exact absurd rfl (htask c ret)
  | _ => rfl

/-- Apart from closes and tasks the loop works on the server alone. -/
theorem loopStep_cases (h : t.loopStep ev = .ok (t', out)) :
    (∃ c, ev = .close c ∧ t' = (t.close c).1 ∧ out = (t.close c).2) ∨
    (∃ c ret, ev = .runTask c ret ∧ t.runTask c ret = .ok (t', out)) ∨
    (∃ srv', t.srv.step ev = .ok (srv', out) ∧ t' = { t with srv := srv' } ∧
      (∀ c, ev ≠ .close c) ∧ ∀ c ret, ev ≠ .runTask c ret) := by
  by_cases hclose : ∃ c, ev = .close c
  · obtain ⟨c,rfl⟩ := hclose
    have hboth := Except.ok.inj h
    exact Or.inl ⟨c, rfl, (congrArg Prod.fst hboth).symm, (congrArg Prod.snd hboth).symm⟩
  · by_cases htask : ∃ c ret, ev = .runTask c ret
    · obtain ⟨c,ret,rfl⟩ := htask
      exact Or.inr (Or.inl ⟨c, ret, rfl, h⟩)
    · rw [loopStep_other (fun c heq => hclose ⟨c, heq⟩) (fun c ret heq => htask ⟨c, ret, heq⟩)] at h
      obtain ⟨⟨srv',calls⟩,hstep,h⟩ := Runs.bind_ok h
      obtain ⟨rfl,rfl⟩ := Prod.mk.inj (Except.ok.inj h)
      exact Or.inr (Or.inr ⟨srv', hstep, rfl, fun c heq => hclose ⟨c, heq⟩,
        fun c ret heq => htask ⟨c, ret, heq⟩⟩)

theorem close_srv : (t.close c).1.srv = (t.srv.onClose c).1 := by
  unfold close
  dsimp only
  split <;> rfl

/-- All that the end of a pointer can do. -/
theorem release_cases (h : t.release c = (t', out)) :
    (t'.srv = t.srv ∧ t'.orphans = t.orphans ∧ out = []) ∨
    (t.inCall c < t.held.count c ∧ c ∉ t.held.erase c ∧ t.srv.lock c = none ∧
      t' = { t with held := t.held.erase c, orphans := Function.update t.orphans c none } ∧
      out = ((t.orphans c).elim [] RtpConnection.destroy).map (ServerObs.call c)) := by
  unfold release at h
  dsimp only at h
  split at h
  case isFalse =>
    obtain ⟨rfl,rfl⟩ := Prod.mk.inj h
    exact Or.inl ⟨rfl, rfl, rfl⟩
  case isTrue hheld =>
    split at h
    case isTrue =>
      obtain ⟨rfl,rfl⟩ := Prod.mk.inj h
      exact Or.inl ⟨rfl, rfl, rfl⟩
    case isFalse hlast =>
      obtain ⟨rfl,rfl⟩ := Prod.mk.inj h
      rw [not_or] at hlast
      exact Or.inr ⟨hheld, hlast.1, Option.not_isSome_iff_eq_none.mp hlast.2, rfl, rfl⟩

theorem release_frame : (t.release c).1.srv = t.srv ∧ (t.release c).1.checked = t.checked := by
  unfold release
  dsimp only
  split
  · split <;> exact ⟨rfl, rfl⟩
  · exact ⟨rfl, rfl⟩

/-- A pointer that goes out of scope is not in use by a call. -/
theorem release_pointers (hcalls : ∀ d, t.inCall d ≤ t.held.count d) (d : ConnId) :
    (t.release c).1.inCall d ≤ (t.release c).1.held.count d := by
  rw [inCall, release_frame.2]
  unfold release
  dsimp only
  split
  case isFalse => exact hcalls d
  case isTrue hfree =>
    have hbound : t.inCall d ≤ (t.held.erase c).count d := by
      rw [List.count_erase]
      split
      case isTrue hd =>
        obtain rfl := beq_iff_eq.mp hd
        omega
      case isFalse => exact hcalls d
    split <;> exact hbound

/-- The loop does not see the pointers of the media thread. -/
theorem loopStep_pointers (h : t.loopStep ev = .ok (t', out)) :
    t'.checked = t.checked ∧ t'.held = t.held := by
  rcases loopStep_cases h with ⟨c,rfl,rfl,_⟩ | ⟨c,ret,rfl,htask⟩ | ⟨srv',_,rfl,_⟩
  · unfold close
    dsimp only
    split <;> exact ⟨rfl, rfl⟩
  · unfold runTask at htask
    split at htask
    · obtain ⟨rfl,_⟩ := Prod.mk.inj (Except.ok.inj htask)
      exact ⟨rfl, rfl⟩
    · split at htask
      · obtain ⟨_,_,htask⟩ := Runs.bind_ok htask
        obtain ⟨rfl,_⟩ := Prod.mk.inj (Except.ok.inj htask)
        exact ⟨rfl, rfl⟩
      · split at htask
        · cases htask
        · obtain ⟨_,_,htask⟩ := Runs.bind_ok htask
          obtain ⟨rfl,_⟩ := Prod.mk.inj (Except.ok.inj htask)
          exact ⟨rfl, rfl⟩
  · exact ⟨rfl, rfl⟩

/-- All that a task can do. -/
theorem runTask_cases {ret : ℤ} (h : t.runTask c ret = .ok (t', out)) :
    (t.srv.pending.find? (fun h => h.conn = c) = none ∧ t' = t ∧ out = []) ∨
    ∃ task s s' calls, t.srv.pending.find? (fun h => h.conn = c) = some task ∧ t.object c = some s ∧
      s.sendRtpPacketInLoop task.channelId task.pkt ret = .ok (s', calls) ∧
      t'.srv.pending = t.srv.pending.eraseP (fun h => h.conn = c) ∧ t'.object c = some s' ∧
      (∀ d, d ≠ c → t'.object d = t.object d) ∧ out = calls.map (ServerObs.call c) := by
  unfold runTask at h
  cases hfind : t.srv.pending.find? (fun h => h.conn = c) with
  | none =>
    rw [hfind] at h
    obtain ⟨rfl,rfl⟩ := Prod.mk.inj (Except.ok.inj h)
    exact Or.inl ⟨rfl, rfl, rfl⟩
  | some task =>
    rw [hfind] at h
    dsimp only at h
    right
    split at h
    case isTrue hc =>
      obtain ⟨⟨srv',calls⟩,htask,h⟩ := Runs.bind_ok h
      obtain ⟨rfl,rfl⟩ := Prod.mk.inj (Except.ok.inj h)
      rcases runTask_object hc htask with ⟨hnone,_⟩ | ⟨task',s,s',calls',h1,h2,h3,h4,h5,h6,h7⟩
      · rw [hfind] at hnone
        contradiction
      · obtain rfl := Option.some.inj (hfind.symm.trans h1)
        refine ⟨task, s, s', calls', rfl, ?_, h3, h4, ?_, ?_, h7⟩
        · rw [object, h2]
          rfl
        · rw [object, h5]
          rfl
        · intro d hd
          rw [object, object, h6 d hd]
    case isFalse hc =>
      have hnone : t.srv.lock c = none := Option.not_isSome_iff_eq_none.mp hc
      cases hs : t.orphans c with
      | none =>
        rw [hs] at h
        contradiction
      | some s =>
        rw [hs] at h
        obtain ⟨⟨s',calls⟩,hsend,h⟩ := Runs.bind_ok h
        obtain ⟨rfl,rfl⟩ := Prod.mk.inj (Except.ok.inj h)
        refine ⟨task, s, s', calls, rfl, ?_, hsend, rfl, ?_, ?_, rfl⟩
        · rw [object, hnone, hs]
          rfl
        · show (t.srv.lock c).or (Function.update t.orphans c (some s') c) = some s'
          rw [hnone, Function.update_self]
          rfl
        · intro d hd
          show (t.srv.lock d).or (Function.update t.orphans c (some s') d) = t.object d
          rw [Function.update_of_ne hd]
          rfl

/-- A step takes the server through an event or does something to its queue. -/
theorem step_srv {ev : ThreadEvent} (h : t.step ev = .ok (t', out)) :
    (∃ event out', t.srv.step event = .ok (t'.srv, out')) ∨
      ∃ pending, t'.srv = { t.srv with pending := pending } := by
  cases ev with
  | loop event onLoop =>
    rcases loopStep_cases h with ⟨c,rfl,rfl,_⟩ | ⟨c,ret,rfl,htask⟩ | ⟨srv',hstep,rfl,_⟩
    · rw [close_srv]
      exact Or.inl ⟨.close c, _, rfl⟩
    · unfold runTask at htask
      split at htask
      · obtain ⟨rfl,_⟩ := Prod.mk.inj (Except.ok.inj htask)
        exact Or.inr ⟨_, rfl⟩
      · split at htask
        · obtain ⟨⟨srv,calls⟩,hrun,htask⟩ := Runs.bind_ok htask
          obtain ⟨rfl,_⟩ := Prod.mk.inj (Except.ok.inj htask)
          exact Or.inl ⟨.runTask c ret, calls, hrun⟩
        · split at htask
          · cases htask
          · obtain ⟨⟨s,calls⟩,_,htask⟩ := Runs.bind_ok htask
            obtain ⟨rfl,_⟩ := Prod.mk.inj (Except.ok.inj htask)
            exact Or.inr ⟨_, rfl⟩
    · exact Or.inl ⟨event, out, hstep⟩
  | lock c =>
    obtain ⟨rfl,_⟩ := Prod.mk.inj (Except.ok.inj h)
    right
    unfold lock
    split <;> exact ⟨_, rfl⟩
  | check task =>
    obtain ⟨rfl,_⟩ := Prod.mk.inj (Except.ok.inj h)
    right
    unfold check
    split <;> exact ⟨_, rfl⟩
  | post c =>
    obtain ⟨rfl,_⟩ := Prod.mk.inj (Except.ok.inj h)
    right
    unfold post
    split <;> exact ⟨_, rfl⟩
  | release c =>
    right
    rcases release_cases (Except.ok.inj h) with ⟨hsrv,_⟩ | ⟨_,_,_,rfl,_⟩
    · rw [hsrv]
      exact ⟨_, rfl⟩
    · exact ⟨_, rfl⟩
  | expire c =>
    obtain ⟨rfl,_⟩ := Prod.mk.inj (Except.ok.inj h)
    exact Or.inr ⟨_, rfl⟩

theorem connInvariant_step {ev : ThreadEvent} (hI : RtspServer.ConnInvariant t.srv)
    (h : t.step ev = .ok (t', out)) : RtspServer.ConnInvariant t'.srv := by
  rcases step_srv h with ⟨event,out',hstep⟩ | ⟨pending,hsrv⟩
  · exact hI.step hstep
  · rw [hsrv]
    exact ⟨hI.number, hI.name, hI.handle, hI.cleared⟩

@[simp] theorem object_srv (srv : RtspServer) (d : ConnId) :
    { t with srv := srv }.object d = (srv.lock d).or (t.orphans d) := rfl

/-- A close takes the connection out of the map of the server. -/
theorem lock_close (d : ConnId) :
    (t.srv.onClose c).1.lock d = if d = c then none else t.srv.lock d := by
  by_cases hd : d = c
  · subst hd
    rw [if_pos rfl]
    show (Function.update t.srv.rtspConnMap d none d).bind _ = none
    rw [Function.update_self]
    rfl
  · rw [if_neg hd]
    show (Function.update t.srv.rtspConnMap c none d).bind _ = t.srv.lock d
    rw [Function.update_of_ne hd]
    rfl

/-- A close leaves the objects of the other connections, and its own as well where the media thread
holds a pointer to it. -/
theorem object_close (d : ConnId) :
    (t.close c).1.object d = if d = c ∧ c ∉ t.held then none else t.object d := by
  have hlock := @lock_close t c d
  unfold close
  dsimp only
  split
  case isTrue hheld =>
    rw [if_neg (fun h => h.2 hheld)]
    show ((t.srv.onClose c).1.lock d).or (Function.update t.orphans c (t.object c) d) = t.object d
    rw [hlock]
    by_cases hd : d = c
    · subst hd
      rw [if_pos rfl, Function.update_self]
      rfl
    · rw [if_neg hd, Function.update_of_ne hd]
      rfl
  case isFalse hheld =>
    show ((t.srv.onClose c).1.lock d).or (Function.update t.orphans c none d) = _
    rw [hlock]
    by_cases hd : d = c
    · subst hd
      rw [if_pos rfl, if_pos ⟨rfl, hheld⟩, Function.update_self]
      rfl
    · rw [if_neg hd, if_neg (fun h => hd h.1), Function.update_of_ne hd]
      rfl

@[simp] theorem object_lock (d : ConnId) : (t.lock c).object d = t.object d := by
  unfold lock
  split <;> rfl

@[simp] theorem object_check (h : Handed) (d : ConnId) : (t.check h).object d = t.object d := by
  unfold check
  split <;> rfl

@[simp] theorem object_post (d : ConnId) : (t.post c).object d = t.object d := by
  unfold post
  split <;> rfl

@[simp] theorem tasks_lock : (t.lock c).tasks = t.tasks := by
  unfold lock
  split <;> rfl

/-- A call goes on with an object that it has just looked at. -/
theorem mem_check {h task : Handed} (htask : task ∈ (t.check h).tasks) :
    task ∈ t.tasks ∨ task = h ∧ ∃ s, t.object h.conn = some s ∧ s.sendRtpPacket := by
  unfold check at htask
  split at htask
  case isTrue hsends =>
    rcases List.mem_append.mp htask with hpending | hchecked
    · exact Or.inl (List.mem_append_left _ hpending)
    · rcases List.mem_cons.mp hchecked with rfl | hold
      · exact Or.inr ⟨rfl, (Option.any_eq_true _ _).mp hsends.2⟩
      · exact Or.inl (List.mem_append_right _ hold)
  case isFalse => exact Or.inl htask

/-- The post moves a task from the one list to the other. -/
theorem mem_post {task : Handed} (htask : task ∈ (t.post c).tasks) : task ∈ t.tasks := by
  unfold post at htask
  split at htask
  case h_1 => exact htask
  case h_2 h hfind =>
    rcases List.mem_append.mp htask with hpending | hchecked
    · rcases List.mem_append.mp hpending with hold | hnew
      · exact List.mem_append_left _ hold
      · rw [List.mem_singleton.mp hnew]
        exact List.mem_append_right _ (List.mem_of_find?_eq_some hfind)
    · exact List.mem_append_right _ (List.mem_of_mem_eraseP hchecked)

theorem lock_pointers (hcalls : ∀ d, t.inCall d ≤ t.held.count d) (d : ConnId) :
    (t.lock c).inCall d ≤ (t.lock c).held.count d := by
  unfold lock
  split
  case isTrue => exact Nat.le_trans (hcalls d) (List.count_le_count_cons ..)
  case isFalse => exact hcalls d

theorem check_pointers {h : Handed} (hcalls : ∀ d, t.inCall d ≤ t.held.count d) (d : ConnId) :
    (t.check h).inCall d ≤ (t.check h).held.count d := by
  unfold check
  split
  case isTrue hfree =>
    show (h :: t.checked).countP _ ≤ t.held.count d
    rw [List.countP_cons]
    by_cases hd : h.conn = d
    · subst hd
      rw [if_pos (decide_eq_true rfl)]
      exact hfree.1
    · rw [if_neg (by simpa using hd)]
      exact hcalls d
  case isFalse => exact hcalls d

theorem post_pointers (hcalls : ∀ d, t.inCall d ≤ t.held.count d) (d : ConnId) :
    (t.post c).inCall d ≤ (t.post c).held.count d := by
  unfold post
  split
  case h_1 => exact hcalls d
  case h_2 => exact Nat.le_trans (List.eraseP_sublist.countP_le) (hcalls d)

/-- The calls that have looked at an object are still in progress, with their pointers. -/
theorem inCall_pos {task : Handed} (h : task ∈ t.checked) : 0 < t.inCall task.conn :=
  List.countP_pos_iff.mpr ⟨task, h, decide_eq_true rfl⟩

/-- Where the last pointer goes, no call is in progress. -/
theorem Lives.dropped (hlives : t.Lives) {ev : ThreadEvent} (hdrops : t.Drops c ev) :
    ∀ task ∈ t.checked, task.conn ≠ c := by
  rintro task htask rfl
  have hpos := inCall_pos htask
  have hle := hlives.pointer task.conn
  cases ev with
  | loop ev onLoop =>
    cases ev with
    | close d =>
      obtain ⟨_,hheld⟩ := hdrops
      rw [List.count_eq_zero_of_not_mem hheld] at hle
      omega
    | _ => exact hdrops
  | release d =>
    obtain ⟨_,hfree,hlast,_⟩ := hdrops
    have hzero := List.count_eq_zero_of_not_mem hlast
    rw [List.count_erase_self] at hzero
    omega
  | _ => exact hdrops

theorem Lives.step {ev : ThreadEvent} (hlives : t.Lives) (hI : RtspServer.ConnInvariant t.srv)
    (hdrops : t.DropsIdle ev) (h : t.step ev = .ok (t', out)) : t'.Lives := by
  -- the last pointer goes only where there is no task of either kind
  have hgone (c : ConnId) (hc : t.Drops c ev) (task : Handed) (htask : task ∈ t.tasks) :
      task.conn ≠ c := by
    rcases List.mem_append.mp htask with hpending | hchecked
    · exact hdrops c hc task hpending
    · exact hlives.dropped hc task hchecked
  cases ev with
  | loop ev onLoop =>
    obtain ⟨hchecked,hheld⟩ := loopStep_pointers h
    refine ⟨?_, ?_⟩
    · intro task htask
      rw [tasks, hchecked] at htask
      rcases loopStep_cases h with ⟨c,rfl,rfl,_⟩ | ⟨c,ret,rfl,hrun⟩ | ⟨srv',hstep,rfl,hclose,htasks⟩
      · rw [close_srv] at htask
        have hkept : ¬ (task.conn = c ∧ c ∉ t.held) := by
          rintro ⟨hc,hnot⟩
          exact hgone c ⟨rfl, hnot⟩ task htask hc
        rw [object_close, if_neg hkept]
        exact hlives.alive task htask
      · rcases runTask_cases hrun with ⟨_,rfl,_⟩ | ⟨_,s,s',_,_,_,_,hpending,hself,hother,_⟩
        · exact hlives.alive task htask
        · by_cases hc : task.conn = c
          · rw [hc, hself]
            rfl
          · rw [hpending] at htask
            rw [hother _ hc]
            apply hlives.alive task
            rcases List.mem_append.mp htask with hold | hold
            · exact List.mem_append_left _ (List.mem_of_mem_eraseP hold)
            · exact List.mem_append_right _ hold
      · rw [step_pending hstep onLoop htasks] at htask
        have hlive := hlives.alive task htask
        rw [object, Option.isSome_or, Bool.or_eq_true] at hlive
        rw [object_srv, Option.isSome_or, Bool.or_eq_true]
        apply hlive.imp_left
        exact lock_isSome_step hI hstep (hclose task.conn)
    · intro c
      rw [inCall, hchecked, hheld]
      exact hlives.pointer c
  | lock c =>
    obtain ⟨rfl,_⟩ := Prod.mk.inj (Except.ok.inj h)
    refine ⟨?_, lock_pointers hlives.pointer⟩
    intro task htask
    rw [tasks_lock] at htask
    rw [object_lock]
    exact hlives.alive task htask
  | check task' =>
    obtain ⟨rfl,_⟩ := Prod.mk.inj (Except.ok.inj h)
    refine ⟨?_, check_pointers hlives.pointer⟩
    intro task htask
    rw [object_check]
    rcases mem_check htask with hold | ⟨rfl,s,hs,_⟩
    · exact hlives.alive task hold
    · rw [hs]
      rfl
  | post c =>
    obtain ⟨rfl,_⟩ := Prod.mk.inj (Except.ok.inj h)
    refine ⟨?_, post_pointers hlives.pointer⟩
    intro task htask
    rw [object_post]
    exact hlives.alive task (mem_post htask)
  | release c =>
    have hrelease : t.release c = (t', out) := Except.ok.inj h
    obtain ⟨hsrv,hchecked⟩ := @release_frame t c
    have hpointer := @release_pointers t c hlives.pointer
    rw [hrelease] at hsrv hchecked hpointer
    refine ⟨?_, hpointer⟩
    intro task htask
    rw [tasks, hsrv, hchecked] at htask
    rcases release_cases hrelease with ⟨_,horphans,_⟩ | ⟨hfree,hlast,hlock,rfl,_⟩
    · rw [Threads.object, hsrv, horphans]
      exact hlives.alive task htask
    · have hne := hgone c ⟨rfl, hfree, hlast, hlock⟩ task htask
      show ((t.srv.lock task.conn).or (Function.update t.orphans c none task.conn)).isSome
      rw [Function.update_of_ne hne]
      exact hlives.alive task htask
  | expire c =>
    obtain ⟨rfl,_⟩ := Prod.mk.inj (Except.ok.inj h)
    refine ⟨?_, hlives.pointer⟩
    intro task htask
    have hlive := hlives.alive task htask
    show ((t.srv.lock task.conn).or (Function.update t.orphans c _ task.conn)).isSome
    by_cases hc : task.conn = c
    · subst hc
      rw [Function.update_self, Option.isSome_or, Option.isSome_map, ← Option.isSome_or]
      exact hlive
    · rw [Function.update_of_ne hc]
      exact hlive

/-- What a run keeps of the server, and of the tasks where no object is destroyed under one. -/
theorem run_lives {ipPort version : Bytes} {evs : List ThreadEvent}
    (h : (Threads.new ipPort version).run evs = .ok (t, out))
    (hdrops : Runs.Along step DropsIdle (Threads.new ipPort version) evs) :
    RtspServer.ConnInvariant t.srv ∧ t.Lives := by
  apply Runs.run_preserves_along (fun t => RtspServer.ConnInvariant t.srv ∧ t.Lives) _ _ hdrops h
  · intro t ev t' out hI hev hstep
    exact ⟨connInvariant_step hI.1 hstep, hI.2.step hI.1 hev hstep⟩
  · refine ⟨RtspServer.connInvariant_new ipPort version, ?_, fun _ => Nat.le_refl 0⟩
    intro task htask
    cases htask

end Lifetimes

section Samples

/-- Events of the loop with nothing between them. -/
def loops (evs : List ServerEvent) (h : ∀ ev ∈ evs, ev.OnLoop) : List ThreadEvent :=
  evs.pmap ThreadEvent.loop h

/-- Without closes and tasks the threads do what the server does. -/
theorem run_loops {t : Threads} {srv' : RtspServer} {evs : List ServerEvent} {out : List ServerObs}
    (hloop : ∀ ev ∈ evs, ev.OnLoop)
    (hother : ∀ ev ∈ evs, (∀ c, ev ≠ .close c) ∧ ∀ c ret, ev ≠ .runTask c ret)
    (h : t.srv.run evs = .ok (srv', out)) :
    t.run (loops evs hloop) = .ok ({ t with srv := srv' }, out) := by
  induction evs generalizing t out with
  | nil =>
    obtain ⟨rfl,rfl⟩ := Prod.mk.inj (Except.ok.inj h)
    rfl
  | cons ev evs ih =>
    obtain ⟨srv1,o1,o2,h1,h2,rfl⟩ := Runs.run_cons_ok h
    have hstep : t.step (.loop ev (hloop ev List.mem_cons_self)) =
        .ok ({ t with srv := srv1 }, o1) := by
      have hev := hother ev List.mem_cons_self
      show t.loopStep ev = _
      rw [loopStep_other hev.1 hev.2, h1]
      rfl
    apply Runs.run_cons_of_ok hstep
    exact @ih { t with srv := srv1 } o2 (fun ev hev => hloop ev (List.mem_cons_of_mem _ hev))
      (fun ev hev => hother ev (List.mem_cons_of_mem _ hev)) h2

/-- One client, which has asked for a session. -/
def describedClient : List ServerEvent :=
  RtspServer.twoSessions ++ [.message 1 (RtspServer.describeRequest (ascii "t")).encode RtspServer.boundEnv]

theorem describedClient_onLoop : ∀ ev ∈ describedClient, ev.OnLoop := by
  simp [describedClient, RtspServer.twoSessions, ServerEvent.OnLoop]

theorem run_describedClient : ∃ t s out,
    (Threads.new [] []).run (loops describedClient describedClient_onLoop) = .ok (t, out) ∧
    t.srv.lock 1 = some s ∧ s.sendRtpPacket ∧ t.held = [] ∧ t.checked = [] ∧ t.srv.pending = [] := by
  have hwf : (RtspServer.describeRequest (ascii "t")).WellFormed :=
    RtspServer.describeRequest_wellFormed (.inr rfl)
  obtain ⟨srv,conn,_,session,hrun,⟨hc,_⟩,hinput,hnone,_,ht,_⟩ := RtspServer.run_twoSessions
  obtain ⟨conn',session',out,_,hstep,_,_,⟨s,hs,hprepared⟩,_⟩ :=
    RtspServer.describe_unused hc hinput ht hwf
  have hall := Runs.run_append_of_ok hrun (Runs.run_single hstep)
  have hclosed : s.isClosed = false := by
    apply hprepared.isClosed
    intro s hs
    rw [hnone] at hs
    cases hs
  have htcp : s.tcpConn = some conn.tcpConn := by
    apply hprepared.tcpConn
    intro s hs
    rw [hnone] at hs
    cases hs
  have hother : ∀ ev ∈ describedClient, (∀ c, ev ≠ .close c) ∧ ∀ c ret, ev ≠ .runTask c ret := by
    simp [describedClient, RtspServer.twoSessions]
  refine ⟨_, s, _, @run_loops (Threads.new [] []) _ _ _ describedClient_onLoop hother hall,
    ?_, ?_, rfl, rfl, ?_⟩
  · rw [RtspServer.lock, RtspServer.setConn_self]
    exact hs
  · rw [RtpConnection.sendRtpPacket, hclosed, htcp]
    rfl
  · apply Runs.run_preserves_along (fun srv => srv.pending = []) _ rfl _ hall
    · exact fun _ ev => ev ∈ describedClient
    · intro srv ev srv' out hsrv hev hstep
      exact (step_pending hstep (describedClient_onLoop ev hev) (hother ev hev).2).trans hsrv
    · exact Runs.along_of_forall (fun ev hev _ => hev)

/-- A packet of an I frame. -/
def keyPacket : RtpPacket := ⟨PacketData.zeros, 17, 90, videoFrameI, 1⟩

def keyTask : Handed := ⟨1, .channel_0, keyPacket⟩

/-- The media thread takes a pointer and calls `sendRtpPacket`. -/
def checkKeyPacket : List ThreadEvent := [.lock 1, .check keyTask]

theorem run_checkKeyPacket {t : Threads} {s : RtpConnection} (hlock : t.srv.lock 1 = some s)
    (hsends : s.sendRtpPacket) (hheld : t.held = []) (hchecked : t.checked = []) :
    t.run checkKeyPacket = .ok ({ t with held := [1], checked := [keyTask] }, []) := by
  obtain ⟨srv,held,checked,orphans⟩ := t
  subst hheld hchecked
  have hobject : (srv.lock 1).or (orphans 1) = some s := by
    rw [show srv.lock 1 = some s from hlock]
    rfl
  have h1 : step ⟨srv, [], [], orphans⟩ (.lock 1) = .ok (⟨srv, [1], [], orphans⟩, []) := by
    apply congrArg (fun t => Except.ok (t, []))
    refine if_pos ?_
    show ((srv.lock 1).or (orphans 1)).isSome
    rw [hobject]
    rfl
  have h2 : step ⟨srv, [1], [], orphans⟩ (.check keyTask) =
      .ok (⟨srv, [1], [keyTask], orphans⟩, []) := by
    apply congrArg (fun t => Except.ok (t, []))
    refine if_pos ⟨Nat.zero_lt_one, ?_⟩
    show ((srv.lock 1).or (orphans 1)).any RtpConnection.sendRtpPacket
    rw [hobject]
    exact hsends
  have hall := Runs.run_cons_of_ok h1 (Runs.run_single h2)
  exact hall

/-- The call posts its task. -/
def postKeyPacket : List ThreadEvent := checkKeyPacket ++ [.post 1]

theorem run_postKeyPacket {t : Threads} {s : RtpConnection} (hlock : t.srv.lock 1 = some s)
    (hsends : s.sendRtpPacket) (hheld : t.held = []) (hchecked : t.checked = []) :
    t.run postKeyPacket = .ok ({ t with
      held := [1]
      srv := { t.srv with pending := t.srv.pending ++ [keyTask] } }, []) := by
  have hpost : step { t with held := [1], checked := [keyTask] } (.post 1) = .ok ({ t with
      held := [1]
      srv := { t.srv with pending := t.srv.pending ++ [keyTask] } }, []) := by
    obtain ⟨srv,held,checked,orphans⟩ := t
    subst hheld hchecked
    rfl
  have hall := Runs.run_append_of_ok (run_checkKeyPacket hlock hsends hheld hchecked)
    (Runs.run_single hpost)
  exact hall

/-- The connection is closed before the task runs. -/
theorem run_closedClient : ∃ t s out,
    (Threads.new [] []).run (loops describedClient describedClient_onLoop ++ postKeyPacket ++
      [.loop (.close 1) trivial]) = .ok (t, out) ∧
    t.held = [1] ∧ t.checked = [] ∧ t.srv.pending = [keyTask] ∧
    t.srv.lock 1 = none ∧ t.orphans 1 = some s := by
  obtain ⟨t,s,out,hrun,hlock,hsends,hheld,hchecked,hpending⟩ := run_describedClient
  have hpost := Runs.run_append_of_ok hrun (run_postKeyPacket hlock hsends hheld hchecked)
  obtain ⟨t1,ht1⟩ : ∃ t1 : Threads, t1 = { t with
    held := [1]
    srv := { t.srv with pending := t.srv.pending ++ [keyTask] } } := ⟨_, rfl⟩
  rw [← ht1] at hpost
  have hobject : t1.object 1 = some s := by
    rw [ht1]
    show (t.srv.lock 1).or (t.orphans 1) = some s
    rw [hlock]
    rfl
  have hheld1 : t1.held = [1] := by rw [ht1]
  have hclose : (t1.close 1).1 = { t1 with
      srv := (t1.srv.onClose 1).1, orphans := Function.update t1.orphans 1 (some s) } := by
    unfold close
    rw [hheld1, hobject]
    rfl
  refine ⟨(t1.close 1).1, s, _, Runs.run_append_of_ok hpost (Runs.run_single rfl), ?_⟩
  rw [hclose]
  refine ⟨hheld1, ?_, ?_, lock_close 1, ?_⟩
  · rw [ht1]
    exact hchecked
  · rw [ht1]
    show t.srv.pending ++ _ = _
    rw [hpending]
    rfl
  · show Function.update t1.orphans 1 (some s) 1 = some s
    rw [Function.update_self]

end Samples

/-- In every run in which no `RtpConnection` loses its last pointer while a task for it is pending,
no task finds its object destroyed. -/
theorem posted_task_lives (ipPort version : Bytes) (evs : List ThreadEvent) (t : Threads)
    (out : List ServerObs) (hrun : (Threads.new ipPort version).run evs = .ok (t, out))
    (hdrops : Runs.Along step DropsIdle (Threads.new ipPort version) evs) (c : ConnId) (ret : ℤ) :
    t.runTask c ret ≠ .error .danglingPointer := by
  intro herror
  have hlives := (run_lives hrun hdrops).2
  unfold runTask at herror
  cases hfind : t.srv.pending.find? (fun h => h.conn = c) with
  | none =>
    rw [hfind] at herror
    cases herror
  | some task =>
    have hconn : task.conn = c := by
      have hc := List.find?_some hfind
      exact of_decide_eq_true hc
    have hobject := hlives.alive task (List.mem_append_left _ (List.mem_of_find?_eq_some hfind))
    rw [hconn, object] at hobject
    rw [hfind] at herror
    dsimp only at herror
    split at herror
    case isTrue hlock =>
      rcases Runs.bind_error herror with htask | ⟨_,_,herror⟩
      · unfold RtspServer.runTask at htask
        rw [hfind] at htask
        obtain ⟨s,hs⟩ := Option.isSome_iff_exists.mp hlock
        obtain ⟨conn,hc,hs⟩ := Option.bind_eq_some_iff.mp hs
        rw [hc] at htask
        dsimp only at htask
        rw [hs] at htask
        rcases Runs.bind_error htask with hsend | ⟨_,_,htask⟩
        · have hfault := RtpConnection.sendRtpPacketInLoop_error s _ hsend
          cases hfault
        · cases htask
      · cases herror
    case isFalse hlock =>
      rw [Option.not_isSome_iff_eq_none.mp hlock] at hobject
      obtain ⟨s,hs⟩ := Option.isSome_iff_exists.mp hobject
      rw [Option.none_or] at hs
      rw [hs] at herror
      rcases Runs.bind_error herror with hsend | ⟨_,_,herror⟩
      · have hfault := RtpConnection.sendRtpPacketInLoop_error s _ hsend
        cases hfault
      · cases herror

/-- The media thread still holds its pointer when the connection is closed. -/
theorem posted_task_lives_held : ∃ t out,
    (Threads.new [] []).run (loops describedClient describedClient_onLoop ++ postKeyPacket ++
      [.loop (.close 1) trivial]) = .ok (t, out) ∧
    t.srv.lock 1 = none ∧ t.runTask 1 17 ≠ .error .danglingPointer := by
  obtain ⟨t,s,out,hrun,_,_,_,hlock,_⟩ := run_closedClient
  refine ⟨t, out, hrun, hlock, posted_task_lives [] [] _ t out hrun ?_ 1 17⟩
  apply Runs.along_append
  · apply Runs.along_of_forall
    intro ev hev t c hdrops
    rcases List.mem_append.mp hev with hev | hev
    · obtain ⟨ev,hmem,rfl⟩ := List.mem_pmap.mp hev
      simp only [describedClient, RtspServer.twoSessions, List.cons_append, List.nil_append,
        List.mem_cons, List.not_mem_nil, or_false] at hmem
      rcases hmem with rfl | rfl | rfl | rfl <;> exact hdrops.elim
    · simp only [postKeyPacket, checkKeyPacket, List.cons_append, List.nil_append, List.mem_cons,
        List.not_mem_nil, or_false] at hev
      rcases hev with rfl | rfl | rfl <;> exact hdrops.elim
  · intro t1 out1 hrun1
    obtain ⟨t2,s2,out2,hrun2,hs2,hsends,hheld,hchecked,_⟩ := run_describedClient
    have hpost := Runs.run_append_of_ok hrun2 (run_postKeyPacket hs2 hsends hheld hchecked)
    obtain ⟨rfl,_⟩ := Prod.mk.inj (Except.ok.inj (hrun1.symm.trans hpost))
    refine ⟨?_, fun _ _ _ => trivial⟩
    rintro c ⟨rfl,hnot⟩
    exact absurd (List.mem_singleton_self 1) hnot

/-- The same client, but the media thread drops its pointer before the loop comes to the task. -/
theorem posted_task_dangles : ∃ t out,
    (Threads.new [] []).run (loops describedClient describedClient_onLoop ++ postKeyPacket ++
      [.loop (.close 1) trivial] ++ [.release 1]) = .ok (t, out) ∧
    t.runTask 1 17 = .error .danglingPointer := by
  obtain ⟨t,s,out,hrun,hheld,hchecked,hpending,hlock,_⟩ := run_closedClient
  refine ⟨(t.release 1).1, _, Runs.run_append_of_ok hrun (Runs.run_single rfl), ?_⟩
  have hrelease : (t.release 1).1 =
      { t with held := [], orphans := Function.update t.orphans 1 none } := by
    unfold release inCall
    rw [hheld, hlock, hchecked]
    rfl
  rw [hrelease]
  unfold runTask
  dsimp only
  rw [hpending, hlock]
  rfl

end Threads

end IdealServer
