import IdealServer.SecondaryIndex
import IdealServer.ServerSteps

/-! The two maps in which `RtspServer` keeps its media sessions. -/
namespace IdealServer

/-- The events of the server, sessions that were created before they are added, and both lookups. -/
inductive RegistryEvent
  | server (event : ServerEvent)
  | addMediaSession (session : MediaSession)
  | lookMediaSession (suffix : Bytes)
  | lookMediaSessionId (sessionId : UInt32)

namespace RtspServer

/-- `addMediaSession` on a session that exists. `emplace` changes nothing where there is an entry. -/
def registerSession (srv : RtspServer) (session : MediaSession) : UInt32 × RtspServer :=
  match srv.rtspSuffixMap session.suffix with
  | some _ => (0, srv)
  | none =>
    let srv := { srv with
      rtspSuffixMap := Function.update srv.rtspSuffixMap session.suffix (some session.sessionId) }
    match srv.mediaSessions session.sessionId with
    | some _ => (session.sessionId, srv)
    | none => (session.sessionId, srv.setSession session.sessionId session)

def registryStep (srv : RtspServer) : RegistryEvent → Except Fault (RtspServer × List ServerObs)
  | .server event => srv.step event
  | .addMediaSession session => .ok ((srv.registerSession session).2, [])
  | .lookMediaSession suffix => .ok ((srv.lookMediaSession suffix).2, [])
  | .lookMediaSessionId _ => .ok (srv, [])

def registryRun : RtspServer → List RegistryEvent → Except Fault (RtspServer × List ServerObs) :=
  Runs.run registryStep

/-- A suffix leads to the id of the session that has it, and no pointer is null. -/
structure Registered (srv : RtspServer) : Prop where
  suffix : ∀ suffix id, srv.rtspSuffixMap suffix = some id ↔
    ∃ session, srv.mediaSessions id = some (some session) ∧ session.suffix = suffix
  nonnull : ∀ id, srv.mediaSessions id ≠ some none

/-- A session is added under an id that is free, unless its suffix is taken, and a registered session is
renamed to the suffix that it has. -/
def KeepsKeys (srv : RtspServer) : RegistryEvent → Prop
  | .server (.addMediaSession suffix _) =>
    srv.rtspSuffixMap suffix = none → srv.mediaSessions (srv.lastMediaSessionId+1) = none
  | .addMediaSession session =>
    srv.rtspSuffixMap session.suffix = none → srv.mediaSessions session.sessionId = none
  | .server (.setRtspUrlSuffix id suffix) =>
    ∀ session, srv.lookMediaSessionId id = some session → suffix = session.suffix
  | .server _ | .lookMediaSession _ | .lookMediaSessionId _ => True

variable {srv srv' : RtspServer} {c : ConnId} {conn conn' : RtspConnection} {q : RtspRequest}
  {env : HandlerEnv} {calls : List Call} {out : List ServerObs} {id : UInt32} {session : MediaSession}

theorem lookMediaSessionId_eq_some :
    srv.lookMediaSessionId id = some session ↔ srv.mediaSessions id = some (some session) := by
  unfold lookMediaSessionId
  exact Option.join_eq_some_iff

/-- The map of suffixes is an index of the table of sessions. -/
theorem registered_iff : srv.Registered ↔
    SecondaryIndex.Indexes MediaSession.suffix srv.lookMediaSessionId srv.rtspSuffixMap ∧
    ∀ id, srv.mediaSessions id ≠ some none := by
  have hrow (suffix : Bytes) (id : UInt32) :
      (∃ session, srv.lookMediaSessionId id = some session ∧ session.suffix = suffix) ↔
      ∃ session, srv.mediaSessions id = some (some session) ∧ session.suffix = suffix := by
    apply exists_congr
    intro session
    rw [lookMediaSessionId_eq_some]
  constructor
  · intro h
    exact ⟨fun suffix id => (h.suffix suffix id).trans (hrow suffix id).symm, h.nonnull⟩
  · intro ⟨hindex,hnonnull⟩
    exact ⟨fun suffix id => (hindex suffix id).trans (hrow suffix id), hnonnull⟩

theorem Registered.index (h : srv.Registered) :
    SecondaryIndex.Indexes MediaSession.suffix srv.lookMediaSessionId srv.rtspSuffixMap :=
  (registered_iff.mp h).1

theorem setSession_lookMediaSessionId (srv : RtspServer) (id : UInt32) (session : MediaSession) :
    (srv.setSession id session).lookMediaSessionId =
      Function.update srv.lookMediaSessionId id (some session) := by
  funext j
  by_cases hj : j = id
  · rw [hj, Function.update_self, setSession_self]
  · rw [Function.update_of_ne hj, setSession_of_ne hj]

theorem setSession_nonnull (h : ∀ id, srv.mediaSessions id ≠ some none) (j : UInt32) :
    (srv.setSession id session).mediaSessions j ≠ some none := by
  unfold setSession
  dsimp only
  by_cases hj : j = id
  · rw [hj, Function.update_self]
    intro hnull
    cases hnull
  · rw [Function.update_of_ne hj]
    exact h j

/-- A session gives its place to one with the same suffix, or with another one. -/
theorem Registered.setSession_iff (h : srv.Registered) {session' : MediaSession}
    (hlook : srv.lookMediaSessionId id = some session) :
    (srv.setSession id session').Registered ↔ session'.suffix = session.suffix := by
  rw [registered_iff, setSession_lookMediaSessionId]
  constructor
  · intro hnew
    exact (h.index.replace_iff hlook).mp hnew.1
  · intro hsame
    exact ⟨(h.index.replace_iff hlook).mpr hsame, setSession_nonnull h.nonnull⟩

/-- Nothing has changed that the maps are about. -/
theorem Registered.frame (h : srv.Registered) (hmap : srv'.rtspSuffixMap = srv.rtspSuffixMap)
    (hsessions : srv'.mediaSessions = srv.mediaSessions) : srv'.Registered := by
  refine ⟨?_, ?_⟩
  · rw [hmap, hsessions]
    exact h.suffix
  · rw [hsessions]
    exact h.nonnull

/-- A lookup inserts nothing, and finds what is registered. -/
theorem Registered.lookMediaSession (h : srv.Registered) (suffix : Bytes) :
    (srv.lookMediaSession suffix).2 = srv ∧
    ∀ id session, (srv.lookMediaSession suffix).1 = some (id, session) ↔
      srv.mediaSessions id = some (some session) ∧ session.suffix = suffix := by
  unfold RtspServer.lookMediaSession
  cases hmap : srv.rtspSuffixMap suffix with
  | none =>
    refine ⟨rfl, ?_⟩
    intro id session
    apply iff_of_false
    · intro hnone
      cases hnone
    · intro ⟨hsession,hsuffix⟩
      have hsome := (h.suffix suffix id).mpr ⟨session, hsession, hsuffix⟩
      rw [hmap] at hsome
      cases hsome
  | some id =>
    obtain ⟨session,hsession,hsuffix⟩ := (h.suffix suffix id).mp hmap
    dsimp only
    rw [hsession]
    refine ⟨rfl, ?_⟩
    intro id' session'
    constructor
    · intro hfound
      obtain ⟨rfl,rfl⟩ := Prod.mk.inj (Option.some.inj hfound)
      exact ⟨hsession, hsuffix⟩
    · intro ⟨hsession',hsuffix'⟩
      have hother := (h.suffix suffix id').mpr ⟨session', hsession', hsuffix'⟩
      rw [hmap] at hother
      obtain rfl := Option.some.inj hother
      rw [hsession] at hsession'
      rw [Option.some.inj (Option.some.inj hsession')]

theorem Registered.registerSession_iff (h : srv.Registered) (session : MediaSession) :
    (srv.registerSession session).2.Registered ↔
      (srv.rtspSuffixMap session.suffix = none → srv.mediaSessions session.sessionId = none) := by
  unfold registerSession
  cases hmap : srv.rtspSuffixMap session.suffix with
  | some id => exact iff_of_true h (fun hnone => by cases hnone)
  | none =>
    dsimp only
    cases hsession : srv.mediaSessions session.sessionId with
    | none =>
      refine iff_of_true (registered_iff.mpr ⟨?_, ?_⟩) (fun _ => rfl)
      · have hlook : srv.lookMediaSessionId session.sessionId = none := by
          rw [lookMediaSessionId, hsession]
          rfl
        have hinsert := h.index.insert hlook hmap
        rw [← setSession_lookMediaSessionId] at hinsert
        exact hinsert
      · exact setSession_nonnull h.nonnull
    | some old =>
      cases old with
      | none => exact absurd hsession (h.nonnull _)
      | some old =>
        apply iff_of_false
        · intro hnew
          exact h.index.not_insert hmap hnew.index
        · intro hnone
          cases hnone rfl

theorem foldl_suffix {ι : Type*} {f : MediaSession → ι → MediaSession}
    (hf : ∀ session i, (f session i).suffix = session.suffix) (is : List ι) (session : MediaSession) :
    (is.foldl f session).suffix = session.suffix := by
  induction is generalizing session with
  | nil => rfl
  | cons i is ih => rw [List.foldl_cons, ih, hf]

/-- `creatNew` and its sources come first. -/
theorem addMediaSession_eq (srv : RtspServer) (suffix : Bytes)
    (sources : MediaChannelId → Option MediaSource) : ∃ session : MediaSession,
    session.sessionId = srv.lastMediaSessionId+1 ∧ session.suffix = suffix ∧
    srv.addMediaSession suffix sources =
      ({ srv with lastMediaSessionId := srv.lastMediaSessionId+1 }.registerSession session).2 := by
  obtain ⟨hid,_⟩ := addSources_frame sources mediaChannels
    (MediaSession.creatNew srv.lastMediaSessionId suffix).2
  unfold addMediaSession
  dsimp only
  generalize hsession : mediaChannels.foldl _ (MediaSession.creatNew srv.lastMediaSessionId suffix).2 = session
    at hid ⊢
  have hsuffix : session.suffix = suffix := by
    rw [← hsession]
    refine (foldl_suffix ?_ mediaChannels (MediaSession.creatNew srv.lastMediaSessionId suffix).2).trans rfl
    intro session chn
    split <;> rfl
  refine ⟨session, hid, hsuffix, ?_⟩
  unfold registerSession
  dsimp only
  rw [hsuffix]
  cases srv.rtspSuffixMap suffix with
  | some id => rfl
  | none => cases srv.mediaSessions session.sessionId <;> rfl

theorem Registered.removeMediaSession (h : srv.Registered) (id : UInt32) :
    ∃ srv', srv.removeMediaSession id = .ok srv' ∧ srv'.Registered ∧ srv'.mediaSessions id = none := by
  unfold RtspServer.removeMediaSession
  cases hsession : srv.mediaSessions id with
  | none => exact ⟨srv, rfl, h, hsession⟩
  | some pointer =>
    cases pointer with
    | none => exact absurd hsession (h.nonnull id)
    | some session =>
      refine ⟨_, rfl, registered_iff.mpr ⟨?_, ?_⟩, Function.update_self ..⟩
      · have herase := h.index.erase (lookMediaSessionId_eq_some.mpr hsession)
        have hlook : Function.update srv.lookMediaSessionId id none = lookMediaSessionId { srv with
            rtspSuffixMap := Function.update srv.rtspSuffixMap session.suffix none
            mediaSessions := Function.update srv.mediaSessions id none } := by
          funext j
          unfold lookMediaSessionId
          by_cases hj : j = id
          · dsimp only
            rw [hj, Function.update_self, Function.update_self]
            rfl
          · dsimp only
            rw [Function.update_of_ne hj, Function.update_of_ne hj]
        rw [hlook] at herase
        exact herase
      · intro j
        dsimp only
        by_cases hj : j = id
        · rw [hj, Function.update_self]
          intro hnull
          cases hnull
        · rw [Function.update_of_ne hj]
          exact h.nonnull j

/-- A DESCRIBE changes neither a suffix nor the maps. -/
theorem Registered.handleCmdDescribe (h : srv.Registered)
    (hok : srv.handleCmdDescribe c conn q env = (srv', conn', calls)) : srv'.Registered := by
  unfold RtspServer.handleCmdDescribe at hok
  dsimp only at hok
  cases hlook : srv.lookMediaSession q.getRtspUrlSuffix with
  | mk found srv1 =>
    have hsame := (h.lookMediaSession q.getRtspUrlSuffix).1
    rw [hlook] at hok hsame
    obtain rfl : srv1 = srv := hsame
    cases found with
    | none =>
      obtain ⟨rfl,_⟩ := Prod.mk.inj hok
      exact h
    | some found =>
      obtain ⟨id,session⟩ := found
      obtain ⟨_,hregistered⟩ := lookMediaSession_some hlook
      obtain ⟨rfl,_⟩ := Prod.mk.inj hok
      apply (h.setSession_iff (lookMediaSessionId_eq_some.mpr hregistered)).mpr
      have hadd := @MediaSession.addClient_frame session conn.tcpConn.fd c
      have hsdp := @MediaSession.getSdpMessage_frame (session.addClient conn.tcpConn.fd c).2 env.now
        env.ip srv1.version
      have hadded := congrArg MediaSession.suffix hadd
      have hdescribed := congrArg MediaSession.suffix hsdp
      dsimp only at hadded hdescribed
      rw [← hadded, ← hdescribed]

theorem Registered.onMessage (h : srv.Registered) {bytes : Bytes}
    (hok : srv.onMessage c bytes env = .ok (srv', out)) : srv'.Registered := by
  unfold RtspServer.onMessage at hok
  cases hc : srv.rtspConnMap c with
  | none =>
    rw [hc] at hok
    obtain ⟨rfl,_⟩ := Prod.mk.inj (Except.ok.inj hok)
    exact h
  | some conn =>
    rw [hc] at hok
    obtain ⟨⟨input,events⟩,_,hok⟩ := Runs.bind_ok hok
    dsimp only at hok
    cases hcommand : commandIn events with
    | none =>
      rw [hcommand] at hok
      obtain ⟨rfl,_⟩ := Prod.mk.inj (Except.ok.inj hok)
      exact h.frame rfl rfl
    | some q =>
      rw [hcommand] at hok
      obtain ⟨⟨srv1,conn1,calls⟩,hhandle,hok⟩ := Runs.bind_ok hok
      obtain ⟨rfl,_⟩ := Prod.mk.inj (Except.ok.inj hok)
      have h1 : srv1.Registered := by
        rcases handleCommand_cases hhandle with ⟨hm,_⟩ | ⟨_,rfl,_⟩
        · unfold handleCommand at hhandle
          rw [hm] at hhandle
          exact h.handleCmdDescribe (Except.ok.inj hhandle)
        · exact h
      exact h1.frame rfl rfl

theorem Registered.pushFrame (h : srv.Registered) {channelId : MediaChannelId} {frame : AVFrame}
    {now : UInt32} {alloc : ℕ → PacketData} {mem : ℕ → Bytes → PacketData}
    (hok : srv.pushFrame id channelId frame now alloc mem = .ok (srv', out)) : srv'.Registered := by
  unfold RtspServer.pushFrame at hok
  split at hok
  · obtain ⟨rfl,_⟩ := Prod.mk.inj (Except.ok.inj hok)
    exact h
  case h_2 session hlook =>
    split at hok
    · obtain ⟨rfl,_⟩ := Prod.mk.inj (Except.ok.inj hok)
      exact h
    · obtain ⟨⟨ok,session',p⟩,hframe,hok⟩ := Runs.bind_ok hok
      obtain ⟨rfl,_⟩ := Prod.mk.inj (Except.ok.inj hok)
      obtain ⟨rfl,_⟩ := MediaSession.handleFrame_spec hframe
      have hset : (srv.setSession id { session with clients := p.clients }).Registered :=
        (h.setSession_iff hlook).mpr rfl
      exact hset.frame rfl rfl

theorem runTask_suffixMap {ret : ℤ} (hok : srv.runTask c ret = .ok (srv', out)) :
    srv'.rtspSuffixMap = srv.rtspSuffixMap := by
  unfold runTask at hok
  split at hok
  · obtain ⟨rfl,_⟩ := Prod.mk.inj (Except.ok.inj hok)
    rfl
  · split at hok
    · cases hok
    · split at hok
      · cases hok
      · obtain ⟨_,_,hok⟩ := Runs.bind_ok hok
        obtain ⟨rfl,_⟩ := Prod.mk.inj (Except.ok.inj hok)
        rfl

/-- Each step keeps the two maps together exactly if it keeps the keys, or it ends the run for a reason
that has nothing to do with them. -/
theorem Registered.step (h : srv.Registered) (event : RegistryEvent) :
    (∃ srv' out, srv.registryStep event = .ok (srv', out) ∧ True ∧ (srv'.Registered ↔ srv.KeepsKeys event)) ∨
    (∃ e, srv.registryStep event = .error e ∧ srv.KeepsKeys event) := by
  -- a step that keeps the maps whatever comes of it
  have hkept (hkeeps : srv.KeepsKeys event)
      (hall : ∀ srv' out, srv.registryStep event = .ok (srv', out) → srv'.Registered) :
      (∃ srv' out, srv.registryStep event = .ok (srv', out) ∧ True ∧
        (srv'.Registered ↔ srv.KeepsKeys event)) ∨
      (∃ e, srv.registryStep event = .error e ∧ srv.KeepsKeys event) := by
    cases hok : srv.registryStep event with
    | error e => exact Or.inr ⟨e, rfl, hkeeps⟩
    | ok r => exact Or.inl ⟨r.1, r.2, rfl, trivial, iff_of_true (hall r.1 r.2 hok) hkeeps⟩
  cases event with
  | addMediaSession session => exact Or.inl ⟨_, [], rfl, trivial, h.registerSession_iff session⟩
  | lookMediaSession suffix =>
    apply hkept trivial
    intro srv' out hok
    obtain ⟨rfl,_⟩ := Prod.mk.inj (Except.ok.inj hok)
    rw [(h.lookMediaSession suffix).1]
    exact h
  | lookMediaSessionId id =>
    apply hkept trivial
    intro srv' out hok
    obtain ⟨rfl,_⟩ := Prod.mk.inj (Except.ok.inj hok)
    exact h
  | server event =>
    cases event with
    | addMediaSession suffix sources =>
      obtain ⟨session,hid,hsuffix,heq⟩ := addMediaSession_eq srv suffix sources
      have hlast : { srv with lastMediaSessionId := srv.lastMediaSessionId+1 }.Registered := h.frame rfl rfl
      have hiff := hlast.registerSession_iff session
      rw [← heq, hid, hsuffix] at hiff
      exact Or.inl ⟨_, [], rfl, trivial, hiff⟩
    | removeMediaSession id =>
      obtain ⟨srv1,hremove,h1,_⟩ := h.removeMediaSession id
      have hok : srv.registryStep (.server (.removeMediaSession id)) = .ok (srv1, []) := by
        show (srv.removeMediaSession id).bind _ = _
        rw [hremove]
        rfl
      exact Or.inl ⟨srv1, [], hok, trivial, iff_of_true h1 trivial⟩
    | setRtspUrlSuffix id suffix =>
      refine Or.inl ⟨_, [], rfl, trivial, ?_⟩
      unfold RtspServer.setRtspUrlSuffix KeepsKeys
      cases hlook : srv.lookMediaSessionId id with
      | none => exact iff_of_true h (fun session hsome => by cases hlook.symm.trans hsome)
      | some session =>
        dsimp only
        rw [h.setSession_iff hlook]
        constructor
        · intro hsame other hother
          rw [← Option.some.inj (hlook.symm.trans hother)]
          exact hsame
        · intro hall
          exact hall session hlook
    | newConnection fd peer mem =>
      apply hkept trivial
      intro srv' out hok
      obtain ⟨rfl,_⟩ := Prod.mk.inj (Except.ok.inj hok)
      exact h.frame rfl rfl
    | message c bytes env => exact hkept trivial (fun srv' out hok => h.onMessage hok)
    | close c =>
      apply hkept trivial
      intro srv' out hok
      obtain ⟨rfl,_⟩ := Prod.mk.inj (Except.ok.inj hok)
      exact h.frame rfl rfl
    | pushFrame id channelId frame now alloc mem => exact hkept trivial (fun srv' out hok => h.pushFrame hok)
    | runTask c ret =>
      exact hkept trivial (fun srv' out hok => h.frame (runTask_suffixMap hok) (runTask_sessions hok))

theorem registered_new (ipPort version : Bytes) : (new ipPort version).Registered := by
  refine ⟨?_, fun id hnull => (by cases hnull)⟩
  intro suffix id
  apply iff_of_false
  · intro hnone
    cases hnone
  · intro ⟨session,hsession,_⟩
    cases hsession

end RtspServer

/-- In the runs of the server, with sessions added and looked up at any time, the suffixes and the
sessions stay together exactly if every session is added under a free id, unless its suffix is taken, and
no registered session is given another suffix. While they are together, a lookup inserts nothing and
finds what is registered, and a removal meets no null pointer and leaves nothing to be found. -/
theorem registry_consistent (ipPort version : Bytes) (events : List RegistryEvent) :
    ((∀ n srv out, (RtspServer.new ipPort version).registryRun (events.take n) = .ok (srv, out) →
      srv.Registered) ↔
    Runs.Along RtspServer.registryStep RtspServer.KeepsKeys (RtspServer.new ipPort version) events) ∧
    ∀ srv : RtspServer, srv.Registered →
      (∀ suffix, (srv.lookMediaSession suffix).2 = srv ∧
        ∀ id session, (srv.lookMediaSession suffix).1 = some (id, session) ↔
          srv.mediaSessions id = some (some session) ∧ session.suffix = suffix) ∧
      ∀ id, ∃ srv', srv.removeMediaSession id = .ok srv' ∧
        ∀ suffix session, (srv'.lookMediaSession suffix).1 ≠ some (id, session) := by
  constructor
  · have hstep (srv : RtspServer) (event : RegistryEvent) (_ : True) (h : srv.Registered) (_ : True) :
        (∃ srv' out, srv.registryStep event = .ok (srv', out) ∧ True ∧
          (srv'.Registered ↔ srv.KeepsKeys event)) ∨
        (∃ e, srv.registryStep event = .error e ∧ srv.KeepsKeys event) := h.step event
    exact @Runs.along_iff _ _ _ _ _ (fun _ _ => True) RtspServer.KeepsKeys (fun _ => True)
      RtspServer.Registered hstep _ events trivial (RtspServer.registered_new ipPort version)
      (Runs.along_of_forall (fun _ _ _ => trivial))
  · intro srv h
    refine ⟨h.lookMediaSession, ?_⟩
    intro id
    obtain ⟨srv',hremove,h',hnone⟩ := h.removeMediaSession id
    refine ⟨srv', hremove, ?_⟩
    intro suffix session hfound
    have hsession := (((h'.lookMediaSession suffix).2 id session).mp hfound).1
    rw [hnone] at hsession
    cases hsession

/-- A session is renamed and removed. Its old suffix still leads to its id, the lookup of that suffix
makes a null entry there, and the next removal of the id dereferences it. -/
theorem registry_consistent_fails :
    (∃ srv out, (RtspServer.new [] []).registryRun [.server (.addMediaSession [97] (fun _ => none)),
      .server (.setRtspUrlSuffix 2 [98])] = .ok (srv, out) ∧ ¬srv.Registered) ∧
    (RtspServer.new [] []).registryRun [.server (.addMediaSession [97] (fun _ => none)),
      .server (.setRtspUrlSuffix 2 [98]), .server (.removeMediaSession 2), .lookMediaSession [97],
      .server (.removeMediaSession 2)] = .error .nullPointer := by
  refine ⟨⟨_, _, rfl, ?_⟩, rfl⟩
  intro h
  obtain ⟨session,hsession,hsuffix⟩ := (h.suffix [97] 2).mp rfl
  obtain rfl := Option.some.inj (Option.some.inj hsession)
  cases hsuffix

end IdealServer
