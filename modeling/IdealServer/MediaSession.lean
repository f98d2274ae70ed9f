import IdealServer.H264Source
import IdealServer.RtpConnection
import IdealServer.RtspText

/-! `MediaSession`: its sources, its description and the clients that its frames go to. A client is
an entry under a descriptor that refers weakly to an `RtpConnection`; which of them can still be
locked is an argument, and so is the memory that `new` returns. -/
namespace IdealServer

/-- The only class derived from `MediaSource` is `H264Source`. -/
structure MediaSource where
  payload : UInt32
  clockRate : UInt32
  frameRate : UInt32
deriving DecidableEq

namespace H264Source

def createNew (frameRate : UInt32) : MediaSource := ⟨96, 90000, frameRate⟩

end H264Source

def MediaSource.getMediaDescription (_ : MediaSource) (port : UInt16) : Bytes :=
  ascii "m=video " ++ Numeral.decimal port.toNat ++ ascii " RTP/AVP 96"

def MediaSource.getAttribute (_ : MediaSource) : Bytes := ascii "a=rtpmap:96 H264/90000"

/-- Connections are numbered as `TcpServer` numbers them; an `RtspConnection` has at most one
`RtpConnection`, which lives as long as it does. -/
abbrev ConnId := ℕ

/-- `std::map<int, std::weak_ptr<RtpConnection>>` -/
abbrev ClientMap := Std.TreeMap ℤ ConnId

structure MediaSession where
  sessionId : UInt32
  suffix : Bytes
  sdp : Bytes
  mediaSources : MediaChannelId → Option MediaSource
  clients : ClientMap

/-- `%ld` -/
def printLD (x : ℤ) : Bytes :=
  if x < 0 then 45 :: Numeral.decimal x.natAbs else Numeral.decimal x.natAbs

theorem printLD_token (x : ℤ) : IsToken (printLD x) := by
  unfold printLD
  split
  · exact (decimal_token _).cons (by decide)
  · exact decimal_token _

/-- A call of `sendRtpPacket`. -/
structure Handed where
  conn : ConnId
  channelId : MediaChannelId
  pkt : RtpPacket

/-- What the send callback works on: the client map, the packets that the source has handed
over and the calls that were made for them. -/
structure PushState where
  clients : ClientMap
  packets : List RtpPacket
  handed : List Handed

def RtpConnection.getId (s : RtpConnection) : Bytes := (s.tcpConn.map TcpHandle.name).getD []

namespace MediaSession

/-- The constructor; `lastMediaSessionId` is the static counter. -/
def creatNew (lastMediaSessionId : UInt32) (rtspUrlSuffix : Bytes) : UInt32 × MediaSession :=
  (lastMediaSessionId+1, ⟨lastMediaSessionId+1, rtspUrlSuffix, [], fun _ => none, ∅⟩)

def addMediaSource (s : MediaSession) (channelId : MediaChannelId) (source : MediaSource) :
    MediaSession :=
  { s with mediaSources := Function.update s.mediaSources channelId (some source) }

def setRtspUrlSuffix (s : MediaSession) (suffix : Bytes) : MediaSession := { s with suffix := suffix }

/-- A round of the loop in `getSdpMessage`; `track` is the channel's number. -/
def describeSource (s : MediaSession) (chn : MediaChannelId) (track buf : Bytes) : Bytes :=
  match s.mediaSources chn with
  | none => buf
  | some source =>
    let buf := snprintf 1024 buf (source.getMediaDescription 0 ++ ascii "\r\n")
    let buf := snprintf 1024 buf (source.getAttribute ++ ascii "\r\n")
    snprintf 1024 buf (ascii "a=control:track" ++ track ++ ascii "\r\n")

/-- `now` is the time in seconds and `ip` the local address. -/
def getSdpMessage (s : MediaSession) (now : ℤ) (ip sessionName : Bytes) : Bytes × MediaSession :=
  if s.sdp ≠ [] then (s.sdp, s)
  else
    let buf := snprintf 1024 [] (ascii "v=0\r\no=- 9" ++ printLD now ++ ascii " 1 IN IP4 " ++ ip ++
      ascii "\r\nt= 0 0\r\na= control:*\r\n")
    let buf := if sessionName = [] then buf
      else snprintf 1024 buf (ascii "s=" ++ Scanf.cString sessionName ++ ascii "\r\n")
    let buf := s.describeSource .channel_0 (ascii "0") buf
    let buf := s.describeSource .channel_1 (ascii "1") buf
    (buf, { s with sdp := buf })

def getMediaSource (s : MediaSession) (channelId : MediaChannelId) : Option MediaSource :=
  s.mediaSources channelId

/-- `emplace` where there is no entry under the descriptor, and nothing otherwise. -/
def addClient (s : MediaSession) (rtspfd : ℤ) (rtpConn : ConnId) : Bool × MediaSession :=
  if rtspfd ∈ s.clients then (false, s)
  else (true, { s with clients := s.clients.insertIfNew rtspfd rtpConn })

def removeClient (s : MediaSession) (rtspfd : ℤ) : MediaSession :=
  { s with clients := s.clients.erase rtspfd }

def getNumClient (s : MediaSession) : ℕ := s.clients.size

/-- The fields of `tmpPkt` and the copy of the packet's bytes into its array. -/
def copyPacket (mem : PacketData) (pkt : RtpPacket) : Except Fault RtpPacket := do
  let src ← readBytes pkt.data.bytes 0 pkt.size.toNat
  let data ← mem.write 0 src
  return { pkt with data := data }

/-- The loop of the send callback over `_clients`: the map without the entries that have
expired, a copy of the packet for each name, and the connections, the last one first. -/
def lockClients (lock : ConnId → Option RtpConnection) (mem : Bytes → PacketData)
    (pkt : RtpPacket) : List (ℤ × ConnId) → ClientMap → List (Bytes × RtpPacket) → List ConnId →
    Except Fault (ClientMap × List (Bytes × RtpPacket) × List ConnId)
  | [], clients, packets, conns => .ok (clients, packets, conns)
  | (fd, conn) :: rest, clients, packets, conns =>
    match lock conn with
    | none => lockClients lock mem pkt rest (clients.erase fd) packets conns
    | some rtpConn =>
      if rtpConn.getId = [] then lockClients lock mem pkt rest clients packets conns
      else
        match packets.lookup rtpConn.getId with
        | some _ => lockClients lock mem pkt rest clients packets (conn :: conns)
        | none => do
          let tmpPkt ← copyPacket (mem rtpConn.getId) pkt
          lockClients lock mem pkt rest clients ((rtpConn.getId, tmpPkt) :: packets) (conn :: conns)

/-- A round of the second loop. -/
def handTo (lock : ConnId → Option RtpConnection) (channelId : MediaChannelId)
    (packets : List (Bytes × RtpPacket)) (conn : ConnId) : Option Handed :=
  match lock conn with
  | none => none
  | some rtpConn =>
    if rtpConn.getId = [] then none
    else (packets.lookup rtpConn.getId).map (fun pkt => ⟨conn, channelId, pkt⟩)

def handOver (lock : ConnId → Option RtpConnection) (channelId : MediaChannelId)
    (packets : List (Bytes × RtpPacket)) (conns : List ConnId) : List Handed :=
  conns.filterMap (handTo lock channelId packets)

/-- The callback that `addMediaSource` registers with the source; `mem k` is the memory for the
copies of the `k`-th packet. -/
def sendFrameCallback (lock : ConnId → Option RtpConnection) (mem : ℕ → Bytes → PacketData) :
    SendFrameCallback PushState := fun s channelId pkt => do
  let (clients, packets, conns) ←
    lockClients lock (mem s.packets.length) pkt s.clients.toList s.clients [] []
  return (⟨clients, s.packets ++ [pkt], s.handed ++ handOver lock channelId packets conns⟩, true)

/-- `now` is the clock, `alloc` and `mem` the memory of the packets and of their copies. -/
def handleFrame (s : MediaSession) (lock : ConnId → Option RtpConnection) (now : UInt32)
    (alloc : ℕ → PacketData) (mem : ℕ → Bytes → PacketData) (channelId : MediaChannelId)
    (frame : AVFrame) : Except Fault (Bool × MediaSession × PushState) :=
  match s.mediaSources channelId with
  | none => .ok (false, s, ⟨s.clients, [], []⟩)
  | some _ => do
    let (p, _) ← IdealServer.handleFrame now alloc (some (sendFrameCallback lock mem)) channelId
      frame ⟨s.clients, [], []⟩
    return (true, { s with clients := p.clients }, p)

section Lemmas
variable {s s' : MediaSession} {lock : ConnId → Option RtpConnection} {pkt p : RtpPacket}

theorem getElem?_eq_none_iff {clients : ClientMap} {fd : ℤ} :
    clients[fd]? = none ↔ fd ∉ clients := by
  rw [Std.TreeMap.mem_iff_isSome_getElem?]
  simp

theorem addClient_getElem? (fd k : ℤ) (c : ConnId) :
    (s.addClient fd c).2.clients[k]? =
      if k = fd ∧ s.clients[fd]? = none then some c else s.clients[k]? := by
  unfold addClient
  by_cases hfd : fd ∈ s.clients
  · rw [if_pos hfd, if_neg (fun h => getElem?_eq_none_iff.mp h.2 hfd)]
  · have hnone := getElem?_eq_none_iff.mpr hfd
    rw [if_neg hfd]
    dsimp only
    rw [Std.TreeMap.getElem?_insertIfNew]
    by_cases hk : k = fd
    · subst hk
      rw [if_pos ⟨Std.ReflCmp.compare_self, hfd⟩, if_pos ⟨rfl, hnone⟩]
    · rw [if_neg (fun h => hk (Std.LawfulEqCmp.eq_of_compare h.1).symm), if_neg (fun h => hk h.1)]

/-- `addClient` touches nothing but the client map. -/
theorem addClient_frame (fd : ℤ) (c : ConnId) :
    (s.addClient fd c).2 = { s with clients := (s.addClient fd c).2.clients } := by
  unfold addClient
  split <;> rfl

/-- The description is made once, and nothing but it changes. -/
theorem getSdpMessage_frame (now : ℤ) (ip sessionName : Bytes) :
    (s.getSdpMessage now ip sessionName).2 =
      { s with sdp := (s.getSdpMessage now ip sessionName).2.sdp } := by
  unfold getSdpMessage
  split <;> rfl

theorem snprintf_ne_nil {held text : Bytes} (h : held ++ text ≠ []) : snprintf 1024 held text ≠ [] := by
  obtain ⟨x,xs,hx⟩ := List.exists_cons_of_ne_nil h
  rw [snprintf, hx]
  exact List.cons_ne_nil _ _

theorem describeSource_ne_nil {chn : MediaChannelId} {track buf : Bytes} (h : buf ≠ []) :
    s.describeSource chn track buf ≠ [] := by
  have happend (held text : Bytes) (hheld : held ≠ []) : snprintf 1024 held text ≠ [] :=
    snprintf_ne_nil (fun hnil => hheld (List.append_eq_nil_iff.mp hnil).1)
  unfold describeSource
  split
  · exact h
  · exact happend _ _ (happend _ _ (happend _ _ h))

/-- The description always has a text. -/
theorem getSdpMessage_ne_nil (now : ℤ) (ip sessionName : Bytes) :
    (s.getSdpMessage now ip sessionName).1 ≠ [] := by
  unfold getSdpMessage
  split
  case isTrue hsdp => exact hsdp
  case isFalse =>
    apply describeSource_ne_nil
    apply describeSource_ne_nil
    have hfirst : snprintf 1024 [] (ascii "v=0\r\no=- 9" ++ printLD now ++ ascii " 1 IN IP4 " ++ ip ++
        ascii "\r\nt= 0 0\r\na= control:*\r\n") ≠ [] := by
      apply snprintf_ne_nil
      simp [ascii]
    split
    · exact hfirst
    · exact snprintf_ne_nil (fun hnil => hfirst (List.append_eq_nil_iff.mp hnil).1)

end Lemmas

/-- The copy fits into the array of a packet. -/
theorem copyPacket_ok (mem : PacketData) {pkt : RtpPacket} (h : pkt.size.toNat ≤ 1600) :
    ∃ p, copyPacket mem pkt = .ok p := by
  have hread := readBytes_eq pkt.data.bytes 0 pkt.size.toNat (by rw [pkt.data.size_eq]; omega)
  obtain ⟨d,hd⟩ := PacketData.write_ok mem 0 ((pkt.data.bytes.drop 0).take pkt.size.toNat)
    (by rw [List.length_take]; omega)
  exact ⟨{ pkt with data := d }, by simp only [copyPacket, hread, bind, Except.bind, hd]; rfl⟩

theorem lockClients_ok {lock : ConnId → Option RtpConnection} {mem : Bytes → PacketData}
    {pkt : RtpPacket} (h : pkt.size.toNat ≤ 1600) (entries : List (ℤ × ConnId))
    (clients : ClientMap) (packets : List (Bytes × RtpPacket)) (conns : List ConnId) :
    ∃ r, lockClients lock mem pkt entries clients packets conns = .ok r := by
  induction entries generalizing clients packets conns with
  | nil => exact ⟨_, rfl⟩
  | cons entry rest ih =>
    obtain ⟨fd,conn⟩ := entry
    rw [lockClients]
    cases lock conn with
    | none => exact ih _ _ _
    | some rtpConn =>
      dsimp only
      split
      · exact ih _ _ _
      · split
        · exact ih _ _ _
        · obtain ⟨p,hp⟩ := copyPacket_ok (mem rtpConn.getId) h
          simp only [hp, bind, Except.bind]
          exact ih _ _ _

theorem sendFrameCallback_ok {lock : ConnId → Option RtpConnection}
    {mem : ℕ → Bytes → PacketData} {channelId : MediaChannelId} {pkt : RtpPacket}
    (h : pkt.size.toNat ≤ 1600) (s : PushState) :
    ∃ s', sendFrameCallback lock mem s channelId pkt = .ok (s', true) := by
  obtain ⟨r,hr⟩ := @lockClients_ok lock (mem s.packets.length) pkt h s.clients.toList s.clients [] []
  exact ⟨_, by simp only [sendFrameCallback, hr, bind, Except.bind]; rfl⟩

/-- What a receiver can see of a packet. -/
def content (p : RtpPacket) : Bytes × UInt32 × UInt32 × UInt8 × UInt8 :=
  (p.data.bytes.take p.size.toNat, p.size, p.timestamp, p.type, p.last)

theorem copyPacket_content {mem : PacketData} {pkt p : RtpPacket}
    (h : copyPacket mem pkt = .ok p) : content p = content pkt := by
  obtain ⟨src,hsrc,h⟩ := Runs.bind_ok h
  obtain ⟨data,hdata,h⟩ := Runs.bind_ok h
  obtain rfl := Except.ok.inj h
  have hread : src = pkt.data.bytes.take pkt.size.toNat ∧ pkt.size.toNat ≤ 1600 := by
    unfold readBytes at hsrc
    split at hsrc
    case isTrue hle =>
      rw [Nat.zero_add, pkt.data.size_eq] at hle
      exact ⟨(Except.ok.inj hsrc).symm, hle⟩
    case isFalse => contradiction
  have hlen : src.length = pkt.size.toNat := by
    rw [hread.1, List.length_take, pkt.data.size_eq]
    omega
  have hfront := PacketData.write_drop hdata
  rw [List.drop_zero] at hfront
  have htake : data.bytes.take pkt.size.toNat = pkt.data.bytes.take pkt.size.toNat := by
    rw [hfront, ← hlen, List.take_left, hlen, hread.1]
  simp only [content, htake]

/-- A client that can be locked and whose TCP connection can be locked. -/
def reaches (lock : ConnId → Option RtpConnection) (conn : ConnId) : Bool :=
  match lock conn with
  | some rtpConn => rtpConn.getId ≠ []
  | none => false

/-- What the loop over the clients leaves behind, and what it keeps. -/
structure Locked (lock : ConnId → Option RtpConnection) (pkt : RtpPacket)
    (entries : List (ℤ × ConnId)) (clients clients' : ClientMap)
    (packets packets' : List (Bytes × RtpPacket)) (conns conns' : List ConnId) : Prop where
  expired : ∀ fd c, (fd, c) ∈ entries → lock c = none → clients'[fd]? = none
  others : ∀ fd, (∀ c, (fd, c) ∈ entries → lock c ≠ none) → clients'[fd]? = clients[fd]?
  conns_eq : conns' = ((entries.map Prod.snd).filter (reaches lock)).reverse ++ conns
  copies : (∀ x ∈ packets, content x.2 = content pkt) → ∀ x ∈ packets', content x.2 = content pkt
  kept : ∀ id, (packets.lookup id).isSome → (packets'.lookup id).isSome
  copied : ∀ x ∈ entries, ∀ rtpConn, lock x.2 = some rtpConn → rtpConn.getId ≠ [] →
    (packets'.lookup rtpConn.getId).isSome

section Locked
variable {lock : ConnId → Option RtpConnection} {pkt : RtpPacket} {rest : List (ℤ × ConnId)}
  {fd : ℤ} {conn : ConnId} {clients clients' : ClientMap} {rtpConn : RtpConnection}
  {packets packets' copies : List (Bytes × RtpPacket)} {conns conns' : List ConnId}

theorem Locked.nil : Locked lock pkt [] clients clients packets packets conns conns :=
  ⟨by simp, fun _ _ => rfl, rfl, id, fun _ => id, by simp⟩

/-- The entry in front has expired. -/
theorem Locked.expire
    (hrest : Locked lock pkt rest (clients.erase fd) clients' packets packets' conns conns')
    (hl : lock conn = none) :
    Locked lock pkt ((fd, conn) :: rest) clients clients' packets packets' conns conns' := by
  have hfd : clients'[fd]? = none := by
    by_cases hagain : ∀ c, (fd, c) ∈ rest → lock c ≠ none
    · rw [hrest.others fd hagain, Std.TreeMap.getElem?_erase_self]
    · simp only [not_forall, not_not] at hagain
      obtain ⟨c,hc,hnone⟩ := hagain
      exact hrest.expired fd c hc hnone
  refine ⟨?_, ?_, ?_, hrest.copies, hrest.kept, ?_⟩
  · intro k c hc hnone
    rcases List.mem_cons.mp hc with heq | hc
    · obtain ⟨rfl,_⟩ := Prod.mk.inj heq
      exact hfd
    · exact hrest.expired k c hc hnone
  · intro k hk
    have hne : k ≠ fd := by
      rintro rfl
      exact hk conn List.mem_cons_self hl
    rw [hrest.others k (fun c hc => hk c (List.mem_cons_of_mem _ hc)),
      Std.TreeMap.getElem?_erase, if_neg]
    exact fun heq => hne (Std.LawfulEqCmp.eq_of_compare heq).symm
  · rw [hrest.conns_eq]
    simp [reaches, hl]
  · intro x hx r hlock hid
    rcases List.mem_cons.mp hx with rfl | hx
    · rw [hl] at hlock
      contradiction
    · exact hrest.copied x hx r hlock hid

/-- A client that can be locked stays in the map. `copies` and `conns` are what the rest of the loop starts
with. -/
theorem Locked.live {front : List ConnId}
    (hrest : Locked lock pkt rest clients clients' copies packets' (front ++ conns) conns')
    (hl : lock conn = some rtpConn)
    (hfront : front = if reaches lock conn then [conn] else [])
    (hcopies : (∀ x ∈ packets, content x.2 = content pkt) → ∀ x ∈ copies, content x.2 = content pkt)
    (hkept : ∀ id, (packets.lookup id).isSome → (copies.lookup id).isSome)
    (hcopied : rtpConn.getId ≠ [] → (copies.lookup rtpConn.getId).isSome) :
    Locked lock pkt ((fd, conn) :: rest) clients clients' packets packets' conns conns' := by
  refine ⟨?_, ?_, ?_, fun hall => hrest.copies (hcopies hall), fun id h => hrest.kept id (hkept id h), ?_⟩
  · intro k c hc hnone
    rcases List.mem_cons.mp hc with heq | hc
    · obtain ⟨_,rfl⟩ := Prod.mk.inj heq
      rw [hl] at hnone
      contradiction
    · exact hrest.expired k c hc hnone
  · intro k hk
    exact hrest.others k (fun c hc => hk c (List.mem_cons_of_mem _ hc))
  · rw [hrest.conns_eq, hfront, List.map_cons, List.filter_cons]
    split <;> simp
  · intro x hx r hlock hne
    rcases List.mem_cons.mp hx with rfl | hx
    · rw [hl] at hlock
      obtain rfl := Option.some.inj hlock
      exact hrest.kept _ (hcopied hne)
    · exact hrest.copied x hx r hlock hne

/-- Its TCP connection is gone. -/
theorem Locked.closed (hrest : Locked lock pkt rest clients clients' packets packets' conns conns')
    (hl : lock conn = some rtpConn) (hid : rtpConn.getId = []) :
    Locked lock pkt ((fd, conn) :: rest) clients clients' packets packets' conns conns' := by
  have hfront : ([] : List ConnId) = if reaches lock conn then [conn] else [] := by
    simp [reaches, hl, hid]
  exact Locked.live hrest hl hfront id (fun _ => id) (fun hne => absurd hid hne)

/-- A packet has been copied for its name already. -/
theorem Locked.found
    (hrest : Locked lock pkt rest clients clients' packets packets' (conn :: conns) conns')
    (hl : lock conn = some rtpConn) (hid : rtpConn.getId ≠ [])
    (hfound : (packets.lookup rtpConn.getId).isSome) :
    Locked lock pkt ((fd, conn) :: rest) clients clients' packets packets' conns conns' := by
  have hfront : [conn] = if reaches lock conn then [conn] else [] := by simp [reaches, hl, hid]
  exact Locked.live hrest hl hfront id (fun _ => id) (fun _ => hfound)

/-- The packet is copied for it. -/
theorem Locked.copy {tmpPkt : RtpPacket}
    (hrest : Locked lock pkt rest clients clients' ((rtpConn.getId, tmpPkt) :: packets) packets'
      (conn :: conns) conns')
    (hl : lock conn = some rtpConn) (hid : rtpConn.getId ≠ []) (htmp : content tmpPkt = content pkt) :
    Locked lock pkt ((fd, conn) :: rest) clients clients' packets packets' conns conns' := by
  have hfront : [conn] = if reaches lock conn then [conn] else [] := by simp [reaches, hl, hid]
  refine Locked.live hrest hl hfront ?_ ?_ (fun _ => by simp)
  · intro hall x hx
    rcases List.mem_cons.mp hx with rfl | hx
    · exact htmp
    · exact hall x hx
  · intro id hsome
    rw [List.lookup_cons]
    split <;> simp [hsome]

end Locked

theorem lockClients_spec {lock : ConnId → Option RtpConnection} {mem : Bytes → PacketData}
    {pkt : RtpPacket} {entries : List (ℤ × ConnId)} {clients clients' : ClientMap}
    {packets packets' : List (Bytes × RtpPacket)} {conns conns' : List ConnId}
    (h : lockClients lock mem pkt entries clients packets conns = .ok (clients', packets', conns')) :
    Locked lock pkt entries clients clients' packets packets' conns conns' := by
  induction entries generalizing clients packets conns with
  | nil =>
    obtain ⟨rfl,h2⟩ := Prod.mk.inj (Except.ok.inj h)
    obtain ⟨rfl,rfl⟩ := Prod.mk.inj h2
    exact Locked.nil
  | cons entry rest ih =>
    obtain ⟨fd,conn⟩ := entry
    rw [lockClients] at h
    cases hl : lock conn with
    | none =>
      rw [hl] at h
      exact (ih h).expire hl
    | some rtpConn =>
      rw [hl] at h
      dsimp only at h
      split at h
      case isTrue hid => exact (ih h).closed hl hid
      case isFalse hid =>
        split at h
        case h_1 copy hcopy => exact (ih h).found hl hid (by rw [hcopy]; rfl)
        case h_2 =>
          obtain ⟨tmpPkt,htmp,h⟩ := Runs.bind_ok h
          exact (ih h).copy hl hid (copyPacket_content htmp)

/-- The loop over the whole map keeps the clients that can be locked. -/
theorem Locked.clients_eq {lock : ConnId → Option RtpConnection} {pkt : RtpPacket}
    {clients clients' : ClientMap} {packets packets' : List (Bytes × RtpPacket)} {conns conns' : List ConnId}
    (h : Locked lock pkt clients.toList clients clients' packets packets' conns conns') (fd : ℤ) :
    clients'[fd]? = clients[fd]?.filter (fun c => (lock c).isSome) := by
  cases hc : clients[fd]? with
  | none =>
    rw [h.others fd]
    · exact hc
    · intro c hmem
      rw [Std.TreeMap.mem_toList_iff_getElem?_eq_some, hc] at hmem
      contradiction
  | some c =>
    have hmem := Std.TreeMap.mem_toList_iff_getElem?_eq_some.mpr hc
    cases hl : lock c with
    | none => rw [h.expired fd c hmem hl, Option.filter_some, hl, if_neg (by simp)]
    | some rtpConn =>
      rw [h.others fd, hc, Option.filter_some, hl, if_pos (by simp)]
      intro d hd
      rw [Std.TreeMap.mem_toList_iff_getElem?_eq_some, hc] at hd
      obtain rfl := Option.some.inj hd
      rw [hl]
      simp

/-- One packet: the entries that have expired are gone and no others, and each client that can
be reached is handed a copy of the packet. -/
structure Sent (lock : ConnId → Option RtpConnection) (channelId : MediaChannelId)
    (pkt : RtpPacket) (s s' : PushState) (calls : List Handed) : Prop where
  clients_eq : ∀ fd : ℤ, s'.clients[fd]? = s.clients[fd]?.filter (fun c => (lock c).isSome)
  packets_eq : s'.packets = s.packets ++ [pkt]
  handed_eq : s'.handed = s.handed ++ calls
  conns_eq : calls.map Handed.conn =
    ((s.clients.toList.map Prod.snd).filter (reaches lock)).reverse
  copies : ∀ x ∈ calls, x.channelId = channelId ∧ content x.pkt = content pkt

theorem handOver_conns {lock : ConnId → Option RtpConnection} {channelId : MediaChannelId}
    {packets : List (Bytes × RtpPacket)} {conns : List ConnId} {P : RtpPacket → Prop}
    (h : ∀ conn ∈ conns, ∃ p, handTo lock channelId packets conn = some ⟨conn, channelId, p⟩ ∧ P p) :
    (handOver lock channelId packets conns).map Handed.conn = conns := by
  induction conns with
  | nil => rfl
  | cons conn conns ih =>
    obtain ⟨p,hp,_⟩ := h conn List.mem_cons_self
    have hrest := ih (fun c hc => h c (List.mem_cons_of_mem _ hc))
    unfold handOver at hrest ⊢
    rw [List.filterMap_cons, hp]
    exact congrArg (conn :: ·) hrest

theorem sendFrameCallback_spec {lock : ConnId → Option RtpConnection}
    {mem : ℕ → Bytes → PacketData} {channelId : MediaChannelId} {pkt : RtpPacket}
    {s s' : PushState} {ok : Bool}
    (h : sendFrameCallback lock mem s channelId pkt = .ok (s', ok)) :
    ok = true ∧ ∃ calls, Sent lock channelId pkt s s' calls := by
  obtain ⟨⟨clients,packets,conns⟩,hlock,h⟩ := Runs.bind_ok h
  obtain ⟨rfl,rfl⟩ := Prod.mk.inj (Except.ok.inj h)
  have hspec := lockClients_spec hlock
  have hconns : conns = ((s.clients.toList.map Prod.snd).filter (reaches lock)).reverse := by
    rw [hspec.conns_eq, List.append_nil]
  have hall : ∀ x ∈ packets, content x.2 = content pkt := hspec.copies (by simp)
  -- every connection on the list is handed its copy
  have hhand : ∀ conn ∈ conns, ∃ p, handTo lock channelId packets conn = some ⟨conn, channelId, p⟩ ∧
      content p = content pkt := by
    intro conn hconn
    rw [hconns, List.mem_reverse, List.mem_filter] at hconn
    obtain ⟨hmem,hreach⟩ := hconn
    obtain ⟨⟨fd,c⟩,hentry,rfl⟩ := List.mem_map.mp hmem
    unfold reaches at hreach
    split at hreach
    case h_1 rtpConn hl =>
      have hid : rtpConn.getId ≠ [] := by simpa using hreach
      obtain ⟨p,hp⟩ := Option.isSome_iff_exists.mp (hspec.copied _ hentry rtpConn hl hid)
      obtain ⟨_,_,hsplit,_⟩ := List.lookup_eq_some_iff.mp hp
      refine ⟨p, ?_, hall (rtpConn.getId, p) (by rw [hsplit]; simp)⟩
      rw [handTo, hl]
      simp only [if_neg hid, hp, Option.map_some]
    case h_2 => contradiction
  refine ⟨rfl, handOver lock channelId packets conns, ?_, rfl, rfl, ?_, ?_⟩
  · exact hspec.clients_eq
  · rw [← hconns]
    exact handOver_conns hhand
  · intro x hx
    obtain ⟨conn,hconn,hx⟩ := List.mem_filterMap.mp hx
    obtain ⟨p,hp,hcontent⟩ := hhand conn hconn
    rw [hp] at hx
    obtain rfl := Option.some.inj hx
    exact ⟨rfl, hcontent⟩

/-- Where a push stands: no client that can be locked has been dropped, and the packets so far
have been handed to the clients that can be reached, to all of them and to nobody else. -/
structure Pushed (lock : ConnId → Option RtpConnection) (channelId : MediaChannelId)
    (clients : ClientMap) (p : PushState) : Prop where
  old : ∀ (fd : ℤ) c, p.clients[fd]? = some c → clients[fd]? = some c
  kept : ∀ (fd : ℤ) c, clients[fd]? = some c → (lock c).isSome → p.clients[fd]? = some c
  to_client : ∀ x ∈ p.handed, x.channelId = channelId ∧ reaches lock x.conn = true ∧
    ∃ fd : ℤ, clients[fd]? = some x.conn
  to_all : ∀ (fd : ℤ) c, clients[fd]? = some c → reaches lock c = true → ∀ pkt ∈ p.packets,
    ∃ x ∈ p.handed, x.conn = c ∧ content x.pkt = content pkt

theorem lock_isSome_of_reaches {lock : ConnId → Option RtpConnection} {c : ConnId}
    (h : reaches lock c = true) : (lock c).isSome := by
  unfold reaches at h
  split at h
  case h_1 hl => rw [hl]; rfl
  case h_2 => contradiction

theorem Pushed.step {lock : ConnId → Option RtpConnection} {channelId : MediaChannelId}
    {clients : ClientMap} {pkt : RtpPacket} {p p' : PushState} {calls : List Handed}
    (hp : Pushed lock channelId clients p) (h : Sent lock channelId pkt p p' calls) :
    Pushed lock channelId clients p' := by
  have hcall (c : ConnId) : c ∈ calls.map Handed.conn ↔
      reaches lock c = true ∧ ∃ fd : ℤ, p.clients[fd]? = some c := by
    rw [h.conns_eq, List.mem_reverse, List.mem_filter, and_comm, List.mem_map]
    apply and_congr_right
    intro _
    constructor
    · rintro ⟨⟨fd,c⟩,hmem,rfl⟩
      exact ⟨fd, Std.TreeMap.mem_toList_iff_getElem?_eq_some.mp hmem⟩
    · rintro ⟨fd,hfd⟩
      exact ⟨(fd, c), Std.TreeMap.mem_toList_iff_getElem?_eq_some.mpr hfd, rfl⟩
  refine ⟨?_, ?_, ?_, ?_⟩
  · intro fd c hc
    rw [h.clients_eq fd, Option.filter_eq_some_iff] at hc
    exact hp.old fd c hc.1
  · intro fd c hc hl
    rw [h.clients_eq fd, hp.kept fd c hc hl, Option.filter_some, if_pos hl]
  · intro x hx
    rw [h.handed_eq] at hx
    rcases List.mem_append.mp hx with hx | hx
    · exact hp.to_client x hx
    · obtain ⟨hreach,fd,hfd⟩ := (hcall x.conn).mp (List.mem_map_of_mem hx)
      exact ⟨(h.copies x hx).1, hreach, fd, hp.old fd _ hfd⟩
  · intro fd c hc hreach q hq
    rw [h.packets_eq] at hq
    rw [h.handed_eq]
    rcases List.mem_append.mp hq with hq | hq
    · obtain ⟨x,hx,h1,h2⟩ := hp.to_all fd c hc hreach q hq
      exact ⟨x, List.mem_append_left _ hx, h1, h2⟩
    · obtain rfl := List.mem_singleton.mp hq
      have hfd := hp.kept fd c hc (lock_isSome_of_reaches hreach)
      obtain ⟨x,hx,rfl⟩ := List.mem_map.mp ((hcall c).mpr ⟨hreach, fd, hfd⟩)
      exact ⟨x, List.mem_append_right _ hx, rfl, (h.copies x hx).2⟩

/-- A whole frame. Where the channel has a source, the packets are the ones that the source makes
of the frame for any callback. -/
theorem handleFrame_spec {s s' : MediaSession} {lock : ConnId → Option RtpConnection}
    {now : UInt32} {alloc : ℕ → PacketData} {mem : ℕ → Bytes → PacketData}
    {channelId : MediaChannelId} {frame : AVFrame} {ok : Bool} {p : PushState}
    (h : s.handleFrame lock now alloc mem channelId frame = .ok (ok, s', p)) :
    s' = { s with clients := p.clients } ∧ Pushed lock channelId s.clients p ∧
      (s.mediaSources channelId ≠ none → ∃ sent,
        IdealServer.handleFrame now alloc (some collect) channelId frame [] =
          .ok (p.packets, sent)) := by
  have hstart : Pushed lock channelId s.clients ⟨s.clients, [], []⟩ :=
    ⟨fun _ _ hc => hc, fun _ _ hc _ => hc, by simp, by simp⟩
  unfold handleFrame at h
  split at h
  case h_1 hnone =>
    obtain ⟨_,h2⟩ := Prod.mk.inj (Except.ok.inj h)
    obtain ⟨rfl,rfl⟩ := Prod.mk.inj h2
    exact ⟨rfl, hstart, fun hsome => absurd hnone hsome⟩
  case h_2 =>
    obtain ⟨⟨q,sent⟩,hframe,h⟩ := Runs.bind_ok h
    obtain ⟨_,h2⟩ := Prod.mk.inj (Except.ok.inj h)
    obtain ⟨rfl,rfl⟩ := Prod.mk.inj h2
    -- beside the callback runs one that only collects the packets
    let R (q : PushState) (pkts : List RtpPacket) : Prop :=
      Pushed lock channelId s.clients q ∧ q.packets = pkts
    have hstep (q : PushState) (pkts : List RtpPacket) (pkt : RtpPacket) (q' : PushState) (b : Bool)
        (_ : pkt.size.toNat ≤ 1436) (_ : pkt.type = frame.type) (hq : R q pkts)
        (hcb : sendFrameCallback lock mem q channelId pkt = .ok (q', b)) :
        ∃ pkts', collect pkts channelId pkt = .ok (pkts', b) ∧ R q' pkts' := by
      obtain ⟨rfl,calls,hsent⟩ := sendFrameCallback_spec hcb
      exact ⟨pkts ++ [pkt], rfl, hq.1.step hsent, by rw [hsent.packets_eq, hq.2]⟩
    obtain ⟨pkts,hcollect,hpushed,rfl⟩ := handleFrame_simulates hstep ⟨hstart, rfl⟩ hframe
    exact ⟨rfl, hpushed, fun _ => ⟨sent, hcollect⟩⟩

/-- A frame that the source can split is handed over. -/
theorem handleFrame_ok {s : MediaSession} {lock : ConnId → Option RtpConnection}
    {now : UInt32} {alloc : ℕ → PacketData} {mem : ℕ → Bytes → PacketData}
    {channelId : MediaChannelId} {frame : AVFrame} (h0 : frame.buffer ≠ [])
    (hsize : frame.size.toNat < 2^31) :
    ∃ r, s.handleFrame lock now alloc mem channelId frame = .ok r := by
  unfold handleFrame
  split
  · exact ⟨_, rfl⟩
  · obtain ⟨pkts,hpkts,_⟩ := handle_frame_packets now alloc channelId frame h0 hsize
    have hstep (pkts : List RtpPacket) (q : PushState) (pkt : RtpPacket) (pkts' : List RtpPacket)
        (b : Bool) (hle : pkt.size.toNat ≤ 1436) (_ : pkt.type = frame.type) (_ : True)
        (hcb : collect pkts channelId pkt = .ok (pkts', b)) :
        ∃ q', sendFrameCallback lock mem q channelId pkt = .ok (q', b) ∧ True := by
      obtain ⟨_,rfl⟩ := Prod.mk.inj (Except.ok.inj hcb)
      obtain ⟨q',hq⟩ := @sendFrameCallback_ok lock mem channelId pkt (by omega) q
      exact ⟨q', hq, trivial⟩
    obtain ⟨p,hp,_⟩ := @handleFrame_simulates _ _ _ _ _ _ _ (fun _ _ => True) _ _
      (⟨s.clients, [], []⟩ : PushState) _ hstep _ trivial hpkts
    exact ⟨_, by simp only [hp, bind, Except.bind]; rfl⟩

end MediaSession

end IdealServer
