import IdealServer.Cells
import IdealServer.MediaSession
import IdealServer.SequenceNumbers

/-! The send callback with the buffers of the packets: a packet refers to an array that its copies
share, so what matters is which arrays are private to a client. -/
namespace IdealServer

/-- `data` is the address of the array. -/
structure PacketRef where
  data : ℕ
  size : UInt32
  timestamp : UInt32
  type : UInt8
  last : UInt8
deriving DecidableEq

abbrev PacketMemory := Cells PacketData

namespace PacketRef

/-- `RtpPacket()` -/
def new (h : PacketMemory) : PacketRef × PacketMemory := (⟨h.alloc.1, 0, 0, 0, 0⟩, h.alloc.2)

/-- The packet with the bytes that are now in its array. -/
def load (p : PacketRef) (h : PacketMemory) : RtpPacket := ⟨h.mem p.data, p.size, p.timestamp, p.type, p.last⟩

end PacketRef

/-- A call of `sendRtpPacket`. -/
structure HandedRef where
  conn : ConnId
  channelId : MediaChannelId
  pkt : PacketRef

namespace MediaSession

def copyPacketRef (h : PacketMemory) (pkt : PacketRef) : Except Fault (PacketRef × PacketMemory) := do
  let (tmpPkt, h) := PacketRef.new h
  let src ← readBytes (h.mem pkt.data).bytes 0 pkt.size.toNat
  let data ← (h.mem tmpPkt.data).write 0 src
  return ({ pkt with data := tmpPkt.data }, h.store tmpPkt.data data)

/-- `lockClients` with the memory. -/
def lockClientsRef (lock : ConnId → Option RtpConnection) (pkt : PacketRef) :
    List (ℤ × ConnId) → ClientMap → List (Bytes × PacketRef) → List ConnId → PacketMemory →
    Except Fault (ClientMap × List (Bytes × PacketRef) × List ConnId × PacketMemory)
  | [], clients, packets, conns, h => .ok (clients, packets, conns, h)
  | (fd, conn) :: rest, clients, packets, conns, h =>
    match lock conn with
    | none => lockClientsRef lock pkt rest (clients.erase fd) packets conns h
    | some rtpConn =>
      if rtpConn.getId = [] then lockClientsRef lock pkt rest clients packets conns h
      else
        match packets.lookup rtpConn.getId with
        | some _ => lockClientsRef lock pkt rest clients packets (conn :: conns) h
        | none => do
          let (tmpPkt, h) ← copyPacketRef h pkt
          lockClientsRef lock pkt rest clients ((rtpConn.getId, tmpPkt) :: packets) (conn :: conns) h

def handToRef (lock : ConnId → Option RtpConnection) (channelId : MediaChannelId)
    (packets : List (Bytes × PacketRef)) (conn : ConnId) : Option HandedRef :=
  match lock conn with
  | none => none
  | some rtpConn =>
    if rtpConn.getId = [] then none
    else (packets.lookup rtpConn.getId).map (fun pkt => ⟨conn, channelId, pkt⟩)

/-- One execution of the callback: the clients that are left, the calls and the memory. -/
def sendFrameCallbackRef (lock : ConnId → Option RtpConnection) (clients : ClientMap)
    (channelId : MediaChannelId) (pkt : PacketRef) (h : PacketMemory) :
    Except Fault (ClientMap × List HandedRef × PacketMemory) := do
  let (clients, packets, conns, h) ← lockClientsRef lock pkt clients.toList clients [] [] h
  return (clients, conns.filterMap (handToRef lock channelId packets), h)

end MediaSession

namespace RtpConnection

/-- The `memcpy` goes into the array that the packet refers to. -/
def setRtpHeaderRef (s : RtpConnection) (channelId : MediaChannelId) (pkt : PacketRef)
    (h : PacketMemory) : Except Fault (RtpConnection × PacketMemory) := do
  let (s, p) ← s.setRtpHeader channelId (pkt.load h)
  return (s, h.store pkt.data p.data)

def sendRtpOverTcpRef (s : RtpConnection) (channelId : MediaChannelId) (pkt : PacketRef)
    (h : PacketMemory) : Except Fault ((ℤ × List Call) × PacketMemory) :=
  match s.tcpConn with
  | none => .ok ((-1, []), h)
  | some tcpConn => do
    let rtpChannel := (s.mediaChannelInfo channelId).rtpChannel
    let data ← (h.mem pkt.data).write 0 [36, rtpChannel.toUInt8,
      (((pkt.size-4) &&& 0xFF00) >>> 8).toUInt8, ((pkt.size-4) &&& 0xFF).toUInt8]
    let h := h.store pkt.data data
    let message ← readBytes (h.mem pkt.data).bytes 0 pkt.size.toNat
    return ((pkt.size.toNat, [.send tcpConn.name message]), h)

/-- The task that `sendRtpPacket` posts. -/
def sendRtpPacketInLoopRef (s : RtpConnection) (channelId : MediaChannelId) (pkt : PacketRef)
    (ret : ℤ) (h : PacketMemory) : Except Fault ((RtpConnection × List Call) × PacketMemory) := do
  let s := s.setFrameType pkt.type
  let (s, h) ← s.setRtpHeaderRef channelId pkt h
  if s.canSend channelId then
    if s.transportMode = .rtpOverTcp then
      let (r, h') ← s.sendRtpOverTcpRef channelId pkt h
      return ((s, .overTcp channelId (pkt.load h) :: r.2), h')
    else
      let r ← s.sendRtpOverUdp channelId (pkt.load h) ret
      return ((r.2.1, .overUdp channelId (pkt.load h) :: r.2.2), h)
  else
    return ((s, []), h)

section Local
variable (s : RtpConnection) (c : MediaChannelId) (pkt : PacketRef)

theorem setRtpHeader_frame {s s' : RtpConnection} {p q : RtpPacket}
    (h : s.setRtpHeader c p = .ok (s', q)) : q = { p with data := q.data } := by
  cases hg : s.canSend c with
  | true =>
    obtain ⟨data,_,hset⟩ := setRtpHeader_sent s c p hg
    obtain ⟨_,rfl⟩ := Prod.mk.inj (Except.ok.inj (hset.symm.trans h))
    rfl
  | false =>
    obtain ⟨_,rfl⟩ := Prod.mk.inj (Except.ok.inj ((setRtpHeader_discarded s c p hg).symm.trans h))
    rfl

/-- `sendRtpOverTcp` keeps to the array of its packet. -/
theorem sendRtpOverTcpRef_actsOn : Cells.ActsOn pkt.data (s.sendRtpOverTcpRef c pkt)
    (fun d => s.sendRtpOverTcp c ⟨d, pkt.size, pkt.timestamp, pkt.type, pkt.last⟩) := by
  constructor
  · intro h
    unfold sendRtpOverTcpRef sendRtpOverTcp
    cases s.tcpConn with
    | none => rfl
    | some tcpConn =>
      dsimp only
      cases hwrite : (h.mem pkt.data).write 0 [36, (s.mediaChannelInfo c).rtpChannel.toUInt8,
          (((pkt.size-4) &&& 0xFF00) >>> 8).toUInt8, ((pkt.size-4) &&& 0xFF).toUInt8] with
      | error e => rfl
      | ok data =>
        simp only [bind, Except.bind, Cells.store_mem]
        cases readBytes data.bytes 0 pkt.size.toNat <;> rfl
  · intro h r h' hrun b hne
    unfold sendRtpOverTcpRef at hrun
    split at hrun
    · obtain ⟨_,rfl⟩ := Prod.mk.inj (Except.ok.inj hrun)
      rfl
    · obtain ⟨data,_,hrun⟩ := Runs.bind_ok hrun
      obtain ⟨message,_,hrun⟩ := Runs.bind_ok hrun
      obtain ⟨_,rfl⟩ := Prod.mk.inj (Except.ok.inj hrun)
      exact h.store_mem_of_ne _ _ _ hne

/-- So does the whole task: it does what `sendRtpPacketInLoop` does with the bytes it finds there. -/
theorem sendRtpPacketInLoopRef_actsOn (ret : ℤ) :
    Cells.ActsOn pkt.data (s.sendRtpPacketInLoopRef c pkt ret)
      (fun d => s.sendRtpPacketInLoop c ⟨d, pkt.size, pkt.timestamp, pkt.type, pkt.last⟩ ret) := by
  constructor
  · intro h
    unfold sendRtpPacketInLoopRef sendRtpPacketInLoop setRtpHeaderRef
    show _ = ((s.setFrameType pkt.type).setRtpHeader c (pkt.load h)).bind _
    cases hset : (s.setFrameType pkt.type).setRtpHeader c (pkt.load h) with
    | error e => simp only [hset, bind, Except.bind, Except.map]
    | ok r =>
      obtain ⟨s1,p⟩ := r
      have hload : pkt.load (h.store pkt.data p.data) = p := by
        rw [setRtpHeader_frame c hset]
        simp [PacketRef.load]
      simp only [hset, bind, Except.bind, pure, Except.pure]
      split
      · split
        · have htcp := (sendRtpOverTcpRef_actsOn s1 c pkt).result (h.store pkt.data p.data)
          replace htcp : (sendRtpOverTcpRef s1 c pkt (h.store pkt.data p.data)).map Prod.fst =
              s1.sendRtpOverTcp c (pkt.load (h.store pkt.data p.data)) := htcp
          rw [hload] at htcp ⊢
          rw [← htcp]
          cases s1.sendRtpOverTcpRef c pkt (h.store pkt.data p.data) <;> rfl
        · rw [hload]
          cases s1.sendRtpOverUdp c p ret <;> rfl
      · rfl
  · intro h r h' hrun b hne
    obtain ⟨⟨s1,h1⟩,hset,hrun⟩ := Runs.bind_ok hrun
    have h1b : h1.mem b = h.mem b := by
      obtain ⟨⟨s2,p⟩,_,hset⟩ := Runs.bind_ok hset
      obtain ⟨_,rfl⟩ := Prod.mk.inj (Except.ok.inj hset)
      exact h.store_mem_of_ne _ _ _ hne
    dsimp only at hrun
    split at hrun
    · split at hrun
      · obtain ⟨⟨r1,h2⟩,htcp,hrun⟩ := Runs.bind_ok hrun
        obtain ⟨_,rfl⟩ := Prod.mk.inj (Except.ok.inj hrun)
        rw [(sendRtpOverTcpRef_actsOn s1 c pkt).frame h1 r1 _ htcp b hne]
        exact h1b
      · obtain ⟨r1,_,hrun⟩ := Runs.bind_ok hrun
        obtain ⟨_,rfl⟩ := Prod.mk.inj (Except.ok.inj hrun)
        exact h1b
    · obtain ⟨_,rfl⟩ := Prod.mk.inj (Except.ok.inj hrun)
      exact h1b

end Local

end RtpConnection

namespace MediaSession
variable {lock : ConnId → Option RtpConnection} {pkt : PacketRef} {h : PacketMemory}

theorem copyPacketRef_ok (hsize : pkt.size.toNat ≤ 1600) : ∃ h',
    copyPacketRef h pkt = .ok ({ pkt with data := h.next }, h') ∧ h'.next = h.next+1 ∧
      (∀ a, a ≠ h.next → h'.mem a = h.mem a) ∧
      content (PacketRef.load { pkt with data := h.next } h') = content (pkt.load h) := by
  obtain ⟨p,hp⟩ := @copyPacket_ok (h.mem h.next) (pkt.load h) hsize
  have hcontent := copyPacket_content hp
  obtain ⟨src,hsrc,hp⟩ := Runs.bind_ok hp
  obtain ⟨d,hd,hp⟩ := Runs.bind_ok hp
  obtain rfl := Except.ok.inj hp
  refine ⟨(h.alloc.2).store h.next d, ?_, rfl, ?_, ?_⟩
  · have hsrc' : readBytes (h.mem pkt.data).bytes 0 pkt.size.toNat = .ok src := hsrc
    simp only [copyPacketRef, PacketRef.new, Cells.alloc, hsrc', hd, bind, Except.bind, pure, Except.pure]
  · intro a hne
    exact (h.alloc.2).store_mem_of_ne _ _ _ hne
  · rw [← hcontent]
    simp only [PacketRef.load, Cells.store_mem]

/-- The name under which a copy is kept. -/
def nameOf (lock : ConnId → Option RtpConnection) (c : ConnId) : Bytes :=
  ((lock c).map RtpConnection.getId).getD []

theorem lookup_eq_none {α : Type} {k : Bytes} {l : List (Bytes × α)} :
    l.lookup k = none ↔ k ∉ l.map Prod.fst := by
  rw [List.lookup_eq_none_iff]
  simp only [List.mem_map, not_exists, not_and, bne_iff_ne, ne_eq]
  exact ⟨fun hne x hx heq => hne x hx heq.symm, fun hne x hx heq => hne x hx heq.symm⟩

theorem lookup_of_nodup {α : Type} {k : Bytes} {v : α} {l : List (Bytes × α)}
    (hnodup : (l.map Prod.fst).Nodup) (hmem : (k, v) ∈ l) : l.lookup k = some v := by
  induction l with
  | nil => cases hmem
  | cons x l ih =>
    rw [List.map_cons, List.nodup_cons] at hnodup
    rw [List.lookup_cons]
    rcases List.mem_cons.mp hmem with rfl | hmem
    · rw [beq_self_eq_true]
    · have hne : (k == x.1) = false := by
        rw [beq_eq_false_iff_ne]
        rintro rfl
        exact hnodup.1 (List.mem_map.mpr ⟨_, hmem, rfl⟩)
      rw [hne]
      exact ih hnodup.2 hmem

/-- What the first loop leaves of the memory: a private copy of the packet for each connection. -/
structure Copied (pkt : PacketRef) (h h' : PacketMemory) (fresh : List (ConnId × PacketRef)) : Prop where
  next_le : h.next ≤ h'.next
  kept : ∀ a, a < h.next → h'.mem a = h.mem a
  range : ∀ x ∈ fresh, h.next ≤ x.2.data ∧ x.2.data < h'.next
  nodup : (fresh.map (fun x => x.2.data)).Nodup
  same : ∀ x ∈ fresh, content (x.2.load h') = content (pkt.load h)

theorem Copied.cons {h1 h' : PacketMemory} {fresh : List (ConnId × PacketRef)} {conn : ConnId}
    {r : PacketRef} (hrest : Copied pkt h1 h' fresh) (hdata : pkt.data < h.next) (hr : r.data = h.next)
    (hnext : h1.next = h.next+1) (hmem : ∀ a, a ≠ h.next → h1.mem a = h.mem a)
    (hsame : content (r.load h1) = content (pkt.load h)) :
    Copied pkt h h' (fresh ++ [(conn, r)]) := by
  have hload : pkt.load h1 = pkt.load h := by
    rw [PacketRef.load, PacketRef.load, hmem _ (by omega)]
  have hle := hrest.next_le
  refine ⟨by omega, ?_, ?_, ?_, ?_⟩
  · intro a ha
    rw [hrest.kept a (by omega), hmem a (by omega)]
  · intro x hx
    rcases List.mem_append.mp hx with hx | hx
    · have := hrest.range x hx
      omega
    · rw [List.mem_singleton.mp hx]
      show h.next ≤ r.data ∧ r.data < h'.next
      omega
  · rw [List.map_append, List.nodup_append]
    refine ⟨hrest.nodup, List.nodup_singleton _, ?_⟩
    intro a ha b hb hab
    obtain ⟨x,hx,rfl⟩ := List.mem_map.mp ha
    have := hrest.range x hx
    rw [List.map_singleton, List.mem_singleton] at hb
    replace hb : b = r.data := hb
    omega
  · intro x hx
    rcases List.mem_append.mp hx with hx | hx
    · rw [hrest.same x hx, hload]
    · rw [List.mem_singleton.mp hx, ← hsame]
      show content (r.load h') = content (r.load h1)
      rw [PacketRef.load, PacketRef.load, hrest.kept r.data (by omega)]

/-- The loop does to the clients and the connections what `lockClients` does, and each connection gets
an array of its own. -/
theorem lockClientsRef_spec {mem : Bytes → PacketData} {entries : List (ℤ × ConnId)}
    (hsize : pkt.size.toNat ≤ 1600) (clients : ClientMap) (packets : List (Bytes × PacketRef))
    (values : List (Bytes × RtpPacket)) (conns : List ConnId) (hdata : pkt.data < h.next)
    (hnames : (((entries.map Prod.snd).filter (reaches lock)).map (nameOf lock)).Nodup)
    (hnew : ∀ c ∈ (entries.map Prod.snd).filter (reaches lock), nameOf lock c ∉ packets.map Prod.fst)
    (hkeys : values.map Prod.fst = packets.map Prod.fst) :
    ∃ clients' fresh h' values', lockClientsRef lock pkt entries clients packets conns h =
        .ok (clients', fresh.map (fun x => (nameOf lock x.1, x.2)) ++ packets,
          fresh.map Prod.fst ++ conns, h') ∧
      lockClients lock mem (pkt.load h) entries clients values conns =
        .ok (clients', values', fresh.map Prod.fst ++ conns) ∧ Copied pkt h h' fresh := by
  induction entries generalizing clients packets values conns h with
  | nil =>
    exact ⟨clients, [], h, values, rfl, rfl, le_rfl, fun _ _ => rfl, by simp, List.nodup_nil, by simp⟩
  | cons entry rest ih =>
    obtain ⟨fd,conn⟩ := entry
    unfold lockClientsRef lockClients
    have hskip (hreach : reaches lock conn = false) :
        (((fd, conn) :: rest).map Prod.snd).filter (reaches lock) =
          (rest.map Prod.snd).filter (reaches lock) := by
      rw [List.map_cons, List.filter_cons_of_neg (by rw [hreach]; exact Bool.false_ne_true)]
    cases hl : lock conn with
    | none =>
      rw [hskip (by rw [reaches, hl])] at hnames hnew
      exact ih _ packets values conns hdata hnames hnew hkeys
    | some rtpConn =>
      dsimp only
      by_cases hid : rtpConn.getId = []
      · rw [hskip (by simp [reaches, hl, hid])] at hnames hnew
        rw [if_pos hid, if_pos hid]
        exact ih _ packets values conns hdata hnames hnew hkeys
      · have hreach : reaches lock conn = true := by simp [reaches, hl, hid]
        have hname : nameOf lock conn = rtpConn.getId := by simp [nameOf, hl]
        rw [List.map_cons, List.filter_cons_of_pos hreach] at hnames hnew
        rw [List.map_cons, List.nodup_cons] at hnames
        have hconn := hnew conn List.mem_cons_self
        rw [if_neg hid, if_neg hid]
        rw [hname] at hconn
        have hnone : packets.lookup rtpConn.getId = none := lookup_eq_none.mpr hconn
        have hnone' : values.lookup rtpConn.getId = none := lookup_eq_none.mpr (hkeys ▸ hconn)
        obtain ⟨h1,hcopy,hnext,hmem,hsame⟩ := @copyPacketRef_ok pkt h hsize
        obtain ⟨tmpPkt,htmp⟩ := @copyPacket_ok (mem rtpConn.getId) (pkt.load h) hsize
        simp only [hnone, hnone', hcopy, htmp, bind, Except.bind]
        have hload : pkt.load h1 = pkt.load h := by
          rw [PacketRef.load, PacketRef.load, hmem _ (by omega)]
        obtain ⟨clients',fresh,h',values',href,hval,hrest⟩ := @ih h1 clients
          ((rtpConn.getId, { pkt with data := h.next }) :: packets)
          ((rtpConn.getId, tmpPkt) :: values) (conn :: conns) (by omega) hnames.2
          (by
            intro c hc hmem'
            rcases List.mem_cons.mp hmem' with heq | hmem'
            · apply hnames.1
              rw [hname, ← show nameOf lock c = rtpConn.getId from heq]
              exact List.mem_map_of_mem hc
            · exact hnew c (List.mem_cons_of_mem _ hc) hmem')
          (by rw [List.map_cons, List.map_cons, hkeys])
        rw [hload] at hval
        refine ⟨clients', fresh ++ [(conn, { pkt with data := h.next })], h', values', ?_, ?_, ?_⟩
        · rw [href]
          simp [hname]
        · rw [hval]
          simp
        · exact hrest.cons hdata rfl hnext hmem hsame

/-- A client that lives and whose TCP connection lives. -/
def alive (lock : ConnId → Option RtpConnection) (c : ConnId) : Bool :=
  match lock c with
  | some rtpConn => rtpConn.tcpConn.isSome
  | none => false

/-- The name of a live TCP connection is not empty, and no two entries have the same. -/
structure UniqueNames (lock : ConnId → Option RtpConnection) (clients : ClientMap) : Prop where
  ne_nil : ∀ (fd : ℤ) c, clients[fd]? = some c → alive lock c = true → nameOf lock c ≠ []
  unique : ∀ (fd fd' : ℤ) c c', clients[fd]? = some c → clients[fd']? = some c' →
    alive lock c = true → alive lock c' = true → nameOf lock c = nameOf lock c' → fd = fd'

theorem alive_of_reaches {c : ConnId} (h : reaches lock c = true) : alive lock c = true := by
  unfold reaches at h
  unfold alive
  cases hl : lock c with
  | none =>
    rw [hl] at h
    cases h
  | some rtpConn =>
    rw [hl] at h
    show rtpConn.tcpConn.isSome = true
    cases ht : rtpConn.tcpConn with
    | some t => rfl
    | none => simp [RtpConnection.getId, ht] at h

theorem UniqueNames.reaches_iff {clients : ClientMap} (hnames : UniqueNames lock clients) {fd : ℤ}
    {c : ConnId} (hc : clients[fd]? = some c) : reaches lock c = true ↔ alive lock c = true := by
  refine ⟨alive_of_reaches, ?_⟩
  intro halive
  have hne := hnames.ne_nil fd c hc halive
  unfold nameOf at hne
  unfold reaches
  cases hl : lock c with
  | none => simp [hl] at hne
  | some rtpConn => simpa [hl] using hne

theorem UniqueNames.nodup {clients : ClientMap} (hnames : UniqueNames lock clients) :
    (((clients.toList.map Prod.snd).filter (reaches lock)).map (nameOf lock)).Nodup := by
  have hkeys : clients.toList.Nodup := by
    have hdistinct := @Std.TreeMap.distinct_keys_toList _ _ _ clients _
    apply hdistinct.imp
    rintro a b hne rfl
    exact hne Std.ReflCmp.compare_self
  rw [List.filter_map, List.map_map]
  apply List.Nodup.map_on _ (hkeys.filter _)
  rintro ⟨fd,c⟩ hx ⟨fd',c'⟩ hy heq
  rw [List.mem_filter] at hx hy
  have hc := Std.TreeMap.mem_toList_iff_getElem?_eq_some.mp hx.1
  have hc' := Std.TreeMap.mem_toList_iff_getElem?_eq_some.mp hy.1
  obtain rfl := hnames.unique fd fd' c c' hc hc' (alive_of_reaches hx.2) (alive_of_reaches hy.2) heq
  rw [hc] at hc'
  rw [Option.some.inj hc']

/-- The clients of the map that can be reached. -/
theorem UniqueNames.mem_reached {clients : ClientMap} (hnames : UniqueNames lock clients) (c : ConnId) :
    c ∈ (clients.toList.map Prod.snd).filter (reaches lock) ↔
      alive lock c = true ∧ ∃ fd : ℤ, clients[fd]? = some c := by
  rw [List.mem_filter, List.mem_map, and_comm]
  constructor
  · rintro ⟨hc,⟨fd,_⟩,hmem,rfl⟩
    exact ⟨alive_of_reaches hc, fd, Std.TreeMap.mem_toList_iff_getElem?_eq_some.mp hmem⟩
  · rintro ⟨hc,fd,hfd⟩
    exact ⟨(hnames.reaches_iff hfd).mpr hc, (fd, c),
      Std.TreeMap.mem_toList_iff_getElem?_eq_some.mpr hfd, rfl⟩

/-- The calls of one execution. -/
theorem handedRef_eq {fresh : List (ConnId × PacketRef)} {channelId : MediaChannelId}
    (hreach : ∀ x ∈ fresh, reaches lock x.1 = true)
    (hnodup : (fresh.map (fun x => nameOf lock x.1)).Nodup) :
    (fresh.map Prod.fst).filterMap
        (handToRef lock channelId (fresh.map (fun x => (nameOf lock x.1, x.2)))) =
      fresh.map (fun x => ⟨x.1, channelId, x.2⟩) := by
  have hhand (x : ConnId × PacketRef) (hx : x ∈ fresh) :
      handToRef lock channelId (fresh.map (fun x => (nameOf lock x.1, x.2))) x.1 =
        some ⟨x.1, channelId, x.2⟩ := by
    have hlive := hreach x hx
    unfold reaches at hlive
    unfold handToRef
    split at hlive
    case h_1 rtpConn hl =>
      have hid : rtpConn.getId ≠ [] := by simpa using hlive
      have hname : nameOf lock x.1 = rtpConn.getId := by simp [nameOf, hl]
      have hlookup : (fresh.map (fun x => (nameOf lock x.1, x.2))).lookup rtpConn.getId = some x.2 := by
        apply lookup_of_nodup
        · rw [List.map_map]
          exact hnodup
        · rw [← hname]
          exact List.mem_map_of_mem hx
      rw [hl]
      dsimp only
      rw [if_neg hid, hlookup]
      rfl
    case h_2 => cases hlive
  clear hreach hnodup
  generalize handToRef lock channelId (fresh.map (fun x => (nameOf lock x.1, x.2))) = f at hhand
  induction fresh with
  | nil => rfl
  | cons x fresh ih =>
    rw [List.map_cons, List.filterMap_cons, hhand x List.mem_cons_self, List.map_cons,
      ih (fun y hy => hhand y (List.mem_cons_of_mem _ hy))]

end MediaSession

/-- The task of a call, in the state in which the connection then is; `ret` is what the kernel
answers. -/
structure PacketTask where
  conn : RtpConnection
  call : HandedRef
  ret : ℤ

namespace PacketTask

def run (t : PacketTask) : PacketMemory → Except Fault ((RtpConnection × List Call) × PacketMemory) :=
  t.conn.sendRtpPacketInLoopRef t.call.channelId t.call.pkt t.ret

/-- Tasks of different calls have arrays of their own. -/
theorem nodup_data {calls : List HandedRef} {tasks : List PacketTask}
    (hdata : (calls.map (fun x => x.pkt.data)).Nodup) (hmem : ∀ t ∈ tasks, t.call ∈ calls)
    (htasks : (tasks.map PacketTask.call).Nodup) : (tasks.map (fun t => t.call.pkt.data)).Nodup := by
  have haddr : (tasks.map (fun t => t.call.pkt.data)) =
      (tasks.map PacketTask.call).map (fun x => x.pkt.data) := by
    rw [List.map_map]
    rfl
  rw [haddr]
  apply List.Nodup.map_on _ htasks
  intro x hx y hy hxy
  obtain ⟨t,ht,rfl⟩ := List.mem_map.mp hx
  obtain ⟨u,hu,rfl⟩ := List.mem_map.mp hy
  exact List.inj_on_of_nodup_map hdata (hmem t ht) (hmem u hu) hxy

/-- Tasks on different arrays do what each would do first. -/
theorem runAll_eq (h : PacketMemory) {tasks : List PacketTask}
    (hdistinct : (tasks.map (fun t => t.call.pkt.data)).Nodup) :
    (Cells.runAll run tasks h).map Prod.fst = Cells.results (fun t =>
      t.conn.sendRtpPacketInLoop t.call.channelId (t.call.pkt.load h) t.ret) tasks := by
  apply @Cells.runAll_eq _ _ _ _ (fun t : PacketTask => t.call.pkt.data) run
    (fun t d => t.conn.sendRtpPacketInLoop t.call.channelId
      ⟨d, t.call.pkt.size, t.call.pkt.timestamp, t.call.pkt.type, t.call.pkt.last⟩ t.ret)
  · intro t
    exact RtpConnection.sendRtpPacketInLoopRef_actsOn t.conn t.call.channelId t.call.pkt t.ret
  · exact hdistinct

end PacketTask

open MediaSession

/-- One execution of the send callback. It removes the expired entries and no others, calls
`sendRtpPacket` once for each client that lives with its TCP connection, and gives each an array of its
own with the bytes and attributes of the packet; and in whatever order the tasks then run, each does what
it would do if the others did not write their headers. -/
theorem send_callback_fans_out (lock : ConnId → Option RtpConnection) (clients : ClientMap)
    (channelId : MediaChannelId) (pkt : PacketRef) (h : PacketMemory)
    (hnames : UniqueNames lock clients) (hsize : pkt.size.toNat ≤ 1600) (hdata : pkt.data < h.next) :
    ∃ clients' calls h',
      sendFrameCallbackRef lock clients channelId pkt h = .ok (clients', calls, h') ∧
      (∀ fd : ℤ, clients'[fd]? = clients[fd]?.filter (fun c => (lock c).isSome)) ∧
      (calls.map HandedRef.conn).Nodup ∧
      (∀ c, c ∈ calls.map HandedRef.conn ↔ alive lock c = true ∧ ∃ fd : ℤ, clients[fd]? = some c) ∧
      (∀ x ∈ calls, x.channelId = channelId ∧ content (x.pkt.load h') = content (pkt.load h) ∧
        h.next ≤ x.pkt.data) ∧
      (calls.map (fun x => x.pkt.data)).Nodup ∧ (∀ a, a < h.next → h'.mem a = h.mem a) ∧
      ∀ tasks : List PacketTask, (∀ t ∈ tasks, t.call ∈ calls) → (tasks.map PacketTask.call).Nodup →
        (Cells.runAll PacketTask.run tasks h').map Prod.fst = Cells.results (fun t =>
          t.conn.sendRtpPacketInLoop t.call.channelId (t.call.pkt.load h') t.ret) tasks := by
  have hnodup := hnames.nodup
  obtain ⟨clients',fresh,h',values',href,hval,hcopied⟩ := @lockClientsRef_spec lock pkt h
    (fun _ => PacketData.zeros) clients.toList hsize clients [] [] [] hdata hnodup (by simp) rfl
  rw [List.append_nil, List.append_nil] at href
  have hspec := lockClients_spec hval
  have hconns : fresh.map Prod.fst = ((clients.toList.map Prod.snd).filter (reaches lock)).reverse := by
    have heq := hspec.conns_eq
    rwa [List.append_nil, List.append_nil] at heq
  have hnodup' : (fresh.map (fun x => nameOf lock x.1)).Nodup := by
    have heq : fresh.map (fun x => nameOf lock x.1) = (fresh.map Prod.fst).map (nameOf lock) := by
      rw [List.map_map]
      rfl
    rw [heq, hconns, List.map_reverse, List.nodup_reverse]
    exact hnodup
  have hreach (x : ConnId × PacketRef) (hx : x ∈ fresh) : reaches lock x.1 = true := by
    have hmem := @List.mem_map_of_mem _ _ _ _ Prod.fst hx
    rw [hconns, List.mem_reverse, List.mem_filter] at hmem
    exact hmem.2
  have hcalls : sendFrameCallbackRef lock clients channelId pkt h =
      .ok (clients', fresh.map (fun x => ⟨x.1, channelId, x.2⟩), h') := by
    simp only [sendFrameCallbackRef, href, bind, Except.bind, pure, Except.pure]
    rw [handedRef_eq hreach hnodup']
  have hmapConn : (fresh.map (fun x => (⟨x.1, channelId, x.2⟩ : HandedRef))).map HandedRef.conn =
      fresh.map Prod.fst := by
    rw [List.map_map]
    rfl
  have hmapData : (fresh.map (fun x => (⟨x.1, channelId, x.2⟩ : HandedRef))).map
      (fun x => x.pkt.data) = fresh.map (fun x => x.2.data) := by
    rw [List.map_map]
    rfl
  refine ⟨clients', _, h', hcalls, ?_, ?_, ?_, ?_, ?_, hcopied.kept, ?_⟩
  · -- the clients are those of the loop without memory
    exact hspec.clients_eq
  · rw [hmapConn]
    exact List.Nodup.of_map (nameOf lock) (by rwa [List.map_map])
  · intro c
    rw [hmapConn, hconns, List.mem_reverse]
    exact hnames.mem_reached c
  · intro x hx
    obtain ⟨y,hy,rfl⟩ := List.mem_map.mp hx
    exact ⟨rfl, hcopied.same y hy, (hcopied.range y hy).1⟩
  · rw [hmapData]
    exact hcopied.nodup
  · intro tasks hmem htasks
    apply PacketTask.runAll_eq
    have hdistinct : (fresh.map (fun x => (⟨x.1, channelId, x.2⟩ : HandedRef))).map
        (fun x => x.pkt.data) |>.Nodup := by
      rw [hmapData]
      exact hcopied.nodup
    exact PacketTask.nodup_data hdistinct hmem htasks

/-- Two entries, of which one has expired. -/
theorem send_callback_fans_out_two :
    let lock : ConnId → Option RtpConnection := fun c =>
      if c = 1 then some (.new .zeroed ⟨[99], 9, ⟨0, 0⟩⟩ (fun _ _ => 0)) else none
    let clients : ClientMap := ((∅ : ClientMap).insert 4 0).insert 5 1
    ∃ clients' calls h', sendFrameCallbackRef lock clients .channel_0 ⟨0, 16, 90, videoFrameI, 1⟩
        ⟨fun _ => PacketData.zeros, 1⟩ = .ok (clients', calls, h') ∧
      clients'[(4 : ℤ)]? = none ∧ clients'[(5 : ℤ)]? = some 1 ∧ 1 ∈ calls.map HandedRef.conn := by
  intro lock clients
  have hget (fd : ℤ) (c : ConnId) (hc : clients[fd]? = some c) (halive : alive lock c = true) :
      fd = 5 ∧ c = 1 := by
    have hone : c = 1 := by
      by_contra hne
      simp [alive, lock, hne] at halive
    refine ⟨?_, hone⟩
    by_contra hfd
    rw [hone, Std.TreeMap.getElem?_insert, if_neg (fun h => hfd (Std.LawfulEqCmp.eq_of_compare h).symm),
      Std.TreeMap.getElem?_insert] at hc
    split at hc
    · cases hc
    · simp at hc
  have hnames : UniqueNames lock clients := by
    constructor
    · intro fd c hc halive
      rw [(hget fd c hc halive).2]
      simp [nameOf, lock, RtpConnection.getId, RtpConnection.new]
    · intro fd fd' c c' hc hc' halive halive' _
      rw [(hget fd c hc halive).1, (hget fd' c' hc' halive').1]
  have h4 : clients[(4 : ℤ)]? = some 0 := by
    rw [Std.TreeMap.getElem?_insert, if_neg (by decide), Std.TreeMap.getElem?_insert_self]
  have h5 : clients[(5 : ℤ)]? = some 1 := Std.TreeMap.getElem?_insert_self
  obtain ⟨clients',calls,h',hok,hclients,_,hcalls,_⟩ := send_callback_fans_out lock clients .channel_0
    ⟨0, 16, 90, videoFrameI, 1⟩ ⟨fun _ => PacketData.zeros, 1⟩ hnames (by decide) (by decide)
  refine ⟨clients', calls, h', hok, ?_, ?_, ?_⟩
  · rw [hclients, h4]
    rfl
  · rw [hclients, h5]
    rfl
  · exact (hcalls 1).mpr ⟨rfl, 5, h5⟩

end IdealServer
