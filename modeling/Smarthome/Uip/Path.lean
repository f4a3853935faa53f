import Smarthome.Uip.Datagrams

/-! A datagram on its way over nodes that forward it, from one application to another. -/
namespace Smarthome.Uip

open Semantics HeaderWalk

/-- A node on the way, and what is in its `uip_buf` behind the packet that comes. -/
structure Hop where
  node : RplNode
  behind : Nat → Byte

/-- `uip_buf` when a packet has come. -/
def arrived (p : Packet) (behind : Nat → Byte) (i : Nat) : Byte :=
  if i < p.uipLen then p.buf i else behind i

/-- A node gets the packet `p`, and sends it on as `q`. -/
def Forwards (hop : Hop) (p q : Packet) : Prop :=
  ∃ uipLen s rounds, checkHeader p.uipLen (arrived p hop.behind) = some uipLen ∧
    Visits hop.node.ip (arrived p hop.behind) s ∧ s.point = .done .notForMe ∧
    (forwardPacket (packetAt uipLen s)).bind (tcpipIpv6Output rounds hop.node) = some q

/-- The way of a packet: each node forwards it, with the packet that it sends on. -/
def Travels : Packet → List (Hop × Packet) → Prop
  | _, [] => True
  | p, (hop, q) :: path => Forwards hop p q ∧ Travels q path

/-- The packet at the end of its way. -/
def lastPacket : Packet → List (Hop × Packet) → Packet
  | p, [] => p
  | _, (_, q) :: path => lastPacket q path

/-- A datagram for `uip_udp_packet_sendto`. -/
structure Sending where
  conn : UipUdpConn
  srcipaddr : Ipv6Address
  ttl : Byte
  data : List Byte
  toaddr : Ipv6Address
  toport : Nat

/-- A node sends the datagram as the packet `q`, at a time when no packet is worked on. -/
def Sends (node : RplNode) (m : Sending) (q : Packet) : Prop :=
  ∃ before rounds, before.uipExtLen = 0 ∧
    (uipUdpPacketSendto m.conn m.srcipaddr m.ttl m.data m.toaddr m.toport before).bind
      (tcpipIpv6Output rounds node) = some q

/-- A node gets the packet `p`, and an application on it is called with `d`. -/
def Receives (ip : IpState) (conns : List UipUdpConn) (behind : Nat → Byte) (p d : Packet) : Prop :=
  ∃ uipLen s, checkHeader p.uipLen (arrived p behind) = some uipLen ∧
    Visits ip (arrived p behind) s ∧ s.point = .done .udpInput ∧
    udpInput conns (packetAt uipLen s) = some d

/-- The contents are those of the datagram. -/
structure Contents.Of (c : Contents) (m : Sending) : Prop where
  udplen : c.udplen = m.data.length + 8
  payload : ∀ i < m.data.length, c.upper (8 + i) = m.data.getD i 0
  src : ∀ i < 16, c.addresses i = m.srcipaddr.toList.getD i 0
  dest : ∀ i < 16, c.addresses (16 + i) = m.toaddr.toList.getD i 0
  lport : u16 (c.upper 0) (c.upper 1) = m.conn.lport % 65536
  rport : u16 (c.upper 2) (c.upper 3) = m.toport % 65536
  sum : 65535 ∣ c.sum

/-- The addresses of the contents. -/
def Contents.src (c : Contents) : List Byte := (List.range 16).map c.addresses

def Contents.dest (c : Contents) : List Byte := (List.range 16).map fun i => c.addresses (16 + i)

theorem map_range_getD (addr : Ipv6Address) :
    (List.range 16).map (fun i => addr.toList.getD i 0) = addr.toList := by
  refine List.ext_getElem (by simp) fun i hi hi' => ?_
  rw [List.getElem_map, List.getElem_range, List.getD_eq_getElem?_getD,
    List.getElem?_eq_getElem hi', Option.getD_some]

theorem Contents.Of.src_eq {c : Contents} {m : Sending} (h : c.Of m) :
    c.src = m.srcipaddr.toList := by
  rw [← map_range_getD, Contents.src]
  exact List.map_congr_left fun i hi => h.src i (List.mem_range.mp hi)

theorem Contents.Of.dest_eq {c : Contents} {m : Sending} (h : c.Of m) :
    c.dest = m.toaddr.toList := by
  rw [← map_range_getD, Contents.dest]
  exact List.map_congr_left fun i hi => h.dest i (List.mem_range.mp hi)

section Way

variable {c : Contents} {ext : Nat} {ttl : Byte} {p q d : Packet} {hop : Hop} {m : Sending}
  {path : List (Hop × Packet)} {node : RplNode} {ip : IpState} {conns : List UipUdpConn}
  {behind : Nat → Byte}

theorem Carries.srcipaddr_eq (h : Carries c ext ttl p) : srcipaddr p.buf = c.src :=
  List.map_congr_left fun i hi => h.addresses i (by
    rw [List.mem_range] at hi
    omega)

theorem Carries.destipaddr_eq (h : Carries c ext ttl p) : destipaddr p.buf = c.dest := by
  refine List.map_congr_left fun i hi => ?_
  rw [List.mem_range] at hi
  rw [← h.addresses (16 + i) (by omega)]
  congr 1
  omega

/-- A packet is found in `uip_buf` as it was sent. -/
theorem Carries.arrived (h : Carries c ext ttl p) (behind : Nat → Byte) :
    Carries c ext ttl { p with buf := arrived p behind } := by
  have hSame (i : Nat) (hi : i < p.uipLen) : Uip.arrived p behind i = p.buf i := by
    rw [Uip.arrived, if_pos hi]
  have hLong : 7 < p.uipLen := by
    have hUipLen := h.uipLen
    simp only [uipIphLen] at hUipLen
    omega
  exact h.of_eq rfl ((hSame 7 hLong).trans h.ttl) fun i hi _ _ => hSame i hi

/-- The length is that of the packet. -/
theorem Carries.checkHeader_eq (h : Carries c ext ttl p) {uipLen : Nat}
    (hCheck : checkHeader p.uipLen p.buf = some uipLen) : uipLen = p.uipLen := by
  have hUipLen := h.uipLen
  have hSize := h.size
  unfold checkHeader at hCheck
  split_ifs at hCheck
  rw [← Option.some.inj hCheck, h.declared, hUipLen]
  simp only [uipIphLen, uipBufsize] at *
  omega

theorem tcpipIpv6Output_eq {rounds : Nat} (h : tcpipIpv6Output rounds node p = some q) :
    rplUpdateHeader rounds node p = some q := by
  unfold tcpipIpv6Output at h
  split_ifs at h
  exact h

/-- A packet that has been forwarded does not look like one of the node itself. -/
theorem Carries.not_own (h : Carries c ext (ttl - 1) p) (hTtl : 1 < ttl)
    (hOwn : node.isMyUnicast c.src = true → ttl ≤ node.curHopLimit) :
    ¬ (node.isMyUnicast (srcipaddr p.buf) = true ∧ p.buf 7 = node.curHopLimit) := by
  rintro ⟨hSender, hLimit⟩
  rw [h.srcipaddr_eq] at hSender
  have hLess := hOwn hSender
  rw [← hLimit, h.ttl, UInt8.le_iff_toNat_le, UInt8.toNat_sub_of_le _ _ (UInt8.le_of_lt hTtl)]
    at hLess
  rw [UInt8.lt_iff_toNat_lt] at hTtl
  have hOne : (1 : Byte).toNat = 1 := rfl
  omega

/-- What a node does when it forwards a packet: the walk, the hop limit and the option. -/
theorem Carries.forwards_eq (h : Carries c ext ttl p) (hForwards : Forwards hop p q) :
    ∃ s r rounds, (ext = 0 ∧ s.buf = Uip.arrived p hop.behind ∨
        ext = rplHopByHopLen ∧ verified hop.node.ip (Uip.arrived p hop.behind) = some s.buf) ∧
      forwardPacket (packetAt p.uipLen s) = some r ∧ 1 < ttl ∧ Carries c ext (ttl - 1) r ∧
      rplUpdateHeader rounds hop.node r = some q := by
  obtain ⟨uipLen, s, rounds, hCheck, hVisits, hDone, hOutput⟩ := hForwards
  have hArrived := h.arrived hop.behind
  obtain rfl := hArrived.checkHeader_eq hCheck
  obtain ⟨r, hForward, hOutput⟩ := Option.bind_eq_some_iff.mp hOutput
  obtain ⟨-, -, hBuf⟩ := hArrived.walk_end hVisits hDone (Or.inr rfl)
  obtain ⟨hTtl, hNext⟩ := (hArrived.walked hBuf).forward hForward
  exact ⟨s, r, rounds, hBuf, hForward, hTtl, hNext, tcpipIpv6Output_eq hOutput⟩

/-- A node that forwards a packet leaves what it brings, and lowers its hop limit. -/
theorem Carries.forwards (h : Carries c ext ttl p)
    (hOwn : hop.node.isMyUnicast c.src = true → ttl ≤ hop.node.curHopLimit)
    (hForwards : Forwards hop p q) : 1 < ttl ∧ ∃ ext', Carries c ext' (ttl - 1) q := by
  obtain ⟨s, r, rounds, -, -, hTtl, hNext, hUpdate⟩ := h.forwards_eq hForwards
  refine ⟨hTtl, hNext.updateHeader (fun hSender hLimit => ?_) hUpdate⟩
  exact absurd ⟨hSender, hLimit⟩ (hNext.not_own hTtl hOwn)

theorem own_lower (hTtl : 1 < ttl)
    (hOwn : ∀ e ∈ path, e.1.node.isMyUnicast c.src = true → ttl ≤ e.1.node.curHopLimit) :
    ∀ e ∈ path, e.1.node.isMyUnicast c.src = true → ttl - 1 ≤ e.1.node.curHopLimit := by
  intro e hMem hMine
  have hLimit := hOwn e hMem hMine
  have hLower := UInt8.toNat_sub_of_le _ _ (UInt8.le_of_lt hTtl)
  rw [UInt8.le_iff_toNat_le] at hLimit ⊢
  omega

/-- What a packet brings stays the same all the way, which is shorter than its hop limit. -/
theorem Carries.travels (h : Carries c ext ttl p)
    (hOwn : ∀ e ∈ path, e.1.node.isMyUnicast c.src = true → ttl ≤ e.1.node.curHopLimit)
    (hTravels : Travels p path) :
    path.length ≤ ttl.toNat - 1 ∧ ∃ ext' ttl', Carries c ext' ttl' (lastPacket p path) := by
  induction path generalizing p ext ttl with
  | nil => exact ⟨Nat.zero_le _, ext, ttl, h⟩
  | cons e path ih =>
      obtain ⟨hop, q⟩ := e
      obtain ⟨hForwards, hRest⟩ := hTravels
      rw [List.forall_mem_cons] at hOwn
      obtain ⟨hTtl, ext', hNext⟩ := h.forwards hOwn.1 hForwards
      have hOne : (1 : Byte).toNat = 1 := rfl
      have hLower : (ttl - 1).toNat = ttl.toNat - 1 :=
        UInt8.toNat_sub_of_le _ _ (UInt8.le_of_lt hTtl)
      obtain ⟨hLength, hLast⟩ := ih hNext (own_lower hTtl hOwn.2) hRest
      rw [UInt8.lt_iff_toNat_lt] at hTtl
      refine ⟨?_, hLast⟩
      rw [List.length_cons]
      omega

/-- What `uip_udp_packet_sendto` makes brings the datagram. -/
theorem Sending.carries {before : Packet} (hExt : before.uipExtLen = 0)
    (h : uipUdpPacketSendto m.conn m.srcipaddr m.ttl m.data m.toaddr m.toport before = some p) :
    ∃ c, Carries c 0 m.ttl p ∧ c.Of m := by
  unfold uipUdpPacketSendto at h
  split_ifs at h with hFits
  obtain rfl := Option.some.inj h
  refine ⟨_, carries_udpSend hFits.1, ?_⟩
  constructor
  · show m.data.length + 48 - 40 = _
    omega
  · intro i hi
    have hPlace : uipIphLen + (8 + i) = 48 + i := by
      simp only [uipIphLen]
      omega
    show (udpSend _ _ _ _ _).buf (uipIphLen + (8 + i)) = _
    rw [hPlace, udpSend_payload]
    exact putBytes_add hi
  · exact fun i hi => udpSend_src hi
  · intro i hi
    have hPlace : 8 + (16 + i) = 24 + i := by omega
    show (udpSend _ _ _ _ _).buf (8 + (16 + i)) = _
    rw [hPlace, udpSend_dest hi]
  · exact ports_udpSend.1
  · exact ports_udpSend.2
  · exact dvd_sum_udpSend hExt hFits.1

/-- What a node sends brings the datagram. -/
theorem Sends.carries (h : Sends node m q) : ∃ c ext, Carries c ext m.ttl q ∧ c.Of m := by
  obtain ⟨before, rounds, hExt, hSend⟩ := h
  obtain ⟨p, hSendto, hOutput⟩ := Option.bind_eq_some_iff.mp hSend
  obtain ⟨c, hCarries, hOf⟩ := Sending.carries hExt hSendto
  obtain ⟨ext, hUpdated⟩ := hCarries.updateHeader (fun _ _ => rfl) (tcpipIpv6Output_eq hOutput)
  exact ⟨c, ext, hUpdated, hOf⟩

/-- What a node gets at the end of the way. -/
theorem Receives.delivered (h : Carries c ext ttl p) (hReceives : Receives ip conns behind p d) :
    d.uipLen = c.udplen - 8 ∧ (∀ i < c.udplen, d.buf (40 + i) = c.upper i) ∧
      ∀ i < 32, d.buf (8 + i) = c.addresses i := by
  obtain ⟨uipLen, s, hCheck, hVisits, hDone, hInput⟩ := hReceives
  have hArrived := h.arrived behind
  obtain rfl := hArrived.checkHeader_eq hCheck
  obtain ⟨hExtLen, -, hBuf⟩ := hArrived.walk_end hVisits hDone (Or.inl rfl)
  exact (hArrived.walked hBuf).delivered hExtLen hInput

end Way

/-- Addresses with which a packet is sent on by the nodes on its way. -/
structure Unicast (src dest : List Byte) : Prop where
  src_mcast : ¬ IsAddrMcast (src.getD 0 0)
  dest_mcast : ¬ IsAddrMcast (dest.getD 0 0)
  src_linklocal : ¬ IsAddrLinklocal src
  dest_linklocal : ¬ IsAddrLinklocal dest
  src_unspecified : ¬ IsAddrUnspecified src
  dest_unspecified : ¬ IsAddrUnspecified dest
  dest_loopback : ¬ IsAddrLoopback dest

/-- The connection is one for this datagram. -/
def UipUdpConn.Expects (conn : UipUdpConn) (m : Sending) : Prop :=
  conn.lport ≠ 0 ∧ m.toport % 65536 = conn.lport ∧
    (conn.rport = 0 ∨ m.conn.lport % 65536 = conn.rport) ∧
    (conn.ripaddr.toList = List.replicate 16 0 ∨ m.srcipaddr.toList = conn.ripaddr.toList)

theorem Contents.Of.for_iff {c : Contents} {m : Sending} (h : c.Of m) {conn : UipUdpConn} :
    c.For conn ↔ conn.Expects m := by
  have hSrc : (List.range 16).map c.addresses = m.srcipaddr.toList := h.src_eq
  rw [Contents.For, UipUdpConn.Expects, h.lport, h.rport, hSrc]

section Progress

variable {c : Contents} {ext : Nat} {ttl : Byte} {p q d : Packet} {hop : Hop} {m : Sending}
  {path : List (Hop × Packet)} {node : RplNode} {ip : IpState} {conns : List UipUdpConn}
  {behind : Nat → Byte}

theorem Carries.checkHeader (h : Carries c ext ttl p) (hSrc : ¬ IsAddrMcast (c.src.getD 0 0)) :
    checkHeader p.uipLen p.buf = some p.uipLen := by
  have hUipLen := h.uipLen
  have hSize := h.size
  have hDeclared := h.declared
  have hFirst : ¬ IsAddrMcast (p.buf 8) := by
    have hPlace : p.buf 8 = c.src.getD 0 0 := h.addresses 0 (by decide)
    rw [hPlace]
    exact hSrc
  simp only [uipIphLen, uipBufsize] at hUipLen hSize
  have hLen : (declaredLen p.buf + uipIphLen) % 65536 = p.uipLen := by
    simp only [uipIphLen]
    omega
  rw [Uip.checkHeader, if_neg (not_not.mpr h.version), if_pos (by omega), if_neg hFirst, hLen]

theorem Carries.output (h : Carries c ext ttl p) (hDest : ¬ IsAddrUnspecified c.dest)
    (rounds : Nat) : tcpipIpv6Output rounds node p = rplUpdateHeader rounds node p := by
  have hUipLen := h.uipLen
  have hSize := h.size
  simp only [uipIphLen, uipBufsize] at hUipLen hSize
  rw [tcpipIpv6Output, if_neg (by simp only [uipLinkMtu]; omega), h.destipaddr_eq, if_neg hDest]

/-- A node without RPL sends packets as they are. -/
theorem rplUpdateHeader_none (hNone : node.defaultInstance = none) (rounds : Nat) :
    rplUpdateHeader rounds node p = some p := by
  rw [rplUpdateHeader, hNone]

theorem Carries.forwardPacket (h : Carries c ext ttl p) (hAddresses : Unicast c.src c.dest)
    (hTtl : 1 < ttl) : ∃ q, forwardPacket p = some q := by
  have hSize := h.size
  simp only [uipBufsize] at hSize
  have hFirst : p.buf 24 = c.dest.getD 0 0 := h.addresses 16 (by decide)
  have hSent : ¬ (IsAddrMcast (p.buf 24) ∨ IsAddrLinklocal (destipaddr p.buf) ∨
      IsAddrLinklocal (srcipaddr p.buf) ∨ IsAddrUnspecified (srcipaddr p.buf) ∨
      IsAddrLoopback (destipaddr p.buf)) := by
    rw [hFirst, h.destipaddr_eq, h.srcipaddr_eq]
    rintro (hWrong | hWrong | hWrong | hWrong | hWrong)
    · exact hAddresses.dest_mcast hWrong
    · exact hAddresses.dest_linklocal hWrong
    · exact hAddresses.src_linklocal hWrong
    · exact hAddresses.src_unspecified hWrong
    · exact hAddresses.dest_loopback hWrong
  rw [Uip.forwardPacket, if_neg hSent, if_neg (by simp only [uipLinkMtu]; omega), h.ttl,
    if_neg (UInt8.not_le.mpr hTtl)]
  exact ⟨_, rfl⟩

/-- The node to which a packet is not addressed forwards it, when it gets through the walk. -/
theorem Carries.forwards_of_walk (h : Carries c ext ttl p) (hAddresses : Unicast c.src c.dest)
    (hMine : hop.node.ip.isMyAddr c.dest = false) {s : HeaderWalk} {r : Packet} {rounds : Nat}
    (hVisits : Visits hop.node.ip (Uip.arrived p hop.behind) s)
    (hDone : s.point = .done (addressed hop.node.ip (Uip.arrived p hop.behind)))
    (hForward : Uip.forwardPacket (packetAt p.uipLen s) = some r)
    (hNext : Carries c ext (ttl - 1) r)
    (hUpdate : rplUpdateHeader rounds hop.node r = some q) : Forwards hop p q := by
  have hArrived := h.arrived hop.behind
  have hDest : destipaddr (Uip.arrived p hop.behind) = c.dest := hArrived.destipaddr_eq
  refine ⟨_, s, rounds, hArrived.checkHeader hAddresses.src_mcast, hVisits, ?_, ?_⟩
  · rw [hDone, addressed, hDest, if_neg (by rw [hMine]; exact Bool.false_ne_true)]
  · rw [hForward]
    exact (hNext.output hAddresses.dest_unspecified rounds).trans hUpdate

/-- A packet without an option is forwarded by a node without RPL. -/
theorem Carries.exists_forwards (h : Carries c 0 ttl p) (hAddresses : Unicast c.src c.dest)
    (hTtl : 1 < ttl) (hMine : hop.node.ip.isMyAddr c.dest = false)
    (hNone : hop.node.defaultInstance = none) :
    ∃ q, Forwards hop p q ∧ Carries c 0 (ttl - 1) q := by
  have hArrived := h.arrived hop.behind
  obtain ⟨s, hVisits, hBuf, -, hDone⟩ := @visits_of_udp hop.node.ip _ hArrived.proto
  have hWalked := @Carries.walked c 0 ttl _ hop.node.ip hArrived s (Or.inl ⟨rfl, hBuf⟩)
  obtain ⟨q, hForward⟩ := hWalked.forwardPacket hAddresses hTtl
  obtain ⟨-, hNext⟩ := hWalked.forward hForward
  exact ⟨q, h.forwards_of_walk hAddresses hMine hVisits hDone hForward hNext
    (rplUpdateHeader_none hNone 0), hNext⟩

/-- It goes all the way, when its hop limit lets it. -/
theorem Carries.exists_travels (h : Carries c 0 ttl p) (hAddresses : Unicast c.src c.dest)
    (hops : List Hop)
    (hHops : ∀ hop ∈ hops, hop.node.ip.isMyAddr c.dest = false ∧ hop.node.defaultInstance = none)
    (hTtl : hops.length < ttl.toNat) : ∃ path, path.map Prod.fst = hops ∧ Travels p path ∧
      ∃ ttl', Carries c 0 ttl' (lastPacket p path) := by
  induction hops generalizing p ttl with
  | nil => exact ⟨[], rfl, trivial, ttl, h⟩
  | cons hop hops ih =>
      rw [List.forall_mem_cons] at hHops
      rw [List.length_cons] at hTtl
      have hOne : (1 : Byte).toNat = 1 := rfl
      have hMore : 1 < ttl := by
        rw [UInt8.lt_iff_toNat_lt]
        omega
      have hLower : (ttl - 1).toNat = ttl.toNat - 1 :=
        UInt8.toNat_sub_of_le _ _ (UInt8.le_of_lt hMore)
      obtain ⟨q, hForwards, hNext⟩ := h.exists_forwards hAddresses hMore hHops.1.1 hHops.1.2
      obtain ⟨path, hMap, hTravels, hLast⟩ := ih hNext hHops.2 (by omega)
      exact ⟨(hop, q) :: path, by rw [List.map_cons, hMap], ⟨hForwards, hTravels⟩, hLast⟩

/-- The node of the destination calls the application that waits for such datagrams. -/
theorem Carries.exists_receives (h : Carries c 0 ttl p) (hSrc : ¬ IsAddrMcast (c.src.getD 0 0))
    (hMine : ip.isMyAddr c.dest = true) (hSum : 65535 ∣ c.sum)
    (hConn : ∃ conn ∈ conns, c.For conn) : ∃ d, Receives ip conns behind p d := by
  have hArrived := h.arrived behind
  obtain ⟨s, hVisits, hBuf, hExtLen, hDone⟩ := @visits_of_udp ip _ hArrived.proto
  have hWalked := @Carries.walked c 0 ttl _ ip hArrived s (Or.inl ⟨rfl, hBuf⟩)
  obtain ⟨d, hInput⟩ := (hWalked.accepted hExtLen hSum).mpr hConn
  refine ⟨d, _, s, hArrived.checkHeader hSrc, hVisits, ?_, hInput⟩
  rw [hDone, addressed, hArrived.destipaddr_eq, if_pos hMine]

/-- What a node without RPL sends. -/
theorem exists_sends (hNone : node.defaultInstance = none)
    (hData : m.data.length ≤ uipBufsize - uipIpudphLen ∧ m.data ≠ [])
    (hDest : ¬ IsAddrUnspecified m.toaddr.toList) :
    ∃ p c, Sends node m p ∧ Carries c 0 m.ttl p ∧ c.Of m := by
  let before : Packet := ⟨0, 0, fun _ => 0, id⟩
  have hSendto : uipUdpPacketSendto m.conn m.srcipaddr m.ttl m.data m.toaddr m.toport before =
      some (udpSend { m.conn with ripaddr := m.toaddr, rport := m.toport } m.srcipaddr m.ttl
        m.data.length { before with buf := putBytes uipIpudphLen m.data before.buf }) := by
    rw [uipUdpPacketSendto, if_pos hData]
  obtain ⟨c, hCarries, hOf⟩ := Sending.carries rfl hSendto
  rw [← hOf.dest_eq] at hDest
  refine ⟨_, c, ⟨before, 0, rfl, ?_⟩, hCarries, hOf⟩
  rw [hSendto]
  exact (hCarries.output hDest 0).trans (rplUpdateHeader_none hNone 0)

end Progress

/-- **A datagram arrives** when its hop limit is larger than the number of nodes without RPL on its
way, and an application waits for it. -/
theorem exists_arrives {sender : RplNode} {m : Sending} {hops : List Hop} {ip : IpState}
    {conns : List UipUdpConn} {behind : Nat → Byte} (hSender : sender.defaultInstance = none)
    (hData : m.data.length ≤ uipBufsize - uipIpudphLen ∧ m.data ≠ [])
    (hAddresses : Unicast m.srcipaddr.toList m.toaddr.toList)
    (hHops : ∀ hop ∈ hops, hop.node.ip.isMyAddr m.toaddr.toList = false ∧
      hop.node.defaultInstance = none)
    (hTtl : hops.length < m.ttl.toNat) (hMine : ip.isMyAddr m.toaddr.toList = true)
    (hConn : ∃ conn ∈ conns, conn.Expects m) :
    ∃ p path d, path.map Prod.fst = hops ∧ Sends sender m p ∧ Travels p path ∧
      Receives ip conns behind (lastPacket p path) d := by
  obtain ⟨p, c, hSends, hCarries, hOf⟩ := exists_sends hSender hData hAddresses.dest_unspecified
  rw [← hOf.src_eq, ← hOf.dest_eq] at hAddresses
  rw [← hOf.dest_eq] at hHops hMine
  obtain ⟨path, hMap, hTravels, ttl', hLast⟩ := hCarries.exists_travels hAddresses hops hHops hTtl
  obtain ⟨conn, hMem, hExpects⟩ := hConn
  obtain ⟨d, hReceives⟩ : ∃ d, Receives ip conns behind (lastPacket p path) d :=
    hLast.exists_receives hAddresses.src_mcast hMine hOf.sum
      ⟨conn, hMem, hOf.for_iff.mpr hExpects⟩
  exact ⟨p, path, d, hMap, hSends, hTravels, hReceives⟩

section Relayed

/-- An address of the network `fd00::/64`. -/
def uniqueLocal (last : Byte) : Ipv6Address :=
  ((Vector.replicate 16 0).setIfInBounds 0 0xFD).setIfInBounds 15 last

def plainIp (addr : Ipv6Address) : IpState where
  rplGetInstance := fun _ => none
  isMyAddr := fun other => other = addr.toList

theorem plainIp_rank_lt {addr : Ipv6Address} (number : Byte) (i : RplInstance)
    (h : (plainIp addr).rplGetInstance number = some i) : i.rank < 65536 := by cases h

/-- A node without RPL. -/
def plainNode (addr : Ipv6Address) : RplNode where
  ip := plainIp addr
  rank_lt := plainIp_rank_lt
  defaultInstance := none
  isMyUnicast := fun other => other = addr.toList
  routed := fun _ => false
  curHopLimit := 64

def relayedSending : Sending where
  conn := ⟨4003, 0, uniqueLocal 0⟩
  srcipaddr := uniqueLocal 1
  ttl := 64
  data := [0x42]
  toaddr := uniqueLocal 3
  toport := 4003

end Relayed

end Smarthome.Uip
