import Smarthome.Uip.Checksum

/-! From a UDP application to the link: `uip_udp_packet_sendto`, `udp_send` of `uip_process`, what
`uip_process` does with a packet that is not for the node, and the RPL option that
`tcpip_ipv6_output` puts into what leaves the node. RPL is in storing mode. -/
namespace Smarthome.Uip

open Semantics

/-- `UIP_LINK_MTU`. -/
abbrev uipLinkMtu : Nat := 1280

/-- `RPL_HOP_BY_HOP_LEN`. -/
abbrev rplHopByHopLen : Nat := 8

/-- The addresses of the IPv6 header. -/
def srcipaddr (buf : Nat → Byte) : List Byte := (List.range 16).map fun i => buf (8 + i)

def destipaddr (buf : Nat → Byte) : List Byte := (List.range 16).map fun i => buf (24 + i)

/-- `uip_is_addr_linklocal`. -/
def IsAddrLinklocal (addr : List Byte) : Prop := addr.take 2 = [0xFE, 0x80]

/-- `uip_is_addr_unspecified`. -/
def IsAddrUnspecified (addr : List Byte) : Prop := addr = List.replicate 16 0

/-- `uip_is_addr_loopback`. -/
def IsAddrLoopback (addr : List Byte) : Prop := addr = List.replicate 15 0 ++ [1]

instance (addr : List Byte) : Decidable (IsAddrLinklocal addr) :=
  inferInstanceAs (Decidable (_ = _))

instance (addr : List Byte) : Decidable (IsAddrUnspecified addr) :=
  inferInstanceAs (Decidable (_ = _))

instance (addr : List Byte) : Decidable (IsAddrLoopback addr) :=
  inferInstanceAs (Decidable (_ = _))

/-- `default_instance`, with the rank of its `current_dag` and `ROOT_RANK`. -/
structure DefaultInstance where
  instanceId : Byte
  rank : Nat
  rootRank : Nat

/-- What a node knows when it sends or forwards a packet. -/
structure RplNode where
  ip : IpState
  /-- Ranks have 16 bits. -/
  rank_lt : ∀ number i, ip.rplGetInstance number = some i → i.rank < 65536
  defaultInstance : Option DefaultInstance
  /-- `uip_ds6_is_my_addr`. -/
  isMyUnicast : List Byte → Bool
  /-- Whether `uip_ds6_route_lookup` finds a route. -/
  routed : List Byte → Bool
  /-- `uip_ds6_if.cur_hop_limit`. -/
  curHopLimit : Byte

/-- A 16-bit number goes into two places, its high byte first. -/
def putU16 (place value : Nat) (buf : Nat → Byte) : Nat → Byte :=
  Function.update (Function.update buf place (UInt8.ofNat (value / 256)))
    (place + 1) (UInt8.ofNat value)

/-- Bytes go into the places from this one on. -/
def putBytes (place : Nat) (bytes : List Byte) (buf : Nat → Byte) : Nat → Byte := fun i =>
  if place ≤ i ∧ i < place + bytes.length then bytes.getD (i - place) 0 else buf i

/-- A port is in memory as it is in a packet. -/
def portBytes (port : Nat) : List Byte := [UInt8.ofNat port, UInt8.ofNat (port / 256)]

/-- `udp_send`, in front of the checksum. -/
def udpFields (conn : UipUdpConn) (srcipaddr : Ipv6Address) (ttl : Byte) (uipSlen : Nat)
    (buf : Nat → Byte) : Nat → Byte :=
  putBytes 8 srcipaddr.toList <| putBytes 24 conn.ripaddr.toList <|
    putBytes 42 (portBytes conn.rport) <| putBytes 40 (portBytes conn.lport) <|
    putU16 46 0 <| putU16 44 (uipSlen + 8) <|
    putBytes 6 [uipProtoUdp, ttl] <| putU16 4 (uipSlen + uipIpudphLen - uipIphLen) buf

/-- What `udp_send` makes of the sum: its complement, but never zero. -/
def udpchksumOf (sum : Nat) : Nat :=
  if sum = 0 ∨ sum = 0xFFFF then 0xFFFF else 0xFFFF - sum

/-- `udp_send` and `ip_send_nolen`. The source address is what `uip_ds6_select_src` has found. -/
def udpSend (conn : UipUdpConn) (srcipaddr : Ipv6Address) (ttl : Byte) (uipSlen : Nat) (p : Packet) :
    Packet :=
  let p := { p with
    uipLen := uipSlen + uipIpudphLen
    buf := udpFields conn srcipaddr ttl uipSlen p.buf }
  { p with
    buf := putBytes 0 [0x60, 0, 0, 0] <|
      putU16 46 (udpchksumOf (upperLayerChksum p uipProtoUdp)) p.buf }

/-- `uip_udp_packet_sendto` and `uip_udp_packet_send`, up to `tcpip_ipv6_output`. Too many bytes
are not sent, and neither are none. -/
def uipUdpPacketSendto (conn : UipUdpConn) (srcipaddr : Ipv6Address) (ttl : Byte)
    (data : List Byte) (toaddr : Ipv6Address) (toport : Nat) (p : Packet) : Option Packet :=
  if data.length ≤ uipBufsize - uipIpudphLen ∧ data ≠ [] then
    some (udpSend { conn with ripaddr := toaddr, rport := toport } srcipaddr ttl data.length
      { p with buf := putBytes uipIpudphLen data p.buf })
  else none

/-- The branch of `uip_process` for a packet that is not for the node. A packet that leads to an
error message is not sent on. -/
def forwardPacket (p : Packet) : Option Packet :=
  if IsAddrMcast (p.buf 24) ∨ IsAddrLinklocal (destipaddr p.buf) ∨
      IsAddrLinklocal (srcipaddr p.buf) ∨ IsAddrUnspecified (srcipaddr p.buf) ∨
      IsAddrLoopback (destipaddr p.buf) then none
  else if uipLinkMtu < p.uipLen then none
  else if p.buf 7 ≤ 1 then none
  else some { p with buf := Function.update p.buf 7 (p.buf 7 - 1) }

/-- The flags that `update_hbh_header` gives a packet. One that goes down must not go up again. -/
def updateFlags (routed : Bool) (flags : Byte) : Option Byte :=
  if flags &&& rplHdrOptDown ≠ 0 then if routed then some flags else none
  else some (if routed then flags ||| rplHdrOptDown else flags &&& ~~~rplHdrOptDown)

/-- `update_hbh_header`. -/
def updateHbhHeader (node : RplNode) (p : Packet) : Option Packet :=
  if p.buf 6 = uipProtoHbho ∧ p.buf 42 = uipExtHdrOptRpl then
    if p.buf 41 ≠ 0 ∨ p.buf 43 ≠ rplHdrOptLen then none
    else (node.ip.rplGetInstance (p.buf 45)).bind fun i =>
      if i.joined then
        (updateFlags (node.routed (destipaddr p.buf)) (p.buf 44)).map fun flags =>
          { p with buf := Function.update (putU16 46 i.rank p.buf) 44 flags }
      else none
  else some p

/-- The new length of a packet that has got longer; a carry goes into its high byte. -/
def addLen (n : Byte) (buf : Nat → Byte) : Nat → Byte :=
  Function.update (Function.update buf 5 (buf 5 + n)) 4
    (if buf 5 + n < buf 5 then buf 4 + 1 else buf 4)

/-- The new length of a packet that has got shorter. -/
def subLen (n : Byte) (buf : Nat → Byte) : Nat → Byte :=
  Function.update (Function.update buf 5 (buf 5 - n)) 4
    (if buf 5 < buf 5 - n then buf 4 - 1 else buf 4)

/-- The header that `insert_hbh_header` puts in front of what was behind the IPv6 header. -/
def hbhHeader (next instanceId : Byte) (rank : Nat) : List Byte :=
  [next, 0, uipExtHdrOptRpl, rplHdrOptLen, 0, instanceId, UInt8.ofNat (rank / 256), UInt8.ofNat rank]

/-- What `insert_hbh_header` makes before it calls `update_hbh_header`. -/
def withOption (i : DefaultInstance) (p : Packet) : Packet :=
  { p with
    uipLen := p.uipLen + rplHopByHopLen
    uipExtLen := (p.uipExtLen + rplHopByHopLen) % 256
    buf := addLen 8 <| putBytes 40 (hbhHeader (p.buf 6) i.instanceId i.rank) <|
      Function.update (fun j => if 48 ≤ j ∧ j < p.uipLen + 8 then p.buf (j - 8) else p.buf j)
        6 uipProtoHbho }

/-- `insert_hbh_header`. -/
def insertHbhHeader (node : RplNode) (i : DefaultInstance) (p : Packet) : Option Packet :=
  if uipBufsize < p.uipLen + rplHopByHopLen then none
  else updateHbhHeader node (withOption i p)

/-- The length that `rpl_remove_header` computes for the first header, an 8-bit number. -/
def rplExtHdrLen (buf : Nat → Byte) : Nat := ((buf 41).toNat * 8 + 8) % 256

/-- The first header is cut out. -/
def removeFirst (p : Packet) : Packet :=
  { p with
    uipLen := (p.uipLen + 65536 - rplExtHdrLen p.buf) % 65536
    buf := fun j =>
      if 40 ≤ j ∧ j < (p.uipLen + 65536 - rplExtHdrLen p.buf) % 65536 then
        p.buf (j + rplExtHdrLen p.buf)
      else subLen (UInt8.ofNat (rplExtHdrLen p.buf)) (Function.update p.buf 6 (p.buf 40)) j }

/-- `rpl_remove_header`, if its loop ends within so many rounds and moves no negative number of
bytes. -/
def rplRemoveHeader : Nat → Packet → Option Packet
  | 0, _ => none
  | rounds + 1, p =>
      if p.buf 6 = uipProtoHbho ∨ p.buf 6 = uipProtoRouting then
        if (removeFirst p).uipLen < uipIphLen then none
        else rplRemoveHeader rounds (removeFirst p)
      else if p.buf 6 = uipProtoDesto then some { p with uipExtLen := rplExtHdrLen p.buf }
      else some { p with uipExtLen := 0 }

/-- `rpl_update_header`. At the root the option begins anew. -/
def rplUpdateHeader (rounds : Nat) (node : RplNode) (p : Packet) : Option Packet :=
  match node.defaultInstance with
  | none => some p
  | some i =>
      if IsAddrLinklocal (destipaddr p.buf) ∨ IsAddrMcast (p.buf 24) then some p
      else if i.rank = i.rootRank then (rplRemoveHeader rounds p).bind (insertHbhHeader node i)
      else if node.isMyUnicast (srcipaddr p.buf) ∧ p.buf 7 = node.curHopLimit then
        insertHbhHeader node i p
      else updateHbhHeader node p

/-- `tcpip_ipv6_output`, up to the choice of the next hop. -/
def tcpipIpv6Output (rounds : Nat) (node : RplNode) (p : Packet) : Option Packet :=
  if p.uipLen = 0 ∨ uipLinkMtu < p.uipLen then none
  else if IsAddrUnspecified (destipaddr p.buf) then none
  else rplUpdateHeader rounds node p

end Smarthome.Uip
