import Smarthome.Protocol
import Smarthome.Semantics.Memory

/-! `sicslowpan.c`: the compression of IPv6 and UDP headers and its inverse. Both work on
buffers of bytes in the layout of `struct uip_ip_hdr` and `struct uip_udp_hdr`: the fields
`vtc`, `tcflow`, `flow`, `len`, `proto`, `ttl`, `srcipaddr` and `destipaddr` begin at 0, 1,
2, 4, 6, 7, 8 and 24, `srcport`, `destport`, `udplen` and `udpchksum` at 40, 42, 44 and 46. -/
namespace Smarthome.Lowpan

open Semantics

abbrev uipIphLen : Nat := 40
abbrev uipUdphLen : Nat := 8
abbrev uipProtoUdp : Byte := 17

abbrev version6 : Byte := 0x60

abbrev dispatchIphc : Byte := 0x60
abbrev iphcFlC : Byte := 0x10
abbrev iphcTcC : Byte := 0x08
abbrev iphcNhC : Byte := 0x04
abbrev iphcCid : Byte := 0x80
abbrev iphcSac : Byte := 0x40
abbrev iphcSam11 : Byte := 0x30
abbrev iphcSamBit : Byte := 4
abbrev iphcM : Byte := 0x08
abbrev iphcDac : Byte := 0x04
abbrev iphcDam11 : Byte := 0x03
abbrev iphcDamBit : Byte := 0
abbrev nhcUdpMask : Byte := 0xF8
abbrev nhcUdpId : Byte := 0xF0
abbrev nhcUdpChecksumc : Byte := 0x04

/-- An IPv6 address, 16 bytes. -/
abbrev IpAddr := Nat → Byte

/-- A link-layer address, 8 bytes. -/
abbrev LinkAddr := Nat → Byte

/-- `struct sicslowpan_addr_context`. -/
structure AddrContext where
  used : Byte
  number : Byte
  addrPrefix : Nat → Byte

/-- `uip_ipaddr_prefixcmp` for 64 bits. -/
def PrefixCmp (a b : Nat → Byte) : Prop := ∀ i < 8, a i = b i

instance (a b : Nat → Byte) : Decidable (PrefixCmp a b) :=
  inferInstanceAs (Decidable (∀ i < 8, a i = b i))

/-- `addr_context_lookup_by_prefix`. -/
def addrContextLookupByPrefix (contexts : List AddrContext) (ipaddr : IpAddr) :
    Option AddrContext :=
  contexts.find? fun c => c.used = 1 ∧ PrefixCmp c.addrPrefix ipaddr

/-- `addr_context_lookup_by_number`. -/
def addrContextLookupByNumber (contexts : List AddrContext) (number : Byte) :
    Option AddrContext :=
  contexts.find? fun c => c.used = 1 ∧ c.number = number

/-- The address in a header buffer. -/
def srcipaddr (buf : Nat → Byte) : IpAddr := fun i => buf (8 + i)

def destipaddr (buf : Nat → Byte) : IpAddr := fun i => buf (24 + i)

section Macros

variable (a : IpAddr)

/-- `a->u16[k] == 0`. -/
def U16Zero (k : Nat) : Prop := a (2 * k) = 0 ∧ a (2 * k + 1) = 0

instance (k : Nat) : Decidable (U16Zero a k) := inferInstanceAs (Decidable (_ ∧ _))

def IsAddrUnspecified : Prop := ∀ k < 8, U16Zero a k

def IsAddrLinklocal : Prop := a 0 = 0xfe ∧ a 1 = 0x80

def IsAddrMcast : Prop := a 0 = 0xff

def IsAddrMacAddrBased (m : LinkAddr) : Prop :=
  a 8 = m 0 ^^^ 0x02 ∧ a 9 = m 1 ∧ a 10 = m 2 ∧ a 11 = m 3 ∧ a 12 = m 4 ∧ a 13 = m 5 ∧
    a 14 = m 6 ∧ a 15 = m 7

def IsIid16BitCompressable : Prop :=
  U16Zero a 4 ∧ a 10 = 0 ∧ a 11 = 0xff ∧ a 12 = 0xfe ∧ a 13 = 0

def IsMcastAddrCompressable8 : Prop :=
  a 1 = 2 ∧ U16Zero a 1 ∧ U16Zero a 2 ∧ U16Zero a 3 ∧ U16Zero a 4 ∧ U16Zero a 5 ∧ U16Zero a 6 ∧
    a 14 = 0

def IsMcastAddrCompressable32 : Prop :=
  U16Zero a 1 ∧ U16Zero a 2 ∧ U16Zero a 3 ∧ U16Zero a 4 ∧ U16Zero a 5 ∧ a 12 = 0

def IsMcastAddrCompressable48 : Prop :=
  U16Zero a 1 ∧ U16Zero a 2 ∧ U16Zero a 3 ∧ U16Zero a 4 ∧ a 10 = 0

instance : Decidable (IsAddrUnspecified a) := inferInstanceAs (Decidable (∀ k < 8, _))
instance : Decidable (IsAddrLinklocal a) := inferInstanceAs (Decidable (_ ∧ _))
instance : Decidable (IsAddrMcast a) := inferInstanceAs (Decidable (_ = _))
instance (m : LinkAddr) : Decidable (IsAddrMacAddrBased a m) := inferInstanceAs (Decidable (_ ∧ _))
instance : Decidable (IsIid16BitCompressable a) := inferInstanceAs (Decidable (_ ∧ _))
instance : Decidable (IsMcastAddrCompressable8 a) := inferInstanceAs (Decidable (_ ∧ _))
instance : Decidable (IsMcastAddrCompressable32 a) := inferInstanceAs (Decidable (_ ∧ _))
instance : Decidable (IsMcastAddrCompressable48 a) := inferInstanceAs (Decidable (_ ∧ _))

end Macros

/-- A part of a compressed header: bits of an encoding byte, the bits of the byte of the
contexts, and the bytes written inline at `hc06_ptr`. -/
structure Encoded where
  bits : Byte
  sciDci : Byte := 0
  inline : List Byte

/-- `compress_addr_64`. -/
def compressAddr64 (bitpos : Byte) (ipaddr : IpAddr) (lladdr : LinkAddr) : Encoded :=
  if IsAddrMacAddrBased ipaddr lladdr then { bits := 3 <<< bitpos, inline := [] }
  else if IsIid16BitCompressable ipaddr then { bits := 2 <<< bitpos, inline := slice ipaddr 14 2 }
  else { bits := 1 <<< bitpos, inline := slice ipaddr 8 8 }

/-- The traffic class in the format of IPHC, with ECN before DSCP. -/
def ecnDscp (vtc tcflow : Byte) : Byte :=
  let tmp := (vtc <<< 4) ||| (tcflow >>> 4)
  ((tmp &&& 0x03) <<< 6) ||| (tmp >>> 2)

/-- Traffic class and flow label. -/
def compressTf (buf : Nat → Byte) : Encoded :=
  let tmp := ecnDscp (buf 0) (buf 1)
  if buf 1 &&& 0x0F = 0 ∧ buf 2 = 0 ∧ buf 3 = 0 then
    if buf 0 &&& 0x0F = 0 ∧ buf 1 &&& 0xF0 = 0 then { bits := iphcFlC ||| iphcTcC, inline := [] }
    else { bits := iphcFlC, inline := [tmp] }
  else if buf 0 &&& 0x0F = 0 ∧ buf 1 &&& 0xF0 = 0 then
    { bits := iphcTcC, inline := [(tmp &&& 0xc0) ||| (buf 1 &&& 0x0F), buf 2, buf 3] }
  else { bits := 0, inline := [tmp, buf 1, buf 2, buf 3] }

def compressProto (buf : Nat → Byte) : Encoded :=
  if buf 6 = uipProtoUdp then { bits := iphcNhC, inline := [] }
  else { bits := 0, inline := [buf 6] }

def compressTtl (buf : Nat → Byte) : Encoded :=
  if buf 7 = 1 then { bits := 1, inline := [] }
  else if buf 7 = 64 then { bits := 2, inline := [] }
  else if buf 7 = 255 then { bits := 3, inline := [] }
  else { bits := 0, inline := [buf 7] }

/-- The source address. The test for zeros in a link-local address looks at the destination. -/
def compressSrc (contexts : List AddrContext) (uipLladdr : LinkAddr) (buf : Nat → Byte) : Encoded :=
  if IsAddrUnspecified (srcipaddr buf) then { bits := iphcSac, inline := [] }
  else match addrContextLookupByPrefix contexts (srcipaddr buf) with
    | some context =>
        let iid := compressAddr64 iphcSamBit (srcipaddr buf) uipLladdr
        { iid with bits := iphcCid ||| iphcSac ||| iid.bits, sciDci := context.number <<< 4 }
    | none =>
        if IsAddrLinklocal (srcipaddr buf) ∧ U16Zero (destipaddr buf) 1 ∧
            U16Zero (destipaddr buf) 2 ∧ U16Zero (destipaddr buf) 3 then
          compressAddr64 iphcSamBit (srcipaddr buf) uipLladdr
        else { bits := 0, inline := slice (srcipaddr buf) 0 16 }

def compressMcast (dest : IpAddr) : Encoded :=
  if IsMcastAddrCompressable8 dest then { bits := iphcM ||| 3, inline := [dest 15] }
  else if IsMcastAddrCompressable32 dest then
    { bits := iphcM ||| 2, inline := dest 1 :: slice dest 13 3 }
  else if IsMcastAddrCompressable48 dest then
    { bits := iphcM ||| 1, inline := dest 1 :: slice dest 11 5 }
  else { bits := iphcM, inline := slice dest 0 16 }

/-- The destination address. -/
def compressDest (contexts : List AddrContext) (linkDestaddr : LinkAddr) (buf : Nat → Byte) :
    Encoded :=
  let dest := destipaddr buf
  if IsAddrMcast dest then compressMcast dest
  else match addrContextLookupByPrefix contexts dest with
    | some context =>
        let iid := compressAddr64 iphcDamBit dest linkDestaddr
        { iid with bits := iphcDac ||| iid.bits, sciDci := context.number }
    | none =>
        if IsAddrLinklocal dest ∧ U16Zero dest 1 ∧ U16Zero dest 2 ∧ U16Zero dest 3 then
          compressAddr64 iphcDamBit dest linkDestaddr
        else { bits := 0, inline := slice dest 0 16 }

/-- The ports; their masks are those of their two bytes. -/
def compressPorts (buf : Nat → Byte) : List Byte :=
  if (buf 40 = 0xF0 ∧ buf 41 &&& 0xF0 = 0xB0) ∧ buf 42 = 0xF0 ∧ buf 43 &&& 0xF0 = 0xB0 then
    [0xF3, ((buf 41 - 0xB0) <<< 4) + (buf 43 - 0xB0)]
  else if buf 42 = 0xF0 then [0xF1, buf 40, buf 41, buf 43]
  else if buf 40 = 0xF0 then [0xF2, buf 41, buf 42, buf 43]
  else 0xF0 :: slice buf 40 4

/-- The UDP header, with its checksum always inline. -/
def compressUdp (buf : Nat → Byte) : List Byte :=
  if buf 6 = uipProtoUdp then compressPorts buf ++ slice buf 46 2 else []

/-- The byte with the numbers of the contexts, there if the prefix of one of the addresses
has a context. -/
def compressCid (contexts : List AddrContext) (buf : Nat → Byte) (sciDci : Byte) : Encoded :=
  if addrContextLookupByPrefix contexts (destipaddr buf) ≠ none ∨
      addrContextLookupByPrefix contexts (srcipaddr buf) ≠ none then
    { bits := iphcCid, inline := [sciDci] }
  else { bits := 0, inline := [] }

/-- What a compressed packet has in place of its headers, and their length. -/
structure CompressedHdr where
  bytes : List Byte
  uncompHdrLen : Nat

/-- `compress_hdr_iphc`. -/
def compressHdrIphc (contexts : List AddrContext) (uipLladdr linkDestaddr : LinkAddr)
    (buf : Nat → Byte) : CompressedHdr :=
  let tf := compressTf buf
  let proto := compressProto buf
  let ttl := compressTtl buf
  let src := compressSrc contexts uipLladdr buf
  let dest := compressDest contexts linkDestaddr buf
  let cid := compressCid contexts buf (src.sciDci ||| dest.sciDci)
  let iphc0 := dispatchIphc ||| tf.bits ||| proto.bits ||| ttl.bits
  let iphc1 := cid.bits ||| src.bits ||| dest.bits
  { bytes := [iphc0, iphc1] ++ cid.inline ++ tf.inline ++ proto.inline ++ ttl.inline ++
      src.inline ++ dest.inline ++ compressUdp buf
    uncompHdrLen := if buf 6 = uipProtoUdp then uipIphLen + uipUdphLen else uipIphLen }

/-- The bytes 8 to 15 of an address in `uip_ds6_set_addr_iid`. -/
def setAddrIid (lladdr : LinkAddr) : List Byte := (lladdr 0 ^^^ 0x02) :: slice lladdr 1 7

/-- A nibble of `pref_post_count`. -/
def nibbleCount (n : Byte) : Nat := if n = 15 then 16 else n.toNat

/-- `uncompress_addr`, which sets all bytes of the address. -/
def uncompressAddr (addrPrefix : Nat → Byte) (prefPostCount : Byte) (lladdr : LinkAddr)
    (pkt : Nat → Byte) (ptr : Nat) : List Byte × Nat :=
  let prefcount := nibbleCount (prefPostCount >>> 4)
  let postcount := nibbleCount (prefPostCount &&& 0x0f)
  let start : List (Piece Byte) :=
    (if 0 < prefcount then [⟨0, slice addrPrefix 0 prefcount⟩] else []) ++
      if prefcount + postcount < 16 then
        [⟨prefcount, List.replicate (16 - (prefcount + postcount)) 0⟩] else []
  let rest : List (Piece Byte) :=
    if 0 < postcount then
      ⟨16 - postcount, slice pkt ptr postcount⟩ ::
        if postcount = 2 ∧ prefcount < 11 then [⟨11, [0xff]⟩, ⟨12, [0xfe]⟩] else []
    else if 0 < prefcount then [⟨8, setAddrIid lladdr⟩] else []
  (slice (Piece.writeAll (fun _ => 0) (start ++ rest)) 0 16, ptr + postcount)

def llprefix : Nat → Byte := fun i => if i = 0 then 0xfe else 0x80

def uncLlconf (tmp : Byte) : Byte :=
  if tmp = 0 then 0x0f else if tmp = 1 then 0x28 else if tmp = 2 then 0x22 else 0x20

def uncCtxconf (tmp : Byte) : Byte :=
  if tmp = 0 then 0x00 else if tmp = 1 then 0x88 else if tmp = 2 then 0x82 else 0x80

def uncMxconf (tmp : Byte) : Byte :=
  if tmp = 0 then 0x0f else if tmp = 1 then 0x25 else if tmp = 2 then 0x23 else 0x21

def ttlValues (i : Byte) : Byte :=
  if i = 0 then 0 else if i = 1 then 1 else if i = 2 then 64 else 255

section Uncompress

variable (pkt : Nat → Byte) (ptr : Nat) (iphc0 iphc1 : Byte)

/-- Traffic class and flow label. -/
def uncompressTf : List (Piece Byte) × Nat :=
  let tmp := pkt ptr
  let vtc : Byte := version6 ||| (tmp >>> 2 &&& (0x0f : Byte))
  let ecn : Byte := tmp >>> 2 &&& (0x30 : Byte)
  let dscp : Byte := tmp <<< 6
  if iphc0 &&& iphcFlC = 0 then
    if iphc0 &&& iphcTcC = 0 then
      let tcflow := ecn ||| dscp ||| (pkt (ptr + 1) &&& 0x0f)
      ([⟨1, slice pkt (ptr + 1) 3⟩, ⟨0, [vtc]⟩, ⟨1, [tcflow]⟩], ptr + 4)
    else
      let tcflow := (tmp &&& 0x0F) ||| ecn
      ([⟨0, [version6]⟩, ⟨1, [tcflow]⟩, ⟨2, slice pkt (ptr + 1) 2⟩], ptr + 3)
  else if iphc0 &&& iphcTcC = 0 then
    let tcflow := (dscp &&& 0xC0) ||| ecn
    ([⟨0, [vtc]⟩, ⟨1, [tcflow]⟩, ⟨2, [0, 0]⟩], ptr + 1)
  else ([⟨0, [version6]⟩, ⟨1, [0]⟩, ⟨2, [0, 0]⟩], ptr)

def uncompressProto : List (Piece Byte) × Nat :=
  if iphc0 &&& iphcNhC = 0 then ([⟨6, [pkt ptr]⟩], ptr + 1) else ([], ptr)

def uncompressTtl : List (Piece Byte) × Nat :=
  if iphc0 &&& 0x03 ≠ 0 then ([⟨7, [ttlValues (iphc0 &&& 0x03)]⟩], ptr)
  else ([⟨7, [pkt ptr]⟩], ptr + 1)

/-- An uncompressed address in its place in the header. -/
def atOffset (offset : Nat) (addr : List Byte × Nat) : List (Piece Byte) × Nat :=
  ([⟨offset, addr.1⟩], addr.2)

/-- The source and the destination address compression mode. -/
def srcMode (iphc1 : Byte) : Byte := ((iphc1 &&& iphcSam11) >>> iphcSamBit) &&& 0x03

def destMode (iphc1 : Byte) : Byte := (iphc1 &&& iphcDam11) &&& 0x03

/-- The source address; there is no result if its context is not found. -/
def uncompressSrc (contexts : List AddrContext) (sender : LinkAddr) (sciDci : Byte) :
    Option (List (Piece Byte) × Nat) :=
  let tmp := srcMode iphc1
  if iphc1 &&& iphcSac ≠ 0 then
    let sci := if iphc1 &&& iphcCid ≠ 0 then sciDci >>> 4 else 0
    if tmp ≠ 0 then
      (addrContextLookupByNumber contexts sci).map fun context =>
        atOffset 8 (uncompressAddr context.addrPrefix (uncCtxconf tmp) sender pkt ptr)
    else some (atOffset 8 (uncompressAddr (fun _ => 0) (uncCtxconf tmp) sender pkt ptr))
  else some (atOffset 8 (uncompressAddr llprefix (uncLlconf tmp) sender pkt ptr))

/-- A multicast address; the second byte of its prefix is inline in two modes. -/
def uncompressMcast (tmp : Byte) : List Byte × Nat :=
  let second := if tmp = 1 ∨ tmp = 2 then pkt ptr else 0x02
  let ptr := if tmp = 1 ∨ tmp = 2 then ptr + 1 else ptr
  let addrPrefix := fun i => if i = 0 then 0xff else second
  uncompressAddr addrPrefix (uncMxconf tmp) (fun _ => 0) pkt ptr

/-- The destination address. A multicast address with a context is not written. -/
def uncompressDest (contexts : List AddrContext) (receiver : LinkAddr) (sciDci : Byte) :
    Option (List (Piece Byte) × Nat) :=
  let tmp := destMode iphc1
  if iphc1 &&& iphcM ≠ 0 then
    if iphc1 &&& iphcDac ≠ 0 then some ([], ptr)
    else some (atOffset 24 (uncompressMcast pkt ptr tmp))
  else if iphc1 &&& iphcDac ≠ 0 then
    let dci := if iphc1 &&& iphcCid ≠ 0 then sciDci &&& 0x0f else 0
    (addrContextLookupByNumber contexts dci).map fun context =>
      atOffset 24 (uncompressAddr context.addrPrefix (uncCtxconf tmp) receiver pkt ptr)
  else some (atOffset 24 (uncompressAddr llprefix (uncLlconf tmp) receiver pkt ptr))

def uncompressPorts : List (Piece Byte) × Nat :=
  if pkt ptr &&& 0xF3 = 0xF0 then
    ([⟨40, slice pkt (ptr + 1) 2⟩, ⟨42, slice pkt (ptr + 3) 2⟩], ptr + 5)
  else if pkt ptr &&& 0xF3 = 0xF1 then
    ([⟨40, slice pkt (ptr + 1) 2⟩, ⟨42, [0xF0, pkt (ptr + 3)]⟩], ptr + 4)
  else if pkt ptr &&& 0xF3 = 0xF2 then
    ([⟨40, [0xF0, pkt (ptr + 1)]⟩, ⟨42, slice pkt (ptr + 2) 2⟩], ptr + 4)
  else
    let src := (0xB0 : Byte) + (pkt (ptr + 1) >>> 4)
    let dest := (0xB0 : Byte) + (pkt (ptr + 1) &&& 0x0F)
    ([⟨40, [0xF0, src]⟩, ⟨42, [0xF0, dest]⟩], ptr + 2)

/-- The next header is compressed, and as one of UDP. -/
def HasUdp : Prop := iphc0 &&& iphcNhC ≠ 0 ∧ pkt ptr &&& nhcUdpMask = nhcUdpId

instance : Decidable (HasUdp pkt ptr iphc0) := inferInstanceAs (Decidable (_ ∧ _))

/-- The UDP header, if there is one, with its length. -/
def uncompressUdp : List (Piece Byte) × Nat × Nat :=
  if HasUdp pkt ptr iphc0 then
    let ports := uncompressPorts pkt ptr
    let checksum : List (Piece Byte) × Nat :=
      if pkt ptr &&& nhcUdpChecksumc = 0 then ([⟨46, slice pkt ports.2 2⟩], ports.2 + 2)
      else ([], ports.2)
    (⟨6, [uipProtoUdp]⟩ :: ports.1 ++ checksum.1, checksum.2, uipUdphLen)
  else ([], ptr, 0)

end Uncompress

/-- What uncompressing writes into the buffer, and the lengths of the headers. -/
structure UncompressedHdr where
  pieces : List (Piece Byte)
  hdrLen : Nat
  uncompHdrLen : Nat

/-- The two bytes of a length field. -/
def lenBytes (len : Int) : List Byte := [UInt8.ofInt (len / 256), UInt8.ofInt len]

/-- `uncompress_hdr_iphc`. It returns early, with the lengths unchanged, if the context of
an address is not found. -/
def uncompressHdrIphc (contexts : List AddrContext) (sender receiver : LinkAddr)
    (pkt : Nat → Byte) (hdrLen datalen : Nat) (buf : Nat → Byte) (ipLen : Nat) :
    UncompressedHdr :=
  let iphc0 := pkt hdrLen
  let iphc1 := pkt (hdrLen + 1)
  let sciDci := pkt (hdrLen + 2)
  let ptr := hdrLen + 2 + (if iphc1 &&& iphcCid ≠ 0 then 1 else 0)
  let tf := uncompressTf pkt ptr iphc0
  let proto := uncompressProto pkt tf.2 iphc0
  let ttl := uncompressTtl pkt proto.2 iphc0
  let start := tf.1 ++ proto.1 ++ ttl.1
  match uncompressSrc pkt ttl.2 iphc1 contexts sender sciDci with
  | none => { pieces := start, hdrLen, uncompHdrLen := 0 }
  | some src =>
      match uncompressDest pkt src.2 iphc1 contexts receiver sciDci with
      | none => { pieces := start ++ src.1, hdrLen, uncompHdrLen := 0 }
      | some dest =>
          let udp := uncompressUdp pkt dest.2 iphc0
          let pieces := start ++ src.1 ++ dest.1 ++ udp.1
          let len : Int :=
            if ipLen = 0 then (datalen : Int) - udp.2.1 + udp.2.2 else (ipLen : Int) - uipIphLen
          let udplen : List (Piece Byte) :=
            if Piece.writeAll buf pieces 6 = uipProtoUdp then [⟨44, lenBytes len⟩] else []
          { pieces := pieces ++ ⟨4, lenBytes len⟩ :: udplen
            hdrLen := udp.2.1, uncompHdrLen := uipIphLen + udp.2.2 }

end Smarthome.Lowpan
