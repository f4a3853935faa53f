import Smarthome.Protocol
import Smarthome.Semantics.Reads
import Smarthome.Semantics.Runs
import Mathlib.Logic.Function.Basic

/-! `uip6.c`: the walk of `uip_process` over the headers of a received packet, with the options
of a header walked by `ext_hdr_options_process`. The packet is at the beginning of `uip_buf`;
what is behind it was left there by an earlier one. -/
namespace Smarthome.Uip

open Semantics

/-- `UIP_IPH_LEN`; there is no link-layer header in front of it. -/
abbrev uipIphLen : Nat := 40

abbrev uipProtoHbho : Byte := 0
abbrev uipProtoUdp : Byte := 17
abbrev uipProtoRouting : Byte := 43
abbrev uipProtoFrag : Byte := 44
abbrev uipProtoIcmp6 : Byte := 58
abbrev uipProtoNone : Byte := 59
abbrev uipProtoDesto : Byte := 60

abbrev uipExtHdrOptPad1 : Byte := 0
abbrev uipExtHdrOptPadn : Byte := 1
abbrev uipExtHdrOptRpl : Byte := 0x63

abbrev rplHdrOptLen : Byte := 4
abbrev rplHdrOptDown : Byte := 0x80
abbrev rplHdrOptRankErr : Byte := 0x40
abbrev rplHdrOptFwdErr : Byte := 0x20

/-- `uip_is_addr_mcast`. -/
def IsAddrMcast (first : Byte) : Prop := first = 0xFF

instance (first : Byte) : Decidable (IsAddrMcast first) :=
  inferInstanceAs (Decidable (first = 0xFF))

/-- What is read of an RPL instance: whether its DAG is joined, and the rank in it. -/
structure RplInstance where
  joined : Bool
  rank : Nat

/-- What a node knows that headers are compared with. -/
structure IpState where
  /-- `rpl_get_instance`. -/
  rplGetInstance : Byte → Option RplInstance
  /-- `uip_ds6_is_my_addr` or `uip_ds6_is_my_maddr`. -/
  isMyAddr : List Byte → Bool

/-- What a round of `ext_hdr_options_process` leads to: another round, or a return of 0 (perhaps
with the flag `RPL_HDR_OPT_RANK_ERR` set in the option), of 1 or of 2. -/
inductive OptionOutcome where
  | next (offset : Nat)
  | accept
  | acceptRankErr
  | discard
  | error
  deriving DecidableEq

/-- `rpl_verify_hbh_header`, for the option at `opt` of the header at `ext`. -/
def rplVerifyHbhHeader (ip : IpState) (ext opt : Nat) : Reads Byte OptionOutcome := do
  let len ← Reads.read (ext + 1)
  let optLen ← Reads.read (opt + 1)
  if len ≠ 0 ∨ optLen ≠ rplHdrOptLen then pure .discard
  else do
    let number ← Reads.read (opt + 3)
    match ip.rplGetInstance number with
    | none => pure .discard
    | some rplInstance => do
        let flags ← Reads.read (opt + 2)
        if flags &&& rplHdrOptFwdErr ≠ 0 ∨ rplInstance.joined = false then pure .discard
        else do
          let high ← Reads.read (opt + 4)
          let low ← Reads.read (opt + 5)
          if flags &&& rplHdrOptDown ≠ 0 ↔ u16 low high < rplInstance.rank then pure .accept
          else if flags &&& rplHdrOptRankErr ≠ 0 then pure .discard
          else pure .acceptRankErr

/-- The offset behind an option with data, an 8-bit number. -/
def skipOption (opt offset : Nat) : Reads Byte OptionOutcome := do
  let optLen ← Reads.read (opt + 1)
  pure (.next ((offset + optLen.toNat + 2) % 256))

/-- The loop of `ext_hdr_options_process` at one offset. -/
def extHdrOption (ip : IpState) (ext offset : Nat) : Reads Byte OptionOutcome := do
  let len ← Reads.read (ext + 1)
  if offset < len.toNat * 8 + 8 then do
    let type ← Reads.read (ext + offset)
    if type = uipExtHdrOptPad1 then pure (.next ((offset + 1) % 256))
    else if type = uipExtHdrOptPadn then skipOption (ext + offset) offset
    else if type = uipExtHdrOptRpl then rplVerifyHbhHeader ip ext (ext + offset)
    else if type &&& 0xC0 = 0 then skipOption (ext + offset) offset
    else if type &&& 0xC0 = 0x40 then pure .discard
    else if type &&& 0xC0 = 0xC0 then do
      let first ← Reads.read 24
      pure (if IsAddrMcast first then .discard else .error)
    else pure .error
  else pure .accept

/-- `uip_ext_bitmap`, bit by bit. -/
structure ExtBitmap where
  hbho : Bool
  desto1 : Bool
  desto2 : Bool
  routing : Bool

/-- Where the walk ends: at a label of `uip_process`, or with a packet that is not for us. -/
inductive WalkEnd where
  | udpInput
  | icmp6Input
  | badHdr
  | drop
  | send
  | notForMe

/-- A place in `uip_process`. The options are those of the header that is looked at first, or of
one in the loop. -/
inductive WalkPoint where
  | hopByHop
  | options (offset : Nat) (inLoop : Bool)
  | addresses
  | loop
  | done (result : WalkEnd)

/-- The variables of the walk, and the places of `uip_buf` that it has read. -/
structure HeaderWalk where
  buf : Nat → Byte
  /-- The index that `uip_next_hdr` points to. -/
  uipNextHdr : Nat
  uipExtLen : Nat
  uipExtBitmap : ExtBitmap
  point : WalkPoint
  reads : List Nat

namespace HeaderWalk

def start (buf : Nat → Byte) : HeaderWalk where
  buf := buf
  uipNextHdr := 6
  uipExtLen := 0
  uipExtBitmap := ⟨false, false, false, false⟩
  point := .hopByHop
  reads := []

/-- `uip_l2_l3_hdr_len`, where `UIP_EXT_BUF` is. -/
def ext (s : HeaderWalk) : Nat := uipIphLen + s.uipExtLen

def look (s : HeaderWalk) (indices : List Nat) : HeaderWalk :=
  { s with reads := s.reads ++ indices }

def goto (s : HeaderWalk) (point : WalkPoint) : HeaderWalk := { s with point := point }

/-- The header behind this one is the next. -/
def skipHeader (s : HeaderWalk) (point : WalkPoint) : HeaderWalk :=
  { s.look [s.ext + 1] with
    uipNextHdr := s.ext
    uipExtLen := (s.uipExtLen + ((s.buf (s.ext + 1)).toNat * 8 + 8)) % 256
    point := point }

def setRankErr (s : HeaderWalk) (opt : Nat) : HeaderWalk :=
  { s with buf := Function.update s.buf (opt + 2) (s.buf (opt + 2) ||| rplHdrOptRankErr) }

/-- The hop-by-hop header, which has to be the first one. -/
def hopByHopStep (s : HeaderWalk) : HeaderWalk :=
  if s.buf 6 = uipProtoHbho then
    { s.look [6] with
      uipExtBitmap := { s.uipExtBitmap with hbho := true }
      point := .options 2 false }
  else (s.look [6]).goto .addresses

/-- The `switch` over the result of `ext_hdr_options_process`. -/
def endOptions (s : HeaderWalk) (offset : Nat) (inLoop : Bool) : OptionOutcome → HeaderWalk
  | .next offset' => s.goto (.options offset' inLoop)
  | .accept => s.skipHeader (if inLoop then .loop else .addresses)
  | .acceptRankErr =>
      (s.setRankErr (s.ext + offset)).skipHeader (if inLoop then .loop else .addresses)
  | .discard => s.goto (.done .drop)
  | .error => s.goto (.done .send)

def optionsStep (ip : IpState) (s : HeaderWalk) (offset : Nat) (inLoop : Bool) : HeaderWalk :=
  (s.look ((extHdrOption ip s.ext offset).indices s.buf)).endOptions offset inLoop
    ((extHdrOption ip s.ext offset).value s.buf)

/-- Packets that are not for the node are forwarded or dropped here. -/
def addressesStep (ip : IpState) (s : HeaderWalk) : HeaderWalk :=
  (s.look ((Reads.readRange 8 32).indices s.buf)).goto
    (if ip.isMyAddr ((Reads.readRange 24 16).value s.buf) then .loop else .done .notForMe)

def destoStep (s : HeaderWalk) : HeaderWalk :=
  if s.uipExtBitmap.desto1 then
    if s.uipExtBitmap.desto2 then s.goto (.done .badHdr)
    else { s with
      uipExtBitmap := { s.uipExtBitmap with desto2 := true }, point := .options 2 true }
  else { s with
    uipExtBitmap := { s.uipExtBitmap with desto1 := true }, point := .options 2 true }

def routingStep (s : HeaderWalk) : HeaderWalk :=
  if s.uipExtBitmap.routing then s.goto (.done .badHdr)
  else if s.buf (s.ext + 3) ≠ 0 then (s.look [s.ext + 3]).goto (.done .send)
  else { s.look [s.ext + 3] with
    uipExtBitmap := { s.uipExtBitmap with routing := true } }.skipHeader .loop

/-- The `switch` over the next header. TCP is not configured. -/
def loopStep (s : HeaderWalk) : HeaderWalk :=
  let s' := s.look [s.uipNextHdr]
  let type := s.buf s.uipNextHdr
  if type = uipProtoUdp then s'.goto (.done .udpInput)
  else if type = uipProtoIcmp6 then s'.goto (.done .icmp6Input)
  else if type = uipProtoHbho then
    if s.uipExtBitmap.hbho then s'.goto (.done .badHdr)
    else { s' with uipExtBitmap := { s.uipExtBitmap with hbho := true }, point := .options 2 true }
  else if type = uipProtoDesto then s'.destoStep
  else if type = uipProtoRouting then s'.routingStep
  else if type = uipProtoFrag ∨ type = uipProtoNone then s'.goto (.done .drop)
  else s'.goto (.done .badHdr)

/-- One round of a loop, or what comes between two. -/
def step (ip : IpState) (s : HeaderWalk) : Unit → Option HeaderWalk := fun _ =>
  match s.point with
  | .hopByHop => some s.hopByHopStep
  | .options offset inLoop => some (s.optionsStep ip offset inLoop)
  | .addresses => some (s.addressesStep ip)
  | .loop => some s.loopStep
  | .done _ => none

end HeaderWalk

end Smarthome.Uip
