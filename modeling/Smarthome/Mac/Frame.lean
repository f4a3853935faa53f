import Smarthome.Csma.Driver
import Smarthome.Semantics.Memory

/-! `frame802154.c` and `framer-802154.c`: the header that is put before the contents of the
packet buffer, and what is read from the header of a frame. The auxiliary security header is
not compiled in. -/
namespace Smarthome.Mac

open Csma Semantics

abbrev frame802154Dataframe : UInt8 := 1
abbrev frame802154Ackframe : UInt8 := 2
abbrev frame802154Shortaddrmode : UInt8 := 2
abbrev frame802154Longaddrmode : UInt8 := 3
abbrev frame802154Broadcastpandid : UInt16 := 0xFFFF
abbrev frame802154Ieee802154e2012 : UInt8 := 2
abbrev frame802154Version : UInt8 := 1
abbrev packetbufSize : Nat := 128

/-- `frame802154_fcf_t`. -/
@[ext] structure Fcf where
  frameType : UInt8
  securityEnabled : UInt8
  framePending : UInt8
  ackRequired : UInt8
  panidCompression : UInt8
  sequenceNumberSuppression : UInt8
  ieListPresent : UInt8
  destAddrMode : UInt8
  frameVersion : UInt8
  srcAddrMode : UInt8
deriving DecidableEq

/-- `frame802154_t`. -/
@[ext] structure Frame802154 where
  destAddr : Linkaddr
  srcAddr : Linkaddr
  fcf : Fcf
  seq : UInt8
  destPid : UInt16
  srcPid : UInt16
  payload : List Byte
deriving DecidableEq

/-- `frame802154_has_panid`, for the source and for the destination. -/
def hasPanid (fcf : Fcf) : Bool × Bool :=
  if fcf.frameVersion = frame802154Ieee802154e2012 then
    if fcf.panidCompression = 0 then
      if fcf.destAddrMode ≠ 0 then (false, true)
      else (fcf.srcAddrMode ≠ 0, false)
    else (false, fcf.destAddrMode = 0 ∧ fcf.srcAddrMode = 0)
  else if fcf.frameType ≠ frame802154Ackframe then
    (fcf.panidCompression = 0 ∧ fcf.srcAddrMode &&& 3 ≠ 0, fcf.destAddrMode &&& 3 ≠ 0)
  else (false, false)

def addrLen (mode : UInt8) : Nat :=
  if mode = frame802154Shortaddrmode then 2
  else if mode = frame802154Longaddrmode then 8
  else 0

/-- The change that `field_len` makes to the frame. -/
def compressPanid (p : Frame802154) : Frame802154 :=
  if p.fcf.frameVersion < frame802154Ieee802154e2012 then
    { p with fcf := { p.fcf with
      panidCompression :=
        if p.fcf.destAddrMode &&& 3 ≠ 0 ∧ p.fcf.srcAddrMode &&& 3 ≠ 0 ∧ p.srcPid = p.destPid then 1
        else 0 } }
  else p

/-- The lengths that `field_len` gives the fields. -/
structure FieldLength where
  seqnoLen : Nat
  destPidLen : Nat
  destAddrLen : Nat
  srcPidLen : Nat
  srcAddrLen : Nat

def fieldLen (p : Frame802154) : FieldLength where
  seqnoLen := if p.fcf.sequenceNumberSuppression &&& 1 = 0 then 1 else 0
  destPidLen := if (hasPanid p.fcf).2 = true then 2 else 0
  destAddrLen := addrLen (p.fcf.destAddrMode &&& 3)
  srcPidLen := if (hasPanid p.fcf).1 = true then 2 else 0
  srcAddrLen := addrLen (p.fcf.srcAddrMode &&& 3)

def frame802154Hdrlen (p : Frame802154) : Nat :=
  let flen := fieldLen (compressPanid p)
  2 + flen.seqnoLen + flen.destPidLen + flen.destAddrLen + flen.srcPidLen + flen.srcAddrLen

def fcfBytes (fcf : Fcf) : List Byte :=
  [fcf.frameType &&& 7 |||
      (fcf.securityEnabled &&& 1) <<< (3 : UInt8) |||
      (fcf.framePending &&& 1) <<< (4 : UInt8) |||
      (fcf.ackRequired &&& 1) <<< (5 : UInt8) |||
      (fcf.panidCompression &&& 1) <<< (6 : UInt8),
    fcf.sequenceNumberSuppression &&& 1 |||
      (fcf.ieListPresent &&& 1) <<< (1 : UInt8) |||
      (fcf.destAddrMode &&& 3) <<< (2 : UInt8) |||
      (fcf.frameVersion &&& 3) <<< (4 : UInt8) |||
      (fcf.srcAddrMode &&& 3) <<< (6 : UInt8)]

/-- A PAN identifier, if it has a field. -/
def pidBytes (len : Nat) (pid : UInt16) : List Byte :=
  if len = 2 then [(pid &&& 0xff).toUInt8, ((pid >>> 8) &&& 0xff).toUInt8] else []

/-- The loop that writes an address, from its last byte on. -/
def addrBytes (len : Nat) (addr : Linkaddr) : List Byte := ((List.ofFn addr).take len).reverse

def frame802154Create (p : Frame802154) : List Byte :=
  let p := compressPanid p
  let flen := fieldLen p
  fcfBytes p.fcf ++ (if flen.seqnoLen = 1 then [p.seq] else []) ++
    pidBytes flen.destPidLen p.destPid ++ addrBytes flen.destAddrLen p.destAddr ++
    pidBytes flen.srcPidLen p.srcPid ++ addrBytes flen.srcAddrLen p.srcAddr

section Parse

variable (data : Nat → Byte)

def parseFcf (first second : Byte) : Fcf where
  frameType := first &&& 7
  securityEnabled := (first >>> 3) &&& 1
  framePending := (first >>> 4) &&& 1
  ackRequired := (first >>> 5) &&& 1
  panidCompression := (first >>> 6) &&& 1
  sequenceNumberSuppression := second &&& 1
  ieListPresent := (second >>> 1) &&& 1
  destAddrMode := (second >>> 2) &&& 3
  frameVersion := (second >>> 4) &&& 3
  srcAddrMode := (second >>> 6) &&& 3

def parsePid (p : Nat) : UInt16 := (data p).toUInt16 + ((data (p + 1)).toUInt16 <<< 8)

/-- A null address but for its first two bytes. -/
def shortAddr (first second : Byte) : Linkaddr := fun c =>
  if c.val = 0 then first else if c.val = 1 then second else 0

/-- The address at `p`, and what follows it. An address of the reserved mode is not read. -/
def parseAddr (mode : UInt8) (addr : Linkaddr) (p : Nat) : Linkaddr × Nat :=
  if mode = frame802154Shortaddrmode then
    (shortAddr (data (p + 1)) (data p), p + 2)
  else if mode = frame802154Longaddrmode then (fun c => data (p + (7 - c)), p + 8)
  else (addr, p)

def parseSeq (pf : Frame802154) (p : Nat) : Frame802154 × Nat :=
  if pf.fcf.sequenceNumberSuppression = 0 then ({ pf with seq := data p }, p + 1) else (pf, p)

def parseDest (pf : Frame802154) (p : Nat) : Frame802154 × Nat :=
  if pf.fcf.destAddrMode ≠ 0 then
    let hasDestPanid := (hasPanid pf.fcf).2
    let (destAddr, next) :=
      parseAddr data pf.fcf.destAddrMode pf.destAddr (if hasDestPanid = true then p + 2 else p)
    ({ pf with destPid := if hasDestPanid = true then parsePid data p else 0, destAddr }, next)
  else ({ pf with destAddr := linkaddrNull, destPid := 0 }, p)

def parseSrc (pf : Frame802154) (p : Nat) : Frame802154 × Nat :=
  if pf.fcf.srcAddrMode ≠ 0 then
    let (hasSrcPanid, hasDestPanid) := hasPanid pf.fcf
    let srcPid := if hasSrcPanid = true then parsePid data p else pf.destPid
    let (srcAddr, next) :=
      parseAddr data pf.fcf.srcAddrMode pf.srcAddr (if hasSrcPanid = true then p + 2 else p)
    ({ pf with
      srcPid, srcAddr
      destPid := if hasSrcPanid = true ∧ hasDestPanid = false then srcPid else pf.destPid }, next)
  else ({ pf with srcAddr := linkaddrNull, srcPid := 0 }, p)

/-- The length of the header and what is in it, or nothing where the source returns 0. The
buffer `data` goes on behind the `len` bytes of the frame, and `pf` has something in it before. -/
def frame802154Parse (len : Nat) (pf : Frame802154) : Option (Nat × Frame802154) :=
  if len < 2 then none
  else
    let (pf, p) := parseSeq data { pf with fcf := parseFcf (data 0) (data 1) } 2
    let (pf, p) := parseDest data pf p
    let (pf, c) := parseSrc data pf p
    if c > len then none else some (c, { pf with payload := slice data c (len - c) })

end Parse

def frame802154IsBroadcastAddr (mode : UInt8) (addr : Linkaddr) : Bool :=
  ((List.ofFn addr).take (if mode = frame802154Shortaddrmode then 2 else 8)).all (· = 0xff)

/-- The packet buffer, with the attributes of the framer. -/
structure Packetbuf extends Csma.Packetbuf where
  frameType : UInt16
  pending : UInt16

def Packetbuf.holdsBroadcast (packetbuf : Packetbuf) : Bool := packetbuf.receiver = linkaddrNull

/-- `mac_pan_id`, `linkaddr_node_addr` and the variables of `framer-802154.c`. -/
structure Framer where
  macPanId : UInt16
  linkaddrNodeAddr : Linkaddr
  macDsn : UInt8

namespace Framer

variable (f : Framer) (packetbuf : Packetbuf)

/-- What `create_frame` puts into `params`, when the sequence number has been set. -/
def params : Frame802154 where
  destAddr :=
    if packetbuf.holdsBroadcast = true then shortAddr 0xFF 0xFF else packetbuf.receiver
  srcAddr := f.linkaddrNodeAddr
  fcf :=
    { frameType := packetbuf.frameType.toUInt8
      securityEnabled := 0
      framePending := packetbuf.pending.toUInt8
      ackRequired := if packetbuf.holdsBroadcast = true then 0 else packetbuf.macAck.toUInt8
      panidCompression := 0
      sequenceNumberSuppression := 0
      ieListPresent := 0
      destAddrMode :=
        if packetbuf.holdsBroadcast = true then frame802154Shortaddrmode
        else frame802154Longaddrmode
      frameVersion := frame802154Version
      srcAddrMode := frame802154Longaddrmode }
  seq := packetbuf.macSeqno.toUInt8
  destPid := f.macPanId
  srcPid := f.macPanId
  payload := packetbuf.data

/-- A packet without a sequence number gets the next one of the framer. -/
def setSeqno : Framer × Packetbuf :=
  if packetbuf.macSeqno ≠ 0 then (f, packetbuf)
  else
    let macDsn := if f.macDsn = 0 then 1 else f.macDsn
    ({ f with macDsn := macDsn + 1 }, { packetbuf with macSeqno := macDsn.toUInt16 })

/-- `create`, with the frame that is in the packet buffer afterwards. -/
def create : Framer × Packetbuf × Option (List Byte) :=
  if f.macPanId = 0xffff then (f, packetbuf, none)
  else
    let (f, packetbuf) := f.setSeqno packetbuf
    let params := f.params packetbuf
    if frame802154Hdrlen params + packetbuf.data.length > packetbufSize then (f, packetbuf, none)
    else (f, packetbuf, some (frame802154Create params ++ packetbuf.data))

/-- `parse`, in a packet buffer that `packetbuf_clear` has cleared before the frame came. -/
def parse (data : Nat → Byte) (len : Nat) (frame : Frame802154) : Option Packetbuf :=
  (frame802154Parse data len frame).bind fun (hdrLen, frame) =>
    if len < hdrLen then none
    else if frame.fcf.destAddrMode ≠ 0 ∧ frame.destPid ≠ f.macPanId ∧
        frame.destPid ≠ frame802154Broadcastpandid then none
    else some
      { data := slice data hdrLen (len - hdrLen)
        macSeqno :=
          if frame.fcf.sequenceNumberSuppression = 0 then frame.seq.toUInt16 else 0xffff
        maxMacTransmissions := 0
        macAck := 0
        sender := frame.srcAddr
        receiver :=
          if frame.fcf.destAddrMode ≠ 0 ∧
              frame802154IsBroadcastAddr frame.fcf.destAddrMode frame.destAddr = false then
            frame.destAddr
          else linkaddrNull
        frameType := frame.fcf.frameType.toUInt16
        pending := frame.fcf.framePending.toUInt16 }

end Framer

end Smarthome.Mac
