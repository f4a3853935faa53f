import Smarthome.Mac.Frame

/-! `packet_input` of `nullrdc.c` with the acknowledgements that the node sends itself, and
`mac-sequence.c`, which tells the copies of a packet from the packet. -/
namespace Smarthome.Mac

open Csma Semantics

abbrev seqnoMaxAge : UInt32 := 20 * 128
abbrev maxSeqnos : Nat := 16

/-- `struct seqno`. -/
structure Seqno where
  sender : Linkaddr
  timestamp : UInt32
  seqno : UInt8
deriving DecidableEq

/-- An entry of `received_seqnos` after a reset. -/
def Seqno.zero : Seqno := ⟨linkaddrNull, 0, 0⟩

section Sequence

variable (packetbuf : Packetbuf) (now : UInt32)

/-- The loop of `mac_sequence_is_duplicate`, which ends with the first entry of the sender. -/
def macSequenceIsDuplicate : List Seqno → Bool
  | [] => false
  | received :: rest =>
      if packetbuf.sender = received.sender then
        packetbuf.macSeqno = received.seqno.toUInt16 ∧ now - received.timestamp ≤ seqnoMaxAge
      else macSequenceIsDuplicate rest

/-- The first loop of `mac_sequence_register_seqno`, from the entry `i` on. -/
def locate (i : Nat) : List Seqno → Nat
  | [] => i
  | received :: rest => if packetbuf.sender = received.sender then i + 1 else locate (i + 1) rest

/-- The second loop of `mac_sequence_register_seqno`, from the entry `j` down. -/
def moveDown (receivedSeqnos : List Seqno) : Nat → List Seqno
  | 0 => receivedSeqnos
  | j + 1 => moveDown (receivedSeqnos.set (j + 1) (receivedSeqnos.getD j Seqno.zero)) j

def macSequenceRegisterSeqno (receivedSeqnos : List Seqno) : List Seqno :=
  let i := locate packetbuf 0 receivedSeqnos
  (moveDown receivedSeqnos (i - 1)).set 0 ⟨packetbuf.sender, now, packetbuf.macSeqno.toUInt8⟩

end Sequence

/-- A frame that the radio has put into the packet buffer, what the two variables of type
`frame802154_t` have in them before, and the two times that are read. -/
structure Reception where
  data : Nat → Byte
  datalen : Nat
  frame : Frame802154
  info154 : Frame802154
  checkedAt : UInt32
  registeredAt : UInt32

/-- A packet that `NETSTACK_MAC.input` gets, with the time of its registration. -/
structure Delivery where
  packetbuf : Packetbuf
  registeredAt : UInt32

abbrev ackLen : Nat := 3

/-- The last two fields are not in the program: what was given to the upper layer and which
acknowledgements were sent, newest first. -/
structure Nullrdc where
  framer : Framer
  receivedSeqnos : List Seqno
  delivered : List Delivery
  acks : List (List Byte)

namespace Framer

variable (f : Framer) (r : Reception)

/-- The packet in a frame, if it passes the address filter. -/
def accepted : Option Packetbuf :=
  if r.datalen = ackLen then none
  else (f.parse r.data r.datalen r.frame).filter fun packetbuf =>
    packetbuf.receiver = f.linkaddrNodeAddr ∨ packetbuf.holdsBroadcast

/-- The acknowledgement of a frame that asks for one. -/
def ackdata : Option (List Byte) :=
  match frame802154Parse r.data r.datalen r.info154 with
  | none => none
  | some (_, info154) =>
      if info154.fcf.frameType = frame802154Dataframe ∧ info154.fcf.ackRequired ≠ 0 ∧
          info154.destAddr = f.linkaddrNodeAddr then
        some [frame802154Ackframe, 0, info154.seq]
      else none

end Framer

namespace Nullrdc

def boot (framer : Framer) : Nullrdc := ⟨framer, List.replicate maxSeqnos Seqno.zero, [], []⟩

variable (s : Nullrdc) (r : Reception)

/-- Whether a packet is taken for a copy of one that came before. -/
def isDuplicate (packetbuf : Packetbuf) : Bool :=
  macSequenceIsDuplicate packetbuf r.checkedAt s.receivedSeqnos

def packetInput : Nullrdc :=
  match s.framer.accepted r with
  | none => s
  | some packetbuf =>
      let acks := (s.framer.ackdata r).toList ++ s.acks
      if s.isDuplicate r packetbuf = true then { s with acks }
      else
        { s with
          receivedSeqnos := macSequenceRegisterSeqno packetbuf r.registeredAt s.receivedSeqnos
          delivered := ⟨packetbuf, r.registeredAt⟩ :: s.delivered
          acks }

/-- The receptions one after another, the first one first. -/
def run (s : Nullrdc) (receptions : List Reception) : Nullrdc := receptions.foldl packetInput s

end Nullrdc

end Smarthome.Mac
