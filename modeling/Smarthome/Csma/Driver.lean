import Smarthome.Contiki.List
import Smarthome.Protocol
import Smarthome.Semantics.BlockPool
import Smarthome.Semantics.Runs
import Smarthome.Semantics.WaitingLines

/-! `csma.c` over `nullrdc.c`: the packets for each neighbor wait in a queue, from which
`nullrdc.c` takes them when the transmission timer of the neighbor has expired. -/
namespace Smarthome.Csma

open Contiki Semantics

abbrev csmaMinBe : UInt8 := 0
abbrev csmaMaxBe : Nat := 4
abbrev csmaMaxBackoff : UInt8 := 5
abbrev csmaMaxMaxFrameRetries : UInt8 := 7
abbrev clockSecond : Nat := 128
abbrev ackLen : Nat := 3

abbrev Linkaddr := Fin 8 → Byte

def linkaddrNull : Linkaddr := fun _ => 0

/-- The addresses of a `mac_callback_t` and of its argument. -/
abbrev MacCallback := UInt32
abbrev Pointer := UInt32

/-- The return values of the MAC layer. -/
inductive MacTx where
  | ok | collision | noack | deferred | err | errFatal
deriving DecidableEq

/-- The return values of the radio. -/
inductive RadioTx where
  | ok | err | collision | noack
deriving DecidableEq

/-- The sizes of the pools, `CSMA_MAX_PACKET_PER_NEIGHBOR`, which lets a neighbor have some
packet, and `linkaddr_node_addr`. -/
structure Config where
  maxNeighborQueues : Nat
  maxQueuedPackets : Nat
  maxMetadata : Nat
  queuebufNum : Nat
  maxPacketPerNeighbor : Nat
  linkaddrNodeAddr : Linkaddr
  maxPacketPerNeighbor_pos : 0 < maxPacketPerNeighbor

/-- The packet buffer, with the attributes that are looked at. -/
structure Packetbuf where
  data : List Byte
  macSeqno : UInt16
  maxMacTransmissions : UInt16
  macAck : UInt16
  sender : Linkaddr
  receiver : Linkaddr

/-- What `send_packet` is called with. -/
structure Request where
  packetbuf : Packetbuf
  sent : MacCallback
  ptr : Pointer

/-- The address that a packet is queued under. -/
def Request.receiver (request : Request) : Linkaddr := request.packetbuf.receiver

/-- The arguments of `mac_call_sent_callback`. -/
structure Report where
  sent : MacCallback
  ptr : Pointer
  status : MacTx
  numTx : Nat
deriving DecidableEq

/-- The last field is not in the program: the number of the call of `send_packet`. -/
structure QbufMetadata where
  sent : MacCallback
  cptr : Pointer
  maxTransmissions : UInt8
  packet : Nat

/-- The memory of both files and of the pools that they use. The queue buffers in `others`
belong to other code. The last two fields are not in the program. -/
structure State (c : Config) where
  seqno : UInt16
  macDsn : UInt8
  packetbuf : Packetbuf
  neighborList : List (Fin c.maxNeighborQueues)
  neighborMemb : BlockPool c.maxNeighborQueues
  addr : Fin c.maxNeighborQueues → Linkaddr
  /-- The delay of a timer that is set. -/
  transmitTimer : Fin c.maxNeighborQueues → Option Nat
  transmissions : Fin c.maxNeighborQueues → UInt8
  collisions : Fin c.maxNeighborQueues → UInt8
  queuedPacketList : Fin c.maxNeighborQueues → Option (Fin c.maxQueuedPackets)
  packetMemb : BlockPool c.maxQueuedPackets
  next : Fin c.maxQueuedPackets → Option (Fin c.maxQueuedPackets)
  buf : Fin c.maxQueuedPackets → Option (Fin c.queuebufNum)
  ptr : Fin c.maxQueuedPackets → Option (Fin c.maxMetadata)
  metadataMemb : BlockPool c.maxMetadata
  metadata : Fin c.maxMetadata → QbufMetadata
  bufmem : BlockPool c.queuebufNum
  queuebuf : Fin c.queuebufNum → Packetbuf
  others : BlockPool c.queuebufNum
  /-- `ptr` and `buf_list` of `send_list`, between two turns of its loop. -/
  sendList : Option (Fin c.maxNeighborQueues × Fin c.maxQueuedPackets)
  requests : List Request
  history : List (Entry Packetbuf Report)

/-- After a reset. Both sequence numbers are random. -/
def State.init (c : Config) (seqno : UInt16) (macDsn : UInt8) : State c where
  seqno := seqno
  macDsn := macDsn
  packetbuf := ⟨[], 0, 0, 0, linkaddrNull, linkaddrNull⟩
  neighborList := []
  neighborMemb := ∅
  addr _ := linkaddrNull
  transmitTimer _ := none
  transmissions _ := 0
  collisions _ := 0
  queuedPacketList _ := none
  packetMemb := ∅
  next _ := none
  buf _ := none
  ptr _ := none
  metadataMemb := ∅
  metadata _ := ⟨0, 0, 0, 0⟩
  bufmem := ∅
  queuebuf _ := ⟨[], 0, 0, 0, linkaddrNull, linkaddrNull⟩
  others := ∅
  sendList := none
  requests := []
  history := []

/-- What the framer, the radio and `random_rand` answer while one packet is sent. -/
structure Answers where
  panId : UInt16
  hdralloc : Bool
  receivingPacket : Bool
  pendingPacket : Bool
  transmit : RadioTx
  /-- The tests after the wait for the acknowledgement, and what is read then. -/
  receivingAck : Bool
  pendingAck : Bool
  channelClear : Bool
  ackPending : Bool
  ackbuf : List Byte
  random : UInt16

namespace State

variable {c : Config} (s : State c)

section Pools

/-- The number of a packet. -/
def number (q : Fin c.maxQueuedPackets) : Nat :=
  (s.ptr q).elim 0 fun metadata => (s.metadata metadata).packet

/-- `neighbor_queue_from_addr`. -/
def neighborQueueFromAddr (addr : Linkaddr) : Option (Fin c.maxNeighborQueues) :=
  s.neighborList.find? fun n => s.addr n = addr

/-- `queuebuf_attr` of the sequence number. -/
def queuebufSeqno (q : Fin c.maxQueuedPackets) : Option UInt16 :=
  (s.buf q).map fun b => (s.queuebuf b).macSeqno

/-- `queuebuf_new_from_packetbuf`. -/
def queuebufNewFromPacketbuf : State c × Option (Fin c.queuebufNum) :=
  match s.bufmem.alloc with
  | none => (s, none)
  | some b =>
      ({ s with
        bufmem := insert b s.bufmem
        queuebuf := Function.update s.queuebuf b s.packetbuf }, some b)

/-- `queuebuf_update_attr_from_packetbuf`. -/
def queuebufUpdateAttrFromPacketbuf (b : Option (Fin c.queuebufNum)) : State c :=
  match b with
  | none => s
  | some b =>
      { s with
        queuebuf := Function.update s.queuebuf b
          { s.packetbuf with data := (s.queuebuf b).data } }

/-- `queuebuf_to_packetbuf`. -/
def queuebufToPacketbuf (b : Option (Fin c.queuebufNum)) : State c :=
  match b with
  | none => s
  | some b => { s with packetbuf := s.queuebuf b }

end Pools

/-- `mac_call_sent_callback` for a packet. -/
def macCallSentCallback (packet : Nat) (report : Report) : State c :=
  { s with history := s.history ++ [.outcome packet report] }

section Transmissions

/-- `backoff_period`, with the channel check interval of `nullrdc.c`. -/
def backoffPeriod : Nat := max (clockSecond / 3125) 1

/-- `schedule_transmission`. -/
def scheduleTransmission (random : UInt16) (n : Fin c.maxNeighborQueues) : State c :=
  let backoffExponent := min (s.collisions n).toNat csmaMaxBe
  let delay := (1 <<< backoffExponent - 1) * backoffPeriod
  let delay := if 0 < delay then random.toNat % delay else delay
  { s with transmitTimer := Function.update s.transmitTimer n (some delay) }

/-- `free_packet`. The last packet takes its neighbor with it. -/
def freePacket (random : UInt16) (n : Fin c.maxNeighborQueues) (p : Fin c.maxQueuedPackets) :
    Option (State c) := do
  let (list, next) ← listRemove s.next (s.queuedPacketList n) p
  let s :=
    { s with
      queuedPacketList := Function.update s.queuedPacketList n list
      next := next
      bufmem := s.bufmem.free (s.buf p)
      metadataMemb := s.metadataMemb.free (s.ptr p)
      packetMemb := s.packetMemb.erase p }
  if s.queuedPacketList n ≠ none then
    let s :=
      { s with
        transmissions := Function.update s.transmissions n 0
        collisions := Function.update s.collisions n csmaMinBe }
    some (s.scheduleTransmission random n)
  else
    some { s with
      transmitTimer := Function.update s.transmitTimer n none
      neighborList := s.neighborList.erase n
      neighborMemb := s.neighborMemb.erase n }

/-- `tx_done`. The callback gets the count of transmissions that is left by `free_packet`. -/
def txDone (random : UInt16) (status : MacTx) (q : Fin c.maxQueuedPackets)
    (metadata : Fin c.maxMetadata) (n : Fin c.maxNeighborQueues) : Option (State c) := do
  let done := s.metadata metadata
  let s ← s.freePacket random n q
  some (s.macCallSentCallback done.packet
    ⟨done.sent, done.cptr, status, (s.transmissions n).toNat⟩)

/-- `rexmit`. -/
def rexmit (random : UInt16) (q : Fin c.maxQueuedPackets) (n : Fin c.maxNeighborQueues) :
    State c :=
  let s := s.scheduleTransmission random n
  s.queuebufUpdateAttrFromPacketbuf (s.buf q)

/-- The end of `collision` and of `noack`: the packet is dropped or tried again. -/
def txDoneOrRexmit (random : UInt16) (status : MacTx) (q : Fin c.maxQueuedPackets)
    (metadata : Fin c.maxMetadata) (n : Fin c.maxNeighborQueues) : Option (State c) :=
  if (s.metadata metadata).maxTransmissions ≤ s.transmissions n then
    s.txDone random status q metadata n
  else some (s.rexmit random q n)

/-- `collision`. -/
def collision (random : UInt16) (q : Fin c.maxQueuedPackets) (metadata : Fin c.maxMetadata)
    (n : Fin c.maxNeighborQueues) (numTransmissions : UInt8) : Option (State c) :=
  let s :=
    { s with collisions := Function.update s.collisions n (s.collisions n + numTransmissions) }
  let s :=
    if csmaMaxBackoff < s.collisions n then
      { s with
        collisions := Function.update s.collisions n csmaMinBe
        transmissions := Function.update s.transmissions n (s.transmissions n + 1) }
    else s
  s.txDoneOrRexmit random .collision q metadata n

/-- The counters after a transmission that was not disturbed. -/
def countTransmissions (n : Fin c.maxNeighborQueues) (numTransmissions : UInt8) : State c :=
  { s with
    collisions := Function.update s.collisions n csmaMinBe
    transmissions := Function.update s.transmissions n (s.transmissions n + numTransmissions) }

/-- `noack`. -/
def noack (random : UInt16) (q : Fin c.maxQueuedPackets) (metadata : Fin c.maxMetadata)
    (n : Fin c.maxNeighborQueues) (numTransmissions : UInt8) : Option (State c) :=
  (s.countTransmissions n numTransmissions).txDoneOrRexmit random .noack q metadata n

/-- `tx_ok`. -/
def txOk (random : UInt16) (q : Fin c.maxQueuedPackets) (metadata : Fin c.maxMetadata)
    (n : Fin c.maxNeighborQueues) (numTransmissions : UInt8) : Option (State c) :=
  (s.countTransmissions n numTransmissions).txDone random .ok q metadata n

/-- `packet_sent`. The packet is found by its sequence number. -/
def packetSent (random : UInt16) (n : Fin c.maxNeighborQueues) (status : MacTx)
    (numTransmissions : UInt8) : Option (State c) := do
  match ← findLinks s.next (fun q => s.queuebufSeqno q = some s.packetbuf.macSeqno)
      (Fintype.card (Fin c.maxQueuedPackets)) (s.queuedPacketList n) with
  | none => some s
  | some q =>
      match s.ptr q with
      | none => some s
      | some metadata =>
          match status with
          | .ok => s.txOk random q metadata n numTransmissions
          | .noack => s.noack random q metadata n numTransmissions
          | .collision => s.collision random q metadata n numTransmissions
          | .deferred => some s
          | status => s.txDone random status q metadata n

end Transmissions

section Nullrdc

/-- `create_frame` of `framer-802154.c`, as far as it changes the packet buffer. -/
def framerCreate (a : Answers) : State c × Bool :=
  if a.panId = 0xffff then (s, false)
  else if s.packetbuf.macSeqno ≠ 0 then (s, a.hdralloc)
  else
    let macDsn := if s.macDsn = 0 then 1 else s.macDsn
    ({ s with
      macDsn := macDsn + 1
      packetbuf := { s.packetbuf with macSeqno := macDsn.toUInt16 } }, a.hdralloc)

end Nullrdc

end State

/-- Whether the radio is given the frame, which has the sequence number in its third byte. -/
def Answers.transmits (a : Answers) (isBroadcast : Bool) : Bool :=
  !(a.receivingPacket || (!isBroadcast && a.pendingPacket))

/-- What `send_one_packet` makes of the answers of the radio, with `NULLRDC_802154_AUTOACK`. -/
def Answers.ret (a : Answers) (isBroadcast : Bool) (dsn : Byte) : MacTx :=
  if a.transmits isBroadcast = true then
    match a.transmit with
    | .ok =>
        if isBroadcast then .ok
        else if a.receivingAck || a.pendingAck || !a.channelClear then
          if a.ackPending then
            if a.ackbuf.length = ackLen ∧ a.ackbuf[2]? = some dsn then .ok else .collision
          else .noack
        else .noack
    | .collision => .collision
    | _ => .err
  else .collision

namespace State

variable {c : Config} (s : State c)

section SendList

/-- `send_one_packet` for the packet with the number. -/
def sendOnePacket (a : Answers) (packet : Nat) (n : Fin c.maxNeighborQueues) :
    Option (State c × Bool) := do
  let s := { s with packetbuf := { s.packetbuf with sender := c.linkaddrNodeAddr, macAck := 1 } }
  let (s, created) := s.framerCreate a
  let isBroadcast : Bool := s.packetbuf.receiver = linkaddrNull
  let ret := if created then a.ret isBroadcast s.packetbuf.macSeqno.toUInt8 else .errFatal
  let s :=
    if created && a.transmits isBroadcast then
      { s with history := s.history ++ [.attempt packet s.packetbuf] }
    else s
  let s ← s.packetSent a.random n ret 1
  some (s, ret = .ok)

/-- One turn of the loop of `send_list`. -/
def sendListTurn (a : Answers) : Option (State c) :=
  match s.sendList with
  | none => some s
  | some (n, bufList) => do
      let next := s.next bufList
      let packet := s.number bufList
      let (s, lastSentOk) ← (s.queuebufToPacketbuf (s.buf bufList)).sendOnePacket a packet n
      some { s with sendList := if lastSentOk then next.map fun q => (n, q) else none }

/-- `transmit_packet_list`, up to the loop of `send_list`. The timer has expired. -/
def transmitPacketList (n : Fin c.maxNeighborQueues) : State c :=
  { s with
    transmitTimer := Function.update s.transmitTimer n none
    sendList := (s.queuedPacketList n).map fun q => (n, q) }

end SendList

section SendPacket

/-- A new entry is initialized and added to the list. -/
def addNeighbor (n : Fin c.maxNeighborQueues) (addr : Linkaddr) : State c :=
  { s with
    neighborMemb := insert n s.neighborMemb
    addr := Function.update s.addr n addr
    transmissions := Function.update s.transmissions n 0
    collisions := Function.update s.collisions n csmaMinBe
    queuedPacketList := Function.update s.queuedPacketList n none
    neighborList := s.neighborList.erase n ++ [n] }

/-- The neighbor of an address, which gets an entry if it has none. -/
def neighborQueue (addr : Linkaddr) : State c × Option (Fin c.maxNeighborQueues) :=
  match s.neighborQueueFromAddr addr with
  | some n => (s, some n)
  | none =>
      match s.neighborMemb.alloc with
      | none => (s, none)
      | some n => (s.addNeighbor n addr, some n)

/-- The three allocations for a packet. What fails frees the blocks before it. -/
def allocPacket : State c × Option (Fin c.maxQueuedPackets × Fin c.maxMetadata) :=
  match s.packetMemb.alloc with
  | none => (s, none)
  | some q =>
      let s := { s with packetMemb := insert q s.packetMemb }
      let s := { s with ptr := Function.update s.ptr q s.metadataMemb.alloc }
      match s.metadataMemb.alloc with
      | none => ({ s with packetMemb := s.packetMemb.erase q }, none)
      | some metadata =>
          let s := { s with metadataMemb := insert metadata s.metadataMemb }
          let (s, b) := s.queuebufNewFromPacketbuf
          let s := { s with buf := Function.update s.buf q b }
          match b with
          | some _ => (s, some (q, metadata))
          | none =>
              ({ s with
                metadataMemb := s.metadataMemb.erase metadata
                packetMemb := s.packetMemb.erase q }, none)

/-- A packet that has its blocks is put into the queue. -/
def enqueue (random : UInt16) (packet : Nat) (sent : MacCallback) (ptr : Pointer)
    (n : Fin c.maxNeighborQueues) (q : Fin c.maxQueuedPackets) (metadata : Fin c.maxMetadata) :
    Option (State c) := do
  let maxTransmissions :=
    if s.packetbuf.maxMacTransmissions = 0 then csmaMaxMaxFrameRetries + 1
    else s.packetbuf.maxMacTransmissions.toUInt8
  let (list, next) ← listAdd s.next (s.queuedPacketList n) q
  let s :=
    { s with
      metadata := Function.update s.metadata metadata ⟨sent, ptr, maxTransmissions, packet⟩
      queuedPacketList := Function.update s.queuedPacketList n list
      next := next }
  some (if s.queuedPacketList n = some q then s.scheduleTransmission random n else s)

/-- What is left of `send_packet` when the allocation of the packet has failed. -/
def releaseNeighbor (n : Fin c.maxNeighborQueues) : Option (State c) := do
  if (← listLength s.next (s.queuedPacketList n)) = 0 then
    some { s with
      neighborList := s.neighborList.erase n
      neighborMemb := s.neighborMemb.erase n }
  else some s

/-- `send_packet` for a neighbor with an entry. -/
def queuePacket (random : UInt16) (packet : Nat) (request : Request)
    (n : Fin c.maxNeighborQueues) : Option (State c) := do
  let failed : Report := ⟨request.sent, request.ptr, .err, 1⟩
  if (← listLength s.next (s.queuedPacketList n)) < c.maxPacketPerNeighbor then
    match s.allocPacket with
    | (s, some (q, metadata)) => s.enqueue random packet request.sent request.ptr n q metadata
    | (s, none) => do
        let s ← s.releaseNeighbor n
        some (s.macCallSentCallback packet failed)
  else some (s.macCallSentCallback packet failed)

/-- `send_packet`. -/
def sendPacket (random : UInt16) (request : Request) : Option (State c) :=
  let packet := s.requests.length
  let seqno := if s.seqno = 0 then 1 else s.seqno
  let s :=
    { s with
      requests := s.requests ++ [request]
      packetbuf := { request.packetbuf with macSeqno := seqno }
      seqno := seqno + 1 }
  match s.neighborQueue request.receiver with
  | (s, some n) => s.queuePacket random packet request n
  | (s, none) => some (s.macCallSentCallback packet ⟨request.sent, request.ptr, .err, 1⟩)

end SendPacket

end State

/-- The calls into the driver, those of the timers and of the turns of `send_list` included,
and what other code does with queue buffers. -/
inductive Event (c : Config) where
  | sendPacket (random : UInt16) (request : Request)
  | expire (n : Fin c.maxNeighborQueues)
  | sendListTurn (a : Answers)
  | queuebufNew (contents : Packetbuf)
  | queuebufFree (b : Fin c.queuebufNum)

/-- The state after an event, if all loops end. -/
def step (c : Config) (s : State c) : Event c → Option (State c)
  | .sendPacket random request => s.sendPacket random request
  | .expire n => some (s.transmitPacketList n)
  | .sendListTurn a => s.sendListTurn a
  | .queuebufNew contents =>
      match { s with packetbuf := contents }.queuebufNewFromPacketbuf with
      | (s, none) => some s
      | (s, some b) => some { s with others := insert b s.others }
  | .queuebufFree b => some { s with bufmem := s.bufmem.erase b, others := s.others.erase b }

/-- A timer expires only if it is set, and not in the middle of `send_list`, where the only
calls are those of the callbacks. Other code frees only queue buffers that it holds. -/
def Possible (c : Config) (s : State c) : Event c → Prop
  | .expire n => s.sendList = none ∧ s.transmitTimer n ≠ none
  | .sendListTurn _ => s.sendList ≠ none
  | .queuebufFree b => b ∈ s.others
  | _ => True

instance Possible.decidable (c : Config) (s : State c) : (event : Event c) →
    Decidable (Possible c s event)
  | .sendPacket _ _ => isTrue trivial
  | .expire n => inferInstanceAs (Decidable (s.sendList = none ∧ s.transmitTimer n ≠ none))
  | .sendListTurn _ => inferInstanceAs (Decidable (s.sendList ≠ none))
  | .queuebufNew _ => isTrue trivial
  | .queuebufFree b => inferInstanceAs (Decidable (b ∈ s.others))

end Smarthome.Csma
