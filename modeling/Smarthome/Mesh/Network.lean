import Smarthome.Coordinator.DatagramReceiver
import Smarthome.Coordinator.Relay
import Smarthome.Node.Effects

/-! Nodes, coordinators and the datagrams between them. A datagram that was sent may come late,
again and again, or never, and a node may restart at any time. -/
namespace Smarthome.Mesh

open Semantics Coordinator Node.Membership

/-- The addresses of a network; no node has that of a coordinator. -/
structure Layout (Index : Type) where
  addr : Index → Ipv6Address
  nodeClass : Index → Byte
  roots : List Ipv6Address
  apart : ∀ i, addr i ∉ roots

/-- A datagram on its way. -/
structure Transmission where
  source : Ipv6Address
  destination : Ipv6Address
  payload : List Byte
  deriving DecidableEq

/-- What a receiver sees at the pointer to the payload; old bytes are behind it. -/
def Transmission.data (t : Transmission) (behind : Nat → Byte) (i : Nat) : Byte :=
  t.payload.getD i (behind i)

/-- A datagram that a coordinator has received, and what it printed. -/
structure Hearing where
  root : Ipv6Address
  sender : Ipv6Address
  payload : List Byte
  printed : List Char
  deriving DecidableEq

/-- The types of the packets of a node. -/
def packetTypes : PacketKind → List Byte
  | .join => [dataTypeJoin]
  | .status => [dataTypeStatus]
  | .data => [dataTypeSensorData, dataTypeMessage, dataTypeUart, dataTypeSetTime]
  | .fwChunkReq => [dataTypeFirmwareCmd]

/-- The payload of a packet; it has a length of 10, 16 or 23, a join one of 10. -/
def IsContents (kind : PacketKind) (payload : List Byte) : Prop :=
  (∃ dataType ∈ packetTypes kind, payload[2]? = some dataType) ∧
    (payload.length = 10 ∨ kind ≠ .join ∧ (payload.length = 16 ∨ payload.length = 23))

instance (kind : PacketKind) (payload : List Byte) : Decidable (IsContents kind payload) :=
  inferInstanceAs (Decidable (_ ∧ _))

/-- The packet that a step of a node has sent. -/
def newPacket (before after : NodeVars) : Option SentPacket :=
  if after.sent.length = before.sent.length then none else after.sent.head?

/-- The event that `udp_receiver` makes of a datagram. What the other handlers do is among the
steps that a node may take at any time. -/
def receiverEvent {Other : Type} (senderAddr : Ipv6Address) :
    Node.ReceiverCall → Option (NodeEvent Other)
  | .joinConfirmHandler => some (.joinConfirm senderAddr)
  | .pongHandler => some .pong
  | _ => none

structure Network (Index Other : Type) where
  nodes : Index → MeshNode Other
  air : List Transmission
  heard : List Hearing

inductive NetworkEvent (Index Other : Type) where
  /-- A step of a node, with the contents of the packet that it sends, if it sends one. -/
  | node (i : Index) (event : NodeEvent Other) (payload : List Byte)
  | restart (i : Index) (slots : Nat → Contiki.EventData (AnyProcess Other))
  | receive (i : Index) (t : Transmission) (behind : Nat → Byte)
  /-- `udp_data_receiver` of a coordinator. -/
  | hear (t : Transmission) (behind : Nat → Byte) (rootTime : Time.TimeData)
  /-- A coordinator forwards what the router has written. -/
  | relay (root : Ipv6Address) (slots : Slots) (packet : UartPacket)

namespace Network

variable {Index Other : Type}

def start (slots : Index → Nat → Contiki.EventData (AnyProcess Other))
    [DecidableEq Other] [Fintype Other] : Network Index Other where
  nodes := fun i => MeshNode.boot (slots i)
  air := []
  heard := []

/-- `simple_udp_sendto`. -/
def transmit (source : Ipv6Address) (datagrams : List Datagram) (s : Network Index Other) :
    Network Index Other :=
  { s with air := datagrams.map (fun d => ⟨source, d.destination, d.payload⟩) ++ s.air }

variable [DecidableEq Index]

def setNode (i : Index) (node : MeshNode Other) (s : Network Index Other) : Network Index Other :=
  { s with nodes := Function.update s.nodes i node }

variable (layout : Layout Index) [DecidableEq Other] [Fintype Other]

def step (s : Network Index Other) : NetworkEvent Index Other → Option (Network Index Other)
  | .node i event payload =>
      if event.Inner then
        ((s.nodes i).step (layout.nodeClass i) event).bind fun after =>
          match newPacket (s.nodes i).vars after.vars with
          | none => some (s.setNode i after)
          | some packet =>
              if IsContents packet.kind payload then
                some ((s.setNode i after).transmit (layout.addr i) [⟨packet.destination, payload⟩])
              else none
      else none
  | .restart i slots => some (s.setNode i (MeshNode.boot slots))
  | .receive i t behind =>
      if t ∈ s.air ∧ t.destination = layout.addr i then
        (receiverEvent t.source (Node.udpReceiver (t.data behind))).elim (some s) fun event =>
          ((s.nodes i).step (layout.nodeClass i) event).map fun after => s.setNode i after
      else none
  | .hear t behind rootTime =>
      if t ∈ s.air ∧ t.destination ∈ layout.roots then
        let reception :=
          (udpDataReceiver rootTime t.source t.payload.length).value (t.data behind)
        some ({ s with heard := ⟨t.destination, t.source, t.payload, reception.printed⟩ :: s.heard }
          |>.transmit t.destination reception.sent)
      else none
  | .relay root slots packet =>
      if root ∈ layout.roots then
        (Coordinator.relay slots packet).map fun datagrams => s.transmit root datagrams
      else none

end Network

end Smarthome.Mesh
