import Smarthome.Coordinator.Forwarding
import Smarthome.Node.FirmwareUpdate
import Smarthome.Router.Firmware
import Smarthome.Semantics.Runs

/-! The parties of an update: a node that requests chunks, the router that answers,
and the coordinator between them with its one slot. What has once been sent over
the radio may be delivered any number of times, in any order, or never. -/
namespace Smarthome.Ota

open Semantics Coordinator Node Router

structure System where
  node : FwUpdate
  /-- The requests the node has sent, and the datagrams the coordinator has sent. -/
  requests : List Nat
  packets : List Datagram
  slots : Slots

inductive Event where
  | resume
  | deadline
  | timeout
  /-- The router receives a request; what it answers fills the slot of the coordinator. -/
  | answer (chunkNumber : Nat)
  | relay
  | deliver (packet : Datagram)

/-- What the node reads at the pointer to a datagram. -/
def payloadData (packet : Datagram) (i : Nat) : Byte := packet.payload.getD i 0

/-- The slots after a packet that has reached the coordinator over the UART. -/
def slotsAfter (slots : Slots) (packet : List Byte) : Option Slots :=
  (uartPacketProcessed (packetOf (fun _ => 0) packet)).map fun effect => effect.store slots

def step (address : Ipv6Address) (segments : List (List Byte)) (system : System) :
    Event → Option System
  | .resume => system.node.resume.map fun (node, request) =>
      { system with node, requests := system.requests ++ request.toList }
  | .deadline => system.node.deadline.map fun node => { system with node }
  | .timeout => system.node.timeout.map fun node => { system with node }
  | .answer chunkNumber =>
      if chunkNumber ∈ system.requests then
        ((fwCmdDataProcessing segments chunkNumber).bind fun chunk =>
          slotsAfter system.slots (firmwareChunkPacket address chunk)).map
            fun slots => { system with slots }
      else none
  | .relay =>
      some { system with
        slots := (sendCommandProcess true system.slots).1
        packets := system.packets ++ (sendCommandProcess true system.slots).2 }
  | .deliver packet =>
      if packet ∈ system.packets ∧ packet.destination = address then
        (system.node.receive (udpReceiver (payloadData packet))).map fun node => { system with node }
      else none

/-- What a step does to the node. -/
inductive NodeStep (node other : FwUpdate) : Event → Prop where
  | resume (request : Option Nat) (h : node.resume = some (other, request)) :
      NodeStep node other .resume
  | deadline (h : node.deadline = some other) : NodeStep node other .deadline
  | timeout (h : node.timeout = some other) : NodeStep node other .timeout
  | answer (chunkNumber : Nat) (h : node = other) : NodeStep node other (.answer chunkNumber)
  | relay (h : node = other) : NodeStep node other .relay
  | deliver (packet : Datagram) (h : node.receive (udpReceiver (payloadData packet)) = some other) :
      NodeStep node other (.deliver packet)

section Step

variable {address : Ipv6Address} {segments : List (List Byte)} {system other : System}

/-- Only its own process, its timers and the packets it receives change a node. -/
theorem step_node {event : Event} (hStep : step address segments system event = some other) :
    NodeStep system.node other.node event := by
  cases event with
  | resume =>
      rw [step, Option.map_eq_some_iff] at hStep
      obtain ⟨⟨node, request⟩, hResume, rfl⟩ := hStep
      exact NodeStep.resume request hResume
  | deadline =>
      rw [step, Option.map_eq_some_iff] at hStep
      obtain ⟨node, hDeadline, rfl⟩ := hStep
      exact NodeStep.deadline hDeadline
  | timeout =>
      rw [step, Option.map_eq_some_iff] at hStep
      obtain ⟨node, hTimeout, rfl⟩ := hStep
      exact NodeStep.timeout hTimeout
  | answer chunkNumber =>
      rw [step] at hStep
      split_ifs at hStep
      rw [Option.map_eq_some_iff] at hStep
      obtain ⟨slots, _, rfl⟩ := hStep
      exact NodeStep.answer chunkNumber rfl
  | relay =>
      obtain rfl := Option.some.inj hStep
      exact NodeStep.relay rfl
  | deliver packet =>
      rw [step] at hStep
      split_ifs at hStep
      rw [Option.map_eq_some_iff] at hStep
      obtain ⟨node, hReceive, rfl⟩ := hStep
      exact NodeStep.deliver packet hReceive

/-- Between updates the count of requests is zero, whatever came before. -/
theorem chunkNum_of_notRunning {Allowed : System → Event → Prop} {boot : System}
    (hBoot : boot.node.CountsFromZero) (run : Reaches (step address segments) Allowed boot system)
    (hIdle : system.node.waitPoint = .notRunning) : system.node.chunkNum = 0 := by
  have hCounts : system.node.CountsFromZero := by
    refine run.invariant (fun system => system.node.CountsFromZero) hBoot
      fun before event after h _ hStep => ?_
    cases step_node hStep with
    | resume request hResume => exact FwUpdate.countsFromZero_resume h hResume
    | deadline hDeadline => exact FwUpdate.countsFromZero_deadline h hDeadline
    | timeout hTimeout => exact FwUpdate.countsFromZero_timeout h hTimeout
    | answer _ hNode | relay hNode => exact hNode ▸ h
    | deliver packet hReceive => exact FwUpdate.countsFromZero_receive h hReceive
  exact hCounts.chunkNum (hIdle ▸ nofun) (hIdle ▸ nofun)

end Step

/-- The datagram with a chunk. -/
def chunkDatagram (address : Ipv6Address) (chunk : List Byte) : Datagram where
  destination := address
  payload := [protocolVersionV1, deviceVersionV1, dataTypeFirmware, 0xFF, 0xFF, 0xFF, 0xFF] ++ chunk

variable {address : Ipv6Address} {chunk : List Byte}

/-- The coordinator puts a chunk into its slot as the router has sent it. -/
theorem slotsAfter_chunk (slots : Slots) (hChunk : chunk.length = 600) :
    ∃ next, slotsAfter slots (firmwareChunkPacket address chunk) = some next ∧
      next.firmwareMessage.readyToSend = true ∧
      sendFirmwarePacket next.firmwareMessage = chunkDatagram address chunk := by
  have hType : (packetOf (fun _ => 0) (firmwareChunkPacket address chunk)).uartData 18 =
      dataTypeFirmware := (overlay_nodeFrame_header (fun _ => 0) address _ _ _ _).2.2
  have hMessage := firmwareMessage_frame (fun _ => 0) address protocolVersionV1 deviceVersionV1
    hChunk
  rw [slotsAfter, uartPacketProcessed_firmware hType hMessage]
  exact ⟨_, rfl, rfl, rfl⟩

/-- The round of the coordinator sends the chunk, and clears the slot. -/
theorem chunk_sent {slots : Slots} (hReady : slots.firmwareMessage.readyToSend = true)
    (hPacket : sendFirmwarePacket slots.firmwareMessage = chunkDatagram address chunk) :
    chunkDatagram address chunk ∈ (sendCommandProcess true slots).2 := by
  simp [sendCommandProcess, transmit, hReady, hPacket]

/-- The node stores the chunk as the router has sent it. -/
theorem udpReceiver_chunk (hChunk : chunk.length = firmwarePayloadLength) :
    udpReceiver (payloadData (chunkDatagram address chunk)) = .firmwareDataHandler chunk := by
  have hBuffer : flashWriteBuffer (payloadData (chunkDatagram address chunk)) = chunk := by
    refine List.ext_getElem (by simp [flashWriteBuffer, hChunk]) fun i hi hi' => ?_
    simp [flashWriteBuffer, payloadData, chunkDatagram, hi']
  rw [udpReceiver_firmware rfl rfl rfl, hBuffer]

/-- A chunk that was requested reaches the network if the router gets the request. -/
theorem chunk_relayed {segments : List (List Byte)} {system : System} {chunkNumber : Nat}
    (hRequest : chunkNumber ∈ system.requests) (hSegment : segments[chunkNumber]? = some chunk)
    (hChunk : chunk.length = 600) :
    ∃ slots packets, runAll (step address segments) system [.answer chunkNumber, .relay] =
        some { system with slots, packets } ∧ chunkDatagram address chunk ∈ packets := by
  obtain ⟨slots, hSlots, hReady, hPacket⟩ : ∃ slots,
      slotsAfter system.slots (firmwareChunkPacket address chunk) = some slots ∧
        slots.firmwareMessage.readyToSend = true ∧
        sendFirmwarePacket slots.firmwareMessage = chunkDatagram address chunk :=
    slotsAfter_chunk system.slots hChunk
  have hKnown : ¬ segments.length < chunkNumber := by
    have hIndex := (List.getElem?_eq_some_iff.mp hSegment).1
    omega
  have hAnswer : step address segments system (.answer chunkNumber) = some { system with slots } := by
    rw [step, if_pos hRequest, fwCmdDataProcessing, if_neg hKnown, hSegment, Option.bind_some, hSlots]
    rfl
  refine ⟨(sendCommandProcess true slots).1, system.packets ++ (sendCommandProcess true slots).2,
    ?_, List.mem_append_right _ (chunk_sent hReady hPacket)⟩
  rw [runAll, hAnswer]
  rfl

/-- A node stores the chunk of any packet that is delivered to it. -/
theorem step_deliver_chunk {segments : List (List Byte)} {system : System}
    (hPacket : chunkDatagram address chunk ∈ system.packets) (hChunk : chunk.length = 600) :
    step address segments system (.deliver (chunkDatagram address chunk)) =
      (system.node.firmwareDataHandler chunk).map fun node => { system with node } := by
  rw [step, if_pos ⟨hPacket, rfl⟩, udpReceiver_chunk hChunk]
  rfl

end Smarthome.Ota
