import Smarthome.Coordinator.FrameEffects
import Smarthome.Node.Dispatch

/-! The way from a slot to the radio. `send_command_process` looks at the four
slots in turn and has each full one sent field by field. -/
namespace Smarthome.Coordinator

open Semantics UartReceiver

def sendCommandPacket (message : CommandData) : Datagram where
  destination := message.destinationAddress
  payload := [message.protocolVersion, message.deviceVersion, dataTypeCommand,
    message.abilityTarget, message.abilityNumber, message.abilityState,
    dataReserved, dataReserved, dataReserved, dataReserved]

def sendFirmwarePacket (message : FirmwareData) : Datagram where
  destination := message.destinationAddress
  payload := [message.protocolVersion, message.deviceVersion, dataTypeFirmware,
    message.chunkNumberB1, message.chunkNumberB2, message.reservedB1, message.reservedB2] ++
    message.firmwarePayload

/-- Versions and subcommand are constants here; only the two arguments come from the slot. -/
def sendFirmwareCmdPacket (message : FirmwareCmd) : Datagram where
  destination := message.destinationAddress
  payload := [protocolVersionV1, deviceVersionV1, dataTypeFirmwareCmd,
    dataTypeFirmwareCommandNewFw, message.chunkQuantityB1, message.chunkQuantityB2,
    dataReserved, dataReserved, dataReserved, dataReserved]

def sendUartPacket (message : UartData) : Datagram where
  destination := message.destinationAddress
  payload := [message.protocolVersion, message.deviceVersion, dataTypeUart,
    message.returnedDataLenth, message.dataLenth] ++ message.payload.toList ++
    [dataReserved, dataReserved]

/-- The datagram of one slot. Without a connection the send function returns at once. -/
def transmit (udpConn readyToSend : Bool) (datagram : Datagram) : List Datagram :=
  if readyToSend && udpConn then [datagram] else []

/-- One round of `send_command_process`: what is sent, and the slots with their
`ready_to_send` cleared, sent or not. -/
def sendCommandProcess (udpConn : Bool) (slots : Slots) : Slots × List Datagram :=
  ({ commandMessage := { slots.commandMessage with readyToSend := false }
     firmwareMessage := { slots.firmwareMessage with readyToSend := false }
     firmwareCmdMessage := { slots.firmwareCmdMessage with readyToSend := false }
     uartMessage := { slots.uartMessage with readyToSend := false } },
    transmit udpConn slots.commandMessage.readyToSend (sendCommandPacket slots.commandMessage) ++
    transmit udpConn slots.firmwareMessage.readyToSend (sendFirmwarePacket slots.firmwareMessage) ++
    transmit udpConn slots.firmwareCmdMessage.readyToSend
      (sendFirmwareCmdPacket slots.firmwareCmdMessage) ++
    transmit udpConn slots.uartMessage.readyToSend (sendUartPacket slots.uartMessage))

/-- What the coordinator sends in the round after a frame, given the slots before it. -/
def relay (slots : Slots) (packet : UartPacket) : Option (List Datagram) :=
  (uartPacketProcessed packet).map fun effect => (sendCommandProcess true (effect.store slots)).2

/-- A datagram of the firmware command type. -/
def IsFirmwareCmd (datagram : Datagram) : Prop :=
  datagram.payload[2]? = some dataTypeFirmwareCmd

instance : DecidablePred IsFirmwareCmd := fun _ => inferInstanceAs (Decidable (_ = _))

/-- The data of a frame for a node: address, versions, type and the bytes after them. -/
def nodeFrame (address : Ipv6Address) (protocolVersion deviceVersion dataType : Byte)
    (body : List Byte) : List Byte :=
  address.toList ++ ([protocolVersion, deviceVersion, dataType] ++ body)

section NodeFrame

variable (buffer : Nat → Byte) (address : Ipv6Address) (pv dv dataType : Byte) (body : List Byte)

theorem nodeFrame_length : (nodeFrame address pv dv dataType body).length = 19 + body.length := by
  simp [nodeFrame]
  omega

theorem overlay_nodeFrame_address :
    destinationAddress (overlay buffer 0 (nodeFrame address pv dv dataType body)) = address := by
  ext i hi
  have hByte : (nodeFrame address pv dv dataType body)[i]? = some address[i] := by
    simp [nodeFrame, List.getElem?_append, hi]
  simp [destinationAddress, overlay_eq_of_getElem? hByte]

theorem nodeFrame_getElem? (i : Nat) :
    (nodeFrame address pv dv dataType body)[16 + i]? = ([pv, dv, dataType] ++ body)[i]? := by
  rw [nodeFrame, List.getElem?_append_right (by simp)]
  simp

theorem overlay_nodeFrame_header :
    overlay buffer 0 (nodeFrame address pv dv dataType body) 16 = pv ∧
      overlay buffer 0 (nodeFrame address pv dv dataType body) 17 = dv ∧
      overlay buffer 0 (nodeFrame address pv dv dataType body) 18 = dataType :=
  ⟨overlay_eq_of_getElem? (nodeFrame_getElem? address pv dv dataType body 0),
    overlay_eq_of_getElem? (nodeFrame_getElem? address pv dv dataType body 1),
    overlay_eq_of_getElem? (nodeFrame_getElem? address pv dv dataType body 2)⟩

theorem overlay_nodeFrame_body {i : Nat} (h : i < body.length) :
    overlay buffer 0 (nodeFrame address pv dv dataType body) (19 + i) = body[i] := by
  have hIndex : 19 + i = 16 + (3 + i) := by omega
  apply overlay_eq_of_getElem?
  rw [hIndex, nodeFrame_getElem?, List.getElem?_append_right (by simp)]
  simp [h]

end NodeFrame

/-- The data of a firmware command frame. -/
def firmwareCmdFrame (address : Ipv6Address) (protocolVersion deviceVersion command x y : Byte) :
    List Byte :=
  nodeFrame address protocolVersion deviceVersion dataTypeFirmwareCmd [command, x, y]

/-- The firmware command frame, relayed, is one firmware command datagram to its
address, with the six bytes of the frame, and the node does what they say. -/
def RelayedUnchanged (slots : Slots) (packet : UartPacket) (address : Ipv6Address)
    (protocolVersion deviceVersion command x y : Byte) : Prop :=
  ∃ sent datagram, relay slots packet = some sent ∧
    sent.filter (fun d => decide (IsFirmwareCmd d)) = [datagram] ∧
    datagram.destination = address ∧
    datagram.payload.take 6 = [protocolVersion, deviceVersion, dataTypeFirmwareCmd, command, x, y] ∧
    ∀ data : Nat → Byte, (∀ i (h : i < datagram.payload.length), data i = datagram.payload[i]) →
      Node.udpReceiver data = Node.firmwareCommand command x y

/-- The slot, after a firmware command frame, holds all the fields of the frame. -/
theorem firmwareCmdMessage_frame (buffer : Nat → Byte) (address : Ipv6Address)
    (pv dv command x y : Byte) :
    firmwareCmdMessage (overlay buffer 0 (firmwareCmdFrame address pv dv command x y)) =
      { destinationAddress := address, protocolVersion := pv, deviceVersion := dv
        firmwareCommand := command, chunkQuantityB1 := x, chunkQuantityB2 := y
        readyToSend := true } := by
  obtain ⟨h16, h17, -⟩ :=
    overlay_nodeFrame_header buffer address pv dv dataTypeFirmwareCmd [command, x, y]
  have hBody {i : Nat} (h : i < 3) :=
    overlay_nodeFrame_body buffer address pv dv dataTypeFirmwareCmd [command, x, y] h
  simp only [firmwareCmdMessage, firmwareCmdFrame, overlay_nodeFrame_address, h16, h17]
  congr 1
  · exact hBody (i := 0) (by decide)
  · exact hBody (i := 1) (by decide)
  · exact hBody (i := 2) (by decide)

/-- A firmware command frame assigns its slot, and none of type command or firmware. -/
theorem uartPacketProcessed_firmwareCmd (buffer : Nat → Byte) (address : Ipv6Address)
    (pv dv command x y : Byte) :
    ∃ effect, uartPacketProcessed (packetOf buffer (firmwareCmdFrame address pv dv command x y)) =
        some effect ∧
      effect.firmwareCmdMessage = some
        { destinationAddress := address, protocolVersion := pv, deviceVersion := dv
          firmwareCommand := command, chunkQuantityB1 := x, chunkQuantityB2 := y
          readyToSend := true } := by
  obtain ⟨-, -, h18⟩ :=
    overlay_nodeFrame_header buffer address pv dv dataTypeFirmwareCmd [command, x, y]
  have hType : overlay buffer 0 (firmwareCmdFrame address pv dv command x y) 18 =
      dataTypeFirmwareCmd := h18
  refine ⟨fixedEffect (overlay buffer 0 (firmwareCmdFrame address pv dv command x y)), ?_, ?_⟩
  · have hNe : (packetOf buffer (firmwareCmdFrame address pv dv command x y)).uartData 18 ≠
        dataTypeFirmware := fun h => absurd (hType.symm.trans h) (by decide)
    exact uartPacketProcessed_of_ne hNe
  · simp only [fixedEffect]
    rw [if_pos hType]
    exact congrArg some (firmwareCmdMessage_frame buffer address pv dv command x y)

theorem filter_transmit {udpConn readyToSend : Bool} {datagram : Datagram}
    (h : ¬ IsFirmwareCmd datagram) :
    (transmit udpConn readyToSend datagram).filter (fun d => decide (IsFirmwareCmd d)) = [] := by
  unfold transmit
  split_ifs <;> simp [h]

/-- Of one round of the process, the datagrams of the firmware command type. -/
theorem sent_firmwareCmd (slots : Slots) (hReady : slots.firmwareCmdMessage.readyToSend = true) :
    (sendCommandProcess true slots).2.filter (fun d => decide (IsFirmwareCmd d)) =
      [sendFirmwareCmdPacket slots.firmwareCmdMessage] := by
  have hCommand : ¬ IsFirmwareCmd (sendCommandPacket slots.commandMessage) :=
    fun h => absurd (Option.some.inj h) (by decide)
  have hFirmware : ¬ IsFirmwareCmd (sendFirmwarePacket slots.firmwareMessage) :=
    fun h => absurd (Option.some.inj h) (by decide)
  have hUart : ¬ IsFirmwareCmd (sendUartPacket slots.uartMessage) :=
    fun h => absurd (Option.some.inj h) (by decide)
  have hCmd : IsFirmwareCmd (sendFirmwareCmdPacket slots.firmwareCmdMessage) := rfl
  simp only [sendCommandProcess, List.filter_append, filter_transmit hCommand,
    filter_transmit hFirmware, filter_transmit hUart, List.nil_append, List.append_nil]
  simp [transmit, hReady, hCmd]

/-- **Which firmware commands the coordinator relays unchanged.** Only the one
whose versions and subcommand are the constants of the sending function. -/
theorem firmware_cmd_relayed_iff (history : List Byte) (slots : Slots) (crc : Byte)
    (address : Ipv6Address) (pv dv command x y : Byte)
    (hIdle : (receiver.after reset history).Idle) :
    (∃ packet, receiver.emitted (receiver.after reset history)
        (v3Frame crc (firmwareCmdFrame address pv dv command x y)) = [packet] ∧
      RelayedUnchanged slots packet address pv dv command x y) ↔
      pv = protocolVersionV1 ∧ dv = deviceVersionV1 ∧
        command = dataTypeFirmwareCommandNewFw := by
  have hLength : (firmwareCmdFrame address pv dv command x y).length = 22 := nodeFrame_length ..
  obtain ⟨hEmitted, -⟩ := receive_frame hIdle crc
    (firmwareCmdFrame address pv dv command x y) (by omega) (by omega)
  obtain ⟨effect, hEffect, hMessage⟩ := uartPacketProcessed_firmwareCmd
    (receiver.after reset history).uartData address pv dv command x y
  have hSlot : (effect.store slots).firmwareCmdMessage =
      { destinationAddress := address, protocolVersion := pv, deviceVersion := dv
        firmwareCommand := command, chunkQuantityB1 := x, chunkQuantityB2 := y
        readyToSend := true } := by
    rw [PacketEffect.store, hMessage]
    rfl
  have hSent := sent_firmwareCmd (effect.store slots) (by rw [hSlot])
  rw [hSlot] at hSent
  constructor
  · rintro ⟨packet, hPacket, sent, datagram, hRelay, hFilter, -, hBytes, -⟩
    obtain rfl := List.singleton_injective (hEmitted.symm.trans hPacket)
    rw [relay, hEffect, Option.map_some, Option.some.injEq] at hRelay
    rw [← hRelay, hSent] at hFilter
    obtain rfl := List.singleton_injective hFilter
    simp only [sendFirmwareCmdPacket, List.take_succ_cons, List.take_zero, List.cons.injEq] at hBytes
    exact ⟨hBytes.1.symm, hBytes.2.1.symm, hBytes.2.2.2.1.symm⟩
  · rintro ⟨rfl, rfl, rfl⟩
    refine ⟨_, hEmitted, _, _, by rw [relay, hEffect]; rfl, hSent, rfl, rfl, fun data hData => ?_⟩
    have h0 : data 0 = protocolVersionV1 := hData 0 (by simp [sendFirmwareCmdPacket])
    have h1 : data 1 = deviceVersionV1 := hData 1 (by simp [sendFirmwareCmdPacket])
    have h2 : data 2 = dataTypeFirmwareCmd := hData 2 (by simp [sendFirmwareCmdPacket])
    have h3 : data 3 = dataTypeFirmwareCommandNewFw := hData 3 (by simp [sendFirmwareCmdPacket])
    have h4 : data 4 = x := hData 4 (by simp [sendFirmwareCmdPacket])
    have h5 : data 5 = y := hData 5 (by simp [sendFirmwareCmdPacket])
    rw [Node.udpReceiver_firmwareCmd h0 h1 h2, h3, h4, h5]

/-- The announcement of an image of 170 chunks, after reset. -/
theorem firmware_cmd_relayed_new_fw : ∃ packet,
    receiver.emitted reset (v3Frame 0xFF (firmwareCmdFrame (Vector.replicate 16 0) 1 1 1 0 170)) =
      [packet] ∧
    RelayedUnchanged Slots.reset packet (Vector.replicate 16 0) 1 1 1 0 170 :=
  (firmware_cmd_relayed_iff [] Slots.reset 0xFF (Vector.replicate 16 0) 1 1 1 0 170 idle_reset).mpr
    ⟨rfl, rfl, rfl⟩

/-- A reboot command, after reset, is sent as the announcement of an image. -/
theorem firmware_cmd_relayed_fails : ¬ ∀ (history : List Byte) (slots : Slots) (crc : Byte)
    (address : Ipv6Address) (pv dv command x y : Byte) (_ : (receiver.after reset history).Idle),
    ∃ packet, receiver.emitted (receiver.after reset history)
        (v3Frame crc (firmwareCmdFrame address pv dv command x y)) = [packet] ∧
      RelayedUnchanged slots packet address pv dv command x y := by
  intro h
  obtain ⟨packet, hPacket, sent, datagram, hRelay, hFilter, -, hBytes, -⟩ :=
    h [] Slots.reset 0xFF (Vector.replicate 16 0) 1 1 dataTypeFirmwareCommandReboot 0xFF 0xFF
      idle_reset
  obtain ⟨effect, hEffect, hMessage⟩ := uartPacketProcessed_firmwareCmd reset.uartData
    (Vector.replicate 16 0) 1 1 dataTypeFirmwareCommandReboot 0xFF 0xFF
  have hFrame := emitted_reset_frame 0xFF
    (firmwareCmdFrame (Vector.replicate 16 0) 1 1 dataTypeFirmwareCommandReboot 0xFF 0xFF) (by decide)
  obtain rfl := List.singleton_injective (hFrame.symm.trans hPacket)
  rw [relay, hEffect, Option.map_some, Option.some.injEq] at hRelay
  rw [← hRelay, sent_firmwareCmd _ (by rw [PacketEffect.store, hMessage]; rfl)] at hFilter
  obtain rfl := List.singleton_injective hFilter
  simp only [sendFirmwareCmdPacket, List.take_succ_cons, List.take_zero, List.cons.injEq] at hBytes
  exact absurd hBytes.2.2.2.1 (by decide)

end Smarthome.Coordinator
