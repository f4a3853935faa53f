import Smarthome.Coordinator.UartReceiver
import Mathlib.Tactic.Common

/-! `uart_packet_processed`: one accepted frame fills the outgoing slots of the
coordinator or runs a local command. The tests are independent of one another
and read `uart_data` at fixed offsets, whatever length the frame declared. -/
namespace Smarthome.Coordinator

/-- `struct command_data`. -/
structure CommandData where
  destinationAddress : Ipv6Address
  protocolVersion : Byte
  deviceVersion : Byte
  abilityTarget : Byte
  abilityNumber : Byte
  abilityState : Byte
  readyToSend : Bool
  deriving DecidableEq

/-- `struct firmware_data`; of the payload array, the first `chunk_size` bytes. -/
structure FirmwareData where
  destinationAddress : Ipv6Address
  protocolVersion : Byte
  deviceVersion : Byte
  firmwarePayload : List Byte
  chunkNumberB1 : Byte
  chunkNumberB2 : Byte
  reservedB1 : Byte
  reservedB2 : Byte
  readyToSend : Bool
  chunkSize : Nat
  deriving DecidableEq

/-- `struct firmware_cmd`. -/
structure FirmwareCmd where
  destinationAddress : Ipv6Address
  protocolVersion : Byte
  deviceVersion : Byte
  firmwareCommand : Byte
  chunkQuantityB1 : Byte
  chunkQuantityB2 : Byte
  readyToSend : Bool
  deriving DecidableEq

/-- `struct uart_data`. -/
structure UartData where
  destinationAddress : Ipv6Address
  protocolVersion : Byte
  deviceVersion : Byte
  dataLenth : Byte
  returnedDataLenth : Byte
  payload : Vector Byte 16
  readyToSend : Bool
  deriving DecidableEq

/-- The four messages on their way from the UART to the radio. -/
structure Slots where
  commandMessage : CommandData
  firmwareMessage : FirmwareData
  firmwareCmdMessage : FirmwareCmd
  uartMessage : UartData
  deriving DecidableEq

/-- Static storage after reset: nothing to send. -/
def Slots.reset : Slots where
  commandMessage := ⟨Vector.replicate 16 0, 0, 0, 0, 0, 0, false⟩
  firmwareMessage := ⟨Vector.replicate 16 0, 0, 0, [], 0, 0, 0, 0, false, 0⟩
  firmwareCmdMessage := ⟨Vector.replicate 16 0, 0, 0, 0, 0, 0, false⟩
  uartMessage := ⟨Vector.replicate 16 0, 0, 0, 0, 0, Vector.replicate 16 0, false⟩

/-- What `local_command` does outside the slots. -/
inductive LocalEffect where
  | setEpochTime (seconds : Nat)
  | flashSectorErase (sectorAddress : Nat)
  | systemReset
  deriving DecidableEq

/-- The assignments one call of `uart_packet_processed` makes. -/
structure PacketEffect where
  localCommand : Option LocalEffect
  commandMessage : Option CommandData
  firmwareMessage : Option FirmwareData
  firmwareCmdMessage : Option FirmwareCmd
  uartMessage : Option UartData
  deriving DecidableEq

/-- `local_command`. The three subtypes exclude one another. -/
def localCommand (uartData : Nat → Byte) : Option LocalEffect :=
  if uartData 18 = dataTypeLocalCmd then
    if uartData 19 = localRootCommandTimeSet then
      some (.setEpochTime (u32 (uartData 20) (uartData 21) (uartData 22) (uartData 23)))
    else if uartData 19 = localRootCommandBootloaderActivate then
      some (.flashSectorErase 0x0001F000)
    else if uartData 19 = localRootCommandReboot then some .systemReset
    else none
  else none

/-- The first sixteen bytes of a frame. -/
def destinationAddress (uartData : Nat → Byte) : Ipv6Address :=
  Vector.ofFn fun i => uartData i

def commandMessage (uartData : Nat → Byte) : CommandData where
  destinationAddress := destinationAddress uartData
  protocolVersion := uartData 16
  deviceVersion := uartData 17
  abilityTarget := uartData 19
  abilityNumber := uartData 20
  abilityState := uartData 21
  readyToSend := true

/-- `fw_payload_lenght`: the declared length without address (16) and packet
header (7), in 16 bits, so that it wraps for a frame shorter than 23 bytes. -/
def fwPayloadLength (uartDataLength : Nat) : Nat := (uartDataLength + 65536 - 23) % 65536

/-- The copy loop has no bound of its own: past the 600 bytes of the payload
array it writes outside the object, which gives no value here. -/
def firmwareMessage (packet : UartPacket) : Option FirmwareData :=
  if fwPayloadLength packet.uartDataLength ≤ firmwarePayloadLength then
    some
      { destinationAddress := destinationAddress packet.uartData
        protocolVersion := packet.uartData 16
        deviceVersion := packet.uartData 17
        chunkNumberB1 := packet.uartData 19
        chunkNumberB2 := packet.uartData 20
        reservedB1 := packet.uartData 21
        reservedB2 := packet.uartData 22
        chunkSize := fwPayloadLength packet.uartDataLength
        firmwarePayload := (List.range (fwPayloadLength packet.uartDataLength)).map
          fun i => packet.uartData (23 + i)
        readyToSend := true }
  else none

def firmwareCmdMessage (uartData : Nat → Byte) : FirmwareCmd where
  destinationAddress := destinationAddress uartData
  protocolVersion := uartData 16
  deviceVersion := uartData 17
  firmwareCommand := uartData 19
  chunkQuantityB1 := uartData 20
  chunkQuantityB2 := uartData 21
  readyToSend := true

def uartMessage (uartData : Nat → Byte) : UartData where
  destinationAddress := destinationAddress uartData
  protocolVersion := uartData 16
  deviceVersion := uartData 17
  dataLenth := uartData 19
  returnedDataLenth := uartData 20
  payload := Vector.ofFn fun i => uartData (21 + i)
  readyToSend := true

/-- The assignments whose source indices are all constants: every test but that
for firmware. The first three read byte 18, the last one reads byte 26. -/
def fixedEffect (uartData : Nat → Byte) : PacketEffect where
  localCommand := if uartData 18 = dataTypeLocalCmd then localCommand uartData else none
  commandMessage := if uartData 18 = dataTypeCommand then some (commandMessage uartData) else none
  firmwareMessage := none
  firmwareCmdMessage :=
    if uartData 18 = dataTypeFirmwareCmd then some (firmwareCmdMessage uartData) else none
  uartMessage := if uartData 26 = dataTypeUart then some (uartMessage uartData) else none

/-- `uart_packet_processed`: five tests, none of which excludes another. `none` is
a call whose copy loop leaves the payload array. -/
def uartPacketProcessed (packet : UartPacket) : Option PacketEffect :=
  if packet.uartData 18 = dataTypeFirmware then
    (firmwareMessage packet).map fun message =>
      { fixedEffect packet.uartData with firmwareMessage := some message }
  else some (fixedEffect packet.uartData)

/-- The slots after the assignments of a call. -/
def PacketEffect.store (effect : PacketEffect) (slots : Slots) : Slots where
  commandMessage := effect.commandMessage.getD slots.commandMessage
  firmwareMessage := effect.firmwareMessage.getD slots.firmwareMessage
  firmwareCmdMessage := effect.firmwareCmdMessage.getD slots.firmwareCmdMessage
  uartMessage := effect.uartMessage.getD slots.uartMessage

/-- The four outgoing slots by name. -/
inductive SlotKind where
  | command
  | firmware
  | firmwareCmd
  | uart
  deriving DecidableEq

namespace SlotKind

/-- The packet type a slot is sent as. -/
def typeCode : SlotKind → Byte
  | command => dataTypeCommand
  | firmware => dataTypeFirmware
  | firmwareCmd => dataTypeFirmwareCmd
  | uart => dataTypeUart

end SlotKind

/-- A call assigns to this slot. -/
def PacketEffect.Fills (effect : PacketEffect) : SlotKind → Prop
  | .command => effect.commandMessage.isSome
  | .firmware => effect.firmwareMessage.isSome
  | .firmwareCmd => effect.firmwareCmdMessage.isSome
  | .uart => effect.uartMessage.isSome

/-- One slot is the same in both, its `ready_to_send` included. -/
def Slots.SameAt (slots others : Slots) : SlotKind → Prop
  | .command => slots.commandMessage = others.commandMessage
  | .firmware => slots.firmwareMessage = others.firmwareMessage
  | .firmwareCmd => slots.firmwareCmdMessage = others.firmwareCmdMessage
  | .uart => slots.uartMessage = others.uartMessage

/-- A slot to which a call does not assign stays as it was. -/
theorem PacketEffect.store_sameAt {effect : PacketEffect} (slots : Slots) {kind : SlotKind}
    (h : ¬ effect.Fills kind) : (effect.store slots).SameAt slots kind := by
  cases kind <;> simp_all [Fills, Slots.SameAt, store]

variable {packet : UartPacket}

theorem uartPacketProcessed_of_ne (h : packet.uartData 18 ≠ dataTypeFirmware) :
    uartPacketProcessed packet = some (fixedEffect packet.uartData) := if_neg h

/-- The copy loop stays inside the payload array. -/
def PayloadFits (packet : UartPacket) : Prop :=
  packet.uartData 18 = dataTypeFirmware → fwPayloadLength packet.uartDataLength ≤ 600

theorem payloadFits_iff (hLength : packet.uartDataLength ≤ 1500) :
    PayloadFits packet ↔ ¬ (packet.uartData 18 = dataTypeFirmware ∧
      (packet.uartDataLength < 23 ∨ 623 < packet.uartDataLength)) := by
  have hRange : fwPayloadLength packet.uartDataLength ≤ 600 ↔
      ¬ (packet.uartDataLength < 23 ∨ 623 < packet.uartDataLength) := by
    unfold fwPayloadLength
    omega
  rw [PayloadFits, hRange, not_and]

/-- Which slots a call fills: each by the type byte, but the last by byte 26. -/
theorem uartPacketProcessed_fills {effect : PacketEffect}
    (h : uartPacketProcessed packet = some effect) (kind : SlotKind) :
    effect.Fills kind ↔
      if kind = .uart then packet.uartData 26 = dataTypeUart
      else packet.uartData 18 = kind.typeCode := by
  unfold uartPacketProcessed at h
  split_ifs at h with hType
  · obtain ⟨message, -, rfl⟩ := Option.map_eq_some_iff.mp h
    cases kind <;> simp [PacketEffect.Fills, SlotKind.typeCode, fixedEffect, hType]
  · obtain rfl := Option.some.inj h
    cases kind <;> simp [PacketEffect.Fills, SlotKind.typeCode, fixedEffect, hType]

/-- A call has a value exactly when its copy loop stays inside the payload array. -/
theorem uartPacketProcessed_isSome :
    (uartPacketProcessed packet).isSome ↔ PayloadFits packet := by
  by_cases hType : packet.uartData 18 = dataTypeFirmware
  · by_cases hFits : fwPayloadLength packet.uartDataLength ≤ 600 <;>
      simp [uartPacketProcessed, hType, firmwareMessage, PayloadFits, hFits]
  · simp [uartPacketProcessed, hType, PayloadFits]

end Smarthome.Coordinator
