import Smarthome.Coordinator.Relay
import Smarthome.Semantics.Reads

/-! `uart_packet_processed` once more, with the bytes of the buffer that it reads. A
firmware frame carries its payload from byte 23 on, and its length is whatever
the frame declared: too short and the payload length wraps, too long and the
copy runs over its array. -/
namespace Smarthome.Coordinator

open Semantics UartReceiver

namespace FrameReads

def destinationAddress : Reads Byte Ipv6Address := Reads.readVector 0 16

/-- `local_command`, which reads the two types again. -/
def localCommand : Reads Byte (Option LocalEffect) := do
  let commandType ← Reads.read 18
  let commandSubtype ← Reads.read 19
  if commandType = dataTypeLocalCmd then
    if commandSubtype = localRootCommandTimeSet then do
      let b0 ← Reads.read 20
      let b1 ← Reads.read 21
      let b2 ← Reads.read 22
      let b3 ← Reads.read 23
      return some (.setEpochTime (u32 b0 b1 b2 b3))
    else if commandSubtype = localRootCommandBootloaderActivate then
      return some (.flashSectorErase 0x0001F000)
    else if commandSubtype = localRootCommandReboot then return some .systemReset
    else return none
  else return none

def commandMessage : Reads Byte (Option CommandData) := do
  let destinationAddress ← destinationAddress
  let protocolVersion ← Reads.read 16
  let deviceVersion ← Reads.read 17
  let abilityTarget ← Reads.read 19
  let abilityNumber ← Reads.read 20
  let abilityState ← Reads.read 21
  return some
    { destinationAddress, protocolVersion, deviceVersion, abilityTarget, abilityNumber
      abilityState, readyToSend := true }

/-- The copy loop reads the whole payload, whether or not the array takes it. -/
def firmwareMessage (uartDataLength : Nat) : Reads Byte (Option FirmwareData) := do
  let destinationAddress ← destinationAddress
  let protocolVersion ← Reads.read 16
  let deviceVersion ← Reads.read 17
  let chunkNumberB1 ← Reads.read 19
  let chunkNumberB2 ← Reads.read 20
  let reservedB1 ← Reads.read 21
  let reservedB2 ← Reads.read 22
  let firmwarePayload ← Reads.readRange 23 (fwPayloadLength uartDataLength)
  return if fwPayloadLength uartDataLength ≤ firmwarePayloadLength then
    some
      { destinationAddress, protocolVersion, deviceVersion, firmwarePayload, chunkNumberB1
        chunkNumberB2, reservedB1, reservedB2
        chunkSize := fwPayloadLength uartDataLength, readyToSend := true }
  else none

def firmwareCmdMessage : Reads Byte (Option FirmwareCmd) := do
  let destinationAddress ← destinationAddress
  let protocolVersion ← Reads.read 16
  let deviceVersion ← Reads.read 17
  let firmwareCommand ← Reads.read 19
  let chunkQuantityB1 ← Reads.read 20
  let chunkQuantityB2 ← Reads.read 21
  return some
    { destinationAddress, protocolVersion, deviceVersion, firmwareCommand, chunkQuantityB1
      chunkQuantityB2, readyToSend := true }

def uartMessage : Reads Byte (Option UartData) := do
  let destinationAddress ← destinationAddress
  let protocolVersion ← Reads.read 16
  let deviceVersion ← Reads.read 17
  let dataLenth ← Reads.read 19
  let returnedDataLenth ← Reads.read 20
  let payload ← Reads.readVector 21 16
  return some
    { destinationAddress, protocolVersion, deviceVersion, dataLenth, returnedDataLenth, payload
      readyToSend := true }

/-- One test of `uart_packet_processed` and what is read where it succeeds. -/
def test {Message : Type} (index : Nat) (typeCode : Byte)
    (message : Reads Byte (Option Message)) : Reads Byte (Option Message) := do
  let type ← Reads.read index
  if type = typeCode then message else return none

/-- `uart_packet_processed`. The last test does not read byte 18. -/
def uartPacketProcessed (uartDataLength : Nat) : Reads Byte (Option PacketEffect) := do
  let localCommand ← test 18 dataTypeLocalCmd localCommand
  let commandMessage ← test 18 dataTypeCommand commandMessage
  let type ← Reads.read 18
  let firmwareMessage ← if type = dataTypeFirmware then firmwareMessage uartDataLength else pure none
  let firmwareCmdMessage ← test 18 dataTypeFirmwareCmd firmwareCmdMessage
  let uartMessage ← test 26 dataTypeUart uartMessage
  let fixed : PacketEffect :=
    { localCommand, commandMessage, firmwareMessage := none, firmwareCmdMessage, uartMessage }
  return if type = dataTypeFirmware then
    firmwareMessage.map fun message => { fixed with firmwareMessage := some message }
  else some fixed

section Values

variable (data : Nat → Byte)

theorem value_destinationAddress :
    destinationAddress.value data = Coordinator.destinationAddress data := by
  simp [destinationAddress, Coordinator.destinationAddress]

theorem value_test {Message : Type} (index : Nat) (typeCode : Byte)
    (message : Reads Byte (Option Message)) :
    (test index typeCode message).value data =
      if data index = typeCode then message.value data else none := by
  simp only [test, Reads.value_bind, Reads.value_ite]
  rfl

theorem value_localCommand : localCommand.value data = Coordinator.localCommand data := by
  simp only [localCommand, Reads.value_bind, Reads.value_ite]
  rfl

theorem value_commandMessage :
    commandMessage.value data = some (Coordinator.commandMessage data) := by
  simp only [commandMessage, Reads.value_bind, value_destinationAddress]
  rfl

theorem value_firmwareMessage (uartDataLength : Nat) :
    (firmwareMessage uartDataLength).value data =
      Coordinator.firmwareMessage ⟨data, uartDataLength⟩ := by
  simp only [firmwareMessage, Reads.value_bind, Reads.value_pure, Reads.value_read,
    Reads.value_readRange, value_destinationAddress, Coordinator.firmwareMessage]

theorem value_firmwareCmdMessage :
    firmwareCmdMessage.value data = some (Coordinator.firmwareCmdMessage data) := by
  simp only [firmwareCmdMessage, Reads.value_bind, value_destinationAddress]
  rfl

theorem value_uartMessage : uartMessage.value data = some (Coordinator.uartMessage data) := by
  simp only [uartMessage, Reads.value_bind, value_destinationAddress]
  rfl

/-- The reading function makes the assignments of the plain one. -/
theorem value_uartPacketProcessed (packet : UartPacket) :
    (uartPacketProcessed packet.uartDataLength).value packet.uartData =
      Coordinator.uartPacketProcessed packet := by
  simp only [uartPacketProcessed, Reads.value_bind, Reads.value_ite, value_test,
    value_localCommand, value_commandMessage, value_firmwareMessage, value_firmwareCmdMessage,
    value_uartMessage]
  by_cases hType : packet.uartData 18 = dataTypeFirmware
  · rw [Coordinator.uartPacketProcessed, if_pos hType]
    exact (if_pos hType).trans (if_pos hType)
  · rw [Coordinator.uartPacketProcessed, if_neg hType]
    exact (if_neg hType).trans (if_neg hType)

end Values

variable {data : Nat → Byte} {bound : Nat}

theorem inBounds_test {Message : Type} (index : Nat) (typeCode : Byte)
    (message : Reads Byte (Option Message)) :
    (test index typeCode message).InBounds data bound ↔
      index < bound ∧ (data index = typeCode → message.InBounds data bound) := by
  simp only [test, Reads.inBounds_bind, Reads.inBounds_ite, Reads.inBounds_read,
    Reads.inBounds_pure]
  simp only [Reads.value_read, implies_true, and_true]

theorem inBounds_uartMessage : uartMessage.InBounds data bound ↔ 37 ≤ bound := by
  simp [uartMessage, destinationAddress]
  omega

/-- The firmware branch alone: the seven bytes of its header and the payload. -/
theorem inBounds_firmwareMessage (uartDataLength : Nat) :
    (firmwareMessage uartDataLength).InBounds data bound ↔
      23 + fwPayloadLength uartDataLength ≤ bound := by
  simp [firmwareMessage, destinationAddress]
  omega

/-- Of a firmware frame all tests but two fail, and the last of them reads byte 26. -/
theorem inBounds_uartPacketProcessed_firmware (hType : data 18 = dataTypeFirmware)
    (uartDataLength : Nat) :
    (uartPacketProcessed uartDataLength).InBounds data bound ↔
      23 + fwPayloadLength uartDataLength ≤ bound ∧ 27 ≤ bound ∧
        (data 26 = dataTypeUart → 37 ≤ bound) := by
  have hLocal : (dataTypeFirmware = dataTypeLocalCmd) = False := by decide
  have hCommand : (dataTypeFirmware = dataTypeCommand) = False := by decide
  have hCmd : (dataTypeFirmware = dataTypeFirmwareCmd) = False := by decide
  simp only [uartPacketProcessed, Reads.inBounds_bind, inBounds_test, Reads.inBounds_read,
    Reads.value_read, Reads.inBounds_ite, Reads.inBounds_pure, inBounds_firmwareMessage,
    inBounds_uartMessage, hType, hLocal, hCommand, hCmd]
  simp only [false_imp_iff, true_imp_iff, not_true, and_true]
  constructor
  · rintro ⟨-, -, -, hPayload, -, hLast, hUart⟩
    exact ⟨hPayload, hLast, hUart⟩
  · rintro ⟨hPayload, hLast, hUart⟩
    exact ⟨by omega, by omega, by omega, hPayload, by omega, hLast, hUart⟩

end FrameReads

/-- `packet_length` of `send_firmware_packet`, in 16 bits. -/
def firmwarePacketLength (message : FirmwareData) : Nat :=
  (message.chunkSize + firmwarePayloadOffset) % 65536

/-- The copy of a firmware frame fits its array, and the datagram made of the slot
is as long as header and chunk. -/
structure CopyBounded (packet : UartPacket) : Prop where
  copied : fwPayloadLength packet.uartDataLength ≤ firmwarePayloadLength
  sent : ∃ effect message, uartPacketProcessed packet = some effect ∧
    effect.firmwareMessage = some message ∧
    (sendFirmwarePacket message).payload.length = firmwarePacketLength message ∧
    firmwarePacketLength message = message.chunkSize + 7

/-- The slot of a firmware frame whose payload fits, as it is sent. -/
theorem copyBounded_of_fits {packet : UartPacket} (hType : packet.uartData 18 = dataTypeFirmware)
    (hFits : fwPayloadLength packet.uartDataLength ≤ firmwarePayloadLength) :
    CopyBounded packet := by
  have hMessage : ∃ message, firmwareMessage packet = some message ∧
      message.firmwarePayload.length = message.chunkSize ∧ message.chunkSize ≤ 600 := by
    refine ⟨_, if_pos hFits, ?_, hFits⟩
    rw [List.length_map, List.length_range]
  obtain ⟨message, hSlot, hLength, hSize⟩ := hMessage
  have hPacket : firmwarePacketLength message = message.chunkSize + 7 := by
    apply Nat.mod_eq_of_lt
    rw [firmwarePayloadOffset]
    omega
  refine ⟨hFits, { fixedEffect packet.uartData with firmwareMessage := some message }, message,
    ?_, rfl, ?_, hPacket⟩
  · rw [uartPacketProcessed, if_pos hType, hSlot]
    rfl
  · rw [hPacket, sendFirmwarePacket, List.length_append, hLength]
    exact Nat.add_comm 7 message.chunkSize

theorem copyBounded_iff {packet : UartPacket} (hType : packet.uartData 18 = dataTypeFirmware)
    (hLength : packet.uartDataLength ≤ 1500) :
    CopyBounded packet ↔ 23 ≤ packet.uartDataLength ∧ packet.uartDataLength ≤ 623 := by
  have hRange : fwPayloadLength packet.uartDataLength ≤ firmwarePayloadLength ↔
      23 ≤ packet.uartDataLength ∧ packet.uartDataLength ≤ 623 := by
    rw [fwPayloadLength, firmwarePayloadLength]
    omega
  rw [← hRange]
  exact ⟨CopyBounded.copied, copyBounded_of_fits hType⟩

/-- **When a firmware frame is handled within its bounds.** The first part is about
all that is read, the second about the branch for firmware frames alone. -/
theorem firmware_payload_bounded_iff (history : List Byte) (packet : UartPacket)
    (hPacket : packet ∈ receiver.emitted reset history)
    (hType : packet.uartData 18 = dataTypeFirmware) :
    (CopyBounded packet ∧
        (FrameReads.uartPacketProcessed packet.uartDataLength).InBounds packet.uartData
          packet.uartDataLength ↔
      27 ≤ packet.uartDataLength ∧ packet.uartDataLength ≤ 623 ∧
        (packet.uartData 26 = dataTypeUart → 37 ≤ packet.uartDataLength)) ∧
    (CopyBounded packet ∧
        (FrameReads.firmwareMessage packet.uartDataLength).InBounds packet.uartData
          packet.uartDataLength ↔
      23 ≤ packet.uartDataLength ∧ packet.uartDataLength ≤ 623) := by
  have hRange := length_of_mem_emitted history idle_reset.bounded hPacket
  have hCopy := copyBounded_iff hType hRange.2
  -- a payload whose length has not wrapped ends where the frame ends
  have hPayload (h : 23 ≤ packet.uartDataLength) :
      23 + fwPayloadLength packet.uartDataLength ≤ packet.uartDataLength := by
    rw [fwPayloadLength]
    omega
  rw [hCopy, FrameReads.inBounds_uartPacketProcessed_firmware hType,
    FrameReads.inBounds_firmwareMessage]
  constructor
  · constructor
    · rintro ⟨⟨-, hLong⟩, -, hLast, hUart⟩
      exact ⟨hLast, hLong, hUart⟩
    · rintro ⟨hLast, hLong, hUart⟩
      exact ⟨⟨by omega, hLong⟩, hPayload (by omega), hLast, hUart⟩
  · constructor
    · exact And.left
    · intro h
      exact ⟨h, hPayload h.1⟩

/-- A firmware frame with a payload of four bytes. -/
theorem firmware_payload_bounded_four :
    CopyBounded (packetOf reset.uartData (List.replicate 18 0 ++ [0x0C] ++ List.replicate 8 0)) ∧
      (FrameReads.uartPacketProcessed 27).InBounds
        (packetOf reset.uartData (List.replicate 18 0 ++ [0x0C] ++ List.replicate 8 0)).uartData
        27 :=
  (firmware_payload_bounded_iff
    (v3Frame 0 (List.replicate 18 0 ++ [0x0C] ++ List.replicate 8 0)) _
    (by rw [emitted_reset_frame _ _ (by decide)]; exact List.mem_singleton_self _)
    (by decide)).1.mpr (by decide)

/-- Of a firmware frame of 22 bytes, which ends before its payload, the length of the
payload wraps: 65535 bytes are copied into an array of 600. -/
theorem firmware_payload_bounded_fails : ¬ ∀ (history : List Byte) (packet : UartPacket)
    (_ : packet ∈ receiver.emitted reset history)
    (_ : packet.uartData 18 = dataTypeFirmware),
    CopyBounded packet ∧ (FrameReads.uartPacketProcessed packet.uartDataLength).InBounds
      packet.uartData packet.uartDataLength := by
  intro h
  let data : List Byte := List.replicate 18 0 ++ [0x0C, 0, 0, 0]
  obtain ⟨hCopy, -⟩ := h (v3Frame 0 data) (packetOf reset.uartData data)
    (by rw [emitted_reset_frame _ _ (by decide)]; exact List.mem_singleton_self _) (by decide)
  have hCopied : fwPayloadLength 22 ≤ 600 := hCopy.copied
  exact absurd hCopied (by decide)

end Smarthome.Coordinator
