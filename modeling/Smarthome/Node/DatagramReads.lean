import Smarthome.Node.MainProcess
import Smarthome.Time.TimeData

/-! `udp_receiver` of the node once more, with the bytes that it and its handlers
read, and the one consumer of a message that reads an array in it. -/
namespace Smarthome.Node

open Semantics Time

namespace Receiving

def commandSettingsHandler : Reads Byte ReceiverCall := do
  let dataType ← Reads.read 2
  let abilityTarget ← Reads.read 3
  let abilityNumber ← Reads.read 4
  let abilityState ← Reads.read 5
  return .commandSettingsHandler dataType abilityTarget abilityNumber abilityState

def uartPacketHandler : Reads Byte ReceiverCall := do
  let dataType ← Reads.read 2
  let uartReturnedDataLength ← Reads.read 3
  let uartDataLength ← Reads.read 4
  let payload ← Reads.readVector 5 16
  return .uartPacketHandler dataType
    (if uartReturnedDataLength > 16 then 16 else uartReturnedDataLength) uartDataLength payload

/-- The copy loop runs over a whole chunk, whatever `datalen` is. -/
def firmwareDataHandler : Reads Byte ReceiverCall := do
  let flashWriteBuffer ← Reads.readRange firmwarePayloadOffset firmwarePayloadLength
  return .firmwareDataHandler flashWriteBuffer

/-- The two times that `time_data_handler` takes from a response. -/
def timeResponse : Reads Byte (TimeData × TimeData) := do
  let rootTime ← TimeData.read 4
  let localTimeReq ← TimeData.read 10
  return (rootTime, localTimeReq)

def timeDataHandler : Reads Byte ReceiverCall := do
  let _ ← timeResponse
  return .timeDataHandler

def firmwareCmdNewFwHandler : Reads Byte ReceiverCall := do
  let low ← Reads.read 5
  let high ← Reads.read 4
  return .firmwareCmdNewFwHandler (u16 low high)

/-- The subcommands of `DATA_TYPE_FIRMWARE_CMD`; only the announcement reads on. -/
def firmwareCommand (packetSubtype : Byte) : Reads Byte ReceiverCall :=
  if packetSubtype = dataTypeFirmwareCommandNewFw then firmwareCmdNewFwHandler
  else if packetSubtype = dataTypeFirmwareCommandReboot then pure .watchdogReboot
  else if packetSubtype = dataTypeFirmwareCommandCleanGi then pure (.eraseOtaImage 0)
  else if packetSubtype = dataTypeFirmwareCommandFlashGi then pure .flashGoldenImageAndReboot
  else pure (.incompatibleFwCmd packetSubtype)

/-- The dispatch of `udp_receiver` on a packet of the node's own versions. -/
def dispatch (packetType packetSubtype : Byte) : Reads Byte ReceiverCall :=
  if packetType = dataTypeJoinConfirm then pure .joinConfirmHandler
  else if packetType = dataTypeCommand ∨ packetType = dataTypeSettings then commandSettingsHandler
  else if packetType = dataTypeUart then uartPacketHandler
  else if packetType = dataTypePong then pure .pongHandler
  else if packetType = dataTypeFirmware then firmwareDataHandler
  else if packetType = dataTypeSetTime then
    if packetSubtype = dataTypeSetTimeResponse then timeDataHandler
    else if packetSubtype = dataTypeSetTimeCommandSync then pure .sendTimeSyncReqPacket
    else pure .ignored
  else if packetType = dataTypeSetSchedule then pure .sheduleDataHandler
  else if packetType = dataTypeFirmwareCmd then firmwareCommand packetSubtype
  else pure (.incompatibleDataType packetType)

/-- `udp_receiver`. The first four bytes are read before anything is tested. -/
def udpReceiver : Reads Byte ReceiverCall := do
  let protocolVersion ← Reads.read 0
  let deviceVersion ← Reads.read 1
  let packetType ← Reads.read 2
  let packetSubtype ← Reads.read 3
  if protocolVersion = protocolVersionV1 ∧ deviceVersion = currentDeviceVersion then
    dispatch packetType packetSubtype
  else return .incompatibleDataType packetType

/-- The reading function makes the calls of the plain one. -/
theorem value_udpReceiver (data : Nat → Byte) :
    udpReceiver.value data = Node.udpReceiver data := by
  have hBuffer : (List.range firmwarePayloadLength).map (fun i => data (firmwarePayloadOffset + i)) =
      flashWriteBuffer data := by
    simp only [flashWriteBuffer, Nat.add_comm]
  simp only [udpReceiver, dispatch, firmwareCommand, Reads.value_bind, Reads.value_ite]
  simp only [commandSettingsHandler, uartPacketHandler, firmwareDataHandler, timeDataHandler,
    firmwareCmdNewFwHandler, Reads.value_bind, Reads.value_read, Reads.value_pure,
    Reads.value_readRange, Reads.value_readVector, hBuffer]
  rfl

/-- The length of a packet's layout, by its type and subtype. -/
def layoutLength (packetType packetSubtype : Byte) : Nat :=
  if packetType = dataTypeJoinConfirm then 4
  else if packetType = dataTypeCommand ∨ packetType = dataTypeSettings then 6
  else if packetType = dataTypeUart then 21
  else if packetType = dataTypePong then 4
  else if packetType = dataTypeFirmware then firmwarePayloadOffset + firmwarePayloadLength
  else if packetType = dataTypeSetTime then
    if packetSubtype = dataTypeSetTimeResponse then 16 else 4
  else if packetType = dataTypeSetSchedule then 4
  else if packetType = dataTypeFirmwareCmd then
    if packetSubtype = dataTypeFirmwareCommandNewFw then 6 else 4
  else 4

/-- How long a datagram has to be for the receiver of a node. -/
def receiverLength (data : Nat → Byte) : Nat :=
  if data 0 = protocolVersionV1 ∧ data 1 = currentDeviceVersion then
    layoutLength (data 2) (data 3)
  else 4

/-- Every layout begins with the four bytes of the header. -/
theorem four_le_layoutLength (packetType packetSubtype : Byte) :
    4 ≤ layoutLength packetType packetSubtype := by
  have hBoth {c : Prop} [Decidable c] {first second : Nat} (hFirst : 4 ≤ first)
      (hSecond : 4 ≤ second) : 4 ≤ if c then first else second := by
    split_ifs
    · exact hFirst
    · exact hSecond
  have hFour : 4 ≤ 4 := Nat.le_refl 4
  have hFirmware : 4 ≤ firmwarePayloadOffset + firmwarePayloadLength := by decide
  unfold layoutLength
  refine hBoth hFour (hBoth (by decide) (hBoth (by decide) (hBoth hFour (hBoth hFirmware ?_))))
  exact hBoth (hBoth (by decide) hFour) (hBoth hFour (hBoth (hBoth (by decide) hFour) hFour))

variable (data : Nat → Byte) (bound : Nat)

theorem inBounds_commandSettingsHandler :
    commandSettingsHandler.InBounds data bound ↔ 6 ≤ bound := by
  simp [commandSettingsHandler]
  omega

theorem inBounds_uartPacketHandler : uartPacketHandler.InBounds data bound ↔ 21 ≤ bound := by
  simp [uartPacketHandler]
  omega

theorem inBounds_firmwareDataHandler :
    firmwareDataHandler.InBounds data bound ↔ 607 ≤ bound := by
  simp [firmwareDataHandler]

theorem inBounds_timeDataHandler : timeDataHandler.InBounds data bound ↔ 16 ≤ bound := by
  simp [timeDataHandler, timeResponse, TimeData.inBounds_read]
  omega

theorem inBounds_firmwareCmdNewFwHandler :
    firmwareCmdNewFwHandler.InBounds data bound ↔ 6 ≤ bound := by
  simp [firmwareCmdNewFwHandler]
  omega

/-- Each branch of the dispatch reads its packet's layout, of which four bytes have
been read before. -/
theorem inBounds_dispatch (packetType packetSubtype : Byte) (hHeader : 4 ≤ bound) :
    (dispatch packetType packetSubtype).InBounds data bound ↔
      layoutLength packetType packetSubtype ≤ bound := by
  have hPure (call : ReceiverCall) :
      (pure call : Reads Byte ReceiverCall).InBounds data bound ↔ 4 ≤ bound :=
    iff_of_true ((Reads.inBounds_pure data bound call).mpr trivial) hHeader
  have hTime : (if packetSubtype = dataTypeSetTimeResponse then timeDataHandler
      else if packetSubtype = dataTypeSetTimeCommandSync then pure .sendTimeSyncReqPacket
      else pure .ignored).InBounds data bound ↔
        (if packetSubtype = dataTypeSetTimeResponse then 16 else 4) ≤ bound := by
    apply Reads.inBounds_ite_iff_le (inBounds_timeDataHandler data bound)
    simp [hHeader]
  have hCommand : (firmwareCommand packetSubtype).InBounds data bound ↔
      (if packetSubtype = dataTypeFirmwareCommandNewFw then 6 else 4) ≤ bound := by
    apply Reads.inBounds_ite_iff_le (inBounds_firmwareCmdNewFwHandler data bound)
    simp [hHeader]
  unfold dispatch layoutLength
  apply Reads.inBounds_ite_iff_le (hPure _)
  apply Reads.inBounds_ite_iff_le (inBounds_commandSettingsHandler data bound)
  apply Reads.inBounds_ite_iff_le (inBounds_uartPacketHandler data bound)
  apply Reads.inBounds_ite_iff_le (hPure _)
  apply Reads.inBounds_ite_iff_le (inBounds_firmwareDataHandler data bound)
  apply Reads.inBounds_ite_iff_le hTime
  apply Reads.inBounds_ite_iff_le (hPure _)
  apply Reads.inBounds_ite_iff_le hCommand
  exact hPure _

/-- **When a node reads inside a datagram.** -/
theorem inBounds_udpReceiver_iff : udpReceiver.InBounds data bound ↔ receiverLength data ≤ bound := by
  simp only [udpReceiver, Reads.inBounds_bind, Reads.inBounds_ite, Reads.inBounds_read,
    Reads.inBounds_pure]
  simp only [Reads.value_read, implies_true, and_true, receiverLength]
  split_ifs with hVersion
  · simp only [hVersion, and_self, forall_const]
    constructor
    · rintro ⟨-, -, -, hThree, hRest⟩
      exact (inBounds_dispatch data bound _ _ hThree).mp hRest
    · intro h
      have hHeader : 4 ≤ bound := Nat.le_trans (four_le_layoutLength (data 2) (data 3)) h
      exact ⟨by omega, by omega, by omega, by omega,
        (inBounds_dispatch data bound _ _ hHeader).mpr h⟩
  · simp only [hVersion, false_imp_iff, and_true]
    omega

end Receiving

/-- `send_uart_command` of the light: as many bytes of the payload as the message says. -/
def sendUartCommand (message : CommandMessage) : Reads Byte (List Byte) :=
  Reads.readRange 0 message.uartDataLength.toNat

/-- The light's `main_process` in normal mode, on a message that has been delivered. -/
def lightMainProcess (message : CommandMessage) : Reads Byte (List Byte) :=
  if message.command.dataType = dataTypeUart then sendUartCommand message else pure []

/-- A UART datagram in the node's own versions. -/
def IsUartDatagram (data : Nat → Byte) : Prop :=
  data 0 = protocolVersionV1 ∧ data 1 = currentDeviceVersion ∧ data 2 = dataTypeUart

/-- **When the payload of a UART datagram is read inside its array.** -/
theorem inBounds_lightMainProcess_iff (node : MainNode) (payload data : Nat → Byte)
    (h : IsUartDatagram data) :
    (lightMainProcess (node.receive (udpReceiver data)).messageForMainProcess).InBounds payload 16 ↔
      data 4 ≤ 16 := by
  obtain ⟨hProtocol, hDevice, hType⟩ := h
  have hCall : udpReceiver data = uartPacketHandler data := by
    rw [udpReceiver, if_pos ⟨hProtocol, hDevice⟩, hType]
    rfl
  have hMessage : (node.receive (udpReceiver data)).messageForMainProcess.uartDataLength = data 4 := by
    rw [hCall]
    rfl
  have hUart : (node.receive (udpReceiver data)).messageForMainProcess.command.dataType =
      dataTypeUart := by
    rw [hCall, ← hType]
    rfl
  rw [lightMainProcess, if_pos hUart, sendUartCommand, hMessage, Reads.inBounds_readRange,
    UInt8.le_iff_toNat_le]
  have hSixteen : (16 : Byte).toNat = 16 := rfl
  omega

end Smarthome.Node
