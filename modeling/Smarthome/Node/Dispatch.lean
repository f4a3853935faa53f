import Smarthome.Protocol
import Mathlib.Tactic.Common

/-! `udp_receiver` of the node: which handler a datagram reaches, and the values
that the handler takes from it. -/
namespace Smarthome.Node

/-- The calls `udp_receiver` makes, with the bytes of the datagram they use. -/
inductive ReceiverCall where
  | joinConfirmHandler
  | commandSettingsHandler (dataType abilityTarget abilityNumber abilityState : Byte)
  | uartPacketHandler (dataType uartReturnedDataLength uartDataLength : Byte)
      (payload : Vector Byte 16)
  | pongHandler
  | firmwareDataHandler (flashWriteBuffer : List Byte)
  | timeDataHandler
  | sendTimeSyncReqPacket
  | sheduleDataHandler
  | firmwareCmdNewFwHandler (fwChunkQuantity : Nat)
  | watchdogReboot
  | eraseOtaImage (slot : Nat)
  | flashGoldenImageAndReboot
  | incompatibleFwCmd (command : Byte)
  | incompatibleDataType (dataType : Byte)
  | ignored
  deriving DecidableEq

/-- The subcommands of a `DATA_TYPE_FIRMWARE_CMD` datagram. Flashing the golden
image has the code of cleaning it, which is tested first. -/
def firmwareCommand (command data4 data5 : Byte) : ReceiverCall :=
  if command = dataTypeFirmwareCommandNewFw then .firmwareCmdNewFwHandler (u16 data5 data4)
  else if command = dataTypeFirmwareCommandReboot then .watchdogReboot
  else if command = dataTypeFirmwareCommandCleanGi then .eraseOtaImage 0
  else if command = dataTypeFirmwareCommandFlashGi then .flashGoldenImageAndReboot
  else .incompatibleFwCmd command

/-- The bytes `uart_packet_handler` passes on; more than sixteen are never asked for. -/
def uartPacketHandler (data : Nat → Byte) : ReceiverCall :=
  .uartPacketHandler (data 2) (if data 3 > 16 then 16 else data 3) (data 4)
    (Vector.ofFn fun i => data (5 + i))

/-- The copy of `firmware_data_handler`: always the length of a whole chunk. -/
def flashWriteBuffer (data : Nat → Byte) : List Byte :=
  (List.range firmwarePayloadLength).map fun i => data (i + firmwarePayloadOffset)

/-- `udp_receiver`. The argument is what the pointer to the datagram sees, which
the function reads without a look at the length. -/
def udpReceiver (data : Nat → Byte) : ReceiverCall :=
  if data 0 = protocolVersionV1 ∧ data 1 = currentDeviceVersion then
    if data 2 = dataTypeJoinConfirm then .joinConfirmHandler
    else if data 2 = dataTypeCommand ∨ data 2 = dataTypeSettings then
      .commandSettingsHandler (data 2) (data 3) (data 4) (data 5)
    else if data 2 = dataTypeUart then uartPacketHandler data
    else if data 2 = dataTypePong then .pongHandler
    else if data 2 = dataTypeFirmware then .firmwareDataHandler (flashWriteBuffer data)
    else if data 2 = dataTypeSetTime then
      if data 3 = dataTypeSetTimeResponse then .timeDataHandler
      else if data 3 = dataTypeSetTimeCommandSync then .sendTimeSyncReqPacket
      else .ignored
    else if data 2 = dataTypeSetSchedule then .sheduleDataHandler
    else if data 2 = dataTypeFirmwareCmd then firmwareCommand (data 3) (data 4) (data 5)
    else .incompatibleDataType (data 2)
  else .incompatibleDataType (data 2)

theorem udpReceiver_firmwareCmd {data : Nat → Byte} (hProtocol : data 0 = protocolVersionV1)
    (hDevice : data 1 = currentDeviceVersion) (hType : data 2 = dataTypeFirmwareCmd) :
    udpReceiver data = firmwareCommand (data 3) (data 4) (data 5) := by
  rw [udpReceiver, if_pos ⟨hProtocol, hDevice⟩, hType]
  rfl

theorem udpReceiver_firmware {data : Nat → Byte} (hProtocol : data 0 = protocolVersionV1)
    (hDevice : data 1 = currentDeviceVersion) (hType : data 2 = dataTypeFirmware) :
    udpReceiver data = .firmwareDataHandler (flashWriteBuffer data) := by
  rw [udpReceiver, if_pos ⟨hProtocol, hDevice⟩, hType]
  rfl

/-- What holds of each call that `udp_receiver` can make holds of the one it makes. -/
theorem udpReceiver_elim {motive : ReceiverCall → Prop} (data : Nat → Byte)
    (hJoin : motive .joinConfirmHandler)
    (hCommand : motive (.commandSettingsHandler (data 2) (data 3) (data 4) (data 5)))
    (hUart : data 2 = dataTypeUart → motive (uartPacketHandler data))
    (hPong : motive .pongHandler)
    (hFirmware : motive (.firmwareDataHandler (flashWriteBuffer data)))
    (hTime : motive .timeDataHandler) (hSync : motive .sendTimeSyncReqPacket)
    (hIgnored : motive .ignored) (hSchedule : motive .sheduleDataHandler)
    (hFirmwareCmd : motive (firmwareCommand (data 3) (data 4) (data 5)))
    (hIncompatible : motive (.incompatibleDataType (data 2))) : motive (udpReceiver data) := by
  apply iteInduction
  · intro _
    apply iteInduction (fun _ => hJoin)
    intro _
    apply iteInduction (fun _ => hCommand)
    intro _
    apply iteInduction hUart
    intro _
    apply iteInduction (fun _ => hPong)
    intro _
    apply iteInduction (fun _ => hFirmware)
    intro _
    apply iteInduction
    · intro _
      apply iteInduction (fun _ => hTime)
      intro _
      exact iteInduction (fun _ => hSync) fun _ => hIgnored
    · intro _
      apply iteInduction (fun _ => hSchedule)
      intro _
      exact iteInduction (fun _ => hFirmwareCmd) fun _ => hIncompatible
  · intro _
    exact hIncompatible

/-- The same for the subcommands of a firmware command. -/
theorem firmwareCommand_elim {motive : ReceiverCall → Prop} (command data4 data5 : Byte)
    (hNewFw : motive (.firmwareCmdNewFwHandler (u16 data5 data4)))
    (hReboot : motive .watchdogReboot) (hErase : motive (.eraseOtaImage 0))
    (hFlash : motive .flashGoldenImageAndReboot)
    (hIncompatible : motive (.incompatibleFwCmd command)) :
    motive (firmwareCommand command data4 data5) := by
  apply iteInduction (fun _ => hNewFw)
  intro _
  apply iteInduction (fun _ => hReboot)
  intro _
  apply iteInduction (fun _ => hErase)
  intro _
  exact iteInduction (fun _ => hFlash) fun _ => hIncompatible

/-- Only a UART datagram reaches its handler. -/
theorem udpReceiver_uart {data : Nat → Byte} {dataType returnedLength length : Byte}
    {payload : Vector Byte 16}
    (h : udpReceiver data = .uartPacketHandler dataType returnedLength length payload) :
    dataType = dataTypeUart := by
  revert h
  apply udpReceiver_elim (motive := fun call =>
    call = .uartPacketHandler dataType returnedLength length payload → dataType = dataTypeUart)
  case hUart =>
    intro hType h
    rw [← (ReceiverCall.uartPacketHandler.inj h).1, hType]
  case hFirmwareCmd =>
    apply firmwareCommand_elim (motive := fun call =>
      call = .uartPacketHandler dataType returnedLength length payload → dataType = dataTypeUart)
    all_goals exact nofun
  all_goals exact nofun

/-- The payload that the bridge gets is the one of the datagram. -/
theorem udpReceiver_uart_payload {data : Nat → Byte} {dataType returnedLength length : Byte}
    {payload : Vector Byte 16}
    (h : udpReceiver data = .uartPacketHandler dataType returnedLength length payload) :
    payload = Vector.ofFn fun i => data (5 + i) := by
  revert h
  apply udpReceiver_elim (motive := fun call =>
    call = .uartPacketHandler dataType returnedLength length payload →
      payload = Vector.ofFn fun i => data (5 + i))
  case hUart =>
    intro _ h
    exact (ReceiverCall.uartPacketHandler.inj h).2.2.2.symm
  case hFirmwareCmd =>
    apply firmwareCommand_elim (motive := fun call =>
      call = .uartPacketHandler dataType returnedLength length payload →
        payload = Vector.ofFn fun i => data (5 + i))
    all_goals exact nofun
  all_goals exact nofun

/-- A firmware packet is always taken for a whole chunk. -/
theorem udpReceiver_firmware_length {data : Nat → Byte} {buffer : List Byte}
    (h : udpReceiver data = .firmwareDataHandler buffer) :
    buffer.length = firmwarePayloadLength := by
  revert h
  apply udpReceiver_elim (motive := fun call =>
    call = .firmwareDataHandler buffer → buffer.length = firmwarePayloadLength)
  case hFirmware =>
    intro h
    rw [← ReceiverCall.firmwareDataHandler.inj h, flashWriteBuffer, List.length_map,
      List.length_range]
  case hFirmwareCmd =>
    apply firmwareCommand_elim (motive := fun call =>
      call = .firmwareDataHandler buffer → buffer.length = firmwarePayloadLength)
    all_goals exact nofun
  all_goals exact nofun

/-- The quantity of chunks of an announced image is a number of two bytes. -/
theorem udpReceiver_newFw_lt {data : Nat → Byte} {fwChunkQuantity : Nat}
    (h : udpReceiver data = .firmwareCmdNewFwHandler fwChunkQuantity) :
    fwChunkQuantity < 65536 := by
  revert h
  apply udpReceiver_elim (motive := fun call =>
    call = .firmwareCmdNewFwHandler fwChunkQuantity → fwChunkQuantity < 65536)
  case hFirmwareCmd =>
    apply firmwareCommand_elim (motive := fun call =>
      call = .firmwareCmdNewFwHandler fwChunkQuantity → fwChunkQuantity < 65536)
    case hNewFw =>
      intro h
      rw [← ReceiverCall.firmwareCmdNewFwHandler.inj h]
      exact u16_lt _ _
    all_goals exact nofun
  case hUart =>
    intro _
    exact nofun
  all_goals exact nofun

end Smarthome.Node
