import Smarthome.Coordinator.Forwarding
import Smarthome.Node.FirmwareUpdate
import Smarthome.Node.MainProcess
import Smarthome.Router.Commands

/-! The way down, from a call of the router to a handler of a node: hexadecimal text, the
frame on the UART, the slot of the coordinator and the datagram. -/
namespace Smarthome.Wire

open Semantics Coordinator UartReceiver Node Router

/-- A call of the router between two rounds of the coordinator: what it writes is accepted
as one packet, after which the coordinator sends these datagrams of the type. -/
def Forwards (s : UartReceiver) (slots : Slots) (written : Except Stop (List (List Byte)))
    (typeByte : Byte) (datagrams : List Datagram) : Prop :=
  ∃ segments packet sent, written = .ok segments ∧
    receiver.emitted s segments.flatten = [packet] ∧
    relay slots packet = some sent ∧
    sent.filter (fun d => decide (HasType typeByte d)) = datagrams

/-- What the node sees at the pointer to the datagram. -/
def Carries (data : Nat → Byte) (datagram : Datagram) : Prop :=
  ∀ i (h : i < datagram.payload.length), data i = datagram.payload[i]

/-- Only the frame decides what is forwarded, not the segments it is written in. -/
theorem forwards_iff {s : UartReceiver} (hIdle : s.Idle) {slots : Slots}
    {written : Except Stop (List (List Byte))} {frame : List Byte}
    (hWritten : written = .ok (dataCut 25 (by decide) (v3Frame 0xFF frame)))
    (hPos : 0 < frame.length) (hLe : frame.length ≤ 1500) (typeByte : Byte)
    (datagrams : List Datagram) :
    Forwards s slots written typeByte datagrams ↔
      ∃ sent, relay slots (packetOf s.uartData frame) = some sent ∧
        sent.filter (fun d => decide (HasType typeByte d)) = datagrams := by
  have hEmitted := (receive_frame hIdle 0xFF frame hPos hLe).1
  constructor
  · rintro ⟨segments, packet, sent, hSegments, hPacket, hSent⟩
    obtain rfl := Except.ok.inj (hWritten.symm.trans hSegments)
    rw [dataCut_flatten, hEmitted, List.cons.injEq] at hPacket
    obtain ⟨rfl, -⟩ := hPacket
    exact ⟨sent, hSent⟩
  · rintro ⟨sent, hSent⟩
    refine ⟨_, _, sent, hWritten, ?_, hSent⟩
    rw [dataCut_flatten, hEmitted]

section Header

theorem fromhex_header : fromhex protocolVersionV1Hex = some [protocolVersionV1] ∧
    fromhex deviceVersionV1Hex = some [deviceVersionV1] := by
  decide

/-- A packet with the two versions, a type and texts of bytes is the frame of these bytes. -/
theorem sendToAdress_frame (adress : AdressText) {dataTypeHex : Text} {dataType : Byte}
    (hType : fromhex dataTypeHex = some [dataType]) (bytes : List HexByte)
    (hLength : bytes.length ≤ 1024) :
    sendToAdress adress.text
        ([protocolVersionV1Hex, deviceVersionV1Hex, dataTypeHex] ++ bytes.map HexByte.text) =
      .ok (dataCut 25 (by decide) (v3Frame 0xFF (nodeFrame adress.value protocolVersionV1
        deviceVersionV1 dataType (bytes.map HexByte.value)))) := by
  obtain ⟨hProtocol, hDevice⟩ := fromhex_header
  have hFlat : (bytes.map fun b => [b.value]).flatten = bytes.map HexByte.value := by
    induction bytes with
    | nil => rfl
    | cons b bytes ih =>
        rw [List.map_cons, List.flatten_cons, ih (Nat.le_of_succ_le hLength)]
        rfl
  rw [sendToAdress_eq adress ([protocolVersionV1] :: [deviceVersionV1] :: [dataType] ::
    bytes.map fun b => [b.value])]
  · rw [List.flatten_cons, List.flatten_cons, List.flatten_cons, hFlat]
    rfl
  · simp only [List.cons_append, List.nil_append, List.mapM_cons, hProtocol, hDevice, hType,
      mapM_fromhex]
    rfl
  · rw [List.flatten_cons, List.flatten_cons, List.flatten_cons, hFlat]
    simp
    omega

/-- The announcement of an image is a frame with its number of chunks, high byte first. -/
theorem sendFirmwareNewFwCmdToNode_frame (adress : AdressText) {tableSegments : List (List Byte)}
    (hQuantity : tableSegments.length < 65536) :
    sendFirmwareNewFwCmdToNode adress.text tableSegments =
      .ok (dataCut 25 (by decide) (v3Frame 0xFF (firmwareCmdFrame adress.value protocolVersionV1
        deviceVersionV1 dataTypeFirmwareCommandNewFw (UInt8.ofNat (tableSegments.length / 256))
        (UInt8.ofNat tableSegments.length)))) := by
  obtain ⟨hProtocol, hDevice⟩ := fromhex_header
  have hType : fromhex dataTypeFirmwareCmdHex = some [dataTypeFirmwareCmd] := by decide
  have hCommand : fromhex dataTypeFirmwareCommandNewFwHex =
      some [dataTypeFirmwareCommandNewFw] := by decide
  have hCount := fromhex_padHex hQuantity
  rw [sendFirmwareNewFwCmdToNode, adress.ipv6AdressParse_text, Option.getD_some,
    sendTexts_eq [adress.value.toList, [protocolVersionV1], [deviceVersionV1],
      [dataTypeFirmwareCmd], [dataTypeFirmwareCommandNewFw],
      [UInt8.ofNat (tableSegments.length / 256), UInt8.ofNat tableSegments.length]]]
  · simp [firmwareCmdFrame, nodeFrame]
  · simp only [List.mapM_cons, List.mapM_nil, adress.fromhex_parsed, hProtocol, hDevice, hType,
      hCommand, hCount]
    rfl
  · simp

end Header

/-- The main process is told of a command in one message. -/
theorem receive_command {data : Nat → Byte} {message : CommandData}
    (hData : Carries data (sendCommandPacket message))
    (hProtocol : message.protocolVersion = protocolVersionV1)
    (hDevice : message.deviceVersion = currentDeviceVersion) (node : MainNode) :
    node.receive (udpReceiver data) = node.commandSettingsHandler
      ⟨dataTypeCommand, message.abilityTarget, message.abilityNumber, message.abilityState⟩ := by
  have h0 : data 0 = protocolVersionV1 := (hData 0 (by simp [sendCommandPacket])).trans hProtocol
  have h1 : data 1 = currentDeviceVersion := (hData 1 (by simp [sendCommandPacket])).trans hDevice
  have hType : data 2 = dataTypeCommand := hData 2 (by simp [sendCommandPacket])
  have hTarget : data 3 = message.abilityTarget := hData 3 (by simp [sendCommandPacket])
  have hNumber : data 4 = message.abilityNumber := hData 4 (by simp [sendCommandPacket])
  have hState : data 5 = message.abilityState := hData 5 (by simp [sendCommandPacket])
  rw [udpReceiver, if_pos ⟨h0, h1⟩, hType, hTarget, hNumber, hState]
  rfl

/-- The serial bridge reads the two lengths in the order of the datagram. -/
theorem receive_uart {data : Nat → Byte} {message : UartData}
    (hData : Carries data (sendUartPacket message))
    (hProtocol : message.protocolVersion = protocolVersionV1)
    (hDevice : message.deviceVersion = currentDeviceVersion)
    (hReturned : message.returnedDataLenth ≤ 16) :
    udpReceiver data = .uartPacketHandler dataTypeUart message.returnedDataLenth
      message.dataLenth message.payload := by
  have hLength : (sendUartPacket message).payload.length = 23 := by simp [sendUartPacket]
  have h0 : data 0 = protocolVersionV1 := (hData 0 (by omega)).trans hProtocol
  have h1 : data 1 = currentDeviceVersion := (hData 1 (by omega)).trans hDevice
  have hType : data 2 = dataTypeUart := hData 2 (by omega)
  have h3 : data 3 = message.returnedDataLenth := hData 3 (by omega)
  have h4 : data 4 = message.dataLenth := hData 4 (by omega)
  have hPayload : Vector.ofFn (fun i : Fin 16 => data (5 + i)) = message.payload := by
    refine Vector.ext fun i hi => ?_
    have hPlace : (sendUartPacket message).payload[5 + i]? = message.payload.toList[i]? := by
      rw [sendUartPacket, List.append_assoc, List.getElem?_append_right (by simp),
        List.getElem?_append_left (by simp [hi])]
      simp
    rw [List.getElem?_eq_getElem (by omega), List.getElem?_eq_getElem (by simpa using hi),
      Option.some_inj] at hPlace
    rw [Vector.getElem_ofFn, hData (5 + i) (by omega), hPlace, Vector.getElem_toList]
  have hHandler : udpReceiver data = uartPacketHandler data := by
    rw [udpReceiver, if_pos ⟨h0, h1⟩, hType]
    rfl
  rw [hHandler, uartPacketHandler, hType, h3, h4, hPayload, if_neg (UInt8.not_lt.mpr hReturned)]

/-- A chunk is stored as the datagram carries it. -/
theorem receive_firmware {data : Nat → Byte} {message : FirmwareData}
    (hData : Carries data (sendFirmwarePacket message))
    (hProtocol : message.protocolVersion = protocolVersionV1)
    (hDevice : message.deviceVersion = currentDeviceVersion)
    (hLength : message.firmwarePayload.length = firmwarePayloadLength) :
    udpReceiver data = .firmwareDataHandler message.firmwarePayload := by
  have hSize : (sendFirmwarePacket message).payload.length = 607 := by
    simp [sendFirmwarePacket, hLength]
  have h0 : data 0 = protocolVersionV1 := (hData 0 (by omega)).trans hProtocol
  have h1 : data 1 = currentDeviceVersion := (hData 1 (by omega)).trans hDevice
  have hType : data 2 = dataTypeFirmware := hData 2 (by omega)
  have hBuffer : flashWriteBuffer data = message.firmwarePayload := by
    refine List.ext_getElem (by simp [flashWriteBuffer, hLength]) fun i hi hi' => ?_
    have hi600 : i < 600 := hi'.trans_eq hLength
    have hByte := hData (i + firmwarePayloadOffset) (by simp; omega)
    simp only [flashWriteBuffer, List.getElem_map, List.getElem_range, hByte]
    simp [sendFirmwarePacket]
  rw [udpReceiver_firmware h0 h1 hType, hBuffer]

/-- Bytes and an address as text. -/
def hexZero : HexByte := ⟨'0', '0', by decide⟩

def hexUart : HexByte := ⟨'0', 'D', by decide⟩

def adressZero : AdressText := ⟨Vector.replicate 16 hexZero⟩

section RoundTrips

variable {s : UartReceiver} (hIdle : s.Idle) (slots : Slots) (adress : AdressText)

include hIdle

/-- **Command round trip.** Between two rounds of the coordinator, a command of the router
becomes one command datagram to the device whose address the text stands for, and there one
message to the main process, with the three bytes of the command. -/
theorem command_round_trip (target number state : HexByte) : ∃ datagram,
    Forwards s slots (sendCommandToAbility adress.text target.text number.text state.text)
      dataTypeCommand [datagram] ∧
    datagram.destination = adress.value ∧
    ∀ data, Carries data datagram → ∀ node : MainNode,
      node.receive (udpReceiver data) = node.commandSettingsHandler
        ⟨dataTypeCommand, target.value, number.value, state.value⟩ := by
  have hType : fromhex dataTypeCommandHex = some [dataTypeCommand] := by decide
  have hWritten := sendToAdress_frame adress hType [target, number, state] (by simp)
  have hForwards := (forwards_iff hIdle hWritten (by simp [nodeFrame_length])
    (by simp [nodeFrame_length]) dataTypeCommand _).mpr
    (relay_command s.uartData slots adress.value protocolVersionV1 deviceVersionV1 target.value
      number.value state.value)
  exact ⟨_, hForwards, rfl, fun data hData => receive_command hData rfl rfl⟩

/-- **Chunk round trip.** A chunk of any bytes is one datagram of 607 bytes, and the node
stores the chunk that the router had. -/
theorem firmware_chunk_round_trip {chunk : List Byte}
    (hLength : chunk.length = firmwarePayloadLength) : ∃ datagram,
    Forwards s slots (sendFirmwareChunkToNode adress.text chunk) dataTypeFirmware [datagram] ∧
    datagram.destination = adress.value ∧ datagram.payload.length = 607 ∧
    ∀ data, Carries data datagram → udpReceiver data = .firmwareDataHandler chunk ∧
      ∀ node : FwUpdate, node.receive (udpReceiver data) = node.firmwareDataHandler chunk := by
  have hFrame : (firmwareFrame adress.value protocolVersionV1 deviceVersionV1 chunk).length =
      623 := by
    rw [firmwareFrame_length, hLength]
    rfl
  have hWritten : sendFirmwareChunkToNode adress.text chunk = .ok (dataCut 25 (by decide)
      (v3Frame 0xFF (firmwareFrame adress.value protocolVersionV1 deviceVersionV1 chunk))) := by
    have hParts : adress.value.toList ++ [protocolVersionV1, deviceVersionV1, dataTypeFirmware] ++
        [0xFF, 0xFF, 0xFF, 0xFF] ++ chunk =
          firmwareFrame adress.value protocolVersionV1 deviceVersionV1 chunk := by
      rw [firmwareFrame, nodeFrame]
      simp only [List.append_assoc]
    rw [sendFirmwareChunkToNode, adress.ipv6AdressParse_text, Option.bind_some,
      adress.fromhex_parsed]
    dsimp only
    rw [hParts, uartSend_eq (by omega)]
  have hForwards := (forwards_iff hIdle hWritten (by omega) (by omega) dataTypeFirmware _).mpr
    (relay_firmware s.uartData slots adress.value protocolVersionV1 deviceVersionV1 hLength)
  have hSize : (sendFirmwarePacket ⟨adress.value, protocolVersionV1, deviceVersionV1, chunk, 0xFF,
      0xFF, 0xFF, 0xFF, true, firmwarePayloadLength⟩).payload.length = 607 := by
    simp [sendFirmwarePacket, hLength]
  refine ⟨_, hForwards, rfl, hSize, fun data hData => ?_⟩
  have hCall := receive_firmware hData rfl rfl hLength
  refine ⟨hCall, fun node => ?_⟩
  rw [hCall, FwUpdate.receive]

/-- The announced number of chunks is the one that the node expects. -/
theorem new_fw_round_trip {tableSegments : List (List Byte)}
    (hQuantity : tableSegments.length < 65536) : ∃ datagram,
    Forwards s slots (sendFirmwareNewFwCmdToNode adress.text tableSegments) dataTypeFirmwareCmd
      [datagram] ∧
    datagram.destination = adress.value ∧
    ∀ data, Carries data datagram →
      udpReceiver data = .firmwareCmdNewFwHandler tableSegments.length := by
  have hForwards := (forwards_iff hIdle (sendFirmwareNewFwCmdToNode_frame adress hQuantity)
    (by simp [firmwareCmdFrame, nodeFrame_length]) (by simp [firmwareCmdFrame, nodeFrame_length])
    dataTypeFirmwareCmd _).mpr (relay_firmwareCmd s.uartData slots adress.value protocolVersionV1
      deviceVersionV1 dataTypeFirmwareCommandNewFw (UInt8.ofNat (tableSegments.length / 256))
      (UInt8.ofNat tableSegments.length))
  refine ⟨_, hForwards, rfl, fun data hData => ?_⟩
  have h0 : data 0 = protocolVersionV1 := hData 0 (by simp [sendFirmwareCmdPacket])
  have h1 : data 1 = currentDeviceVersion := hData 1 (by simp [sendFirmwareCmdPacket])
  have h2 : data 2 = dataTypeFirmwareCmd := hData 2 (by simp [sendFirmwareCmdPacket])
  have h3 : data 3 = dataTypeFirmwareCommandNewFw := hData 3 (by simp [sendFirmwareCmdPacket])
  have hHigh : data 4 = UInt8.ofNat (tableSegments.length / 256) :=
    hData 4 (by simp [sendFirmwareCmdPacket])
  have hLow : data 5 = UInt8.ofNat tableSegments.length :=
    hData 5 (by simp [sendFirmwareCmdPacket])
  rw [udpReceiver_firmwareCmd h0 h1 h2, h3, hHigh, hLow, firmwareCommand, if_pos rfl,
    u16_ofNat hQuantity]

end RoundTrips

/-- A command after reset. -/
theorem command_round_trip_zero : ∃ datagram,
    Forwards reset Slots.reset (sendCommandToAbility adressZero.text hexZero.text hexZero.text
      hexZero.text) dataTypeCommand [datagram] ∧
    datagram.destination = adressZero.value ∧
    ∀ data, Carries data datagram → ∀ node : MainNode,
      node.receive (udpReceiver data) = node.commandSettingsHandler
        ⟨dataTypeCommand, hexZero.value, hexZero.value, hexZero.value⟩ :=
  command_round_trip idle_reset Slots.reset adressZero hexZero hexZero hexZero

/-- A chunk of ones after reset. -/
theorem firmware_chunk_round_trip_ones : ∃ datagram,
    Forwards reset Slots.reset (sendFirmwareChunkToNode adressZero.text
      (List.replicate 600 0xFF)) dataTypeFirmware [datagram] ∧
    datagram.destination = adressZero.value ∧ datagram.payload.length = 607 ∧
    ∀ data, Carries data datagram →
      udpReceiver data = .firmwareDataHandler (List.replicate 600 0xFF) ∧
      ∀ node : FwUpdate, node.receive (udpReceiver data) =
        node.firmwareDataHandler (List.replicate 600 0xFF) :=
  firmware_chunk_round_trip idle_reset Slots.reset adressZero List.length_replicate


/-- A call of `send_uart_data_to_ability`, in this state of the coordinator, has one UART
datagram sent to its address, from which the node gets both lengths and the payload. -/
def Bridges (s : Polling) (adress : AdressText) (returned length : HexByte)
    (payload : Vector HexByte 16) : Prop :=
  ∃ datagram, Forwards s.receiver s.slots (sendUartDataToAbility adress.text returned.text
      length.text (payload.toList.map HexByte.text)) dataTypeUart [datagram] ∧
    datagram.destination = adress.value ∧
    ∀ data, Carries data datagram → udpReceiver data = .uartPacketHandler dataTypeUart
      returned.value length.value (payload.map HexByte.value)

/-- What the router writes for the bridge is a UART frame. -/
theorem sendUartDataToAbility_frame (adress : AdressText) (returned length : HexByte)
    (payload : Vector HexByte 16) :
    sendUartDataToAbility adress.text returned.text length.text
        (payload.toList.map HexByte.text) =
      .ok (dataCut 25 (by decide) (v3Frame 0xFF (uartFrame adress.value protocolVersionV1
        deviceVersionV1 length.value returned.value (payload.map HexByte.value)))) := by
  have hType : fromhex dataTypeUartHex = some [dataTypeUart] := by decide
  have hPayload : (List.range 16).map (fun i =>
      (payload.toList.map HexByte.text).getD i uartFfData) = payload.toList.map HexByte.text := by
    refine List.ext_getElem (by simp) fun i hFirst hSecond => ?_
    have hi : i < 16 := by simpa using hFirst
    simp [hi]
  have hFrame := sendToAdress_frame adress hType (length :: returned :: payload.toList) (by simp)
  rw [sendUartDataToAbility, hPayload, uartFrame, Vector.toList_map]
  exact hFrame

section Bridge

variable {s : Polling} (hIdle : s.receiver.Idle) (adress : AdressText) (returned length : HexByte)
  (payload : Vector HexByte 16)

include hIdle

/-- What is forwarded for the bridge is what `relay_uart` says. -/
theorem forwards_uart_iff (datagrams : List Datagram) :
    Forwards s.receiver s.slots (sendUartDataToAbility adress.text returned.text length.text
        (payload.toList.map HexByte.text)) dataTypeUart datagrams ↔
      datagrams = if (payload.get typePlace).value = dataTypeUart then
        [sendUartPacket ⟨adress.value, protocolVersionV1, deviceVersionV1, length.value,
          returned.value, payload.map HexByte.value, true⟩]
      else if s.slots.uartMessage.readyToSend then [sendUartPacket s.slots.uartMessage]
      else [] := by
  have hLength : (uartFrame adress.value protocolVersionV1 deviceVersionV1 length.value
      returned.value (payload.map HexByte.value)).length = 37 := by
    rw [uartFrame, nodeFrame_length]
    simp
  obtain ⟨sent, hRelay, hSent⟩ := relay_uart s.receiver.uartData s.slots adress.value
    protocolVersionV1 deviceVersionV1 length.value returned.value (payload.map HexByte.value)
  have hByte : (payload.map HexByte.value).get typePlace = (payload.get typePlace).value :=
    Vector.getElem_map ..
  rw [hByte] at hSent
  rw [forwards_iff hIdle (sendUartDataToAbility_frame adress returned length payload) (by omega)
    (by omega), ← hSent]
  constructor
  · rintro ⟨other, hOther, rfl⟩
    rw [Option.some.inj (hRelay.symm.trans hOther)]
  · rintro rfl
    exact ⟨sent, hRelay, rfl⟩

/-- Without the type in the payload, the datagram is not of this call. -/
theorem Bridges.payload_byte (hTyped : s.slots.UartTyped)
    (hBridges : Bridges s adress returned length payload) : (payload.get typePlace).value = dataTypeUart := by
  obtain ⟨datagram, hForwards, -, hReceived⟩ := hBridges
  rw [forwards_uart_iff hIdle] at hForwards
  by_contra hByte
  rw [if_neg hByte] at hForwards
  split_ifs at hForwards with hReady
  · rw [List.cons.injEq] at hForwards
    obtain ⟨rfl, -⟩ := hForwards
    have hSeen : Carries (fun i => (sendUartPacket s.slots.uartMessage).payload.getD i 0)
        (sendUartPacket s.slots.uartMessage) := fun i h => by simp [h]
    have hPayload := udpReceiver_uart_payload (hReceived _ hSeen)
    have hMap : (payload.map HexByte.value).get typePlace = (payload.get typePlace).value :=
      Vector.getElem_map ..
    have hSent : (sendUartPacket s.slots.uartMessage).payload.getD 10 0 =
        s.slots.uartMessage.payload.get typePlace := by
      show _ = s.slots.uartMessage.payload[5]
      simp [sendUartPacket]
    have hPlace := congrArg (fun bytes => bytes.get typePlace) hPayload
    simp only [hMap] at hPlace
    exact hByte ((hPlace.trans (Vector.getElem_ofFn _)).trans (hSent.trans (hTyped hReady)))

end Bridge

/-- **Serial-bridge round trip.** The coordinator looks for the type of the packet among the
bytes of the payload: the bridge works if the sixth of these happens to be the type. -/
theorem serial_bridge_round_trip_iff {s : Polling}
    (run : Reaches Polling.step (fun _ _ => True) (Polling.start true) s)
    (hIdle : s.receiver.Idle) (adress : AdressText) (returned length : HexByte)
    (hReturned : returned.value ≤ 16) (payload : Vector HexByte 16) :
    Bridges s adress returned length payload ↔ (payload.get typePlace).value = dataTypeUart := by
  constructor
  · exact Bridges.payload_byte hIdle adress returned length payload (uartTyped_of_reaches run)
  · intro hByte
    have hForwards := (forwards_uart_iff hIdle adress returned length payload _).mpr
      (if_pos hByte).symm
    exact ⟨_, hForwards, rfl, fun data hData => receive_uart hData rfl rfl hReturned⟩

/-- Sixteen times the type, from reset. -/
theorem serial_bridge_round_trip_uart : hexZero.value ≤ 16 ∧
    Bridges (Polling.start true) adressZero hexZero hexZero (Vector.replicate 16 hexUart) :=
  ⟨by decide, (serial_bridge_round_trip_iff Reaches.start idle_reset adressZero hexZero hexZero
    (by decide) (Vector.replicate 16 hexUart)).mpr (by decide)⟩

/-- Sixteen zeros are not sent. -/
theorem serial_bridge_round_trip_fails : ¬ ∀ (s : Polling)
    (_ : Reaches Polling.step (fun _ _ => True) (Polling.start true) s)
    (_ : s.receiver.Idle) (adress : AdressText) (returned length : HexByte)
    (_ : returned.value ≤ 16) (_ : length.value ≤ 16) (payload : Vector HexByte 16),
    Bridges s adress returned length payload := by
  intro h
  have hBridges := h _ Reaches.start idle_reset adressZero hexZero hexZero (by decide)
    (by decide) (Vector.replicate 16 hexZero)
  have hByte := Bridges.payload_byte idle_reset adressZero hexZero hexZero _
    (uartTyped_of_reaches Reaches.start) hBridges
  exact absurd hByte (by decide)

end Smarthome.Wire
