import Smarthome.Coordinator.Polling

/-! From one frame for a node to one datagram of its type. What the other slots hold, and
what the frame puts into them by chance, is sent with other types. -/
namespace Smarthome.Coordinator

open Semantics UartReceiver

/-- The packet type of a datagram. -/
def HasType (typeByte : Byte) (datagram : Datagram) : Prop :=
  datagram.payload[2]? = some typeByte

instance (typeByte : Byte) : DecidablePred (HasType typeByte) :=
  fun _ => inferInstanceAs (Decidable (_ = _))

namespace Slots

variable (slots : Slots)

theorem hasType_datagram (kind other : SlotKind) :
    HasType kind.typeCode (slots.datagram other) ↔ other = kind := by
  have hPayload : (slots.datagram other).payload[2]? = some other.typeCode := by
    cases other <;> rfl
  have hCodes : other.typeCode = kind.typeCode ↔ other = kind := by
    cases kind <;> cases other <;> decide
  rw [HasType, hPayload, Option.some_inj, hCodes]

/-- The process sends the slots in this order. -/
theorem sendCommandProcess_eq : (sendCommandProcess true slots).2 =
    [.command, .firmware, .firmwareCmd, .uart].flatMap fun kind =>
      transmit true (slots.readyToSend kind) (slots.datagram kind) := by
  simp [sendCommandProcess, readyToSend, datagram]

/-- Of one round of the process, the datagrams of one type come from its slot. -/
theorem sent_of_type (kind : SlotKind) :
    (sendCommandProcess true slots).2.filter (fun d => decide (HasType kind.typeCode d)) =
      if slots.readyToSend kind then [slots.datagram kind] else [] := by
  have hOne (other : SlotKind) :
      (transmit true (slots.readyToSend other) (slots.datagram other)).filter
        (fun d => decide (HasType kind.typeCode d)) =
          if other = kind ∧ slots.readyToSend kind then [slots.datagram kind] else [] := by
    have hType := slots.hasType_datagram kind other
    by_cases hEq : other = kind
    · rw [hEq] at hType ⊢
      unfold transmit
      cases slots.readyToSend kind <;> simp [hType]
    · unfold transmit
      cases slots.readyToSend other <;> simp [hType, hEq]
  rw [sendCommandProcess_eq, List.filter_flatMap]
  simp only [hOne]
  cases kind <;> simp

end Slots

/-- After a frame that fills a slot, the process sends one datagram of its type. -/
theorem relay_of_fills (slots : Slots) {packet : UartPacket} {effect : PacketEffect}
    (hEffect : uartPacketProcessed packet = some effect) (kind : SlotKind)
    (hReady : (effect.store slots).readyToSend kind = true) :
    ∃ sent, relay slots packet = some sent ∧
      sent.filter (fun d => decide (HasType kind.typeCode d)) =
        [(effect.store slots).datagram kind] := by
  refine ⟨_, by rw [relay, hEffect, Option.map_some], ?_⟩
  rw [Slots.sent_of_type, if_pos hReady]

section Frames

variable (buffer : Nat → Byte) (slots : Slots) (address : Ipv6Address) (pv dv dataType : Byte)

/-- The slot, after a command frame, holds all the fields of the frame. -/
theorem commandMessage_frame (target number state : Byte) :
    commandMessage (overlay buffer 0
      (nodeFrame address pv dv dataType [target, number, state])) =
        ⟨address, pv, dv, target, number, state, true⟩ := by
  obtain ⟨h16, h17, -⟩ :=
    overlay_nodeFrame_header buffer address pv dv dataType [target, number, state]
  have hBody {i : Nat} (h : i < 3) :=
    overlay_nodeFrame_body buffer address pv dv dataType [target, number, state] h
  rw [commandMessage, overlay_nodeFrame_address, h16, h17]
  congr 1
  · exact hBody (i := 0) (by decide)
  · exact hBody (i := 1) (by decide)
  · exact hBody (i := 2) (by decide)

/-- A command frame is sent on as one command. -/
theorem relay_command (target number state : Byte) : ∃ sent,
    relay slots (packetOf buffer
      (nodeFrame address pv dv dataTypeCommand [target, number, state])) = some sent ∧
    sent.filter (fun d => decide (HasType dataTypeCommand d)) =
      [sendCommandPacket ⟨address, pv, dv, target, number, state, true⟩] := by
  obtain ⟨-, -, hType⟩ :=
    overlay_nodeFrame_header buffer address pv dv dataTypeCommand [target, number, state]
  have hMessage := commandMessage_frame buffer address pv dv dataTypeCommand target number state
  generalize hPacket : packetOf buffer
    (nodeFrame address pv dv dataTypeCommand [target, number, state]) = packet
  have hData : packet.uartData =
      overlay buffer 0 (nodeFrame address pv dv dataTypeCommand [target, number, state]) := by
    rw [← hPacket]
    rfl
  rw [← hData] at hType hMessage
  have hEffect : uartPacketProcessed packet = some (fixedEffect packet.uartData) := by
    refine uartPacketProcessed_of_ne ?_
    rw [hType]
    decide
  have hStore : ((fixedEffect packet.uartData).store slots).commandMessage =
      ⟨address, pv, dv, target, number, state, true⟩ := by
    rw [PacketEffect.store, fixedEffect, if_pos hType, hMessage]
    rfl
  obtain ⟨sent, hRelay, hSent⟩ :=
    relay_of_fills slots hEffect .command (by rw [Slots.readyToSend, hStore])
  refine ⟨sent, hRelay, hSent.trans ?_⟩
  rw [Slots.datagram, hStore]

/-- A firmware command frame is sent on as one firmware command. -/
theorem relay_firmwareCmd (command x y : Byte) : ∃ sent,
    relay slots (packetOf buffer (firmwareCmdFrame address pv dv command x y)) = some sent ∧
    sent.filter (fun d => decide (HasType dataTypeFirmwareCmd d)) =
      [sendFirmwareCmdPacket ⟨address, pv, dv, command, x, y, true⟩] := by
  obtain ⟨effect, hEffect, hMessage⟩ :=
    uartPacketProcessed_firmwareCmd buffer address pv dv command x y
  have hStore : (effect.store slots).firmwareCmdMessage =
      ⟨address, pv, dv, command, x, y, true⟩ := by
    rw [PacketEffect.store, hMessage, Option.getD_some]
  obtain ⟨sent, hRelay, hSent⟩ :=
    relay_of_fills slots hEffect .firmwareCmd (by rw [Slots.readyToSend, hStore])
  refine ⟨sent, hRelay, hSent.trans ?_⟩
  rw [Slots.datagram, hStore]

/-- The data of a frame with bytes for the UART of a node. -/
def uartFrame (length returnedLength : Byte) (payload : Vector Byte 16) : List Byte :=
  nodeFrame address pv dv dataTypeUart ([length, returnedLength] ++ payload.toList)

theorem uartMessage_frame (length returnedLength : Byte) (payload : Vector Byte 16) :
    uartMessage (overlay buffer 0 (uartFrame address pv dv length returnedLength payload)) =
      ⟨address, pv, dv, length, returnedLength, payload, true⟩ := by
  have hBody {i : Nat} (h : i < ([length, returnedLength] ++ payload.toList).length) :=
    overlay_nodeFrame_body buffer address pv dv dataTypeUart
      ([length, returnedLength] ++ payload.toList) h
  obtain ⟨h16, h17, -⟩ := overlay_nodeFrame_header buffer address pv dv dataTypeUart
    ([length, returnedLength] ++ payload.toList)
  rw [uartMessage, uartFrame, overlay_nodeFrame_address, h16, h17]
  congr 1
  · exact hBody (i := 0) (by simp)
  · exact hBody (i := 1) (by simp)
  · refine Vector.ext fun i hi => ?_
    have hIndex : 21 + i = 19 + (2 + i) := by omega
    have hLess : 2 + i < ([length, returnedLength] ++ payload.toList).length := by
      simp only [List.length_append, Vector.length_toList, List.length_cons, List.length_nil]
      omega
    rw [Vector.getElem_ofFn, hIndex, hBody hLess, List.getElem_append_right (by simp)]
    simp

theorem typePlace_lt : 5 < 16 := by decide

/-- The byte of the payload that is in the place 26 of the frame. -/
def typePlace : Fin 16 := ⟨5, typePlace_lt⟩

/-- The byte that the coordinator takes for the type of the frame is one of the payload. -/
theorem uartFrame_byte26 (length returnedLength : Byte) (payload : Vector Byte 16) :
    overlay buffer 0 (uartFrame address pv dv length returnedLength payload) 26 =
      payload.get typePlace :=
  (overlay_nodeFrame_body buffer address pv dv dataTypeUart
    ([length, returnedLength] ++ payload.toList) (i := 7) (by simp)).trans (by simp; rfl)

/-- What the process sends of type UART after a UART frame: the bytes of the frame if one of
them is in the place of the type, or else what the slot has held. -/
theorem relay_uart (length returnedLength : Byte) (payload : Vector Byte 16) : ∃ sent,
    relay slots (packetOf buffer (uartFrame address pv dv length returnedLength payload)) =
      some sent ∧
    sent.filter (fun d => decide (HasType dataTypeUart d)) =
      if payload.get typePlace = dataTypeUart then
        [sendUartPacket ⟨address, pv, dv, length, returnedLength, payload, true⟩]
      else if slots.uartMessage.readyToSend then [sendUartPacket slots.uartMessage] else [] := by
  obtain ⟨-, -, hType⟩ := overlay_nodeFrame_header buffer address pv dv dataTypeUart
    ([length, returnedLength] ++ payload.toList)
  have hMessage := uartMessage_frame buffer address pv dv length returnedLength payload
  have hByte := uartFrame_byte26 buffer address pv dv length returnedLength payload
  rw [← uartFrame] at hType
  generalize hPacket : packetOf buffer
    (uartFrame address pv dv length returnedLength payload) = packet
  have hData : packet.uartData =
      overlay buffer 0 (uartFrame address pv dv length returnedLength payload) := by
    rw [← hPacket]
    rfl
  rw [← hData] at hType hMessage hByte
  have hEffect : uartPacketProcessed packet = some (fixedEffect packet.uartData) := by
    refine uartPacketProcessed_of_ne ?_
    rw [hType]
    decide
  have hSent := ((fixedEffect packet.uartData).store slots).sent_of_type .uart
  refine ⟨_, by rw [relay, hEffect, Option.map_some], hSent.trans ?_⟩
  rw [Slots.readyToSend, Slots.datagram, PacketEffect.store, fixedEffect, hByte, hMessage]
  split_ifs <;> simp_all

/-- A full UART slot has the type among the bytes of its payload. -/
def Slots.UartTyped (slots : Slots) : Prop :=
  slots.uartMessage.readyToSend = true → slots.uartMessage.payload.get typePlace = dataTypeUart

theorem Slots.uartTyped_store {slots : Slots} (hTyped : slots.UartTyped) {packet : UartPacket}
    {effect : PacketEffect} (h : uartPacketProcessed packet = some effect) :
    (effect.store slots).UartTyped := by
  have hMessage := uartPacketProcessed_uartMessage h
  by_cases hByte : packet.uartData 26 = dataTypeUart
  · rw [if_pos hByte] at hMessage
    have hSlot : (effect.store slots).uartMessage = Coordinator.uartMessage packet.uartData := by
      rw [PacketEffect.store, hMessage, Option.getD_some]
    rw [UartTyped, hSlot]
    exact fun _ => (Vector.getElem_ofFn _).trans hByte
  · rw [if_neg hByte] at hMessage
    rw [UartTyped, PacketEffect.store, hMessage, Option.getD_none]
    exact hTyped

theorem Slots.uartTyped_clearReady {slots : Slots} (hTyped : slots.UartTyped) (kind : SlotKind) :
    (slots.clearReady kind).UartTyped := by
  cases kind with
  | command => exact hTyped
  | firmware => exact hTyped
  | firmwareCmd => exact hTyped
  | uart => exact fun hReady => absurd hReady Bool.false_ne_true

/-- In every run of the coordinator, the UART slot is filled by this one byte only. -/
theorem uartTyped_of_reaches {udpConn : Bool} {s : Polling}
    (run : Reaches Polling.step (fun _ _ => True) (Polling.start udpConn) s) :
    s.slots.UartTyped := by
  have hReset : Slots.reset.UartTyped := fun hReady => absurd hReady Bool.false_ne_true
  refine run.invariant (fun s => s.slots.UartTyped) hReset fun s event t hTyped _ hStep => ?_
  cases event with
  | uart uartChar =>
      rcases Polling.uart_cases hStep with ⟨-, rfl⟩ | ⟨packet, effect, -, hEffect, rfl⟩
      · exact hTyped
      · rw [Polling.accept]
        split_ifs
        · exact hReset
        · exact Slots.uartTyped_store hTyped hEffect
  | poll =>
      obtain rfl := Option.some.inj hStep
      unfold Polling.poll
      split
      · exact hTyped
      · split_ifs
        · exact hTyped
        · exact hTyped
      · exact Slots.uartTyped_clearReady hTyped _

/-- The data of a frame with a chunk of an image. -/
def firmwareFrame (chunk : List Byte) : List Byte :=
  nodeFrame address pv dv dataTypeFirmware ([0xFF, 0xFF, 0xFF, 0xFF] ++ chunk)

theorem firmwareFrame_length (chunk : List Byte) :
    (firmwareFrame address pv dv chunk).length = 23 + chunk.length := by
  rw [firmwareFrame, nodeFrame_length, List.length_append]
  simp
  omega

/-- The slot, after a chunk frame, holds all the fields of the frame. -/
theorem firmwareMessage_frame {chunk : List Byte} (hLength : chunk.length = firmwarePayloadLength) :
    firmwareMessage (packetOf buffer (firmwareFrame address pv dv chunk)) =
      some ⟨address, pv, dv, chunk, 0xFF, 0xFF, 0xFF, 0xFF, true, firmwarePayloadLength⟩ := by
  have hBody {i : Nat} (h : i < ([0xFF, 0xFF, 0xFF, 0xFF] ++ chunk).length) :
      overlay buffer 0 (firmwareFrame address pv dv chunk) (19 + i) =
        ([0xFF, 0xFF, 0xFF, 0xFF] ++ chunk)[i] :=
    overlay_nodeFrame_body buffer address pv dv dataTypeFirmware _ h
  have hAddress : destinationAddress (overlay buffer 0 (firmwareFrame address pv dv chunk)) =
      address := overlay_nodeFrame_address ..
  obtain ⟨h16, h17, -⟩ : overlay buffer 0 (firmwareFrame address pv dv chunk) 16 = pv ∧
      overlay buffer 0 (firmwareFrame address pv dv chunk) 17 = dv ∧
      overlay buffer 0 (firmwareFrame address pv dv chunk) 18 = dataTypeFirmware :=
    overlay_nodeFrame_header ..
  have hFrame : (firmwareFrame address pv dv chunk).length = 623 := by
    rw [firmwareFrame_length, hLength]
    rfl
  have hPayload : (List.range firmwarePayloadLength).map (fun i =>
      overlay buffer 0 (firmwareFrame address pv dv chunk) (23 + i)) = chunk := by
    refine List.ext_getElem (by simp [hLength]) fun i hi hi' => ?_
    have hAddressed : 23 + i = 19 + (4 + i) := by omega
    have hIndex : 4 + i < ([0xFF, 0xFF, 0xFF, 0xFF] ++ chunk).length := by
      simp only [List.length_append, List.length_cons, List.length_nil]
      omega
    rw [List.getElem_map, List.getElem_range, hAddressed, hBody hIndex,
      List.getElem_append_right (by simp)]
    simp
  have hSize : fwPayloadLength 623 = firmwarePayloadLength := rfl
  rw [firmwareMessage, packetOf]
  simp only [hFrame, hSize, if_pos le_rfl, hPayload, Option.some.injEq, FirmwareData.mk.injEq,
    and_true, true_and]
  exact ⟨hAddress, h16, h17, hBody (i := 0) (by simp), hBody (i := 1) (by simp),
    hBody (i := 2) (by simp), hBody (i := 3) (by simp)⟩

/-- A frame of type firmware fills its slot, whatever else it fills. -/
theorem uartPacketProcessed_firmware {packet : UartPacket} {message : FirmwareData}
    (hType : packet.uartData 18 = dataTypeFirmware)
    (hMessage : firmwareMessage packet = some message) :
    uartPacketProcessed packet =
      some { fixedEffect packet.uartData with firmwareMessage := some message } := by
  rw [uartPacketProcessed, if_pos hType, hMessage, Option.map_some]

/-- A chunk frame is sent on as one chunk. -/
theorem relay_firmware {chunk : List Byte} (hLength : chunk.length = firmwarePayloadLength) :
    ∃ sent, relay slots (packetOf buffer (firmwareFrame address pv dv chunk)) = some sent ∧
      sent.filter (fun d => decide (HasType dataTypeFirmware d)) =
        [sendFirmwarePacket
          ⟨address, pv, dv, chunk, 0xFF, 0xFF, 0xFF, 0xFF, true, firmwarePayloadLength⟩] := by
  have hMessage := firmwareMessage_frame buffer address pv dv hLength
  have hType : (packetOf buffer (firmwareFrame address pv dv chunk)).uartData 18 =
      dataTypeFirmware := (overlay_nodeFrame_header buffer address pv dv dataTypeFirmware _).2.2
  generalize packetOf buffer (firmwareFrame address pv dv chunk) = packet at hMessage hType ⊢
  have hEffect := uartPacketProcessed_firmware hType hMessage
  obtain ⟨sent, hRelay, hSent⟩ := relay_of_fills slots hEffect .firmware rfl
  exact ⟨sent, hRelay, hSent⟩

end Frames

end Smarthome.Coordinator
