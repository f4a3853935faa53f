import Smarthome.Router.RawPackets

/-! Which raw packets the router survives, in each of its modes. -/
namespace Smarthome.Router

open Semantics LuaPattern Coordinator

/-- The handlers of buttons compare with globals that are not set, so no switch is known. -/
theorem buttonSensorEventHandler_eq (state : LogicState) (currentSwitch buttonName : Text)
    (currentEvent : ButtonEvent) :
    Logic.buttonSensorEventHandler state currentSwitch buttonName currentEvent = .ok state := by
  simp [Logic.buttonSensorEventHandler, Logic.switchMiniBed, Logic.switchMiniTable,
    Logic.switchMiniDoor, Logic.switchWc, Logic.switchMainRoom, Logic.switchKitchen]
  rfl

theorem upperHex02_eq_iff {b value : Byte} {text : Text} (h : upperHex02 value = text) :
    upperHex02 b = text ↔ b = value :=
  upperHex02_injective.eq_iff' h

theorem motionSensorDataProcessing_eq (event : Byte) :
    motionSensorDataProcessing (upperHex02 event) =
      if event = 0x02 then .ok () else .error .luaError := by
  have hMotion : upperHex02 event = ['0', '1'] ↔ event = 0x01 := upperHex02_eq_iff (by decide)
  have hNomotion : upperHex02 event = ['0', '2'] ↔ event = 0x02 := upperHex02_eq_iff (by decide)
  unfold motionSensorDataProcessing deviceMotionsensorEvents
  by_cases hFirst : event = 0x01
  · subst hFirst
    rfl
  · rw [if_neg (mt hMotion.mp hFirst)]
    by_cases hSecond : event = 0x02
    · rw [if_pos (hNomotion.mpr hSecond), if_pos hSecond]
      rfl
    · rw [if_neg (mt hNomotion.mp hSecond), if_neg hSecond]

theorem fromhex_upperHex02 (b : Byte) : fromhex (upperHex02 b) = some [b] := by
  have hOne := fromhex_flatMap prints_upperHex02 [b]
  rwa [List.flatMap_singleton] at hOne

theorem buttonDataProcessing_eq (state : LogicState) (ipv6Adress : Text) (number event : Byte) :
    buttonDataProcessing state ipv6Adress (upperHex02 number) (upperHex02 event) =
      if event ∈ [0x01, 0x02, 0x03, 0x04] then .ok state else .error .luaError := by
  have hCode {value : Byte} {text : Text} (h : upperHex02 value = text) :
      upperHex02 event = text ↔ event = value := upperHex02_eq_iff h
  have hEvents : deviceButtonEvents (upperHex02 event) =
      if event = 0x01 then some .click else if event = 0x02 then some .longclick
      else if event = 0x03 then some .on else if event = 0x04 then some .off else none := by
    simp only [deviceButtonEvents, hCode (show upperHex02 0x01 = ['0', '1'] by decide),
      hCode (show upperHex02 0x02 = ['0', '2'] by decide),
      hCode (show upperHex02 0x03 = ['0', '3'] by decide),
      hCode (show upperHex02 0x04 = ['0', '4'] by decide)]
  rw [buttonDataProcessing, fromhex_upperHex02, hEvents]
  dsimp only
  simp only [List.mem_cons, List.not_mem_nil, or_false, buttonSensorEventHandler_eq]
  by_cases h1 : event = 0x01
  · simp [h1]
  · by_cases h2 : event = 0x02
    · simp [h2]
    · by_cases h3 : event = 0x03
      · simp [h3]
      · by_cases h4 : event = 0x04
        · simp [h4]
        · simp [h1, h2, h3, h4]

namespace RawPacket

/-- An event code that the router knows, if the packet is one of a motion sensor or a
button. A motion itself is none that it survives. -/
def KnownEvent (packet : RawPacket) : Prop :=
  (packet.byte 3 = 0x07 → packet.byte 6 = 0x02) ∧
    (packet.byte 3 = 0x01 → packet.byte 6 ∈ [0x01, 0x02, 0x03, 0x04])

/-- The number of the chunk that a firmware command asks for. -/
def chunkNumber (packet : RawPacket) : Nat :=
  256 * (packet.byte 5).toNat + (packet.byte 4).toNat

/-- A packet of the version and of the type that the router looks for. -/
def Of (packet : RawPacket) (type : Byte) : Prop :=
  (packet.byte 0 = 0x01 ∧ packet.byte 1 = 0x01) ∧ packet.byte 2 = type

instance (packet : RawPacket) (type : Byte) : Decidable (packet.Of type) :=
  inferInstanceAs (Decidable (_ ∧ _))

/-- What the router survives: an event that it knows and a chunk that it has. -/
def Harmless (packet : RawPacket) (table : Option (List (List Byte))) : Prop :=
  (packet.Of 0x02 → packet.KnownEvent) ∧
    (packet.Of 0x0E → ∀ segments ∈ table, packet.chunkNumber < segments.length)

/-- A message that an update has succeeded. -/
def UpdateSuccess (packet : RawPacket) : Prop := packet.Of 0x09 ∧ packet.byte 3 = 0x0C

theorem sensorDataProcessing_eq (state : RouterState) (packet : RawPacket) :
    (packet.KnownEvent →
      sensorDataProcessing state packet.adress packet.table = .ok state) ∧
    (¬ packet.KnownEvent →
      sensorDataProcessing state packet.adress packet.table = .error .luaError) := by
  have hMotion : upperHex02 (packet.byte 3) = ['0', '7'] ↔ packet.byte 3 = 0x07 :=
    upperHex02_eq_iff (by decide)
  have hButton : upperHex02 (packet.byte 3) = ['0', '1'] ↔ packet.byte 3 = 0x01 :=
    upperHex02_eq_iff (by decide)
  have hOther : packet.byte 3 = 0x07 → packet.byte 3 ≠ 0x01 := by
    intro h
    rw [h]
    decide
  rw [sensorDataProcessing, packet.table_byte (by decide) (by decide),
    packet.table_byte (by decide) (by decide), packet.table_byte (by decide) (by decide),
    motionSensorDataProcessing_eq, buttonDataProcessing_eq]
  simp only [hMotion, hButton, KnownEvent]
  by_cases hFirst : packet.byte 3 = 0x07
  · by_cases hEvent : packet.byte 6 = 0x02
    · simp [hFirst, hEvent]
    · simp [hFirst, hEvent]
  · by_cases hSecond : packet.byte 3 = 0x01
    · by_cases hEvent : packet.byte 6 ∈ [0x01, 0x02, 0x03, 0x04]
      · simp [hSecond, hEvent]
      · simp [hSecond, hEvent]
    · simp [hFirst, hSecond]
      rfl

/-- A number in the table can be read wherever it stands. -/
theorem hex2Dec_table_byte (packet : RawPacket) {i : Nat} (hFirst : 1 ≤ i) (hLast : i ≤ 20) :
    hex2Dec (packet.table.byte i) = .ok (packet.byte (i + 2)).toNat := by
  have hOne := hex2Dec_flatMap [packet.byte (i + 2)]
  rw [List.flatMap_singleton, ← packet.table_byte hFirst hLast] at hOne
  rw [hOne, List.foldl_cons, List.foldl_nil, Nat.mul_zero, Nat.zero_add]

theorem hex2Dec_table_two (packet : RawPacket) {i j : Nat} (hi : 1 ≤ i ∧ i ≤ 20)
    (hj : 1 ≤ j ∧ j ≤ 20) : hex2Dec (packet.table.byte i ++ packet.table.byte j) =
      .ok (256 * (packet.byte (i + 2)).toNat + (packet.byte (j + 2)).toNat) := by
  have hTwo := hex2Dec_flatMap [packet.byte (i + 2), packet.byte (j + 2)]
  rw [List.flatMap_cons, List.flatMap_singleton, ← packet.table_byte hi.1 hi.2,
    ← packet.table_byte hj.1 hj.2] at hTwo
  rw [hTwo]
  simp

theorem hex2Dec_table_four (packet : RawPacket) :
    hex2Dec (packet.table.byte 12 ++ packet.table.byte 11 ++ packet.table.byte 10 ++
        packet.table.byte 9) =
      .ok (u32 (packet.byte 11) (packet.byte 12) (packet.byte 13) (packet.byte 14)) := by
  have hFour := hex2Dec_flatMap [packet.byte 14, packet.byte 13, packet.byte 12, packet.byte 11]
  simp only [List.flatMap_cons, List.flatMap_nil, List.append_nil, ← List.append_assoc] at hFour
  rw [← packet.table_byte (i := 12) (by decide) (by decide),
    ← packet.table_byte (i := 11) (by decide) (by decide),
    ← packet.table_byte (i := 10) (by decide) (by decide),
    ← packet.table_byte (i := 9) (by decide) (by decide)] at hFour
  rw [hFour]
  simp only [List.foldl_cons, List.foldl_nil, u32, u16]
  congr 1
  omega

theorem statusDataProcessing_eq (state : RouterState) (packet : RawPacket) :
    statusDataProcessing state packet.table = .ok state := by
  unfold statusDataProcessing
  rw [packet.hex2Dec_table_four, packet.hex2Dec_table_byte (by decide) (by decide),
    packet.hex2Dec_table_byte (by decide) (by decide),
    packet.hex2Dec_table_two (by decide) (by decide),
    packet.hex2Dec_table_byte (by decide) (by decide),
    packet.hex2Dec_table_byte (by decide) (by decide)]
  by_cases hFlag : state.flagNonStatusJoinMessage = true
  · rw [if_pos hFlag]
    rfl
  · rw [if_neg hFlag]
    rfl

theorem messageDataProcessing_eq (state : RouterState) (packet : RawPacket) :
    messageDataProcessing state packet.table =
      .ok (if packet.byte 3 = 0x0C then { state with mainCyclePermit := false } else state) := by
  have hErase : upperHex02 (packet.byte 3) = ['0', 'B'] ↔ packet.byte 3 = 0x0B :=
    upperHex02_eq_iff (by decide)
  have hSuccess : upperHex02 (packet.byte 3) = ['0', 'C'] ↔ packet.byte 3 = 0x0C :=
    upperHex02_eq_iff (by decide)
  unfold messageDataProcessing
  rw [packet.hex2Dec_table_byte (by decide) (by decide),
    packet.hex2Dec_table_two (by decide) (by decide),
    packet.table_byte (i := 1) (by decide) (by decide)]
  simp only [hErase, hSuccess]
  by_cases hFirst : packet.byte 3 = 0x0B
  · simp [hFirst]
  · by_cases hSecond : packet.byte 3 = 0x0C
    · simp [hSecond]
      rfl
    · simp only [hFirst, hSecond, if_false]
      split_ifs
      · rfl
      · rfl

/-- A packet that is written is too big for a frame or is written in segments. -/
theorem uartSend_some (binData : List Byte) : ∃ segments, uartSend binData = some segments := by
  by_cases hLe : binData.length ≤ 1500
  · exact ⟨_, uartSend_eq hLe⟩
  · exact ⟨[], by rw [uartSend, if_pos (Nat.lt_of_not_le hLe)]⟩

theorem sendFirmwareChunkToNode_ok (packet : RawPacket) (chunk : List Byte) :
    ∃ sent, sendFirmwareChunkToNode packet.adress chunk = .ok sent := by
  obtain ⟨sent, hSent⟩ := uartSend_some (packet.addr.toList ++
    [protocolVersionV1, deviceVersionV1, dataTypeFirmware] ++ [0xFF, 0xFF, 0xFF, 0xFF] ++ chunk)
  refine ⟨sent, ?_⟩
  rw [sendFirmwareChunkToNode, ipv6AdressParse_adress, Option.bind_some,
    fromhex_flatMap prints_hex02]
  dsimp only
  rw [hSent]

/-- There is a chunk for each number below the number of chunks, and for no other. -/
theorem fwCmdDataProcessing_eq (segments : List (List Byte)) (number : Nat) :
    fwCmdDataProcessing segments number = segments[number]? := by
  rw [fwCmdDataProcessing]
  by_cases hBad : segments.length < number
  · rw [if_pos hBad, List.getElem?_eq_none hBad.le]
  · rw [if_neg hBad]

theorem fwCmdPacketProcessing_spec (state : RouterState) (packet : RawPacket) :
    ((∀ segments ∈ state.otaImageTableSegments, packet.chunkNumber < segments.length) →
      ∃ written, fwCmdPacketProcessing state packet.adress packet.table =
        .ok { state with written }) ∧
    (¬ (∀ segments ∈ state.otaImageTableSegments, packet.chunkNumber < segments.length) →
      fwCmdPacketProcessing state packet.adress packet.table = .error .osExit) := by
  have hNumber (next : Nat → Except Stop RouterState) :
      (hex2Dec (packet.table.byte 3 ++ packet.table.byte 2) >>= next) = next packet.chunkNumber := by
    rw [packet.hex2Dec_table_two (by decide) (by decide)]
    rfl
  unfold fwCmdPacketProcessing
  rw [hNumber]
  obtain ⟨permit, table, flag, deviceList, updateDeviceList, logicState, written⟩ := state
  cases table with
  | none =>
      constructor
      · intro _
        exact ⟨written, rfl⟩
      · intro h
        exact absurd (by simp) h
  | some segments =>
      dsimp only
      rw [fwCmdDataProcessing_eq]
      constructor
      · intro h
        have hChunk : packet.chunkNumber < segments.length := h segments rfl
        obtain ⟨sent, hSent⟩ := packet.sendFirmwareChunkToNode_ok segments[packet.chunkNumber]
        rw [List.getElem?_eq_getElem hChunk]
        dsimp only
        rw [hSent]
        exact ⟨written ++ [sent], rfl⟩
      · intro h
        have hNone : segments.length ≤ packet.chunkNumber := by
          by_contra hChunk
          apply h
          intro table hMem
          cases hMem
          exact Nat.lt_of_not_le hChunk
        rw [List.getElem?_eq_none hNone]

/-- The choice of the handler, in the bytes of the packet. -/
theorem packetProcessing_eq (state : RouterState) (packet : RawPacket) :
    packetProcessing state packet.adress packet.table =
      if packet.Of 0x02 then sensorDataProcessing state packet.adress packet.table
      else if packet.Of 0x06 then statusDataProcessing state packet.table
      else if packet.Of 0x09 then messageDataProcessing state packet.table
      else if packet.Of 0x0E then fwCmdPacketProcessing state packet.adress packet.table
      else .ok state := by
  obtain ⟨hProtocol, hDevice, hType⟩ := packet.table_head
  have hVersion (b : Byte) : upperHex02 b = versionV1 ↔ b = 0x01 := upperHex02_eq_iff (by decide)
  have hSensor : upperHex02 (packet.byte 2) = ['0', '2'] ↔ packet.byte 2 = 0x02 :=
    upperHex02_eq_iff (by decide)
  have hStatus : upperHex02 (packet.byte 2) = ['0', '6'] ↔ packet.byte 2 = 0x06 :=
    upperHex02_eq_iff (by decide)
  have hMessage : upperHex02 (packet.byte 2) = ['0', '9'] ↔ packet.byte 2 = 0x09 :=
    upperHex02_eq_iff (by decide)
  have hFirmware : upperHex02 (packet.byte 2) = ['0', 'E'] ↔ packet.byte 2 = 0x0E :=
    upperHex02_eq_iff (by decide)
  rw [packetProcessing, hProtocol, hDevice, hType]
  simp only [hVersion, hSensor, hStatus, hMessage, hFirmware, Of]
  by_cases hFirst : packet.byte 0 = 0x01 ∧ packet.byte 1 = 0x01
  · simp only [hFirst, true_and, and_self, if_true]
    rfl
  · simp only [hFirst, false_and, if_false]
    rfl

theorem Of.ne {packet : RawPacket} {type other : Byte} (h : packet.Of type) (hOther : type ≠ other) :
    ¬ packet.Of other :=
  fun h' => hOther (h.2.symm.trans h'.2)

/-- What one packet does outside the listing of devices: a harmless one returns
normally, keeps the table, and ends the cycle if and only if it reports a success. -/
theorem packetProcessing_of_harmless (state : RouterState) {packet : RawPacket}
    (h : packet.Harmless state.otaImageTableSegments) :
    ∃ after, packetProcessing state packet.adress packet.table = .ok after ∧
      after.otaImageTableSegments = state.otaImageTableSegments ∧
      (after.mainCyclePermit = true ↔ state.mainCyclePermit = true ∧ ¬ packet.UpdateSuccess) := by
  obtain ⟨hEvent, hChunk⟩ := h
  rw [packetProcessing_eq]
  by_cases hSensor : packet.Of 0x02
  · have hOther : ¬ packet.UpdateSuccess := fun h => hSensor.ne (by decide) h.1
    rw [if_pos hSensor, (sensorDataProcessing_eq state packet).1 (hEvent hSensor)]
    exact ⟨state, rfl, rfl, by simp [hOther]⟩
  · by_cases hStatus : packet.Of 0x06
    · have hOther : ¬ packet.UpdateSuccess := fun h => hStatus.ne (by decide) h.1
      rw [if_neg hSensor, if_pos hStatus, statusDataProcessing_eq]
      exact ⟨state, rfl, rfl, by simp [hOther]⟩
    · by_cases hMessage : packet.Of 0x09
      · rw [if_neg hSensor, if_neg hStatus, if_pos hMessage, messageDataProcessing_eq]
        by_cases hSuccess : packet.byte 3 = 0x0C
        · rw [if_pos hSuccess]
          exact ⟨_, rfl, rfl, by simp [UpdateSuccess, hMessage, hSuccess]⟩
        · rw [if_neg hSuccess]
          exact ⟨state, rfl, rfl, by simp [UpdateSuccess, hSuccess]⟩
      · have hOther : ¬ packet.UpdateSuccess := fun h => hMessage h.1
        by_cases hFirmware : packet.Of 0x0E
        · obtain ⟨written, hWritten⟩ :=
            (fwCmdPacketProcessing_spec state packet).1 (hChunk hFirmware)
          rw [if_neg hSensor, if_neg hStatus, if_neg hMessage, if_pos hFirmware, hWritten]
          exact ⟨_, rfl, rfl, by simp [hOther]⟩
        · rw [if_neg hSensor, if_neg hStatus, if_neg hMessage, if_neg hFirmware]
          exact ⟨state, rfl, rfl, by simp [hOther]⟩

theorem packetProcessing_of_not_harmless (state : RouterState) {packet : RawPacket}
    (h : ¬ packet.Harmless state.otaImageTableSegments) :
    ∃ stop, packetProcessing state packet.adress packet.table = .error stop := by
  rw [packetProcessing_eq]
  rw [Harmless, not_and_or, Classical.not_imp, Classical.not_imp] at h
  rcases h with ⟨hSensor, hEvent⟩ | ⟨hFirmware, hChunk⟩
  · rw [if_pos hSensor, (sensorDataProcessing_eq state packet).2 hEvent]
    exact ⟨_, rfl⟩
  · rw [if_neg (hFirmware.ne (by decide)), if_neg (hFirmware.ne (by decide)),
      if_neg (hFirmware.ne (by decide)), if_pos hFirmware,
      (fwCmdPacketProcessing_spec state packet).2 hChunk]
    exact ⟨_, rfl⟩

/-- The listing of the devices fails for no packet. -/
theorem packetProcessingSeeAdresses_ok (state : RouterState) (packet : RawPacket) :
    ∃ after, packetProcessingSeeAdresses state packet.adress packet.table = .ok after ∧
      after.otaImageTableSegments = state.otaImageTableSegments ∧
      after.mainCyclePermit = state.mainCyclePermit := by
  unfold packetProcessingSeeAdresses
  rw [packet.hex2Dec_table_byte (by decide) (by decide),
    packet.hex2Dec_table_byte (by decide) (by decide)]
  by_cases hStatus : (packet.table.pVersion = versionV1 ∧ packet.table.devVersion = versionV1) ∧
      packet.table.dType = ['0', '6']
  · rw [if_pos hStatus]
    by_cases hListed : packet.adress ∈ state.deviceList
    · simp only [if_pos hListed]
      exact ⟨state, rfl, rfl, rfl⟩
    · simp only [if_neg hListed]
      exact ⟨_, rfl, rfl, rfl⟩
  · rw [if_neg hStatus]
    exact ⟨state, rfl, rfl, rfl⟩

end RawPacket

/-- The calls of `packet_parse` that one `main_cycle` makes. -/
def parseAll (packetProcessingAlt : Bool) (state : RouterState) (packets : List RawPacket) :
    Except Stop RouterState :=
  packets.foldlM (fun state packet => packetParse packetProcessingAlt state packet.text)
    { state with mainCyclePermit := true }

/-- `firmware_update`; an image file that cannot be opened leaves the table as it is. -/
def firmwareUpdate (imageFileBinData : Option (List Byte)) (state : RouterState) : RouterState :=
  { state with
    otaImageTableSegments := (imageFileBinData.map otaImageTableSegments).or
      state.otaImageTableSegments }

/-- One device of an update: the image file as it is read for it and the packets that
come while it is updated. -/
abbrev DeviceUpdate := Option (List Byte) × List RawPacket

/-- The loop over the devices in `fw` and in the second part of `bulk_update`. -/
def updateDevices (state : RouterState) (devices : List DeviceUpdate) : Except Stop RouterState :=
  devices.foldlM (fun state device => parseAll false (firmwareUpdate device.1 state) device.2)
    { state with flagNonStatusJoinMessage := true }

/-- The first part of `bulk_update` lists the devices, from the packets that come meanwhile. -/
def bulkUpdate (state : RouterState) (listed : List RawPacket) (devices : List DeviceUpdate) :
    Except Stop RouterState := do
  let state ← parseAll true state listed
  updateDevices state devices

/-- The variables when the program starts. -/
def initialState : RouterState where
  mainCyclePermit := true
  otaImageTableSegments := none
  flagNonStatusJoinMessage := false
  deviceList := []
  updateDeviceList := []
  logicState := .allOn
  written := []

/-- Every packet is harmless for the chunks that the router has at that time. -/
def HarmlessUpdates : Option (List (List Byte)) → List DeviceUpdate → Prop
  | _, [] => True
  | table, (image, packets) :: devices =>
      (∀ packet ∈ packets, packet.Harmless ((image.map otaImageTableSegments).or table)) ∧
        HarmlessUpdates ((image.map otaImageTableSegments).or table) devices

/-- The calls for harmless packets return normally, and the last state permits another
turn of the cycle if and only if no packet was a success. -/
theorem foldlM_of_harmless (state : RouterState) {packets : List RawPacket}
    (h : ∀ packet ∈ packets, packet.Harmless state.otaImageTableSegments) :
    ∃ after, packets.foldlM (fun state packet => packetParse false state packet.text) state =
        .ok after ∧
      after.otaImageTableSegments = state.otaImageTableSegments ∧
      (after.mainCyclePermit = true ↔
        state.mainCyclePermit = true ∧ ∀ packet ∈ packets, ¬ packet.UpdateSuccess) := by
  induction packets generalizing state with
  | nil => exact ⟨state, rfl, rfl, by simp⟩
  | cons packet packets ih =>
      rw [List.forall_mem_cons] at h
      obtain ⟨next, hNext, hTable, hPermit⟩ := RawPacket.packetProcessing_of_harmless state h.1
      obtain ⟨after, hAfter, hKept, hLast⟩ := ih next (by rw [hTable]; exact h.2)
      refine ⟨after, ?_, hKept.trans hTable, ?_⟩
      · rw [List.foldlM_cons, packet.packetParse_text, if_neg Bool.false_ne_true, hNext]
        exact hAfter
      · rw [hLast, hPermit, List.forall_mem_cons, and_assoc]

/-- A packet that is not harmless ends the program. -/
theorem foldlM_of_not_harmless (state : RouterState) {packets : List RawPacket}
    (h : ¬ ∀ packet ∈ packets, packet.Harmless state.otaImageTableSegments) :
    ∃ stop, packets.foldlM (fun state packet => packetParse false state packet.text) state =
      .error stop := by
  induction packets generalizing state with
  | nil => exact absurd (by simp) h
  | cons packet packets ih =>
      rw [List.foldlM_cons, packet.packetParse_text, if_neg Bool.false_ne_true]
      by_cases hFirst : packet.Harmless state.otaImageTableSegments
      · obtain ⟨next, hNext, hTable, -⟩ := RawPacket.packetProcessing_of_harmless state hFirst
        rw [List.forall_mem_cons] at h
        obtain ⟨stop, hStop⟩ := ih next (by rw [hTable]; exact fun hAll => h ⟨hFirst, hAll⟩)
        refine ⟨stop, ?_⟩
        rw [hNext]
        exact hStop
      · obtain ⟨stop, hStop⟩ := RawPacket.packetProcessing_of_not_harmless state hFirst
        exact ⟨stop, by rw [hStop]; rfl⟩

theorem foldlM_listing (state : RouterState) (packets : List RawPacket) :
    ∃ after, packets.foldlM (fun state packet => packetParse true state packet.text) state =
        .ok after ∧ after.otaImageTableSegments = state.otaImageTableSegments := by
  induction packets generalizing state with
  | nil => exact ⟨state, rfl, rfl⟩
  | cons packet packets ih =>
      obtain ⟨next, hNext, hTable, -⟩ := RawPacket.packetProcessingSeeAdresses_ok state packet
      obtain ⟨after, hAfter, hKept⟩ := ih next
      refine ⟨after, ?_, hKept.trans hTable⟩
      rw [List.foldlM_cons, packet.packetParse_text, if_pos rfl, hNext]
      exact hAfter

theorem updateDevices_ok_iff (state : RouterState) (devices : List DeviceUpdate) :
    (∃ after, updateDevices state devices = .ok after) ↔
      HarmlessUpdates state.otaImageTableSegments devices := by
  have hFold (state : RouterState) : (∃ after, devices.foldlM
      (fun state device => parseAll false (firmwareUpdate device.1 state) device.2) state =
        .ok after) ↔ HarmlessUpdates state.otaImageTableSegments devices := by
    induction devices generalizing state with
    | nil =>
        constructor
        · intro _
          trivial
        · intro _
          exact ⟨state, rfl⟩
    | cons device devices ih =>
        rw [List.foldlM_cons]
        by_cases hFirst : ∀ packet ∈ device.2,
            packet.Harmless (firmwareUpdate device.1 state).otaImageTableSegments
        · obtain ⟨next, hNext, hTable, -⟩ := foldlM_of_harmless
            { firmwareUpdate device.1 state with mainCyclePermit := true } hFirst
          rw [parseAll, hNext]
          have hRest := ih next
          rw [hTable] at hRest
          exact hRest.trans (and_iff_right hFirst).symm
        · obtain ⟨stop, hStop⟩ := foldlM_of_not_harmless
            { firmwareUpdate device.1 state with mainCyclePermit := true } hFirst
          rw [parseAll, hStop]
          constructor
          · rintro ⟨after, hAfter⟩
            cases hAfter
          · intro h
            exact absurd h.1 hFirst
  exact hFold { state with flagNonStatusJoinMessage := true }

/-- **Which packets the router survives.** The mode 'main' goes on with all packets if and
only if each has an event that the router knows, and none reports the success of an
update. In 'fw' and 'bulk_update' each event has to be known and each chunk to exist;
the listing of the devices survives all packets. -/
theorem survives_iff (packets : List RawPacket) (devices : List DeviceUpdate) :
    ((∃ after, parseAll false initialState packets = .ok after ∧ after.mainCyclePermit = true) ↔
      ∀ packet ∈ packets, packet.Harmless none ∧ ¬ packet.UpdateSuccess) ∧
    ((∃ after, updateDevices initialState devices = .ok after) ↔ HarmlessUpdates none devices) ∧
    ((∃ after, bulkUpdate initialState packets devices = .ok after) ↔
      HarmlessUpdates none devices) := by
  refine ⟨?_, updateDevices_ok_iff initialState devices, ?_⟩
  · by_cases h : ∀ packet ∈ packets, packet.Harmless none
    · obtain ⟨after, hAfter, -, hPermit⟩ := foldlM_of_harmless initialState h
      constructor
      · rintro ⟨last, hLast, hPermitted⟩ packet hMem
        cases hAfter.symm.trans hLast
        exact ⟨h packet hMem, (hPermit.mp hPermitted).2 packet hMem⟩
      · intro hAll
        exact ⟨after, hAfter, hPermit.mpr ⟨rfl, fun packet hMem => (hAll packet hMem).2⟩⟩
    · obtain ⟨stop, hStop⟩ := foldlM_of_not_harmless initialState h
      constructor
      · rintro ⟨last, hLast, -⟩
        cases hStop.symm.trans hLast
      · intro hAll
        exact absurd (fun packet hMem => (hAll packet hMem).1) h
  · obtain ⟨listed, hListed, hTable⟩ := foldlM_listing initialState packets
    have hStart : parseAll true initialState packets = .ok listed := hListed
    have hRest := updateDevices_ok_iff listed devices
    rw [hTable] at hRest
    rw [bulkUpdate, hStart]
    exact hRest

/-- A motion sensor that reports a motion. -/
def motionPacket : RawPacket where
  addr := #v[0xFD, 0, 0, 0, 0, 0, 0, 0, 0x02, 0x12, 0x4B, 0, 0x0C, 0x47, 0x3C, 0x86]
  data := [0x01, 0x01, 0x02, 0x07, 0xFF, 0x01, 0x01, 0xFF, 0xFF, 0xFF]
  length_data := Or.inl rfl

/-- The handler calls a global that does not exist, and the router is gone. -/
theorem survives_fails : parseAll false initialState [motionPacket] = .error .luaError := by
  have hSensor : motionPacket.Of 0x02 := by decide
  have hUnknown : ¬ motionPacket.KnownEvent := by
    rintro ⟨hMotion, -⟩
    exact absurd (hMotion (by decide)) (by decide)
  have hError : packetParse false initialState motionPacket.text = .error .luaError := by
    rw [motionPacket.packetParse_text, if_neg Bool.false_ne_true, RawPacket.packetProcessing_eq,
      if_pos hSensor, (RawPacket.sensorDataProcessing_eq initialState motionPacket).2 hUnknown]
  rw [parseAll, List.foldlM_cons]
  exact congrArg (fun result => result >>= _) hError

end Smarthome.Router
