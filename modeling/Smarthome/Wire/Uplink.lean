import Smarthome.Router.StatusReport
import Smarthome.Wire.Downlink
import Mathlib.Tactic.IntervalCases

/-! The way up, from a packet of a node to what the router makes of it: the datagram, the
text that the coordinator prints, and the numbers that are read from the text. -/
namespace Smarthome.Node

/-- `send_fw_chunk_req_packet`. -/
def sendFwChunkReqPacket (rootAddr : Ipv6Address) (chunkNumRaw : UInt16) : Datagram where
  destination := rootAddr
  payload := [protocolVersionV1, currentDeviceVersion, dataTypeFirmwareCmd,
    dataTypeFirmwareCommandChankReq, memoryByte chunkNumRaw.toNat 0, memoryByte chunkNumRaw.toNat 1,
    dataReserved, dataReserved, dataReserved, dataReserved]

/-- The numbers that `send_status_packet` is called with or finds in variables. -/
structure Status where
  parentAddr : Ipv6Address
  uptimeRaw : UInt32
  rssiParentRaw : Int16
  temp : Byte
  voltage : Byte
  bigVersion : Byte
  littleVersion : Byte
  spiStatus : Byte

/-- `send_status_packet`, for an address of a parent that is not `NULL`. -/
def sendStatusPacket (rootAddr : Ipv6Address) (status : Status) : Datagram where
  destination := rootAddr
  payload := [protocolVersionV1, currentDeviceVersion, dataTypeStatus] ++
    (List.finRange 8).map (fun i => status.parentAddr.get (i.natAdd 8)) ++
    [memoryByte status.uptimeRaw.toNat 0, memoryByte status.uptimeRaw.toNat 1,
    memoryByte status.uptimeRaw.toNat 2, memoryByte status.uptimeRaw.toNat 3,
    memoryByte status.rssiParentRaw.toBitVec.toNat 0,
    memoryByte status.rssiParentRaw.toBitVec.toNat 1,
    status.temp, status.voltage, status.bigVersion, status.littleVersion, status.spiStatus,
    dataReserved]

end Smarthome.Node

namespace Smarthome.Wire

open Semantics Coordinator UartReceiver Node Router Time

/-- What the coordinator prints of a datagram is a raw packet with the address of the node. -/
theorem printed_of_carries {data : Nat → Byte} {datagram : Datagram} (packet : RawPacket)
    (hData : Carries data datagram) (hPayload : datagram.payload = packet.data)
    (hVersion : data 0 = protocolVersionV1) (hType : data 2 ≠ dataTypeSetTime)
    (rootTime : TimeData) :
    ((udpDataReceiver rootTime packet.addr packet.data.length).value data).printed =
      packet.line := by
  have hLength : ¬ (packet.data.length ≠ 10 ∧ packet.data.length ≠ 23) := by
    have h := packet.length_data
    omega
  have hBytes : (List.range packet.data.length).map (fun i => data (0 + i)) = packet.data := by
    refine List.ext_getElem (by simp) fun i hFirst hSecond => ?_
    have hByte := hData i (hPayload ▸ hSecond)
    simp only [List.getElem_map, List.getElem_range, Nat.zero_add, hByte, hPayload]
  have hPrint : (dagRootRawPrint packet.addr packet.data.length).value data = packet.line := by
    rw [dagRootRawPrint, if_neg hLength]
    simp only [Reads.value_bind, Reads.value_readRange, Reads.value_pure, hBytes]
    rfl
  simp only [udpDataReceiver, decryptedDataProcessed, Reads.value_bind, Reads.value_ite]
  simp only [Reads.value_read, Reads.value_pure, hPrint, if_pos hVersion, if_neg hType]
  split_ifs
  · rfl
  · rfl
  · rfl

/-- The number that a 16-bit value stands for is found again, but for the least one. -/
theorem signed_toBitVec_iff (value : Int16) :
    signed value.toBitVec.toNat = value.toInt ↔ value ≠ Int16.minValue := by
  have hLess := value.toBitVec.isLt
  have hLeast : value = Int16.minValue ↔ value.toBitVec.toNat = 32768 := by
    rw [← Int16.toBitVec_inj, ← BitVec.toNat_inj]
    rfl
  have hInt : value.toInt = value.toBitVec.toInt := rfl
  rw [ne_eq, hLeast, hInt, BitVec.toInt_eq_toNat_cond, signed]
  split_ifs
  all_goals omega

/-- Whatever the announcement does to the flash, the quantity is taken over. -/
theorem newFwHandler_fwChunkQuantity {node other : FwUpdate} {fwChunkQuantity : Nat}
    (h : node.newFwHandler fwChunkQuantity = some other) :
    other.fwChunkQuantity = fwChunkQuantity := by
  rw [FwUpdate.newFwHandler] at h
  split_ifs at h
  · rw [FwUpdate.erasePage, Option.map_eq_some_iff] at h
    obtain ⟨flash, -, rfl⟩ := h
    rfl
  · obtain rfl := Option.some.inj h
    rfl

/-- What is printed of the request of a chunk. -/
def chunkRequest (nodeAddr rootAddr : Ipv6Address) (chunkNumRaw : UInt16) : RawPacket where
  addr := nodeAddr
  data := (sendFwChunkReqPacket rootAddr chunkNumRaw).payload
  length_data := Or.inl rfl

/-- A request is answered with the chunk of its number. -/
theorem chunk_request_round_trip (nodeAddr rootAddr : Ipv6Address) (chunkNumRaw : UInt16)
    (rootTime : TimeData) {data : Nat → Byte}
    (hData : Carries data (sendFwChunkReqPacket rootAddr chunkNumRaw)) :
    ((udpDataReceiver rootTime nodeAddr 10).value data).printed =
        (chunkRequest nodeAddr rootAddr chunkNumRaw).line ∧
      hex2Dec ((chunkRequest nodeAddr rootAddr chunkNumRaw).table.byte 3 ++
        (chunkRequest nodeAddr rootAddr chunkNumRaw).table.byte 2) = .ok chunkNumRaw.toNat ∧
      ∀ state, packetParse false state (chunkRequest nodeAddr rootAddr chunkNumRaw).text =
        answerChunk state (chunkRequest nodeAddr rootAddr chunkNumRaw).adress chunkNumRaw.toNat := by
  have hVersion : data 0 = protocolVersionV1 := hData 0 (by simp [sendFwChunkReqPacket])
  have hKind : data 2 = dataTypeFirmwareCmd := hData 2 (by simp [sendFwChunkReqPacket])
  have hPrinted := printed_of_carries (chunkRequest nodeAddr rootAddr chunkNumRaw) hData rfl
    hVersion (by rw [hKind]; decide) rootTime
  have hNumber : hex2Dec ((chunkRequest nodeAddr rootAddr chunkNumRaw).table.byte 3 ++
      (chunkRequest nodeAddr rootAddr chunkNumRaw).table.byte 2) = .ok chunkNumRaw.toNat := by
    have hBytes := u16_memoryByte chunkNumRaw.toNat_lt
    rw [RawPacket.hex2Dec_table_two _ (by decide) (by decide), ← hBytes, Nat.add_comm]
    rfl
  refine ⟨hPrinted, hNumber, fun state => ?_⟩
  have hOf : (chunkRequest nodeAddr rootAddr chunkNumRaw).Of 0x0E := ⟨⟨rfl, rfl⟩, rfl⟩
  rw [RawPacket.packetParse_text, if_neg Bool.false_ne_true, RawPacket.packetProcessing_eq,
    if_neg (hOf.ne (by decide)), if_neg (hOf.ne (by decide)), if_neg (hOf.ne (by decide)),
    if_pos hOf, fwCmdPacketProcessing_answer, hNumber]
  rfl

/-- **The counters of an update survive the wire.** The quantity that the router announces is
the one that the node expects, and the number that the node asks for is the one that the router
looks up. -/
theorem ota_counters_round_trip {s : UartReceiver} (hIdle : s.Idle) (slots : Slots)
    (adress : AdressText) {tableSegments : List (List Byte)} (hQuantity : tableSegments.length ≤ 65535)
    (nodeAddr rootAddr : Ipv6Address) (chunkNumRaw : UInt16) (rootTime : TimeData) :
    (∃ datagram, Forwards s slots (sendFirmwareNewFwCmdToNode adress.text tableSegments)
        dataTypeFirmwareCmd [datagram] ∧
      datagram.destination = adress.value ∧
      ∀ data, Carries data datagram →
        udpReceiver data = .firmwareCmdNewFwHandler tableSegments.length ∧
        ∀ node other : FwUpdate, node.receive (udpReceiver data) = some other →
          other.fwChunkQuantity = tableSegments.length) ∧
    ∀ data, Carries data (sendFwChunkReqPacket rootAddr chunkNumRaw) →
      ((udpDataReceiver rootTime nodeAddr 10).value data).printed =
          (chunkRequest nodeAddr rootAddr chunkNumRaw).line ∧
        hex2Dec ((chunkRequest nodeAddr rootAddr chunkNumRaw).table.byte 3 ++
          (chunkRequest nodeAddr rootAddr chunkNumRaw).table.byte 2) = .ok chunkNumRaw.toNat ∧
        ∀ state, packetParse false state (chunkRequest nodeAddr rootAddr chunkNumRaw).text =
          answerChunk state (chunkRequest nodeAddr rootAddr chunkNumRaw).adress
            chunkNumRaw.toNat := by
  obtain ⟨datagram, hForwards, hDestination, hReceived⟩ :=
    new_fw_round_trip hIdle slots adress (Nat.lt_succ_of_le hQuantity)
  refine ⟨⟨datagram, hForwards, hDestination, fun data hData => ?_⟩, fun data hData =>
    chunk_request_round_trip nodeAddr rootAddr chunkNumRaw rootTime hData⟩
  have hCall := hReceived data hData
  refine ⟨hCall, fun node other hReceive => ?_⟩
  rw [hCall] at hReceive
  exact newFwHandler_fwChunkQuantity hReceive

/-- One chunk is announced after reset, and the last possible one is asked for. -/
theorem ota_counters_round_trip_one :
    (∃ datagram, Forwards reset Slots.reset (sendFirmwareNewFwCmdToNode adressZero.text [[]])
        dataTypeFirmwareCmd [datagram] ∧
      datagram.destination = adressZero.value ∧
      ∀ data, Carries data datagram →
        udpReceiver data = .firmwareCmdNewFwHandler 1 ∧
        ∀ node other : FwUpdate, node.receive (udpReceiver data) = some other →
          other.fwChunkQuantity = 1) ∧
    ∀ data, Carries data (sendFwChunkReqPacket adressZero.value 65535) →
      ((udpDataReceiver ⟨0, 0, by decide, by decide⟩ adressZero.value 10).value data).printed =
          (chunkRequest adressZero.value adressZero.value 65535).line ∧
        hex2Dec ((chunkRequest adressZero.value adressZero.value 65535).table.byte 3 ++
          (chunkRequest adressZero.value adressZero.value 65535).table.byte 2) = .ok 65535 ∧
        ∀ state, packetParse false state
            (chunkRequest adressZero.value adressZero.value 65535).text =
          answerChunk state (chunkRequest adressZero.value adressZero.value 65535).adress 65535 :=
  ota_counters_round_trip idle_reset Slots.reset adressZero
    (by decide : ([[]] : List (List Byte)).length ≤ 65535) adressZero.value adressZero.value 65535 ⟨0, 0, by decide, by decide⟩

/-- What is printed of a status packet. -/
def statusPacket (nodeAddr rootAddr : Ipv6Address) (status : Status) : RawPacket where
  addr := nodeAddr
  data := (sendStatusPacket rootAddr status).payload
  length_data := Or.inr rfl

/-- The report says of the node what the node said. -/
def Reports (nodeAddr : Ipv6Address) (status : Status) (report : StatusReport) : Prop :=
  (ipv6AdressParse report.ipv6Adress).bind fromhex = some nodeAddr.toList ∧
    fromhex (report.ipv6AdressParentShort.filter (· ≠ ':')) =
      some (status.parentAddr.toList.drop 8) ∧
    report.uptime = status.uptimeRaw.toNat ∧
    report.parentRssi = status.rssiParentRaw.toInt ∧
    report.temp = status.temp.toNat ∧
    report.voltage = status.voltage.toNat * voltagePrescaler

/-- The way of a status packet: it is printed, it is parsed, and the report is right. -/
def StatusRoundTrip (nodeAddr rootAddr : Ipv6Address) (status : Status) (rootTime : TimeData)
    (data : Nat → Byte) : Prop :=
  ((udpDataReceiver rootTime nodeAddr 23).value data).printed =
      (statusPacket nodeAddr rootAddr status).line ∧
    (∀ state : RouterState, state.flagNonStatusJoinMessage = false →
      packetParse false state (statusPacket nodeAddr rootAddr status).text =
        (fun _ => state) <$> statusReport (statusPacket nodeAddr rootAddr status).adress
          (statusPacket nodeAddr rootAddr status).table) ∧
    ∃ report, statusReport (statusPacket nodeAddr rootAddr status).adress
      (statusPacket nodeAddr rootAddr status).table = .ok report ∧
      Reports nodeAddr status report

/-- Of the report, only the signal strength can be wrong. -/
theorem reports_iff (nodeAddr rootAddr : Ipv6Address) (status : Status) :
    (∃ report, statusReport (statusPacket nodeAddr rootAddr status).adress
      (statusPacket nodeAddr rootAddr status).table = .ok report ∧
      Reports nodeAddr status report) ↔ status.rssiParentRaw ≠ Int16.minValue := by
  have hUptime : u32 ((statusPacket nodeAddr rootAddr status).byte 11)
      ((statusPacket nodeAddr rootAddr status).byte 12)
      ((statusPacket nodeAddr rootAddr status).byte 13)
      ((statusPacket nodeAddr rootAddr status).byte 14) = status.uptimeRaw.toNat :=
    u32_memoryByte status.uptimeRaw.toNat_lt
  have hRssi : 256 * ((statusPacket nodeAddr rootAddr status).byte 16).toNat +
      ((statusPacket nodeAddr rootAddr status).byte 15).toNat =
        status.rssiParentRaw.toBitVec.toNat :=
    (Nat.add_comm _ _).trans (u16_memoryByte status.rssiParentRaw.toBitVec.isLt)
  have hParent : (List.range 8).map (fun i =>
      (statusPacket nodeAddr rootAddr status).byte (3 + i)) =
        status.parentAddr.toList.drop 8 := by
    refine List.ext_getElem (by simp) fun i hFirst hSecond => ?_
    have hi : i < 8 := by simpa using hFirst
    rw [List.getElem_drop, Vector.getElem_toList, List.getElem_map, List.getElem_range]
    interval_cases i
    all_goals rfl
  have hShort := (statusPacket nodeAddr rootAddr status).fromhex_parentShort
  rw [hParent] at hShort
  rw [RawPacket.statusReport_table, hUptime, hRssi, ← signed_toBitVec_iff]
  constructor
  · rintro ⟨report, hReport, hReports⟩
    obtain rfl := Except.ok.inj hReport
    exact hReports.2.2.2.1
  · intro hSigned
    exact ⟨_, rfl, (statusPacket nodeAddr rootAddr status).fromhex_adress, hShort, rfl, hSigned,
      rfl, rfl⟩

/-- **Status report round trip.** A parent that is heard with the least value of 16 bits is
reported with its opposite, and every other packet is reported as it was sent. -/
theorem status_round_trip_iff (nodeAddr rootAddr : Ipv6Address) (status : Status)
    (rootTime : TimeData) {data : Nat → Byte}
    (hData : Carries data (sendStatusPacket rootAddr status)) :
    StatusRoundTrip nodeAddr rootAddr status rootTime data ↔
      status.rssiParentRaw ≠ Int16.minValue := by
  have hVersion : data 0 = protocolVersionV1 := hData 0 (by simp [sendStatusPacket])
  have hKind : data 2 = dataTypeStatus := hData 2 (by simp [sendStatusPacket])
  have hPrinted := printed_of_carries (statusPacket nodeAddr rootAddr status) hData rfl
    hVersion (by rw [hKind]; decide) rootTime
  have hOf : (statusPacket nodeAddr rootAddr status).Of 0x06 := ⟨⟨rfl, rfl⟩, rfl⟩
  have hParsed (state : RouterState) (hFlag : state.flagNonStatusJoinMessage = false) :
      packetParse false state (statusPacket nodeAddr rootAddr status).text =
        (fun _ => state) <$> statusReport (statusPacket nodeAddr rootAddr status).adress
          (statusPacket nodeAddr rootAddr status).table := by
    rw [RawPacket.packetParse_text, if_neg Bool.false_ne_true, RawPacket.packetProcessing_eq,
      if_neg (hOf.ne (by decide)), if_pos hOf, statusDataProcessing_report state _ _ hFlag]
  rw [← reports_iff nodeAddr rootAddr status]
  constructor
  · rintro ⟨-, -, hReports⟩
    exact hReports
  · intro hReports
    exact ⟨hPrinted, hParsed, hReports⟩

/-- A node that has started a minute ago and hears its parent with minus one. -/
def exampleStatus (rssiParentRaw : Int16) : Status :=
  ⟨adressZero.value, 60, rssiParentRaw, 25, 200, 1, 0, 1⟩

/-- The datagram itself as what the node's packet shows. -/
def statusBytes (rssiParentRaw : Int16) (i : Nat) : Byte :=
  (sendStatusPacket adressZero.value (exampleStatus rssiParentRaw)).payload.getD i 0

theorem carries_statusBytes (rssiParentRaw : Int16) : Carries (statusBytes rssiParentRaw)
    (sendStatusPacket adressZero.value (exampleStatus rssiParentRaw)) := by
  intro i h
  simp [statusBytes, h]

theorem status_round_trip_minus_one : StatusRoundTrip adressZero.value adressZero.value
    (exampleStatus (-1)) ⟨0, 0, by decide, by decide⟩ (statusBytes (-1)) :=
  (status_round_trip_iff adressZero.value adressZero.value (exampleStatus (-1)) _
    (carries_statusBytes (-1))).mpr (by decide)

/-- The least value is taken for its opposite. -/
theorem status_round_trip_fails : ¬ ∀ (nodeAddr rootAddr : Ipv6Address) (status : Status)
    (rootTime : TimeData) (data : Nat → Byte)
    (_ : Carries data (sendStatusPacket rootAddr status)),
    StatusRoundTrip nodeAddr rootAddr status rootTime data := by
  intro h
  obtain ⟨-, -, hReports⟩ := h adressZero.value adressZero.value (exampleStatus Int16.minValue)
    ⟨0, 0, by decide, by decide⟩ _ (carries_statusBytes Int16.minValue)
  exact (reports_iff _ _ _).mp hReports rfl

end Smarthome.Wire
