import Smarthome.Time.TimeData

/-! `udp_data_receiver` of the coordinator: what it answers to a datagram and the
text it prints for the router, with the bytes of the datagram that it reads. -/
namespace Smarthome.Coordinator

open Semantics Time

/-- What one datagram leads to: the datagrams sent back and the text on the UART. -/
structure Reception where
  sent : List Datagram
  printed : List Char
  deriving DecidableEq

/-- `%02x` of a byte. -/
def hex02 (b : Byte) : List Char := [(b.toNat / 16).digitChar, (b.toNat % 16).digitChar]

/-- `%02X` of a byte. -/
def upperHex02 (b : Byte) : List Char := (hex02 b).map Char.toUpper

/-- `send_confirmation_packet`. -/
def sendConfirmationPacket (destAddr : Ipv6Address) : Datagram where
  destination := destAddr
  payload := [protocolVersionV1, deviceVersionV1, dataTypeJoinConfirm] ++
    List.replicate 7 dataReserved

/-- `send_pong_packet`. -/
def sendPongPacket (destAddr : Ipv6Address) : Datagram where
  destination := destAddr
  payload := [protocolVersionV1, deviceVersionV1, dataTypePong] ++ List.replicate 7 dataReserved

/-- `send_time_sync_resp_packet`: the time of the root, and back what the node sent. -/
def sendTimeSyncRespPacket (rootTime : TimeData) (destAddr : Ipv6Address) :
    Reads Byte Datagram := do
  let requestTime ← Reads.readRange 10 6
  return ⟨destAddr, [protocolVersionV1, deviceVersionV1, dataTypeSetTime,
    dataTypeSetTimeResponse] ++ rootTime.bytes ++ requestTime⟩

/-- The text of a raw packet, from its address and its 10 or 23 bytes of data. -/
def rawText (addr : Ipv6Address) (data : List Byte) : List Char :=
  "DAGROOTRAW1".toList ++ addr.toList.flatMap hex02 ++ data.flatMap upperHex02 ++
    List.replicate (46 - 2 * data.length) 'F' ++ "RAWEND   \n".toList

/-- `dag_root_raw_print`. -/
def dagRootRawPrint (addr : Ipv6Address) (length : Nat) : Reads Byte (List Char) :=
  if length ≠ 10 ∧ length ≠ 23 then
    pure ("UDM: Incompatible data length(".toList ++ Nat.toDigits 10 length ++ ")!\n".toList)
  else do
    let data ← Reads.readRange 0 length
    return rawText addr data

/-- `decrypted_data_processed`. The subtype is looked at only for the type of a time
synchronisation; a request is answered and not printed. -/
def decryptedDataProcessed (rootTime : TimeData) (senderAddr : Ipv6Address) (datalen : Nat) :
    Reads Byte Reception := do
  let packetType ← Reads.read 2
  if packetType = dataTypeJoin then do
    let printed ← dagRootRawPrint senderAddr datalen
    return ⟨[sendConfirmationPacket senderAddr], printed⟩
  else if packetType = dataTypeStatus ∨ packetType = dataTypeSensorData then do
    let printed ← dagRootRawPrint senderAddr datalen
    return ⟨[sendPongPacket senderAddr], printed⟩
  else if packetType = dataTypeSetTime then do
    let packetSubtype ← Reads.read 3
    if packetSubtype = dataTypeSetTimeRequest then do
      let response ← sendTimeSyncRespPacket rootTime senderAddr
      return ⟨[response], []⟩
    else do
      let printed ← dagRootRawPrint senderAddr datalen
      return ⟨[], printed⟩
  else do
    let printed ← dagRootRawPrint senderAddr datalen
    return ⟨[], printed⟩

/-- `udp_data_receiver`; a packet of the second version is not decrypted. -/
def udpDataReceiver (rootTime : TimeData) (senderAddr : Ipv6Address) (datalen : Nat) :
    Reads Byte Reception := do
  let protocolVersion ← Reads.read 0
  if protocolVersion = protocolVersionV1 then
    decryptedDataProcessed rootTime senderAddr datalen
  else if protocolVersion = protocolVersionV2 then
    return ⟨[], "UDM: encrypted data received\n".toList⟩
  else return ⟨[], []⟩

/-- How long a datagram has to be for its own type, or more exactly for what the
receiver looks at before it tests the length. -/
def receiverLength (data : Nat → Byte) : Nat :=
  if data 0 = protocolVersionV1 then
    if data 2 = dataTypeSetTime then if data 3 = dataTypeSetTimeRequest then 16 else 4
    else 3
  else 1

/-- Printing reads what the length allows, and nothing of any other length. -/
theorem inBounds_dagRootRawPrint (addr : Ipv6Address) (data : Nat → Byte) (datalen : Nat) :
    (dagRootRawPrint addr datalen).InBounds data datalen := by
  unfold dagRootRawPrint
  split_ifs
  · simp
  · simp

theorem inBounds_decryptedDataProcessed (rootTime : TimeData) (senderAddr : Ipv6Address)
    (data : Nat → Byte) (datalen : Nat) :
    (decryptedDataProcessed rootTime senderAddr datalen).InBounds data datalen ↔
      2 < datalen ∧ (data 2 = dataTypeSetTime →
        3 < datalen ∧ (data 3 = dataTypeSetTimeRequest → 16 ≤ datalen)) := by
  have hPrint := inBounds_dagRootRawPrint senderAddr data datalen
  have hJoin : dataTypeJoin ≠ dataTypeSetTime := by decide
  have hStatus : dataTypeStatus ≠ dataTypeSetTime := by decide
  have hSensor : dataTypeSensorData ≠ dataTypeSetTime := by decide
  simp only [decryptedDataProcessed, sendTimeSyncRespPacket, Reads.inBounds_bind,
    Reads.inBounds_ite, Reads.inBounds_read, Reads.inBounds_readRange, Reads.inBounds_pure]
  simp only [Reads.value_read, hPrint, and_true, implies_true, true_and]
  apply and_congr_right
  intro _
  by_cases hType : data 2 = dataTypeSetTime
  · simp [hType, hJoin.symm, hStatus.symm, hSensor.symm]
  · simp [hType]

/-- **When the coordinator reads inside a datagram.** -/
theorem inBounds_udpDataReceiver_iff (rootTime : TimeData) (senderAddr : Ipv6Address)
    (data : Nat → Byte) (datalen : Nat) :
    (udpDataReceiver rootTime senderAddr datalen).InBounds data datalen ↔
      receiverLength data ≤ datalen := by
  simp only [udpDataReceiver, Reads.inBounds_bind, Reads.inBounds_ite, Reads.inBounds_read,
    Reads.inBounds_pure, inBounds_decryptedDataProcessed]
  simp only [Reads.value_read, implies_true, and_true, receiverLength]
  by_cases hFirst : data 0 = protocolVersionV1
  · by_cases hTime : data 2 = dataTypeSetTime
    · by_cases hRequest : data 3 = dataTypeSetTimeRequest
      · simp [hFirst, hTime, hRequest]
        omega
      · simp [hFirst, hTime, hRequest]
        omega
    · simp [hFirst, hTime]
      omega
  · simp [hFirst]
    omega

end Smarthome.Coordinator
