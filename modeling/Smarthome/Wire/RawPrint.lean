import Smarthome.Router.Recognition

/-! A raw packet as text: what the coordinator prints of a datagram, and what `packet_parse`
calls the processing of a packet with. -/
namespace Smarthome.Wire

open Semantics LuaPattern Coordinator Router

/-- The arguments of `packet_processing` and of `packet_processing_alt`: the tables `a` and `d`,
of which the first is counted from one. -/
structure ProcessingCall where
  a : List Text
  d : PacketData

/-- The pattern of a capture of `n` pairs. -/
def pairsPattern (n : Nat) : List CharClass := List.replicate (2 * n) .alnum

/-- `packet_parse` up to its call, with the two patterns that cut the captures into pairs. -/
def processingCall (packet : Text) : Option ProcessingCall :=
  match find (rawPattern.map Item.one) packet with
  | none => none
  | some raw =>
      match find ((pairsPattern 16).map Item.one) ((raw.drop 11).take 32),
        find ((pairsPattern 23).map Item.one) ((raw.drop 43).take 46) with
      | some adress, some rawData => some ⟨(List.range 16).map (pair adress), packetData rawData⟩
      | _, _ => none

/-- The call itself. -/
def ProcessingCall.process (call : ProcessingCall) (packetProcessingAlt : Bool)
    (state : RouterState) : Except Stop RouterState :=
  if packetProcessingAlt = true then
    packetProcessingSeeAdresses state (ipv6Adress fun i => call.a.getD i []) call.d
  else packetProcessing state (ipv6Adress fun i => call.a.getD i []) call.d

/-- The captures of a packet that was found are cut into pairs as a whole. -/
theorem processingCall_of_find {packet raw : Text}
    (h : find (rawPattern.map Item.one) packet = some raw) :
    processingCall packet = some ⟨(List.range 16).map (pair ((raw.drop 11).take 32)),
      packetData ((raw.drop 43).take 46)⟩ := by
  have hRaw := fits_of_find h
  have hAdress : Fits (pairsPattern 16) ((raw.drop 11).take 32) :=
    List.forall₂_take 32 (List.forall₂_drop 11 hRaw)
  have hData : Fits (pairsPattern 23) ((raw.drop 43).take 46) :=
    List.forall₂_take 46 (List.forall₂_drop 43 hRaw)
  simp only [processingCall, h, find_of_matchAt (matchAt_of_fits hAdress),
    find_of_matchAt (matchAt_of_fits hData)]

/-- `packet_parse` does nothing but this call. -/
theorem packetParse_eq (packetProcessingAlt : Bool) (state : RouterState) (packet : Text) :
    packetParse packetProcessingAlt state packet =
      match processingCall packet with
      | none => .ok state
      | some call => call.process packetProcessingAlt state := by
  cases hFind : find (rawPattern.map Item.one) packet with
  | none =>
      simp only [packetParse, processingCall, hFind]
      rfl
  | some raw =>
      rw [processingCall_of_find hFind]
      simp only [packetParse, hFind, ProcessingCall.process]
      rfl

/-- A byte of the data as it is printed; the bytes that are missing are ones. -/
def printedByte (data : Nat → Byte) (length i : Nat) : Byte := if i < length then data i else 0xFF

/-- The table `d` with each of its fields for one byte. -/
def hexTable (byte : Nat → Byte) : PacketData where
  pVersion := upperHex02 (byte 0)
  devVersion := upperHex02 (byte 1)
  dType := upperHex02 (byte 2)
  b := (List.range 20).map fun i => upperHex02 (byte (i + 3))

section Print

variable (addr : Ipv6Address) (data : Nat → Byte) {length : Nat}
  (hLength : length = 10 ∨ length = 23)

/-- The packet that `dag_root_raw_print` is called with. -/
def printedPacket : RawPacket where
  addr := addr
  data := (List.range length).map data
  length_data := by rwa [List.length_map, List.length_range]

theorem value_dagRootRawPrint : (dagRootRawPrint addr length).value data =
    (printedPacket addr data hLength).line := by
  have hPrinted : ¬ (length ≠ 10 ∧ length ≠ 23) := by omega
  have hData : (List.range length).map (fun i => data (0 + i)) = (List.range length).map data :=
    List.map_congr_left fun i _ => congrArg data (Nat.zero_add i)
  rw [dagRootRawPrint, if_neg hPrinted, Reads.value_bind, Reads.value_readRange, hData]
  rfl

theorem byte_printedPacket {i : Nat} (hi : i < 23) :
    (printedPacket addr data hLength).byte i = printedByte data length i := by
  unfold RawPacket.byte RawPacket.filled printedPacket printedByte
  simp only [List.length_map, List.length_range]
  split_ifs with hRead
  · simp [List.getElem?_append, hRead]
  · have hRest : i - length < 23 - length := by omega
    simp [List.getElem?_append, hRead, hRest]

include hLength

/-- **Raw packet round trip.** The text of a packet is ninety-five characters before the
blanks, and `packet_parse` calls the processing with each byte of the address and of the
data from it. -/
theorem raw_packet_round_trip :
    ∃ text, (dagRootRawPrint addr length).value data = text ++ [' ', ' ', ' ', '\n'] ∧
      text.length = 95 ∧
      processingCall ((dagRootRawPrint addr length).value data) =
        some ⟨addr.toList.map hex02, hexTable (printedByte data length)⟩ ∧
      ∀ alt state, packetParse alt state ((dagRootRawPrint addr length).value data) =
        ProcessingCall.process ⟨addr.toList.map hex02, hexTable (printedByte data length)⟩ alt
          state := by
  let packet := printedPacket addr data hLength
  have hPrinted : (dagRootRawPrint addr length).value data = packet.text ++ [' ', ' ', ' ', '\n'] :=
    (value_dagRootRawPrint addr data hLength).trans packet.line_eq_text
  have hFind : find (rawPattern.map Item.one) (packet.text ++ [' ', ' ', ' ', '\n']) =
      some packet.text :=
    find_of_matchAt (matchAt_append_of_fits (fits_of_find packet.find_rawPattern) _)
  have hAdress : (List.range 16).map (pair (packet.addr.toList.flatMap hex02)) =
      addr.toList.map hex02 := by
    refine List.ext_getElem (by simp) fun i hFirst hSecond => ?_
    have hi : i < 16 := by simpa using hFirst
    rw [List.getElem_map, List.getElem_range, packet.pair_adress hi]
    simp [packet, printedPacket, hi]
  have hPair {i : Nat} (hi : i < 23) :
      pair (packet.filled.flatMap upperHex02) i = upperHex02 (printedByte data length i) := by
    rw [pair_flatMap length_upperHex02 _ (by rwa [packet.length_filled]),
      ← byte_printedPacket addr data hLength hi]
    rfl
  have hTable : packetData (packet.filled.flatMap upperHex02) =
      hexTable (printedByte data length) := by
    have hRest : (List.range 20).map (fun i => pair (packet.filled.flatMap upperHex02) (i + 3)) =
        (List.range 20).map fun i => upperHex02 (printedByte data length (i + 3)) :=
      List.map_congr_left fun i hi => hPair (Nat.add_lt_add_right (List.mem_range.mp hi) 3)
    rw [packetData, hexTable, hPair (by decide), hPair (by decide), hPair (by decide), hRest]
  have hCall : processingCall ((dagRootRawPrint addr length).value data) =
      some ⟨addr.toList.map hex02, hexTable (printedByte data length)⟩ := by
    rw [hPrinted, processingCall_of_find hFind, packet.take_adress, packet.take_data, hAdress,
      hTable]
  refine ⟨packet.text, hPrinted, packet.length_text, hCall, fun alt state => ?_⟩
  rw [packetParse_eq, hCall]

end Print

/-- The shorter form, with the numbers from zero on. -/
theorem raw_packet_round_trip_short : processingCall
    ((dagRootRawPrint (Vector.replicate 16 0xA5) 10).value (fun i => UInt8.ofNat i)) =
      some ⟨(Vector.replicate 16 (0xA5 : Byte)).toList.map hex02,
        hexTable (printedByte (fun i => UInt8.ofNat i) 10)⟩ := by
  obtain ⟨-, -, -, hCall, -⟩ := raw_packet_round_trip (Vector.replicate 16 0xA5)
    (fun i => UInt8.ofNat i) (Or.inl (rfl : 10 = 10))
  exact hCall

end Smarthome.Wire
