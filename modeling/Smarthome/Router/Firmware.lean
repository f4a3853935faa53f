import Smarthome.Router.Framing
import Smarthome.Coordinator.Relay
import Mathlib.Data.List.ModifyLast

/-! Firmware images in `router.lua`: the file is cut into chunks, and each request
of a node is answered with the chunk it asks for. -/
namespace Smarthome.Router

open Coordinator

/-- The table of `firmware_update`: the last chunk is filled up with ones. -/
def otaImageTableSegments (imageFileBinData : List Byte) : List (List Byte) :=
  (dataCut firmwarePayloadLength (by decide) imageFileBinData).modifyLast fun segment =>
    segment ++ List.replicate (firmwarePayloadLength - segment.length) 0xFF

/-- `fw_cmd_data_processing`: a number with no chunk ends the program. -/
def fwCmdDataProcessing (otaImageTableSegments : List (List Byte)) (chunkNumber : Nat) :
    Option (List Byte) :=
  if otaImageTableSegments.length < chunkNumber then none
  else otaImageTableSegments[chunkNumber]?

/-- The packet of `send_firmware_chunk_to_node`. In place of a chunk number it has
the bytes that the reserved ones have. -/
def firmwareChunkPacket (address : Ipv6Address) (firmwareBinChunk : List Byte) : List Byte :=
  nodeFrame address protocolVersionV1 deviceVersionV1 dataTypeFirmware
    ([0xFF, 0xFF, 0xFF, 0xFF] ++ firmwareBinChunk)

/-- All segments of a cut are full, but the last one, which is empty only without data. -/
theorem dataCut_eq_concat (segmentLen : Nat) (hPos : 0 < segmentLen) (allData : List Byte) :
    ∃ full last, dataCut segmentLen hPos allData = full ++ [last] ∧
      (∀ segment ∈ full, segment.length = segmentLen) ∧ last.length ≤ segmentLen ∧
      (allData ≠ [] → 0 < last.length) := by
  fun_induction dataCut segmentLen hPos allData with
  | case1 allData hShort =>
      refine ⟨[], allData.take segmentLen, rfl, by simp, List.length_take_le segmentLen allData,
        fun hData => ?_⟩
      have hLength := List.length_pos_iff.mpr hData
      rw [List.length_take]
      omega
  | case2 allData hLong ih =>
      obtain ⟨full, last, hCut, hFull, hLast, hRest⟩ := ih
      have hMore : allData.drop segmentLen ≠ [] := by
        rw [← List.length_pos_iff, List.length_drop]
        omega
      refine ⟨allData.take segmentLen :: full, last, by rw [hCut]; rfl, fun segment hMem => ?_,
        hLast, fun _ => hRest hMore⟩
      rcases List.mem_cons.mp hMem with rfl | hMem
      · rw [List.length_take]
        omega
      · exact hFull segment hMem

/-- Each chunk of the table has the length that a node stores. -/
theorem otaImageTableSegments_length (imageFileBinData : List Byte) :
    ∀ segment ∈ otaImageTableSegments imageFileBinData, segment.length = firmwarePayloadLength := by
  obtain ⟨full, last, hCut, hFull, hLast, -⟩ :=
    dataCut_eq_concat firmwarePayloadLength (by decide) imageFileBinData
  intro segment hMem
  rw [otaImageTableSegments, hCut, List.modifyLast_concat, List.mem_append, List.mem_singleton] at hMem
  rcases hMem with hMem | rfl
  · exact hFull segment hMem
  · rw [List.length_append, List.length_replicate]
    exact Nat.add_sub_cancel' hLast

/-- The chunks of the table are the file and the bytes that fill up the last one. -/
theorem otaImageTableSegments_flatten (imageFileBinData : List Byte) :
    ∃ n, (otaImageTableSegments imageFileBinData).flatten =
        imageFileBinData ++ List.replicate n 0xFF ∧
      (imageFileBinData ≠ [] → n < firmwarePayloadLength) := by
  obtain ⟨full, last, hCut, -, -, hLast⟩ :=
    dataCut_eq_concat firmwarePayloadLength (by decide) imageFileBinData
  have hFlatten := dataCut_flatten firmwarePayloadLength (by decide) imageFileBinData
  rw [hCut, List.flatten_append, List.flatten_singleton] at hFlatten
  refine ⟨firmwarePayloadLength - last.length, ?_, fun hData => ?_⟩
  · rw [otaImageTableSegments, hCut, List.modifyLast_concat, List.flatten_append,
      List.flatten_singleton, ← List.append_assoc, hFlatten]
  · exact Nat.sub_lt (by decide) (hLast hData)

/-- **Chunking is a partition.** The segments of a cut are the data, all of them full but the
last one; and the chunks of an image are the file, filled up to whole chunks. -/
theorem chunking_partition {segmentLen : Nat} (hPos : 0 < segmentLen)
    (allData imageFileBinData : List Byte) :
    ((dataCut segmentLen hPos allData).flatten = allData ∧
      ∃ full last, dataCut segmentLen hPos allData = full ++ [last] ∧
        (∀ segment ∈ full, segment.length = segmentLen) ∧ last.length ≤ segmentLen ∧
        (allData ≠ [] → 0 < last.length)) ∧
    ((∀ chunk ∈ otaImageTableSegments imageFileBinData, chunk.length = 600) ∧
      ∃ n, (otaImageTableSegments imageFileBinData).flatten =
          imageFileBinData ++ List.replicate n 0xFF ∧
        (imageFileBinData ≠ [] → n < 600)) :=
  ⟨⟨dataCut_flatten segmentLen hPos allData, dataCut_eq_concat segmentLen hPos allData⟩,
    otaImageTableSegments_length imageFileBinData,
    otaImageTableSegments_flatten imageFileBinData⟩

/-- Two bytes in segments of one, and an empty file. -/
theorem chunking_partition_two : (dataCut 1 (by decide) [0xA5, 0x5A]).flatten = [0xA5, 0x5A] ∧
    ∃ n, (otaImageTableSegments []).flatten = [] ++ List.replicate n 0xFF := by
  obtain ⟨⟨hCut, -⟩, -, n, hTable, -⟩ := chunking_partition (by decide : 0 < 1) [0xA5, 0x5A] []
  exact ⟨hCut, n, hTable⟩

/-- An image of one full chunk. -/
theorem otaImageTableSegments_single {imageFileBinData : List Byte}
    (hLength : imageFileBinData.length = firmwarePayloadLength) :
    otaImageTableSegments imageFileBinData = [imageFileBinData] := by
  have hFilled : imageFileBinData ++
      List.replicate (firmwarePayloadLength - imageFileBinData.length) 0xFF = imageFileBinData := by
    rw [hLength, Nat.sub_self, List.replicate_zero, List.append_nil]
  rw [otaImageTableSegments, dataCut, if_pos (Nat.lt_succ_of_le hLength.le),
    List.take_of_length_le hLength.le]
  exact congrArg ([·]) hFilled

end Smarthome.Router
