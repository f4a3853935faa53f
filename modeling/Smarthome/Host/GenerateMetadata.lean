import Smarthome.Device.SlotSoundness

/-! The tool of the host that writes the metadata of an image, `generate-metadata.c`. It reads
the image as a stream of words and counts them as it computes their CRC. -/
namespace Smarthome.GenerateMetadata

open Semantics Bootloader Node

/-- What is left of `firmware_bin`, the buffer of `crcCalc`, and its two running results. -/
structure CalcState where
  firmwareBin : List Byte
  word : Vector Byte 4
  imageCrc : UInt16
  firmwareSize : UInt32

/-- `fread(_word, FLASH_WORD_SIZE, 1, firmware_bin)`: the number of whole words that have been
read. Bytes of a part of a word are read as well, and do not count. -/
def fread (state : CalcState) : Nat × CalcState :=
  (if 4 ≤ state.firmwareBin.length then 1 else 0,
    { state with
      firmwareBin := state.firmwareBin.drop 4
      word := Vector.ofFn fun i => state.firmwareBin.getD i state.word[i] })

def crcCalcWord (state : CalcState) : CalcState :=
  { state with
    imageCrc := state.word.toList.foldl crc16 state.imageCrc
    firmwareSize := state.firmwareSize + 4 }

/-- `while ( 1 == (nret = fread(...)) )`, and the `nret` with which it ends. -/
def readWords : Nat → CalcState → Nat × CalcState
  | 0, state => (0, state)
  | fuel + 1, state =>
      if 1 = (fread state).1 then readWords fuel (crcCalcWord (fread state).2)
      else fread state

/-- `crcCalc`, with the `firmware_size` that it leaves. -/
def crcCalc (firmwareBin : List Byte) : UInt16 × UInt32 :=
  let (nret, state) := readWords (firmwareBin.length + 1) ⟨firmwareBin, Vector.replicate 4 0, 0, 0⟩
  let state := if nret ≠ 0 then crcCalcWord state else state
  (crc16 (crc16 state.imageCrc 0) 0, state.firmwareSize)

/-- `firmware_verified`, and what `sscanf` leaves in the four bytes from `version` on, which
are more than the field has, and in `uuid`. -/
structure Arguments where
  firmwareVerified : Int
  version : UInt32
  uuid : UInt32

/-- The struct that `main` fills, as it lies in the memory of a little-endian host. -/
def metadata (arguments : Arguments) (crcResult : UInt16) (firmwareSize : UInt32) : OtaMetadata :=
  let crcShadow := if arguments.firmwareVerified ≠ 0 then crcResult else 0
  ⟨#v[memoryByte crcResult.toNat 0, memoryByte crcResult.toNat 1,
    memoryByte crcShadow.toNat 0, memoryByte crcShadow.toNat 1,
    memoryByte firmwareSize.toNat 0, memoryByte firmwareSize.toNat 1,
    memoryByte firmwareSize.toNat 2, memoryByte firmwareSize.toNat 3,
    memoryByte arguments.uuid.toNat 0, memoryByte arguments.uuid.toNat 1,
    memoryByte arguments.uuid.toNat 2, memoryByte arguments.uuid.toNat 3,
    memoryByte arguments.version.toNat 0, memoryByte arguments.version.toNat 1,
    memoryByte arguments.version.toNat 2, memoryByte arguments.version.toNat 3]⟩

/-- The metadata that `main` computes for a file. -/
def fileMetadata (arguments : Arguments) (firmwareBin : List Byte) : OtaMetadata :=
  metadata arguments (crcCalc firmwareBin).1 (crcCalc firmwareBin).2

/-- `main`: the content of `firmware-metadata.bin`. -/
def main (arguments : Arguments) (firmwareBin : List Byte) : List Byte :=
  (fileMetadata arguments firmwareBin).bytes.toList ++ List.replicate 240 0xFF

section Calc

/-- The bytes of a file that make whole words. -/
def wholeWords (firmwareBin : List Byte) : List Byte :=
  firmwareBin.take (firmwareBin.length / 4 * 4)

theorem fread_word {state : CalcState} (h : 4 ≤ state.firmwareBin.length) :
    (fread state).2.word.toList = state.firmwareBin.take 4 := by
  refine List.ext_getElem (by simp [h]) fun i hi hi' => ?_
  have hIn : i < state.firmwareBin.length := by
    rw [Vector.length_toList] at hi
    omega
  rw [List.getElem_take, Vector.getElem_toList]
  simp [fread, hIn]

/-- The loop ends with what is left of a word, and has taken every whole word before it. -/
theorem readWords_result (fuel : Nat) (state : CalcState) (hFuel : state.firmwareBin.length < fuel) :
    (readWords fuel state).1 = 0 ∧
      (readWords fuel state).2.imageCrc =
        (wholeWords state.firmwareBin).foldl crc16 state.imageCrc ∧
      (readWords fuel state).2.firmwareSize =
        state.firmwareSize + UInt32.ofNat (state.firmwareBin.length / 4 * 4) := by
  induction fuel generalizing state with
  | zero => exact absurd hFuel (Nat.not_lt_zero _)
  | succ fuel ih =>
      by_cases hWord : 4 ≤ state.firmwareBin.length
      · have hStep : readWords (fuel + 1) state = readWords fuel (crcCalcWord (fread state).2) := by
          have hOne : 1 = (fread state).1 := (if_pos hWord).symm
          rw [readWords, if_pos hOne]
        have hRest : (crcCalcWord (fread state).2).firmwareBin = state.firmwareBin.drop 4 := rfl
        have hCrc : (crcCalcWord (fread state).2).imageCrc =
            (state.firmwareBin.take 4).foldl crc16 state.imageCrc := by
          rw [← fread_word hWord]
          rfl
        have hSize : (crcCalcWord (fread state).2).firmwareSize = state.firmwareSize + 4 := rfl
        have hCount : (state.firmwareBin.length - 4) / 4 * 4 + 4 =
            state.firmwareBin.length / 4 * 4 := by omega
        have hBytes : wholeWords state.firmwareBin =
            state.firmwareBin.take 4 ++ wholeWords (state.firmwareBin.drop 4) := by
          rw [wholeWords, wholeWords, List.length_drop, ← List.take_add, Nat.add_comm, hCount]
        obtain ⟨hNret, hRunCrc, hRunSize⟩ := ih (crcCalcWord (fread state).2) (by
          rw [hRest, List.length_drop]
          omega)
        refine ⟨by rw [hStep, hNret], ?_, ?_⟩
        · rw [hStep, hRunCrc, hRest, hCrc, hBytes, List.foldl_append]
        · rw [hStep, hRunSize, hRest, hSize, List.length_drop, ← hCount, UInt32.ofNat_add,
            UInt32.add_assoc]
          exact congrArg (state.firmwareSize + ·) (UInt32.add_comm _ _)
      · have hZero : (fread state).1 = 0 := if_neg hWord
        have hNot : ¬ 1 = (fread state).1 := by
          rw [hZero]
          exact Nat.one_ne_zero
        have hNone : state.firmwareBin.length / 4 * 4 = 0 := by omega
        rw [readWords, if_neg hNot, wholeWords, hNone, List.take_zero]
        exact ⟨hZero, rfl, (UInt32.add_zero _).symm⟩

/-- A part of a word at the end of the file is dropped. -/
theorem crcCalc_eq (firmwareBin : List Byte) : crcCalc firmwareBin =
    (crcBytes (wholeWords firmwareBin), UInt32.ofNat (firmwareBin.length / 4 * 4)) := by
  obtain ⟨hNret, hCrc, hSize⟩ := readWords_result (firmwareBin.length + 1)
    ⟨firmwareBin, Vector.replicate 4 0, 0, 0⟩ (Nat.lt_succ_self _)
  have hNot : ¬ (readWords (firmwareBin.length + 1)
      ⟨firmwareBin, Vector.replicate 4 0, 0, 0⟩).1 ≠ 0 := not_not.mpr hNret
  rw [crcCalc]
  simp only [if_neg hNot, hCrc, hSize, UInt32.zero_add]
  rfl

end Calc

section Fields

variable (arguments : Arguments) (firmwareBin : List Byte)

theorem crc_fileMetadata :
    (fileMetadata arguments firmwareBin).crc = (crcBytes (wholeWords firmwareBin)).toNat := by
  have hCrc := u16_memoryByte (crcCalc firmwareBin).1.toNat_lt
  rw [crcCalc_eq] at hCrc
  rw [fileMetadata, crcCalc_eq]
  exact hCrc

theorem crcShadow_fileMetadata : (fileMetadata arguments firmwareBin).crcShadow =
    if arguments.firmwareVerified ≠ 0 then (crcBytes (wholeWords firmwareBin)).toNat else 0 := by
  have hShadow := u16_memoryByte (if arguments.firmwareVerified ≠ 0 then
    crcBytes (wholeWords firmwareBin) else 0).toNat_lt
  rw [fileMetadata, crcCalc_eq]
  refine hShadow.trans ?_
  split_ifs
  · rfl
  · rfl

theorem size_fileMetadata : (fileMetadata arguments firmwareBin).size =
    firmwareBin.length / 4 * 4 % 0x100000000 := by
  have hSize := u32_memoryByte (crcCalc firmwareBin).2.toNat_lt
  rw [crcCalc_eq] at hSize
  rw [fileMetadata, crcCalc_eq]
  exact hSize.trans UInt32.toNat_ofNat'

/-- The header takes the space that the image leaves. -/
theorem main_length : (main arguments firmwareBin).length = otaMetadataSpace := by
  rw [main, List.length_append, Vector.length_toList, List.length_replicate]
  rfl

end Fields

section Placed

variable {memory : Nat → Byte} {base : Nat} {arguments : Arguments}
  {firmwareBin placed : List Byte}

/-- The header for a file, with these bytes behind it, lies at an address. -/
def Placed (memory : Nat → Byte) (base : Nat) (arguments : Arguments)
    (firmwareBin placed : List Byte) : Prop :=
  NorFlash.slice memory base (otaMetadataSpace + placed.length) =
    main arguments firmwareBin ++ placed

theorem Placed.header (h : Placed memory base arguments firmwareBin placed) :
    metadataAt memory base = fileMetadata arguments firmwareBin := by
  rw [Placed, NorFlash.slice_add] at h
  have hHeader := (List.append_inj h (by rw [NorFlash.slice_length, main_length])).1
  have hBytes : (Vector.ofFn fun i : Fin 16 => memory (base + i)) =
      (fileMetadata arguments firmwareBin).bytes := by
    refine Vector.ext fun i hi => ?_
    have hByte : (NorFlash.slice memory base otaMetadataSpace)[i]? =
        (main arguments firmwareBin)[i]? := congrArg (·[i]?) hHeader
    rw [NorFlash.slice_getElem? _ (by simp only [otaMetadataSpace]; omega), main,
      List.getElem?_append_left (by simpa using hi)] at hByte
    rw [Vector.getElem_ofFn]
    simpa [hi] using hByte
  exact congrArg OtaMetadata.mk hBytes

theorem Placed.content (h : Placed memory base arguments firmwareBin placed) :
    NorFlash.slice memory (base + otaMetadataSpace) placed.length = placed := by
  rw [Placed, NorFlash.slice_add] at h
  exact (List.append_inj h (by rw [NorFlash.slice_length, main_length])).2

end Placed

end Smarthome.GenerateMetadata
