import Smarthome.Host.GenerateMetadata

/-! What the metadata of the host tool are worth on the device: an image behind its own header
passes both verifications, and what the header covers of it is checked. -/
namespace Smarthome.GenerateMetadata

open Semantics Bootloader Node Device

section Placed

variable {memory : Nat → Byte} {base : Nat} {arguments : Arguments}
  {firmwareBin placed : List Byte}

theorem size_le (arguments : Arguments) (firmwareBin : List Byte) :
    (fileMetadata arguments firmwareBin).size ≤ firmwareBin.length := by
  rw [size_fileMetadata]
  omega

/-- The loops over an image read the words of the file. -/
theorem Placed.imageWords (h : Placed memory base arguments firmwareBin placed)
    (hLength : placed.length = firmwareBin.length) (hLt : firmwareBin.length < 0x100000000) :
    imageWords memory (base + otaMetadataSpace) (fileMetadata arguments firmwareBin).size =
      wholeWords placed := by
  have hSize : (fileMetadata arguments firmwareBin).size = placed.length / 4 * 4 := by
    rw [size_fileMetadata, hLength]
    omega
  rw [hSize, imageWords_of_dvd _ _ (Nat.dvd_mul_left ..),
    ← NorFlash.slice_take _ _ (Nat.div_mul_le_self ..), h.content, wholeWords]

/-- The CRC of what lies behind a header in a slot. -/
theorem Placed.slotCrc {slot : OtaSlot}
    (h : Placed memory (slotAddress slot) arguments firmwareBin placed)
    (hLength : placed.length = firmwareBin.length)
    (hFits : slotAddress slot + otaMetadataSpace + firmwareBin.length ≤ 0x1000000) :
    slotCrc memory slot (fileMetadata arguments firmwareBin).size =
      crcBytes (wholeWords placed) := by
  have hSize := size_le arguments firmwareBin
  rw [slotCrc_eq_imageCrc memory slot (by omega), imageCrc_eq_crcBytes (by omega),
    h.imageWords hLength (by omega)]

/-- The CRC of what lies behind a header in the internal flash. -/
theorem Placed.recomputedCrc (h : Placed memory base arguments firmwareBin placed)
    (hLength : placed.length = firmwareBin.length)
    (hFits : base + otaMetadataSpace + firmwareBin.length < 0x100000000) :
    recomputedCrc memory base = crcBytes (wholeWords placed) := by
  have hSize := size_le arguments firmwareBin
  rw [Smarthome.recomputedCrc, h.header, imageCrc_eq_crcBytes (by omega),
    h.imageWords hLength (by omega)]

/-- A memory with a header at an address, and these bytes behind it. -/
@[irreducible] def placedAt (base : Nat) (arguments : Arguments)
    (firmwareBin placed : List Byte) : Nat → Byte :=
  fun a => (main arguments firmwareBin ++ placed).getD (a - base) 0xFF

theorem placed_placedAt (base : Nat) (arguments : Arguments) (firmwareBin placed : List Byte) :
    Placed (placedAt base arguments firmwareBin placed) base arguments firmwareBin placed := by
  have hLength : (main arguments firmwareBin ++ placed).length =
      otaMetadataSpace + placed.length := by rw [List.length_append, main_length]
  have hSlice := NorFlash.slice_getD base (main arguments firmwareBin ++ placed) 0xFF
  rw [hLength] at hSlice
  unfold Placed placedAt
  exact hSlice

end Placed

/-- **Generated metadata verify.** A pre-verified header with its file behind it, in any slot
or as the internal image, passes the verification there, whatever bytes follow. Where reads
of a slot fail, its CRC is still never reported as wrong. -/
theorem generated_metadata_verifies (arguments : Arguments) (firmwareBin : List Byte)
    (unread : OtaMetadata) (slot : OtaSlot) (board : Board)
    (hVerified : arguments.firmwareVerified = 1)
    (hFits : otaMetadataSpace + firmwareBin.length ≤ 25 * 0x1000) :
    (Placed board.external (slotAddress slot) arguments firmwareBin firmwareBin →
      (Works board → (Node.verifyOtaSlot unread slot board).1 = some .correctCrc) ∧
      (metadataIsRead slot board = true →
        (Node.verifyOtaSlot unread slot board).1 ≠ some .nonCorrectCrc)) ∧
    (Placed board.internal currentFirmware arguments firmwareBin firmwareBin →
      ((getCurrentMetadata >>= fun metadata => verifyCurrentFirmware metadata) board).1 =
        some .correctCrc) := by
  have hShadow := crcShadow_fileMetadata arguments firmwareBin
  rw [if_pos (by rw [hVerified]; decide)] at hShadow
  have hSlot := slotAddress_le slot
  constructor
  · intro hPlaced
    refine verdicts_of_crcShadow ?_
    rw [hPlaced.header, hShadow, hPlaced.slotCrc rfl (by omega)]
  · intro hPlaced
    have hMatches : ImageMatches board.internal currentFirmware := by
      rw [ImageMatches, hPlaced.recomputedCrc rfl (by simp only [currentFirmware]; omega),
        hPlaced.header, crc_fileMetadata]
    refine (verifyCurrentFirmware_result board).trans ?_
    rw [if_pos hMatches]

/-- The header of a file of one word, in the download slot and in the internal flash. -/
def oneWordBoard : Board :=
  ⟨placedAt currentFirmware ⟨1, 1, 0x12345678⟩ [1, 2, 3, 4] [1, 2, 3, 4],
    placedAt (slotAddress downloadSlot) ⟨1, 1, 0x12345678⟩ [1, 2, 3, 4] [1, 2, 3, 4], [], false⟩

theorem generated_metadata_verifies_word :
    (Node.verifyOtaSlot ⟨Vector.replicate 16 0⟩ downloadSlot oneWordBoard).1 = some .correctCrc ∧
      ((getCurrentMetadata >>= fun metadata => verifyCurrentFirmware metadata) oneWordBoard).1 =
        some .correctCrc := by
  have hBoth := generated_metadata_verifies ⟨1, 1, 0x12345678⟩ [1, 2, 3, 4]
    ⟨Vector.replicate 16 0⟩ downloadSlot oneWordBoard rfl (by decide)
  have hSlot := placed_placedAt (slotAddress downloadSlot) ⟨1, 1, 0x12345678⟩ [1, 2, 3, 4]
    [1, 2, 3, 4]
  have hInternal := placed_placedAt currentFirmware ⟨1, 1, 0x12345678⟩ [1, 2, 3, 4] [1, 2, 3, 4]
  have hWorks : Works oneWordBoard := fun outcome hMem => absurd hMem List.not_mem_nil
  exact ⟨(hBoth.1 hSlot).1 hWorks, hBoth.2 hInternal⟩

/-- The metadata cover the whole file: the size is not less than its length, the CRC is that of
all its bytes, and with one of them changed the image is rejected in every slot behind which
the memory has room for it, whenever its metadata can be read. -/
structure Covers (arguments : Arguments) (firmwareBin : List Byte) : Prop where
  size_ge : firmwareBin.length ≤ (fileMetadata arguments firmwareBin).size
  crc_eq : (fileMetadata arguments firmwareBin).crc = (crcBytes firmwareBin).toNat
  detects : ∀ (slot : OtaSlot) (unread : OtaMetadata) (board : Board) (i : Nat)
    (hi : i < firmwareBin.length) (val : Byte), val ≠ firmwareBin[i] →
      slotAddress slot + otaMetadataSpace + firmwareBin.length ≤ 0x1000000 →
      Placed board.external (slotAddress slot) arguments firmwareBin (firmwareBin.set i val) →
      metadataIsRead slot board = true →
        (Node.verifyOtaSlot unread slot board).1 ≠ some .correctCrc

/-- A change of one byte that leaves the CRC zero, which is the `crc_shadow` of an image that
is not pre-verified. -/
def ZeroCrcNearby (firmwareBin : List Byte) : Prop :=
  ∃ (i : Nat) (hi : i < firmwareBin.length) (val : Byte), val ≠ firmwareBin[i] ∧
    crcBytes (firmwareBin.set i val) = 0

section Covers

variable {arguments : Arguments} {firmwareBin : List Byte}

/-- The golden image comes first. -/
theorem slotAddress_golden_le (slot : OtaSlot) : slotAddress goldenSlot ≤ slotAddress slot := by
  revert slot
  decide

theorem wholeWords_of_dvd (h : 4 ∣ firmwareBin.length) : wholeWords firmwareBin = firmwareBin := by
  have hLength : firmwareBin.length / 4 * 4 = firmwareBin.length := Nat.div_mul_cancel h
  rw [wholeWords, hLength, List.take_length]

/-- A file with no part of a word that 32 bits can count is covered, if the CRC with which its
image is marked cannot come from another one. -/
theorem covers_of_words (hWords : 4 ∣ firmwareBin.length)
    (hLt : firmwareBin.length < 0x100000000)
    (hShadow : arguments.firmwareVerified = 0 →
      slotAddress goldenSlot + otaMetadataSpace + firmwareBin.length ≤ 0x1000000 →
        ¬ ZeroCrcNearby firmwareBin) : Covers arguments firmwareBin where
  size_ge := by
    rw [size_fileMetadata]
    omega
  crc_eq := by rw [crc_fileMetadata, wholeWords_of_dvd hWords]
  detects := by
    intro slot unread board i hi val hVal hRoom hPlaced hRead hCorrect
    have hGolden := slotAddress_golden_le slot
    have hChanged := crcShadow_of_correct hCorrect
    rw [usedMetadata_of_read hRead, hPlaced.header,
      hPlaced.slotCrc (List.length_set ..) hRoom,
      wholeWords_of_dvd (by rwa [List.length_set]), crcShadow_fileMetadata,
      wholeWords_of_dvd hWords] at hChanged
    split_ifs at hChanged with hVerified
    · exact crcBytes_set_ne hi hVal (UInt16.toNat_inj.mp hChanged).symm
    · refine hShadow (not_not.mp hVerified) (by omega) ⟨i, hi, val, hVal, ?_⟩
      exact UInt16.toNat_inj.mp hChanged.symm

/-- An image that is not pre-verified is accepted where its CRC is zero. -/
theorem not_covers_of_zeroCrc (hWords : 4 ∣ firmwareBin.length)
    (hVerified : arguments.firmwareVerified = 0)
    (hRoom : slotAddress goldenSlot + otaMetadataSpace + firmwareBin.length ≤ 0x1000000)
    (hZero : ZeroCrcNearby firmwareBin) : ¬ Covers arguments firmwareBin := by
  intro hCovers
  obtain ⟨i, hi, val, hVal, hCrc⟩ := hZero
  let board : Board := ⟨fun _ => 0xFF,
    placedAt (slotAddress goldenSlot) arguments firmwareBin (firmwareBin.set i val), [], false⟩
  have hPlaced : Placed board.external (slotAddress goldenSlot) arguments firmwareBin
      (firmwareBin.set i val) :=
    placed_placedAt (slotAddress goldenSlot) arguments firmwareBin (firmwareBin.set i val)
  have hWorks : Works board := fun outcome hMem => absurd hMem List.not_mem_nil
  have hRead : metadataIsRead goldenSlot board = true := by
    rw [metadataIsRead, getOtaSlotMetadata_result]
    rfl
  have hShadow : (fileMetadata arguments firmwareBin).crcShadow = 0 := by
    rw [crcShadow_fileMetadata, if_neg (not_not.mpr hVerified)]
  refine hCovers.detects goldenSlot (fileMetadata arguments firmwareBin) board i hi val hVal hRoom
    hPlaced hRead ((verdicts_of_crcShadow ?_).1 hWorks)
  rw [hPlaced.header, hShadow, hPlaced.slotCrc (List.length_set ..) hRoom,
    wholeWords_of_dvd (by rwa [List.length_set]), hCrc]
  rfl

end Covers

/-- **When the whole file is covered.** A part of a word at the end is left out, and the size
is a number of 32 bits. Without pre-verification, one more image is accepted: one that a
changed byte has given the CRC zero. -/
theorem covers_iff (arguments : Arguments) (firmwareBin : List Byte) :
    Covers arguments firmwareBin ↔ 4 ∣ firmwareBin.length ∧ firmwareBin.length < 0x100000000 ∧
      (arguments.firmwareVerified = 0 →
        slotAddress goldenSlot + otaMetadataSpace + firmwareBin.length ≤ 0x1000000 →
          ¬ ZeroCrcNearby firmwareBin) := by
  constructor
  · intro hCovers
    have hSize := hCovers.size_ge
    rw [size_fileMetadata] at hSize
    have hWords : 4 ∣ firmwareBin.length := by omega
    exact ⟨hWords, by omega, fun hVerified hRoom hZero =>
      not_covers_of_zeroCrc hWords hVerified hRoom hZero hCovers⟩
  · rintro ⟨hWords, hLt, hShadow⟩
    exact covers_of_words hWords hLt hShadow

/-- The metadata of a file of one byte say that it is empty. -/
theorem covers_fails : ¬ ∀ (arguments : Arguments) (firmwareBin : List Byte),
    Covers arguments firmwareBin := by
  intro h
  have hSize := (h ⟨1, 1, 0x12345678⟩ [0xFF]).size_ge
  rw [size_fileMetadata] at hSize
  exact absurd hSize (by decide)

end Smarthome.GenerateMetadata
