import Smarthome.Device.SlotSoundness

/-! The golden image that the firmware makes of itself: `backup_golden_image` copies the
internal image to slot 0, in chunks of 256 bytes. -/
namespace Smarthome.Device

open Semantics DriverCall Bootloader Node

section Copy

variable {internal memory : Nat → Byte} {flash : ExtFlash}

/-- The first bytes of the internal image, programmed on an erased slot. -/
def CopiedUpTo (internal erased : Nat → Byte) (n : Nat) (flash : ExtFlash) : Prop :=
  flash.memory = NorFlash.program (slotAddress goldenSlot)
    (NorFlash.slice internal currentFirmware n) erased

/-- A chunk that follows on what has been copied. -/
theorem backupChunk_eq_some {erased : Nat → Byte} {page chunk : Nat} (hPage : page < 25)
    (hChunk : chunk < 16)
    (h : CopiedUpTo internal erased (page * 0x1000 + chunk * 0x100) flash) :
    ∃ next, backupChunk internal page chunk flash = some next ∧
      CopiedUpTo internal erased (page * 0x1000 + (chunk + 1) * 0x100) next := by
  obtain ⟨data, hIs⟩ : ∃ data, data =
      NorFlash.slice internal (currentFirmware + page * 0x1000 + chunk * 0x100) 0x100 := ⟨_, rfl⟩
  have hAddress : (goldenImage + page) * 0x1000 + chunk * 0x100 =
      slotAddress goldenSlot + (page * 0x1000 + chunk * 0x100) := by
    have hSlot : slotAddress goldenSlot = 0x19000 := rfl
    unfold goldenImage
    omega
  have hEnd : (goldenImage + page) * 0x1000 + chunk * 0x100 + data.length ≤ 0x1000000 := by
    have hLength : data.length = 0x100 := by rw [hIs, NorFlash.slice_length]
    unfold goldenImage
    omega
  obtain ⟨next, hNext, hMemory⟩ := (storeFirmwareData_performs hEnd).untilDone
    (fun m m' ⟨k, hPart⟩ => by rw [hPart, NorFlash.program_of_program_take]) flash
  have hMore : page * 0x1000 + (chunk + 1) * 0x100 = page * 0x1000 + chunk * 0x100 + 0x100 := by
    rw [Nat.succ_mul, Nat.add_assoc]
  have hJoin := NorFlash.program_append (slotAddress goldenSlot) erased
    (NorFlash.slice internal currentFirmware (page * 0x1000 + chunk * 0x100)) data
  have hData : NorFlash.slice internal currentFirmware (page * 0x1000 + chunk * 0x100) ++ data =
      NorFlash.slice internal currentFirmware (page * 0x1000 + (chunk + 1) * 0x100) := by
    rw [hMore, NorFlash.slice_add _ _ (page * 0x1000 + chunk * 0x100), hIs, Nat.add_assoc]
  rw [NorFlash.slice_length, hData] at hJoin
  refine ⟨next, ?_, ?_⟩
  · rw [backupChunk, ← hIs]
    exact hNext
  · rw [CopiedUpTo, hMemory, h, hAddress, hJoin]

/-- `backup_golden_image` comes to an end, with the 25 pages in slot 0. -/
theorem backupGoldenImage_eq_some (internal : Nat → Byte) (flash : ExtFlash) :
    ∃ next, backupGoldenImage internal flash = some next ∧
      ∀ i < 25 * 0x1000, next.memory (slotAddress goldenSlot + i) =
        internal (currentFirmware + i) := by
  obtain ⟨erased, hErased, hBlank, -⟩ := erasePages_spec (otaImagePage_le goldenSlot) flash
  have hPage (page : Nat) (hPage : page < 25) (s : ExtFlash)
      (hs : CopiedUpTo internal erased.memory (page * 0x1000) s) :
      ∃ t, (List.range 16).foldlM (fun flash chunk => backupChunk internal page chunk flash) s =
        some t ∧ CopiedUpTo internal erased.memory ((page + 1) * 0x1000) t := by
    have hFirst : CopiedUpTo internal erased.memory (page * 0x1000 + 0 * 0x100) s := by
      rwa [Nat.zero_mul, Nat.add_zero]
    obtain ⟨t, hChunks, hCopied⟩ := foldlM_range_eq_some
      (fun chunk => CopiedUpTo internal erased.memory (page * 0x1000 + chunk * 0x100))
      (fun chunk hChunk _ h => backupChunk_eq_some hPage hChunk h) hFirst
    have hNext : page * 0x1000 + 16 * 0x100 = (page + 1) * 0x1000 := by omega
    rw [hNext] at hCopied
    exact ⟨t, hChunks, hCopied⟩
  have hStart : CopiedUpTo internal erased.memory (0 * 0x1000) erased :=
    NorFlash.program_nil.symm
  obtain ⟨next, hPages, hCopied⟩ := foldlM_range_eq_some
    (fun page => CopiedUpTo internal erased.memory (page * 0x1000)) hPage hStart
  refine ⟨next, ?_, fun i hi => ?_⟩
  · rw [backupGoldenImage, eraseOtaImage, hErased]
    exact hPages
  · have hSlot : slotAddress goldenSlot = 0x19000 := rfl
    have hGolden : otaImagePage goldenSlot = 0x19 := rfl
    rw [hCopied]
    exact NorFlash.program_slice_of_erased hi (hBlank _ ⟨i / 0x1000, by omega, by omega⟩)

end Copy

/-- **The backup is a valid golden image.** From an internal image that matches its
`crc_shadow` and ends inside its pages, and with any failures of the external flash, the backup
comes to an end with the image in slot 0. The slot is then accepted, and where later reads of it
fail after its metadata, it is still not taken for a bad golden image. -/
theorem backupGoldenImage_valid (internal : Nat → Byte) (flash : ExtFlash)
    (hShadow : (metadataAt internal currentFirmware).crcShadow =
      (recomputedCrc internal currentFirmware).toNat)
    (hFits : ImageFits internal currentFirmware) :
    ∃ next, backupGoldenImage internal flash = some next ∧
      (∀ i < 25 * 0x1000, next.memory (slotAddress goldenSlot + i) =
        internal (currentFirmware + i)) ∧
      ∀ (unread : OtaMetadata) (board : Board), board.external = next.memory →
        (Works board →
          (Node.verifyOtaSlot unread goldenSlot board).1 = some .correctCrc) ∧
        (metadataIsRead goldenSlot board = true →
          (Node.verifyOtaSlot unread goldenSlot board).1 ≠ some .nonCorrectCrc) := by
  obtain ⟨next, hNext, hCopied⟩ := backupGoldenImage_eq_some internal flash
  refine ⟨next, hNext, hCopied, fun unread board hExternal => ?_⟩
  have hMetadata : metadataAt next.memory (slotAddress goldenSlot) =
      metadataAt internal currentFirmware :=
    congrArg OtaMetadata.mk (Vector.ext fun i hi => by
      rw [Vector.getElem_ofFn, Vector.getElem_ofFn, hCopied i (by omega)])
  have hSame : SameImage next.memory (slotAddress goldenSlot) internal currentFirmware :=
    fun i hi _ _ => hCopied i hi
  have hFitsSlot : ImageFits next.memory (slotAddress goldenSlot) := hSame.fits_iff.mpr hFits
  have hCrc : slotCrc next.memory goldenSlot (metadataAt next.memory (slotAddress goldenSlot)).size =
      recomputedCrc internal currentFirmware := by
    rw [← hSame.recomputedCrc_eq hFitsSlot (slotAddress_lt goldenSlot) currentFirmware_lt]
    exact slotCrc_eq_recomputedCrc hFitsSlot
  refine verdicts_of_crcShadow ?_
  rw [hExternal, hCrc, hMetadata, hShadow]

/-- An internal image of one word of zeros. -/
@[irreducible] def oneWordImage : Nat → Byte :=
  withMetadata currentFirmware (metadataWith (0, 0) 0 4 (0, 0)) fun _ => 0

theorem metadataAt_oneWordImage :
    metadataAt oneWordImage currentFirmware = metadataWith (0, 0) 0 4 (0, 0) := by
  unfold oneWordImage
  exact metadataAt_withMetadata ..

theorem backupGoldenImage_valid_word : ∃ next,
    backupGoldenImage oneWordImage ⟨fun _ => 0x55, [false, true, true, false]⟩ = some next ∧
      (Node.verifyOtaSlot ⟨Vector.replicate 16 0⟩ goldenSlot
        ⟨oneWordImage, next.memory, [], false⟩).1 = some .correctCrc := by
  have hSize : (metadataAt oneWordImage currentFirmware).size = 4 := by
    rw [metadataAt_oneWordImage]
    exact size_metadataWith ..
  have hShadow : (metadataAt oneWordImage currentFirmware).crcShadow =
      (recomputedCrc oneWordImage currentFirmware).toNat := by
    have hWords : imageWords oneWordImage (currentFirmware + otaMetadataSpace) 4 =
        List.replicate 4 0 := by
      unfold oneWordImage
      rfl
    rw [recomputedCrc, hSize, imageCrc_eq_crcBytes (by decide), hWords, crcBytes_zero,
      metadataAt_oneWordImage]
    exact crcShadow_metadataWith ..
  have hFits : ImageFits oneWordImage currentFirmware := by
    rw [ImageFits, hSize]
    decide
  obtain ⟨next, hNext, -, hVerify⟩ :=
    backupGoldenImage_valid oneWordImage ⟨fun _ => 0x55, [false, true, true, false]⟩ hShadow hFits
  have hWorks : Works ⟨oneWordImage, next.memory, [], false⟩ :=
    fun _ hMem => absurd hMem List.not_mem_nil
  exact ⟨next, hNext, (hVerify _ _ rfl).1 hWorks⟩

end Smarthome.Device
