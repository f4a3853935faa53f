import Smarthome.Flash.Crc
import Smarthome.Node.SlotVerification

/-! The two validations of an image: the node checks the download slot against its
`crc_shadow`, and the bootloader the copy of 25 pages against its `crc`. -/
namespace Smarthome.Device

open Semantics Routine Bootloader

/-- A loop over words comes to an end: from the last word of the 32-bit space the address
would go on at zero. -/
def LoopEnds (start size : Nat) : Prop := (start + size) % 0x100000000 ≤ 0xFFFFFFFC

/-- The metadata of the download slot. -/
def slotMetadata (external : Nat → Byte) : OtaMetadata :=
  metadataAt external (slotAddress downloadSlot)

/-- `verify_ota_slot(1)` of the node reads the metadata and returns `VERIFY_SLOT_OK`. -/
structure NodeAccepts (unread : OtaMetadata) (board : Board) : Prop where
  metadataRead : (getOtaSlotMetadata downloadSlot board).1 =
    some (some (slotMetadata board.external))
  loopEnds : LoopEnds (slotAddress downloadSlot + otaMetadataSpace)
    (slotMetadata board.external).size
  accepted : (Node.verifyOtaSlot unread downloadSlot board).1 = some .correctCrc

/-- `update_firmware(1)`, and then `verify_current_firmware` of what is there. -/
def copyAndVerify : Boot Verdict := do
  updateFirmware downloadSlot
  let currentFirmware ← getCurrentMetadata
  verifyCurrentFirmware currentFirmware

/-- The bootloader takes the copy of the download slot for an image with a correct CRC. -/
def BootAccepts (start : Board) : Prop :=
  LoopEnds (currentFirmware + otaMetadataSpace) (slotMetadata start.external).size ∧
    (copyAndVerify start).1 = some .correctCrc

section Node

/-- The rest of `verify_ota_slot`, after the metadata. -/
def verifyImage (metadata : OtaMetadata) : Boot Verdict := do
  let start := slotAddress downloadSlot + otaMetadataSpace
  let endAddress := (start + metadata.size) % 0x100000000
  if ← exchange then
    match ← readSlotWords endAddress start endAddress 0 with
    | some crc =>
        return if metadata.crcShadow ≠ (crc16 (crc16 crc 0) 0).toNat then .nonCorrectCrc
          else .correctCrc
    | none => return .nonReadFlash
  else return .nonReadFlash

/-- What the node accepts has the right `crc_shadow`, where nothing is read beyond the memory. -/
theorem NodeAccepts.crcShadow_eq {unread : OtaMetadata} {board : Board}
    (h : NodeAccepts unread board)
    (hEnd : (slotAddress downloadSlot + otaMetadataSpace + (slotMetadata board.external).size) %
      0x100000000 ≤ 0x1000000) :
    (slotMetadata board.external).crcShadow =
      (recomputedCrc board.external (slotAddress downloadSlot)).toNat := by
  have hUsed : Node.usedMetadata unread downloadSlot board = slotMetadata board.external := by
    rw [Node.usedMetadata, h.metadataRead]
    rfl
  have hShadow := Node.crcShadow_of_correct h.accepted
  rw [hUsed, Node.slotCrc_eq_imageCrc board.external downloadSlot hEnd] at hShadow
  exact hShadow

end Node

section Bootloader

/-- The verdict on the internal image. -/
theorem verifyCurrentFirmware_result (board : Board) :
    (verifyCurrentFirmware (metadataAt board.internal currentFirmware) board).1 =
      some (if ImageMatches board.internal currentFirmware then .correctCrc
        else .nonCorrectCrc) := by
  have hRun : (verifyCurrentFirmware (metadataAt board.internal currentFirmware) board).1 =
      some (if (verifiedMetadata board).crcShadow =
        (metadataAt board.internal currentFirmware).crc then Verdict.correctCrc
          else Verdict.nonCorrectCrc) := rfl
  rw [hRun, verifiedMetadata, OtaMetadata.crcShadow_setCrcShadow]
  exact congrArg some (if_congr Iff.rfl rfl rfl)

/-- The bootloader checks the first 25 pages of the slot, and what is behind them. -/
theorem copyAndVerify_result (start : Board) : ∃ after, Copying start downloadSlot 25 after ∧
    (copyAndVerify start).1 =
      some (if ImageMatches after.internal currentFirmware then .correctCrc else .nonCorrectCrc) := by
  obtain ⟨-, r, hResult, hCopied⟩ :=
    updateFirmware_triple start downloadSlot start ⟨rfl, rfl, rfl⟩
  have hVerify (after : Board) : ((getCurrentMetadata >>= fun currentFirmware =>
      verifyCurrentFirmware currentFirmware) after).1 = some (if
        ImageMatches after.internal currentFirmware then .correctCrc else .nonCorrectCrc) :=
    verifyCurrentFirmware_result after
  have hSplit : copyAndVerify = updateFirmware downloadSlot >>= fun _ => getCurrentMetadata >>=
      fun currentFirmware => verifyCurrentFirmware currentFirmware := rfl
  rw [hSplit]
  generalize updateFirmware downloadSlot = update at hResult hCopied
  have hRun : update start = (some r, (update start).2) := Prod.ext hResult rfl
  refine ⟨applyAll (update start).2 start, hCopied.1, ?_⟩
  rw [bind_of_run hRun]
  exact hVerify _

theorem sameImage_of_copying {start after : Board} (h : Copying start downloadSlot 25 after) :
    SameImage after.internal currentFirmware start.external (slotAddress downloadSlot) :=
  fun i hi _ _ => h.copied i hi

end Bootloader

/-- Where the loop of the bootloader reads nothing, since the end of the image is past the end
of the 32-bit space. -/
def EndWraps (size : Nat) : Prop :=
  0x100000000 ≤ currentFirmware + otaMetadataSpace + size

section Agreement

variable {unread : OtaMetadata} {board start after : Board}

theorem size_lt (external : Nat → Byte) : (slotMetadata external).size < 0x100000000 :=
  u32_lt _ _ _ _

theorem slotAddress_download : slotAddress downloadSlot = 0x32000 := rfl

/-- The metadata of the copy are those of the slot. -/
theorem copied_metadata (hExternal : start.external = board.external)
    (h : Copying start downloadSlot 25 after) :
    (metadataAt after.internal currentFirmware).crc = (slotMetadata board.external).crc ∧
      (metadataAt after.internal currentFirmware).size = (slotMetadata board.external).size := by
  have hSame := (sameImage_of_copying h).metadata
  rw [hExternal] at hSame
  exact hSame

theorem recomputedCrc_of_wraps (hExternal : start.external = board.external)
    (h : Copying start downloadSlot 25 after)
    (hWraps : EndWraps (slotMetadata board.external).size) :
    recomputedCrc after.internal currentFirmware = 0 ∧
      recomputedCrc board.external (slotAddress downloadSlot) = 0 := by
  have hSize := size_lt board.external
  simp only [EndWraps, currentFirmware, otaMetadataSpace] at hWraps
  constructor
  · rw [recomputedCrc, (copied_metadata hExternal h).2]
    apply imageCrc_of_end_le
    simp only [currentFirmware, otaMetadataSpace]
    omega
  · apply imageCrc_of_end_le
    rw [slotMetadata] at hWraps hSize
    simp only [slotAddress_download, otaMetadataSpace] at hWraps hSize ⊢
    omega

/-- The copy matches if the slot has the same CRC twice, where both loops read the same. -/
theorem copy_matches_iff (hAccepts : NodeAccepts unread board)
    (hExternal : start.external = board.external) (h : Copying start downloadSlot 25 after)
    (hRead : ImageFits board.external (slotAddress downloadSlot) ∨
      EndWraps (slotMetadata board.external).size) :
    ImageMatches after.internal currentFirmware ↔
      (slotMetadata board.external).crc = (slotMetadata board.external).crcShadow := by
  have hSize := size_lt board.external
  have hSame := sameImage_of_copying h
  rw [hExternal] at hSame
  have hCrc : recomputedCrc after.internal currentFirmware =
      recomputedCrc board.external (slotAddress downloadSlot) := by
    rcases hRead with hFits | hWraps
    · exact hSame.recomputedCrc_eq (hSame.fits_iff.mpr hFits) currentFirmware_lt
        (slotAddress_lt downloadSlot)
    · obtain ⟨hCopy, hSlot⟩ := recomputedCrc_of_wraps hExternal h hWraps
      rw [hCopy, hSlot]
  have hEnd : (slotAddress downloadSlot + otaMetadataSpace + (slotMetadata board.external).size) %
      0x100000000 ≤ 0x1000000 := by
    rcases hRead with hFits | hWraps
    · rw [ImageFits, ← slotMetadata] at hFits
      simp only [slotAddress_download, otaMetadataSpace] at hFits ⊢
      omega
    · simp only [EndWraps, currentFirmware, otaMetadataSpace] at hWraps
      simp only [slotAddress_download, otaMetadataSpace]
      omega
  rw [ImageMatches, hCrc, (copied_metadata hExternal h).1, hAccepts.crcShadow_eq hEnd]
  exact eq_comm

/-- A larger image is checked together with what is behind the copied pages: it cannot match
its CRC whatever is there. -/
theorem exists_not_matches (external : Nat → Byte)
    (hFits : ¬ ImageFits external (slotAddress downloadSlot))
    (hWraps : ¬ EndWraps (slotMetadata external).size) :
    ∃ start : Board, start.external = external ∧
      (copyAndVerify start).1 ≠ some .correctCrc := by
  by_contra hAll
  have hMatches (internal : Nat → Byte) : ∃ after : Board,
      Copying ⟨internal, external, [], false⟩ downloadSlot 25 after ∧
        ImageMatches after.internal currentFirmware := by
    obtain ⟨after, hCopying, hResult⟩ := copyAndVerify_result ⟨internal, external, [], false⟩
    refine ⟨after, hCopying, ?_⟩
    by_contra hNot
    rw [if_neg hNot] at hResult
    exact hAll ⟨_, rfl, by rw [hResult]; simp⟩
  obtain ⟨zero, hZero, hZeroMatches⟩ := hMatches fun _ => 0
  obtain ⟨one, hOne, hOneMatches⟩ := hMatches fun a => if a = 0x1B000 then 1 else 0
  have hNotImage : ¬ InImage 0x1B000 := fun h => absurd h.2 (by decide)
  have hAgree (a : Nat) (ha : a ≠ 0x1B000) : zero.internal a = one.internal a := by
    by_cases hImage : InImage a
    · obtain ⟨j, rfl⟩ : ∃ j, a = 0x2000 + j := ⟨a - 0x2000, by unfold InImage at hImage; omega⟩
      have hj : j < 25 * 0x1000 := by
        unfold InImage at hImage
        omega
      rw [hZero.copied j hj, hOne.copied j hj]
    · rw [hZero.outside a hImage, hOne.outside a hImage]
      simp [ha]
  obtain ⟨hCrc, hSize⟩ := (sameImage_of_copying hZero).metadata
  obtain ⟨hCrcOne, hSizeOne⟩ := (sameImage_of_copying hOne).metadata
  have hEqual : recomputedCrc zero.internal currentFirmware =
      recomputedCrc one.internal currentFirmware := by
    rw [← UInt16.toNat_inj, hZeroMatches, hOneMatches, hCrc, hCrcOne]
  rw [recomputedCrc, recomputedCrc, hSize, hSizeOne] at hEqual
  rw [ImageFits] at hFits
  rw [EndWraps, slotMetadata] at hWraps
  simp only [otaMetadataSpace, currentFirmware] at hFits hWraps hEqual
  refine imageCrc_ne hAgree ?_ ?_ (n := 0x63C0) rfl (by omega) (by omega) hEqual
  · rw [hZero.outside _ hNotImage]
  · rw [hOne.outside _ hNotImage]
    simp

/-- **When the bootloader agrees with the node.** What the node accepts is accepted after the
copy, whatever else is in the internal flash, if and only if both fields of the metadata hold the
same CRC and the image ends in the copied pages, or has a size with which nothing is read. -/
theorem validation_agrees_iff (hAccepts : NodeAccepts unread board) :
    (∀ start : Board, start.external = board.external → BootAccepts start) ↔
      (slotMetadata board.external).crc = (slotMetadata board.external).crcShadow ∧
        (ImageFits board.external (slotAddress downloadSlot) ∨
          EndWraps (slotMetadata board.external).size) := by
  have hSize := size_lt board.external
  constructor
  · intro hAll
    have hRead : ImageFits board.external (slotAddress downloadSlot) ∨
        EndWraps (slotMetadata board.external).size := by
      by_contra hNot
      rw [not_or] at hNot
      obtain ⟨start, hExternal, hFails⟩ := exists_not_matches board.external hNot.1 hNot.2
      exact hFails (hAll start hExternal).2
    refine ⟨?_, hRead⟩
    obtain ⟨after, hCopying, hResult⟩ := copyAndVerify_result board
    have hCorrect := (hAll board rfl).2
    have hMatches : ImageMatches after.internal currentFirmware := by
      by_contra hNot
      rw [hResult, if_neg hNot] at hCorrect
      cases hCorrect
    exact (copy_matches_iff hAccepts rfl hCopying hRead).mp hMatches
  · rintro ⟨hCrc, hRead⟩ start hExternal
    obtain ⟨after, hCopying, hResult⟩ := copyAndVerify_result start
    have hMatches := (copy_matches_iff hAccepts hExternal hCopying hRead).mpr hCrc
    refine ⟨?_, by rw [hResult, if_pos hMatches]⟩
    rw [LoopEnds, hExternal]
    rcases hRead with hFits | hWraps
    · rw [ImageFits, ← slotMetadata] at hFits
      simp only [currentFirmware, otaMetadataSpace] at hFits ⊢
      omega
    · simp only [EndWraps, currentFirmware, otaMetadataSpace] at hWraps ⊢
      omega

end Agreement

/-- A slot with an empty image and this byte as its CRC. -/
def emptySlot (crc : Byte) (a : Nat) : Byte := if a = 0x32000 then crc else 0

def emptySlotBoard (crc : Byte) : Board := ⟨fun _ => 0, emptySlot crc, [], false⟩

theorem metadataLength_pos : 0 < 16 := by decide

theorem slotMetadata_empty (crc : Byte) :
    slotMetadata (emptySlot crc) = ⟨(Vector.replicate 16 0).set 0 crc metadataLength_pos⟩ := by
  have hBytes : (Vector.ofFn fun i : Fin 16 => emptySlot crc (slotAddress downloadSlot + i)) =
      (Vector.replicate 16 0).set 0 crc metadataLength_pos := by
    refine Vector.ext fun i hi => ?_
    rw [Vector.getElem_ofFn, slotAddress_download, emptySlot, Vector.getElem_set]
    rcases Nat.eq_zero_or_pos i with rfl | hPos
    · simp
    · simp [Nat.ne_of_gt hPos, (Nat.ne_of_gt hPos).symm]
  exact congrArg OtaMetadata.mk hBytes

theorem size_empty (crc : Byte) : (slotMetadata (emptySlot crc)).size = 0 := by
  rw [slotMetadata_empty]
  rfl

theorem readSlotWords_done {fuel address endAddress : Nat} {crc : UInt16}
    (h : endAddress ≤ address) :
    readSlotWords fuel address endAddress crc = (return some crc : Boot (Option UInt16)) := by
  cases fuel with
  | zero => rfl
  | succ fuel => rw [readSlotWords, if_neg (Nat.not_lt.mpr h)]

/-- An image of no bytes has the CRC zero. -/
theorem verifyImage_of_size_zero {metadata : OtaMetadata} (hSize : metadata.size = 0)
    (hShadow : metadata.crcShadow = 0) {board : Board} (hOutcomes : board.outcomes = []) :
    (verifyImage metadata board).1 = some .correctCrc := by
  have hEnd : (slotAddress downloadSlot + otaMetadataSpace + metadata.size) % 0x100000000 ≤
      slotAddress downloadSlot + otaMetadataSpace := by
    rw [hSize, slotAddress_download]
    decide
  have hExchange : exchange board = (some true, [.exchange]) := by
    show (some (board.outcomes.headD true), [FlashOp.exchange]) = _
    rw [hOutcomes]
    rfl
  rw [verifyImage, bind_of_run hExchange]
  have hWords (s : Board) : (return some 0 : Boot (Option UInt16)) s = (some (some 0), []) := rfl
  have hZero : (crc16 (crc16 0 0) 0).toNat = 0 := by simp [crc16, crc16Loop, crc16Bit]
  simp only [readSlotWords_done hEnd, if_true, bind_of_run (hWords _), hShadow, hZero]
  rfl

/-- Whatever CRC the metadata name, the node accepts it. -/
theorem nodeAccepts_empty (unread : OtaMetadata) (crc : Byte) :
    NodeAccepts unread (emptySlotBoard crc) where
  metadataRead := rfl
  loopEnds := by
    have hExternal : (emptySlotBoard crc).external = emptySlot crc := rfl
    rw [LoopEnds, hExternal, size_empty, slotAddress_download]
    decide
  accepted := by
    have hShadow : (slotMetadata (emptySlot crc)).crcShadow = 0 := by
      rw [slotMetadata_empty]
      rfl
    have hRun : getOtaSlotMetadata downloadSlot (emptySlotBoard crc) =
        (some (some (slotMetadata (emptySlot crc))), [.exchange, .exchange]) := rfl
    have hSplit : Node.verifyOtaSlot unread downloadSlot = getOtaSlotMetadata downloadSlot >>=
        fun metadata => verifyImage (metadata.getD unread) := rfl
    have hOutcomes : (applyAll [FlashOp.exchange, FlashOp.exchange] (emptySlotBoard crc)).outcomes =
        [] := rfl
    rw [hSplit, bind_of_run hRun]
    simp only [Option.getD_some]
    exact verifyImage_of_size_zero (size_empty crc) hShadow hOutcomes

/-- An empty image whose two fields hold zero. -/
theorem validation_agrees_zero : BootAccepts (emptySlotBoard 0) := by
  have hAccepts := nodeAccepts_empty ⟨Vector.replicate 16 0⟩ 0
  have hCrc : (slotMetadata (emptySlot 0)).crc = (slotMetadata (emptySlot 0)).crcShadow := by
    rw [slotMetadata_empty]
    rfl
  have hFits : ImageFits (emptySlot 0) (slotAddress downloadSlot) := by
    rw [ImageFits, ← slotMetadata, size_empty]
    decide
  exact (validation_agrees_iff hAccepts).mpr ⟨hCrc, Or.inl hFits⟩ (emptySlotBoard 0) rfl

/-- With another value in the field that only the bootloader reads, the node accepts an image
that the bootloader reports. -/
theorem validation_agrees_fails : ¬ ∀ (unread : OtaMetadata) (board : Board)
    (_ : NodeAccepts unread board) (start : Board) (_ : start.external = board.external),
    BootAccepts start := by
  intro h
  have hAccepts := nodeAccepts_empty ⟨Vector.replicate 16 0⟩ 1
  have hBoot := (h _ _ hAccepts (emptySlotBoard 1) rfl).2
  obtain ⟨after, hCopying, hResult⟩ := copyAndVerify_result (emptySlotBoard 1)
  have hFits : ImageFits (emptySlot 1) (slotAddress downloadSlot) := by
    rw [ImageFits, ← slotMetadata, size_empty]
    decide
  have hMatches : ImageMatches after.internal currentFirmware := by
    by_contra hNot
    rw [hResult, if_neg hNot] at hBoot
    cases hBoot
  have hCrc := (copy_matches_iff hAccepts rfl hCopying (Or.inl hFits)).mp hMatches
  rw [show (emptySlotBoard 1).external = emptySlot 1 from rfl, slotMetadata_empty] at hCrc
  exact absurd hCrc (by decide)

end Smarthome.Device
