import Smarthome.Bootloader.Execution

/-! What the running firmware does to the two flash memories: the end of
`fw_update_process`, the end of `dag_node_process`, and `backup_golden_image`. The
functions of the internal flash are the same text in the firmware as in the bootloader. -/
namespace Smarthome.Node

open Semantics Routine Bootloader

/-- The inner part of the loops of `backup_golden_image`: a chunk of 0x100 bytes. -/
def backupChunk (internal : Nat → Byte) (page chunk : Nat) (flash : ExtFlash) : Option ExtFlash :=
  (storeFirmwareData ((goldenImage + page) * 0x1000 + chunk * 0x100)
    (NorFlash.slice internal (currentFirmware + page * 0x1000 + chunk * 0x100) 0x100)).untilDone flash

/-- `backup_golden_image`. -/
def backupGoldenImage (internal : Nat → Byte) (flash : ExtFlash) : Option ExtFlash := do
  let erased ← eraseOtaImage goldenSlot flash
  (List.range 25).foldlM (fun flash page =>
    (List.range 16).foldlM (fun flash chunk => backupChunk internal page chunk flash) flash) erased

/-- `verify_ota_slot` of the firmware, which goes on with whatever is in `unread`
when the metadata cannot be read. -/
def verifyOtaSlot (unread : OtaMetadata) (slot : OtaSlot) : Boot Verdict := do
  let metadata ← getOtaSlotMetadata slot
  let metadata := metadata.getD unread
  let start := otaImagePage slot * flashPageSize + otaMetadataSpace
  let endAddress := (start + metadata.size) % 0x100000000
  if ← exchange then
    match ← readSlotWords endAddress start endAddress 0 with
    | some crc =>
        return if metadata.crcShadow ≠ (crc16 (crc16 crc 0) 0).toNat then .nonCorrectCrc
          else .correctCrc
    | none => return .nonReadFlash
  else return .nonReadFlash

/-- The end of `fw_update_process`, when all chunks have been requested; the result
says whether it resets the system. -/
def finishUpdate (unread slotUnread : OtaMetadata) : Boot Bool := do
  let crcStatusOtaSlot ← verifyOtaSlot unread downloadSlot
  let currentFirmware ← getCurrentMetadata
  let otaSlot1Firmware ← getOtaSlotMetadata downloadSlot
  if crcStatusOtaSlot = .correctCrc ∧
      currentFirmware.uuid = (otaSlot1Firmware.getD slotUnread).uuid then do
    let _ ← writeFwFlag fwFlagNewImgExt
    return true
  else return false

/-- The end of `dag_node_process`, after the node has joined. -/
def confirmImage : Boot Unit := do
  let currentOtaFlagStatus ← readFwFlag
  if currentOtaFlagStatus = fwFlagNewImgInt then do
    let _ ← writeFwFlag fwFlagPingOk
  else return ()

section Keeps

variable {P : Board → Prop} (hP : IgnoresOutcomes P)
include hP

theorem getOtaSlotMetadata_keeps (slot : OtaSlot) :
    Triple P (getOtaSlotMetadata slot) P fun _ => P := by
  apply Triple.bind (exchange_keeps hP)
  intro opened
  cases opened with
  | false => exact Triple.pure fun b h => ⟨h, h⟩
  | true =>
      apply Triple.bind (exchange_keeps hP)
      intro isRead
      cases isRead with
      | false => exact Triple.pure fun b h => ⟨h, h⟩
      | true => exact Triple.bind (Triple.get fun b h => ⟨h, h⟩) fun _ => Triple.pure fun b h => ⟨h, h⟩

theorem verifyOtaSlot_keeps (unread : OtaMetadata) (slot : OtaSlot) :
    Triple P (verifyOtaSlot unread slot) P fun _ => P := by
  apply Triple.bind (getOtaSlotMetadata_keeps hP slot)
  intro metadata
  apply Triple.bind (exchange_keeps hP)
  intro opened
  cases opened with
  | false => exact Triple.pure fun b h => ⟨h, h⟩
  | true =>
      apply Triple.bind (readSlotWords_keeps hP _ _ _ _)
      intro crc
      cases crc with
      | none => exact Triple.pure fun b h => ⟨h, h⟩
      | some crc => exact Triple.pure fun b h => ⟨h, h⟩

end Keeps

/-- A finished update keeps the image, and asks for the copy with the flag. -/
theorem finishUpdate_triple (start : Board) (unread slotUnread : OtaMetadata) :
    Triple (BoardKept start) (finishUpdate unread slotUnread) (BoardKept start)
      fun r b => BoardKept start b ∧ (r = true → currentFlag b = fwFlagNewImgExt) := by
  have hKeeps : IgnoresOutcomes (BoardKept start) :=
    fun b outcomes h => ⟨h.image, h.external, h.copyUnfinished⟩
  apply Triple.bind (verifyOtaSlot_keeps hKeeps unread 1)
  intro verdict
  have hMetadata : Triple (BoardKept start) getCurrentMetadata (BoardKept start)
      fun _ => BoardKept start := Triple.get fun b h => ⟨h, h⟩
  apply Triple.bind hMetadata
  intro metadata
  apply Triple.bind (getOtaSlotMetadata_keeps hKeeps 1)
  intro slotMetadata
  split_ifs with hCorrect
  · apply Triple.of_forall
    intro s hs
    have hWrite := (writeFwFlag_triple s (by decide : IsFwFlag fwFlagNewImgExt)).mono
      (fun _ h => h) (fun b h => h.1.trans hs) fun _ b h => And.intro (h.1.trans hs) h.2
    exact Triple.bind hWrite fun _ => Triple.pure fun b h => ⟨h.1, h.1, fun _ => h.2⟩
  · exact Triple.pure fun b h => ⟨h, h, fun hFalse => absurd hFalse Bool.false_ne_true⟩

/-- The firmware confirms an image on trial, and no other. -/
theorem confirmImage_triple (start : Board) :
    Triple (fun b => b = start) confirmImage (BoardKept start)
      fun _ b => BoardKept start b ∧ currentFlag b =
        if currentFlag start = fwFlagNewImgInt then fwFlagPingOk else currentFlag start := by
  have hRead : Triple (fun b => b = start) readFwFlag (BoardKept start)
      fun r b => (BoardKept start b ∧ currentFlag b = currentFlag start) ∧ r = currentFlag start :=
    readFwFlag_triple.mono (fun b h => by rw [h]; exact ⟨BoardKept.refl start, rfl⟩)
      (fun b h => h.1) fun _ _ h => h
  apply Triple.bind hRead
  intro status
  by_cases hTrial : status = fwFlagNewImgInt
  · rw [if_pos hTrial]
    apply Triple.of_forall
    intro s hs
    have hWrite := (writeFwFlag_triple s (by decide : IsFwFlag fwFlagPingOk)).mono
      (fun _ h => h) (fun b h => h.1.trans hs.1.1) fun _ b h => And.intro (h.1.trans hs.1.1) h.2
    rw [if_pos (hs.2 ▸ hTrial)]
    exact Triple.bind hWrite fun _ => Triple.pure fun b h => ⟨h.1, h⟩
  · rw [if_neg hTrial]
    refine Triple.pure fun b h => ⟨h.1.1, h.1.1, ?_⟩
    rw [if_neg (h.2 ▸ hTrial)]
    exact h.1.2

end Smarthome.Node
