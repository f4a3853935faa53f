import Smarthome.Flash.ExternalFlash

/-! The OTA slots on the external flash and the functions of `ota-main.c` that
erase and fill them. A slot is 25 pages of 4096 bytes; the chip erases blocks of
sixteen pages, and no slot starts or ends at the edge of one. -/
namespace Smarthome

open Semantics DriverCall ExtFlash

/-- `FLASH_PAGE_SIZE`. -/
@[simp] def flashPageSize : Nat := 0x1000

/-- `GOLDEN_IMAGE`, a page of the external flash. -/
def goldenImage : Nat := 0x19

/-- `OTA_ADDRESSES`, the pages at which the downloads are stored. -/
def otaImages : Vector Nat 3 := #v[0x32, 0x4B, 0x64]

/-- The page at which a node stores a download, `ota_images[1-1]`. -/
def downloadPage : Nat := otaImages.get 0

/-- The golden image is slot 0, the downloads are slots 1 to 3. -/
abbrev OtaSlot := Fin 4

abbrev goldenSlot : OtaSlot := 0

abbrev downloadSlot : OtaSlot := 1

/-- The slots of the loops over the downloads, `slot=1; slot<4; slot++`. -/
def downloadSlots : List OtaSlot := [1, 2, 3]

/-- `ota_image_base_address` before the shift. -/
def otaImagePage : OtaSlot → Nat
  | ⟨0, _⟩ => goldenImage
  | ⟨download + 1, h⟩ => otaImages.get ⟨download, by omega⟩

/-- `erase_extflash_page`. -/
def eraseExtflashPage (extAddress : Nat) : DriverCall :=
  extFlashOpen.andThen (extFlashErase extAddress flashPageSize)

/-- `store_firmware_data`. -/
def storeFirmwareData (extAddress : Nat) (data : List Byte) : DriverCall :=
  extFlashOpen.andThen (extFlashWrite extAddress data)

/-- The first pages of an image are erased one after the other, each until it works. -/
def erasePages (imagePage : Nat) : Nat → ExtFlash → Option ExtFlash
  | 0, flash => some flash
  | page + 1, flash =>
      (erasePages imagePage page flash).bind
        (eraseExtflashPage ((imagePage + page) * flashPageSize)).untilDone

/-- `erase_ota_image`. -/
def eraseOtaImage (slot : OtaSlot) : ExtFlash → Option ExtFlash := erasePages (otaImagePage slot) 25

/-- The loop at the start of `fw_update_process`, without the pauses between its pages. -/
def eraseDownloadSlot : ExtFlash → Option ExtFlash := erasePages downloadPage 25

/-- An address inside the 25 pages of a slot. -/
def InSlot (slot : OtaSlot) (a : Nat) : Prop :=
  otaImagePage slot * 0x1000 ≤ a ∧ a < (otaImagePage slot + 25) * 0x1000

instance (slot : OtaSlot) (a : Nat) : Decidable (InSlot slot a) := inferInstanceAs (Decidable (_ ∧ _))

/-- An address in an erase block of one of the first `count` pages of an image. -/
def SharesBlock (imagePage count a : Nat) : Prop :=
  ∃ page < count, a / 0x10000 = (imagePage + page) * 0x1000 / 0x10000

theorem eraseExtflashPage_performs {page : Nat} (h : page < 4096) :
    (eraseExtflashPage (page * 0x1000)).Performs (NorFlash.erase 0x10000 (page * 0x1000)) Eq :=
  transfer_andThen (extFlashErase_sector h) fun _ => rfl

theorem storeFirmwareData_performs {extAddress : Nat} {data : List Byte}
    (hEnd : extAddress + data.length ≤ 0x1000000) :
    (storeFirmwareData extAddress data).Performs (NorFlash.program extAddress data)
      (fun m m' => ∃ k, m' = NorFlash.program extAddress (data.take k) m) :=
  transfer_andThen (extFlashWrite_performs hEnd) fun _ =>
    ⟨0, by rw [List.take_zero, NorFlash.program_nil]⟩

/-- Storing until it works programs the data once, whatever failed before. -/
theorem storeFirmwareData_untilDone {extAddress : Nat} {data : List Byte}
    (hEnd : extAddress + data.length ≤ 0x1000000) (flash : ExtFlash) :
    ∃ next, (storeFirmwareData extAddress data).untilDone flash = some next ∧
      next.memory = NorFlash.program extAddress data flash.memory :=
  (storeFirmwareData_performs hEnd).untilDone
    (fun _ _ ⟨k, h⟩ => h ▸ NorFlash.program_of_program_take k) flash

theorem eraseExtflashPage_untilDone {page : Nat} (h : page < 4096) (flash : ExtFlash) :
    ∃ next, (eraseExtflashPage (page * 0x1000)).untilDone flash = some next ∧
      next.memory = NorFlash.erase 0x10000 (page * 0x1000) flash.memory :=
  (eraseExtflashPage_performs h).untilDone (fun _ _ hEq => hEq ▸ rfl) flash

/-- The erase loop clears the blocks it touches, whole, and nothing else. -/
theorem erasePages_spec {imagePage count : Nat} (h : imagePage + count ≤ 4096) (flash : ExtFlash) :
    ∃ next, erasePages imagePage count flash = some next ∧
      (∀ a, SharesBlock imagePage count a → next.memory a = 0xFF) ∧
      ∀ a, ¬ SharesBlock imagePage count a → next.memory a = flash.memory a := by
  induction count with
  | zero => exact ⟨flash, rfl, fun a ⟨page, hLt, _⟩ => absurd hLt (Nat.not_lt_zero _), fun _ _ => rfl⟩
  | succ count ih =>
      obtain ⟨middle, hMiddle, hErased, hKept⟩ := ih (by omega)
      obtain ⟨next, hNext, hMemory⟩ :=
        eraseExtflashPage_untilDone (by omega : imagePage + count < 4096) middle
      refine ⟨next, ?_, fun a hBlock => ?_, fun a hBlock => ?_⟩
      · rw [erasePages, hMiddle]
        exact hNext
      · rw [hMemory]
        by_cases hLast : a / 0x10000 = (imagePage + count) * 0x1000 / 0x10000
        · exact NorFlash.erase_inside hLast
        · rw [NorFlash.erase_outside hLast]
          obtain ⟨page, hLt, hEq⟩ := hBlock
          have hNe : page ≠ count := fun hSame => hLast (hSame ▸ hEq)
          exact hErased a ⟨page, by omega, hEq⟩
      · have hOther : ¬ SharesBlock imagePage count a :=
          fun ⟨page, hLt, hEq⟩ => hBlock ⟨page, by omega, hEq⟩
        rw [hMemory, NorFlash.erase_outside fun hLast => hBlock ⟨count, by omega, hLast⟩, hKept a hOther]

theorem otaImagePage_le (slot : OtaSlot) : otaImagePage slot + 25 ≤ 4096 := by
  revert slot
  decide

/-- What an erase loop leaves outside a set of addresses is what stood there,
exactly when it finds erased what it clears there. -/
theorem erase_keeps_iff {imagePage : Nat} (h : imagePage + 25 ≤ 4096) (flash : ExtFlash)
    (Outside : Nat → Prop) :
    (∃ next, erasePages imagePage 25 flash = some next ∧
      ∀ a, Outside a → next.memory a = flash.memory a) ↔
      ∀ a, SharesBlock imagePage 25 a → Outside a → flash.memory a = 0xFF := by
  obtain ⟨next, hNext, hErased, hKept⟩ := erasePages_spec h flash
  constructor
  · rintro ⟨other, hOther, hSame⟩ a hBlock hOutside
    obtain rfl : next = other := Option.some.inj (hNext.symm.trans hOther)
    rw [← hSame a hOutside, hErased a hBlock]
  · intro hClean
    refine ⟨next, hNext, fun a hOutside => ?_⟩
    by_cases hBlock : SharesBlock imagePage 25 a
    · rw [hErased a hBlock, hClean a hBlock hOutside]
    · exact hKept a hBlock

/-- The blocks of the download slot reach into the last two pages of the golden image. -/
theorem sharesBlock_golden {a : Nat} (h : InSlot 0 a) :
    SharesBlock (otaImagePage 1) 25 a ↔ 0x30000 ≤ a := by
  have hFrom : 0x19 * 0x1000 ≤ a := h.1
  have hTo : a < (0x19 + 25) * 0x1000 := h.2
  constructor
  · rintro ⟨page, hLt, hEq⟩
    have hPage : a / 0x10000 = (0x32 + page) * 0x1000 / 0x10000 := hEq
    omega
  · intro hAbove
    refine ⟨0, by decide, ?_⟩
    have hPage : a / 0x10000 = 0x32 * 0x1000 / 0x10000 := by omega
    exact hPage

/-- **When erasing a slot stays inside the slot.** Everything else in the blocks
that the slot reaches into must already be erased. For the download slot this
includes two pages of the golden image, and those two decide what it keeps. -/
theorem erase_isolated_iff (slot : OtaSlot) (flash : ExtFlash) :
    ((∃ next, eraseOtaImage slot flash = some next ∧
      ∀ a, ¬ InSlot slot a → next.memory a = flash.memory a) ↔
      ∀ a, SharesBlock (otaImagePage slot) 25 a → ¬ InSlot slot a → flash.memory a = 0xFF) ∧
    ((∃ next, eraseDownloadSlot flash = some next ∧
      ∀ a, ¬ InSlot 1 a → next.memory a = flash.memory a) ↔
      ∀ a, SharesBlock (otaImagePage 1) 25 a → ¬ InSlot 1 a → flash.memory a = 0xFF) ∧
    ((∃ next, eraseDownloadSlot flash = some next ∧
      ∀ a, InSlot 0 a → next.memory a = flash.memory a) ↔
      ∀ a, InSlot 0 a → 0x30000 ≤ a → flash.memory a = 0xFF) := by
  refine ⟨erase_keeps_iff (otaImagePage_le slot) flash _,
    erase_keeps_iff (otaImagePage_le 1) flash _, ?_⟩
  refine (erase_keeps_iff (otaImagePage_le 1) flash (InSlot 0)).trans ⟨fun h a hGolden hAbove => ?_,
    fun h a hBlock hGolden => ?_⟩
  · exact h a ((sharesBlock_golden hGolden).mpr hAbove) hGolden
  · exact h a hGolden ((sharesBlock_golden hGolden).mp hBlock)

/-- On a flash full of zeros, erasing the download slot clears page 48, which belongs
to the golden image. -/
theorem erase_isolated_fails : ¬ ∀ (slot : OtaSlot) (flash : ExtFlash),
    ∃ next, eraseOtaImage slot flash = some next ∧
      ∀ a, ¬ InSlot slot a → next.memory a = flash.memory a := by
  intro h
  have hClean := (erase_keeps_iff (otaImagePage_le 1) ⟨fun _ => 0, []⟩ _).mp (h 1 ⟨fun _ => 0, []⟩)
  exact absurd (hClean 0x30000 ⟨0, by decide, by decide⟩ (by decide)) (by decide)

end Smarthome
