import Smarthome.Device.System

/-! When the bootloader enters only images that match their CRC. It never checks an
image before it copies it, and without the external flash it does not look at the
flag, so that this depends on what the firmware left in the slots, and on a copy not
being cut short before such a boot. -/
namespace Smarthome.Device

open Semantics Bootloader

/-- The slot that a boot would copy, if any, holds an image that matches and fits. -/
def CopiesValidImage (board : Board) : Prop :=
  ∀ slot, (bootPlan (currentFlag board)).source = some slot →
    ImageMatches board.external (slotAddress slot) ∧ ImageFits board.external (slotAddress slot)

/-- The steps that cannot go wrong. -/
def SafeStep (device : Device) : Action → Prop
  | .boot outcomes =>
      if outcomes.headD true = true then CopiesValidImage device.board
      else device.board.copyUnfinished = false
  | .powerLoss outcomes _ => outcomes.headD true = true → CopiesValidImage device.board
  | _ => True

/-- The internal image is valid, unless a copy is unfinished that the flag will repeat. -/
structure Sound (device : Device) : Prop where
  valid : device.board.copyUnfinished = false →
    ImageMatches device.board.internal currentFirmware ∧
      ImageFits device.board.internal currentFirmware
  repeated : device.board.copyUnfinished = true →
    (bootPlan (currentFlag device.board)).source ≠ none
  running : device.mode = .running → device.board.copyUnfinished = false

section Step

variable {device next : Device} {start board : Board} {slot : OtaSlot} {action : Action}
  {outcomes : List Bool}

theorem valid_of_kept (h : BoardKept start board)
    (hValid : ImageMatches start.internal currentFirmware ∧ ImageFits start.internal currentFirmware) :
    ImageMatches board.internal currentFirmware ∧ ImageFits board.internal currentFirmware := by
  have hFits := h.image.same.fits_iff.mpr hValid.2
  exact ⟨(h.image.same.matches_iff hFits currentFirmware_lt currentFirmware_lt).mpr hValid.1, hFits⟩

theorem valid_of_installed (h : Installed start slot board)
    (hValid : ImageMatches start.external (slotAddress slot) ∧
      ImageFits start.external (slotAddress slot)) :
    ImageMatches board.internal currentFirmware ∧ ImageFits board.internal currentFirmware := by
  have hFits := h.image.same.fits_iff.mpr hValid.2
  exact ⟨(h.image.same.matches_iff hFits currentFirmware_lt (slotAddress_lt slot)).mpr hValid.1, hFits⟩

/-- A board that is kept stays sound, in a mode that allows it and with a flag that
would repeat the same copy. -/
theorem sound_of_kept (hSound : Sound device) (h : BoardKept device.board next.board)
    (hFlag : device.board.copyUnfinished = true → currentFlag next.board = currentFlag device.board)
    (hMode : next.mode = .running → device.board.copyUnfinished = false) : Sound next where
  valid := fun hDone => valid_of_kept h (hSound.valid (h.copyUnfinished ▸ hDone))
  repeated := fun hUnfinished => by
    rw [h.copyUnfinished] at hUnfinished
    rw [hFlag hUnfinished]
    exact hSound.repeated hUnfinished
  running := fun hRunning => h.copyUnfinished.trans (hMode hRunning)

theorem sound_of_installed (h : Installed start slot next.board)
    (hValid : ImageMatches start.external (slotAddress slot) ∧
      ImageFits start.external (slotAddress slot)) : Sound next where
  valid := fun _ => valid_of_installed h hValid
  repeated := fun hUnfinished =>
    absurd (h.copyUnfinished.symm.trans hUnfinished) Bool.false_ne_true
  running := fun _ => h.copyUnfinished

theorem sound_boot (hSound : Sound device) (hSafe : SafeStep device (.boot outcomes))
    (hStep : step device (.boot outcomes) = some next) : Sound next := by
  have hMode : device.mode = .atReset := by
    rw [step] at hStep
    split_ifs at hStep with hMode
    exact hMode
  rw [SafeStep] at hSafe
  split_ifs at hSafe with hChip
  · obtain ⟨board, hBoot, hImage, _⟩ := step_boot device outcomes hMode hChip
    obtain rfl := Option.some.inj (hBoot.symm.trans hStep)
    cases hSource : (bootPlan (currentFlag device.board)).source with
    | none =>
        rw [hSource] at hImage
        have hDone : device.board.copyUnfinished = false := by
          cases hCopy : device.board.copyUnfinished with
          | false => rfl
          | true => exact absurd hSource (hSound.repeated hCopy)
        exact sound_of_kept hSound hImage.1
          (fun hUnfinished => absurd (hDone.symm.trans hUnfinished) Bool.false_ne_true) fun _ => hDone
    | some slot =>
        rw [hSource] at hImage
        exact sound_of_installed hImage (hSafe slot hSource)
  · obtain ⟨board, hBoot, hSame⟩ := step_boot_without_chip hMode (Bool.not_eq_true _ ▸ hChip)
    obtain rfl := Option.some.inj (hBoot.symm.trans hStep)
    exact sound_of_kept hSound hSame.boardKept (fun _ => hSame.currentFlag_eq) fun _ => hSafe

theorem sound_powerLoss {operations : Nat} (hSound : Sound device)
    (hSafe : SafeStep device (.powerLoss outcomes operations))
    (hStep : step device (.powerLoss outcomes operations) = some next) : Sound next := by
  obtain ⟨hMode, hCut⟩ := step_powerLoss hStep
  have hReset : next.mode = .running → device.board.copyUnfinished = false := by
    rw [hMode]
    exact fun hRunning => absurd hRunning (by decide)
  split_ifs at hCut with hChip
  · rcases hCut with ⟨hKept, hFlag⟩ | ⟨slot, hSource, ⟨_, hUnfinished, hFlag⟩ | hInstalled⟩
    · refine sound_of_kept hSound hKept (fun hUnfinished => ?_) hReset
      rcases hFlag with hFlag | hSource
      · exact hFlag
      · exact absurd hSource (hSound.repeated hUnfinished)
    · refine ⟨fun hDone => absurd (hDone.symm.trans hUnfinished) Bool.false_ne_true, fun _ => ?_,
        fun hRunning => absurd (hMode.symm.trans hRunning) (by decide)⟩
      rw [hFlag, hSource]
      exact Option.some_ne_none slot
    · exact sound_of_installed hInstalled (hSafe hChip slot hSource)
  · exact sound_of_kept hSound hCut.boardKept (fun _ => hCut.currentFlag_eq) hReset

/-- The firmware runs only when no copy is unfinished, and its own work leaves the image alone. -/
theorem sound_of_running (hSound : Sound device) (hMode : device.mode = .running)
    (h : BoardKept device.board next.board) : Sound next := by
  have hDone := hSound.running hMode
  exact sound_of_kept hSound h
    (fun hUnfinished => absurd (hDone.symm.trans hUnfinished) Bool.false_ne_true) fun _ => hDone

theorem sound_onExternal {f : ExtFlash → Option ExtFlash} (hSound : Sound device)
    (hStep : onExternal device outcomes f = some next) : Sound next := by
  obtain ⟨hMode, _, hInternal, hUnfinished⟩ := onExternal_cases hStep
  have hDone := hSound.running hMode
  refine ⟨fun _ => hInternal ▸ hSound.valid hDone, fun h => ?_, fun _ => hUnfinished.trans hDone⟩
  exact absurd ((hUnfinished.trans hDone).symm.trans h) Bool.false_ne_true

theorem sound_step (hSound : Sound device) (hSafe : SafeStep device action)
    (hStep : step device action = some next) : Sound next := by
  cases action with
  | boot outcomes => exact sound_boot hSound hSafe hStep
  | powerLoss outcomes operations => exact sound_powerLoss hSound hSafe hStep
  | reset =>
      obtain rfl := Option.some.inj hStep
      exact ⟨hSound.valid, hSound.repeated, fun hRunning => absurd hRunning (by simp)⟩
  | storeFirmwareData offset data outcomes => exact sound_onExternal hSound hStep
  | eraseDownloadSlot outcomes => exact sound_onExternal hSound hStep
  | cleanGoldenImage outcomes => exact sound_onExternal hSound hStep
  | backupGoldenImage outcomes => exact sound_onExternal hSound hStep
  | finishUpdate unread slotUnread outcomes =>
      obtain ⟨hMode, hKept⟩ := step_finishUpdate hStep
      exact sound_of_running hSound hMode hKept
  | confirmImage =>
      obtain ⟨hMode, _, hKept, _⟩ := step_confirmImage hStep
      exact sound_of_running hSound hMode hKept

end Step

/-- **Only valid images are entered**, in a run of safe steps from a valid internal
image: whenever the bootloader has jumped to the image, it matches its CRC. -/
theorem running_image_matches (start device : Device)
    (hMatches : ImageMatches start.board.internal currentFirmware)
    (hFits : ImageFits start.board.internal currentFirmware)
    (hDone : start.board.copyUnfinished = false) (run : Reaches step SafeStep start device)
    (hRunning : device.mode = .running) : ImageMatches device.board.internal currentFirmware := by
  have hStart : Sound start := ⟨fun _ => ⟨hMatches, hFits⟩,
    fun hUnfinished => absurd (hDone.symm.trans hUnfinished) Bool.false_ne_true, fun _ => hDone⟩
  have hSound : Sound device := run.invariant Sound hStart fun _ _ _ => sound_step
  exact (hSound.valid (hSound.running hRunning)).1

/-- A flash of zeros holds images without bytes whose CRC is zero, and a flag. -/
def blankBoard (flag : Byte) : Board where
  internal := fun a => if a = startUserFlash + otaStatusFlag then flag else 0
  external := fun _ => 0
  outcomes := []
  copyUnfinished := false

theorem blankBoard_matches (flag : Byte) :
    ImageMatches (blankBoard flag).internal currentFirmware ∧
      ImageFits (blankBoard flag).internal currentFirmware := by
  have hMetadata : metadataAt (blankBoard flag).internal currentFirmware =
      ⟨Vector.replicate 16 0⟩ := by
    refine metadataAt_of_constant fun i hi => if_neg ?_
    simp only [currentFirmware, startUserFlash, otaStatusFlag]
    omega
  have hCrc : recomputedCrc (blankBoard flag).internal currentFirmware = 0 := by
    rw [recomputedCrc, hMetadata]
    exact imageCrc_of_end_le (by decide)
  rw [ImageMatches, ImageFits, hCrc, hMetadata]
  decide

theorem running_image_matches_blank : ∃ device, Reaches step SafeStep
      ⟨blankBoard fwFlagNonUpdate, .atReset⟩ device ∧ device.mode = .running ∧
    ImageMatches device.board.internal currentFirmware := by
  have hFlag : currentFlag (blankBoard fwFlagNonUpdate) = fwFlagNonUpdate := by decide
  have hPlan : bootPlan fwFlagNonUpdate = ⟨none, fwFlagNonUpdate, .jumpToImage⟩ := by decide
  obtain ⟨board, hBoot, _⟩ := step_boot ⟨blankBoard fwFlagNonUpdate, .atReset⟩ [] rfl rfl
  rw [hFlag, hPlan] at hBoot
  have hSafe : SafeStep ⟨blankBoard fwFlagNonUpdate, .atReset⟩ (.boot []) := by
    intro slot hSource
    rw [hFlag, hPlan] at hSource
    cases hSource
  have run : Reaches step SafeStep ⟨blankBoard fwFlagNonUpdate, .atReset⟩ ⟨board, .running⟩ :=
    Reaches.next Reaches.start hBoot hSafe
  obtain ⟨hMatches, hFits⟩ := blankBoard_matches fwFlagNonUpdate
  have hDone : (blankBoard fwFlagNonUpdate).copyUnfinished = false := rfl
  exact ⟨⟨board, .running⟩, run, rfl, running_image_matches ⟨blankBoard fwFlagNonUpdate, .atReset⟩
    ⟨board, .running⟩ hMatches hFits hDone run rfl⟩

/-- An erased image does not match: its CRC field is all ones, and its size, which
is, too, ends below its start. -/
theorem not_matches_of_erased {memory erased : Nat → Byte} {base : Nat}
    (hErased : ∀ i < 16, erased (base + i) = 0xFF)
    (h : SameImage memory currentFirmware erased base) : ¬ ImageMatches memory currentFirmware := by
  have hMetadata := metadataAt_of_constant hErased
  have hFields := h.metadata
  rw [hMetadata] at hFields
  have hCrc : recomputedCrc memory currentFirmware = 0 := by
    rw [recomputedCrc, hFields.2]
    exact imageCrc_of_end_le (by decide)
  rw [ImageMatches, hCrc, hFields.1]
  decide

/-- From reset with an image on trial and an erased golden image, the bootloader
copies the golden image all the same and enters the copy. -/
theorem erased_golden_entered {board : Board} (hFlag : currentFlag board = fwFlagNewImgInt)
    (hErased : ∀ i < 16, board.external (slotAddress 0 + i) = 0xFF) :
    ∃ device, Reaches step (fun _ _ => True) ⟨board, .atReset⟩ device ∧ device.mode = .running ∧
      ¬ ImageMatches device.board.internal currentFirmware := by
  obtain ⟨copied, hCopy, hInstalled, hCopied⟩ := step_boot ⟨board, .atReset⟩ [] rfl rfl
  rw [hFlag] at hCopy hInstalled hCopied
  obtain ⟨entered, hEnter, hKept, _⟩ := step_boot ⟨copied, .atReset⟩ [] rfl rfl
  rw [hCopied] at hEnter hKept
  have hImage : ImageKept entered.internal currentFirmware board.external (slotAddress 0) :=
    ImageKept.trans hKept.1.image hInstalled.image currentFirmware_lt (slotAddress_lt 0)
  exact ⟨_, Reaches.next (Reaches.next Reaches.start hCopy trivial) hEnter trivial, rfl,
    not_matches_of_erased hErased hImage.same⟩

/-- The command that erases the golden image, while an image is on trial. -/
theorem clean_golden_image (board : Board) :
    ∃ external, step ⟨board, .running⟩ (.cleanGoldenImage []) =
        some ⟨{ board with external }, .running⟩ ∧
      ∀ i < 16, external (slotAddress 0 + i) = 0xFF := by
  obtain ⟨flash, hClean, hErased, _⟩ := erasePages_spec (otaImagePage_le 0) ⟨board.external, []⟩
  have hPage : otaImagePage 0 = 0x19 := rfl
  have hBlock (i : Nat) (hi : i < 16) : SharesBlock (otaImagePage 0) 25 (slotAddress 0 + i) := by
    refine ⟨0, by decide, ?_⟩
    simp only [slotAddress, hPage]
    omega
  refine ⟨flash.memory, ?_, fun i hi => hErased _ (hBlock i hi)⟩
  rw [step, onExternal, if_pos rfl, eraseOtaImage, hClean]
  rfl

/-- An image on trial, all of zeros, is not confirmed, the golden image is erased by
its command, and after a reset the bootloader enters erased flash. -/
theorem running_image_matches_fails : ¬ ∀ start device : Device,
    ImageMatches start.board.internal currentFirmware →
    ImageMatches start.board.external (slotAddress 0) → start.board.copyUnfinished = false →
    Reaches step (fun _ _ => True) start device → device.mode = .running →
    ImageMatches device.board.internal currentFirmware := by
  intro hClaim
  have hGolden : ImageMatches (blankBoard fwFlagNewImgInt).external (slotAddress 0) := by
    have hCrc : recomputedCrc (blankBoard fwFlagNewImgInt).external (slotAddress 0) = 0 :=
      imageCrc_of_end_le (by decide)
    rw [ImageMatches, hCrc]
    decide
  obtain ⟨external, hClean, hErased⟩ := clean_golden_image (blankBoard fwFlagNewImgInt)
  have hFlag : currentFlag { blankBoard fwFlagNewImgInt with external } = fwFlagNewImgInt := rfl
  have hReset : step ⟨{ blankBoard fwFlagNewImgInt with external }, .running⟩ .reset =
      some ⟨{ blankBoard fwFlagNewImgInt with external }, .atReset⟩ := rfl
  obtain ⟨device, hEntered, hRunning, hBroken⟩ := erased_golden_entered hFlag hErased
  have run : Reaches step (fun _ _ => True) ⟨blankBoard fwFlagNewImgInt, .running⟩
      ⟨{ blankBoard fwFlagNewImgInt with external }, .atReset⟩ :=
    Reaches.next (Reaches.next Reaches.start hClean trivial) hReset trivial
  exact hBroken (hClaim ⟨blankBoard fwFlagNewImgInt, .running⟩ device (blankBoard_matches _).1 hGolden
    rfl (run.trans hEntered) hRunning)

end Smarthome.Device
