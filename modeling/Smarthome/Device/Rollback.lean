import Smarthome.Device.BootSafety

/-! An update is confirmed or rolled back. Without power loss, with the external
flash, and until another update is started, what the bootloader enters depends only
on whether the firmware confirmed the new image before its first reset. -/
namespace Smarthome.Device

open Semantics Bootloader

/-- A device with what has to be remembered of an update: whether the firmware has
confirmed it, and the external flash at the first reset of the new image. -/
structure Trial where
  device : Device
  confirmed : Bool
  atFirstReset : Option (Nat → Byte)

/-- What is remembered of a step. -/
def Trial.record (trial : Trial) (action : Action) (next : Device) : Trial :=
  match action with
  | .confirmImage =>
      { trial with
        device := next
        confirmed := trial.confirmed || decide (currentFlag next.board = fwFlagPingOk) }
  | .reset =>
      { trial with
        device := next
        atFirstReset :=
          if trial.device.mode = .running then
            some (trial.atFirstReset.getD trial.device.board.external)
          else trial.atFirstReset }
  | _ => { trial with device := next }

def trialStep (trial : Trial) (action : Action) : Option Trial :=
  (step trial.device action).map (trial.record action)

/-- No power loss, no boot that misses the external flash, and no other update. -/
def Undisturbed (_ : Trial) : Action → Prop
  | .boot outcomes => outcomes.headD true = true
  | .powerLoss _ _ => False
  | .finishUpdate _ _ _ => False
  | _ => True

/-- The image that was entered is that of a slot. Its `crc_shadow` has been verified,
which ANDs it with the CRC, or clears other bits of it if the image does not fit. -/
structure Entered (board : Board) (source : Nat → Byte) (slot : OtaSlot) : Prop where
  same : SameImage board.internal currentFirmware source (slotAddress slot)
  cleared : ∀ i, i = 2 ∨ i = 3 → board.internal (currentFirmware + i) &&&
    source (slotAddress slot + i) = board.internal (currentFirmware + i)
  verified : ImageFits source (slotAddress slot) → ∀ i < 25 * 0x1000,
    board.internal (currentFirmware + i) = verifiedByte source (slotAddress slot) i

/-- The internal image has come from a slot, and is verified while it runs. -/
structure Holds (device : Device) (source : Nat → Byte) (slot : OtaSlot) : Prop where
  image : ImageKept device.board.internal currentFirmware source (slotAddress slot)
  verified : device.mode = .running → ShadowVerified device.board.internal currentFirmware

/-- The course of an update that was requested on the board `start`. -/
inductive Course (start : Board) : Trial → Prop where
  | requested {board : Board} (hFlag : currentFlag board = fwFlagNewImgExt)
      (hExternal : board.external = start.external) : Course start ⟨⟨board, .atReset⟩, false, none⟩
  | copied {board : Board} (hFlag : currentFlag board = fwFlagNewImgIntRst)
      (hImage : Holds ⟨board, .atReset⟩ start.external 1) :
      Course start ⟨⟨board, .atReset⟩, false, none⟩
  | onTrial {board : Board} (confirmed : Bool)
      (hFlag : currentFlag board = if confirmed then fwFlagPingOk else fwFlagNewImgInt)
      (hImage : Holds ⟨board, .running⟩ start.external 1) :
      Course start ⟨⟨board, .running⟩, confirmed, none⟩
  | unconfirmed {board : Board} (hFlag : currentFlag board = fwFlagNewImgInt) :
      Course start ⟨⟨board, .atReset⟩, false, some board.external⟩
  | rolledBack {board : Board} {mode : DeviceMode} {golden : Nat → Byte} (hMode : mode ≠ .stopped)
      (hFlag : currentFlag board = fwFlagErrorGiLoaded) (hImage : Holds ⟨board, mode⟩ golden 0) :
      Course start ⟨⟨board, mode⟩, false, some golden⟩
  | confirmed {board : Board} {external : Nat → Byte} (hFlag : currentFlag board = fwFlagPingOk)
      (hImage : Holds ⟨board, .atReset⟩ start.external 1) :
      Course start ⟨⟨board, .atReset⟩, true, some external⟩
  | settled {board : Board} {mode : DeviceMode} {external : Nat → Byte} (hMode : mode ≠ .stopped)
      (hFlag : currentFlag board = fwFlagNonUpdate) (hImage : Holds ⟨board, mode⟩ start.external 1) :
      Course start ⟨⟨board, mode⟩, true, some external⟩

section Step

variable {start board next : Board} {device other : Device} {source : Nat → Byte} {slot : OtaSlot}
  {trial trial' : Trial} {mode : DeviceMode} {outcomes : List Bool}

theorem Holds.entered (h : Holds device source slot) (hMode : device.mode = .running) :
    Entered device.board source slot :=
  ⟨h.image.same, h.image.cleared, fun hFits =>
    h.image.eq_verifiedByte (h.verified hMode) hFits currentFirmware_lt (slotAddress_lt slot)⟩

theorem Holds.keep (h : Holds device source slot) (hMode : device.mode = .running)
    (hKept : BoardKept device.board other.board) : Holds other source slot :=
  ⟨hKept.image.trans h.image currentFirmware_lt (slotAddress_lt slot), fun _ =>
    (h.verified hMode).keep hKept.image currentFirmware_lt currentFirmware_lt⟩

theorem Holds.of_internal_eq (h : Holds device source slot) (hMode : device.mode = .running)
    (hInternal : other.board.internal = device.board.internal) : Holds other source slot :=
  ⟨hInternal ▸ h.image, fun _ => hInternal ▸ h.verified hMode⟩

theorem holds_atReset (h : ImageKept board.internal currentFirmware source (slotAddress slot)) :
    Holds ⟨board, .atReset⟩ source slot := ⟨h, nofun⟩

/-- A boot that copies nothing verifies the image it keeps. -/
theorem holds_of_kept (h : ImageKept board.internal currentFirmware source (slotAddress slot))
    (hImage : ImageFrom board none next) : Holds ⟨next, mode⟩ source slot :=
  ⟨hImage.1.image.trans h currentFirmware_lt (slotAddress_lt slot), fun _ => hImage.2⟩

theorem holds_of_installed (hImage : ImageFrom board (some slot) next) :
    Holds ⟨next, .atReset⟩ board.external slot := holds_atReset hImage.image

theorem currentFlag_of_internal_eq (h : next.internal = board.internal) :
    currentFlag next = currentFlag board := by
  rw [currentFlag, currentFlag, h]

/-- A boot by the flag that is known, and its plan. -/
theorem step_boot_of_flag {flag : Byte} {plan : BootPlan} (hFlag : currentFlag device.board = flag)
    (hPlan : bootPlan flag = plan) (hChip : outcomes.headD true = true)
    (hStep : step device (.boot outcomes) = some other) :
    ∃ next, other = ⟨next, afterMain plan.finish⟩ ∧ ImageFrom device.board plan.source next ∧
      currentFlag next = plan.flag := by
  have hMode : device.mode = .atReset := by
    rw [step] at hStep
    split_ifs at hStep with hMode
    exact hMode
  obtain ⟨next, hBoot, hImage, hNext⟩ := step_boot device outcomes hMode hChip
  rw [hFlag, hPlan] at hBoot hImage hNext
  exact ⟨next, Option.some.inj (hStep.symm.trans hBoot), hImage, hNext⟩

theorem course_boot (h : Course start trial) (hChip : outcomes.headD true = true)
    (hStep : step trial.device (.boot outcomes) = some other) :
    Course start { trial with device := other } := by
  cases h with
  | requested hFlag hExternal =>
      obtain ⟨next, rfl, hImage, hNext⟩ := step_boot_of_flag hFlag rfl hChip hStep
      exact Course.copied hNext (hExternal ▸ holds_of_installed hImage)
  | copied hFlag hHolds =>
      obtain ⟨next, rfl, hImage, hNext⟩ := step_boot_of_flag hFlag rfl hChip hStep
      exact Course.onTrial false hNext (holds_of_kept hHolds.image hImage)
  | onTrial _ _ _ => cases hStep
  | unconfirmed hFlag =>
      obtain ⟨next, rfl, hImage, hNext⟩ := step_boot_of_flag hFlag rfl hChip hStep
      exact Course.rolledBack (by decide) hNext (holds_of_installed hImage)
  | rolledBack _ hFlag hHolds =>
      obtain ⟨next, rfl, hImage, hNext⟩ := step_boot_of_flag hFlag rfl hChip hStep
      exact Course.rolledBack (by decide) hNext (holds_of_kept hHolds.image hImage)
  | confirmed hFlag hHolds =>
      obtain ⟨next, rfl, hImage, hNext⟩ := step_boot_of_flag hFlag rfl hChip hStep
      exact Course.settled (by decide) hNext (holds_of_kept hHolds.image hImage)
  | settled _ hFlag hHolds =>
      obtain ⟨next, rfl, hImage, hNext⟩ := step_boot_of_flag hFlag rfl hChip hStep
      exact Course.settled (by decide) hNext (holds_of_kept hHolds.image hImage)

/-- Only the first reset of the new image is remembered. -/
theorem course_reset (h : Course start trial) :
    Course start (trial.record .reset { trial.device with mode := .atReset }) := by
  cases h with
  | requested hFlag hExternal => exact Course.requested hFlag hExternal
  | copied hFlag hHolds => exact Course.copied hFlag hHolds
  | onTrial isConfirmed hFlag hHolds =>
      cases isConfirmed with
      | false => exact Course.unconfirmed hFlag
      | true => exact Course.confirmed hFlag (holds_atReset hHolds.image)
  | unconfirmed hFlag => exact Course.unconfirmed hFlag
  | rolledBack _ hFlag hHolds =>
      rw [Trial.record, Option.getD_some, ite_self]
      exact Course.rolledBack (by decide) hFlag (holds_atReset hHolds.image)
  | confirmed hFlag hHolds => exact Course.confirmed hFlag hHolds
  | settled _ hFlag hHolds =>
      rw [Trial.record, Option.getD_some, ite_self]
      exact Course.settled (by decide) hFlag (holds_atReset hHolds.image)

/-- Work on the external flash, before the first reset or after it. -/
theorem course_onExternal {f : ExtFlash → Option ExtFlash} (h : Course start trial)
    (hStep : onExternal trial.device outcomes f = some other) :
    Course start { trial with device := other } := by
  obtain ⟨hMode, hOther, hInternal, _⟩ := onExternal_cases hStep
  have hSameFlag := currentFlag_of_internal_eq hInternal
  obtain ⟨next, mode⟩ := other
  obtain rfl : mode = .running := hOther
  cases h with
  | requested _ _ => cases hMode
  | copied _ _ => cases hMode
  | onTrial isConfirmed hFlag hHolds =>
      exact Course.onTrial isConfirmed (hSameFlag.trans hFlag) (hHolds.of_internal_eq rfl hInternal)
  | unconfirmed _ => cases hMode
  | rolledBack _ hFlag hHolds =>
      exact Course.rolledBack (by decide) (hSameFlag.trans hFlag) (hHolds.of_internal_eq hMode hInternal)
  | confirmed _ _ => cases hMode
  | settled _ hFlag hHolds =>
      exact Course.settled (by decide) (hSameFlag.trans hFlag) (hHolds.of_internal_eq hMode hInternal)

/-- Only an image on trial is confirmed. -/
theorem course_confirmImage (h : Course start trial)
    (hStep : step trial.device .confirmImage = some other) :
    Course start (trial.record .confirmImage other) := by
  obtain ⟨hMode, hOther, hKept, hNewFlag⟩ := step_confirmImage hStep
  obtain ⟨next, mode⟩ := other
  obtain rfl : mode = .running := hOther
  cases h with
  | requested _ _ => cases hMode
  | copied _ _ => cases hMode
  | onTrial isConfirmed hFlag hHolds =>
      have hPingOk : currentFlag next = fwFlagPingOk := by
        rw [hNewFlag, hFlag]
        cases isConfirmed with
        | false => rfl
        | true => rfl
      have hConfirmed : (isConfirmed || decide (currentFlag next = fwFlagPingOk)) = true := by
        rw [hPingOk, decide_eq_true rfl, Bool.or_true]
      show Course start ⟨⟨next, .running⟩, isConfirmed || decide (currentFlag next = fwFlagPingOk), none⟩
      rw [hConfirmed]
      exact Course.onTrial true hPingOk (hHolds.keep rfl hKept)
  | unconfirmed _ => cases hMode
  | @rolledBack board mode golden _ hFlag hHolds =>
      rw [hFlag] at hNewFlag
      show Course start ⟨⟨next, .running⟩, false || decide (currentFlag next = fwFlagPingOk), some golden⟩
      rw [hNewFlag]
      exact Course.rolledBack (by decide) hNewFlag (hHolds.keep hMode hKept)
  | confirmed _ _ => cases hMode
  | settled _ hFlag hHolds =>
      rw [hFlag] at hNewFlag
      exact Course.settled (by decide) hNewFlag (hHolds.keep hMode hKept)

theorem course_step {action : Action} (h : Course start trial)
    (hUndisturbed : Undisturbed trial action)
    (hStep : trialStep trial action = some trial') : Course start trial' := by
  rw [trialStep, Option.map_eq_some_iff] at hStep
  obtain ⟨other, hDevice, rfl⟩ := hStep
  cases action with
  | boot outcomes => exact course_boot h hUndisturbed hDevice
  | powerLoss outcomes operations => cases hUndisturbed
  | reset =>
      obtain rfl := Option.some.inj hDevice
      exact course_reset h
  | storeFirmwareData offset data outcomes => exact course_onExternal h hDevice
  | eraseDownloadSlot outcomes => exact course_onExternal h hDevice
  | cleanGoldenImage outcomes => exact course_onExternal h hDevice
  | backupGoldenImage outcomes => exact course_onExternal h hDevice
  | finishUpdate unread slotUnread outcomes => cases hUndisturbed
  | confirmImage => exact course_confirmImage h hDevice

end Step

/-- The flag of every plan that resets has a plan that jumps. -/
theorem bootPlan_settles {flag : Byte} (h : IsFwFlag flag) :
    (bootPlan flag).finish = .jumpToImage ∨
      (bootPlan flag).finish = .systemReset ∧
        (bootPlan (bootPlan flag).flag).finish = .jumpToImage := by
  rcases h with rfl | rfl | rfl | rfl | rfl | rfl <;> decide

/-- The bootloader resets the system at most once before it enters the image. -/
theorem jump_within_two_boots {device : Device} (hMode : device.mode = .atReset)
    {first second : List Bool} (hFirst : first.headD true = true) (hSecond : second.headD true = true) :
    ∃ next, step device (.boot first) = some next ∧
      (next.mode = .running ∨
        ∃ last, step next (.boot second) = some last ∧ last.mode = .running) := by
  obtain ⟨board, hBoot, _, hFlag⟩ := step_boot device first hMode hFirst
  refine ⟨_, hBoot, ?_⟩
  rcases bootPlan_settles (currentFlag_isFwFlag device.board) with hJump | ⟨hReset, hJump⟩
  · apply Or.inl
    rw [hJump]
    rfl
  · rw [hReset]
    obtain ⟨last, hLast, _⟩ := step_boot ⟨board, .atReset⟩ second rfl hSecond
    refine Or.inr ⟨_, hLast, ?_⟩
    rw [hFlag, hJump]
    rfl

section Counterexample

variable {board : Board}

/-- Two boots, the first of which ends in a reset. -/
theorem two_boots (confirmed : Bool) (atFirstReset : Option (Nat → Byte)) {flag next : Byte}
    {source : Option OtaSlot}
    (hFlag : currentFlag board = flag) (hPlan : bootPlan flag = ⟨source, next, .systemReset⟩)
    (hNext : (bootPlan next).finish = .jumpToImage) :
    ∃ last, Reaches trialStep Undisturbed ⟨⟨board, .atReset⟩, confirmed, atFirstReset⟩
      ⟨⟨last, .running⟩, confirmed, atFirstReset⟩ := by
  have hBoot {device other : Device} (h : step device (.boot []) = some other) :
      trialStep ⟨device, confirmed, atFirstReset⟩ (.boot []) =
        some ⟨other, confirmed, atFirstReset⟩ := by
    rw [trialStep, h]
    rfl
  have hAllowed (trial : Trial) : Undisturbed trial (.boot []) := rfl
  obtain ⟨middle, hFirst, _, hMiddle⟩ := step_boot ⟨board, .atReset⟩ [] rfl rfl
  rw [hFlag, hPlan] at hFirst hMiddle
  obtain ⟨last, hSecond, _⟩ := step_boot ⟨middle, .atReset⟩ [] rfl rfl
  rw [hMiddle, hNext] at hSecond
  exact ⟨last, Reaches.next (Reaches.next Reaches.start (hBoot hFirst) (hAllowed _)) (hBoot hSecond)
    (hAllowed _)⟩

theorem entered_on_trial (hFlag : currentFlag board = fwFlagNewImgExt) :
    ∃ last, Reaches trialStep Undisturbed ⟨⟨board, .atReset⟩, false, none⟩
      ⟨⟨last, .running⟩, false, none⟩ := two_boots false none hFlag rfl rfl

theorem entered_on_trial_image {last : Board} (hFlag : currentFlag board = fwFlagNewImgExt)
    (run : Reaches trialStep Undisturbed ⟨⟨board, .atReset⟩, false, none⟩
      ⟨⟨last, .running⟩, false, none⟩) :
    Entered last board.external 1 ∧ currentFlag last = fwFlagNewImgInt := by
  have hCourse : Course board ⟨⟨last, .running⟩, false, none⟩ :=
    run.invariant (Course board) (Course.requested hFlag rfl) fun _ _ _ => course_step
  cases hCourse with
  | onTrial _ hFlag hHolds => exact ⟨hHolds.entered rfl, hFlag⟩

/-- The golden image is erased while an image is on trial, which is then reset. -/
theorem entered_erased_golden (hFlag : currentFlag board = fwFlagNewImgExt) :
    ∃ last external, Reaches trialStep Undisturbed ⟨⟨board, .atReset⟩, false, none⟩
        ⟨⟨last, .running⟩, false, some external⟩ ∧
      last.internal currentFirmware = 0xFF := by
  obtain ⟨entered, run⟩ := entered_on_trial hFlag
  obtain ⟨_, hTrial⟩ := entered_on_trial_image hFlag run
  obtain ⟨external, hClean, hErased⟩ := clean_golden_image entered
  have hCleaned : trialStep ⟨⟨entered, .running⟩, false, none⟩ (.cleanGoldenImage []) =
      some ⟨⟨{ entered with external }, .running⟩, false, none⟩ := by
    rw [trialStep, hClean]
    rfl
  have hReset : trialStep ⟨⟨{ entered with external }, .running⟩, false, none⟩ .reset =
      some ⟨⟨{ entered with external }, .atReset⟩, false, some external⟩ := rfl
  have hStillTrial : currentFlag { entered with external } = fwFlagNewImgInt := hTrial
  obtain ⟨last, hBoots⟩ := two_boots false (some external) hStillTrial rfl rfl
  have hRun := (Reaches.next (Reaches.next run hCleaned trivial) hReset trivial).trans hBoots
  refine ⟨last, external, hRun, ?_⟩
  have hCourse : Course board ⟨⟨last, .running⟩, false, some external⟩ :=
    hRun.invariant (Course board) (Course.requested hFlag rfl) fun _ _ _ => course_step
  cases hCourse with
  | rolledBack _ _ hHolds =>
      exact (hHolds.image.same 0 (by decide) (by decide) (by decide)).trans (hErased 0 (by decide))

end Counterexample

/-- A flash of zeros, apart from the shadow of the image in the download slot. -/
def unsettledBoard : Board :=
  { blankBoard fwFlagNewImgExt with
    external := fun a => if a = slotAddress downloadSlot + 2 then 1 else 0 }

end Smarthome.Device
