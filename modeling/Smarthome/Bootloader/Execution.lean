import Smarthome.Bootloader.Copy

/-! One execution of `main`, as a flag machine: the flag at its start decides which
slot is copied, which flag is left and whether the image is entered. -/
namespace Smarthome.Bootloader

open Semantics Routine

/-- What `read_fw_flag` returns. -/
def currentFlag (board : Board) : Byte :=
  if IsFwFlag (board.internal (startUserFlash + otaStatusFlag)) then
    board.internal (startUserFlash + otaStatusFlag)
  else fwFlagNonUpdate

/-- What an execution of `main` does with a flag. -/
structure BootPlan where
  source : Option OtaSlot
  flag : Byte
  finish : BootEnd
  deriving DecidableEq

def bootPlan (fwFlag : Byte) : BootPlan :=
  if fwFlag = fwFlagPingOk then ⟨none, fwFlagNonUpdate, .systemReset⟩
  else if fwFlag = fwFlagNewImgIntRst then ⟨none, fwFlagNewImgInt, .jumpToImage⟩
  else if fwFlag = fwFlagNewImgInt then ⟨some goldenSlot, fwFlagErrorGiLoaded, .systemReset⟩
  else if fwFlag = fwFlagNewImgExt then ⟨some downloadSlot, fwFlagNewImgIntRst, .systemReset⟩
  else ⟨none, fwFlag, .jumpToImage⟩

/-- The address of a slot on the external flash. -/
def slotAddress (slot : OtaSlot) : Nat := otaImagePage slot * 0x1000

/-- The internal image is still the same. -/
structure BoardKept (start board : Board) : Prop where
  image : ImageKept board.internal currentFirmware start.internal currentFirmware
  external : board.external = start.external
  copyUnfinished : board.copyUnfinished = start.copyUnfinished

/-- The internal image is that of a slot. -/
structure Installed (start : Board) (slot : OtaSlot) (board : Board) : Prop where
  image : ImageKept board.internal currentFirmware start.external (slotAddress slot)
  external : board.external = start.external
  copyUnfinished : board.copyUnfinished = false

/-- The internal image after a boot which copies from the source, if there is one. -/
def ImageFrom (start : Board) : Option OtaSlot → Board → Prop
  | none => fun board => BoardKept start board ∧ ShadowVerified board.internal currentFirmware
  | some slot => Installed start slot

/-- Where a power loss can leave an execution of `main`. -/
def BootCut (start board : Board) : Prop :=
  (BoardKept start board ∧
    (currentFlag board = currentFlag start ∨ (bootPlan (currentFlag start)).source = none)) ∨
  ∃ slot, (bootPlan (currentFlag start)).source = some slot ∧
    (board.external = start.external ∧ board.copyUnfinished = true ∧
      currentFlag board = currentFlag start ∨ Installed start slot board)

theorem slotAddress_lt (slot : OtaSlot) : slotAddress slot < 0x1000000 := by
  have hPage := otaImagePage_le slot
  unfold slotAddress
  omega

theorem currentFirmware_lt : currentFirmware < 0x1000000 := by decide

theorem BoardKept.refl (board : Board) : BoardKept board board :=
  ⟨ImageKept.of_eq fun _ _ => rfl, rfl, rfl⟩

section Relations

variable {start middle board : Board} {slot : OtaSlot}

theorem BoardKept.trans (h : BoardKept middle board) (h' : BoardKept start middle) :
    BoardKept start board where
  image := h.image.trans h'.image currentFirmware_lt currentFirmware_lt
  external := h.external.trans h'.external
  copyUnfinished := h.copyUnfinished.trans h'.copyUnfinished

theorem Installed.keep (h : BoardKept middle board) (h' : Installed start slot middle) :
    Installed start slot board where
  image := h.image.trans h'.image currentFirmware_lt (slotAddress_lt slot)
  external := h.external.trans h'.external
  copyUnfinished := h.copyUnfinished.trans h'.copyUnfinished

theorem SameFlash.boardKept (h : SameFlash start board) : BoardKept start board :=
  ⟨ImageKept.of_eq fun i _ => by rw [h.internal], h.external, h.copyUnfinished⟩

theorem SameFlash.currentFlag_eq (h : SameFlash start board) :
    currentFlag board = currentFlag start := by
  unfold currentFlag
  rw [h.internal]

/-- The image and the user flash lie in different sectors. -/
theorem currentFlag_eq_of_outside (h : ∀ a, ¬ InImage a → board.internal a = start.internal a) :
    currentFlag board = currentFlag start := by
  unfold currentFlag
  have hOutside : ¬ InImage (startUserFlash + otaStatusFlag) := fun hImage =>
    absurd hImage.2 (by decide)
  rw [h _ hOutside]

theorem Copying.installed (h : Copying start slot 25 board) (hDone : board.copyUnfinished = false) :
    Installed start slot board :=
  ⟨ImageKept.of_eq fun i hi => h.copied i hi, h.external, hDone⟩

/-- None of these relations looks at the outcomes of exchanges to come. -/
theorem BoardKept.of_withOutcomes {outcomes : List Bool}
    (h : BoardKept { start with outcomes } board) : BoardKept start board :=
  ⟨h.image, h.external, h.copyUnfinished⟩

theorem Installed.of_withOutcomes {outcomes : List Bool}
    (h : Installed { start with outcomes } slot board) : Installed start slot board :=
  ⟨h.image, h.external, h.copyUnfinished⟩

theorem ImageFrom.of_withOutcomes {source : Option OtaSlot} {outcomes : List Bool}
    (h : ImageFrom { start with outcomes } source board) : ImageFrom start source board := by
  cases source with
  | none => exact ⟨BoardKept.of_withOutcomes h.1, h.2⟩
  | some slot => exact Installed.of_withOutcomes h

theorem BootCut.of_withOutcomes {outcomes : List Bool} (h : BootCut { start with outcomes } board) :
    BootCut start board := by
  rcases h with ⟨hKept, hFlag⟩ | ⟨slot, hSource, hCopying | hInstalled⟩
  · exact Or.inl ⟨hKept.of_withOutcomes, hFlag⟩
  · exact Or.inr ⟨slot, hSource, Or.inl hCopying⟩
  · exact Or.inr ⟨slot, hSource, Or.inr hInstalled.of_withOutcomes⟩

end Relations

section Flag

variable {start : Board} {f value : Byte}

/-- Which of the flags, if any, is in the user flash, decides what is read. -/
theorem currentFlag_of_isFwFlag {board : Board} (hValue : IsFwFlag value)
    (h : board.internal (startUserFlash + otaStatusFlag) = value) : currentFlag board = value := by
  rw [currentFlag, h, if_pos hValue]

/-- The user flash as `user_flash_update_byte` has read and changed it. -/
def userFlashWith (board : Board) (value : Byte) : List Byte :=
  (NorFlash.slice board.internal startUserFlash userFlashLength).set otaStatusFlag value

/-- Between the two operations of `user_flash_update_byte`. -/
def flagErased (board : Board) : Board := Effect.apply (FlashOp.sectorErase startUserFlash) board

/-- After both of them. -/
def flagWritten (board : Board) (value : Byte) : Board :=
  Effect.apply (FlashOp.program startUserFlash (userFlashWith board value)) (flagErased board)

theorem flagErased_below {a : Nat} (ha : a < startUserFlash) :
    (flagErased start).internal a = start.internal a := by
  apply NorFlash.erase_outside
  simp only [startUserFlash, flashPageSize] at *
  omega

theorem flagErased_inside {i : Nat} (hi : i < 0x1000) :
    (flagErased start).internal (startUserFlash + i) = 0xFF := by
  apply NorFlash.erase_inside
  simp only [startUserFlash, flashPageSize]
  omega

theorem flagErased_kept : BoardKept start (flagErased start) := by
  refine ⟨ImageKept.of_eq fun i hi => flagErased_below ?_, rfl, rfl⟩
  simp only [startUserFlash, currentFirmware]
  omega

theorem flagErased_flag : currentFlag (flagErased start) = fwFlagNonUpdate := by
  rw [currentFlag, flagErased_inside (by decide)]
  rfl

theorem flagWritten_kept : BoardKept start (flagWritten start value) := by
  refine ⟨ImageKept.of_eq fun i hi => ?_, rfl, rfl⟩
  have hBelow : currentFirmware + i < startUserFlash := by
    simp only [startUserFlash, currentFirmware]
    omega
  rw [flagWritten, apply_program_internal, NorFlash.program_below hBelow, flagErased_below hBelow]

theorem flagWritten_flag (hValue : IsFwFlag value) : currentFlag (flagWritten start value) = value := by
  apply currentFlag_of_isFwFlag hValue
  have hLength : otaStatusFlag < (userFlashWith start value).length := by
    simp [userFlashWith]
  rw [flagWritten, apply_program_internal,
    NorFlash.program_of_erased hLength (flagErased_inside (by decide))]
  exact List.getElem_set_self hLength

/-- Without power loss `write_fw_flag` writes the flag. In between there is none, which
reads as no update. -/
theorem writeFwFlag_triple (start : Board) (hValue : IsFwFlag value) :
    Triple (fun b => b = start) (writeFwFlag value)
      (fun b => BoardKept start b ∧
        (currentFlag b = currentFlag start ∨ currentFlag b = fwFlagNonUpdate ∨ currentFlag b = value))
      fun _ b => BoardKept start b ∧ currentFlag b = value := by
  have hRun : writeFwFlag value start =
      (some ((flagWritten start value).internal (startUserFlash + otaStatusFlag) == value),
        [FlashOp.sectorErase startUserFlash,
          FlashOp.program startUserFlash (userFlashWith start value)]) := by
    unfold writeFwFlag
    rw [if_pos hValue]
    rfl
  refine Triple.of_run hRun (fun k => ?_) ⟨flagWritten_kept, flagWritten_flag hValue⟩
  match k with
  | 0 => exact ⟨BoardKept.refl start, Or.inl rfl⟩
  | 1 => exact ⟨flagErased_kept, Or.inr (Or.inl flagErased_flag)⟩
  | k + 2 =>
      rw [List.take_succ_cons, List.take_succ_cons, List.take_nil]
      exact ⟨flagWritten_kept, Or.inr (Or.inr (flagWritten_flag hValue))⟩

/-- A flag that is written over the one at the start. -/
theorem writeFwFlag_from (hValue : IsFwFlag value) (P : Board → Prop)
    (hKept : ∀ b b', P b → BoardKept b b' → P b') :
    Triple (fun b => P b ∧ currentFlag b = f) (writeFwFlag value)
      (fun b => P b ∧ (currentFlag b = f ∨ currentFlag b = fwFlagNonUpdate ∨ currentFlag b = value))
      fun _ b => P b ∧ currentFlag b = value := by
  refine Triple.of_forall fun s ⟨hs, hFlag⟩ => ?_
  subst hFlag
  exact (writeFwFlag_triple s hValue).mono (fun _ h => h) (fun b h => ⟨hKept s b hs h.1, h.2⟩)
    fun _ b h => ⟨hKept s b hs h.1, h.2⟩

/-- Reading the flag leaves what will be read next, even when it is interrupted. -/
theorem readFwFlag_triple :
    Triple (fun b => BoardKept start b ∧ currentFlag b = f) readFwFlag
      (fun b => BoardKept start b ∧ currentFlag b = f)
      fun r b => (BoardKept start b ∧ currentFlag b = f) ∧ r = f := by
  have hRead : Triple (fun b => BoardKept start b ∧ currentFlag b = f)
      (userFlashReadByte otaStatusFlag) (fun b => BoardKept start b ∧ currentFlag b = f)
      fun flagValue b => (BoardKept start b ∧ currentFlag b = f) ∧
        f = if IsFwFlag flagValue then flagValue else fwFlagNonUpdate :=
    Triple.get fun b h => ⟨h, h, h.2.symm⟩
  apply Triple.bind hRead
  intro flagValue
  by_cases hFlag : IsFwFlag flagValue
  · simp only [if_pos hFlag]
    exact Triple.pure fun b h => ⟨h.1, h.1, h.2.symm⟩
  · simp only [if_neg hFlag]
    apply Triple.of_forall
    intro s hs
    obtain ⟨⟨hKept, hCurrent⟩, hNonUpdate⟩ := hs
    subst hNonUpdate
    have hWrite := (writeFwFlag_from (f := fwFlagNonUpdate) (Or.inl rfl) (BoardKept start)
      fun b b' h h' => h'.trans h)
    refine Triple.bind (hWrite.mono (fun b h => ?_) (fun b h => ?_) fun _ _ h => h) fun _ => ?_
    · subst h
      exact ⟨hKept, hCurrent⟩
    · exact ⟨h.1, by simpa using h.2⟩
    · exact Triple.pure fun b h => ⟨h, h, rfl⟩

end Flag

section Verify

variable {start : Board} {f : Byte}

/-- The metadata which `verify_current_firmware` programs. -/
def verifiedMetadata (board : Board) : OtaMetadata :=
  (metadataAt board.internal currentFirmware).setCrcShadow
    (recomputedCrc board.internal currentFirmware)

/-- The board after `verify_current_firmware`. -/
def verified (board : Board) : Board :=
  Effect.apply (FlashOp.program currentFirmware (verifiedMetadata board).bytes.toList) board

theorem verified_outside {a : Nat} (ha : a < currentFirmware ∨ currentFirmware + 16 ≤ a) :
    (verified start).internal a = start.internal a := by
  rw [verified, apply_program_internal, NorFlash.program_outside]
  rwa [Vector.length_toList]

theorem verified_byte {i : Nat} (hi : i < 16) :
    (verified start).internal (currentFirmware + i) =
      start.internal (currentFirmware + i) &&& (verifiedMetadata start).bytes[i] := by
  have hLength : i < (verifiedMetadata start).bytes.toList.length := by rwa [Vector.length_toList]
  rw [verified, apply_program_internal, NorFlash.program_inside hLength, Vector.getElem_toList,
    merge_byte]

theorem metadataAt_getElem {memory : Nat → Byte} {base i : Nat} (hi : i < 16) :
    (metadataAt memory base).bytes[i] = memory (base + i) := by
  simp [metadataAt]

theorem verified_shadow {i : Nat} (hi : i = 2 ∨ i = 3) :
    (verified start).internal (currentFirmware + i) =
      verifiedByte start.internal currentFirmware i := by
  have hMetadata : i < 16 := by omega
  rw [verified_byte hMetadata, verifiedMetadata, OtaMetadata.setCrcShadow_shadow _ _ hMetadata hi,
    verifiedByte_shadow hi]

/-- Verifying programs the CRC over the shadow, and nothing else. -/
theorem verified_kept (board : Board) : BoardKept board (verified board) where
  external := rfl
  copyUnfinished := rfl
  image := by
    refine ⟨fun i hi h2 h3 => ?_, fun i hi => ?_, fun _ => Or.inr fun i hi => verified_shadow hi⟩
    · by_cases hMetadata : i < 16
      · rw [verified_byte hMetadata, verifiedMetadata,
          OtaMetadata.setCrcShadow_getElem _ _ hMetadata h2 h3, metadataAt_getElem hMetadata,
          UInt8.and_self]
      · exact verified_outside (Or.inr (by omega))
    · rw [verified_shadow hi, verifiedByte_shadow hi, UInt8.and_assoc,
        UInt8.and_comm (OtaMetadata.shadowByte _ _), ← UInt8.and_assoc, UInt8.and_self]

theorem verified_shadowVerified (board : Board) :
    ShadowVerified (verified board).internal currentFirmware := by
  intro hFits i hi
  have hCrc := (verified_kept board).image.same.recomputedCrc_eq hFits currentFirmware_lt
    currentFirmware_lt
  rw [verifiedByte_shadow hi, hCrc, verified_shadow hi, verifiedByte_shadow hi, UInt8.and_assoc,
    UInt8.and_self]

theorem verified_flag (board : Board) : currentFlag (verified board) = currentFlag board := by
  refine currentFlag_eq_of_outside fun a ha => verified_outside ?_
  unfold InImage at ha
  simp only [currentFirmware]
  omega

theorem verifyCurrentFirmware_triple (metadata : OtaMetadata) :
    Triple (fun b => (BoardKept start b ∧ currentFlag b = f) ∧
        metadata = metadataAt b.internal currentFirmware)
      (verifyCurrentFirmware metadata) (fun b => BoardKept start b ∧ currentFlag b = f)
      fun _ b => (BoardKept start b ∧ ShadowVerified b.internal currentFirmware) ∧
        currentFlag b = f := by
  apply Triple.of_forall
  intro s hs
  obtain ⟨hs, rfl⟩ := hs
  have hVerified : BoardKept start (verified s) ∧ currentFlag (verified s) = f :=
    ⟨(verified_kept s).trans hs.1, (verified_flag s).trans hs.2⟩
  have hRun : verifyCurrentFirmware (metadataAt s.internal currentFirmware) s =
      (some (if (verifiedMetadata s).crcShadow = (metadataAt s.internal currentFirmware).crc then
        Verdict.correctCrc else Verdict.nonCorrectCrc),
        [FlashOp.program currentFirmware (verifiedMetadata s).bytes.toList]) := rfl
  refine Triple.of_run hRun (fun k => ?_)
    ⟨⟨hVerified.1, verified_shadowVerified s⟩, hVerified.2⟩
  cases k with
  | zero => exact hs
  | succ k =>
      rw [List.take_succ_cons, List.take_nil]
      exact hVerified

/-- Nothing that is read and verified before the branches changes the flag or the image. -/
theorem readFlagAndVerify_triple :
    Triple (fun b => BoardKept start b ∧ currentFlag b = f) readFlagAndVerify
      (fun b => BoardKept start b ∧ currentFlag b = f)
      fun r b => (ImageFrom start none b ∧ currentFlag b = f) ∧ r = f := by
  have hIgnores : IgnoresOutcomes fun b => ImageFrom start none b ∧ currentFlag b = f :=
    fun b outcomes h => ⟨⟨⟨h.1.1.image, h.1.1.external, h.1.1.copyUnfinished⟩, h.1.2⟩, h.2⟩
  have hSlot (slot : OtaSlot) := (verifyOtaSlot_keeps hIgnores slot).mono (fun _ h => h)
    (fun b h => And.intro h.1.1 h.2) fun _ _ h => h
  apply Triple.bind readFwFlag_triple
  intro fwFlag
  by_cases hFlag : fwFlag = f
  · subst hFlag
    have hMetadata : Triple (fun b => (BoardKept start b ∧ currentFlag b = fwFlag) ∧ fwFlag = fwFlag)
        getCurrentMetadata (fun b => BoardKept start b ∧ currentFlag b = fwFlag) fun metadata b =>
          (BoardKept start b ∧ currentFlag b = fwFlag) ∧
            metadata = metadataAt b.internal currentFirmware :=
      Triple.get fun b h => ⟨h.1, h.1, rfl⟩
    apply Triple.bind hMetadata
    intro metadata
    apply Triple.bind (verifyCurrentFirmware_triple metadata)
    intro _
    apply Triple.bind (hSlot 1)
    intro _
    apply Triple.bind (hSlot 0)
    intro _
    exact Triple.pure fun b h => ⟨⟨h.1.1, h.2⟩, h, rfl⟩
  · exact Triple.of_forall fun s hs => absurd hs.2 hFlag

end Verify

section Main

variable {start : Board} {f : Byte}

theorem currentFlag_isFwFlag (board : Board) : IsFwFlag (currentFlag board) := by
  unfold currentFlag
  split_ifs with hFlag
  · exact hFlag
  · exact Or.inl rfl

/-- A branch which only writes a flag. -/
theorem flagBranch_triple {value : Byte} {finish : BootEnd} (hStart : currentFlag start = f)
    (hPlan : bootPlan f = ⟨none, value, finish⟩) (hValue : IsFwFlag value) :
    Triple (fun b => ImageFrom start none b ∧ currentFlag b = f)
      (do
        let _ ← writeFwFlag value
        return finish) (BootCut start)
      fun r b => ImageFrom start (bootPlan f).source b ∧ currentFlag b = (bootPlan f).flag ∧
        r = (bootPlan f).finish := by
  have hCut (b : Board) (hb : BoardKept start b) : BootCut start b :=
    Or.inl ⟨hb, Or.inr (by rw [hStart, hPlan])⟩
  have hWrite := writeFwFlag_from (f := f) hValue (ImageFrom start none) fun b b' h h' =>
    ⟨h'.trans h.1, ShadowVerified.keep h'.image h.2 currentFirmware_lt currentFirmware_lt⟩
  apply Triple.bind (hWrite.mono (fun _ h => h) (fun b h => hCut b h.1.1) fun _ _ h => h)
  intro _
  refine Triple.pure fun b h => ⟨hCut b h.1.1, ?_⟩
  rw [hPlan]
  exact ⟨h.1, h.2, rfl⟩

theorem jumpBranch_triple (hStart : currentFlag start = f)
    (hPlan : bootPlan f = ⟨none, f, .jumpToImage⟩) :
    Triple (fun b => ImageFrom start none b ∧ currentFlag b = f) (pure BootEnd.jumpToImage : Boot BootEnd)
      (BootCut start)
      fun r b => ImageFrom start (bootPlan f).source b ∧ currentFlag b = (bootPlan f).flag ∧
        r = (bootPlan f).finish := by
  refine Triple.pure fun b h => ⟨Or.inl ⟨h.1.1, Or.inl (h.2.trans hStart.symm)⟩, ?_⟩
  rw [hPlan]
  exact ⟨h.1, h.2, rfl⟩

/-- A branch which copies a slot and then writes a flag. A power loss leaves the old
image, or a copy which the unchanged flag will repeat, or the whole copy. -/
theorem copyBranch_triple {slot : OtaSlot} {value : Byte} (hStart : currentFlag start = f)
    (hPlan : bootPlan f = ⟨some slot, value, .systemReset⟩) (hValue : IsFwFlag value) :
    Triple (fun b => ImageFrom start none b ∧ currentFlag b = f)
      (do
        updateFirmware slot
        let _ ← writeFwFlag value
        return .systemReset) (BootCut start)
      fun r b => ImageFrom start (bootPlan f).source b ∧ currentFlag b = (bootPlan f).flag ∧
        r = (bootPlan f).finish := by
  have hSource : (bootPlan (currentFlag start)).source = some slot := by rw [hStart, hPlan]
  have hCut (b : Board) (hb : Installed start slot b) : BootCut start b :=
    Or.inr ⟨slot, hSource, Or.inr hb⟩
  have hCopy : Triple (fun b => ImageFrom start none b ∧ currentFlag b = f) (updateFirmware slot)
      (BootCut start) fun _ b => Installed start slot b ∧ currentFlag b = f := by
    refine Triple.of_forall fun s ⟨⟨hs, _⟩, hFlag⟩ => ?_
    have hFrom (b : Board) (h : Installed s slot b) : Installed start slot b :=
      ⟨hs.external ▸ h.image, h.external.trans hs.external, h.copyUnfinished⟩
    refine (updateFirmware_triple s slot).mono (fun b h => h ▸ ⟨rfl, rfl, rfl⟩)
      (fun b h => ?_) fun _ b h => ?_
    · have hSameFlag := currentFlag_eq_of_outside h.1.outside
      rcases h.2 with hSame | hUnfinished | hDone
      · exact Or.inl ⟨hSame.boardKept.trans hs, Or.inl (by rw [hSameFlag, hFlag, hStart])⟩
      · exact Or.inr ⟨slot, hSource, Or.inl ⟨h.1.external.trans hs.external, hUnfinished,
          by rw [hSameFlag, hFlag, hStart]⟩⟩
      · exact hCut b (hFrom b (hDone.1.installed hDone.2))
    · exact ⟨hFrom b (h.1.installed (h.2.2 rfl)),
        (currentFlag_eq_of_outside h.1.outside).trans hFlag⟩
  have hWrite := writeFwFlag_from (f := f) hValue (Installed start slot)
    fun b b' h h' => Installed.keep h' h
  apply Triple.bind hCopy
  intro _
  apply Triple.bind (hWrite.mono (fun _ h => h) (fun b h => hCut b h.1) fun _ _ h => h)
  intro _
  refine Triple.pure fun b h => ⟨hCut b h.1, ?_⟩
  rw [hPlan]
  exact ⟨h.1, h.2, rfl⟩

theorem dispatchFlag_triple (hStart : currentFlag start = f) :
    Triple (fun b => ImageFrom start none b ∧ currentFlag b = f) (dispatchFlag f) (BootCut start)
      fun r b => ImageFrom start (bootPlan f).source b ∧ currentFlag b = (bootPlan f).flag ∧
        r = (bootPlan f).finish := by
  have hFlag := currentFlag_isFwFlag start
  rw [hStart] at hFlag
  rcases hFlag with rfl | rfl | rfl | rfl | rfl | rfl
  · exact jumpBranch_triple hStart rfl
  · exact copyBranch_triple hStart rfl (by decide)
  · exact copyBranch_triple hStart rfl (by decide)
  · exact jumpBranch_triple hStart rfl
  · exact flagBranch_triple hStart rfl (by decide)
  · exact flagBranch_triple hStart rfl (by decide)

/-- With the external flash, `main` follows the plan for the flag it finds. -/
theorem main_triple (start : Board) (hChip : start.outcomes.headD true = true) :
    Triple (fun b => b = start) main (BootCut start)
      fun r b => ImageFrom start (bootPlan (currentFlag start)).source b ∧
        currentFlag b = (bootPlan (currentFlag start)).flag ∧
        r = (bootPlan (currentFlag start)).finish := by
  have hCut (b : Board) (hb : BoardKept start b ∧ currentFlag b = currentFlag start) :
      BootCut start b := Or.inl ⟨hb.1, Or.inl hb.2⟩
  have hKept : BoardKept start (Effect.apply FlashOp.exchange start) :=
    ⟨ImageKept.of_eq fun _ _ => rfl, rfl, rfl⟩
  have hRun : exchange start = (some (start.outcomes.headD true), [.exchange]) := rfl
  rw [hChip] at hRun
  have hOpen : Triple (fun b => b = start) exchange (BootCut start) fun r b =>
      (BoardKept start b ∧ currentFlag b = currentFlag start) ∧ r = true := by
    refine Triple.of_run hRun (fun k => ?_) ⟨⟨hKept, rfl⟩, rfl⟩
    cases k with
    | zero => exact hCut start ⟨BoardKept.refl start, rfl⟩
    | succ k =>
        rw [List.take_succ_cons, List.take_nil]
        exact hCut _ ⟨hKept, rfl⟩
  apply Triple.bind hOpen
  intro opened
  cases opened with
  | false => exact Triple.of_forall fun s hs => absurd hs.2 Bool.false_ne_true
  | true =>
      refine Triple.bind (readFlagAndVerify_triple.mono (fun b h => h.1) hCut fun _ _ h => h)
        fun fwFlag => ?_
      by_cases hFlag : fwFlag = currentFlag start
      · subst hFlag
        exact (dispatchFlag_triple rfl).mono (fun b h => h.1) (fun _ h => h) fun _ _ h => h
      · exact Triple.of_forall fun s hs => absurd hs.2 hFlag

/-- Without it, `main` enters whatever image there is. -/
theorem main_without_chip (hChip : start.outcomes.headD true = false) :
    main start = (some .jumpToImage, [.exchange]) := by
  have hRun : exchange start = (some (start.outcomes.headD true), [.exchange]) := rfl
  rw [hChip] at hRun
  exact bind_of_run hRun

end Main

end Smarthome.Bootloader
