import Smarthome.Bootloader.Main

/-! What the routines of the bootloader do to the board, and where a power loss can
leave them: reading the external flash, writing the flag, verifying, copying. -/
namespace Smarthome.Bootloader

open Semantics Routine

/-- The flash contents are the same; only exchanges have taken place. -/
structure SameFlash (start board : Board) : Prop where
  internal : board.internal = start.internal
  external : board.external = start.external
  copyUnfinished : board.copyUnfinished = start.copyUnfinished

/-- A property of boards in which the outcomes of later exchanges play no part. -/
def IgnoresOutcomes (P : Board → Prop) : Prop :=
  ∀ board outcomes, P board → P { board with outcomes }

section Exchange

variable {P : Board → Prop} (hP : IgnoresOutcomes P)
include hP

/-- A failed exchange uses up an outcome. -/
theorem exchange_triple (n : Nat) :
    Triple (fun b => P b ∧ b.outcomes.length = n) exchange P fun r b =>
      P b ∧ b.outcomes.length ≤ n ∧ (r = false → b.outcomes.length < n) := by
  refine Triple.of_forall fun s ⟨hs, hLength⟩ => ?_
  have hTail := hP s s.outcomes.tail hs
  have hRun : exchange s = (some (s.outcomes.headD true), [.exchange]) := rfl
  refine Triple.of_run hRun (fun k => ?_) ⟨hTail, ?_⟩
  · cases k with
    | zero => exact hs
    | succ k =>
        rw [List.take_succ_cons, List.take_nil]
        exact hTail
  · show s.outcomes.tail.length ≤ n ∧ (s.outcomes.headD true = false → s.outcomes.tail.length < n)
    cases hOutcomes : s.outcomes with
    | nil => simp
    | cons o rest =>
        rw [hOutcomes, List.length_cons] at hLength
        simp only [List.tail_cons]
        omega

theorem exchange_keeps : Triple P exchange P fun _ => P :=
  Triple.of_forall fun s hs => ((exchange_triple hP s.outcomes.length).of_mem ⟨hs, rfl⟩).mono
    (fun _ h => h) (fun _ h => h) fun _ _ h => h.1

/-- Two exchanges, `ext_flash_open` and a read, and what follows when both succeed. -/
theorem twoExchanges_triple {Result : Type} {Crash : Board → Prop} (hCrash : ∀ b, P b → Crash b)
    (n : Nat) {f : Boot (Option Result)} {Post : Result → Board → Prop}
    (hf : Triple P f Crash (OnAttempt Post fun _ => False)) :
    Triple (fun b => P b ∧ b.outcomes.length = n)
      (do
        if ← exchange then
          if ← exchange then f else return none
        else return none) Crash (OnAttempt Post fun b => P b ∧ b.outcomes.length < n) := by
  have hExchange (n : Nat) := (exchange_triple hP n).mono (fun _ h => h) hCrash fun _ _ h => h
  apply Triple.bind (hExchange n)
  intro opened
  cases opened with
  | false => exact Triple.pure fun b h => ⟨hCrash b h.1, h.1, h.2.2 rfl⟩
  | true =>
      apply Triple.of_forall
      intro s hs
      refine Triple.bind ((hExchange s.outcomes.length).of_mem ⟨hs.1, rfl⟩) fun isRead => ?_
      cases isRead with
      | false =>
          exact Triple.pure fun b h => ⟨hCrash b h.1, h.1, Nat.lt_of_lt_of_le (h.2.2 rfl) hs.2.1⟩
      | true =>
          apply hf.mono (fun b h => h.1) (fun _ h => h)
          intro r b h
          cases r with
          | some r => exact h
          | none => exact h.elim

/-- Reading the metadata until it works changes nothing on the board. -/
theorem metadataUntilRead_keeps (slot : OtaSlot) :
    Triple P (withState fun board =>
      untilSome (getOtaSlotMetadata slot) (board.outcomes.length + 1)) P fun _ => P := by
  apply Triple.withState
  intro s hs
  refine (Triple.untilSome P (fun b => b.outcomes.length) (fun n => ?_) _).of_mem
    ⟨hs, Nat.lt_succ_self _⟩
  apply twoExchanges_triple hP (fun _ h => h) n
  exact Triple.bind (Triple.get fun b h => ⟨h, h⟩) fun _ => Triple.pure fun b h => ⟨h, h⟩

theorem readSlotWords_keeps (fuel address endAddress : Nat) (crc : UInt16) :
    Triple P (readSlotWords fuel address endAddress crc) P fun _ => P := by
  induction fuel generalizing address crc with
  | zero => exact Triple.pure fun b h => ⟨h, h⟩
  | succ fuel ih =>
      rw [readSlotWords]
      split_ifs with hMore
      · apply Triple.bind (exchange_keeps hP)
        intro isRead
        cases isRead with
        | false => exact Triple.pure fun b h => ⟨h, h⟩
        | true => exact Triple.bind (Triple.get fun b h => ⟨h, h⟩) fun next => ih _ next
      · exact Triple.pure fun b h => ⟨h, h⟩

/-- Verifying a slot changes nothing on the board. -/
theorem verifyOtaSlot_keeps (slot : OtaSlot) : Triple P (verifyOtaSlot slot) P fun _ => P := by
  apply Triple.bind (metadataUntilRead_keeps hP slot)
  intro metadata
  apply Triple.bind (exchange_keeps hP)
  intro opened
  cases opened with
  | false => exact Triple.pure fun b h => ⟨h, h⟩
  | true =>
      apply Triple.bind (readSlotWords_keeps hP _ _ _ _)
      intro crc
      cases crc with
      | none => exact Triple.pure fun b h => ⟨h, h⟩
      | some crc => exact Triple.pure fun b h => ⟨h, h⟩

end Exchange

/-- The addresses of the internal image. -/
def InImage (a : Nat) : Prop := 0x2000 ≤ a ∧ a < 0x1B000

/-- The first sectors of the internal image are those of a slot, and outside the
image nothing has changed. -/
structure Copying (start : Board) (slot : OtaSlot) (sectors : Nat) (board : Board) : Prop where
  external : board.external = start.external
  outside : ∀ a, ¬ InImage a → board.internal a = start.internal a
  copied : ∀ j < sectors * 0x1000,
    board.internal (0x2000 + j) = start.external (otaImagePage slot * 0x1000 + j)

/-- Where a cut can leave a copy: not begun, unfinished, or complete. -/
def CopyCut (start : Board) (slot : OtaSlot) (board : Board) : Prop :=
  Copying start slot 0 board ∧
    (SameFlash start board ∨ board.copyUnfinished = true ∨
      (Copying start slot 25 board ∧ board.copyUnfinished = false))

/-- The invariant of the loop over the sectors. -/
def CopyInv (start : Board) (slot : OtaSlot) (sectors : Nat) (board : Board) : Prop :=
  Copying start slot sectors board ∧
    (sectors < 25 → SameFlash start board ∨ board.copyUnfinished = true) ∧
    (sectors = 25 → board.copyUnfinished = false)

/-- Between the erase of a sector and its program. -/
def SectorErased (start : Board) (slot : OtaSlot) (sector : Nat) (board : Board) : Prop :=
  Copying start slot sector board ∧ board.copyUnfinished = true ∧
    ∀ j < 0x1000, board.internal (0x2000 + sector * 0x1000 + j) = 0xFF

section CopyLoop

variable {start : Board} {slot : OtaSlot} {sector : Nat} {board : Board}

theorem Copying.zero (h : Copying start slot sector board) : Copying start slot 0 board :=
  ⟨h.external, h.outside, fun j hj => absurd hj (by omega)⟩

theorem CopyInv.cut (h : CopyInv start slot sector board) (hSector : sector ≤ 25) :
    CopyCut start slot board := by
  refine ⟨h.1.zero, ?_⟩
  rcases Nat.lt_or_eq_of_le hSector with hMore | hDone
  · rcases h.2.1 hMore with hSame | hUnfinished
    · exact Or.inl hSame
    · exact Or.inr (Or.inl hUnfinished)
  · subst hDone
    exact Or.inr (Or.inr ⟨h.1, h.2.2 rfl⟩)

theorem SectorErased.cut (h : SectorErased start slot sector board) : CopyCut start slot board :=
  ⟨h.1.zero, Or.inr (Or.inl h.2.1)⟩

theorem sectorErased_ignoresOutcomes (start : Board) (slot : OtaSlot) (sector : Nat) :
    IgnoresOutcomes (SectorErased start slot sector) :=
  fun _ _ h => ⟨⟨h.1.external, h.1.outside, h.1.copied⟩, h.2.1, h.2.2⟩

/-- The erase of the next sector touches neither the copied ones nor the outside. -/
theorem sectorErased_of_copyInv (h : CopyInv start slot sector board) (hSector : sector < 25) :
    SectorErased start slot sector
      (Effect.apply (FlashOp.sectorErase (currentFirmware + sector * flashPageSize)) board) := by
  have hElsewhere (a : Nat) (ha : a / 0x1000 ≠ 2 + sector) :
      NorFlash.erase flashPageSize (currentFirmware + sector * flashPageSize) board.internal a =
        board.internal a := by
    apply NorFlash.erase_outside
    simp only [flashPageSize, currentFirmware]
    omega
  refine ⟨⟨h.1.external, fun a ha => ?_, fun j hj => ?_⟩, ?_, fun j hj => ?_⟩
  · refine (hElsewhere a ?_).trans (h.1.outside a ha)
    unfold InImage at ha
    omega
  · exact (hElsewhere _ (by omega)).trans (h.1.copied j hj)
  · have hImage : currentFirmware ≤ currentFirmware + sector * flashPageSize ∧
        currentFirmware + sector * flashPageSize ≤ lastImageSector := by
      simp only [flashPageSize, currentFirmware, lastImageSector]
      omega
    simp only [Effect.apply, decide_eq_true hImage, Bool.true_or]
  · apply NorFlash.erase_inside
    simp only [flashPageSize, currentFirmware]
    omega

/-- The program of an erased sector completes it. -/
theorem copyInv_of_program (h : SectorErased start slot sector board) (hSector : sector < 25) :
    CopyInv start slot (sector + 1)
      (Effect.apply (FlashOp.program (currentFirmware + sector * flashPageSize)
        (NorFlash.slice board.external
          (ExtFlash.address24 ((otaImagePage slot + sector) * flashPageSize)) flashPageSize)) board) := by
  have hPage := otaImagePage_le slot
  have hSource : ExtFlash.address24 ((otaImagePage slot + sector) * flashPageSize) =
      otaImagePage slot * 0x1000 + sector * 0x1000 := by
    simp only [ExtFlash.address24, flashPageSize]
    omega
  have hTarget : currentFirmware + sector * flashPageSize = 0x2000 + sector * 0x1000 := by
    simp only [flashPageSize, currentFirmware]
  rw [hSource, hTarget, h.1.external]
  have hElsewhere (a : Nat) (ha : a < 0x2000 + sector * 0x1000 ∨ 0x3000 + sector * 0x1000 ≤ a) :
      NorFlash.program (0x2000 + sector * 0x1000) (NorFlash.slice start.external
        (otaImagePage slot * 0x1000 + sector * 0x1000) flashPageSize) board.internal a =
        board.internal a := by
    apply NorFlash.program_outside
    simp only [NorFlash.slice_length, flashPageSize]
    omega
  refine ⟨⟨h.1.external, fun a ha => ?_, fun j hj => ?_⟩, fun hMore => Or.inr ?_, fun hDone => ?_⟩
  · refine (hElsewhere a ?_).trans (h.1.outside a ha)
    unfold InImage at ha
    omega
  · rw [apply_program_internal]
    by_cases hOld : j < sector * 0x1000
    · rw [hElsewhere (0x2000 + j) (by omega)]
      exact h.1.copied j hOld
    · obtain ⟨i, hi⟩ : ∃ i, j = sector * 0x1000 + i := ⟨j - sector * 0x1000, by omega⟩
      subst hi
      have hLt : i < 0x1000 := by omega
      have hByte : NorFlash.program (0x2000 + sector * 0x1000) (NorFlash.slice start.external
          (otaImagePage slot * 0x1000 + sector * 0x1000) flashPageSize) board.internal
            (0x2000 + sector * 0x1000 + i) =
          start.external (otaImagePage slot * 0x1000 + sector * 0x1000 + i) :=
        NorFlash.program_slice_of_erased hLt (h.2.2 i hLt)
      rw [Nat.add_assoc, Nat.add_assoc] at hByte
      exact hByte
  · have hNotLast : ¬ 0x2000 + sector * 0x1000 = lastImageSector := by
      simp only [lastImageSector]
      omega
    simp only [Effect.apply, hNotLast, decide_false, Bool.not_false, Bool.true_and]
    exact h.2.1
  · have hLast : 0x2000 + sector * 0x1000 = lastImageSector := by
      simp only [lastImageSector]
      omega
    simp only [Effect.apply, hLast, decide_true, Bool.not_true, Bool.false_and]

theorem updateFirmwarePage_triple (hSector : sector < 25) (n : Nat) :
    Triple (fun b => CopyInv start slot sector b ∧ b.outcomes.length = n)
      (updateFirmwarePage ((otaImagePage slot + sector) * flashPageSize)
        (currentFirmware + sector * flashPageSize))
      (CopyCut start slot) (OnAttempt (fun _ => CopyInv start slot (sector + 1))
        fun b => CopyInv start slot sector b ∧ b.outcomes.length < n) := by
  have hErase : Triple (fun b => CopyInv start slot sector b ∧ b.outcomes.length = n)
      (perform (FlashOp.sectorErase (currentFirmware + sector * flashPageSize))) (CopyCut start slot)
      fun _ b => SectorErased start slot sector b ∧ b.outcomes.length = n :=
    Triple.perform fun b h => by
      have hErased := sectorErased_of_copyInv h.1 hSector
      exact ⟨h.1.cut (Nat.le_of_lt hSector), hErased.cut, hErased, h.2⟩
  apply Triple.bind hErase
  intro _
  have hProgram : Triple (SectorErased start slot sector) (do
      let pageData ← get fun board => NorFlash.slice board.external
        (ExtFlash.address24 ((otaImagePage slot + sector) * flashPageSize)) flashPageSize
      perform (FlashOp.program (currentFirmware + sector * flashPageSize) pageData)
      return some ()) (CopyCut start slot)
      (OnAttempt (fun _ => CopyInv start slot (sector + 1)) fun _ => False) := by
    apply Triple.of_forall
    intro b hb
    have hDone := copyInv_of_program hb hSector
    refine Triple.of_run rfl (fun k => ?_) hDone
    cases k with
    | zero => exact hb.cut
    | succ k =>
        show CopyCut start slot (applyAll (List.take (k + 1) [FlashOp.program _ _]) b)
        rw [List.take_succ_cons, List.take_nil]
        exact hDone.cut hSector
  refine (twoExchanges_triple (sectorErased_ignoresOutcomes start slot sector)
    (fun _ h => h.cut) n hProgram).mono (fun _ h => h) (fun _ h => h) fun r b h => ?_
  cases r with
  | some r => exact h
  | none => exact ⟨⟨h.1.1, fun _ => Or.inr h.1.2.1, fun hEq => absurd hEq (by omega)⟩, h.2⟩

/-- `update_firmware` returns with the whole slot copied. A cut leaves the image as
it was, unfinished, or complete. -/
theorem updateFirmware_triple (start : Board) (slot : OtaSlot) :
    Triple (SameFlash start) (updateFirmware slot) (CopyCut start slot) fun _ =>
      CopyInv start slot 25 := by
  have hLoop := Triple.forRange (fun b (h : CopyInv start slot 0 b) => h.cut (by decide))
    fun sector hSector => Triple.withState fun s hs =>
      (Triple.untilSome (CopyInv start slot sector) (fun b => b.outcomes.length)
        (fun n => updateFirmwarePage_triple hSector n) (s.outcomes.length + 1)).of_mem
        ⟨hs, Nat.lt_succ_self _⟩
  refine hLoop.mono (fun b h => ?_) (fun _ h => h) fun _ _ h => h
  exact ⟨⟨h.external, fun a _ => by rw [h.internal], fun j hj => absurd hj (by omega)⟩,
    fun _ => Or.inl h, fun hEq => absurd hEq (by decide)⟩

end CopyLoop

end Smarthome.Bootloader
