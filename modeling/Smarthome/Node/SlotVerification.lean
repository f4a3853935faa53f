import Smarthome.Flash.CrcBits
import Smarthome.Node.FirmwareActions

/-! What `verify_ota_slot` of the firmware says about a slot, whatever the external flash
answers: its verdict is about the metadata it has got, read or not. -/
namespace Smarthome.Node

open Semantics Routine Bootloader

/-- The external flash answers every exchange that is to come. -/
def Works (board : Board) : Prop := ∀ outcome ∈ board.outcomes, outcome = true

/-- The memory as three address bytes reach it. -/
def reached (external : Nat → Byte) (a : Nat) : Byte := external (ExtFlash.address24 a)

/-- The CRC of the image in a slot, over the words that the loop reads. -/
def slotCrc (external : Nat → Byte) (slot : OtaSlot) (size : Nat) : UInt16 :=
  imageCrc (reached external) (slotAddress slot + otaMetadataSpace) size

/-- The rest of `verify_ota_slot`, after the metadata. -/
def verifyWith (slot : OtaSlot) (metadata : OtaMetadata) : Boot Verdict := do
  let start := slotAddress slot + otaMetadataSpace
  let endAddress := (start + metadata.size) % 0x100000000
  if ← exchange then
    match ← readSlotWords endAddress start endAddress 0 with
    | some crc =>
        return if metadata.crcShadow ≠ (crc16 (crc16 crc 0) 0).toNat then .nonCorrectCrc
          else .correctCrc
    | none => return .nonReadFlash
  else return .nonReadFlash

/-- What the comparison at the end says about a slot. -/
def slotVerdict (external : Nat → Byte) (slot : OtaSlot) (metadata : OtaMetadata) : Verdict :=
  if metadata.crcShadow ≠ (slotCrc external slot metadata.size).toNat then .nonCorrectCrc
  else .correctCrc

/-- The metadata that `verify_ota_slot` works with. -/
def usedMetadata (unread : OtaMetadata) (slot : OtaSlot) (board : Board) : OtaMetadata :=
  ((getOtaSlotMetadata slot board).1.getD none).getD unread

theorem slotVerdict_correct {external : Nat → Byte} {slot : OtaSlot} {metadata : OtaMetadata} :
    slotVerdict external slot metadata = .correctCrc ↔
      metadata.crcShadow = (slotCrc external slot metadata.size).toNat := by
  rw [slotVerdict]
  split_ifs with h <;> simp_all

/-- An image that ends in the memory is read as it lies there. -/
theorem slotCrc_eq_imageCrc (external : Nat → Byte) (slot : OtaSlot) {size : Nat}
    (hEnd : (slotAddress slot + otaMetadataSpace + size) % 0x100000000 ≤ 0x1000000) :
    slotCrc external slot size = imageCrc external (slotAddress slot + otaMetadataSpace) size := by
  let start := slotAddress slot + otaMetadataSpace
  have hAligned : start % 4 = 0 := by
    simp only [start, slotAddress, otaMetadataSpace]
    omega
  have hWords : crcWords (reached external) ((start + size) % 0x100000000) start
      ((start + size) % 0x100000000) 0 = crcWords external ((start + size) % 0x100000000) start
        ((start + size) % 0x100000000) 0 :=
    crcWords_congr 0 rfl (Nat.sub_le ..) (Nat.sub_le ..) fun i hi =>
      congrArg external (Nat.mod_eq_of_lt (by omega))
  rw [slotCrc, imageCrc, imageCrc, hWords]

section Reading

variable (external : Nat → Byte) (answers : Prop)

/-- The content of the external flash, and that it answers if it is said to. -/
def Answering (board : Board) : Prop := board.external = external ∧ (answers → Works board)

theorem exchange_answering :
    Triple (Answering external answers) exchange (Answering external answers) fun isDone board =>
      Answering external answers board ∧ (answers → isDone = true) := by
  apply Triple.of_forall
  intro s hs
  have hTail : Answering external answers { s with outcomes := s.outcomes.tail } :=
    ⟨hs.1, fun h outcome hMem => hs.2 h outcome (List.mem_of_mem_tail hMem)⟩
  have hRun : exchange s = (some (s.outcomes.headD true), [.exchange]) := rfl
  refine Triple.of_run hRun (fun k => ?_) ⟨hTail, fun h => ?_⟩
  · cases k with
    | zero => exact hs
    | succ k =>
        rw [List.take_succ_cons, List.take_nil]
        exact hTail
  · cases hOutcomes : s.outcomes with
    | nil => rfl
    | cons outcome rest => exact hs.2 h outcome (by rw [hOutcomes]; exact List.mem_cons_self)

/-- A word of a slot, which never lies across the end of the memory. -/
theorem crcWord_reached {address : Nat} (h : address % 4 = 0) (crc : UInt16) :
    crcWord external (ExtFlash.address24 address) crc = crcWord (reached external) address crc := by
  have hByte {i : Nat} (hi : i < 4) :
      external (ExtFlash.address24 address + i) = reached external (address + i) := by
    refine congrArg external ?_
    unfold ExtFlash.address24
    omega
  rw [crcWord, crcWord, hByte (by decide : 1 < 4), hByte (by decide : 2 < 4),
    hByte (by decide : 3 < 4)]
  rfl

/-- The loop gives the CRC of the words it has read, unless a read fails. -/
theorem readSlotWords_answering (fuel : Nat) {address : Nat} (endAddress : Nat) (crc : UInt16)
    (hAligned : address % 4 = 0) :
    Triple (Answering external answers) (readSlotWords fuel address endAddress crc)
      (Answering external answers) fun r board => Answering external answers board ∧
        (∀ value, r = some value →
          value = crcWords (reached external) fuel address endAddress crc) ∧
        (answers → r ≠ none) := by
  induction fuel generalizing address crc with
  | zero =>
      refine Triple.pure fun b h => ⟨h, h, fun value hValue => ?_, fun _ => by simp⟩
      exact (Option.some.inj hValue).symm
  | succ fuel ih =>
      rw [readSlotWords, crcWords]
      split_ifs with hMore
      · apply Triple.bind (exchange_answering external answers)
        intro isRead
        cases isRead with
        | false => exact Triple.pure fun b h => ⟨h.1, h.1, by simp, fun hA => absurd (h.2 hA) (by simp)⟩
        | true =>
            have hGet : Triple (fun b => Answering external answers b ∧ (answers → true = true))
                (get fun board =>
                  crcWord board.external (ExtFlash.address24 address) crc : Boot UInt16)
                (Answering external answers) fun next b => Answering external answers b ∧
                  next = crcWord (reached external) address crc :=
              Triple.get fun b h => ⟨h.1, h.1, by rw [h.1.1, crcWord_reached external hAligned]⟩
            apply Triple.bind hGet
            intro next
            apply Triple.of_forall
            rintro s ⟨hs, rfl⟩
            exact (ih _ (by omega)).of_mem hs
      · refine Triple.pure fun b h => ⟨h, h, fun value hValue => ?_, fun _ => by simp⟩
        exact (Option.some.inj hValue).symm

theorem verifyWith_answering (slot : OtaSlot) (metadata : OtaMetadata) :
    Triple (Answering external answers) (verifyWith slot metadata) (Answering external answers)
      fun r _ => (r ≠ .nonReadFlash → r = slotVerdict external slot metadata) ∧
        (answers → r ≠ .nonReadFlash) := by
  have hAligned : (slotAddress slot + otaMetadataSpace) % 4 = 0 := by
    unfold slotAddress
    simp only [otaMetadataSpace]
    omega
  apply Triple.bind (exchange_answering external answers)
  intro opened
  cases opened with
  | false => exact Triple.pure fun b h => ⟨h.1, by simp, fun hA => absurd (h.2 hA) (by simp)⟩
  | true =>
      refine Triple.bind ((readSlotWords_answering external answers _ _ 0 hAligned).mono
        (fun b h => h.1) (fun _ h => h) fun _ _ h => h) fun crc => ?_
      cases crc with
      | none => exact Triple.pure fun b h => ⟨h.1, by simp, fun hA => absurd rfl (h.2.2 hA)⟩
      | some crc =>
          refine Triple.pure fun b h => ⟨h.1, fun _ => ?_, fun _ => ?_⟩
          · rw [h.2.1 crc rfl]
            rfl
          · split_ifs <;> simp

end Reading

/-- The metadata come first, read or not. -/
theorem verifyOtaSlot_eq (unread : OtaMetadata) (slot : OtaSlot) :
    verifyOtaSlot unread slot =
      getOtaSlotMetadata slot >>= fun metadata => verifyWith slot (metadata.getD unread) := rfl

/-- Every run ends. Unless a word could not be read, the verdict is the comparison for the
metadata that were used. -/
theorem verifyOtaSlot_result (unread : OtaMetadata) (slot : OtaSlot) (board : Board) :
    ∃ verdict, (verifyOtaSlot unread slot board).1 = some verdict ∧
      (verdict ≠ .nonReadFlash →
        verdict = slotVerdict board.external slot (usedMetadata unread slot board)) ∧
      (Works board → verdict ≠ .nonReadFlash) := by
  have hGet : Triple (Answering board.external (Works board)) (getOtaSlotMetadata slot)
      (Answering board.external (Works board))
      fun _ => Answering board.external (Works board) := by
    have hExchange := (exchange_answering board.external (Works board)).mono (fun _ h => h)
      (fun _ h => h) fun _ _ h => h.1
    apply Triple.bind hExchange
    intro opened
    cases opened with
    | false => exact Triple.pure fun b h => ⟨h, h⟩
    | true =>
        apply Triple.bind hExchange
        intro isRead
        cases isRead with
        | false => exact Triple.pure fun b h => ⟨h, h⟩
        | true =>
            exact Triple.bind (Triple.get fun b h => ⟨h, h⟩) fun _ => Triple.pure fun b h => ⟨h, h⟩
  obtain ⟨-, metadata, hMetadata, hAfter⟩ := hGet board ⟨rfl, fun h => h⟩
  obtain ⟨-, verdict, hVerdict, hIs, hWorks⟩ := verifyWith_answering board.external (Works board)
    slot (metadata.getD unread) _ hAfter
  have hUsed : usedMetadata unread slot board = metadata.getD unread := by
    rw [usedMetadata, hMetadata]
    rfl
  have hRun : getOtaSlotMetadata slot board = (some metadata, (getOtaSlotMetadata slot board).2) :=
    Prod.ext hMetadata rfl
  refine ⟨verdict, ?_, ?_, hWorks⟩
  · rw [verifyOtaSlot_eq, bind_of_run hRun]
    exact hVerdict
  · rw [hUsed]
    exact hIs

section Verdicts

variable {unread : OtaMetadata} {slot : OtaSlot} {board : Board}

/-- A slot is accepted only for metadata with the CRC of its words. -/
theorem crcShadow_of_correct (h : (verifyOtaSlot unread slot board).1 = some .correctCrc) :
    (usedMetadata unread slot board).crcShadow =
      (slotCrc board.external slot (usedMetadata unread slot board).size).toNat := by
  obtain ⟨verdict, hVerdict, hIs, -⟩ := verifyOtaSlot_result unread slot board
  obtain rfl := Option.some.inj (hVerdict.symm.trans h)
  exact slotVerdict_correct.mp (hIs (by simp)).symm

/-- With a flash that answers, the verdict is the comparison. -/
theorem verifyOtaSlot_of_works (h : Works board) :
    (verifyOtaSlot unread slot board).1 =
      some (slotVerdict board.external slot (usedMetadata unread slot board)) := by
  obtain ⟨verdict, hVerdict, hIs, hWorks⟩ := verifyOtaSlot_result unread slot board
  rw [hVerdict, hIs (hWorks h)]

/-- The two reads of the metadata decide what is used. -/
theorem getOtaSlotMetadata_result (slot : OtaSlot) (board : Board) :
    (getOtaSlotMetadata slot board).1 =
      some (if board.outcomes.headD true && board.outcomes.tail.headD true then
        some (metadataAt board.external (slotAddress slot)) else none) := by
  obtain ⟨internal, external, outcomes, copyUnfinished⟩ := board
  rcases outcomes with _ | ⟨_ | _, _ | ⟨_ | _, rest⟩⟩ <;> rfl

theorem usedMetadata_of_works (h : Works board) :
    usedMetadata unread slot board = metadataAt board.external (slotAddress slot) := by
  have hRead : (board.outcomes.headD true && board.outcomes.tail.headD true) = true := by
    unfold Works at h
    rcases hOutcomes : board.outcomes with _ | ⟨first, _ | ⟨second, rest⟩⟩
    · rfl
    · rw [hOutcomes] at h
      simpa using h
    · rw [hOutcomes] at h
      simp [h first (by simp), h second (by simp)]
  rw [usedMetadata, getOtaSlotMetadata_result, hRead]
  rfl

end Verdicts

end Smarthome.Node
