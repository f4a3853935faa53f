import Smarthome.Device.Validation
import Smarthome.Node.SlotVerification

/-! What an accepted slot tells about its content. The CRC is taken over the words up to an
end address that nothing bounds, for metadata that may not have been read. -/
namespace Smarthome.Device

open Semantics Routine Bootloader Node

/-- `get_ota_slot_metadata` returns 0. -/
def metadataIsRead (slot : OtaSlot) (board : Board) : Bool :=
  ((getOtaSlotMetadata slot board).1.getD none).isSome

/-- `verify_ota_slot` returns `VERIFY_SLOT_OK`. -/
structure SlotAccepted (unread : OtaMetadata) (slot : OtaSlot) (board : Board) : Prop where
  loopEnds : LoopEnds (slotAddress slot + otaMetadataSpace) (usedMetadata unread slot board).size
  accepted : (Node.verifyOtaSlot unread slot board).1 = some .correctCrc

/-- The slot holds an image inside its pages, with the CRC of exactly its bytes, and the
metadata that say so have been read. -/
structure SoundSlot (slot : OtaSlot) (board : Board) : Prop where
  metadataRead : metadataIsRead slot board = true
  size_pos : 0 < (metadataAt board.external (slotAddress slot)).size
  fits : ImageFits board.external (slotAddress slot)
  crcShadow_eq : (metadataAt board.external (slotAddress slot)).crcShadow =
    (crcBytes (NorFlash.slice board.external (slotAddress slot + otaMetadataSpace)
      (metadataAt board.external (slotAddress slot)).size)).toNat

section Sound

variable {unread : OtaMetadata} {slot : OtaSlot} {board : Board}

theorem usedMetadata_of_read (h : metadataIsRead slot board = true) :
    usedMetadata unread slot board = metadataAt board.external (slotAddress slot) := by
  rw [metadataIsRead, getOtaSlotMetadata_result, Option.getD_some] at h
  rw [usedMetadata, getOtaSlotMetadata_result, Option.getD_some]
  split_ifs with hRead
  · rfl
  · rw [if_neg hRead] at h
    cases h

theorem usedMetadata_of_unread (h : metadataIsRead slot board = false) :
    usedMetadata unread slot board = unread := by
  rw [metadataIsRead, getOtaSlotMetadata_result, Option.getD_some] at h
  rw [usedMetadata, getOtaSlotMetadata_result, Option.getD_some]
  split_ifs with hRead
  · rw [if_pos hRead] at h
    cases h
  · rfl

/-- The words of an image of whole words are its bytes. -/
theorem imageWords_of_dvd (memory : Nat → Byte) (address : Nat) {size : Nat} (h : 4 ∣ size) :
    imageWords memory address size = NorFlash.slice memory address size := by
  have hSize : (size + 3) / 4 * 4 = size := by omega
  rw [imageWords, hSize]

theorem slotAddress_le (slot : OtaSlot) : slotAddress slot + 25 * 0x1000 ≤ 0x1000000 := by
  have hPage := otaImagePage_le slot
  unfold slotAddress
  omega

/-- The CRC of an image that ends in its slot. -/
theorem slotCrc_of_fits (external : Nat → Byte) (slot : OtaSlot) {size : Nat}
    (h : otaMetadataSpace + size ≤ 25 * 0x1000) : slotCrc external slot size =
      crcBytes (imageWords external (slotAddress slot + otaMetadataSpace) size) := by
  have hSlot := slotAddress_le slot
  simp only [otaMetadataSpace] at h
  rw [slotCrc_eq_imageCrc external slot (by simp only [otaMetadataSpace]; omega),
    imageCrc_eq_crcBytes (by simp only [otaMetadataSpace]; omega)]

/-- The CRC of such an image does not depend on how the slot is addressed. -/
theorem slotCrc_eq_recomputedCrc {memory : Nat → Byte} {slot : OtaSlot}
    (h : ImageFits memory (slotAddress slot)) :
    slotCrc memory slot (metadataAt memory (slotAddress slot)).size =
      recomputedCrc memory (slotAddress slot) := by
  have hSlot := slotAddress_le slot
  rw [recomputedCrc]
  apply slotCrc_eq_imageCrc
  simp only [ImageFits, otaMetadataSpace] at h ⊢
  omega

/-- A slot with the CRC of its words is accepted, and not reported when reads fail. -/
theorem verdicts_of_crcShadow (h : (metadataAt board.external (slotAddress slot)).crcShadow =
    (slotCrc board.external slot (metadataAt board.external (slotAddress slot)).size).toNat) :
    (Works board → (Node.verifyOtaSlot unread slot board).1 = some .correctCrc) ∧
      (metadataIsRead slot board = true →
        (Node.verifyOtaSlot unread slot board).1 ≠ some .nonCorrectCrc) := by
  have hCorrect := slotVerdict_correct.mpr h
  refine ⟨fun hWorks => ?_, fun hRead hWrong => ?_⟩
  · rw [verifyOtaSlot_of_works hWorks, usedMetadata_of_works hWorks, hCorrect]
  · obtain ⟨verdict, hVerdict, hIs, -⟩ := verifyOtaSlot_result unread slot board
    obtain rfl := Option.some.inj (hVerdict.symm.trans hWrong)
    rw [usedMetadata_of_read hRead, hCorrect] at hIs
    exact absurd (hIs (by simp)) (by simp)

/-- For images of whole words inside the slot, the verdict is what it is taken for. -/
theorem SlotAccepted.sound (h : SlotAccepted unread slot board)
    (hRead : metadataIsRead slot board = true)
    (hPos : 0 < (usedMetadata unread slot board).size)
    (hFits : otaMetadataSpace + (usedMetadata unread slot board).size ≤ 25 * 0x1000)
    (hWords : 4 ∣ (usedMetadata unread slot board).size) : SoundSlot slot board := by
  have hShadow := crcShadow_of_correct h.accepted
  rw [slotCrc_of_fits board.external slot hFits, imageWords_of_dvd _ _ hWords] at hShadow
  rw [usedMetadata_of_read hRead] at hPos hFits hShadow
  exact ⟨hRead, hPos, hFits, hShadow⟩

end Sound

section Accepted

/-- A memory with these metadata at the start of a slot. -/
def withMetadata (base : Nat) (metadata : OtaMetadata) (rest : Nat → Byte) (a : Nat) : Byte :=
  if base ≤ a ∧ a < base + 0x100 then metadata.bytes[a - base]?.getD 0 else rest a

/-- Metadata with two bytes each for `crc` and the lower half of `uuid`. -/
def metadataWith (crc : Byte × Byte) (crcShadow : UInt16) (size : UInt32) (uuid : Byte × Byte) :
    OtaMetadata :=
  ⟨#v[crc.1, crc.2, memoryByte crcShadow.toNat 0, memoryByte crcShadow.toNat 1,
    memoryByte size.toNat 0, memoryByte size.toNat 1, memoryByte size.toNat 2,
    memoryByte size.toNat 3, uuid.1, uuid.2, 0, 0, 0, 0, 0, 0]⟩

variable (crc uuid : Byte × Byte) (crcShadow : UInt16) (size : UInt32)

theorem size_metadataWith : (metadataWith crc crcShadow size uuid).size = size.toNat :=
  u32_memoryByte size.toNat_lt

theorem crcShadow_metadataWith :
    (metadataWith crc crcShadow size uuid).crcShadow = crcShadow.toNat :=
  u16_memoryByte crcShadow.toNat_lt

theorem metadataAt_withMetadata (base : Nat) (metadata : OtaMetadata) (rest : Nat → Byte) :
    metadataAt (withMetadata base metadata rest) base = metadata := by
  have hBytes : (Vector.ofFn fun i : Fin 16 => withMetadata base metadata rest (base + i)) =
      metadata.bytes := by
    refine Vector.ext fun i hi => ?_
    have hInside : base ≤ base + i ∧ base + i < base + 0x100 := by omega
    rw [Vector.getElem_ofFn, withMetadata, if_pos hInside, Nat.add_sub_cancel_left]
    simp [hi]
  exact congrArg OtaMetadata.mk hBytes

/-- A flash that answers accepts metadata with the CRC of the words, whatever their size. -/
theorem slotAccepted_of_works {unread : OtaMetadata} {slot : OtaSlot} {board : Board}
    (hWorks : Works board)
    (hLoop : LoopEnds (slotAddress slot + otaMetadataSpace)
      (metadataAt board.external (slotAddress slot)).size)
    (hShadow : (metadataAt board.external (slotAddress slot)).crcShadow =
      (slotCrc board.external slot (metadataAt board.external (slotAddress slot)).size).toNat) :
    SlotAccepted unread slot board :=
  ⟨by rwa [usedMetadata_of_works hWorks], (verdicts_of_crcShadow hShadow).1 hWorks⟩

/-- If only the metadata cannot be read, what stood in their place decides. -/
theorem slotAccepted_of_unread {unread : OtaMetadata} {slot : OtaSlot} {board : Board}
    (hOutcomes : board.outcomes = [false])
    (hLoop : LoopEnds (slotAddress slot + otaMetadataSpace) unread.size)
    (hShadow : unread.crcShadow = (slotCrc board.external slot unread.size).toNat) :
    SlotAccepted unread slot board ∧ metadataIsRead slot board = false := by
  obtain ⟨internal, external, outcomes, copyUnfinished⟩ := board
  obtain rfl : outcomes = [false] := hOutcomes
  have hRun : getOtaSlotMetadata slot ⟨internal, external, [false], copyUnfinished⟩ =
      (some none, [.exchange]) := rfl
  have hRead : metadataIsRead slot ⟨internal, external, [false], copyUnfinished⟩ = false := by
    rw [metadataIsRead, hRun]
    rfl
  have hAfter : Answering external True
      (applyAll [FlashOp.exchange] ⟨internal, external, [false], copyUnfinished⟩) :=
    ⟨rfl, fun _ outcome hMem => absurd hMem List.not_mem_nil⟩
  obtain ⟨-, verdict, hVerdict, hIs, hWorks⟩ :=
    verifyWith_answering external True slot unread _ hAfter
  refine ⟨⟨by rwa [usedMetadata_of_unread hRead], ?_⟩, hRead⟩
  rw [verifyOtaSlot_eq, bind_of_run hRun, ← slotVerdict_correct.mpr hShadow,
    ← hIs (hWorks trivial)]
  exact hVerdict

/-- A loop over words along a known sequence of CRCs. -/
theorem crcWords_eq_of_step {memory : Nat → Byte} {state : Nat → UInt16}
    (hStep : ∀ a, a % 4 = 0 → crcWord memory a (state a) = state (a + 4))
    {fuel address endAddress : Nat} (hAligned : address % 4 = 0)
    (hFuel : endAddress - address ≤ fuel) :
    crcWords memory fuel address endAddress (state address) =
      state (address + (endAddress - address + 3) / 4 * 4) := by
  induction fuel generalizing address with
  | zero =>
      have hDone : address + (endAddress - address + 3) / 4 * 4 = address := by omega
      rw [hDone]
      rfl
  | succ fuel ih =>
      rw [crcWords]
      split_ifs with hMore
      · have hNext : address + 4 + (endAddress - (address + 4) + 3) / 4 * 4 =
            address + (endAddress - address + 3) / 4 * 4 := by omega
        rw [hStep address hAligned, ih (by omega) (by omega), hNext]
      · have hDone : address + (endAddress - address + 3) / 4 * 4 = address := by omega
        rw [hDone]

theorem crcWord_withMetadata {base : Nat} {metadata : OtaMetadata} {i : Nat} (hi : i + 4 ≤ 16)
    (state : UInt16) :
    crcWord (withMetadata base metadata fun _ => 0) (base + i) state =
      crc16 (crc16 (crc16 (crc16 state metadata.bytes[i]) metadata.bytes[i + 1])
        metadata.bytes[i + 2]) metadata.bytes[i + 3] := by
  have hByte {j : Nat} (hj : j < 16) :
      withMetadata base metadata (fun _ => 0) (base + j) = metadata.bytes[j] := by
    have hInside : base ≤ base + j ∧ base + j < base + 0x100 := by omega
    rw [withMetadata, if_pos hInside, Nat.add_sub_cancel_left]
    simp [hj]
  rw [crcWord, Nat.add_assoc, Nat.add_assoc, Nat.add_assoc, hByte (by omega), hByte (by omega),
    hByte (by omega), hByte (by omega)]

/-- Metadata of any size that leave the register as they find it, apart from the word after
their size: the shift register can be brought back to zero. -/
theorem exists_neutral_metadata (base : Nat) : ∃ after : UInt16, ∀ crcShadow : UInt16,
    ∃ metadata : OtaMetadata,
      metadata.size = size.toNat ∧ metadata.crcShadow = crcShadow.toNat ∧
      crcWord (withMetadata base metadata fun _ => 0) base 0 = 0 ∧
      crcWord (withMetadata base metadata fun _ => 0) (base + 4) 0 = after ∧
      crcWord (withMetadata base metadata fun _ => 0) (base + 8) after = 0 ∧
      crcWord (withMetadata base metadata fun _ => 0) (base + 12) 0 = 0 := by
  have hZero : crc16 0 0 = 0 := by decide
  obtain ⟨after, hAfter⟩ : ∃ after, after = crc16 (crc16 (crc16 (crc16 0
      (memoryByte size.toNat 0)) (memoryByte size.toNat 1)) (memoryByte size.toNat 2))
        (memoryByte size.toNat 3) := ⟨_, rfl⟩
  obtain ⟨uuid, hUuid⟩ := crc16_two_surjective after 0
  refine ⟨after, fun crcShadow => ?_⟩
  obtain ⟨high, hHigh⟩ := crc16_surjective (memoryByte crcShadow.toNat 1) 0
  obtain ⟨low, hLow⟩ := crc16_surjective (memoryByte crcShadow.toNat 0) high
  obtain ⟨crc, hCrc⟩ := crc16_two_surjective 0 low
  simp only at hUuid hHigh hLow hCrc
  refine ⟨metadataWith crc crcShadow size uuid, size_metadataWith .., crcShadow_metadataWith ..,
    ?_, ?_, ?_, ?_⟩
  · refine (crcWord_withMetadata (i := 0) (by decide) 0).trans ?_
    simp [metadataWith, hCrc, hLow, hHigh]
  · rw [crcWord_withMetadata (by decide), hAfter]
    rfl
  · rw [crcWord_withMetadata (by decide)]
    simp [metadataWith, hUuid, hZero]
  · rw [crcWord_withMetadata (by decide)]
    simp [metadataWith, hZero]

/-- Reading round and round through a memory of neutral metadata. -/
theorem crcWord_reached_neutral {base : Nat} (hBase : base % 0x1000 = 0)
    (hInside : base + 0x1000 ≤ 0x1000000) {metadata : OtaMetadata} {after : UInt16}
    (h0 : crcWord (withMetadata base metadata fun _ => 0) base 0 = 0)
    (h4 : crcWord (withMetadata base metadata fun _ => 0) (base + 4) 0 = after)
    (h8 : crcWord (withMetadata base metadata fun _ => 0) (base + 8) after = 0)
    (h12 : crcWord (withMetadata base metadata fun _ => 0) (base + 12) 0 = 0)
    {a : Nat} (hAligned : a % 4 = 0) :
    crcWord (reached (withMetadata base metadata fun _ => 0)) a
        (if ExtFlash.address24 a = base + 8 then after else 0) =
      if ExtFlash.address24 (a + 4) = base + 8 then after else 0 := by
  have hNext : ExtFlash.address24 (a + 4) = (ExtFlash.address24 a + 4) % 0x1000000 := by
    unfold ExtFlash.address24
    omega
  have hMultiple : ExtFlash.address24 a % 4 = 0 := by
    unfold ExtFlash.address24
    omega
  have hLt : ExtFlash.address24 a < 0x1000000 := Nat.mod_lt _ (by decide)
  rw [← crcWord_reached _ hAligned, hNext]
  generalize ExtFlash.address24 a = d at hMultiple hLt
  have hOther (hNot : d < base ∨ base + 16 ≤ d) :
      crcWord (withMetadata base metadata fun _ => 0) d 0 = 0 := by
    have hByte {i : Nat} (hi : i < 4) : withMetadata base metadata (fun _ => 0) (d + i) = 0 := by
      rw [withMetadata]
      split_ifs with hHere
      · have hNone : ¬ d + i - base < 16 := by omega
        simp [hNone]
      · rfl
    have hZero : crc16 0 0 = 0 := by decide
    have hFirst := hByte (i := 0) (by decide)
    rw [Nat.add_zero] at hFirst
    rw [crcWord, hFirst, hByte (i := 1) (by decide), hByte (i := 2) (by decide),
      hByte (i := 3) (by decide), hZero, hZero, hZero, hZero]
  have hCases : d = base ∨ d = base + 4 ∨ d = base + 8 ∨ d = base + 12 ∨
      (d < base ∨ base + 16 ≤ d) := by omega
  rcases hCases with rfl | rfl | rfl | rfl | hNot
  · rw [if_neg (by omega), if_neg (by omega), h0]
  · rw [if_neg (by omega), if_pos (by omega), h4]
  · rw [if_pos rfl, if_neg (by omega), h8]
  · rw [if_neg (by omega), if_neg (by omega), h12]
  · rw [if_neg (by omega), if_neg (by omega), hOther hNot]

/-- There are metadata of every size with the CRC of what the loop reads. -/
theorem exists_slot_of_size (slot : OtaSlot) (size : UInt32) : ∃ metadata : OtaMetadata,
    metadata.size = size.toNat ∧ metadata.crcShadow =
      (slotCrc (withMetadata (slotAddress slot) metadata fun _ => 0) slot size.toNat).toNat := by
  have hInside := slotAddress_le slot
  have hBase : slotAddress slot % 0x1000 = 0 := by
    unfold slotAddress
    omega
  obtain ⟨after, hAfter⟩ := exists_neutral_metadata size (slotAddress slot)
  let state (a : Nat) : UInt16 :=
    if ExtFlash.address24 a = slotAddress slot + 8 then after else 0
  let start := slotAddress slot + otaMetadataSpace
  let endAddress := (start + size.toNat) % 0x100000000
  obtain ⟨metadata, hSize, hShadow, h0, h4, h8, h12⟩ := hAfter
    (crc16 (crc16 (state (start + (endAddress - start + 3) / 4 * 4)) 0) 0)
  have hStart : state start = 0 := by
    refine if_neg ?_
    simp only [start, otaMetadataSpace, ExtFlash.address24]
    omega
  have hAligned : start % 4 = 0 := by
    simp only [start, otaMetadataSpace]
    omega
  have hStep (a : Nat) (ha : a % 4 = 0) :
      crcWord (reached (withMetadata (slotAddress slot) metadata fun _ => 0)) a (state a) =
        state (a + 4) := crcWord_reached_neutral hBase (by omega) h0 h4 h8 h12 ha
  have hWords := crcWords_eq_of_step hStep hAligned (Nat.sub_le endAddress start)
  rw [hStart] at hWords
  refine ⟨metadata, hSize, ?_⟩
  rw [hShadow, slotCrc, imageCrc, hWords]

end Accepted

section Exact

variable (slot : OtaSlot) (size : UInt32)

/-- What is accepted without being read is not sound. -/
theorem exists_unsound_of_unread
    (hLoop : LoopEnds (slotAddress slot + otaMetadataSpace) size.toNat) :
    ∃ unread board, metadataIsRead slot board = false ∧
      (usedMetadata unread slot board).size = size.toNat ∧
        SlotAccepted unread slot board ∧ ¬ SoundSlot slot board := by
  let unread := metadataWith (0, 0) (slotCrc (fun _ => 0) slot size.toNat) size (0, 0)
  let board : Board := ⟨fun _ => 0, fun _ => 0, [false], false⟩
  have hSize : unread.size = size.toNat := size_metadataWith ..
  have hShadow : unread.crcShadow = (slotCrc (fun _ => 0) slot unread.size).toNat := by
    rw [hSize]
    exact crcShadow_metadataWith ..
  have hBoth : SlotAccepted unread slot board ∧ metadataIsRead slot board = false :=
    slotAccepted_of_unread rfl (by rwa [hSize]) hShadow
  obtain ⟨hAccepted, hUnread⟩ := hBoth
  refine ⟨unread, board, hUnread, ?_, hAccepted, fun hSound => ?_⟩
  · rw [usedMetadata_of_unread hUnread, hSize]
  · rw [hSound.metadataRead] at hUnread
    cases hUnread

/-- Read metadata with this size, and what else the flash holds. -/
theorem slotAccepted_withMetadata {metadata : OtaMetadata} {rest : Nat → Byte}
    (hSize : metadata.size = size.toNat)
    (hLoop : LoopEnds (slotAddress slot + otaMetadataSpace) size.toNat)
    (hShadow : metadata.crcShadow =
      (slotCrc (withMetadata (slotAddress slot) metadata rest) slot size.toNat).toNat) :
    ∃ board : Board, board.external = withMetadata (slotAddress slot) metadata rest ∧
      metadataIsRead slot board = true ∧
      (usedMetadata metadata slot board).size = size.toNat ∧ SlotAccepted metadata slot board := by
  let board : Board := ⟨fun _ => 0, withMetadata (slotAddress slot) metadata rest, [], false⟩
  have hWorks : Works board := fun outcome hMem => absurd hMem List.not_mem_nil
  have hRead : metadataIsRead slot board = true := by
    rw [metadataIsRead, getOtaSlotMetadata_result]
    rfl
  have hAt : metadataAt board.external (slotAddress slot) = metadata :=
    metadataAt_withMetadata ..
  refine ⟨board, rfl, hRead, ?_, slotAccepted_of_works hWorks ?_ ?_⟩
  · rw [usedMetadata_of_read hRead, hAt, hSize]
  · rwa [hAt, hSize]
  · rwa [hAt, hSize]

/-- Nothing keeps an image of no bytes or a larger one than the slot from being accepted. -/
theorem exists_unsound_of_size
    (hLoop : LoopEnds (slotAddress slot + otaMetadataSpace) size.toNat)
    (hSize : ¬ (0 < size.toNat ∧ otaMetadataSpace + size.toNat ≤ 25 * 0x1000)) :
    ∃ unread board, metadataIsRead slot board = true ∧
      (usedMetadata unread slot board).size = size.toNat ∧
        SlotAccepted unread slot board ∧ ¬ SoundSlot slot board := by
  obtain ⟨metadata, hMetadata, hShadow⟩ := exists_slot_of_size slot size
  obtain ⟨board, hExternal, hRead, hUsed, hAccepted⟩ :=
    slotAccepted_withMetadata slot size hMetadata hLoop hShadow
  refine ⟨metadata, board, hRead, hUsed, hAccepted, fun hSound => hSize ?_⟩
  rw [usedMetadata_of_read hRead] at hUsed
  exact ⟨hUsed ▸ hSound.size_pos, hUsed ▸ hSound.fits⟩

/-- A memory of zeros with one other byte, the one behind an image. -/
def oneBehind (start size a : Nat) : Byte := if a = start + size then 1 else 0

theorem slice_oneBehind (start size : Nat) :
    NorFlash.slice (oneBehind start size) start size = List.replicate size 0 := by
  refine List.eq_replicate_iff.mpr ⟨NorFlash.slice_length .., fun b hb => ?_⟩
  obtain ⟨i, hi, rfl⟩ := List.mem_map.mp hb
  have hLt := List.mem_range.mp hi
  exact if_neg (by omega)

/-- The byte behind the image is in the last word, and changes the CRC. -/
theorem crcBytes_oneBehind_ne {start size : Nat} (hWords : ¬ 4 ∣ size) :
    crcBytes (imageWords (oneBehind start size) start size) ≠ 0 := by
  have hMore : size < (size + 3) / 4 * 4 := by omega
  have hImage : imageWords (oneBehind start size) start size =
      (List.replicate ((size + 3) / 4 * 4) 0).set size 1 := by
    refine List.ext_getElem (by simp [imageWords]) fun i hi hi' => ?_
    rw [List.getElem_set, List.getElem_replicate]
    simp only [imageWords, NorFlash.slice, List.getElem_map, List.getElem_range, oneBehind]
    exact if_congr (by omega) rfl rfl
  have hNe : crcBytes ((List.replicate ((size + 3) / 4 * 4) 0).set size 1) ≠
      crcBytes (List.replicate ((size + 3) / 4 * 4) 0) :=
    crcBytes_set_ne (by rwa [List.length_replicate]) (by simp)
  rwa [hImage, ← crcBytes_zero ((size + 3) / 4 * 4)]

/-- An image that ends inside a word is checked together with the byte behind it. -/
theorem exists_unsound_of_not_dvd
    (hFits : otaMetadataSpace + size.toNat ≤ 25 * 0x1000) (hWords : ¬ 4 ∣ size.toNat) :
    ∃ unread board, metadataIsRead slot board = true ∧
      (usedMetadata unread slot board).size = size.toNat ∧
        SlotAccepted unread slot board ∧ ¬ SoundSlot slot board := by
  let start := slotAddress slot + otaMetadataSpace
  let rest := oneBehind start size.toNat
  have hInside := slotAddress_le slot
  have hLoop : LoopEnds start size.toNat := by
    simp only [LoopEnds, start, otaMetadataSpace] at hFits ⊢
    omega
  let crc := crcBytes (imageWords rest start size.toNat)
  let metadata := metadataWith (0, 0) crc size (0, 0)
  have hSize : metadata.size = size.toNat := size_metadataWith ..
  have hRest {a : Nat} (ha : start ≤ a) :
      withMetadata (slotAddress slot) metadata rest a = rest a := by
    refine if_neg fun hHere => ?_
    simp only [start, otaMetadataSpace] at ha
    omega
  have hShadow : metadata.crcShadow =
      (slotCrc (withMetadata (slotAddress slot) metadata rest) slot size.toNat).toNat := by
    rw [slotCrc_of_fits _ slot hFits]
    refine (crcShadow_metadataWith ..).trans (congrArg UInt16.toNat (congrArg crcBytes ?_))
    exact NorFlash.slice_congr fun a ha _ => (hRest ha).symm
  obtain ⟨board, hExternal, hRead, hUsed, hAccepted⟩ :=
    slotAccepted_withMetadata slot size hSize hLoop hShadow
  refine ⟨metadata, board, hRead, hUsed, hAccepted, fun hSound => ?_⟩
  have hBytes : NorFlash.slice board.external start size.toNat = List.replicate size.toNat 0 := by
    rw [hExternal, ← slice_oneBehind start]
    exact NorFlash.slice_congr fun a ha _ => hRest ha
  have hAt : metadataAt board.external (slotAddress slot) = metadata := by
    rw [hExternal]
    exact metadataAt_withMetadata ..
  have hCrc := hSound.crcShadow_eq
  rw [hAt, hSize, hBytes, crcBytes_zero, crcShadow_metadataWith] at hCrc
  exact crcBytes_oneBehind_ne hWords (UInt16.toNat_inj.mp hCrc)

end Exact

/-- **When an accepted slot is sound.** Whatever the flash holds and answers, for the metadata
having been read or not and for every size, with which the loop comes to an end: an accepted
slot is sound if and only if the metadata have been read and their image has bytes, ends inside
the slot, and has no part of a word. -/
theorem slot_sound_iff (slot : OtaSlot) (isRead : Bool) (size : UInt32) :
    (∀ unread board, metadataIsRead slot board = isRead →
      (usedMetadata unread slot board).size = size.toNat →
        SlotAccepted unread slot board → SoundSlot slot board) ↔
      ¬ LoopEnds (slotAddress slot + otaMetadataSpace) size.toNat ∨
        (isRead = true ∧ 0 < size.toNat ∧ otaMetadataSpace + size.toNat ≤ 25 * 0x1000 ∧
          4 ∣ size.toNat) := by
  constructor
  · intro hSound
    by_contra hNot
    obtain ⟨hLoop, hNot⟩ := not_or.mp hNot
    rw [not_not] at hLoop
    have hUnsound : ∃ unread board, metadataIsRead slot board = isRead ∧
        (usedMetadata unread slot board).size = size.toNat ∧
          SlotAccepted unread slot board ∧ ¬ SoundSlot slot board := by
      cases isRead with
      | false => exact exists_unsound_of_unread slot size hLoop
      | true =>
          by_cases hFits : 0 < size.toNat ∧ otaMetadataSpace + size.toNat ≤ 25 * 0x1000
          · exact exists_unsound_of_not_dvd slot size hFits.2
              fun hWords => hNot ⟨rfl, hFits.1, hFits.2, hWords⟩
          · exact exists_unsound_of_size slot size hLoop hFits
    obtain ⟨unread, board, hRead, hSize, hAccepted, hNotSound⟩ := hUnsound
    exact hNotSound (hSound unread board hRead hSize hAccepted)
  · rintro hCondition unread board hRead hSize hAccepted
    have hLoop := hAccepted.loopEnds
    rw [hSize] at hLoop
    rcases hCondition with hNot | ⟨rfl, hPos, hFits, hWords⟩
    · exact absurd hLoop hNot
    · rw [← hSize] at hPos hFits hWords
      exact hAccepted.sound hRead hPos hFits hWords

/-- A slot of zeros is accepted, with an image of no bytes. -/
theorem slot_sound_fails : ¬ ∀ (unread : OtaMetadata) (slot : OtaSlot) (board : Board),
    SlotAccepted unread slot board → SoundSlot slot board := by
  intro h
  have hNode := nodeAccepts_empty ⟨Vector.replicate 16 0⟩ 0
  have hUsed : usedMetadata ⟨Vector.replicate 16 0⟩ downloadSlot (emptySlotBoard 0) =
      slotMetadata (emptySlotBoard 0).external :=
    usedMetadata_of_works fun outcome hMem => absurd hMem List.not_mem_nil
  have hAccepted : SlotAccepted ⟨Vector.replicate 16 0⟩ downloadSlot (emptySlotBoard 0) :=
    ⟨hUsed ▸ hNode.loopEnds, hNode.accepted⟩
  have hPos := (h _ _ _ hAccepted).size_pos
  have hSize : (metadataAt (emptySlotBoard 0).external (slotAddress downloadSlot)).size = 0 :=
    size_empty 0
  rw [hSize] at hPos
  exact Nat.lt_irrefl 0 hPos

end Smarthome.Device
