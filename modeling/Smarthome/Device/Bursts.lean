import Smarthome.Device.SlotSoundness

/-! What a burst of flipped bits does to a slot. The register of the CRC has sixteen places, and
a burst of seventeen bits can be its polynomial. -/
namespace Smarthome.Device

open Semantics Routine Bootloader Node

/-- The bytes of the image in a slot. -/
def imageBytes (external : Nat → Byte) (slot : OtaSlot) : List Byte :=
  NorFlash.slice external (slotAddress slot + otaMetadataSpace)
    (metadataAt external (slotAddress slot)).size

/-- Flipped bits from this first one on, and none of them more than 16 places behind it. -/
structure Burst (bytes other : List Byte) (first : Nat) : Prop where
  flipped : FlippedAt bytes other first
  within : ∀ p, FlippedAt bytes other p → first ≤ p ∧ p ≤ first + 16

/-- A slot with an image of whole words that ends inside it is judged by the CRC of its bytes. -/
theorem verifyOtaSlot_of_words {slot : OtaSlot} {board : Board} (unread : OtaMetadata)
    (hWorks : Works board) (hFits : ImageFits board.external (slotAddress slot))
    (hWords : 4 ∣ (metadataAt board.external (slotAddress slot)).size) :
    (Node.verifyOtaSlot unread slot board).1 = some .correctCrc ∧
        (metadataAt board.external (slotAddress slot)).crcShadow =
          (crcBytes (imageBytes board.external slot)).toNat ∨
      (Node.verifyOtaSlot unread slot board).1 = some .nonCorrectCrc ∧
        (metadataAt board.external (slotAddress slot)).crcShadow ≠
          (crcBytes (imageBytes board.external slot)).toNat := by
  have hCrc : slotCrc board.external slot (metadataAt board.external (slotAddress slot)).size =
      crcBytes (imageBytes board.external slot) := by
    rw [slotCrc_of_fits _ slot hFits, imageWords_of_dvd _ _ hWords]
    rfl
  rw [verifyOtaSlot_of_works hWorks, usedMetadata_of_works hWorks, slotVerdict, hCrc]
  split_ifs with hNe
  · exact Or.inr ⟨rfl, hNe⟩
  · exact Or.inl ⟨rfl, not_not.mp hNe⟩

/-- **Which bursts are found.** After a burst in an image that was accepted, the slot is
reported, unless the flipped bits are those of the polynomial, four of them at the distances
0, 4, 11 and 16: then it is accepted as before. -/
theorem burst_detected (unread : OtaMetadata) (slot : OtaSlot) (board other : Board) (first : Nat)
    (hWorks : Works board) (hOther : Works other)
    (hAccepted : (Node.verifyOtaSlot unread slot board).1 = some .correctCrc)
    (hMetadata : metadataAt other.external (slotAddress slot) =
      metadataAt board.external (slotAddress slot))
    (hFits : ImageFits board.external (slotAddress slot))
    (hWords : 4 ∣ (metadataAt board.external (slotAddress slot)).size)
    (hBurst : Burst (imageBytes board.external slot) (imageBytes other.external slot) first) :
    (¬ IsPolynomial (imageBytes board.external slot) (imageBytes other.external slot) first →
      (Node.verifyOtaSlot unread slot other).1 = some .nonCorrectCrc) ∧
    (IsPolynomial (imageBytes board.external slot) (imageBytes other.external slot) first →
      (Node.verifyOtaSlot unread slot other).1 = some .correctCrc) := by
  have hFitsOther : ImageFits other.external (slotAddress slot) := by rwa [ImageFits, hMetadata]
  have hWordsOther : 4 ∣ (metadataAt other.external (slotAddress slot)).size := by
    rwa [hMetadata]
  have hShadow : (metadataAt board.external (slotAddress slot)).crcShadow =
      (crcBytes (imageBytes board.external slot)).toNat := by
    rcases verifyOtaSlot_of_words unread hWorks hFits hWords with ⟨-, hEqual⟩ | ⟨hWrong, -⟩
    · exact hEqual
    · rw [hAccepted] at hWrong
      cases hWrong
  have hLength : (imageBytes board.external slot).length =
      (imageBytes other.external slot).length := by
    rw [imageBytes, imageBytes, NorFlash.slice_length, NorFlash.slice_length, hMetadata]
  have hFound := crcBytes_eq_iff_of_burst hLength hBurst.flipped hBurst.within
  rcases verifyOtaSlot_of_words unread hOther hFitsOther hWordsOther with ⟨hResult, hEqual⟩ |
    ⟨hResult, hNe⟩
  · rw [hMetadata, hShadow, UInt16.toNat_inj] at hEqual
    exact ⟨fun hNot => absurd (hFound.mp hEqual) hNot, fun _ => hResult⟩
  · rw [hMetadata, hShadow, ne_eq, UInt16.toNat_inj] at hNe
    exact ⟨fun _ => hResult, fun hPoly => absurd (hFound.mpr hPoly) hNe⟩

section Word

/-- The download slot with an image of these four bytes, and zero as its CRC. -/
@[irreducible] def wordFlash (bytes : List Byte) : Nat → Byte :=
  withMetadata (slotAddress downloadSlot) (metadataWith (0, 0) 0 4 (0, 0))
    fun a => bytes.getD (a - 0x32100) 0xFF

def wordBoard (bytes : List Byte) : Board := ⟨fun _ => 0xFF, wordFlash bytes, [], false⟩

theorem wordBoard_external (bytes : List Byte) : (wordBoard bytes).external = wordFlash bytes := rfl

theorem works_word (bytes : List Byte) : Works (wordBoard bytes) :=
  fun _ hMem => absurd hMem List.not_mem_nil

theorem metadata_word (bytes : List Byte) :
    metadataAt (wordBoard bytes).external (slotAddress downloadSlot) =
      metadataWith (0, 0) 0 4 (0, 0) := by
  rw [wordBoard_external]
  unfold wordFlash
  exact metadataAt_withMetadata ..

theorem size_word (bytes : List Byte) :
    (metadataAt (wordBoard bytes).external (slotAddress downloadSlot)).size = 4 := by
  rw [metadata_word]
  exact size_metadataWith ..

theorem fits_word (bytes : List Byte) :
    ImageFits (wordBoard bytes).external (slotAddress downloadSlot) := by
  rw [ImageFits, size_word]
  decide

theorem imageBytes_word (bytes : List Byte) (hLength : bytes.length = 4) :
    imageBytes (wordBoard bytes).external downloadSlot = bytes := by
  have hContent : NorFlash.slice (wordFlash bytes) 0x32100 bytes.length =
      NorFlash.slice (fun a => bytes.getD (a - 0x32100) 0xFF) 0x32100 bytes.length := by
    refine NorFlash.slice_congr fun a ha _ => ?_
    unfold wordFlash
    refine if_neg ?_
    rw [slotAddress_download]
    omega
  rw [NorFlash.slice_getD] at hContent
  rw [imageBytes, size_word, ← hLength]
  exact hContent

/-- An image whose CRC is zero is accepted. -/
theorem accepted_word (unread : OtaMetadata) (bytes : List Byte) (hLength : bytes.length = 4)
    (hCrc : crcBytes bytes = 0) :
    (Node.verifyOtaSlot unread downloadSlot (wordBoard bytes)).1 = some .correctCrc := by
  have hWords : 4 ∣ (metadataAt (wordBoard bytes).external (slotAddress downloadSlot)).size := by
    rw [size_word]
  rcases verifyOtaSlot_of_words unread (works_word bytes) (fits_word bytes) hWords with
    ⟨hResult, -⟩ | ⟨-, hNe⟩
  · exact hResult
  · refine absurd ?_ hNe
    rw [metadata_word, imageBytes_word bytes hLength, hCrc]
    exact crcShadow_metadataWith ..

theorem burst_word {bytes other : List Byte} (hLength : bytes.length = 4)
    (hOther : other.length = 4) (hFirst : FlippedAt bytes other 0)
    (hLast : ∀ p < 32, FlippedAt bytes other p → p ≤ 16) : Burst bytes other 0 := by
  refine ⟨hFirst, fun p hFlipped => ?_⟩
  have hLt := hFlipped.lt (hLength.trans hOther.symm)
  have hAt := hLast p (by omega) hFlipped
  omega

/-- The last bit of the polynomial brings the register back to zero. -/
theorem crcBytes_polynomial : crcBytes [0x88, 0x10, 0x80, 0] = 0 := by
  have hFirst : crc16 0 0x88 = 0x88 := by decide
  have hSecond : crc16 0x88 0x10 = 0x8810 := by decide
  have hThird : crc16 0x8810 0x80 = 0 := by decide
  have hZero : crc16 0 0 = 0 := by decide
  simp only [crcBytes, List.foldl_cons, List.foldl_nil, hFirst, hSecond, hThird, hZero]

/-- One flipped bit in an image of zeros. -/
theorem burst_detected_bit :
    (Node.verifyOtaSlot ⟨Vector.replicate 16 0⟩ downloadSlot (wordBoard [0x80, 0, 0, 0])).1 =
      some .nonCorrectCrc := by
  have hZeros := imageBytes_word [0, 0, 0, 0] rfl
  have hBit := imageBytes_word [0x80, 0, 0, 0] rfl
  have hAccepted := accepted_word ⟨Vector.replicate 16 0⟩ [0, 0, 0, 0] rfl (crcBytes_zero 4)
  have hMetadata : metadataAt (wordBoard [0x80, 0, 0, 0]).external (slotAddress downloadSlot) =
      metadataAt (wordBoard [0, 0, 0, 0]).external (slotAddress downloadSlot) := by
    rw [metadata_word, metadata_word]
  have hNot : ¬ IsPolynomial [0, 0, 0, 0] [0x80, 0, 0, 0] 0 := fun h =>
    absurd ((h 4).mpr (by decide)) (by decide)
  have hDetected := burst_detected ⟨Vector.replicate 16 0⟩ downloadSlot (wordBoard [0, 0, 0, 0])
    (wordBoard [0x80, 0, 0, 0]) 0 (works_word _) (works_word _) hAccepted hMetadata (fits_word _)
    (by rw [size_word]) (by rw [hZeros, hBit]; exact burst_word rfl rfl (by decide) (by decide))
  rw [hZeros, hBit] at hDetected
  exact hDetected.1 hNot

/-- The bits of the polynomial in an image of zeros are not found. -/
theorem burst_detected_fails : ¬ ∀ (unread : OtaMetadata) (slot : OtaSlot) (board other : Board)
    (first : Nat), Works board → Works other →
      (Node.verifyOtaSlot unread slot board).1 = some .correctCrc →
      metadataAt other.external (slotAddress slot) = metadataAt board.external (slotAddress slot) →
      0 < (metadataAt board.external (slotAddress slot)).size →
      ImageFits board.external (slotAddress slot) →
      4 ∣ (metadataAt board.external (slotAddress slot)).size →
      Burst (imageBytes board.external slot) (imageBytes other.external slot) first →
        (Node.verifyOtaSlot unread slot other).1 = some .nonCorrectCrc := by
  intro h
  have hZeros := imageBytes_word [0, 0, 0, 0] rfl
  have hPoly := imageBytes_word [0x88, 0x10, 0x80, 0] rfl
  have hAccepted := accepted_word ⟨Vector.replicate 16 0⟩ [0, 0, 0, 0] rfl (crcBytes_zero 4)
  have hMetadata : metadataAt (wordBoard [0x88, 0x10, 0x80, 0]).external (slotAddress downloadSlot) =
      metadataAt (wordBoard [0, 0, 0, 0]).external (slotAddress downloadSlot) := by
    rw [metadata_word, metadata_word]
  have hReported := h ⟨Vector.replicate 16 0⟩ downloadSlot (wordBoard [0, 0, 0, 0])
    (wordBoard [0x88, 0x10, 0x80, 0]) 0 (works_word _) (works_word _) hAccepted hMetadata
    (by rw [size_word]; decide) (fits_word _) (by rw [size_word])
    (by rw [hZeros, hPoly]; exact burst_word rfl rfl (by decide) (by decide))
  have hSame := accepted_word ⟨Vector.replicate 16 0⟩ [0x88, 0x10, 0x80, 0] rfl crcBytes_polynomial
  rw [hSame] at hReported
  cases hReported

end Word

end Smarthome.Device
