import Smarthome.Protocol
import Mathlib.Tactic.Common

/-! Firmware images in flash: sixteen bytes of metadata, a gap up to 0x100 and the
image itself, with the CRC that node and bootloader compute over it. -/
namespace Smarthome

/-- One pass of the loop of `crc16`: the top bit of `val` is shifted into `crc`. -/
def crc16Bit (crc : UInt16) (val : Byte) : UInt16 :=
  let msb := crc &&& 0x8000
  let crc := crc <<< 1
  let crc := if val &&& 0x80 ≠ 0 then crc ||| 0x0001 else crc
  if msb ≠ 0 then crc ^^^ 0x1021 else crc

def crc16Loop : Nat → UInt16 → Byte → UInt16
  | 0, crc, _ => crc
  | cnt + 1, crc, val => crc16Loop cnt (crc16Bit crc val) (val <<< 1)

/-- `crc16`, the update of a running CRC by one byte. -/
def crc16 (crc : UInt16) (val : Byte) : UInt16 := crc16Loop 8 crc val

/-- The four bytes of a word, as the verify functions read them. -/
def crcWord (memory : Nat → Byte) (address : Nat) (imageCrc : UInt16) : UInt16 :=
  crc16 (crc16 (crc16 (crc16 imageCrc (memory address)) (memory (address + 1)))
    (memory (address + 2))) (memory (address + 3))

/-- `while (address < end_address)` over words. An end address in the last word of
the 32-bit space, at which the loop of the source would never stop, belongs to no
image of these devices; fuel is the end address, more than the loop can use. -/
def crcWords (memory : Nat → Byte) : Nat → Nat → Nat → UInt16 → UInt16
  | 0, _, _, imageCrc => imageCrc
  | fuel + 1, address, endAddress, imageCrc =>
      if address < endAddress then
        crcWords memory fuel (address + 4) endAddress (crcWord memory address imageCrc)
      else imageCrc

theorem crcWords_done {memory : Nat → Byte} {fuel address endAddress : Nat} {crc : UInt16}
    (h : endAddress ≤ address) : crcWords memory fuel address endAddress crc = crc := by
  cases fuel with
  | zero => rfl
  | succ fuel => rw [crcWords, if_neg (Nat.not_lt.mpr h)]

/-- The CRC of `size` bytes from `address` on, whole words at a time, and two more
rounds with zero. The end address is a 32-bit sum. -/
def imageCrc (memory : Nat → Byte) (address size : Nat) : UInt16 :=
  let endAddress := (address + size) % 0x100000000
  crc16 (crc16 (crcWords memory endAddress address endAddress 0) 0) 0

/-- Nothing is read when the end address is not above the start, and the CRC is zero. -/
theorem imageCrc_of_end_le {memory : Nat → Byte} {address size : Nat}
    (h : (address + size) % 0x100000000 ≤ address) : imageCrc memory address size = 0 := by
  simp only [imageCrc, crcWords_done h]
  simp [crc16, crc16Loop, crc16Bit]

/-- `OTAMetadata_t` as it lies in flash, its two bytes of padding included. -/
structure OtaMetadata where
  bytes : Vector Byte 16
  deriving DecidableEq

namespace OtaMetadata

def crc (metadata : OtaMetadata) : Nat := u16 metadata.bytes[0] metadata.bytes[1]

def crcShadow (metadata : OtaMetadata) : Nat := u16 metadata.bytes[2] metadata.bytes[3]

def size (metadata : OtaMetadata) : Nat :=
  u32 metadata.bytes[4] metadata.bytes[5] metadata.bytes[6] metadata.bytes[7]

def uuid (metadata : OtaMetadata) : Nat :=
  u32 metadata.bytes[8] metadata.bytes[9] metadata.bytes[10] metadata.bytes[11]

/-- The byte of a `crc_shadow` at an offset in the metadata. -/
def shadowByte (value : UInt16) (i : Nat) : Byte :=
  if i = 2 then value.toUInt8 else (value >>> 8).toUInt8

/-- The assignment to `crc_shadow`. -/
def setCrcShadow (metadata : OtaMetadata) (value : UInt16) : OtaMetadata :=
  ⟨(metadata.bytes.set 2 value.toUInt8).set 3 (value >>> 8).toUInt8⟩

theorem setCrcShadow_getElem (metadata : OtaMetadata) (value : UInt16) {i : Nat} (hi : i < 16)
    (h2 : i ≠ 2) (h3 : i ≠ 3) : (metadata.setCrcShadow value).bytes[i] = metadata.bytes[i] := by
  rw [setCrcShadow, Vector.getElem_set_ne _ _ h3.symm, Vector.getElem_set_ne _ _ h2.symm]

theorem setCrcShadow_shadow (metadata : OtaMetadata) (value : UInt16) {i : Nat} (hi : i < 16)
    (hShadow : i = 2 ∨ i = 3) : (metadata.setCrcShadow value).bytes[i] = shadowByte value i := by
  rcases hShadow with rfl | rfl
  · rw [setCrcShadow, Vector.getElem_set_ne _ _ (by decide), Vector.getElem_set_self]
    rfl
  · rw [setCrcShadow, Vector.getElem_set_self]
    rfl

theorem crcShadow_setCrcShadow (metadata : OtaMetadata) (value : UInt16) :
    (metadata.setCrcShadow value).crcShadow = value.toNat := by
  have hLow := metadata.setCrcShadow_shadow value (i := 2) (by decide) (Or.inl rfl)
  have hHigh := metadata.setCrcShadow_shadow value (i := 3) (by decide) (Or.inr rfl)
  have hValue := value.toNat_lt
  rw [crcShadow, hLow, hHigh]
  simp [shadowByte, u16, Nat.shiftRight_eq_div_pow]
  omega

end OtaMetadata

/-- `OTA_METADATA_SPACE`. -/
@[simp] def otaMetadataSpace : Nat := 0x100

/-- The metadata of the image at `base`. -/
def metadataAt (memory : Nat → Byte) (base : Nat) : OtaMetadata :=
  ⟨Vector.ofFn fun i => memory (base + i)⟩

theorem metadataAt_of_constant {memory : Nat → Byte} {base : Nat} {value : Byte}
    (h : ∀ i < 16, memory (base + i) = value) :
    metadataAt memory base = ⟨Vector.replicate 16 value⟩ := by
  have hBytes : (Vector.ofFn fun i : Fin 16 => memory (base + i)) = Vector.replicate 16 value :=
    Vector.ext fun i hi => by simp only [Vector.getElem_ofFn, Vector.getElem_replicate, h i hi]
  exact congrArg OtaMetadata.mk hBytes

/-- The CRC recomputed over the image at `base`. -/
def recomputedCrc (memory : Nat → Byte) (base : Nat) : UInt16 :=
  imageCrc memory (base + otaMetadataSpace) (metadataAt memory base).size

/-- The image matches its CRC. -/
def ImageMatches (memory : Nat → Byte) (base : Nat) : Prop :=
  (recomputedCrc memory base).toNat = (metadataAt memory base).crc

/-- The image, as its metadata describe it, ends inside 25 pages. -/
def ImageFits (memory : Nat → Byte) (base : Nat) : Prop :=
  otaMetadataSpace + (metadataAt memory base).size ≤ 25 * 0x1000

instance (memory : Nat → Byte) (base : Nat) : Decidable (ImageMatches memory base) :=
  inferInstanceAs (Decidable (_ = _))

instance (memory : Nat → Byte) (base : Nat) : Decidable (ImageFits memory base) :=
  inferInstanceAs (Decidable (_ ≤ _))

/-- Two places hold the same image, apart from `crc_shadow`, which the bootloader
overwrites. -/
def SameImage (memory : Nat → Byte) (base : Nat) (other : Nat → Byte) (otherBase : Nat) : Prop :=
  ∀ i < 25 * 0x1000, i ≠ 2 → i ≠ 3 → memory (base + i) = other (otherBase + i)

/-- A byte of an image that has been verified in flash, where the CRC is programmed
over the `crc_shadow`. -/
def verifiedByte (memory : Nat → Byte) (base i : Nat) : Byte :=
  if i = 2 ∨ i = 3 then memory (base + i) &&& OtaMetadata.shadowByte (recomputedCrc memory base) i
  else memory (base + i)

/-- The `crc_shadow` has no bits that the CRC does not have, as after verifying. -/
def ShadowVerified (memory : Nat → Byte) (base : Nat) : Prop :=
  ImageFits memory base → ∀ i, i = 2 ∨ i = 3 → memory (base + i) = verifiedByte memory base i

/-- The image has come from another place and may have been verified since. -/
structure ImageKept (memory : Nat → Byte) (base : Nat) (other : Nat → Byte) (otherBase : Nat) :
    Prop where
  same : SameImage memory base other otherBase
  cleared : ∀ i, i = 2 ∨ i = 3 → memory (base + i) &&& other (otherBase + i) = memory (base + i)
  shadow : ImageFits other otherBase →
    (∀ i, i = 2 ∨ i = 3 → memory (base + i) = other (otherBase + i)) ∨
      ∀ i, i = 2 ∨ i = 3 → memory (base + i) = verifiedByte other otherBase i

section Congruence

variable {memory other third : Nat → Byte} {base otherBase thirdBase : Nat}

theorem SameImage.trans (h : SameImage memory base other otherBase)
    (h' : SameImage other otherBase third thirdBase) : SameImage memory base third thirdBase :=
  fun i hLt h2 h3 => (h i hLt h2 h3).trans (h' i hLt h2 h3)

/-- The loop over the words depends on the words only, and not on spare fuel. -/
theorem crcWords_congr {fuel otherFuel address otherAddress endAddress otherEnd : Nat}
    (crc : UInt16) (hLength : endAddress - address = otherEnd - otherAddress)
    (hFuel : endAddress - address ≤ fuel) (hOther : otherEnd - otherAddress ≤ otherFuel)
    (hBytes : ∀ i < (endAddress - address + 3) / 4 * 4,
      memory (address + i) = other (otherAddress + i)) :
    crcWords memory fuel address endAddress crc =
      crcWords other otherFuel otherAddress otherEnd crc := by
  induction fuel generalizing otherFuel address otherAddress crc with
  | zero =>
      cases otherFuel with
      | zero => rfl
      | succ otherFuel =>
          have hDone : ¬ otherAddress < otherEnd := by omega
          rw [crcWords, crcWords, if_neg hDone]
  | succ fuel ih =>
      by_cases hMore : address < endAddress
      · have hMore' : otherAddress < otherEnd := by omega
        obtain ⟨otherFuel, rfl⟩ : ∃ n, otherFuel = n + 1 := ⟨otherFuel - 1, by omega⟩
        have hByte (i : Nat) (hi : i < 4) : memory (address + i) = other (otherAddress + i) :=
          hBytes i (by omega)
        have hWord : crcWord memory address crc = crcWord other otherAddress crc := by
          have h0 := hByte 0 (by decide)
          simp only [Nat.add_zero] at h0
          simp only [crcWord, h0, hByte 1 (by decide), hByte 2 (by decide), hByte 3 (by decide)]
        rw [crcWords, crcWords, if_pos hMore, if_pos hMore', hWord]
        apply ih _ (by omega) (by omega) (by omega)
        intro i hi
        rw [Nat.add_assoc, Nat.add_assoc]
        exact hBytes (4 + i) (by omega)
      · have hDone : ¬ otherAddress < otherEnd := by omega
        rw [crcWords, if_neg hMore]
        cases otherFuel with
        | zero => rfl
        | succ otherFuel => rw [crcWords, if_neg hDone]

theorem imageCrc_congr {address otherAddress size : Nat} (hEnd : address + size < 0x100000000)
    (hOther : otherAddress + size < 0x100000000)
    (hBytes : ∀ i < (size + 3) / 4 * 4, memory (address + i) = other (otherAddress + i)) :
    imageCrc memory address size = imageCrc other otherAddress size := by
  have hLength : address + size - address = size := by omega
  have hWords : crcWords memory (address + size) address (address + size) 0 =
      crcWords other (otherAddress + size) otherAddress (otherAddress + size) 0 :=
    crcWords_congr 0 (by omega) (by omega) (by omega) (by rwa [hLength])
  simp only [imageCrc, Nat.mod_eq_of_lt hEnd, Nat.mod_eq_of_lt hOther, hWords]

variable (h : SameImage memory base other otherBase)
include h

/-- The same image has the same size and the same CRC fields but the shadow. -/
theorem SameImage.metadata : (metadataAt memory base).crc = (metadataAt other otherBase).crc ∧
    (metadataAt memory base).size = (metadataAt other otherBase).size := by
  have hByte (i : Nat) (hi : i < 16) (h2 : i ≠ 2) (h3 : i ≠ 3) := h i (by omega) h2 h3
  have h0 := hByte 0 (by decide) (by decide) (by decide)
  have h1 := hByte 1 (by decide) (by decide) (by decide)
  have h4 := hByte 4 (by decide) (by decide) (by decide)
  have h5 := hByte 5 (by decide) (by decide) (by decide)
  have h6 := hByte 6 (by decide) (by decide) (by decide)
  have h7 := hByte 7 (by decide) (by decide) (by decide)
  simp only [Nat.add_zero] at h0
  simp [metadataAt, OtaMetadata.crc, OtaMetadata.size, h0, h1, h4, h5, h6, h7]

theorem SameImage.fits_iff : ImageFits memory base ↔ ImageFits other otherBase := by
  rw [ImageFits, ImageFits, h.metadata.2]

/-- An image that ends inside its pages matches its CRC wherever it is copied to. -/
theorem SameImage.recomputedCrc_eq (hFits : ImageFits memory base)
    (hBase : base < 0x1000000) (hOther : otherBase < 0x1000000) :
    recomputedCrc memory base = recomputedCrc other otherBase := by
  simp only [ImageFits, otaMetadataSpace] at hFits
  rw [recomputedCrc, recomputedCrc, ← h.metadata.2]
  simp only [otaMetadataSpace]
  apply imageCrc_congr (by omega) (by omega)
  intro i hi
  rw [Nat.add_assoc, Nat.add_assoc]
  exact h (0x100 + i) (by omega) (by omega) (by omega)

theorem SameImage.matches_iff (hFits : ImageFits memory base) (hBase : base < 0x1000000)
    (hOther : otherBase < 0x1000000) : ImageMatches memory base ↔ ImageMatches other otherBase := by
  rw [ImageMatches, ImageMatches, h.metadata.1, h.recomputedCrc_eq hFits hBase hOther]

omit h in
theorem verifiedByte_shadow {i : Nat} (hi : i = 2 ∨ i = 3) : verifiedByte memory base i =
    memory (base + i) &&& OtaMetadata.shadowByte (recomputedCrc memory base) i := if_pos hi

omit h in
theorem ImageKept.of_eq (h : ∀ i < 25 * 0x1000, memory (base + i) = other (otherBase + i)) :
    ImageKept memory base other otherBase where
  same := fun i hLt _ _ => h i hLt
  cleared := fun i hi => by rw [h i (by omega), UInt8.and_self]
  shadow := fun _ => Or.inl fun i hi => h i (by omega)

omit h in
theorem ImageKept.trans (h : ImageKept memory base other otherBase)
    (h' : ImageKept other otherBase third thirdBase) (hOther : otherBase < 0x1000000)
    (hThird : thirdBase < 0x1000000) : ImageKept memory base third thirdBase where
  same := h.same.trans h'.same
  cleared := fun i hi => by
    rw [← h.cleared i hi, UInt8.and_assoc, h'.cleared i hi]
  shadow := fun hFits => by
    have hFitsOther := h'.same.fits_iff.mpr hFits
    have hCrc := h'.same.recomputedCrc_eq hFitsOther hOther hThird
    rcases h.shadow hFitsOther with hUntouched | hVerified
    · exact (h'.shadow hFits).imp (fun hThen i hi => (hUntouched i hi).trans (hThen i hi))
        fun hThen i hi => (hUntouched i hi).trans (hThen i hi)
    · apply Or.inr
      intro i hi
      rw [hVerified i hi, verifiedByte_shadow hi, verifiedByte_shadow hi, hCrc]
      rcases h'.shadow hFits with hThen | hThen
      · rw [hThen i hi]
      · rw [hThen i hi, verifiedByte_shadow hi, UInt8.and_assoc, UInt8.and_self]

omit h in
/-- What is kept of a verified image is verified. -/
theorem ShadowVerified.keep (h : ImageKept memory base other otherBase)
    (h' : ShadowVerified other otherBase) (hBase : base < 0x1000000) (hOther : otherBase < 0x1000000) :
    ShadowVerified memory base := by
  intro hFits i hi
  have hFitsOther := h.same.fits_iff.mp hFits
  have hOriginal := h' hFitsOther i hi
  rw [verifiedByte_shadow hi] at hOriginal
  rw [verifiedByte_shadow hi, h.same.recomputedCrc_eq hFits hBase hOther, ← h.cleared i hi,
    UInt8.and_assoc, ← hOriginal]

omit h in
/-- A verified copy of an image is that image as verifying leaves it. -/
theorem ImageKept.eq_verifiedByte (h : ImageKept memory base other otherBase)
    (hVerified : ShadowVerified memory base) (hFits : ImageFits other otherBase)
    (hBase : base < 0x1000000) (hOther : otherBase < 0x1000000) :
    ∀ i < 25 * 0x1000, memory (base + i) = verifiedByte other otherBase i := by
  intro i hLt
  by_cases hi : i = 2 ∨ i = 3
  · rcases h.shadow hFits with hUntouched | hDone
    · have hFitsHere := h.same.fits_iff.mpr hFits
      rw [hVerified hFitsHere i hi, verifiedByte_shadow hi, verifiedByte_shadow hi, hUntouched i hi,
        h.same.recomputedCrc_eq hFitsHere hBase hOther]
    · exact hDone i hi
  · rw [verifiedByte, if_neg hi]
    exact h.same i hLt (fun h2 => hi (Or.inl h2)) fun h3 => hi (Or.inr h3)

end Congruence

end Smarthome
