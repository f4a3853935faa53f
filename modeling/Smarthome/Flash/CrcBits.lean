import Mathlib.SetTheory.Cardinal.Finite
import Smarthome.Flash.Crc
import Smarthome.Semantics.NorFlash

/-! The CRC of a list of bytes, and of an image as the list of its words. As a run of a shift
register over bits it finds every flipped bit and every burst that is no longer than it. -/
namespace Smarthome

open Semantics

/-- `crc16` over some bytes and two more rounds with zero. -/
def crcBytes (bytes : List Byte) : UInt16 := crc16 (crc16 (bytes.foldl crc16 0) 0) 0

/-- The bits of a byte, in the order in which `crc16` takes them. -/
def byteBits (val : Byte) : List Bool := (List.range 8).map fun i => val.toBitVec.getLsbD (7 - i)

/-- The bits of some bytes, in the same order. -/
def bytesBits (bytes : List Byte) : List Bool := bytes.flatMap byteBits

section Bits

theorem byteBits_length (val : Byte) : (byteBits val).length = 8 := by simp [byteBits]

theorem bytesBits_length (bytes : List Byte) : (bytesBits bytes).length = 8 * bytes.length := by
  induction bytes with
  | nil => rfl
  | cons val bytes ih =>
      rw [bytesBits, List.flatMap_cons, List.length_append, byteBits_length, List.length_cons]
      rw [bytesBits] at ih
      omega

theorem byteBits_getElem (val : Byte) {i : Nat} (hi : i < (byteBits val).length) :
    (byteBits val)[i] = val.toBitVec.getLsbD (7 - i) := by simp [byteBits]

/-- Bit `p` is in byte `p / 8`, the highest one first. -/
theorem bytesBits_getElem (bytes : List Byte) {p : Nat} (hp : p < (bytesBits bytes).length)
    (hByte : p / 8 < bytes.length) :
    (bytesBits bytes)[p] = bytes[p / 8].toBitVec.getLsbD (7 - p % 8) := by
  induction bytes generalizing p with
  | nil => exact absurd hByte (Nat.not_lt_zero _)
  | cons val bytes ih =>
      have hSplit : bytesBits (val :: bytes) = byteBits val ++ bytesBits bytes := rfl
      simp only [hSplit]
      by_cases hHere : p < 8
      · have hZero : p / 8 = 0 := Nat.div_eq_of_lt hHere
        rw [List.getElem_append_left (by rwa [byteBits_length]), byteBits_getElem,
          Nat.mod_eq_of_lt hHere]
        simp only [hZero, List.getElem_cons_zero]
      · obtain ⟨q, rfl⟩ : ∃ q, p = q + 8 := ⟨p - 8, by omega⟩
        have hNext : (q + 8) / 8 = q / 8 + 1 := by omega
        have hSame : (q + 8) % 8 = q % 8 := by omega
        have hInside : q / 8 < bytes.length := by
          rw [hNext, List.length_cons] at hByte
          omega
        have hPlace : q < (bytesBits bytes).length := by
          rw [bytesBits_length]
          omega
        rw [List.getElem_append_right (by rw [byteBits_length]; omega)]
        simp only [byteBits_length, Nat.add_sub_cancel, hNext, hSame, List.getElem_cons_succ]
        exact ih hPlace hInside

theorem byteBits_injective : Function.Injective byteBits := by
  intro val other h
  rw [← UInt8.toBitVec_inj]
  refine BitVec.eq_of_getLsbD_eq fun i hi => ?_
  have hPlace : 7 - i < 8 := by omega
  have hBit := congrArg (fun bits => bits[7 - i]?) h
  have hBack : 7 - (7 - i) = i := by omega
  simpa [byteBits, hPlace, hBack] using hBit

end Bits

section Register

/-- Shifting a byte brings up its next bit. -/
theorem getLsbD_shiftLeft_one (val : Byte) {i : Nat} (hi : i < 7) :
    (val <<< 1).toBitVec.getLsbD (7 - i) = val.toBitVec.getLsbD (7 - (i + 1)) := by
  have hShift : (val <<< 1).toBitVec = val.toBitVec <<< 1 := UInt8.toBitVec_shiftLeft val 1
  have hInside : 7 - i < 8 := by omega
  have hPos : ¬ 7 - i < 1 := by omega
  have hPlace : 7 - i - 1 = 7 - (i + 1) := by omega
  rw [hShift, BitVec.getLsbD_shiftLeft, hPlace]
  simp [hInside, hPos]

theorem toBitVec_crc16Loop (cnt : Nat) (hCnt : cnt ≤ 8) (crc : UInt16) (val : Byte) :
    (crc16Loop cnt crc val).toBitVec = ShiftRegister.run 0x1021#16 crc.toBitVec
      ((List.range cnt).map fun i => val.toBitVec.getLsbD (7 - i)) := by
  induction cnt generalizing crc val with
  | zero => rfl
  | succ cnt ih =>
      have hLater : (List.range cnt).map (fun i => (val <<< 1).toBitVec.getLsbD (7 - i)) =
          (List.range cnt).map fun i => val.toBitVec.getLsbD (7 - (i + 1)) := by
        refine List.map_congr_left fun i hi => getLsbD_shiftLeft_one val ?_
        have hLt := List.mem_range.mp hi
        omega
      rw [crc16Loop, ih (by omega), hLater, toBitVec_crc16Bit, crcStep_eq, List.range_succ_eq_map,
        List.map_cons, List.map_map, ShiftRegister.run_cons]
      rfl

/-- `crc16` shifts in the bits of a byte. -/
theorem toBitVec_crc16 (crc : UInt16) (val : Byte) :
    (crc16 crc val).toBitVec = ShiftRegister.run 0x1021#16 crc.toBitVec (byteBits val) :=
  toBitVec_crc16Loop 8 (Nat.le_refl 8) crc val

theorem toBitVec_foldl_crc16 (bytes : List Byte) (crc : UInt16) :
    (bytes.foldl crc16 crc).toBitVec =
      ShiftRegister.run 0x1021#16 crc.toBitVec (bytesBits bytes) := by
  induction bytes generalizing crc with
  | nil => rfl
  | cons val bytes ih =>
      rw [List.foldl_cons, ih, toBitVec_crc16, ← ShiftRegister.run_append]
      rfl

theorem toBitVec_crcBytes (bytes : List Byte) :
    (crcBytes bytes).toBitVec =
      ShiftRegister.run 0x1021#16 0#16 (bytesBits bytes ++ List.replicate 16 false) := by
  have hZeros : byteBits 0 ++ byteBits 0 = List.replicate 16 false := by decide
  rw [crcBytes, toBitVec_crc16, toBitVec_crc16, toBitVec_foldl_crc16, ← ShiftRegister.run_append,
    ← ShiftRegister.run_append, hZeros]
  rfl

/-- Two bytes fill the register. -/
theorem crc16_two_injective (crc : UInt16) :
    Function.Injective fun bytes : Byte × Byte => crc16 (crc16 crc bytes.1) bytes.2 := by
  rintro ⟨high, low⟩ ⟨high', low'⟩ h
  have hRun := congrArg UInt16.toBitVec h
  simp only [toBitVec_crc16, ← ShiftRegister.run_append] at hRun
  have hBits := ShiftRegister.run_bits_injective _ _
    (by simp [byteBits_length]) (by simp [byteBits_length]) hRun
  obtain ⟨hHigh, hLow⟩ := List.append_inj hBits (by simp [byteBits_length])
  rw [byteBits_injective hHigh, byteBits_injective hLow]

/-- They can bring it into any state. -/
theorem crc16_two_surjective (crc : UInt16) :
    Function.Surjective fun bytes : Byte × Byte => crc16 (crc16 crc bytes.1) bytes.2 := by
  have hByte : Nat.card Byte = 256 :=
    (Nat.card_congr ⟨UInt8.toFin, UInt8.ofFin, fun _ => rfl, fun _ => rfl⟩).trans (Nat.card_fin 256)
  have hWord : Nat.card UInt16 = 65536 :=
    (Nat.card_congr ⟨UInt16.toFin, UInt16.ofFin, fun _ => rfl, fun _ => rfl⟩).trans
      (Nat.card_fin 65536)
  have hFinite : Finite UInt16 := Nat.finite_of_card_ne_zero (by rw [hWord]; decide)
  refine ((crc16_two_injective crc).bijective_of_nat_card_le ?_).surjective
  rw [Nat.card_prod, hByte, hWord]

/-- Every state has one before it. -/
theorem crc16_surjective (val : Byte) : Function.Surjective (crc16 · val) := by
  have hFinite : Finite UInt16 := Finite.of_injective UInt16.toFin fun _ _ => UInt16.toFin_inj.mp
  exact Finite.surjective_of_injective (crc16_injective val)

theorem crc16_byte_injective (crc : UInt16) : Function.Injective (crc16 crc) := by
  intro val other h
  have hPair := @crc16_two_injective crc (val, 0) (other, 0) (congrArg (crc16 · 0) h)
  exact congrArg Prod.fst hPair

theorem foldl_crc16_injective (bytes : List Byte) :
    Function.Injective fun crc => bytes.foldl crc16 crc := by
  induction bytes with
  | nil => exact fun _ _ h => h
  | cons val bytes ih =>
      intro crc other h
      exact crc16_injective val (ih h)

/-- The CRC depends on every byte. -/
theorem crcBytes_set_ne {bytes : List Byte} {i : Nat} (hi : i < bytes.length) {val : Byte}
    (h : val ≠ bytes[i]) : crcBytes (bytes.set i val) ≠ crcBytes bytes := by
  intro hEqual
  have hFold := crc16_injective 0 (crc16_injective 0 hEqual)
  have hSplit : bytes = bytes.take i ++ bytes[i] :: bytes.drop (i + 1) := by
    rw [← List.drop_eq_getElem_cons hi, List.take_append_drop]
  have hSet : bytes.set i val = bytes.take i ++ val :: bytes.drop (i + 1) := by
    rw [List.set_eq_take_append_cons_drop, if_pos hi]
  have hHere : (bytes.set i val).foldl crc16 0 =
      (bytes.take i ++ bytes[i] :: bytes.drop (i + 1)).foldl crc16 0 := by rw [← hSplit, hFold]
  rw [hSet, List.foldl_append, List.foldl_append, List.foldl_cons, List.foldl_cons] at hHere
  exact h (crc16_byte_injective _ (foldl_crc16_injective _ hHere))

theorem foldl_crc16_zero (n : Nat) : (List.replicate n (0 : Byte)).foldl crc16 0 = 0 := by
  induction n with
  | zero => rfl
  | succ n ih =>
      have hStep : crc16 0 0 = 0 := by decide
      rw [List.replicate_succ, List.foldl_cons, hStep, ih]

theorem crcBytes_zero (n : Nat) : crcBytes (List.replicate n 0) = 0 := by
  have hStep : crc16 0 0 = 0 := by decide
  rw [crcBytes, foldl_crc16_zero, hStep, hStep]

end Register

section Flips

/-- The two lists differ in this bit. -/
def FlippedAt (bytes other : List Byte) (p : Nat) : Prop :=
  (bytesBits bytes).getD p false ≠ (bytesBits other).getD p false

instance (bytes other : List Byte) (p : Nat) : Decidable (FlippedAt bytes other p) :=
  inferInstanceAs (Decidable (_ ≠ _))

variable {bytes other : List Byte} {first : Nat}

/-- The bits of the polynomial, from the first flipped one on. -/
def IsPolynomial (bytes other : List Byte) (first : Nat) : Prop :=
  ∀ p, FlippedAt bytes other p ↔
    p = first ∨ p = first + 4 ∨ p = first + 11 ∨ p = first + 16

theorem FlippedAt.lt (hLength : bytes.length = other.length) {p : Nat}
    (h : FlippedAt bytes other p) : p < 8 * bytes.length := by
  by_contra hOut
  refine h ?_
  rw [List.getD_eq_default _ _ (by rw [bytesBits_length]; omega),
    List.getD_eq_default _ _ (by rw [bytesBits_length]; omega)]

/-- The bits in which the two lists differ, as the register gets them. -/
def flips (bytes other : List Byte) : List Bool :=
  List.zipWith xor (bytesBits bytes ++ List.replicate 16 false)
    (bytesBits other ++ List.replicate 16 false)

theorem flips_length (hLength : bytes.length = other.length) :
    (flips bytes other).length = 8 * bytes.length + 16 := by
  simp [flips, bytesBits_length, hLength]

theorem flips_getD (hLength : bytes.length = other.length) (p : Nat) :
    (flips bytes other).getD p false = true ↔ FlippedAt bytes other p := by
  have hBits : (bytesBits bytes).length = (bytesBits other).length := by
    rw [bytesBits_length, bytesBits_length, hLength]
  have hFlips := flips_length hLength
  by_cases hp : p < 8 * bytes.length
  · have hIn : p < (bytesBits bytes).length := by rwa [bytesBits_length]
    have hOther : p < (bytesBits other).length := by rwa [← hBits]
    rw [FlippedAt, List.getD_eq_getElem _ _ hIn, List.getD_eq_getElem _ _ hOther,
      List.getD_eq_getElem _ _ (by omega)]
    simp [flips, List.getElem_append_left hIn, List.getElem_append_left hOther]
  · have hIn : (bytesBits bytes).length ≤ p := by rw [bytesBits_length]; omega
    have hOther : (bytesBits other).length ≤ p := by rwa [← hBits]
    refine iff_of_false ?_ fun h => hp (h.lt hLength)
    by_cases hEnd : p < (flips bytes other).length
    · rw [List.getD_eq_getElem _ _ hEnd]
      simp only [flips, List.getElem_zipWith, List.getElem_append_right hIn,
        List.getElem_append_right hOther, List.getElem_replicate]
      exact Bool.false_ne_true
    · rw [List.getD_eq_default _ _ (Nat.le_of_not_lt hEnd)]
      exact Bool.false_ne_true

/-- The register is linear: only the flipped bits matter. -/
theorem crcBytes_eq_iff_flips (hLength : bytes.length = other.length) :
    crcBytes bytes = crcBytes other ↔
      ShiftRegister.run 0x1021#16 0#16 (flips bytes other) = 0#16 := by
  have hSame : (bytesBits bytes ++ List.replicate 16 false).length =
      (bytesBits other ++ List.replicate 16 false).length := by
    simp [bytesBits_length, hLength]
  have hXor := ShiftRegister.run_xor 0x1021#16 0#16 0#16 hSame
  rw [BitVec.xor_self, ← toBitVec_crcBytes, ← toBitVec_crcBytes] at hXor
  rw [flips, hXor, BitVec.xor_eq_zero_iff, UInt16.toBitVec_inj]

/-- The places of the ones of the polynomial, counted from the other end. -/
theorem isPolynomial_iff (hFirst : FlippedAt bytes other first)
    (hBurst : ∀ p, FlippedAt bytes other p → first ≤ p ∧ p ≤ first + 16) :
    (∀ i < 16, FlippedAt bytes other (first + 16 - i) ↔ (0x1021#16).getLsbD i = true) ↔
      IsPolynomial bytes other first := by
  have hPoly : ∀ i < 16, (0x1021#16).getLsbD i = true ↔ i = 0 ∨ i = 5 ∨ i = 12 := by decide
  constructor
  · intro h p
    constructor
    · intro hp
      obtain ⟨hFrom, hTo⟩ := hBurst p hp
      rcases Nat.eq_or_lt_of_le hFrom with rfl | hLater
      · exact Or.inl rfl
      · have hAt := h (first + 16 - p) (by omega)
        have hBack : first + 16 - (first + 16 - p) = p := by omega
        rw [hBack, hPoly _ (by omega)] at hAt
        have hPlace := hAt.mp hp
        omega
    · have hOne {i : Nat} (hi : i < 16) (hIs : i = 0 ∨ i = 5 ∨ i = 12) :
          FlippedAt bytes other (first + 16 - i) := (h i hi).mpr ((hPoly i hi).mpr hIs)
      rintro (rfl | rfl | rfl | rfl)
      · exact hFirst
      · exact hOne (i := 12) (by decide) (by decide)
      · exact hOne (i := 5) (by decide) (by decide)
      · exact hOne (i := 0) (by decide) (by decide)
  · intro h i hi
    rw [h, hPoly i hi]
    omega

/-- **Bursts.** Flipped bits at most 16 places apart change the CRC, unless they are those of
the polynomial. -/
theorem crcBytes_eq_iff_of_burst (hLength : bytes.length = other.length)
    (hFirst : FlippedAt bytes other first)
    (hBurst : ∀ p, FlippedAt bytes other p → first ≤ p ∧ p ≤ first + 16) :
    crcBytes bytes = crcBytes other ↔ IsPolynomial bytes other first := by
  have hPoly : (0x1021#16).getLsbD 0 = true := by decide
  have hEnd : first + 16 < (flips bytes other).length := by
    rw [flips_length hLength]
    exact Nat.add_lt_add_right (hFirst.lt hLength) 16
  have hRun := ShiftRegister.run_eq_zero_iff_of_burst hPoly hEnd
    ((flips_getD hLength first).mpr hFirst) fun p hp => hBurst p ((flips_getD hLength p).mp hp)
  rw [crcBytes_eq_iff_flips hLength, hRun, ← isPolynomial_iff hFirst hBurst]
  refine forall₂_congr fun i _ => ?_
  rw [Bool.eq_iff_iff, flips_getD hLength]

/-- A burst that fits into the register is always found. -/
theorem crcBytes_ne_of_burst (hLength : bytes.length = other.length)
    (hFirst : FlippedAt bytes other first)
    (hBurst : ∀ p, FlippedAt bytes other p → first ≤ p ∧ p < first + 16) :
    crcBytes bytes ≠ crcBytes other := by
  intro hEqual
  have hPoly := (crcBytes_eq_iff_of_burst hLength hFirst fun p hp =>
    ⟨(hBurst p hp).1, Nat.le_of_lt (hBurst p hp).2⟩).mp hEqual
  have hLast := hBurst (first + 16) ((hPoly _).mpr (by simp))
  omega

end Flips

section Images

/-- The bytes from which the loops over an image compute its CRC: the image is filled up to
whole words with what lies behind it. -/
def imageWords (memory : Nat → Byte) (address size : Nat) : List Byte :=
  NorFlash.slice memory address ((size + 3) / 4 * 4)

variable {memory : Nat → Byte}

theorem crcWords_eq_foldl {fuel address endAddress : Nat} (crc : UInt16)
    (hFuel : endAddress - address ≤ fuel) :
    crcWords memory fuel address endAddress crc =
      (imageWords memory address (endAddress - address)).foldl crc16 crc := by
  induction fuel generalizing address crc with
  | zero =>
      have hEmpty : (endAddress - address + 3) / 4 * 4 = 0 := by omega
      rw [imageWords, hEmpty]
      rfl
  | succ fuel ih =>
      rw [crcWords]
      split_ifs with hMore
      · have hLength : (endAddress - address + 3) / 4 * 4 =
            (endAddress - (address + 4) + 3) / 4 * 4 + 1 + 1 + 1 + 1 := by omega
        rw [ih _ (by omega), imageWords, imageWords, hLength, NorFlash.slice_succ,
          NorFlash.slice_succ, NorFlash.slice_succ, NorFlash.slice_succ]
        rfl
      · have hEmpty : (endAddress - address + 3) / 4 * 4 = 0 := by omega
        rw [imageWords, hEmpty]
        rfl

/-- Where the end address does not wrap around, the CRC is that of the words. -/
theorem imageCrc_eq_crcBytes {address size : Nat} (hEnd : address + size < 0x100000000) :
    imageCrc memory address size = crcBytes (imageWords memory address size) := by
  have hSize : address + size - address = size := by omega
  simp only [imageCrc, Nat.mod_eq_of_lt hEnd]
  rw [crcWords_eq_foldl _ (Nat.sub_le ..), hSize, crcBytes]

end Images

end Smarthome
