import Smarthome.Flash.Image
import Smarthome.Semantics.ShiftRegister

/-! What the CRC of an image depends on: a change in the last bit of any byte that is read
changes the result. -/
namespace Smarthome

open Semantics

/-- One pass of the loop of `crc16`, on bits. -/
def crcStep (crc : BitVec 16) (bit : Bool) : BitVec 16 :=
  (crc <<< 1 ||| (BitVec.ofBool bit).setWidth 16) ^^^ if crc.getLsbD 15 then 0x1021#16 else 0#16

theorem and_msb_ne_zero (crc : UInt16) : crc &&& 0x8000 ≠ 0 ↔ crc.toBitVec.getLsbD 15 = true := by
  have hAnd : (crc &&& 0x8000).toBitVec = crc.toBitVec &&& BitVec.twoPow 16 15 := rfl
  rw [ne_eq, ← UInt16.toBitVec_inj, hAnd, BitVec.and_twoPow]
  cases crc.toBitVec.getLsbD 15 with
  | false => simp
  | true => simp

theorem and_top_ne_zero (val : Byte) : val &&& 0x80 ≠ 0 ↔ val.toBitVec.getLsbD 7 = true := by
  have hAnd : (val &&& 0x80).toBitVec = val.toBitVec &&& BitVec.twoPow 8 7 := rfl
  rw [ne_eq, ← UInt8.toBitVec_inj, hAnd, BitVec.and_twoPow]
  cases val.toBitVec.getLsbD 7 with
  | false => simp
  | true => simp

theorem toBitVec_crc16Bit (crc : UInt16) (val : Byte) :
    (crc16Bit crc val).toBitVec = crcStep crc.toBitVec (val.toBitVec.getLsbD 7) := by
  simp only [crc16Bit, and_msb_ne_zero, and_top_ne_zero, crcStep]
  cases crc.toBitVec.getLsbD 15 with
  | false => cases val.toBitVec.getLsbD 7 with
    | false => simp
    | true => simp
  | true => cases val.toBitVec.getLsbD 7 with
    | false => simp
    | true => simp

/-- The polynomial is `poly` of the source, without its highest term. -/
theorem crcStep_eq (crc : BitVec 16) (bit : Bool) :
    crcStep crc bit = ShiftRegister.step 0x1021#16 crc bit := rfl

/-- The bit that comes in can be told from the next state. -/
theorem crcStep_ne (crc : BitVec 16) : crcStep crc false ≠ crcStep crc true := by
  intro h
  have hBit := congrArg (fun state => state.getLsbD 0) h
  simp only [crcStep_eq, ShiftRegister.getLsbD_step _ _ _ (by decide : 0 < 16), if_true] at hBit
  exact Bool.false_ne_true (Bool.xor_left_inj.mp hBit)

/-- The state before can be told from the next one. -/
theorem crcStep_injective (bit : Bool) : Function.Injective (crcStep · bit) :=
  ShiftRegister.step_injective (by decide) bit

theorem crc16Bit_injective (val : Byte) : Function.Injective (crc16Bit · val) := by
  intro crc other h
  have hStep := congrArg UInt16.toBitVec h
  simp only [toBitVec_crc16Bit] at hStep
  exact UInt16.toBitVec_inj.mp (crcStep_injective _ hStep)

theorem crc16Loop_injective (cnt : Nat) (val : Byte) :
    Function.Injective (crc16Loop cnt · val) := by
  induction cnt generalizing val with
  | zero => exact fun _ _ h => h
  | succ cnt ih =>
      intro crc other h
      exact crc16Bit_injective val (ih (val <<< 1) h)

/-- A running CRC that is wrong stays wrong. -/
theorem crc16_injective (val : Byte) : Function.Injective (crc16 · val) := crc16Loop_injective 8 val

/-- The last bit of a byte is the last one that comes in. -/
theorem crc16_zero_ne_one (crc : UInt16) : crc16 crc 0 ≠ crc16 crc 1 := by
  have hLast (state : UInt16) : crc16Bit state 0 ≠ crc16Bit state 0x80 := by
    intro h
    have hStep := congrArg UInt16.toBitVec h
    rw [toBitVec_crc16Bit, toBitVec_crc16Bit] at hStep
    exact crcStep_ne _ hStep
  exact hLast (crc16Loop 7 crc 0)

section Words

variable {memory other : Nat → Byte}

theorem crcWord_ne_of_ne {address : Nat} (h : ∀ a, address ≤ a → memory a = other a)
    {crc otherCrc : UInt16} (hNe : crc ≠ otherCrc) :
    crcWord memory address crc ≠ crcWord other address otherCrc := by
  rw [crcWord, crcWord, h address (Nat.le_refl _), h (address + 1) (by omega), h (address + 2) (by omega),
    h (address + 3) (by omega)]
  intro hEq
  exact hNe (crc16_injective _ (crc16_injective _ (crc16_injective _ (crc16_injective _ hEq))))

/-- From where the memories agree, a difference of the running CRCs is kept. -/
theorem crcWords_ne_of_ne (fuel : Nat) {address endAddress : Nat}
    (h : ∀ a, address ≤ a → memory a = other a) {crc otherCrc : UInt16} (hNe : crc ≠ otherCrc) :
    crcWords memory fuel address endAddress crc ≠ crcWords other fuel address endAddress otherCrc := by
  induction fuel generalizing address crc otherCrc with
  | zero => exact hNe
  | succ fuel ih =>
      rw [crcWords, crcWords]
      split_ifs with hMore
      · exact ih (fun a ha => h a (by omega)) (crcWord_ne_of_ne h hNe)
      · exact hNe

/-- Two memories with a different last bit in the first byte of a word that is read. -/
theorem crcWords_ne (fuel : Nat) {address endAddress place n : Nat}
    (h : ∀ a, a ≠ place → memory a = other a) (hZero : memory place = 0) (hOne : other place = 1)
    (hPlace : place = address + 4 * n) (hRead : place < endAddress) (hFuel : n < fuel)
    (crc : UInt16) : crcWords memory fuel address endAddress crc ≠
      crcWords other fuel address endAddress crc := by
  induction n generalizing fuel address crc with
  | zero =>
      obtain ⟨fuel, rfl⟩ := Nat.exists_eq_succ_of_ne_zero (Nat.ne_of_gt hFuel)
      obtain rfl : place = address := hPlace
      have hLater (a : Nat) (ha : place + 1 ≤ a) : memory a = other a := h a (by omega)
      have hWord : crcWord memory place crc ≠ crcWord other place crc := by
        rw [crcWord, crcWord, hZero, hOne, hLater (place + 1) (by omega),
          hLater (place + 2) (by omega), hLater (place + 3) (by omega)]
        intro hEq
        exact crc16_zero_ne_one crc
          (crc16_injective _ (crc16_injective _ (crc16_injective _ hEq)))
      rw [crcWords, crcWords, if_pos hRead, if_pos hRead]
      exact crcWords_ne_of_ne fuel (fun a ha => hLater a (by omega)) hWord
  | succ n ih =>
      obtain ⟨fuel, rfl⟩ := Nat.exists_eq_succ_of_ne_zero (Nat.ne_of_gt (Nat.zero_lt_of_lt hFuel))
      have hMore : address < endAddress := by omega
      have hWord : crcWord memory address crc = crcWord other address crc := by
        rw [crcWord, crcWord, h address (by omega), h (address + 1) (by omega),
          h (address + 2) (by omega), h (address + 3) (by omega)]
      rw [crcWords, crcWords, if_pos hMore, if_pos hMore, hWord]
      exact ih fuel (by omega) (by omega) _

/-- The CRC of an image depends on each word of it. -/
theorem imageCrc_ne {address size place n : Nat} (h : ∀ a, a ≠ place → memory a = other a)
    (hZero : memory place = 0) (hOne : other place = 1) (hPlace : place = address + 4 * n)
    (hRead : place < address + size) (hEnd : address + size < 0x100000000) :
    imageCrc memory address size ≠ imageCrc other address size := by
  simp only [imageCrc, Nat.mod_eq_of_lt hEnd]
  intro hEq
  exact crcWords_ne (address + size) h hZero hOne hPlace hRead (by omega) 0
    (crc16_injective _ (crc16_injective _ hEq))

end Words

end Smarthome
