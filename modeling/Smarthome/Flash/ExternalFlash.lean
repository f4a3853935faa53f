import Smarthome.Protocol
import Smarthome.Semantics.NorFlash
import Smarthome.Semantics.Retry

/-! The driver of the external flash, `ext-flash.c`, over a model of the chip. Each
function that talks to the chip succeeds or fails by the next element of a list of
outcomes; a list that has run out stands for a chip that works from then on. -/
namespace Smarthome

open Semantics

/-- A byte of NOR flash: erased to `FF`, programmed by clearing bits. -/
instance : NorCell Byte where
  erased := 0xFF
  merge := fun a b => a &&& b
  merge_erased c := by rw [← UInt8.toBitVec_inj, UInt8.toBitVec_and]; exact BitVec.allOnes_and
  merge_merge a c := by rw [UInt8.and_assoc, UInt8.and_self]

theorem merge_byte (a b : Byte) : NorCell.merge a b = a &&& b := rfl

/-- The chip and what is to come on the bus to it. -/
structure ExtFlash where
  memory : Nat → Byte
  outcomes : List Bool

/-- A function of the driver: the result it returns, and the chip after it. -/
abbrev DriverCall := ExtFlash → Bool × ExtFlash

namespace DriverCall

/-- Two calls in a row with the early return of the driver: the second is made
only when the first has succeeded. -/
def andThen (first second : DriverCall) : DriverCall := fun flash =>
  match first flash with
  | (true, flash) => second flash
  | (false, flash) => (false, flash)

/-- `while(call fails);`. A failed call uses up an outcome, so that one more than
their number of calls are enough. -/
def untilDone (call : DriverCall) (flash : ExtFlash) : Option ExtFlash :=
  retry call (flash.outcomes.length + 1) flash

/-- What a call does to the memory: `act` when it succeeds, and some change that
`Partial` allows, and never without an outcome used up, when it fails. -/
def Performs (call : DriverCall) (act : (Nat → Byte) → Nat → Byte)
    (Partial : (Nat → Byte) → (Nat → Byte) → Prop) : Prop :=
  ∀ flash next,
    (call flash = (true, next) →
      next.memory = act flash.memory ∧ next.outcomes.length ≤ flash.outcomes.length) ∧
    (call flash = (false, next) →
      Partial flash.memory next.memory ∧ next.outcomes.length < flash.outcomes.length)

variable {first second call : DriverCall} {act after : (Nat → Byte) → Nat → Byte}
  {PartialFirst PartialSecond Partial : (Nat → Byte) → (Nat → Byte) → Prop}

theorem Performs.andThen (hFirst : first.Performs act PartialFirst)
    (hSecond : second.Performs after PartialSecond)
    (hEarly : ∀ m m', PartialFirst m m' → Partial m m')
    (hLate : ∀ m m', PartialSecond (act m) m' → Partial m m') :
    (first.andThen second).Performs (fun m => after (act m)) Partial := by
  intro flash next
  unfold DriverCall.andThen
  match hCall : first flash with
  | (true, middle) =>
      obtain ⟨hMemory, hLe⟩ := (hFirst flash middle).1 hCall
      refine ⟨fun h => ?_, fun h => ?_⟩
      · obtain ⟨hAfter, hNext⟩ := (hSecond middle next).1 h
        exact ⟨hAfter.trans (congrArg after hMemory), Nat.le_trans hNext hLe⟩
      · obtain ⟨hAfter, hNext⟩ := (hSecond middle next).2 h
        exact ⟨hLate _ _ (hMemory ▸ hAfter), Nat.lt_of_lt_of_le hNext hLe⟩
  | (false, middle) =>
      refine ⟨fun h => by simp at h, fun h => ?_⟩
      obtain rfl : middle = next := by simpa using h
      obtain ⟨hMemory, hLt⟩ := (hFirst flash middle).2 hCall
      exact ⟨hEarly _ _ hMemory, hLt⟩

/-- A call that may be repeated after a failure does its work in the end. -/
theorem Performs.untilDone (hCall : call.Performs act Partial)
    (hRepeat : ∀ m m', Partial m m' → act m' = act m) (flash : ExtFlash) :
    ∃ next, call.untilDone flash = some next ∧ next.memory = act flash.memory := by
  refine retry_eq_some (fun s => act s.memory = act flash.memory)
    (fun s => s.outcomes.length) (fun s t hInv h => ?_) (fun s t hInv h => ?_) rfl
    (Nat.lt_succ_self _)
  · obtain ⟨hMemory, hLt⟩ := (hCall s t).2 h
    exact ⟨(hRepeat _ _ hMemory).trans hInv, hLt⟩
  · exact ((hCall s t).1 h).1.trans hInv

end DriverCall

namespace ExtFlash

open DriverCall

/-- One exchange with the chip. A failed one has sent nothing. -/
def transfer : DriverCall := fun flash =>
  match flash.outcomes with
  | [] => (true, flash)
  | outcome :: outcomes => (outcome, { flash with outcomes })

/-- The chip carries out the command it has received. -/
def act (command : (Nat → Byte) → Nat → Byte) : DriverCall := fun flash =>
  (true, { flash with memory := command flash.memory })

/-- The three address bytes of a command. -/
def address24 (offset : Nat) : Nat := offset % 0x1000000

/-- `wait_ready`; its reads of the status register share one outcome. -/
def waitReady : DriverCall := transfer

def writeEnable : DriverCall := transfer

/-- `ext_flash_open`: whether `verify_part` finds the part. -/
def extFlashOpen : DriverCall := transfer

/-- `ext_flash_read`. -/
def extFlashRead (offset length : Nat) (flash : ExtFlash) : Option (List Byte) × ExtFlash :=
  match flash.transfer with
  | (true, flash) => (some (NorFlash.slice flash.memory (address24 offset) length), flash)
  | (false, flash) => (none, flash)

/-- `BLS_ERASE_SECTOR_SIZE`, what the driver takes one erase command to cover. -/
@[simp] def blsEraseSectorSize : Nat := 4096

/-- What the part erases on `BLS_CODE_SECTOR_ERASE` (`D8`, by its second name
`BLS_CODE_ERASE_512K`): the aligned block of 512 kbit around the address. -/
@[simp] def blsCodeErase512K : Nat := 0x10000

/-- One pass of the loop of `ext_flash_erase`. -/
def eraseSector (offset : Nat) : DriverCall :=
  waitReady.andThen <| writeEnable.andThen <| transfer.andThen <|
    act (NorFlash.erase blsCodeErase512K (address24 offset))

/-- The loop of `ext_flash_erase` from sector address `offset` on. -/
def eraseSectors : Nat → Nat → DriverCall
  | 0, _ => fun flash => (true, flash)
  | numsectors + 1, offset =>
      (eraseSector offset).andThen (eraseSectors numsectors (offset + blsEraseSectorSize))

/-- The number of passes, in the 32-bit arithmetic of `size_t`. -/
def numsectors (offset length : Nat) : Nat :=
  let endoffset := (offset + length + 0xFFFFFFFF) % 0x100000000
  let start := offset / blsEraseSectorSize * blsEraseSectorSize
  (endoffset + 0x100000000 - start + blsEraseSectorSize - 1) % 0x100000000 / blsEraseSectorSize

def extFlashErase (offset length : Nat) : DriverCall :=
  eraseSectors (numsectors offset length) (offset / blsEraseSectorSize * blsEraseSectorSize)

/-- One pass of the loop of `ext_flash_write`; command and data are two exchanges. -/
def programPage (offset : Nat) (data : List Byte) : DriverCall :=
  waitReady.andThen <| writeEnable.andThen <| transfer.andThen <| transfer.andThen <|
    act (NorFlash.program (address24 offset) data)

/-- `ilen`: what is left of the data, at most to the end of the 256-byte page, so
that the chip never wraps around inside the page. -/
def ilen (offset length : Nat) : Nat := min length (256 - offset % 256)

/-- The loop of `ext_flash_write`, with as much fuel as there are bytes. -/
def programPages : Nat → Nat → List Byte → DriverCall
  | 0, _, _ => fun flash => (true, flash)
  | fuel + 1, offset, data =>
      if data.length > 0 then
        (programPage offset (data.take (ilen offset data.length))).andThen
          (programPages fuel (offset + ilen offset data.length)
            (data.drop (ilen offset data.length)))
      else fun flash => (true, flash)

def extFlashWrite (offset : Nat) (data : List Byte) : DriverCall :=
  programPages data.length offset data

theorem transfer_performs : transfer.Performs id Eq := by
  rintro ⟨memory, _ | ⟨_ | _, outcomes⟩⟩ next <;> constructor <;> rintro ⟨⟩ <;> simp

/-- The chip itself never fails. -/
theorem act_performs (command : (Nat → Byte) → Nat → Byte)
    (Partial : (Nat → Byte) → (Nat → Byte) → Prop) : (act command).Performs command Partial := by
  intro flash next
  constructor <;> rintro ⟨⟩
  exact ⟨rfl, Nat.le_refl _⟩

/-- A call before which an exchange has to succeed. -/
theorem transfer_andThen {call : DriverCall} {command : (Nat → Byte) → Nat → Byte}
    {Partial : (Nat → Byte) → (Nat → Byte) → Prop} (h : call.Performs command Partial)
    (hRefl : ∀ m, Partial m m) : (transfer.andThen call).Performs command Partial :=
  transfer_performs.andThen h (fun m _ hEq => hEq ▸ hRefl m) (fun _ _ hPartial => hPartial)

/-- An erase command reaches the chip or changes nothing. -/
theorem eraseSector_performs (offset : Nat) :
    (eraseSector offset).Performs (NorFlash.erase blsCodeErase512K (address24 offset)) Eq :=
  transfer_andThen (transfer_andThen (transfer_andThen (act_performs _ _) fun _ => rfl)
    fun _ => rfl) fun _ => rfl

theorem programPage_performs (offset : Nat) (data : List Byte) :
    (programPage offset data).Performs (NorFlash.program (address24 offset) data) Eq :=
  transfer_andThen (transfer_andThen (transfer_andThen (transfer_andThen (act_performs _ _)
    fun _ => rfl) fun _ => rfl) fun _ => rfl) fun _ => rfl

/-- One aligned sector is one erase command. -/
theorem extFlashErase_sector {sector : Nat} (h : sector < 4096) :
    (extFlashErase (sector * 4096) 4096).Performs
      (NorFlash.erase blsCodeErase512K (sector * 4096)) Eq := by
  have hCount : numsectors (sector * 4096) 4096 = 1 := by
    simp only [numsectors, blsEraseSectorSize]
    omega
  have hStart : sector * 4096 / blsEraseSectorSize * blsEraseSectorSize = sector * 4096 := by
    simp only [blsEraseSectorSize]
    omega
  have hAddress : address24 (sector * 4096) = sector * 4096 := by
    unfold address24
    omega
  have hSector := eraseSector_performs (sector * 4096)
  rw [hAddress] at hSector
  rw [extFlashErase, hCount, hStart]
  exact hSector.andThen (act_performs id fun _ _ => False) (fun _ _ h => h) (fun _ _ h => h.elim)

/-- A write that stays below the end of the address space programs its data; one
that fails has programmed some first part of them. -/
theorem programPages_performs {fuel offset : Nat} {data : List Byte} (hFuel : data.length ≤ fuel)
    (hEnd : offset + data.length ≤ 0x1000000) :
    (programPages fuel offset data).Performs (NorFlash.program offset data)
      (fun m m' => ∃ k, m' = NorFlash.program offset (data.take k) m) := by
  induction fuel generalizing offset data with
  | zero =>
      obtain rfl := List.eq_nil_of_length_eq_zero (Nat.le_zero.mp hFuel)
      intro flash next
      constructor <;> rintro ⟨⟩
      exact ⟨NorFlash.program_nil.symm, Nat.le_refl _⟩
  | succ fuel ih =>
      rw [programPages]
      split_ifs with hMore
      · have hPos : 0 < ilen offset data.length := by
          unfold ilen
          omega
        have hLe : ilen offset data.length ≤ data.length := Nat.min_le_left ..
        have hTake : (data.take (ilen offset data.length)).length = ilen offset data.length := by
          rw [List.length_take]
          omega
        have hDrop : (data.drop (ilen offset data.length)).length =
            data.length - ilen offset data.length := List.length_drop ..
        have hAddress : address24 offset = offset := by
          unfold address24
          omega
        have hPage := programPage_performs offset (data.take (ilen offset data.length))
        have hRest := ih (by omega : (data.drop (ilen offset data.length)).length ≤ fuel)
          (by omega : offset + ilen offset data.length + _ ≤ 0x1000000)
        rw [hAddress] at hPage
        have hJoin (k : Nat) (m : Nat → Byte) :
            NorFlash.program (offset + ilen offset data.length)
              ((data.drop (ilen offset data.length)).take k)
              (NorFlash.program offset (data.take (ilen offset data.length)) m) =
            NorFlash.program offset (data.take (ilen offset data.length + k)) m := by
          have hAppend := NorFlash.program_append offset m
            (data.take (ilen offset data.length)) ((data.drop (ilen offset data.length)).take k)
          rwa [hTake, ← List.take_add] at hAppend
        have hBoth := hPage.andThen hRest (fun m m' h => show
            ∃ k, m' = NorFlash.program offset (data.take k) m from
              ⟨0, by rw [List.take_zero, NorFlash.program_nil, h]⟩)
          (fun m m' ⟨k, h⟩ => ⟨ilen offset data.length + k, h.trans (hJoin k m)⟩)
        intro flash next
        refine ⟨fun h => ?_, (hBoth flash next).2⟩
        obtain ⟨hMemory, hOutcomes⟩ := (hBoth flash next).1 h
        refine ⟨hMemory.trans ?_, hOutcomes⟩
        have hAll := hJoin data.length flash.memory
        have hDropAll : (data.drop (ilen offset data.length)).take data.length =
            data.drop (ilen offset data.length) := List.take_of_length_le (by omega)
        have hTakeAll : data.take (ilen offset data.length + data.length) = data :=
          List.take_of_length_le (by omega)
        rwa [hDropAll, hTakeAll] at hAll
      · obtain rfl := List.eq_nil_of_length_eq_zero (by omega : data.length = 0)
        intro flash next
        constructor <;> rintro ⟨⟩
        exact ⟨NorFlash.program_nil.symm, Nat.le_refl _⟩

theorem extFlashWrite_performs {offset : Nat} {data : List Byte}
    (hEnd : offset + data.length ≤ 0x1000000) :
    (extFlashWrite offset data).Performs (NorFlash.program offset data)
      (fun m m' => ∃ k, m' = NorFlash.program offset (data.take k) m) :=
  programPages_performs (Nat.le_refl _) hEnd

end ExtFlash
end Smarthome
