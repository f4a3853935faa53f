import Smarthome.Flash.ExternalFlash

/-! What the driver of the external flash sends over the bus, byte for byte, and what the chip
makes of it. A program command that reaches the end of a 256-byte page goes on at its start. -/
namespace Smarthome.FlashBus

open Semantics
open Node (memoryByte)

@[simp] def blsCodeProgram : Byte := 0x02
@[simp] def blsCodeReadStatus : Byte := 0x05
@[simp] def blsCodeWriteEnable : Byte := 0x06
@[simp] def blsCodeSectorErase : Byte := 0xD8

@[simp] def blsProgramPageSize : Nat := 256

/-- What has been sent, one frame for each time that the chip was selected, and the results of
the exchanges to come; as for the chip, a list that has run out stands for success. -/
structure Bus where
  frames : List (List Byte)
  outcomes : List Bool

abbrev BusCall := Bus → Bool × Bus

/-- Two calls in a row with the early return of the driver. -/
def BusCall.andThen (first second : BusCall) : BusCall := fun bus =>
  match first bus with
  | (true, bus) => second bus
  | (false, bus) => (false, bus)

/-- A frame of one `board_spi_write`. A failed one has sent nothing. -/
def send (frame : List Byte) : BusCall := fun bus =>
  (bus.outcomes.headD true,
    ⟨if bus.outcomes.headD true then bus.frames ++ [frame] else bus.frames, bus.outcomes.tail⟩)

/-- More bytes in the frame that has been begun. -/
def sendMore (bytes : List Byte) : BusCall := fun bus =>
  (bus.outcomes.headD true,
    ⟨if bus.outcomes.headD true then
      bus.frames.dropLast ++ [bus.frames.getLastD [] ++ bytes] else bus.frames,
      bus.outcomes.tail⟩)

/-- `wait_ready`; its reads of the status register share the outcome of the command. -/
def waitReady : BusCall := send [blsCodeReadStatus]

def writeEnable : BusCall := send [blsCodeWriteEnable]

/-- `wbuf`: a command and the three bytes of its address. -/
def wbuf (code : Byte) (offset : Nat) : List Byte :=
  [code, memoryByte offset 2, memoryByte offset 1, memoryByte offset 0]

/-- One pass of the loop of `ext_flash_write`, with `ilen` bytes from `buf` on. -/
def programPage (source : Nat → Byte) (offset buf ilen : Nat) : BusCall :=
  waitReady.andThen <| writeEnable.andThen <|
    (send (wbuf blsCodeProgram offset)).andThen (sendMore (NorFlash.slice source buf ilen))

/-- `ilen`: to the end of the page, or less. -/
def ilen (offset length : Nat) : Nat :=
  let ilen := blsProgramPageSize - offset % blsProgramPageSize
  if length < ilen then length else ilen

/-- `while(length > 0)`; `none` when the fuel does not last. -/
def programPages (source : Nat → Byte) : Nat → Nat → Nat → Nat → Bus → Option (Bool × Bus)
  | 0, _, _, _, _ => none
  | fuel + 1, offset, length, buf, bus =>
      if length > 0 then
        let n := ilen offset length
        match programPage source offset buf n bus with
        | (true, bus) =>
            programPages source fuel ((offset + n) % 0x100000000) (length - n) (buf + n) bus
        | (false, bus) => some (false, bus)
      else some (true, bus)

/-- `ext_flash_write` of the bytes of a buffer. -/
def extFlashWrite (source : Nat → Byte) (offset length : Nat) (bus : Bus) : Option (Bool × Bus) :=
  programPages source (length + 1) offset length 0 bus

/-- One pass of the loop of `ext_flash_erase`. -/
def eraseSector (offset : Nat) : BusCall :=
  waitReady.andThen <| writeEnable.andThen <| send (wbuf blsCodeSectorErase offset)

/-- `for(i = 0; i < numsectors; i++)`. -/
def eraseSectors : Nat → Nat → BusCall
  | 0, _ => fun bus => (true, bus)
  | numsectors + 1, offset =>
      (eraseSector offset).andThen
        (eraseSectors numsectors ((offset + ExtFlash.blsEraseSectorSize) % 0x100000000))

def extFlashErase (offset length : Nat) : BusCall :=
  eraseSectors (ExtFlash.numsectors offset length)
    (offset / ExtFlash.blsEraseSectorSize * ExtFlash.blsEraseSectorSize)

section Chip

/-- An address from its three bytes. -/
def frameAddress (high middle low : Byte) : Nat := u16 low middle + 65536 * high.toNat

/-- The cells that a program command writes, and with what. -/
def programCells (address : Nat) (data : List Byte) : List (Nat × Byte) :=
  data.mapIdx fun j b => (address / blsProgramPageSize * blsProgramPageSize +
    (address % blsProgramPageSize + j) % blsProgramPageSize, b)

/-- The cells that a frame writes. -/
def frameCells : List Byte → List (Nat × Byte)
  | code :: high :: middle :: low :: data =>
      if code = blsCodeProgram then programCells (frameAddress high middle low) data else []
  | _ => []

/-- The address of a frame that erases. -/
def eraseAddress : List Byte → Option Nat
  | code :: high :: middle :: low :: _ =>
      if code = blsCodeSectorErase then some (frameAddress high middle low) else none
  | _ => none

/-- A program command that does not end in the page in which it begins. -/
def CrossesPage : List Byte → Prop
  | code :: _ :: _ :: low :: data =>
      code = blsCodeProgram ∧ blsProgramPageSize < low.toNat + data.length
  | _ => False

/-- The memory, and the latch that a write enable command sets and any change resets. -/
structure Chip where
  memory : Nat → Byte
  writeEnabled : Bool

/-- Programming clears bits, cell by cell. -/
def programCell (memory : Nat → Byte) (cell : Nat × Byte) : Nat → Byte :=
  Function.update memory cell.1 (memory cell.1 &&& cell.2)

/-- The chip at the end of a frame. -/
def receive (chip : Chip) (frame : List Byte) : Chip :=
  match eraseAddress frame with
  | some address =>
      if chip.writeEnabled then
        ⟨NorFlash.erase ExtFlash.blsCodeErase512K address chip.memory, false⟩
      else chip
  | none =>
      if frame = [blsCodeWriteEnable] then { chip with writeEnabled := true }
      else if frame.head? = some blsCodeProgram ∧ chip.writeEnabled = true then
        ⟨(frameCells frame).foldl programCell chip.memory, false⟩
      else chip

end Chip

section Bytes

theorem frameAddress_memoryByte (offset : Nat) :
    frameAddress (memoryByte offset 2) (memoryByte offset 1) (memoryByte offset 0) =
      ExtFlash.address24 offset := by
  simp only [frameAddress, u16, memoryByte, UInt8.toNat_ofNat', ExtFlash.address24]
  omega

/-- A program command that ends in its page writes consecutive cells. -/
theorem programCells_of_inside {address : Nat} {data : List Byte}
    (h : address % 256 + data.length ≤ 256) :
    programCells address data = data.mapIdx fun j b => (address + j, b) := by
  refine List.ext_getElem (by simp [programCells]) fun j hj hj' => ?_
  rw [List.length_mapIdx] at hj'
  have hAddress : address / 256 * 256 + (address % 256 + j) % 256 = address + j := by omega
  simp only [programCells, List.getElem_mapIdx, blsProgramPageSize, hAddress]

theorem foldl_programCell (address : Nat) (data : List Byte) (memory : Nat → Byte) :
    (data.mapIdx fun j b => (address + j, b)).foldl programCell memory =
      NorFlash.program address data memory := by
  induction data generalizing address memory with
  | nil => exact NorFlash.program_nil.symm
  | cons b data ih =>
      have hFirst : programCell memory (address, b) = NorFlash.program address [b] memory := by
        funext a
        rcases Nat.lt_trichotomy a address with hBelow | rfl | hAbove
        · rw [programCell, Function.update_of_ne (Nat.ne_of_lt hBelow),
            NorFlash.program_below hBelow]
        · rw [programCell, Function.update_self]
          simp [NorFlash.program, merge_byte]
        · rw [programCell, Function.update_of_ne (Nat.ne_of_gt hAbove),
            NorFlash.program_above (show address + 1 ≤ a from hAbove)]
      have hLater : (data.mapIdx fun j c => (address + (j + 1), c)) =
          data.mapIdx fun j c => (address + 1 + j, c) := by
        refine congrArg (fun f => data.mapIdx f) ?_
        funext j c
        rw [Nat.add_assoc, Nat.add_comm 1 j]
      rw [List.mapIdx_cons, List.foldl_cons, hLater, ih, Nat.add_zero address, hFirst]
      exact NorFlash.program_append address memory [b] data

end Bytes

end Smarthome.FlashBus
