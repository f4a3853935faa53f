import Smarthome.Flash.Bus

/-! What the driver sends over the bus is what the model of the driver does to the chip at once:
each call on the bus simulates one there, also where exchanges fail. -/
namespace Smarthome.FlashBus

open Semantics

/-- The chip after some frames. -/
def replay (start : Nat → Byte) (frames : List (List Byte)) : Chip :=
  frames.foldl receive ⟨start, false⟩

theorem replay_append (start : Nat → Byte) (frames : List (List Byte)) (frame : List Byte) :
    replay start (frames ++ [frame]) = receive (replay start frames) frame := by
  rw [replay, List.foldl_append]
  rfl

variable {start : Nat → Byte}

/-- What has been sent has brought the chip to this memory, and the outcomes to come agree. -/
structure Corresponds (start : Nat → Byte) (bus : Bus) (flash : ExtFlash) : Prop where
  memory : (replay start bus.frames).memory = flash.memory
  outcomes : bus.outcomes = flash.outcomes

/-- A call on the bus does what a call of the driver does to the memory, from buses with a
property, and gives them another one if it succeeds. -/
def Simulates (start : Nat → Byte) (Pre Post : Bus → Prop) (call : BusCall) (driver : DriverCall) :
    Prop :=
  ∀ bus flash, Corresponds start bus flash → Pre bus →
    (call bus).1 = (driver flash).1 ∧ Corresponds start (call bus).2 (driver flash).2 ∧
      ((call bus).1 = true → Post (call bus).2)

theorem Simulates.andThen {Pre Middle Post : Bus → Prop} {first second : BusCall}
    {firstDriver secondDriver : DriverCall} (hFirst : Simulates start Pre Middle first firstDriver)
    (hSecond : Simulates start Middle Post second secondDriver) :
    Simulates start Pre Post (first.andThen second) (firstDriver.andThen secondDriver) := by
  intro bus flash hCorresponds hPre
  obtain ⟨hResult, hMiddle, hPost⟩ := hFirst bus flash hCorresponds hPre
  unfold BusCall.andThen DriverCall.andThen
  rcases hBus : first bus with ⟨_ | _, middle⟩
  · rcases hDriver : firstDriver flash with ⟨result, flash'⟩
    rw [hBus, hDriver] at hResult hMiddle
    obtain rfl : false = result := hResult
    exact ⟨rfl, hMiddle, by simp⟩
  · rcases hDriver : firstDriver flash with ⟨result, flash'⟩
    rw [hBus, hDriver] at hResult hMiddle
    rw [hBus] at hPost
    obtain rfl : true = result := hResult
    exact hSecond middle flash' hMiddle (hPost rfl)

/-- The driver of the chip on one exchange. -/
theorem transfer_eq (flash : ExtFlash) : ExtFlash.transfer flash =
    (flash.outcomes.headD true, ⟨flash.memory, flash.outcomes.tail⟩) := by
  obtain ⟨memory, _ | ⟨outcome, outcomes⟩⟩ := flash
  · rfl
  · rfl

/-- A frame that leaves the memory alone. -/
theorem send_simulates {frame : List Byte} {Pre Post : Bus → Prop}
    (hMemory : ∀ bus, Pre bus → (receive (replay start bus.frames) frame).memory =
      (replay start bus.frames).memory)
    (hPost : ∀ bus, Pre bus → Post ⟨bus.frames ++ [frame], bus.outcomes.tail⟩) :
    Simulates start Pre Post (send frame) ExtFlash.transfer := by
  intro bus flash hCorresponds hPre
  rw [transfer_eq, send, hCorresponds.outcomes]
  have hPostBus := hPost bus hPre
  rw [hCorresponds.outcomes] at hPostBus
  cases flash.outcomes.headD true with
  | false => exact ⟨rfl, ⟨hCorresponds.memory, rfl⟩, by simp⟩
  | true =>
      refine ⟨rfl, ⟨?_, rfl⟩, fun _ => hPostBus⟩
      show (replay start (bus.frames ++ [frame])).memory = flash.memory
      rw [replay_append, hMemory bus hPre, hCorresponds.memory]

/-- An exchange with which the chip gets something to do. -/
theorem transfer_andThen_act (command : (Nat → Byte) → Nat → Byte) (flash : ExtFlash) :
    (ExtFlash.transfer.andThen (ExtFlash.act command)) flash = (flash.outcomes.headD true,
      ⟨if flash.outcomes.headD true then command flash.memory else flash.memory,
        flash.outcomes.tail⟩) := by
  rw [DriverCall.andThen, transfer_eq]
  cases flash.outcomes.headD true with
  | false => rfl
  | true => rfl

/-- The chip accepts a command that changes the memory. -/
def Enabled (start : Nat → Byte) (bus : Bus) : Prop :=
  (replay start bus.frames).writeEnabled = true

theorem waitReady_simulates :
    Simulates start (fun _ => True) (fun _ => True) waitReady ExtFlash.waitReady :=
  send_simulates (fun _ _ => rfl) fun _ _ => trivial

theorem writeEnable_simulates :
    Simulates start (fun _ => True) (Enabled start) writeEnable ExtFlash.writeEnable := by
  refine send_simulates (fun _ _ => rfl) fun bus _ => ?_
  rw [Enabled, replay_append]
  rfl

theorem receive_erase (chip : Chip) (offset : Nat) (h : chip.writeEnabled = true) :
    (receive chip (wbuf blsCodeSectorErase offset)).memory =
      NorFlash.erase ExtFlash.blsCodeErase512K (ExtFlash.address24 offset) chip.memory := by
  have hAddress : eraseAddress (wbuf blsCodeSectorErase offset) =
      some (ExtFlash.address24 offset) := congrArg some (frameAddress_memoryByte offset)
  rw [receive, hAddress]
  simp only [if_pos h]

/-- One pass of the loop of `ext_flash_erase` on the bus is one of the driver on the chip. -/
theorem eraseSector_simulates (offset : Nat) : Simulates start (fun _ => True) (fun _ => True)
    (eraseSector offset) (ExtFlash.eraseSector offset) := by
  refine waitReady_simulates.andThen (writeEnable_simulates.andThen ?_)
  intro bus flash hCorresponds hEnabled
  rw [transfer_andThen_act, send, hCorresponds.outcomes]
  cases flash.outcomes.headD true with
  | false => exact ⟨rfl, ⟨hCorresponds.memory, rfl⟩, by simp⟩
  | true =>
      refine ⟨rfl, ⟨?_, rfl⟩, fun _ => trivial⟩
      show (replay start (bus.frames ++ [wbuf blsCodeSectorErase offset])).memory = _
      rw [replay_append, receive_erase _ offset hEnabled, hCorresponds.memory]
      rfl

/-- A program command with its data, in one page. -/
theorem receive_program (chip : Chip) {offset : Nat} {data : List Byte}
    (h : chip.writeEnabled = true) (hPage : offset % 256 + data.length ≤ 256) :
    (receive chip (wbuf blsCodeProgram offset ++ data)).memory =
      NorFlash.program (ExtFlash.address24 offset) data chip.memory := by
  have hErase : eraseAddress (wbuf blsCodeProgram offset ++ data) = none := rfl
  have hCells : frameCells (wbuf blsCodeProgram offset ++ data) =
      programCells (ExtFlash.address24 offset) data := by
    rw [← frameAddress_memoryByte]
    rfl
  have hNot : wbuf blsCodeProgram offset ++ data ≠ [blsCodeWriteEnable] := by simp [wbuf]
  have hCommand : (wbuf blsCodeProgram offset ++ data).head? = some blsCodeProgram ∧
      chip.writeEnabled = true := ⟨rfl, h⟩
  have hInside : ExtFlash.address24 offset % 256 + data.length ≤ 256 := by
    unfold ExtFlash.address24
    omega
  rw [receive, hErase]
  simp only [if_neg hNot, if_pos hCommand, hCells, programCells_of_inside hInside,
    foldl_programCell]

/-- The command without data. -/
theorem receive_header (chip : Chip) (offset : Nat) (h : chip.writeEnabled = true) :
    (receive chip (wbuf blsCodeProgram offset)).memory = chip.memory := by
  have hNothing : (receive chip (wbuf blsCodeProgram offset ++ [])).memory =
      NorFlash.program (ExtFlash.address24 offset) [] chip.memory :=
    receive_program chip h (by rw [List.length_nil]; omega)
  rwa [List.append_nil, NorFlash.program_nil] at hNothing

/-- One pass of the loop of `ext_flash_write`. -/
theorem programPage_simulates (source : Nat → Byte) {offset buf n : Nat}
    (hPage : offset % 256 + n ≤ 256) : Simulates start (fun _ => True) (fun _ => True)
      (programPage source offset buf n)
      (ExtFlash.programPage offset (NorFlash.slice source buf n)) := by
  refine waitReady_simulates.andThen (writeEnable_simulates.andThen ?_)
  have hHeader : Simulates start (Enabled start)
      (fun bus => ∃ frames, bus.frames = frames ++ [wbuf blsCodeProgram offset] ∧
        (replay start frames).writeEnabled = true)
      (send (wbuf blsCodeProgram offset)) ExtFlash.transfer := by
    exact send_simulates (fun _ hEnabled => receive_header _ offset hEnabled)
      fun bus hEnabled => ⟨bus.frames, rfl, hEnabled⟩
  refine hHeader.andThen ?_
  rintro bus flash hCorresponds ⟨frames, hFrames, hEnabled⟩
  rw [transfer_andThen_act, sendMore, hCorresponds.outcomes]
  cases flash.outcomes.headD true with
  | false => exact ⟨rfl, ⟨hCorresponds.memory, rfl⟩, by simp⟩
  | true =>
      have hBefore : (replay start frames).memory = flash.memory := by
        have hHeaderOnly := hCorresponds.memory
        rwa [hFrames, replay_append, receive_header _ offset hEnabled] at hHeaderOnly
      refine ⟨rfl, ⟨?_, rfl⟩, fun _ => trivial⟩
      have hMore : bus.frames.dropLast ++ [bus.frames.getLastD [] ++ NorFlash.slice source buf n] =
          frames ++ [wbuf blsCodeProgram offset ++ NorFlash.slice source buf n] := by
        rw [hFrames]
        simp
      show (replay start (bus.frames.dropLast ++
        [bus.frames.getLastD [] ++ NorFlash.slice source buf n])).memory = _
      rw [hMore, replay_append, receive_program _ hEnabled (by rwa [NorFlash.slice_length]), hBefore]
      rfl

theorem ilen_eq (offset length : Nat) : ilen offset length = ExtFlash.ilen offset length := by
  by_cases h : length < 256 - offset % 256
  · exact (if_pos h).trans (Nat.min_eq_left (Nat.le_of_lt h)).symm
  · exact (if_neg h).trans (Nat.min_eq_right (Nat.le_of_not_lt h)).symm

/-- A pass takes some of what is left, and not more than the page has. -/
theorem ilen_spec (offset : Nat) {length : Nat} (h : 0 < length) : 0 < ilen offset length ∧
    ilen offset length ≤ length ∧ offset % 256 + ilen offset length ≤ 256 := by
  rw [ilen_eq, ExtFlash.ilen]
  omega

section Passes

variable {source : Nat → Byte} {fuel offset length buf : Nat} {bus next : Bus}

theorem programPages_failed (hMore : 0 < length)
    (h : programPage source offset buf (ilen offset length) bus = (false, next)) :
    programPages source (fuel + 1) offset length buf bus = some (false, next) := by
  rw [programPages, if_pos hMore]
  simp only [h]

theorem programPages_passed (hMore : 0 < length) (hEnd : offset + length ≤ 0x1000000)
    (h : programPage source offset buf (ilen offset length) bus = (true, next)) :
    programPages source (fuel + 1) offset length buf bus =
      programPages source fuel (offset + ilen offset length) (length - ilen offset length)
        (buf + ilen offset length) next := by
  have hLe := (ilen_spec offset hMore).2.1
  have hNext : (offset + ilen offset length) % 0x100000000 = offset + ilen offset length :=
    Nat.mod_eq_of_lt (by omega)
  rw [programPages, if_pos hMore]
  simp only [h, hNext]

theorem programPages_done (fuel : Nat) (h : length = 0) :
    programPages source (fuel + 1) offset length buf bus = some (true, bus) := by
  rw [programPages, if_neg (by omega)]

end Passes

/-- The whole loop, with any outcomes of the exchanges: it comes to an end, and does to the
memory what the driver on the chip does. -/
theorem programPages_simulates (source : Nat → Byte) {fuel driverFuel offset length : Nat}
    (buf : Nat) (hFuel : length < fuel) (hDriver : length ≤ driverFuel)
    (hEnd : offset + length ≤ 0x1000000) {bus : Bus} {flash : ExtFlash}
    (hCorresponds : Corresponds start bus flash) :
    ∃ result, programPages source fuel offset length buf bus = some result ∧
      result.1 = (ExtFlash.programPages driverFuel offset (NorFlash.slice source buf length) flash).1 ∧
      Corresponds start result.2
        (ExtFlash.programPages driverFuel offset (NorFlash.slice source buf length) flash).2 := by
  induction fuel generalizing driverFuel offset length buf bus flash with
  | zero => exact absurd hFuel (Nat.not_lt_zero _)
  | succ fuel ih =>
      rcases Nat.eq_zero_or_pos length with hDone | hMore
      · refine ⟨_, programPages_done fuel hDone, ?_⟩
        cases driverFuel with
        | zero => exact ⟨rfl, hCorresponds⟩
        | succ driverFuel =>
            rw [ExtFlash.programPages, NorFlash.slice_length, if_neg (by omega)]
            exact ⟨rfl, hCorresponds⟩
      obtain ⟨driverFuel, rfl⟩ : ∃ n, driverFuel = n + 1 := ⟨driverFuel - 1, by omega⟩
      obtain ⟨hPos, hLe, hPage⟩ := ilen_spec offset hMore
      rw [ExtFlash.programPages, NorFlash.slice_length, if_pos hMore, ← ilen_eq,
        NorFlash.slice_take _ _ hLe, NorFlash.slice_drop _ _ hLe]
      obtain ⟨hResult, hMiddle, -⟩ :=
        programPage_simulates source hPage bus flash hCorresponds trivial
      unfold DriverCall.andThen
      rcases hFlash : ExtFlash.programPage offset
        (NorFlash.slice source buf (ilen offset length)) flash with ⟨ok, flash'⟩
      rcases hBus : programPage source offset buf (ilen offset length) bus with ⟨_ | _, middle⟩
      · rw [hBus, hFlash] at hResult hMiddle
        obtain rfl : false = ok := hResult
        exact ⟨_, programPages_failed hMore hBus, rfl, hMiddle⟩
      · rw [hBus, hFlash] at hResult hMiddle
        obtain rfl : true = ok := hResult
        rw [programPages_passed hMore hEnd hBus]
        exact ih (buf + ilen offset length) (by omega) (by omega) (by omega) hMiddle

/-- `ext_flash_write` on the bus is the driver on the chip that the frames reach. -/
theorem extFlashWrite_simulates (source memory : Nat → Byte) {offset length : Nat}
    (outcomes : List Bool) (hEnd : offset + length ≤ 0x1000000) :
    ∃ result, extFlashWrite source offset length ⟨[], outcomes⟩ = some result ∧
      ExtFlash.extFlashWrite offset (NorFlash.slice source 0 length) ⟨memory, outcomes⟩ =
        (result.1, ⟨(replay memory result.2.frames).memory, result.2.outcomes⟩) := by
  have hStart : Corresponds memory ⟨[], outcomes⟩ ⟨memory, outcomes⟩ := ⟨rfl, rfl⟩
  obtain ⟨result, hResult, hOk, hAfter⟩ := programPages_simulates source 0
    (Nat.lt_succ_self length) (Nat.le_refl length) hEnd hStart
  refine ⟨result, hResult, ?_⟩
  rw [ExtFlash.extFlashWrite, NorFlash.slice_length, hOk, hAfter.memory, hAfter.outcomes]

/-- The loop over the sectors. -/
theorem eraseSectors_simulates {numsectors offset : Nat}
    (hEnd : offset + numsectors * 0x1000 < 0x100000000) :
    Simulates start (fun _ => True) (fun _ => True) (eraseSectors numsectors offset)
      (ExtFlash.eraseSectors numsectors offset) := by
  induction numsectors generalizing offset with
  | zero => exact fun bus flash h _ => ⟨rfl, h, fun _ => trivial⟩
  | succ numsectors ih =>
      have hNext : (offset + ExtFlash.blsEraseSectorSize) % 0x100000000 =
          offset + ExtFlash.blsEraseSectorSize := by
        simp only [ExtFlash.blsEraseSectorSize]
        omega
      rw [eraseSectors, ExtFlash.eraseSectors, hNext]
      refine (eraseSector_simulates offset).andThen (ih ?_)
      simp only [ExtFlash.blsEraseSectorSize]
      omega

end Smarthome.FlashBus
