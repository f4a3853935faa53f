import Smarthome.Flash.BusSimulation

/-! The commands of a write and of an erase that succeed: which cells are written, and which
sectors are erased. -/
namespace Smarthome.FlashBus

open Semantics
open Node (memoryByte)

section Sends

/-- All exchanges to come succeed. -/
def Works (bus : Bus) : Prop := ∀ outcome ∈ bus.outcomes, outcome = true

variable {bus middle : Bus}

theorem Works.head (h : Works bus) : bus.outcomes.headD true = true := by
  unfold Works at h
  cases hOutcomes : bus.outcomes with
  | nil => rfl
  | cons outcome outcomes => exact h outcome (by rw [hOutcomes]; exact List.mem_cons_self)

theorem Works.tail (h : Works bus) (frames : List (List Byte)) :
    Works ⟨frames, bus.outcomes.tail⟩ :=
  fun outcome hMem => h outcome (List.mem_of_mem_tail hMem)

/-- Where all exchanges succeed, a call does so too and sends these frames. -/
def Sends (call : BusCall) (frames : List (List Byte)) : Prop :=
  ∀ bus, Works bus → ∃ next, call bus = (true, next) ∧ Works next ∧ next.frames = bus.frames ++ frames

theorem Sends.andThen {first second : BusCall} {frames more : List (List Byte)}
    (hFirst : Sends first frames) (hSecond : Sends second more) :
    Sends (first.andThen second) (frames ++ more) := by
  intro bus hWorks
  obtain ⟨middle, hRun, hMiddle, hFrames⟩ := hFirst bus hWorks
  obtain ⟨next, hNext, hAfter, hMore⟩ := hSecond middle hMiddle
  refine ⟨next, ?_, hAfter, ?_⟩
  · rw [BusCall.andThen, hRun]
    exact hNext
  · rw [hMore, hFrames, List.append_assoc]

theorem send_sends (frame : List Byte) : Sends (send frame) [frame] := by
  intro bus hWorks
  refine ⟨⟨bus.frames ++ [frame], bus.outcomes.tail⟩, ?_, hWorks.tail _, rfl⟩
  rw [send, hWorks.head]
  rfl

/-- A command and its data make one frame. -/
theorem sendMore_sends (frame bytes : List Byte) :
    Sends ((send frame).andThen (sendMore bytes)) [frame ++ bytes] := by
  intro bus hWorks
  have hMiddle := hWorks.tail (bus.frames ++ [frame])
  refine ⟨⟨bus.frames ++ [frame ++ bytes], bus.outcomes.tail.tail⟩, ?_, hMiddle.tail _, rfl⟩
  have hHead := hMiddle.head
  simp only at hHead
  rw [BusCall.andThen, send, hWorks.head]
  simp only [if_true, sendMore, hHead, List.dropLast_concat, List.getLastD_concat]

/-- The frames before a command that changes the memory. -/
def enableFrames : List (List Byte) := [[blsCodeReadStatus], [blsCodeWriteEnable]]

theorem programPage_sends (source : Nat → Byte) (offset buf n : Nat) :
    Sends (programPage source offset buf n)
      (enableFrames ++ [wbuf blsCodeProgram offset ++ NorFlash.slice source buf n]) :=
  (send_sends _).andThen ((send_sends _).andThen (sendMore_sends _ _))

theorem eraseSector_sends (offset : Nat) :
    Sends (eraseSector offset) (enableFrames ++ [wbuf blsCodeSectorErase offset]) :=
  (send_sends _).andThen ((send_sends _).andThen (send_sends _))

/-- A page that is programmed from an address on does not end behind its last byte. -/
theorem not_crossesPage {offset : Nat} {data : List Byte} (h : offset % 256 + data.length ≤ 256) :
    ¬ CrossesPage (wbuf blsCodeProgram offset ++ data) := by
  intro hCrosses
  have hEnd : 256 < (memoryByte offset 0).toNat + data.length := hCrosses.2
  have hLow : (memoryByte offset 0).toNat = offset % 256 := by
    simp [memoryByte]
  omega

/-- The cells of a range, in order, and what a buffer has for them. -/
def rangeCells (source : Nat → Byte) (offset length buf : Nat) : List (Nat × Byte) :=
  (List.range length).map fun i => (offset + i, source (buf + i))

theorem rangeCells_add (source : Nat → Byte) (offset first second buf : Nat) :
    rangeCells source offset (first + second) buf =
      rangeCells source offset first buf ++
        rangeCells source (offset + first) second (buf + first) := by
  rw [rangeCells, List.range_add, List.map_append, List.map_map]
  refine congrArg (_ ++ ·) (List.map_congr_left fun i _ => ?_)
  simp only [Function.comp_apply, Nat.add_assoc]

/-- A page writes the cells of its part of the range. -/
theorem frameCells_page (source : Nat → Byte) {offset buf n : Nat} (hPage : offset % 256 + n ≤ 256)
    (hEnd : offset < 0x1000000) :
    frameCells (wbuf blsCodeProgram offset ++ NorFlash.slice source buf n) =
      rangeCells source offset n buf := by
  have hAddress : ExtFlash.address24 offset = offset := Nat.mod_eq_of_lt hEnd
  have hCells : frameCells (wbuf blsCodeProgram offset ++ NorFlash.slice source buf n) =
      programCells offset (NorFlash.slice source buf n) := by
    rw [← hAddress, ← frameAddress_memoryByte]
    simp [wbuf, frameCells, frameAddress_memoryByte, hAddress]
  rw [hCells, programCells_of_inside (by rwa [NorFlash.slice_length])]
  refine List.ext_getElem (by simp [rangeCells]) fun j hj hj' => ?_
  simp [rangeCells, NorFlash.slice]

/-- Each pass of the loop takes the next part of the range. -/
theorem programPages_of_works (source : Nat → Byte) {fuel offset length : Nat} (buf : Nat)
    (hFuel : length < fuel) (hEnd : offset + length ≤ 0x1000000) (hWorks : Works bus) :
    ∃ next frames, programPages source fuel offset length buf bus = some (true, next) ∧
      next.frames = bus.frames ++ frames ∧ (∀ frame ∈ frames, ¬ CrossesPage frame) ∧
      frames.flatMap frameCells = rangeCells source offset length buf := by
  induction fuel generalizing offset length buf bus with
  | zero => exact absurd hFuel (Nat.not_lt_zero _)
  | succ fuel ih =>
      rcases Nat.eq_zero_or_pos length with hDone | hMore
      · refine ⟨bus, [], programPages_done fuel hDone, (List.append_nil _).symm, by simp, ?_⟩
        rw [hDone]
        rfl
      obtain ⟨hPos, hLe, hPage⟩ := ilen_spec offset hMore
      obtain ⟨middle, hRun, hMiddle, hFirst⟩ :=
        programPage_sends source offset buf (ilen offset length) bus hWorks
      have hLess : length - ilen offset length < fuel := by omega
      have hEndLater : offset + ilen offset length + (length - ilen offset length) ≤ 0x1000000 := by
        omega
      obtain ⟨next, frames, hRest, hFrames, hInside, hCells⟩ :=
        ih (buf + ilen offset length) hLess hEndLater hMiddle
      refine ⟨next, enableFrames ++ [wbuf blsCodeProgram offset ++
        NorFlash.slice source buf (ilen offset length)] ++ frames, ?_, ?_, ?_, ?_⟩
      · rw [programPages_passed hMore hEnd hRun, hRest]
      · rw [hFrames, hFirst, List.append_assoc]
      · intro frame hFrame
        rcases List.mem_append.mp hFrame with hHere | hLater
        · rcases List.mem_append.mp hHere with hEnable | hProgram
          · simp only [enableFrames, List.mem_cons, List.not_mem_nil, or_false] at hEnable
            rcases hEnable with rfl | rfl
            · exact id
            · exact id
          · rw [List.mem_singleton.mp hProgram]
            exact not_crossesPage (by rwa [NorFlash.slice_length])
        · exact hInside frame hLater
      · have hNone : enableFrames.flatMap frameCells = [] := rfl
        have hWhole : length = ilen offset length + (length - ilen offset length) := by omega
        rw [List.flatMap_append, List.flatMap_append, hNone, List.nil_append,
          List.flatMap_singleton, frameCells_page source hPage (by omega), hCells,
          ← rangeCells_add, ← hWhole]

end Sends

/-- **What `ext_flash_write` programs.** Where all exchanges succeed, it comes to an end with a
success. No command that it has sent crosses the end of a page, and together they write the
bytes of the buffer to the cells of the range, each of them once. In the memory the bits of the
range that are clear in the buffer are cleared, and no others. -/
theorem extFlashWrite_programs (source : Nat → Byte) (offset length : Nat) (outcomes : List Bool)
    (hWorks : ∀ outcome ∈ outcomes, outcome = true) (hEnd : offset + length ≤ 0x1000000) :
    ∃ next, extFlashWrite source offset length ⟨[], outcomes⟩ = some (true, next) ∧
      (∀ frame ∈ next.frames, ¬ CrossesPage frame) ∧
      next.frames.flatMap frameCells =
        (List.range length).map (fun i => (offset + i, source i)) ∧
      ∀ memory a, (replay memory next.frames).memory a =
        if offset ≤ a ∧ a < offset + length then memory a &&& source (a - offset)
        else memory a := by
  have hBus : Works ⟨[], outcomes⟩ := hWorks
  obtain ⟨next, frames, hRun, hFrames, hInside, hCells⟩ :=
    programPages_of_works source 0 (Nat.lt_succ_self length) hEnd hBus
  obtain rfl : next.frames = frames := hFrames
  refine ⟨next, hRun, hInside, ?_, fun memory a => ?_⟩
  · rw [hCells, rangeCells]
    simp only [Nat.zero_add]
  · obtain ⟨result, hResult, hDriver⟩ := extFlashWrite_simulates source memory outcomes hEnd
    obtain rfl : result = (true, next) := Option.some.inj (hResult.symm.trans hRun)
    have hLength : (NorFlash.slice source 0 length).length = length := NorFlash.slice_length ..
    have hMemory := ((ExtFlash.extFlashWrite_performs (by rwa [hLength]) _ _).1 hDriver).1
    simp only at hMemory
    rw [hMemory]
    split_ifs with hRange
    · obtain ⟨i, rfl⟩ := Nat.exists_eq_add_of_le hRange.1
      rw [NorFlash.program_inside (by omega : i < (NorFlash.slice source 0 length).length),
        Nat.add_sub_cancel_left]
      simp [NorFlash.slice, merge_byte]
    · exact NorFlash.program_outside (by omega)

/-- A range from one page into the next. -/
theorem extFlashWrite_programs_two : ∃ next,
    extFlashWrite (fun i => UInt8.ofNat i) 0x190F0 0x20 ⟨[], [true, true]⟩ = some (true, next) ∧
      next.frames.flatMap frameCells =
        (List.range 0x20).map (fun i => (0x190F0 + i, UInt8.ofNat i)) := by
  obtain ⟨next, hRun, -, hCells, -⟩ := extFlashWrite_programs (fun i => UInt8.ofNat i) 0x190F0 0x20
    [true, true] (by decide) (by decide)
  exact ⟨next, hRun, hCells⟩

section Sectors

/-- A sector with a byte of the range. -/
def Intersects (offset length sector : Nat) : Prop :=
  ∃ a, offset ≤ a ∧ a < offset + length ∧ a / ExtFlash.blsEraseSectorSize = sector

/-- A sector that a command among some frames erases. -/
def Erases (frames : List (List Byte)) (sector : Nat) : Prop :=
  ∃ address ∈ frames.filterMap eraseAddress, address / ExtFlash.blsEraseSectorSize = sector

/-- The loop sends one command for each of some consecutive sectors. -/
theorem eraseSectors_sends {numsectors offset : Nat}
    (hEnd : offset + numsectors * 0x1000 ≤ 0x1000000) :
    ∃ frames, Sends (eraseSectors numsectors offset) frames ∧ frames.filterMap eraseAddress =
      (List.range numsectors).map fun i => offset + i * 0x1000 := by
  induction numsectors generalizing offset with
  | zero => exact ⟨[], fun bus h => ⟨bus, rfl, h, (List.append_nil _).symm⟩, rfl⟩
  | succ numsectors ih =>
      have hNext : (offset + ExtFlash.blsEraseSectorSize) % 0x100000000 = offset + 0x1000 := by
        simp only [ExtFlash.blsEraseSectorSize]
        omega
      obtain ⟨frames, hSends, hErased⟩ := ih (by omega : offset + 0x1000 + _ ≤ 0x1000000)
      refine ⟨enableFrames ++ [wbuf blsCodeSectorErase offset] ++ frames, ?_, ?_⟩
      · rw [eraseSectors, hNext]
        exact (eraseSector_sends offset).andThen hSends
      · have hHere : (enableFrames ++ [wbuf blsCodeSectorErase offset]).filterMap eraseAddress =
            [offset] := by
          have hAddress : ExtFlash.address24 offset = offset := Nat.mod_eq_of_lt (by omega)
          refine (congrArg (fun a => [a]) (frameAddress_memoryByte offset)).trans ?_
          rw [hAddress]
        have hLater : (List.range numsectors).map (fun i => offset + 0x1000 + i * 0x1000) =
            (List.range numsectors).map fun i => offset + (i + 1) * 0x1000 :=
          List.map_congr_left fun i _ => by omega
        rw [List.filterMap_append, hHere, hErased, hLater, List.range_succ_eq_map, List.map_cons,
          List.map_map, Nat.zero_mul, Nat.add_zero]
        rfl

/-- From the last byte of a range, which is not its end, the number of sectors is rounded up. -/
theorem numsectors_eq {offset length : Nat} (hPos : 1 ≤ length)
    (hEnd : offset + length ≤ 0x1000000) : ExtFlash.numsectors offset length =
      (offset + length - 1 - offset / 0x1000 * 0x1000 + 0xFFF) / 0x1000 := by
  simp only [ExtFlash.numsectors, ExtFlash.blsEraseSectorSize]
  omega

/-- The sectors that are erased are the first ones of the range, up to that of the byte before
the last one. -/
theorem extFlashErase_erases {offset length : Nat} {outcomes : List Bool}
    (hWorks : ∀ outcome ∈ outcomes, outcome = true) (hPos : 1 ≤ length)
    (hEnd : offset + length ≤ 0x1000000) :
    ∃ next, extFlashErase offset length ⟨[], outcomes⟩ = (true, next) ∧
      ∀ sector, Erases next.frames sector ↔
        offset / 0x1000 ≤ sector ∧ sector < (offset + length - 1 + 0xFFF) / 0x1000 := by
  have hBus : Works ⟨[], outcomes⟩ := hWorks
  have hCount := numsectors_eq hPos hEnd
  obtain ⟨frames, hSends, hErased⟩ := eraseSectors_sends
    (by omega : offset / 0x1000 * 0x1000 + ExtFlash.numsectors offset length * 0x1000 ≤ 0x1000000)
  obtain ⟨next, hRun, -, hFrames⟩ := hSends _ hBus
  obtain rfl : next.frames = frames := hFrames
  refine ⟨next, hRun, fun sector => ?_⟩
  rw [Erases, hErased]
  constructor
  · rintro ⟨address, hAddress, rfl⟩
    obtain ⟨i, hi, rfl⟩ := List.mem_map.mp hAddress
    have hLt := List.mem_range.mp hi
    simp only [ExtFlash.blsEraseSectorSize]
    omega
  · rintro ⟨hFrom, hTo⟩
    refine ⟨offset / 0x1000 * 0x1000 + (sector - offset / 0x1000) * 0x1000,
      List.mem_map.mpr ⟨sector - offset / 0x1000, List.mem_range.mpr ?_, rfl⟩, ?_⟩
    · omega
    · simp only [ExtFlash.blsEraseSectorSize]
      omega

theorem intersects_iff {offset length : Nat} (hPos : 1 ≤ length) (sector : Nat) :
    Intersects offset length sector ↔
      offset / 0x1000 ≤ sector ∧ sector ≤ (offset + length - 1) / 0x1000 := by
  simp only [Intersects, ExtFlash.blsEraseSectorSize]
  constructor
  · rintro ⟨a, hFrom, hTo, rfl⟩
    omega
  · rintro ⟨hFrom, hTo⟩
    refine ⟨max offset (sector * 0x1000), Nat.le_max_left .., ?_, ?_⟩
    · omega
    · omega

/-- **When `ext_flash_erase` covers its range.** It erases the sectors that intersect the range
and no other ones if and only if the last byte of the range is not the first one of a sector. -/
theorem extFlashErase_covers_iff (offset length : Nat) (outcomes : List Bool)
    (hWorks : ∀ outcome ∈ outcomes, outcome = true) (hPos : 1 ≤ length)
    (hEnd : offset + length ≤ 0x1000000) :
    (∃ next, extFlashErase offset length ⟨[], outcomes⟩ = (true, next) ∧
      ∀ sector, Erases next.frames sector ↔ Intersects offset length sector) ↔
      (offset + length - 1) % 0x1000 ≠ 0 := by
  obtain ⟨next, hRun, hErases⟩ := extFlashErase_erases hWorks hPos hEnd
  constructor
  · rintro ⟨other, hOther, hCovers⟩ hFirst
    obtain rfl : next = other := (Prod.ext_iff.mp (hRun.symm.trans hOther)).2
    have hLast := (hCovers ((offset + length - 1) / 0x1000)).mpr
      ((intersects_iff hPos _).mpr ⟨by omega, Nat.le_refl _⟩)
    have hBefore := ((hErases _).mp hLast).2
    omega
  · intro hLast
    refine ⟨next, hRun, fun sector => ?_⟩
    rw [hErases, intersects_iff hPos]
    omega

/-- A whole sector. -/
theorem extFlashErase_covers_sector :
    ∃ next, extFlashErase 0x19000 0x1000 ⟨[], []⟩ = (true, next) ∧
      ∀ sector, Erases next.frames sector ↔ Intersects 0x19000 0x1000 sector :=
  (extFlashErase_covers_iff 0x19000 0x1000 [] (by decide) (by decide) (by decide)).mpr (by decide)

/-- For one byte at the start of a sector nothing is erased. -/
theorem extFlashErase_covers_fails : ¬ ∀ (offset length : Nat) (outcomes : List Bool),
    (∀ outcome ∈ outcomes, outcome = true) → 1 ≤ length → offset + length ≤ 0x1000000 →
      ∃ next, extFlashErase offset length ⟨[], outcomes⟩ = (true, next) ∧
        ∀ sector, Erases next.frames sector ↔ Intersects offset length sector := by
  intro h
  obtain ⟨next, hRun, hCovers⟩ := h 0 1 [] (by decide) (by decide) (by decide)
  obtain rfl : ⟨[], []⟩ = next := (Prod.ext_iff.mp hRun).2
  obtain ⟨address, hAddress, -⟩ := (hCovers 0).mpr ⟨0, Nat.le_refl 0, by decide, rfl⟩
  exact absurd hAddress List.not_mem_nil

end Sectors

end Smarthome.FlashBus
