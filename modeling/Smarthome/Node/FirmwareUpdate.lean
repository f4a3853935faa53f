import Smarthome.Flash.OtaSlots
import Smarthome.Node.Dispatch

/-! The update of a node: `fw_update_process`, which erases the download slot and
requests the chunks, and the handlers of the datagrams that start and feed it. -/
namespace Smarthome.Node

open Semantics

/-- `ota_images[1-1] << 12`. -/
def downloadAddress : Nat := downloadPage * flashPageSize

/-- `FW_MAX_ERROR_COUNTER`. -/
@[simp] def fwMaxErrorCounter : Nat := 5

theorem downloadAddress_eq : downloadAddress = 0x32000 := rfl

/-- Where `fw_update_process` waits, or that it does not run. -/
inductive WaitPoint where
  | notRunning
  /-- The pause after a page has been erased. -/
  | imageErase (page : Nat)
  /-- The wait for a chunk, until `fw_timer` has expired. -/
  | chunk
  | delayChunk
  /-- The call of `verify_ota_slot(1)`. -/
  | verifying
  deriving DecidableEq

/-- The variables of the process and of the handlers. Of the timers, what
`etimer_expired` returns for them. -/
structure FwUpdate where
  waitPoint : WaitPoint
  chunkNum : Nat
  fwChunkQuantity : Nat
  fwErrorCounter : Nat
  otaImageCurrentOffset : Nat
  fwTimerExpired : Bool
  fwTimerDeadlineExpired : Bool
  spiActive : Bool
  flash : ExtFlash

namespace FwUpdate

/-- One page of the erase loop, up to the pause after it. -/
def erasePage (node : FwUpdate) (page : Nat) : Option FwUpdate :=
  ((eraseExtflashPage ((downloadPage + page) * flashPageSize)).untilDone node.flash).map
    fun flash => { node with flash, waitPoint := .imageErase page }

/-- `firmware_cmd_new_fw_handler`. Starting a process that runs has no effect. -/
def newFwHandler (node : FwUpdate) (fwChunkQuantity : Nat) : Option FwUpdate :=
  if node.spiActive = true ∧ node.waitPoint = .notRunning then
    { node with fwChunkQuantity, otaImageCurrentOffset := 0 }.erasePage 0
  else some { node with fwChunkQuantity, otaImageCurrentOffset := 0 }

/-- `firmware_data_handler`. It runs outside any process, and `fw_timer`, set
there, counts as expired at once. -/
def firmwareDataHandler (node : FwUpdate) (flashWriteBuffer : List Byte) : Option FwUpdate :=
  ((storeFirmwareData ((downloadAddress + node.otaImageCurrentOffset) % 0x100000000)
    flashWriteBuffer).untilDone node.flash).map fun flash =>
      { node with
        flash
        fwErrorCounter := 0
        otaImageCurrentOffset :=
          (node.otaImageCurrentOffset + firmwarePayloadLength) % 0x100000000
        fwTimerExpired := true }

/-- The top of the request loop, with the chunk it requests. -/
def requestChunk (node : FwUpdate) : FwUpdate × Option Nat :=
  if node.chunkNum < node.fwChunkQuantity then
    ({ node with
        chunkNum := (node.chunkNum + 1) % 0x10000
        fwTimerExpired := false
        fwTimerDeadlineExpired := false
        waitPoint := .chunk }, some node.chunkNum)
  else ({ node with chunkNum := 0, fwErrorCounter := 0, waitPoint := .verifying }, none)

/-- What follows the wait for a chunk: the chunk again, the end, or the next one. -/
def afterChunk (node : FwUpdate) : FwUpdate :=
  if node.fwTimerDeadlineExpired = true ∧ node.chunkNum < node.fwChunkQuantity then
    if node.fwErrorCounter > fwMaxErrorCounter then
      { node with chunkNum := 0, fwErrorCounter := 0, waitPoint := .notRunning }
    else
      { node with
        fwErrorCounter := (node.fwErrorCounter + 1) % 0x100
        chunkNum := (node.chunkNum + 0xFFFF) % 0x10000
        waitPoint := .delayChunk }
  else { node with waitPoint := .delayChunk }

/-- `fw_update_process` from one wait to the next, with the chunk it requests. -/
def resume (node : FwUpdate) : Option (FwUpdate × Option Nat) :=
  match node.waitPoint with
  | .notRunning => none
  | .imageErase page =>
      if page + 1 < 25 then (node.erasePage (page + 1)).map fun node => (node, none)
      else some node.requestChunk
  | .chunk => if node.fwTimerExpired = true then some (node.afterChunk, none) else none
  | .delayChunk => some node.requestChunk
  | .verifying => some ({ node with waitPoint := .notRunning }, none)

/-- The handlers of `udp_receiver` that reach these variables. The only image it
erases is the golden one; a node that restarts is not followed further. -/
def receive (node : FwUpdate) : ReceiverCall → Option FwUpdate
  | .firmwareCmdNewFwHandler fwChunkQuantity => node.newFwHandler fwChunkQuantity
  | .firmwareDataHandler flashWriteBuffer => node.firmwareDataHandler flashWriteBuffer
  | .eraseOtaImage _ => (eraseOtaImage goldenSlot node.flash).map fun flash => { node with flash }
  | .watchdogReboot | .flashGoldenImageAndReboot => none
  | _ => some node

/-- `fw_timer_deadline` expires while a chunk is awaited. -/
def deadline (node : FwUpdate) : Option FwUpdate :=
  if node.waitPoint = .chunk then some { node with fwTimerDeadlineExpired := true } else none

/-- `fw_timer`, set to one tick more, expires without a packet. -/
def timeout (node : FwUpdate) : Option FwUpdate :=
  if node.waitPoint = .chunk ∧ node.fwTimerExpired = false then
    some { node with fwTimerExpired := true, fwTimerDeadlineExpired := true }
  else none

/-- The static `chunk_num` is zero, except between the first request and the end. -/
def CountsFromZero (node : FwUpdate) : Prop :=
  node.waitPoint = .chunk ∨ node.waitPoint = .delayChunk ∨ node.chunkNum = 0

section CountsFromZero

variable {node other : FwUpdate}

theorem CountsFromZero.chunkNum (h : node.CountsFromZero) (hChunk : node.waitPoint ≠ .chunk)
    (hDelay : node.waitPoint ≠ .delayChunk) : node.chunkNum = 0 :=
  (h.resolve_left hChunk).resolve_left hDelay

theorem countsFromZero_erasePage {page : Nat} (node : FwUpdate) (hZero : node.chunkNum = 0)
    (hStep : node.erasePage page = some other) : other.CountsFromZero := by
  rw [erasePage, Option.map_eq_some_iff] at hStep
  obtain ⟨flash, _, rfl⟩ := hStep
  exact Or.inr (Or.inr hZero)

theorem countsFromZero_requestChunk (node : FwUpdate) : node.requestChunk.1.CountsFromZero := by
  rw [requestChunk]
  split_ifs
  · exact Or.inl rfl
  · exact Or.inr (Or.inr rfl)

theorem countsFromZero_afterChunk (node : FwUpdate) : node.afterChunk.CountsFromZero := by
  rw [afterChunk]
  split_ifs
  · exact Or.inr (Or.inr rfl)
  · exact Or.inr (Or.inl rfl)
  · exact Or.inr (Or.inl rfl)

theorem countsFromZero_resume {request : Option Nat} (h : node.CountsFromZero)
    (hStep : node.resume = some (other, request)) : other.CountsFromZero := by
  unfold resume at hStep
  cases hPoint : node.waitPoint with
  | notRunning =>
      rw [hPoint] at hStep
      cases hStep
  | imageErase page =>
      have hZero := h.chunkNum (hPoint ▸ nofun) (hPoint ▸ nofun)
      rw [hPoint] at hStep
      simp only at hStep
      split_ifs at hStep
      · rw [Option.map_eq_some_iff] at hStep
        obtain ⟨erased, hErase, hEq⟩ := hStep
        obtain rfl : erased = other := congrArg Prod.fst hEq
        exact countsFromZero_erasePage node hZero hErase
      · obtain rfl : node.requestChunk.1 = other := congrArg Prod.fst (Option.some.inj hStep)
        exact countsFromZero_requestChunk node
  | chunk =>
      rw [hPoint] at hStep
      simp only at hStep
      split_ifs at hStep
      obtain rfl : node.afterChunk = other := congrArg Prod.fst (Option.some.inj hStep)
      exact countsFromZero_afterChunk node
  | delayChunk =>
      rw [hPoint] at hStep
      obtain rfl : node.requestChunk.1 = other := congrArg Prod.fst (Option.some.inj hStep)
      exact countsFromZero_requestChunk node
  | verifying =>
      have hZero := h.chunkNum (hPoint ▸ nofun) (hPoint ▸ nofun)
      rw [hPoint] at hStep
      obtain rfl := congrArg Prod.fst (Option.some.inj hStep)
      exact Or.inr (Or.inr hZero)

theorem countsFromZero_receive {call : ReceiverCall} (h : node.CountsFromZero)
    (hStep : node.receive call = some other) : other.CountsFromZero := by
  cases call with
  | firmwareCmdNewFwHandler fwChunkQuantity =>
      rw [receive, newFwHandler] at hStep
      split_ifs at hStep with hStart
      · have hZero := h.chunkNum (hStart.2 ▸ nofun) (hStart.2 ▸ nofun)
        exact countsFromZero_erasePage { node with fwChunkQuantity, otaImageCurrentOffset := 0 }
          hZero hStep
      · obtain rfl := Option.some.inj hStep
        exact h
  | firmwareDataHandler flashWriteBuffer =>
      rw [receive, firmwareDataHandler, Option.map_eq_some_iff] at hStep
      obtain ⟨flash, _, rfl⟩ := hStep
      exact h
  | eraseOtaImage slot =>
      rw [receive, Option.map_eq_some_iff] at hStep
      obtain ⟨flash, _, rfl⟩ := hStep
      exact h
  | watchdogReboot | flashGoldenImageAndReboot => cases hStep
  | _ => exact Option.some.inj hStep ▸ h

theorem countsFromZero_deadline (h : node.CountsFromZero) (hStep : node.deadline = some other) :
    other.CountsFromZero := by
  rw [deadline] at hStep
  split_ifs at hStep
  obtain rfl := Option.some.inj hStep
  exact h

theorem countsFromZero_timeout (h : node.CountsFromZero) (hStep : node.timeout = some other) :
    other.CountsFromZero := by
  rw [timeout] at hStep
  split_ifs at hStep
  obtain rfl := Option.some.inj hStep
  exact h

end CountsFromZero

/-- Every address of a page is in the block that is erased with it. -/
theorem lt_of_other_block {page a : Nat} (ha : a < (page + 1) * 0x1000)
    (hBlock : (0x32000 + a) / 0x10000 ≠ (0x32 + page) * 0x1000 / 0x10000) : a < page * 0x1000 := by
  refine Nat.lt_of_not_le fun hFrom => hBlock ?_
  have hPage : (0x32000 + a) / 0x1000 = 0x32 + page := by omega
  have hSixteen : 0x10000 = 0x1000 * 16 := rfl
  rw [hSixteen, ← Nat.div_div_eq_div_mul, hPage, ← Nat.div_div_eq_div_mul,
    Nat.mul_div_cancel _ (by decide)]

/-- An erased page, with those before it. -/
theorem erasePage_spec (node : FwUpdate) {page : Nat} (hPage : page < 25) :
    ∃ flash, node.erasePage page = some { node with flash, waitPoint := .imageErase page } ∧
      ((∀ a < page * 0x1000, node.flash.memory (downloadAddress + a) = 0xFF) →
        ∀ a < (page + 1) * 0x1000, flash.memory (downloadAddress + a) = 0xFF) := by
  have hFirst : downloadPage = 0x32 := rfl
  obtain ⟨flash, hDone, hMemory⟩ :=
    eraseExtflashPage_untilDone (by omega : 0x32 + page < 4096) node.flash
  refine ⟨flash, ?_, fun hErased a ha => ?_⟩
  · rw [erasePage, hFirst, flashPageSize, hDone]
    rfl
  · rw [hMemory]
    by_cases hBlock : (downloadAddress + a) / 0x10000 = (0x32 + page) * 0x1000 / 0x10000
    · exact NorFlash.erase_inside hBlock
    · rw [NorFlash.erase_outside hBlock]
      exact hErased a (lt_of_other_block ha hBlock)

/-- A chunk is programmed where the offset points, and the offset goes on. -/
theorem firmwareDataHandler_spec {node : FwUpdate} {flashWriteBuffer : List Byte}
    (hEnd : downloadAddress + node.otaImageCurrentOffset + flashWriteBuffer.length ≤ 0x1000000) :
    ∃ flash, node.firmwareDataHandler flashWriteBuffer = some
        { node with
          flash, fwErrorCounter := 0, fwTimerExpired := true
          otaImageCurrentOffset := node.otaImageCurrentOffset + 600 } ∧
      flash.memory = NorFlash.program (downloadAddress + node.otaImageCurrentOffset)
        flashWriteBuffer node.flash.memory := by
  have hAddress : (downloadAddress + node.otaImageCurrentOffset) % 0x100000000 =
      downloadAddress + node.otaImageCurrentOffset := Nat.mod_eq_of_lt (by omega)
  have hOffset : (node.otaImageCurrentOffset + firmwarePayloadLength) % 0x100000000 =
      node.otaImageCurrentOffset + 600 := Nat.mod_eq_of_lt (by simp; omega)
  obtain ⟨flash, hStore, hMemory⟩ := storeFirmwareData_untilDone hEnd node.flash
  refine ⟨flash, ?_, hMemory⟩
  rw [firmwareDataHandler, hAddress, hStore, Option.map_some, hOffset]

end FwUpdate

end Smarthome.Node
