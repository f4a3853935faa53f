import Smarthome.Node.FirmwareActions
import Smarthome.Semantics.Runs

/-! A device over time: the bootloader from reset, with or without the external flash
and with power failing anywhere, and what the firmware it enters does to the flash. -/
namespace Smarthome

inductive DeviceMode where
  | atReset
  | running
  /-- The end of `main` that its last comment rules out. -/
  | stopped
  deriving DecidableEq

structure Device where
  board : Board
  mode : DeviceMode

namespace Device

open Semantics Routine Bootloader

/-- What can happen to a device. The outcomes are those of the exchanges with the
external flash during the step; `unread` is what the stack holds before a read. -/
inductive Action where
  | boot (outcomes : List Bool)
  | powerLoss (outcomes : List Bool) (operations : Nat)
  | reset
  | storeFirmwareData (offset : Nat) (data : List Byte) (outcomes : List Bool)
  | eraseDownloadSlot (outcomes : List Bool)
  | cleanGoldenImage (outcomes : List Bool)
  | backupGoldenImage (outcomes : List Bool)
  | finishUpdate (unread slotUnread : OtaMetadata) (outcomes : List Bool)
  | confirmImage

/-- The result of a whole routine and the board after it. -/
def runRoutine {Result : Type} (board : Board) (outcomes : List Bool) (m : Boot Result) :
    Option (Result × Board) :=
  (m { board with outcomes }).1.map fun r =>
    (r, applyAll (m { board with outcomes }).2 { board with outcomes })

/-- The board after some operations of a routine. -/
def cutRoutine {Result : Type} (board : Board) (outcomes : List Bool) (m : Boot Result)
    (operations : Nat) : Board :=
  applyAll ((m { board with outcomes }).2.take operations) { board with outcomes }

/-- What follows the end of `main`. -/
def afterMain : BootEnd → DeviceMode
  | .jumpToImage => .running
  | .systemReset => .atReset
  | .returned => .stopped

/-- The running firmware works on the external flash. -/
def onExternal (device : Device) (outcomes : List Bool) (f : ExtFlash → Option ExtFlash) :
    Option Device :=
  if device.mode = .running then
    (f ⟨device.board.external, outcomes⟩).map fun next =>
      { device with board := { device.board with external := next.memory } }
  else none

def step (device : Device) : Action → Option Device
  | .boot outcomes =>
      if device.mode = .atReset then
        (runRoutine device.board outcomes main).map fun (finish, board) => ⟨board, afterMain finish⟩
      else none
  | .powerLoss outcomes operations =>
      if device.mode = .atReset then
        some ⟨cutRoutine device.board outcomes main operations, .atReset⟩
      else none
  | .reset => some { device with mode := .atReset }
  | .storeFirmwareData offset data outcomes =>
      onExternal device outcomes
        (storeFirmwareData (downloadPage * 0x1000 + offset) data).untilDone
  | .eraseDownloadSlot outcomes => onExternal device outcomes eraseDownloadSlot
  | .cleanGoldenImage outcomes => onExternal device outcomes (eraseOtaImage goldenSlot)
  | .backupGoldenImage outcomes =>
      onExternal device outcomes (Node.backupGoldenImage device.board.internal)
  | .finishUpdate unread slotUnread outcomes =>
      if device.mode = .running then
        (runRoutine device.board outcomes (Node.finishUpdate unread slotUnread)).map
          fun (isReset, board) => ⟨board, if isReset then .atReset else .running⟩
      else none
  | .confirmImage =>
      if device.mode = .running then
        (runRoutine device.board [] Node.confirmImage).map fun (_, board) => ⟨board, .running⟩
      else none

section Routines

variable {Result : Type} (board : Board) (outcomes : List Bool) {m : Boot Result}
  {Crash : Board → Prop} {Post : Result → Board → Prop}

theorem runRoutine_of_triple (h : Triple (fun b => b = { board with outcomes }) m Crash Post) :
    ∃ r next, runRoutine board outcomes m = some (r, next) ∧ Post r next := by
  obtain ⟨_, r, hResult, hPost⟩ := h _ rfl
  refine ⟨r, _, ?_, hPost⟩
  rw [runRoutine, hResult]
  rfl

theorem cutRoutine_of_triple (h : Triple (fun b => b = { board with outcomes }) m Crash Post)
    (operations : Nat) : Crash (cutRoutine board outcomes m operations) :=
  (h _ rfl).1 operations

end Routines

variable {device next : Device} {outcomes : List Bool}

/-- A boot with the external flash follows the plan for the flag. -/
theorem step_boot (device : Device) (outcomes : List Bool) (hMode : device.mode = .atReset)
    (hChip : outcomes.headD true = true) :
    ∃ board, step device (.boot outcomes) =
        some ⟨board, afterMain (bootPlan (currentFlag device.board)).finish⟩ ∧
      ImageFrom device.board (bootPlan (currentFlag device.board)).source board ∧
      currentFlag board = (bootPlan (currentFlag device.board)).flag := by
  obtain ⟨finish, board, hRun, hImage, hFlag, hFinish⟩ :=
    runRoutine_of_triple device.board outcomes (main_triple _ hChip)
  refine ⟨board, ?_, hImage.of_withOutcomes, hFlag⟩
  rw [step, if_pos hMode, hRun, hFinish]
  rfl

/-- A boot without it enters the image as it is. -/
theorem step_boot_without_chip (hMode : device.mode = .atReset)
    (hChip : outcomes.headD true = false) :
    ∃ board, step device (.boot outcomes) = some ⟨board, .running⟩ ∧ SameFlash device.board board := by
  have hMain : main { device.board with outcomes } = (some .jumpToImage, [.exchange]) :=
    main_without_chip hChip
  refine ⟨Effect.apply FlashOp.exchange { device.board with outcomes }, ?_, ⟨rfl, rfl, rfl⟩⟩
  rw [step, if_pos hMode, runRoutine, hMain]
  rfl

/-- A boot that power cuts short leaves one of the cuts of `main`. -/
theorem step_powerLoss {operations : Nat}
    (h : step device (.powerLoss outcomes operations) = some next) :
    next.mode = .atReset ∧ if outcomes.headD true = true then BootCut device.board next.board
      else SameFlash device.board next.board := by
  rw [step] at h
  split_ifs at h with hMode
  obtain rfl := Option.some.inj h
  refine ⟨rfl, ?_⟩
  split_ifs with hChip
  · have hCut : BootCut { device.board with outcomes }
        (cutRoutine device.board outcomes main operations) :=
      cutRoutine_of_triple _ _ (main_triple _ hChip) operations
    exact hCut.of_withOutcomes
  · have hMain : main { device.board with outcomes } = (some .jumpToImage, [.exchange]) :=
      main_without_chip (Bool.not_eq_true _ ▸ hChip)
    rw [cutRoutine, hMain]
    cases operations with
    | zero => exact ⟨rfl, rfl, rfl⟩
    | succ k =>
        rw [List.take_succ_cons, List.take_nil]
        exact ⟨rfl, rfl, rfl⟩

/-- Work on the external flash leaves the rest of the device as it is. -/
theorem onExternal_cases {f : ExtFlash → Option ExtFlash}
    (h : onExternal device outcomes f = some next) :
    device.mode = .running ∧ next.mode = .running ∧ next.board.internal = device.board.internal ∧
      next.board.copyUnfinished = device.board.copyUnfinished := by
  rw [onExternal] at h
  split_ifs at h with hMode
  rw [Option.map_eq_some_iff] at h
  obtain ⟨flash, _, rfl⟩ := h
  exact ⟨hMode, hMode, rfl, rfl⟩

/-- The end of an update keeps the image. -/
theorem step_finishUpdate {unread slotUnread : OtaMetadata}
    (h : step device (.finishUpdate unread slotUnread outcomes) = some next) :
    device.mode = .running ∧ BoardKept device.board next.board := by
  obtain ⟨isReset, board, hRun, hKept, _⟩ := runRoutine_of_triple device.board outcomes
    ((Node.finishUpdate_triple device.board unread slotUnread).mono
      (fun b hb => hb ▸ ⟨ImageKept.of_eq fun _ _ => rfl, rfl, rfl⟩) (fun _ h => h) fun _ _ h => h)
  rw [step, hRun] at h
  split_ifs at h with hMode
  obtain rfl := Option.some.inj h
  exact ⟨hMode, hKept⟩

/-- Confirming keeps the image, too. -/
theorem step_confirmImage (h : step device .confirmImage = some next) :
    device.mode = .running ∧ next.mode = .running ∧ BoardKept device.board next.board ∧
      currentFlag next.board = if currentFlag device.board = fwFlagNewImgInt then fwFlagPingOk
        else currentFlag device.board := by
  obtain ⟨_, board, hRun, hKept, hFlag⟩ := runRoutine_of_triple device.board []
    (Node.confirmImage_triple _)
  rw [step, hRun] at h
  split_ifs at h with hMode
  obtain rfl := Option.some.inj h
  exact ⟨hMode, rfl, hKept.of_withOutcomes, hFlag⟩

end Device
end Smarthome
