import Smarthome.Node.FirmwareActions

/-! The settings in the internal flash: a hundred bytes in one sector, of which one is changed
by writing all of them again. What a power loss on the way makes of the update flag and of the
relays, `relay.c`. -/
namespace Smarthome.Node

open Semantics Routine Bootloader

inductive Relay where
  | relay1
  | relay2
  deriving DecidableEq

/-- `POWER_1_CH_LAST_STATE_OFFSET` and `POWER_2_CH_LAST_STATE_OFFSET`. -/
def lastStateOffset : Relay → Nat
  | .relay1 => 0x01
  | .relay2 => 0x03

/-- `POWER_1_CH_START_STATE_OFFSET` and `POWER_2_CH_START_STATE_OFFSET`. -/
def startStateOffset : Relay → Nat
  | .relay1 => 0x02
  | .relay2 => 0x04

abbrev startOnLastState : Byte := 0x01
abbrev startOnOnState : Byte := 0x02
abbrev startOnOffState : Byte := 0x03

abbrev relayCommandOff : Byte := 0x00
abbrev relayCommandOn : Byte := 0x01
abbrev relayCommandToggle : Byte := 0x80

def getStartStateFlash (relay : Relay) : Boot Byte := do
  let state ← userFlashReadByte (startStateOffset relay)
  return if state = 0xFF then startOnLastState else state

def setLastStateFlash (relay : Relay) (dioState : Byte) : Boot Unit :=
  userFlashUpdateByte (lastStateOffset relay) dioState

def getLastStateFlash (relay : Relay) : Boot Byte := do
  let state ← userFlashReadByte (lastStateOffset relay)
  return if state = 0xFF then relayCommandOff else state

/-- `change_dio_state`. The pin of a relay and its `relay_1_state` or `relay_2_state` are set
together, so that one value stands for both. -/
def changeDioState (relay : Relay) (relayState dioState : Byte) : Boot Byte := do
  let relayState := if dioState = relayCommandOff then 0
    else if dioState = relayCommandOn then 1
    else if dioState = relayCommandToggle then (if relayState = 1 then 0 else 1)
    else relayState
  setLastStateFlash relay relayState
  return relayState

/-- `configure_channel`, at start-up: the pin is cleared, and its variable is still zero. -/
def configureChannel (relay : Relay) : Boot Byte := do
  let startState ← getStartStateFlash relay
  if startState = startOnLastState then do
    let lastState ← getLastStateFlash relay
    changeDioState relay 0 lastState
  else if startState = startOnOnState then changeDioState relay 0 relayCommandOn
  else if startState = startOnOffState then changeDioState relay 0 relayCommandOff
  else return 0

section Area

variable (board after : Board)

/-- The hundred bytes are as they were. -/
def AreaKept : Prop := ∀ i < userFlashLength,
  after.internal (startUserFlash + i) = board.internal (startUserFlash + i)

/-- The hundred bytes are erased. -/
def AreaBlank : Prop := ∀ i < userFlashLength, after.internal (startUserFlash + i) = 0xFF

/-- One of the hundred bytes is new. -/
def AreaUpdated (offset : Nat) (data : Byte) : Prop := ∀ i < userFlashLength,
  after.internal (startUserFlash + i) =
    if i = offset then data else board.internal (startUserFlash + i)

/-- What the settings are after a power loss if writing them is atomic. -/
def AreaAtomic (offset : Nat) (data : Byte) : Prop := ∀ i < userFlashLength,
  after.internal (startUserFlash + i) = board.internal (startUserFlash + i) ∨
    i = offset ∧ after.internal (startUserFlash + i) = data

variable {board after}

/-- In a blank area there is no update, and the relays start switched off. -/
theorem AreaBlank.startUp (h : AreaBlank after) (relay : Relay) :
    (readFwFlag after).1 = some fwFlagNonUpdate ∧ (configureChannel relay after).1 = some 0 := by
  have hFlag : after.internal (startUserFlash + otaStatusFlag) = 0xFF := h 5 (by decide)
  have hByte (i : Nat) (hi : i < userFlashLength) :
      userFlashReadByte i after = (some 0xFF, []) := by
    show (some (after.internal (startUserFlash + i)), []) = _
    rw [h i hi]
  have hStart : getStartStateFlash relay after = (some startOnLastState, []) := by
    have hOffset : startStateOffset relay < userFlashLength := by cases relay <;> decide
    rw [getStartStateFlash, bind_of_run (hByte _ hOffset)]
    rfl
  have hLast : getLastStateFlash relay after = (some relayCommandOff, []) := by
    have hOffset : lastStateOffset relay < userFlashLength := by cases relay <;> decide
    rw [getLastStateFlash, bind_of_run (hByte _ hOffset)]
    rfl
  constructor
  · have hCurrent : currentFlag after = fwFlagNonUpdate := by
      rw [currentFlag, hFlag]
      rfl
    have hSame : BoardKept after after ∧ currentFlag after = fwFlagNonUpdate :=
      ⟨BoardKept.refl after, hCurrent⟩
    obtain ⟨-, r, hResult, hIs⟩ := readFwFlag_triple after hSame
    rw [hResult, hIs.2]
  · rw [configureChannel, bind_of_run hStart]
    simp only [applyAll_nil, if_true, bind_of_run hLast]
    rfl

end Area

/-- The two operations of `user_flash_update_byte`. -/
theorem userFlashUpdateByte_run (offset : Nat) (data : Byte) (board : Board) :
    userFlashUpdateByte offset data board = (some (), [.sectorErase startUserFlash,
      .program startUserFlash ((NorFlash.slice board.internal startUserFlash userFlashLength).set
        offset data)]) := rfl

theorem areaBlank_of_erase (board : Board) :
    AreaBlank (Effect.apply (FlashOp.sectorErase startUserFlash) board) := by
  intro i hi
  refine NorFlash.erase_inside ?_
  simp only [userFlashLength, flashPageSize, startUserFlash] at hi ⊢
  omega

/-- Once both operations are done, the byte is new and the others are there again. -/
theorem areaUpdated_of_update (offset : Nat) (data : Byte) (board : Board) :
    AreaUpdated board (applyAll (userFlashUpdateByte offset data board).2 board) offset data := by
  intro i hi
  let buffer := NorFlash.slice board.internal startUserFlash userFlashLength
  have hLength : i < (buffer.set offset data).length := by
    rwa [List.length_set, NorFlash.slice_length]
  have hProgrammed := NorFlash.program_of_erased hLength (areaBlank_of_erase board i hi)
  refine hProgrammed.trans ?_
  rw [List.getElem_set]
  have hRead : buffer[i]? = some (board.internal (startUserFlash + i)) :=
    NorFlash.slice_getElem? _ hi
  rw [List.getElem?_eq_getElem (by rwa [NorFlash.slice_length]), Option.some.injEq] at hRead
  rw [hRead]
  exact if_congr eq_comm rfl rfl

/-- **What a power loss leaves of the settings.** They are as before, as they should be, or all
blank. Blank ones stand for no update, and for relays that are switched off. -/
theorem userFlashUpdateByte_cut (offset : Fin userFlashLength) (data : Byte) (board : Board) (k : Nat) :
    AreaKept board (applyAll ((userFlashUpdateByte offset data board).2.take k) board) ∨
      AreaUpdated board (applyAll ((userFlashUpdateByte offset data board).2.take k) board)
        offset data ∨
      (AreaBlank (applyAll ((userFlashUpdateByte offset data board).2.take k) board) ∧
        (readFwFlag (applyAll ((userFlashUpdateByte offset data board).2.take k) board)).1 =
          some fwFlagNonUpdate ∧
        ∀ relay, (configureChannel relay
          (applyAll ((userFlashUpdateByte offset data board).2.take k) board)).1 = some 0) := by
  rcases k with _ | _ | k
  · exact Or.inl fun _ _ => rfl
  · have hBlank : AreaBlank
        (applyAll ((userFlashUpdateByte offset data board).2.take 1) board) :=
      areaBlank_of_erase board
    refine Or.inr (Or.inr ⟨hBlank, (hBlank.startUp .relay1).1, fun relay => ?_⟩)
    exact (hBlank.startUp relay).2
  · have hAll : (userFlashUpdateByte offset data board).2.take (k + 2) =
        (userFlashUpdateByte offset data board).2 := by
      refine List.take_of_length_le ?_
      rw [userFlashUpdateByte_run, List.length_cons, List.length_singleton]
      omega
    rw [hAll]
    exact Or.inr (Or.inl (areaUpdated_of_update offset data board))

/-- A flash of zeros. -/
def zeroBoard : Board := ⟨fun _ => 0, fun _ => 0, [], false⟩

/-- A saved state reverts to blank when the power is lost after the erase. -/
theorem userFlashUpdateByte_cut_fails : ¬ ∀ (offset : Fin userFlashLength) (data : Byte)
    (board : Board) (k : Nat), AreaAtomic board
      (applyAll ((userFlashUpdateByte offset data board).2.take k) board) offset data := by
  intro h
  have hOther := h ⟨5, by decide⟩ fwFlagNewImgExt zeroBoard 1 1 (by decide)
  have hBlank : (applyAll ((userFlashUpdateByte 5 fwFlagNewImgExt zeroBoard).2.take 1)
      zeroBoard).internal (startUserFlash + 1) = 0xFF := areaBlank_of_erase zeroBoard 1 (by decide)
  rcases hOther with hOld | ⟨hOffset, -⟩
  · rw [hBlank] at hOld
    exact absurd hOld (by decide)
  · exact absurd hOffset (by decide)

end Smarthome.Node
