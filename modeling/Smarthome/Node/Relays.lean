import Smarthome.Node.MainProcess
import Smarthome.Node.UserFlash

/-! The two relays of `relay.c`. The state of each is there three times: as the level of its
pin, in its variable and in the internal flash, from which it starts again after a power
cycle. -/
namespace Smarthome.Node

open Semantics Routine Bootloader

abbrev deviceAbilityRelay1 : Byte := 0x01
abbrev deviceAbilityRelay2 : Byte := 0x02
abbrev deviceAbilityRelay1SettingsStartState : Byte := 0x01
abbrev deviceAbilityRelay2SettingsStartState : Byte := 0x02

/-- `dio_to_ability`. -/
def dioToAbility : Relay → Byte
  | .relay1 => deviceAbilityRelay1
  | .relay2 => deviceAbilityRelay2

structure RelayDevice where
  /-- The output level of the pin. -/
  level : Relay → Bool
  /-- `relay_1_state` and `relay_2_state`. -/
  relayState : Relay → Byte
  board : Board

namespace RelayDevice

/-- One of the hundred bytes of the settings. -/
def userByte (device : RelayDevice) (offset : Nat) : Byte :=
  device.board.internal (startUserFlash + offset)

/-- `ti_lib_gpio_clear_dio` and `ti_lib_gpio_set_dio`, with the variable of the relay. -/
def switchOff (device : RelayDevice) (relay : Relay) : RelayDevice :=
  { device with
    level := Function.update device.level relay false
    relayState := Function.update device.relayState relay 0 }

def switchOn (device : RelayDevice) (relay : Relay) : RelayDevice :=
  { device with
    level := Function.update device.level relay true
    relayState := Function.update device.relayState relay 1 }

/-- A write to the internal flash, up to its end. -/
def write (device : RelayDevice) (routine : Boot Unit) : RelayDevice :=
  { device with board := applyAll (routine device.board).2 device.board }

/-- What `get_start_state_flash` returns. -/
def startState (device : RelayDevice) (relay : Relay) : Byte :=
  if device.userByte (startStateOffset relay) = 0xFF then startOnLastState
  else device.userByte (startStateOffset relay)

/-- What `get_last_state_flash` returns. -/
def lastState (device : RelayDevice) (relay : Relay) : Byte :=
  if device.userByte (lastStateOffset relay) = 0xFF then relayCommandOff
  else device.userByte (lastStateOffset relay)

/-- The part of `change_dio_state` for one relay. A state that is no command changes nothing,
but is followed by a write too. -/
def changeState (device : RelayDevice) (relay : Relay) (dioState : Byte) : RelayDevice :=
  let switched :=
    if dioState = relayCommandOff then device.switchOff relay
    else if dioState = relayCommandOn then device.switchOn relay
    else if dioState = relayCommandToggle then
      if device.relayState relay = 1 then device.switchOff relay else device.switchOn relay
    else device
  switched.write (setLastStateFlash relay (switched.relayState relay))

/-- `change_dio_state`. -/
def changeDioState (device : RelayDevice) (abilityNumber dioState : Byte) : RelayDevice :=
  if abilityNumber = deviceAbilityRelay1 then device.changeState .relay1 dioState
  else if abilityNumber = deviceAbilityRelay2 then device.changeState .relay2 dioState
  else device

/-- `configure_channel`. Only the pin is cleared first. -/
def configureChannel (device : RelayDevice) (relay : Relay) : RelayDevice :=
  let cleared := { device with level := Function.update device.level relay false }
  if cleared.startState relay = startOnLastState then
    cleared.changeDioState (dioToAbility relay) (cleared.lastState relay)
  else if cleared.startState relay = startOnOnState then
    cleared.changeDioState (dioToAbility relay) relayCommandOn
  else if cleared.startState relay = startOnOffState then
    cleared.changeDioState (dioToAbility relay) relayCommandOff
  else cleared

/-- The start of `main_process` after a power cycle, which leaves the flash. -/
def powerOn (board : Board) : RelayDevice :=
  let reset : RelayDevice := ⟨fun _ => false, fun _ => 0, board⟩
  (reset.configureChannel .relay1).configureChannel .relay2

/-- `exe_relay_command`. -/
def exeRelayCommand (device : RelayDevice) (command : Command) : RelayDevice :=
  if command.abilityNumber ≠ deviceAbilityRelay1 ∧ command.abilityNumber ≠ deviceAbilityRelay2 then
    device
  else device.changeDioState command.abilityNumber command.abilityState

/-- `settings_change`. -/
def settingsChange (device : RelayDevice) (command : Command) : RelayDevice :=
  if command.abilityNumber ≠ deviceAbilityRelay1 ∧ command.abilityNumber ≠ deviceAbilityRelay2 then
    device
  else if command.abilityTarget = deviceAbilityRelay1SettingsStartState then
    device.write (userFlashUpdateByte (startStateOffset .relay1) command.abilityState)
  else if command.abilityTarget = deviceAbilityRelay2SettingsStartState then
    device.write (userFlashUpdateByte (startStateOffset .relay2) command.abilityState)
  else device

/-- What `main_process` does with a message. -/
def carryOut (device : RelayDevice) (command : Command) : RelayDevice :=
  if command.abilityTarget = deviceAbilityRelay then
    if command.dataType = dataTypeCommand then device.exeRelayCommand command
    else if command.dataType = dataTypeSettings then device.settingsChange command
    else device
  else device

section Flash

variable (device : RelayDevice) (relay : Relay)

theorem getStartStateFlash_eq :
    getStartStateFlash relay device.board = (some (device.startState relay), []) := rfl

theorem getLastStateFlash_eq :
    getLastStateFlash relay device.board = (some (device.lastState relay), []) := rfl

/-- A write changes one byte of the settings. -/
theorem userByte_write (offset : Nat) (data : Byte) {i : Nat} (hi : i < userFlashLength) :
    (device.write (userFlashUpdateByte offset data)).userByte i =
      if i = offset then data else device.userByte i :=
  areaUpdated_of_update offset data device.board i hi

/-- A start state that is blank or `START_ON_LAST_STATE`. -/
def IsLastState (startByte : Byte) : Prop := startByte = 0xFF ∨ startByte = startOnLastState

variable {device relay} in
theorem startState_eq (h : IsLastState (device.userByte (startStateOffset relay))) :
    device.startState relay = startOnLastState := by
  unfold startState
  split_ifs with hBlank
  · rfl
  · exact h.resolve_left hBlank

theorem lastStateOffset_lt : lastStateOffset relay < userFlashLength := by cases relay <;> decide

theorem startStateOffset_lt : startStateOffset relay < userFlashLength := by cases relay <;> decide

theorem startStateOffset_ne (other : Relay) : startStateOffset relay ≠ lastStateOffset other := by
  cases relay <;> cases other <;> decide

theorem lastStateOffset_injective : Function.Injective lastStateOffset := by
  intro relay other h
  cases relay <;> cases other <;> first | rfl | exact absurd h (by decide)

end Flash

/-- The variable and the flash say what the level of the pin is. -/
structure Agrees (device : RelayDevice) (relay : Relay) : Prop where
  relayState : device.relayState relay = if device.level relay then 1 else 0
  flash : device.userByte (lastStateOffset relay) = device.relayState relay

/-- What one relay has is the same in both. -/
structure SameAt (relay : Relay) (device after : RelayDevice) : Prop where
  level : after.level relay = device.level relay
  relayState : after.relayState relay = device.relayState relay
  startByte : after.userByte (startStateOffset relay) = device.userByte (startStateOffset relay)
  lastByte : after.userByte (lastStateOffset relay) = device.userByte (lastStateOffset relay)

theorem SameAt.refl (relay : Relay) (device : RelayDevice) : SameAt relay device device :=
  ⟨rfl, rfl, rfl, rfl⟩

theorem SameAt.trans {relay : Relay} {device middle after : RelayDevice}
    (first : SameAt relay device middle) (second : SameAt relay middle after) :
    SameAt relay device after where
  level := second.level.trans first.level
  relayState := second.relayState.trans first.relayState
  startByte := second.startByte.trans first.startByte
  lastByte := second.lastByte.trans first.lastByte

theorem SameAt.agrees {relay : Relay} {device after : RelayDevice} (h : SameAt relay device after)
    (hAgrees : device.Agrees relay) : after.Agrees relay where
  relayState := by rw [h.relayState, h.level, hAgrees.relayState]
  flash := by rw [h.lastByte, h.relayState, hAgrees.flash]

/-- What a command makes of the level of a relay. -/
def commandedLevel (dioState : Byte) (level : Bool) : Bool :=
  if dioState = relayCommandOff then false
  else if dioState = relayCommandOn then true
  else if dioState = relayCommandToggle then !level
  else level

section Change

variable (device : RelayDevice) {relay other : Relay} (dioState : Byte)

/-- No command to either relay writes a start state. -/
theorem changeState_startByte (relay other : Relay) :
    (device.changeState other dioState).userByte (startStateOffset relay) =
      device.userByte (startStateOffset relay) := by
  have hStart (switched : RelayDevice) : (switched.write (setLastStateFlash other
      (switched.relayState other))).userByte (startStateOffset relay) =
        switched.userByte (startStateOffset relay) :=
    (switched.userByte_write _ _ (startStateOffset_lt relay)).trans
      (if_neg (startStateOffset_ne relay other))
  unfold changeState
  dsimp only
  split_ifs
  all_goals exact hStart _

/-- A command sets all three of its relay. -/
theorem changeState_spec
    (h : device.relayState relay = if device.level relay then 1 else 0) :
    (device.changeState relay dioState).Agrees relay ∧
      (device.changeState relay dioState).level relay =
        commandedLevel dioState (device.level relay) := by
  have hLast (switched : RelayDevice) : (switched.write (setLastStateFlash relay
      (switched.relayState relay))).userByte (lastStateOffset relay) =
        switched.relayState relay :=
    (switched.userByte_write _ _ (lastStateOffset_lt relay)).trans (if_pos rfl)
  have hOff : (device.switchOff relay).relayState relay =
      if (device.switchOff relay).level relay then 1 else 0 := by simp [switchOff]
  have hOn : (device.switchOn relay).relayState relay =
      if (device.switchOn relay).level relay then 1 else 0 := by simp [switchOn]
  have hOne : device.relayState relay = 1 ↔ device.level relay = true := by
    rw [h]
    cases device.level relay with
    | false => decide
    | true => decide
  unfold changeState commandedLevel
  dsimp only
  split_ifs with hOffCommand hOnCommand hToggle hState
  · exact ⟨⟨hOff, hLast _⟩, Function.update_self ..⟩
  · exact ⟨⟨hOn, hLast _⟩, Function.update_self ..⟩
  · rw [hOne.mp hState]
    exact ⟨⟨hOff, hLast _⟩, Function.update_self ..⟩
  · rw [Bool.eq_false_iff.mpr (mt hOne.mpr hState)]
    exact ⟨⟨hOn, hLast _⟩, Function.update_self ..⟩
  · exact ⟨⟨h, hLast _⟩, rfl⟩

/-- And none of the other relay. -/
theorem changeState_sameAt (h : relay ≠ other) :
    SameAt relay device (device.changeState other dioState) := by
  have hStart := device.changeState_startByte dioState relay other
  have hLast (switched : RelayDevice) : (switched.write (setLastStateFlash other
      (switched.relayState other))).userByte (lastStateOffset relay) =
        switched.userByte (lastStateOffset relay) :=
    (switched.userByte_write _ _ (lastStateOffset_lt relay)).trans
      (if_neg (lastStateOffset_injective.ne h))
  unfold changeState at hStart ⊢
  dsimp only at hStart ⊢
  split_ifs at hStart ⊢
  all_goals first
    | exact ⟨Function.update_of_ne h _ _, Function.update_of_ne h _ _, hStart, hLast _⟩
    | exact ⟨rfl, rfl, hStart, hLast _⟩

end Change

/-- The ability numbers lead to the relays that they stand for. -/
theorem changeDioState_dioToAbility (device : RelayDevice) (relay : Relay) (dioState : Byte) :
    device.changeDioState (dioToAbility relay) dioState = device.changeState relay dioState := by
  cases relay with
  | relay1 => rfl
  | relay2 => rfl

section Routine

variable (device : RelayDevice) (relay : Relay)

/-- The variable and the flash change as in the routine that has one value for both pin and
variable. -/
theorem changeState_run (dioState : Byte) :
    (Node.changeDioState relay (device.relayState relay) dioState device.board).1 =
        some ((device.changeState relay dioState).relayState relay) ∧
      (device.changeState relay dioState).board = applyAll
        (Node.changeDioState relay (device.relayState relay) dioState device.board).2
        device.board := by
  have hValue : (device.changeState relay dioState).relayState relay =
      if dioState = relayCommandOff then 0
      else if dioState = relayCommandOn then 1
      else if dioState = relayCommandToggle then (if device.relayState relay = 1 then 0 else 1)
      else device.relayState relay := by
    unfold changeState
    dsimp only
    split_ifs
    all_goals simp [switchOff, switchOn, write]
  have hBoard : (device.changeState relay dioState).board = applyAll (setLastStateFlash relay
      ((device.changeState relay dioState).relayState relay) device.board).2 device.board := by
    unfold changeState
    dsimp only
    split_ifs
    all_goals rfl
  constructor
  · rw [hValue]
    rfl
  · rw [hBoard, hValue]
    rfl

/-- And so does the start-up of a relay, from a variable that is zero. -/
theorem configureChannel_run (h : device.relayState relay = 0) :
    (Node.configureChannel relay device.board).1 =
        some ((device.configureChannel relay).relayState relay) ∧
      (device.configureChannel relay).board =
        applyAll (Node.configureChannel relay device.board).2 device.board := by
  let cleared : RelayDevice := { device with level := Function.update device.level relay false }
  have hChange (dioState : Byte) := cleared.changeState_run relay dioState
  have hZero : cleared.relayState relay = 0 := h
  rw [hZero] at hChange
  have hDio (dioState : Byte) := changeDioState_dioToAbility cleared relay dioState
  have hRun : Node.configureChannel relay device.board =
      (if device.startState relay = startOnLastState then
        Node.changeDioState relay 0 (device.lastState relay)
      else if device.startState relay = startOnOnState then
        Node.changeDioState relay 0 relayCommandOn
      else if device.startState relay = startOnOffState then
        Node.changeDioState relay 0 relayCommandOff
      else return 0) device.board := by
    rw [Node.configureChannel, bind_of_run (device.getStartStateFlash_eq relay)]
    simp only [applyAll_nil, List.nil_append]
    by_cases hLast : device.startState relay = startOnLastState
    · simp only [if_pos hLast, bind_of_run (device.getLastStateFlash_eq relay)]
      rfl
    · simp only [if_neg hLast]
  have hDevice : device.configureChannel relay =
      if device.startState relay = startOnLastState then
        cleared.changeState relay (device.lastState relay)
      else if device.startState relay = startOnOnState then cleared.changeState relay relayCommandOn
      else if device.startState relay = startOnOffState then
        cleared.changeState relay relayCommandOff
      else cleared := by
    simp only [← hDio]
    rfl
  rw [hRun, hDevice]
  split_ifs
  · exact hChange _
  · exact hChange _
  · exact hChange _
  · exact ⟨congrArg some h.symm, rfl⟩

end Routine

section Start

variable (device : RelayDevice) {relay other : Relay}

/-- A relay that starts on its last state takes the saved one for a command. -/
theorem configureChannel_spec
    (hStart : IsLastState (device.userByte (startStateOffset relay)))
    (hReset : device.relayState relay = 0) :
    (device.configureChannel relay).Agrees relay ∧
      (device.configureChannel relay).level relay =
        commandedLevel (device.lastState relay) false ∧
      (device.configureChannel relay).userByte (startStateOffset relay) =
        device.userByte (startStateOffset relay) := by
  let cleared : RelayDevice := { device with level := Function.update device.level relay false }
  have hLevel : cleared.level relay = false := Function.update_self ..
  have hState : cleared.relayState relay = if cleared.level relay then 1 else 0 := by
    rw [hLevel]
    exact hReset
  obtain ⟨hAgrees, hAfter⟩ := changeState_spec cleared (device.lastState relay) hState
  have hByte := cleared.changeState_startByte (device.lastState relay) relay relay
  have hConfigured : device.configureChannel relay =
      cleared.changeState relay (device.lastState relay) := by
    unfold configureChannel
    exact (if_pos (startState_eq hStart)).trans (changeDioState_dioToAbility cleared relay _)
  rw [hConfigured, hAfter, hLevel, hByte]
  exact ⟨hAgrees, rfl, rfl⟩

/-- However a relay starts, the other one is left alone. -/
theorem configureChannel_sameAt (h : relay ≠ other) :
    SameAt relay device (device.configureChannel other) := by
  let cleared : RelayDevice := { device with level := Function.update device.level other false }
  have hCleared : SameAt relay device cleared := ⟨Function.update_of_ne h _ _, rfl, rfl, rfl⟩
  have hChanged (dioState : Byte) :
      SameAt relay device (cleared.changeDioState (dioToAbility other) dioState) := by
    rw [changeDioState_dioToAbility]
    exact hCleared.trans (changeState_sameAt cleared dioState h)
  unfold configureChannel
  dsimp only
  split_ifs
  · exact hChanged _
  · exact hChanged _
  · exact hChanged _
  · exact hCleared

end Start

/-- The level that a saved byte stands for. -/
def savedLevel (board : Board) (relay : Relay) : Bool :=
  let saved := board.internal (startUserFlash + lastStateOffset relay)
  commandedLevel (if saved = 0xFF then relayCommandOff else saved) false

/-- After a power cycle a relay that starts on its last state is at the saved level. -/
theorem powerOn_spec {board : Board} {relay : Relay}
    (hStart : IsLastState (board.internal (startUserFlash + startStateOffset relay))) :
    (powerOn board).Agrees relay ∧ (powerOn board).level relay = savedLevel board relay ∧
      (powerOn board).userByte (startStateOffset relay) =
        board.internal (startUserFlash + startStateOffset relay) := by
  let reset : RelayDevice := ⟨fun _ => false, fun _ => 0, board⟩
  have hPowerOn : powerOn board = (reset.configureChannel .relay1).configureChannel .relay2 := rfl
  have hBoard : savedLevel board relay = commandedLevel (reset.lastState relay) false := rfl
  rw [hPowerOn, hBoard]
  cases relay with
  | relay1 =>
      have hOther : Relay.relay1 ≠ .relay2 := by decide
      obtain ⟨hAgrees, hLevel, hByte⟩ := configureChannel_spec reset hStart rfl
      have hSame := configureChannel_sameAt (reset.configureChannel .relay1) hOther
      exact ⟨hSame.agrees hAgrees, hSame.level.trans hLevel, hSame.startByte.trans hByte⟩
  | relay2 =>
      have hOther : Relay.relay2 ≠ .relay1 := by decide
      have hSame := configureChannel_sameAt reset hOther
      have hLater : IsLastState
          ((reset.configureChannel .relay1).userByte (startStateOffset .relay2)) := by
        rw [hSame.startByte]
        exact hStart
      have hSaved : (reset.configureChannel .relay1).lastState .relay2 =
          reset.lastState .relay2 := by
        unfold lastState
        rw [hSame.lastByte]
      obtain ⟨hAgrees, hLevel, hByte⟩ :=
        configureChannel_spec (reset.configureChannel .relay1) hLater hSame.relayState
      rw [hSaved] at hLevel
      exact ⟨hAgrees, hLevel, hByte.trans hSame.startByte⟩

/-- A command to a relay is carried out by its part of `change_dio_state`, any other leaves the
relay alone. -/
theorem changeDioState_sameAt (device : RelayDevice) {relay : Relay} {abilityNumber : Byte}
    (h : abilityNumber ≠ dioToAbility relay) (dioState : Byte) :
    SameAt relay device (device.changeDioState abilityNumber dioState) := by
  have hOther (other : Relay) (hNumber : abilityNumber = dioToAbility other) : relay ≠ other := by
    rintro rfl
    exact h hNumber
  unfold changeDioState
  split_ifs with hFirst hSecond
  · exact changeState_sameAt device dioState (hOther .relay1 hFirst)
  · exact changeState_sameAt device dioState (hOther .relay2 hSecond)
  · exact SameAt.refl relay device

/-- The message of a command comes to `change_dio_state`, whose own tests refuse what
`exe_relay_command` refuses. -/
theorem carryOut_command (device : RelayDevice) (abilityNumber abilityState : Byte) :
    device.carryOut ⟨dataTypeCommand, deviceAbilityRelay, abilityNumber, abilityState⟩ =
      device.changeDioState abilityNumber abilityState := by
  have hCommand : device.carryOut ⟨dataTypeCommand, deviceAbilityRelay, abilityNumber,
      abilityState⟩ = device.exeRelayCommand ⟨dataTypeCommand, deviceAbilityRelay, abilityNumber,
        abilityState⟩ := rfl
  rw [hCommand, exeRelayCommand]
  split_ifs with hNone
  · rw [changeDioState, if_neg hNone.1, if_neg hNone.2]
  · rfl

end RelayDevice

/-- A message with a command for one of the relays, or a power cycle. -/
inductive RelayEvent where
  | command (abilityNumber abilityState : Byte)
  | powerCycle

namespace RelayDevice

def step (device : RelayDevice) : RelayEvent → RelayDevice
  | .command abilityNumber abilityState =>
      device.carryOut ⟨dataTypeCommand, deviceAbilityRelay, abilityNumber, abilityState⟩
  | .powerCycle => powerOn device.board

/-- What an event makes of the level of a relay: of the commands, only its own change it, and
a power cycle does not. -/
def levelAfter (relay : Relay) (level : Bool) : RelayEvent → Bool
  | .command abilityNumber abilityState =>
      if abilityNumber = dioToAbility relay then commandedLevel abilityState level else level
  | .powerCycle => level

/-- The invariant of a relay that starts on its last state. -/
structure Saved (device : RelayDevice) (relay : Relay) : Prop where
  agrees : device.Agrees relay
  start : IsLastState (device.userByte (startStateOffset relay))

variable {device : RelayDevice} {relay : Relay}

/-- The saved byte of a relay that agrees is its level. -/
theorem Agrees.savedLevel_eq (h : device.Agrees relay) :
    savedLevel device.board relay = device.level relay := by
  have hByte : device.board.internal (startUserFlash + lastStateOffset relay) =
      if device.level relay then 1 else 0 := h.flash.trans h.relayState
  unfold savedLevel
  rw [hByte]
  cases device.level relay with
  | false => rfl
  | true => rfl

theorem saved_powerOn {board : Board}
    (h : IsLastState (board.internal (startUserFlash + startStateOffset relay))) :
    (powerOn board).Saved relay := by
  obtain ⟨hAgrees, -, hByte⟩ := powerOn_spec h
  exact ⟨hAgrees, by rwa [hByte]⟩

/-- One event keeps all three of a relay together. -/
theorem Saved.step (h : device.Saved relay) (event : RelayEvent) :
    (device.step event).Saved relay ∧
      (device.step event).level relay = levelAfter relay (device.level relay) event := by
  cases event with
  | powerCycle =>
      obtain ⟨-, hLevel, -⟩ := powerOn_spec h.start
      rw [RelayDevice.step, levelAfter]
      exact ⟨saved_powerOn h.start, hLevel.trans h.agrees.savedLevel_eq⟩
  | command abilityNumber abilityState =>
      rw [RelayDevice.step, carryOut_command, levelAfter]
      split_ifs with hNumber
      · obtain ⟨hAgrees, hLevel⟩ := changeState_spec device abilityState h.agrees.relayState
        have hStart := h.start
        rw [← device.changeState_startByte abilityState relay relay] at hStart
        rw [hNumber, changeDioState_dioToAbility]
        exact ⟨⟨hAgrees, hStart⟩, hLevel⟩
      · have hSame := changeDioState_sameAt device hNumber abilityState
        have hStart := h.start
        rw [← hSame.startByte] at hStart
        exact ⟨⟨hSame.agrees h.agrees, hStart⟩, hSame.level⟩

theorem Saved.run (h : device.Saved relay) (events : List RelayEvent) :
    (events.foldl RelayDevice.step device).Saved relay ∧
      (events.foldl RelayDevice.step device).level relay =
        events.foldl (levelAfter relay) (device.level relay) := by
  induction events generalizing device with
  | nil => exact ⟨h, rfl⟩
  | cons event events ih =>
      obtain ⟨hNext, hLevel⟩ := h.step event
      rw [List.foldl_cons, List.foldl_cons, ← hLevel]
      exact ih hNext

/-- Without commands of its own a relay stays as it is. -/
theorem foldl_levelAfter_of_none {events : List RelayEvent}
    (h : ∀ abilityState, .command (dioToAbility relay) abilityState ∉ events) (level : Bool) :
    events.foldl (levelAfter relay) level = level := by
  induction events with
  | nil => rfl
  | cons event events ih =>
      have hRest (abilityState : Byte) : .command (dioToAbility relay) abilityState ∉ events :=
        fun hMem => h abilityState (List.mem_cons_of_mem event hMem)
      have hFirst : levelAfter relay level event = level := by
        cases event with
        | powerCycle => rfl
        | command abilityNumber abilityState =>
            refine if_neg ?_
            rintro rfl
            exact h abilityState List.mem_cons_self
      rw [List.foldl_cons, hFirst, ih hRest]

/-- **The state of a relay survives power cycles.** After any commands to both relays and any
power cycles, its pin, its variable and the flash agree, its level is what the commands to it
have made of the saved one, and one more power cycle leaves it there. A relay that was never
commanded, with nothing saved, is off. -/
theorem relay_state_survives (board : Board) (relay : Relay)
    (hStart : IsLastState (board.internal (startUserFlash + startStateOffset relay)))
    (events : List RelayEvent) :
    (events.foldl step (powerOn board)).Agrees relay ∧
      (events.foldl step (powerOn board)).level relay =
        events.foldl (levelAfter relay) (savedLevel board relay) ∧
      ((events.foldl step (powerOn board)).step .powerCycle).level relay =
        (events.foldl step (powerOn board)).level relay ∧
      (board.internal (startUserFlash + lastStateOffset relay) = 0xFF →
        (∀ abilityState, .command (dioToAbility relay) abilityState ∉ events) →
          (events.foldl step (powerOn board)).level relay = false) := by
  obtain ⟨-, hSaved, -⟩ := powerOn_spec hStart
  obtain ⟨hRun, hLevel⟩ := (saved_powerOn hStart).run events
  rw [hSaved] at hLevel
  refine ⟨hRun.agrees, hLevel, (hRun.step .powerCycle).2, fun hBlank hNone => ?_⟩
  rw [hLevel, foldl_levelAfter_of_none hNone, savedLevel, hBlank]
  rfl

/-- A flash of ones. -/
def blankBoard : Board := ⟨fun _ => 0xFF, fun _ => 0xFF, [], false⟩

/-- A relay that is toggled from a blank flash is on after a power cycle. -/
theorem relay_state_survives_toggle :
    (([.command deviceAbilityRelay1 relayCommandToggle, .powerCycle] : List RelayEvent).foldl step
      (powerOn blankBoard)).level .relay1 = true :=
  (relay_state_survives blankBoard .relay1 (Or.inl rfl) _).2.1.trans (by decide)

end RelayDevice
end Smarthome.Node
