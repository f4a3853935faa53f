import Smarthome.Router.Survival
import Smarthome.Semantics.Runs

/-! The rules of `logic.lua` for the addresses that `router.lua` has under their names,
compared with what the router does when a sensor packet comes. -/
namespace Smarthome.Router

open Semantics LuaPattern Coordinator

deriving instance DecidableEq for Logic.RelayState

namespace Automation

open Logic (RelayState)

/-- The names of `router.lua` that `logic.lua` uses. -/
structure Names where
  switchMiniDoor : Option Text
  switchMiniBed : Option Text
  switchMiniTable : Option Text
  switchWc : Option Text
  switchMainRoom : Option Text
  switchKitchen : Option Text
  relayMainRoomTable : Option Text
  relayMainRoom : Option Text
  relayHall : Option Text
  relayKitchen : Option Text
  relayBathroom : Option Text
  relayWc : Option Text

/-- The names as globals, which is how `logic.lua` reads them. -/
def globals : Names where
  switchMiniDoor := Logic.switchMiniDoor
  switchMiniBed := Logic.switchMiniBed
  switchMiniTable := Logic.switchMiniTable
  switchWc := Logic.switchWc
  switchMainRoom := Logic.switchMainRoom
  switchKitchen := Logic.switchKitchen
  relayMainRoomTable := Logic.relayMainRoomTable
  relayMainRoom := Logic.relayMainRoom
  relayHall := Logic.relayHall
  relayKitchen := Logic.relayKitchen
  relayBathroom := Logic.relayBathroom
  relayWc := Logic.relayWc

/-- The names as locals of `router.lua`. -/
def locals : Names where
  switchMiniDoor := some "fd00:0000:0000:0000:0212:4b00:0c47:4b82".toList
  switchMiniBed := some "fd00:0000:0000:0000:0212:4b00:0c47:4a82".toList
  switchMiniTable := some "fd00:0000:0000:0000:0212:4b00:0c47:3b04".toList
  switchWc := some "fd00:0000:0000:0000:0212:4b00:0c47:4b05".toList
  switchMainRoom := some "fd00:0000:0000:0000:0212:4b00:0c47:3a00".toList
  switchKitchen := some "fd00:0000:0000:0000:0212:4b00:0c47:4880".toList
  relayMainRoomTable := some "fd00:0000:0000:0000:0212:4b00:0c47:4a85".toList
  relayMainRoom := some "fd00:0000:0000:0000:0212:4b00:0c47:3e00".toList
  relayHall := some "fd00:0000:0000:0000:0212:4b00:0c47:3c84".toList
  relayKitchen := some "fd00:0000:0000:0000:0212:4b00:0c47:4a02".toList
  relayBathroom := some "fd00:0000:0000:0000:0212:4b00:0c47:4802".toList
  relayWc := some "fd00:0000:0000:0000:0212:4b00:0c47:4886".toList

/-- A call that a rule makes. -/
inductive Call where
  | sendRelayCommand (relay : Option Text) (number : Nat) (state : RelayState)
  | sleep (seconds : Nat)
  deriving DecidableEq

/-- What a handler does: its calls, in their order, and the variable `state` after them. -/
structure Rule where
  calls : List Call
  state : LogicState
  deriving DecidableEq

open Call

variable (names : Names)

/-- `all_relay`. -/
def allRelay (command : RelayState) : List Call :=
  [sendRelayCommand names.relayMainRoom 1 command,
    sendRelayCommand names.relayMainRoomTable 1 command,
    sendRelayCommand names.relayMainRoomTable 2 command,
    sendRelayCommand names.relayKitchen 1 command,
    sendRelayCommand names.relayHall 1 command,
    sendRelayCommand names.relayBathroom 1 command,
    sendRelayCommand names.relayWc 1 command]

/-- `logic.motion_sensor_event_handler`. -/
def motionSensorEventHandler (state : LogicState) (currentEvent : MotionEvent) : Rule :=
  match currentEvent with
  | .motion => ⟨[sendRelayCommand names.relayHall 1 .on], state⟩
  | .nomotion => ⟨[], state⟩

/-- The button C of a switch with four states. -/
def nextState : LogicState → Rule
  | .allOn => ⟨[sendRelayCommand names.relayMainRoomTable 2 .off,
      sendRelayCommand names.relayMainRoomTable 1 .off], .allOff⟩
  | .allOff => ⟨[sendRelayCommand names.relayMainRoomTable 2 .on,
      sendRelayCommand names.relayMainRoomTable 1 .off], .twoOn⟩
  | .twoOn => ⟨[sendRelayCommand names.relayMainRoomTable 2 .off,
      sendRelayCommand names.relayMainRoomTable 1 .on], .oneOn⟩
  | .oneOn => ⟨[sendRelayCommand names.relayMainRoomTable 2 .on,
      sendRelayCommand names.relayMainRoomTable 1 .on], .allOn⟩

/-- A switch that toggles one relay, with a click or a long click of any button. -/
def toggleAny (relay : Option Text) (state : LogicState) (buttonName : Text)
    (currentEvent : ButtonEvent) : Rule :=
  if (buttonName = ['A'] ∨ buttonName = ['B'] ∨ buttonName = ['C'] ∨ buttonName = ['D']) ∧
      (currentEvent = .click ∨ currentEvent = .longclick) then
    ⟨[sendRelayCommand relay 1 .toggle], state⟩
  else ⟨[], state⟩

/-- `logic.button_sensor_event_handler`. -/
def buttonSensorEventHandler (state : LogicState) (currentSwitch buttonName : Text)
    (currentEvent : ButtonEvent) : Rule :=
  if some currentSwitch = names.switchMiniBed ∨ some currentSwitch = names.switchMiniTable then
    if buttonName = ['B'] ∧ currentEvent = .click then ⟨allRelay names .on, .allOn⟩
    else if buttonName = ['C'] ∧ currentEvent = .click then nextState names state
    else if buttonName = ['C'] ∧ currentEvent = .longclick then
      ⟨[sendRelayCommand names.relayMainRoom 1 .toggle], state⟩
    else if buttonName = ['D'] ∧ currentEvent = .click then ⟨allRelay names .off, .allOff⟩
    else ⟨[], state⟩
  else if some currentSwitch = names.switchMiniDoor then
    if buttonName = ['B'] ∧ currentEvent = .click then ⟨allRelay names .on, .allOn⟩
    else if buttonName = ['C'] ∧ currentEvent = .click then
      ⟨[sendRelayCommand names.relayHall 1 .toggle], state⟩
    else if buttonName = ['D'] ∧ currentEvent = .click then
      ⟨allRelay names .off ++ [sendRelayCommand names.relayHall 1 .on, sleep 10,
        sendRelayCommand names.relayHall 1 .off], .allOff⟩
    else ⟨[], state⟩
  else if some currentSwitch = names.switchWc then
    if buttonName = ['A'] ∧ currentEvent = .click then
      ⟨[sendRelayCommand names.relayBathroom 1 .toggle], state⟩
    else if buttonName = ['B'] ∧ currentEvent = .click then
      ⟨[sendRelayCommand names.relayWc 1 .toggle], state⟩
    else if buttonName = ['C'] ∧ currentEvent = .click then
      ⟨[sendRelayCommand names.relayHall 1 .toggle], state⟩
    else if buttonName = ['D'] ∧ currentEvent = .click then
      ⟨[sendRelayCommand names.relayKitchen 1 .toggle], state⟩
    else ⟨[], state⟩
  else if some currentSwitch = names.switchMainRoom then
    toggleAny names.relayMainRoom state buttonName currentEvent
  else if some currentSwitch = names.switchKitchen then
    toggleAny names.relayKitchen state buttonName currentEvent
  else ⟨[], state⟩

/-- The rule that `sensor_data_processing` comes to, or the error of an event that is in
no table. -/
def sensorDataProcessing (state : LogicState) (ipv6Adress : Text) (data : PacketData) :
    Except Stop Rule :=
  if data.byte 1 = ['0', '7'] then
    match deviceMotionsensorEvents (data.byte 4) with
    | some currentEvent => .ok (motionSensorEventHandler names state currentEvent)
    | none => .error .luaError
  else if data.byte 1 = ['0', '1'] then
    match fromhex (data.byte 3), deviceButtonEvents (data.byte 4) with
    | some name, some currentEvent => .ok (buttonSensorEventHandler names state ipv6Adress
        (name.map fun c => (Char.ofNat c.toNat).toUpper) currentEvent)
    | _, _ => .error .luaError
  else .ok ⟨[], state⟩

/-- `send_command_to_ability`: the segments of the frame. -/
def sendCommandToAbility (ipv6Adress : Text) (abilityTarget abilityNumber abilityState : Byte) :
    Except Stop (List (List Byte)) :=
  match (ipv6AdressParse ipv6Adress).bind fromhex with
  | none => .error .luaError
  | some adress =>
      match uartSend (adress ++ [protocolVersionV1, deviceVersionV1, dataTypeCommand,
          abilityTarget, abilityNumber, abilityState]) with
      | none => .error .luaError
      | some segments => .ok segments

/-- The code of a relay's state. -/
def abilityState : RelayState → Byte
  | .on => 0x01
  | .off => 0x00
  | .toggle => 0x80

/-- `send_relay_command` of `router.lua`. The number is nil if the relay has another one. -/
def sendRelayCommandFrame (ipv6Adress : Option Text) (relayNumber : Nat) (relayState : RelayState) :
    Except Stop (List (List Byte)) :=
  match ipv6Adress, relayNumber with
  | some adress, 1 => sendCommandToAbility adress 0x11 0x01 (abilityState relayState)
  | some adress, 2 => sendCommandToAbility adress 0x11 0x02 (abilityState relayState)
  | _, _ => .error .luaError

/-- The frames of the calls, when each `send_relay_command` is the one of `router.lua`. -/
def frames : List Call → Except Stop (List (List (List Byte)))
  | [] => .ok []
  | sleep _ :: calls => frames calls
  | sendRelayCommand relay number state :: calls => do
      let frame ← sendRelayCommandFrame relay number state
      let rest ← frames calls
      return frame :: rest

/-- A rule as `logic.lua` runs it, where `send_relay_command` is no function. -/
def Rule.run (rule : Rule) : Except Stop LogicState := do
  rule.calls.forM fun call =>
    match call with
    | sendRelayCommand relay number state => Logic.sendRelayCommand relay number state
    | sleep _ => .ok ()
  return rule.state

/-- The handler of the buttons is the one of `logic.lua` when the names are globals. -/
theorem run_buttonSensorEventHandler (state : LogicState) (currentSwitch buttonName : Text)
    (currentEvent : ButtonEvent) :
    (buttonSensorEventHandler globals state currentSwitch buttonName currentEvent).run =
      Logic.buttonSensorEventHandler state currentSwitch buttonName currentEvent := by
  rw [buttonSensorEventHandler_eq]
  simp [buttonSensorEventHandler, globals, Logic.switchMiniBed, Logic.switchMiniTable,
    Logic.switchMiniDoor, Logic.switchWc, Logic.switchMainRoom, Logic.switchKitchen, Rule.run]
  rfl

/-- So is the handler of the motion sensors, and with both `sensor_data_processing`. -/
theorem sensorDataProcessing_globals (state : RouterState) (ipv6Adress : Text)
    (data : PacketData) :
    Router.sensorDataProcessing state ipv6Adress data = (do
      let rule ← sensorDataProcessing globals state.logicState ipv6Adress data
      let logicState ← rule.run
      return { state with logicState }) := by
  have hOther : data.byte 1 = ['0', '7'] → data.byte 1 ≠ ['0', '1'] := by
    intro h
    rw [h]
    decide
  unfold Router.sensorDataProcessing sensorDataProcessing
  by_cases hMotion : data.byte 1 = ['0', '7']
  · rw [if_pos hMotion, if_pos hMotion, if_neg (hOther hMotion), motionSensorDataProcessing]
    cases deviceMotionsensorEvents (data.byte 4) with
    | none => rfl
    | some event =>
        cases event with
        | motion => rfl
        | nomotion => rfl
  · rw [if_neg hMotion, if_neg hMotion]
    by_cases hButton : data.byte 1 = ['0', '1']
    · rw [if_pos hButton, if_pos hButton, buttonDataProcessing]
      cases fromhex (data.byte 3) with
      | none => rfl
      | some name =>
          cases deviceButtonEvents (data.byte 4) with
          | none => rfl
          | some event =>
              dsimp only
              rw [← run_buttonSensorEventHandler]
              rfl
    · rw [if_neg hButton, if_neg hButton]
      rfl

/-- A click for which the handler has a rule with commands. -/
def HasRule (currentSwitch buttonName : Text) (currentEvent : ButtonEvent) : Prop :=
  ((some currentSwitch = locals.switchMiniBed ∨ some currentSwitch = locals.switchMiniTable) ∧
    (currentEvent = .click ∧ buttonName ∈ [['B'], ['C'], ['D']] ∨
      currentEvent = .longclick ∧ buttonName = ['C'])) ∨
  (some currentSwitch = locals.switchMiniDoor ∧ currentEvent = .click ∧
    buttonName ∈ [['B'], ['C'], ['D']]) ∨
  (some currentSwitch = locals.switchWc ∧ currentEvent = .click ∧
    buttonName ∈ [['A'], ['B'], ['C'], ['D']]) ∨
  ((some currentSwitch = locals.switchMainRoom ∨ some currentSwitch = locals.switchKitchen) ∧
    (currentEvent = .click ∨ currentEvent = .longclick) ∧
    buttonName ∈ [['A'], ['B'], ['C'], ['D']])

/-- Each switch has an address of its own. -/
theorem switches_nodup : [locals.switchMiniBed, locals.switchMiniTable, locals.switchMiniDoor,
    locals.switchWc, locals.switchMainRoom, locals.switchKitchen].Nodup := by decide +kernel

theorem switch_ne {currentSwitch : Text} {own other : Option Text}
    (h : some currentSwitch = own) (hNe : own ≠ other) : some currentSwitch ≠ other :=
  fun hOther => hNe (h.symm.trans hOther)

theorem nextState_calls (state : LogicState) : (nextState locals state).calls ≠ [] := by
  cases state <;> exact List.cons_ne_nil _ _

theorem allRelay_ne_nil (command : RelayState) : allRelay locals command ≠ [] :=
  List.cons_ne_nil _ _

/-- A branch with commands, and then the others. -/
theorem calls_ite {c : Prop} [Decidable c] {first second : Rule} (h : ¬ first.calls = []) :
    ¬ (if c then first else second).calls = [] ↔ c ∨ ¬ second.calls = [] := by
  split_ifs with hc
  · simp [h, hc]
  · simp [hc]

theorem toggleAny_calls (relay : Option Text) (state : LogicState) (buttonName : Text)
    (currentEvent : ButtonEvent) : (toggleAny relay state buttonName currentEvent).calls ≠ [] ↔
      (currentEvent = .click ∨ currentEvent = .longclick) ∧
        buttonName ∈ [['A'], ['B'], ['C'], ['D']] := by
  have hButtons : (buttonName = ['A'] ∨ buttonName = ['B'] ∨ buttonName = ['C'] ∨
      buttonName = ['D']) ↔ buttonName ∈ [['A'], ['B'], ['C'], ['D']] := by simp
  rw [toggleAny, ← hButtons]
  split_ifs with h
  · simp [h.1, h.2]
  · simp only [ne_eq, not_true_eq_false, false_iff]
    exact fun h' => h h'.symm

/-- Exactly the clicks of a rule lead to commands. -/
theorem buttonSensorEventHandler_calls (state : LogicState) (currentSwitch buttonName : Text)
    (currentEvent : ButtonEvent) :
    (buttonSensorEventHandler locals state currentSwitch buttonName currentEvent).calls ≠ [] ↔
      HasRule currentSwitch buttonName currentEvent := by
  have hNodup := switches_nodup
  simp only [List.nodup_cons, List.mem_cons, List.not_mem_nil, or_false, not_or,
    List.nodup_nil, and_true] at hNodup
  obtain ⟨⟨-, hBedDoor, hBedWc, hBedMain, hBedKitchen⟩,
    ⟨hTableDoor, hTableWc, hTableMain, hTableKitchen⟩, ⟨hDoorWc, hDoorMain, hDoorKitchen⟩,
    ⟨hWcMain, hWcKitchen⟩, -⟩ := hNodup
  have hLeaves (command : RelayState) : (allRelay locals command = []) = False :=
    eq_false (allRelay_ne_nil command)
  have hNext : ((nextState locals state).calls = []) = False := eq_false (nextState_calls state)
  unfold buttonSensorEventHandler HasRule
  by_cases hBed : some currentSwitch = locals.switchMiniBed ∨
      some currentSwitch = locals.switchMiniTable
  · have hDoor : some currentSwitch ≠ locals.switchMiniDoor := by
      rcases hBed with h | h
      · exact switch_ne h hBedDoor
      · exact switch_ne h hTableDoor
    have hWc : some currentSwitch ≠ locals.switchWc := by
      rcases hBed with h | h
      · exact switch_ne h hBedWc
      · exact switch_ne h hTableWc
    have hRooms : ¬ (some currentSwitch = locals.switchMainRoom ∨
        some currentSwitch = locals.switchKitchen) := by
      rcases hBed with h | h
      · exact not_or.mpr ⟨switch_ne h hBedMain, switch_ne h hBedKitchen⟩
      · exact not_or.mpr ⟨switch_ne h hTableMain, switch_ne h hTableKitchen⟩
    simp only [hBed, hDoor, hWc, hRooms, if_true, true_and, false_and, or_false, ne_eq, calls_ite,
      hLeaves, hNext, reduceCtorEq, not_false_eq_true, not_true_eq_false, List.mem_cons,
      List.not_mem_nil]
    grind
  · rw [if_neg hBed]
    simp only [hBed, false_and, false_or]
    by_cases hDoor : some currentSwitch = locals.switchMiniDoor
    · have hWc : some currentSwitch ≠ locals.switchWc := switch_ne hDoor hDoorWc
      have hRooms : ¬ (some currentSwitch = locals.switchMainRoom ∨
          some currentSwitch = locals.switchKitchen) :=
        not_or.mpr ⟨switch_ne hDoor hDoorMain, switch_ne hDoor hDoorKitchen⟩
      simp only [eq_true hDoor, hWc, hRooms, if_true, true_and, false_and, or_false, ne_eq,
        calls_ite, List.append_eq_nil_iff, hLeaves, reduceCtorEq, not_false_eq_true,
        not_true_eq_false, List.mem_cons, List.not_mem_nil]
      grind
    · rw [if_neg hDoor]
      simp only [hDoor, false_and, false_or]
      by_cases hWc : some currentSwitch = locals.switchWc
      · have hRooms : ¬ (some currentSwitch = locals.switchMainRoom ∨
            some currentSwitch = locals.switchKitchen) :=
          not_or.mpr ⟨switch_ne hWc hWcMain, switch_ne hWc hWcKitchen⟩
        simp only [eq_true hWc, hRooms, if_true, true_and, false_and, or_false, ne_eq, calls_ite,
          reduceCtorEq, not_false_eq_true, not_true_eq_false, List.mem_cons, List.not_mem_nil]
        grind
      · rw [if_neg hWc]
        simp only [hWc, false_and, false_or]
        by_cases hMain : some currentSwitch = locals.switchMainRoom
        · rw [if_pos hMain, toggleAny_calls]
          simp only [hMain, true_or, true_and]
        · rw [if_neg hMain]
          by_cases hKitchen : some currentSwitch = locals.switchKitchen
          · rw [if_pos hKitchen, toggleAny_calls]
            simp only [hKitchen, or_true, true_and]
          · simp [hMain, hKitchen]

/-- The last command to a relay of `relay_main_room_table`. -/
def lastCommand (calls : List Call) (number : Nat) : Option RelayState :=
  (calls.filterMap fun call =>
    match call with
    | sendRelayCommand relay relayNumber state =>
        if relay = locals.relayMainRoomTable ∧ relayNumber = number then some state else none
    | sleep _ => none).getLast?

/-- The relays 1 and 2 of the table in each state. -/
def tableRelays : LogicState → RelayState × RelayState
  | .allOn => (.on, .on)
  | .allOff => (.off, .off)
  | .twoOn => (.off, .on)
  | .oneOn => (.on, .off)

/-- The state is the one of the last commands, once there is one for each of the relays. -/
def Agrees (calls : List Call) (state : LogicState) : Prop :=
  ∀ one two, lastCommand calls 1 = some one → lastCommand calls 2 = some two →
    tableRelays state = (one, two)

/-- A property of the rules of both handlers is one of the rule of a packet. -/
theorem sensorDataProcessing_elim {names : Names} {state : LogicState} {ipv6Adress : Text}
    {data : PacketData} {rule : Rule} {P : Rule → Prop}
    (h : sensorDataProcessing names state ipv6Adress data = .ok rule)
    (hMotion : ∀ event, P (motionSensorEventHandler names state event))
    (hButton : ∀ name event, P (buttonSensorEventHandler names state ipv6Adress name event))
    (hNone : P ⟨[], state⟩) : P rule := by
  unfold sensorDataProcessing at h
  split_ifs at h
  · cases hEvent : deviceMotionsensorEvents (data.byte 4) with
    | none => simp [hEvent] at h
    | some event =>
        rw [hEvent] at h
        obtain rfl := Except.ok.inj h
        exact hMotion event
  · cases hName : fromhex (data.byte 3) with
    | none => simp [hName] at h
    | some name =>
        cases hEvent : deviceButtonEvents (data.byte 4) with
        | none => simp [hName, hEvent] at h
        | some event =>
            rw [hName, hEvent] at h
            obtain rfl := Except.ok.inj h
            exact hButton _ event
  · obtain rfl := Except.ok.inj h
    exact hNone

/-- A property of each of the rules that `button_sensor_event_handler` has is one of the rule
that it comes to. -/
theorem buttonSensorEventHandler_elim {names : Names} {state : LogicState} {P : Rule → Prop}
    (currentSwitch buttonName : Text) (currentEvent : ButtonEvent) (hNone : P ⟨[], state⟩)
    (hOn : P ⟨allRelay names .on, .allOn⟩) (hOff : P ⟨allRelay names .off, .allOff⟩)
    (hLeave : P ⟨allRelay names .off ++ [sendRelayCommand names.relayHall 1 .on, sleep 10,
      sendRelayCommand names.relayHall 1 .off], .allOff⟩)
    (hNext : P (nextState names state))
    (hToggle : ∀ relay ∈ [names.relayMainRoom, names.relayHall, names.relayKitchen,
      names.relayBathroom, names.relayWc], P ⟨[sendRelayCommand relay 1 .toggle], state⟩) :
    P (buttonSensorEventHandler names state currentSwitch buttonName currentEvent) := by
  have hMainRoom := hToggle names.relayMainRoom (by simp)
  have hHall := hToggle names.relayHall (by simp)
  have hKitchen := hToggle names.relayKitchen (by simp)
  have hBathroom := hToggle names.relayBathroom (by simp)
  have hWc := hToggle names.relayWc (by simp)
  have hRest {c : Prop} [Decidable c] {first second : Rule} (hFirst : P first)
      (hSecond : P second) : P (if c then first else second) :=
    iteInduction (fun _ => hFirst) fun _ => hSecond
  unfold buttonSensorEventHandler toggleAny
  apply hRest
  · exact hRest hOn (hRest hNext (hRest hMainRoom (hRest hOff hNone)))
  apply hRest
  · exact hRest hOn (hRest hHall (hRest hLeave hNone))
  apply hRest
  · exact hRest hBathroom (hRest hWc (hRest hHall (hRest hKitchen hNone)))
  apply hRest
  · exact hRest hMainRoom hNone
  apply hRest
  · exact hRest hKitchen hNone
  exact hNone

/-- No handler sleeps before its first command. -/
theorem buttonSensorEventHandler_head (names : Names) (state : LogicState)
    (currentSwitch buttonName : Text) (currentEvent : ButtonEvent) (seconds : Nat)
    (calls : List Call) :
    (buttonSensorEventHandler names state currentSwitch buttonName currentEvent).calls ≠
      sleep seconds :: calls := by
  have hNext : (nextState names state).calls ≠ sleep seconds :: calls := by
    cases state <;> exact nofun
  exact buttonSensorEventHandler_elim (P := fun rule => rule.calls ≠ sleep seconds :: calls)
    currentSwitch buttonName currentEvent nofun nofun nofun nofun hNext fun _ _ => nofun

theorem sensorDataProcessing_head {names : Names} {state : LogicState} {ipv6Adress : Text}
    {data : PacketData} {rule : Rule}
    (h : sensorDataProcessing names state ipv6Adress data = .ok rule) (seconds : Nat)
    (calls : List Call) : rule.calls ≠ sleep seconds :: calls := by
  refine sensorDataProcessing_elim (P := fun rule => rule.calls ≠ sleep seconds :: calls) h
    (fun event => ?_) (fun name event => ?_) nofun
  · cases event <;> exact nofun
  · exact buttonSensorEventHandler_head names state ipv6Adress name event seconds calls

/-- A command is written as a frame. -/
theorem frames_ne_nil {relay : Option Text} {number : Nat} {command : RelayState}
    {calls : List Call} : frames (sendRelayCommand relay number command :: calls) ≠ .ok [] := by
  rw [frames]
  cases sendRelayCommandFrame relay number command with
  | error stop => exact fun h => nomatch h
  | ok frame =>
      cases frames calls with
      | error stop => exact fun h => nomatch h
      | ok rest => exact fun h => nomatch h

/-- Without a frame there was no command. -/
theorem lastCommand_of_frames_nil {calls : List Call} (h : frames calls = .ok []) (number : Nat) :
    lastCommand calls number = none := by
  induction calls with
  | nil => rfl
  | cons call calls ih =>
      cases call with
      | sendRelayCommand relay number command => exact absurd h frames_ne_nil
      | sleep seconds => exact ih h

theorem lastCommand_append (first second : List Call) (number : Nat) :
    lastCommand (first ++ second) number =
      (lastCommand second number).or (lastCommand first number) := by
  rw [lastCommand, List.filterMap_append, List.getLast?_append]
  rfl

/-- A rule leaves both relays of the table alone, with the state, or commands both. -/
def Rule.Consistent (rule : Rule) (state : LogicState) : Prop :=
  (lastCommand rule.calls 1 = none ∧ lastCommand rule.calls 2 = none ∧ rule.state = state) ∨
    (lastCommand rule.calls 1 = some (tableRelays rule.state).1 ∧
      lastCommand rule.calls 2 = some (tableRelays rule.state).2)

/-- No other relay has the address of the one at the table. -/
theorem relays_ne_table : ∀ relay ∈ [locals.relayMainRoom, locals.relayHall, locals.relayKitchen,
    locals.relayBathroom, locals.relayWc], relay ≠ locals.relayMainRoomTable := by decide +kernel

/-- Commands to other relays are none to those of the table. -/
theorem lastCommand_of_ne {relay : Option Text} (h : relay ≠ locals.relayMainRoomTable)
    (command : RelayState) (calls : List Call) (number : Nat) :
    lastCommand (sendRelayCommand relay 1 command :: calls) number = lastCommand calls number := by
  simp [lastCommand, h]

theorem lastCommand_allRelay (command : RelayState) :
    lastCommand (allRelay locals command) 1 = some command ∧
      lastCommand (allRelay locals command) 2 = some command := by
  have hOther := relays_ne_table
  simp only [List.forall_mem_cons] at hOther
  obtain ⟨hMainRoom, hHall, hKitchen, hBathroom, hWc, -⟩ := hOther
  constructor
  · simp [lastCommand, allRelay, hMainRoom, hHall, hKitchen, hBathroom, hWc]
  · simp [lastCommand, allRelay, hMainRoom, hHall, hKitchen, hBathroom, hWc]

theorem consistent_nextState (state : LogicState) :
    (nextState locals state).Consistent state := by
  cases state <;> exact Or.inr ⟨by simp [lastCommand, nextState, tableRelays],
    by simp [lastCommand, nextState, tableRelays]⟩

theorem consistent_buttonSensorEventHandler (state : LogicState) (currentSwitch buttonName : Text)
    (currentEvent : ButtonEvent) :
    (buttonSensorEventHandler locals state currentSwitch buttonName currentEvent).Consistent
      state := by
  have hHall := relays_ne_table locals.relayHall (by simp)
  apply buttonSensorEventHandler_elim (P := fun rule => rule.Consistent state)
  · exact Or.inl ⟨rfl, rfl, rfl⟩
  · exact Or.inr (lastCommand_allRelay .on)
  · exact Or.inr (lastCommand_allRelay .off)
  · have hRest (number : Nat) : lastCommand [sendRelayCommand locals.relayHall 1 .on, sleep 10,
        sendRelayCommand locals.relayHall 1 .off] number = none := by
      rw [lastCommand_of_ne hHall]
      exact lastCommand_of_ne hHall .off [] number
    refine Or.inr ⟨?_, ?_⟩
    · rw [lastCommand_append, hRest, Option.none_or]
      exact (lastCommand_allRelay .off).1
    · rw [lastCommand_append, hRest, Option.none_or]
      exact (lastCommand_allRelay .off).2
  · exact consistent_nextState state
  · intro relay hMem
    have hRelay := relays_ne_table relay hMem
    exact Or.inl ⟨lastCommand_of_ne hRelay .toggle [] 1, lastCommand_of_ne hRelay .toggle [] 2, rfl⟩

theorem consistent_sensorDataProcessing {state : LogicState} {ipv6Adress : Text}
    {data : PacketData} {rule : Rule}
    (h : sensorDataProcessing locals state ipv6Adress data = .ok rule) : rule.Consistent state := by
  refine sensorDataProcessing_elim (P := fun rule => rule.Consistent state) h
    (fun event => ?_) (fun name event => ?_) (Or.inl ⟨rfl, rfl, rfl⟩)
  · cases event with
    | motion =>
        have hHall := relays_ne_table locals.relayHall (by simp)
        exact Or.inl ⟨lastCommand_of_ne hHall .on [] 1, lastCommand_of_ne hHall .on [] 2, rfl⟩
    | nomotion => exact Or.inl ⟨rfl, rfl, rfl⟩
  · exact consistent_buttonSensorEventHandler state ipv6Adress name event

/-- A command to one of the relays that `router.lua` names. -/
def Call.Configured : Call → Prop
  | sendRelayCommand relay number _ => relay ∈ [locals.relayMainRoomTable, locals.relayMainRoom,
      locals.relayHall, locals.relayKitchen, locals.relayBathroom, locals.relayWc] ∧
      (number = 1 ∨ number = 2)
  | sleep _ => True

instance (call : Call) : Decidable call.Configured :=
  match call with
  | sendRelayCommand _ _ _ => inferInstanceAs (Decidable (_ ∧ _))
  | sleep _ => inferInstanceAs (Decidable True)

theorem sendRelayCommandFrame_ok {relay : Option Text} {number : Nat} {state : RelayState}
    (h : (sendRelayCommand relay number state).Configured) :
    ∃ frame, sendRelayCommandFrame relay number state = .ok frame := by
  have hAbility {relay : Text} (target number state : Byte)
      (hRelay : ((ipv6AdressParse relay).bind fromhex).isSome = true) :
      ∃ frame, sendCommandToAbility relay target number state = .ok frame := by
    obtain ⟨adress, hAdress⟩ := Option.isSome_iff_exists.mp hRelay
    obtain ⟨segments, hSegments⟩ := RawPacket.uartSend_some (adress ++
      [protocolVersionV1, deviceVersionV1, dataTypeCommand, target, number, state])
    rw [sendCommandToAbility, hAdress]
    dsimp only
    rw [hSegments]
    exact ⟨segments, rfl⟩
  have hRelays : ∀ relay ∈ [locals.relayMainRoomTable, locals.relayMainRoom, locals.relayHall,
      locals.relayKitchen, locals.relayBathroom, locals.relayWc],
      ((relay.bind ipv6AdressParse).bind fromhex).isSome = true := by decide +kernel
  obtain ⟨hMem, hNumber⟩ := h
  have hParsed := hRelays relay hMem
  cases relay with
  | none => cases hParsed
  | some adress =>
      rcases hNumber with rfl | rfl
      · exact hAbility _ _ _ hParsed
      · exact hAbility _ _ _ hParsed

theorem frames_ok {calls : List Call} (h : ∀ call ∈ calls, call.Configured) :
    ∃ written, frames calls = .ok written := by
  induction calls with
  | nil => exact ⟨[], rfl⟩
  | cons call calls ih =>
      rw [List.forall_mem_cons] at h
      obtain ⟨rest, hRest⟩ := ih h.2
      cases call with
      | sendRelayCommand relay number state =>
          obtain ⟨frame, hFrame⟩ := sendRelayCommandFrame_ok h.1
          rw [frames, hFrame, hRest]
          exact ⟨frame :: rest, rfl⟩
      | sleep seconds => exact ⟨rest, hRest⟩

theorem configured_buttonSensorEventHandler (state : LogicState)
    (currentSwitch buttonName : Text) (currentEvent : ButtonEvent) :
    ∀ call ∈ (buttonSensorEventHandler locals state currentSwitch buttonName currentEvent).calls,
      call.Configured := by
  have hAll (command : RelayState) : ∀ call ∈ allRelay locals command, call.Configured := by
    simp [allRelay, Call.Configured]
  apply buttonSensorEventHandler_elim (P := fun rule => ∀ call ∈ rule.calls, call.Configured)
  · exact nofun
  · exact hAll .on
  · exact hAll .off
  · exact List.forall_mem_append.mpr ⟨hAll .off, by simp [Call.Configured]⟩
  · cases state <;> simp [nextState, Call.Configured]
  · intro relay hMem
    exact List.forall_mem_singleton.mpr ⟨List.mem_cons_of_mem _ hMem, Or.inl rfl⟩

/-- Each command of a rule is written as a frame to the relay that it names. -/
theorem frames_sensorDataProcessing {state : LogicState} {ipv6Adress : Text}
    {data : PacketData} {rule : Rule}
    (h : sensorDataProcessing locals state ipv6Adress data = .ok rule) :
    ∃ written, frames rule.calls = .ok written := by
  apply frames_ok
  refine sensorDataProcessing_elim (P := fun rule => ∀ call ∈ rule.calls, call.Configured) h
    (fun event => ?_) (fun name event => ?_) nofun
  · cases event
    · exact List.forall_mem_singleton.mpr (by simp [Call.Configured])
    · exact nofun
  · exact configured_buttonSensorEventHandler state ipv6Adress name event

end Automation

open Automation

namespace RawPacket

/-- The button that a packet names. -/
def buttonName (packet : RawPacket) : Text := [(Char.ofNat (packet.byte 5).toNat).toUpper]

/-- A packet for which there is a rule with commands. -/
def MatchesRule (packet : RawPacket) : Prop :=
  (packet.table.byte 1 = ['0', '7'] ∧
    deviceMotionsensorEvents (packet.table.byte 4) = some .motion) ∨
  (packet.table.byte 1 = ['0', '1'] ∧
    ∃ event, deviceButtonEvents (packet.table.byte 4) = some event ∧
      HasRule packet.adress packet.buttonName event)

/-- The rule that a packet comes to has commands if and only if it is one of those. -/
theorem matchesRule_iff (state : LogicState) (packet : RawPacket) :
    packet.MatchesRule ↔ ∃ rule, Automation.sensorDataProcessing locals state packet.adress
      packet.table = .ok rule ∧ rule.calls ≠ [] := by
  have hOther : packet.table.byte 1 = ['0', '7'] → packet.table.byte 1 ≠ ['0', '1'] := by
    intro h
    rw [h]
    decide
  have hName : fromhex (packet.table.byte 3) = some [packet.byte 5] := by
    rw [packet.table_byte (by decide) (by decide), fromhex_upperHex02]
  unfold MatchesRule Automation.sensorDataProcessing
  by_cases hMotion : packet.table.byte 1 = ['0', '7']
  · rw [if_pos hMotion]
    simp only [eq_true hMotion, hOther hMotion, true_and, false_and, or_false]
    cases deviceMotionsensorEvents (packet.table.byte 4) with
    | none => simp
    | some event => cases event <;> simp [motionSensorEventHandler]
  · rw [if_neg hMotion]
    simp only [hMotion, false_and, false_or]
    by_cases hButton : packet.table.byte 1 = ['0', '1']
    · rw [if_pos hButton, hName]
      simp only [eq_true hButton, true_and]
      cases deviceButtonEvents (packet.table.byte 4) with
      | none => simp
      | some event =>
          simp only [Option.some.injEq, exists_eq_left', Except.ok.injEq]
          exact (buttonSensorEventHandler_calls state packet.adress packet.buttonName event).symm
    · simp [hButton]

end RawPacket

/-- A packet of the type that sensors send. -/
abbrev SensorPacket := { packet : RawPacket // packet.Of 0x02 }

/-- What the router does with a sensor packet; there is no next state if the program ends. -/
def sensorStep (state : RouterState) (packet : SensorPacket) : Option RouterState :=
  (packetParse false state packet.1.text).toOption

/-- The rule that matches a packet, if there is one, runs to its end: each of its commands
is written as one frame, and the state is the one it sets. -/
def RunsRule (state : RouterState) (packet : SensorPacket) : Prop :=
  ∀ rule, Automation.sensorDataProcessing locals state.logicState packet.1.adress
    packet.1.table = .ok rule → rule.calls ≠ [] →
    ∃ written, frames rule.calls = .ok written ∧ packetParse false state packet.1.text =
      .ok { state with written := state.written ++ written, logicState := rule.state }

/-- The state agrees with the commands that have been written. -/
def StateAgrees (state : RouterState) : Prop :=
  ∀ calls, frames calls = .ok state.written → Agrees calls state.logicState

/-- A sensor packet leaves the state of the router as it is, or ends the program. -/
theorem packetParse_sensor (state : RouterState) (packet : SensorPacket) :
    packetParse false state packet.1.text = .ok state ∨
      packetParse false state packet.1.text = .error .luaError := by
  rw [packet.1.packetParse_text, if_neg Bool.false_ne_true, RawPacket.packetProcessing_eq,
    if_pos packet.2]
  by_cases hKnown : packet.1.KnownEvent
  · exact Or.inl ((RawPacket.sensorDataProcessing_eq state packet.1).1 hKnown)
  · exact Or.inr ((RawPacket.sensorDataProcessing_eq state packet.1).2 hKnown)

theorem sensorStep_eq {state next : RouterState} {packet : SensorPacket}
    (h : sensorStep state packet = some next) : next = state := by
  rw [sensorStep] at h
  rcases packetParse_sensor state packet with hOk | hError
  · rw [hOk] at h
    exact (Option.some.inj h).symm
  · rw [hError] at h
    cases h

/-- No rule that matches runs to its end. -/
theorem runsRule_iff (state : RouterState) (packet : SensorPacket) :
    RunsRule state packet ↔ ¬ packet.1.MatchesRule := by
  rw [packet.1.matchesRule_iff state.logicState]
  constructor
  · rintro hRuns ⟨rule, hRule, hCalls⟩
    obtain ⟨written, hFrames, hParse⟩ := hRuns rule hRule hCalls
    rcases packetParse_sensor state packet with hOk | hError
    · have hWritten := congrArg RouterState.written (Except.ok.inj (hOk.symm.trans hParse))
      obtain rfl := List.self_eq_append_right.mp hWritten
      obtain ⟨calls, state'⟩ := rule
      cases calls with
      | nil => exact hCalls rfl
      | cons call calls =>
          cases call with
          | sendRelayCommand relay number command => exact frames_ne_nil hFrames
          | sleep seconds => exact sensorDataProcessing_head hRule seconds calls rfl
    · cases hError.symm.trans hParse
  · intro hNone rule hRule hCalls
    exact absurd ⟨rule, hRule, hCalls⟩ hNone

/-- The commands so far and the state, if `logic.lua` had the names of `router.lua`. -/
abbrev Shared := List Call × LogicState

def sharedStep (shared : Shared) (packet : SensorPacket) : Option Shared :=
  match Automation.sensorDataProcessing locals shared.2 packet.1.adress packet.1.table with
  | .ok rule => some (shared.1 ++ rule.calls, rule.state)
  | .error _ => none

/-- Until the first command to the table there is none to either relay; then both have the
state's. -/
def Tracks (shared : Shared) : Prop :=
  (lastCommand shared.1 1 = none ∧ lastCommand shared.1 2 = none) ∨
    (lastCommand shared.1 1 = some (tableRelays shared.2).1 ∧
      lastCommand shared.1 2 = some (tableRelays shared.2).2)

theorem tracks_sharedStep {shared next : Shared} {packet : SensorPacket} (h : Tracks shared)
    (hStep : sharedStep shared packet = some next) : Tracks next := by
  unfold sharedStep at hStep
  cases hRule : Automation.sensorDataProcessing locals shared.2 packet.1.adress packet.1.table with
  | error stop => simp [hRule] at hStep
  | ok rule =>
      rw [hRule] at hStep
      obtain rfl := Option.some.inj hStep
      rcases consistent_sensorDataProcessing hRule with ⟨hOne, hTwo, hState⟩ | ⟨hOne, hTwo⟩
      · simp only [Tracks, lastCommand_append, hOne, hTwo, hState, Option.none_or]
        exact h
      · refine Or.inr ⟨?_, ?_⟩
        · rw [lastCommand_append, hOne, Option.some_or]
        · rw [lastCommand_append, hTwo, Option.some_or]

/-- With the names shared, the state agrees with the commands after every packet, for every
sequence of packets. -/
theorem shared_agrees (packets : List SensorPacket) :
    Throughout sharedStep (fun shared => Agrees shared.1 shared.2) ([], .allOn) packets := by
  have hAgrees (shared : Shared) (h : Tracks shared) : Agrees shared.1 shared.2 := by
    intro one two hOne hTwo
    rcases h with ⟨hNone, -⟩ | ⟨hFirst, hSecond⟩
    · cases hNone.symm.trans hOne
    · exact Prod.ext (Option.some.inj (hFirst.symm.trans hOne))
        (Option.some.inj (hSecond.symm.trans hTwo))
  exact Throughout.of_invariant hAgrees (fun _ _ _ => tracks_sharedStep)
    (Or.inl ⟨rfl, rfl⟩) packets

/-- **When the automation tracks the relays.** Every rule that matches a sensor packet runs
to its end, and the state agrees with the commands after every packet, if and only if no
packet that the router handles has a rule. -/
theorem tracks_relays_iff (packets : List SensorPacket) :
    (Along sensorStep RunsRule initialState packets ∧
      Throughout sensorStep StateAgrees initialState packets) ↔
      Along sensorStep (fun _ packet => ¬ packet.1.MatchesRule) initialState packets := by
  have hAgrees : StateAgrees initialState := by
    intro calls hFrames one two hOne _
    rw [lastCommand_of_frames_nil hFrames] at hOne
    cases hOne
  induction packets with
  | nil =>
      constructor
      · intro _
        trivial
      · intro _
        exact ⟨trivial, hAgrees⟩
  | cons packet packets ih =>
      constructor
      · rintro ⟨⟨hRuns, hLater⟩, -, hThroughout⟩
        apply And.intro ((runsRule_iff initialState packet).mp hRuns)
        intro next hNext
        obtain rfl := sensorStep_eq hNext
        exact ih.mp ⟨hLater _ hNext, hThroughout _ hNext⟩
      · rintro ⟨hNone, hRest⟩
        refine ⟨⟨(runsRule_iff initialState packet).mpr hNone, fun next hNext => ?_⟩,
          hAgrees, fun next hNext => ?_⟩
        · obtain rfl := sensorStep_eq hNext
          exact (ih.mpr (hRest _ hNext)).1
        · obtain rfl := sensorStep_eq hNext
          exact (ih.mpr (hRest _ hNext)).2

/-- The button B of the switch at the bed is clicked. -/
def clickPacket : RawPacket where
  addr := #v[0xFD, 0, 0, 0, 0, 0, 0, 0, 0x02, 0x12, 0x4B, 0, 0x0C, 0x47, 0x4A, 0x82]
  data := [0x01, 0x01, 0x02, 0x01, 0xFF, 0x42, 0x01, 0xFF, 0xFF, 0xFF]
  length_data := Or.inl rfl

/-- No switch is known to `logic.lua`, so the click does nothing. -/
theorem tracks_relays_fails :
    ¬ ∀ packets : List SensorPacket, Along sensorStep RunsRule initialState packets ∧
      Throughout sensorStep StateAgrees initialState packets := by
  intro h
  obtain ⟨⟨hRuns, -⟩, -⟩ := h [⟨clickPacket, by decide⟩]
  exact (runsRule_iff _ _).mp hRuns
    (Or.inr ⟨by decide, .click, by decide, Or.inl ⟨Or.inl (by decide), by decide⟩⟩)

end Smarthome.Router
