import Smarthome.Coordinator.DatagramReceiver
import Smarthome.Router.Firmware
import Smarthome.Semantics.LuaPattern

/-! `packet_parse` of `router.lua`: what the router does with the text of a raw packet.
The texts that it only prints are left out; a text that cannot be put together for the
lack of a value is an error. -/
namespace Smarthome.Router

open Semantics LuaPattern Coordinator

abbrev Text := List Char

/-- What ends the program. -/
inductive Stop where
  | luaError
  | osExit
  deriving DecidableEq

inductive MotionEvent where
  | motion
  | nomotion
  deriving DecidableEq

inductive ButtonEvent where
  | click
  | longclick
  | on
  | off
  deriving DecidableEq

/-- The variable `state` of `logic.lua`. -/
inductive LogicState where
  | allOn
  | allOff
  | twoOn
  | oneOn
  deriving DecidableEq

/-- The variables of `router.lua` that the modes and the packets set. -/
structure RouterState where
  mainCyclePermit : Bool
  otaImageTableSegments : Option (List (List Byte))
  /-- Whether `flag_non_status_join_message` is set. -/
  flagNonStatusJoinMessage : Bool
  deviceList : List Text
  updateDeviceList : List Text
  logicState : LogicState
  /-- The chunks sent, as the segments written to the port. -/
  written : List (List (List Byte))

/-- `bindechex.Hex2Dec`; its table has no entry for other characters. -/
def hex2Dec (s : Text) : Except Stop Nat :=
  match s.mapM hexDigit with
  | some digits => .ok (digits.foldl (fun value digit => 16 * value + digit) 0)
  | none => .error .luaError

/-- `device_motionsensor_events`. -/
def deviceMotionsensorEvents (sensorEvent : Text) : Option MotionEvent :=
  if sensorEvent = ['0', '1'] then some .motion
  else if sensorEvent = ['0', '2'] then some .nomotion
  else none

/-- `device_button_events`. -/
def deviceButtonEvents (sensorEvent : Text) : Option ButtonEvent :=
  if sensorEvent = ['0', '1'] then some .click
  else if sensorEvent = ['0', '2'] then some .longclick
  else if sensorEvent = ['0', '3'] then some .on
  else if sensorEvent = ['0', '4'] then some .off
  else none

namespace Logic

/-! The functions of `logic.lua`. The addresses and `send_relay_command` are locals of
`router.lua`; in this file the names are globals that nothing sets. -/

def switchMiniBed : Option Text := none
def switchMiniTable : Option Text := none
def switchMiniDoor : Option Text := none
def switchWc : Option Text := none
def switchMainRoom : Option Text := none
def switchKitchen : Option Text := none
def relayMainRoom : Option Text := none
def relayMainRoomTable : Option Text := none
def relayKitchen : Option Text := none
def relayHall : Option Text := none
def relayBathroom : Option Text := none
def relayWc : Option Text := none

/-- The states that `send_relay_command` is called with. -/
inductive RelayState where
  | on
  | off
  | toggle

/-- A call of the global `send_relay_command`, which is not a function. -/
def sendRelayCommand (_relay : Option Text) (_number : Nat) (_state : RelayState) :
    Except Stop Unit :=
  .error .luaError

/-- `all_relay`. -/
def allRelay (command : RelayState) : Except Stop Unit := do
  sendRelayCommand relayMainRoom 1 command
  sendRelayCommand relayMainRoomTable 1 command
  sendRelayCommand relayMainRoomTable 2 command
  sendRelayCommand relayKitchen 1 command
  sendRelayCommand relayHall 1 command
  sendRelayCommand relayBathroom 1 command
  sendRelayCommand relayWc 1 command

/-- `logic.motion_sensor_event_handler`. -/
def motionSensorEventHandler (currentEvent : MotionEvent) : Except Stop Unit :=
  match currentEvent with
  | .motion => sendRelayCommand relayHall 1 .on
  | .nomotion => .ok ()

/-- The button C of a switch with four states. -/
def nextState : LogicState → Except Stop LogicState
  | .allOn => do
      sendRelayCommand relayMainRoomTable 2 .off
      sendRelayCommand relayMainRoomTable 1 .off
      return .allOff
  | .allOff => do
      sendRelayCommand relayMainRoomTable 2 .on
      sendRelayCommand relayMainRoomTable 1 .off
      return .twoOn
  | .twoOn => do
      sendRelayCommand relayMainRoomTable 2 .off
      sendRelayCommand relayMainRoomTable 1 .on
      return .oneOn
  | .oneOn => do
      sendRelayCommand relayMainRoomTable 2 .on
      sendRelayCommand relayMainRoomTable 1 .on
      return .allOn

/-- A switch that toggles one relay, with a click or a long click of any button. -/
def toggleAny (relay : Option Text) (state : LogicState) (buttonName : Text)
    (currentEvent : ButtonEvent) : Except Stop LogicState :=
  if buttonName ∈ [['A'], ['B'], ['C'], ['D']] ∧
      (currentEvent = .click ∨ currentEvent = .longclick) then do
    sendRelayCommand relay 1 .toggle
    return state
  else return state

/-- `logic.button_sensor_event_handler`. -/
def buttonSensorEventHandler (state : LogicState) (currentSwitch buttonName : Text)
    (currentEvent : ButtonEvent) : Except Stop LogicState :=
  if some currentSwitch = switchMiniBed ∨ some currentSwitch = switchMiniTable then
    if buttonName = ['B'] ∧ currentEvent = .click then do
      allRelay .on
      return .allOn
    else if buttonName = ['C'] ∧ currentEvent = .click then nextState state
    else if buttonName = ['C'] ∧ currentEvent = .longclick then do
      sendRelayCommand relayMainRoom 1 .toggle
      return state
    else if buttonName = ['D'] ∧ currentEvent = .click then do
      allRelay .off
      return .allOff
    else return state
  else if some currentSwitch = switchMiniDoor then
    if buttonName = ['B'] ∧ currentEvent = .click then do
      allRelay .on
      return .allOn
    else if buttonName = ['C'] ∧ currentEvent = .click then do
      sendRelayCommand relayHall 1 .toggle
      return state
    else if buttonName = ['D'] ∧ currentEvent = .click then do
      allRelay .off
      sendRelayCommand relayHall 1 .on
      sendRelayCommand relayHall 1 .off
      return .allOff
    else return state
  else if some currentSwitch = switchWc then
    if buttonName = ['A'] ∧ currentEvent = .click then do
      sendRelayCommand relayBathroom 1 .toggle
      return state
    else if buttonName = ['B'] ∧ currentEvent = .click then do
      sendRelayCommand relayWc 1 .toggle
      return state
    else if buttonName = ['C'] ∧ currentEvent = .click then do
      sendRelayCommand relayHall 1 .toggle
      return state
    else if buttonName = ['D'] ∧ currentEvent = .click then do
      sendRelayCommand relayKitchen 1 .toggle
      return state
    else return state
  else if some currentSwitch = switchMainRoom then
    toggleAny relayMainRoom state buttonName currentEvent
  else if some currentSwitch = switchKitchen then
    toggleAny relayKitchen state buttonName currentEvent
  else return state

end Logic

/-- The table `d` of `packet_parse`: the pairs of characters of the data. -/
structure PacketData where
  pVersion : Text
  devVersion : Text
  dType : Text
  /-- `d.b1` to `d.b20`; the first one has index zero. -/
  b : List Text

/-- A field of the table. The pattern has captured all twenty of them. -/
def PacketData.byte (data : PacketData) (i : Nat) : Text := data.b.getD (i - 1) []

/-- `motion_sensor_data_processing`. -/
def motionSensorDataProcessing (sensorEvent : Text) : Except Stop Unit :=
  match deviceMotionsensorEvents sensorEvent with
  | some currentEvent => Logic.motionSensorEventHandler currentEvent
  | none => .error .luaError

/-- `button_data_processing`. -/
def buttonDataProcessing (state : LogicState) (ipv6Adress sensorNumber sensorEvent : Text) :
    Except Stop LogicState :=
  match fromhex sensorNumber with
  | none => .error .luaError
  | some name =>
      match deviceButtonEvents sensorEvent with
      | some currentEvent => Logic.buttonSensorEventHandler state ipv6Adress
          (name.map fun c => (Char.ofNat c.toNat).toUpper) currentEvent
      | none => .error .luaError

/-- `sensor_data_processing`. -/
def sensorDataProcessing (state : RouterState) (ipv6Adress : Text) (data : PacketData) :
    Except Stop RouterState := do
  if data.byte 1 = ['0', '7'] then motionSensorDataProcessing (data.byte 4)
  if data.byte 1 = ['0', '1'] then do
    let logicState ← buttonDataProcessing state.logicState ipv6Adress (data.byte 3) (data.byte 4)
    return { state with logicState }
  else return state

/-- The numbers that `status_data_processing` takes from a packet. -/
def statusDataProcessing (state : RouterState) (data : PacketData) : Except Stop RouterState :=
  if state.flagNonStatusJoinMessage = true then return state
  else do
    let _uptime ← hex2Dec (data.byte 12 ++ data.byte 11 ++ data.byte 10 ++ data.byte 9)
    let _voltage ← hex2Dec (data.byte 16)
    let _temp ← hex2Dec (data.byte 15)
    let _parentRssi ← hex2Dec (data.byte 14 ++ data.byte 13)
    let _major ← hex2Dec (data.byte 17)
    let _minor ← hex2Dec (data.byte 18)
    return state

/-- `message_data_processing`. -/
def messageDataProcessing (state : RouterState) (data : PacketData) : Except Stop RouterState :=
  if data.byte 1 = ['0', 'B'] then do
    let _page ← hex2Dec (data.byte 2)
    return state
  else if data.byte 1 = ['0', 'C'] then return { state with mainCyclePermit := false }
  else if data.byte 1 = ['0', 'E'] then do
    let _syncError ← hex2Dec (data.byte 3 ++ data.byte 2)
    return state
  else return state

/-- The pattern of `ipv6_adress_parse`. -/
def adressPattern : List CharClass :=
  List.replicate 4 .alnum ++
    (List.replicate 7 (CharClass.char ':' :: List.replicate 4 CharClass.alnum)).flatten

/-- `ipv6_adress_parse`: the captures, which are the characters between the colons. -/
def ipv6AdressParse (ipv6Adress : Text) : Option Text :=
  (find (adressPattern.map Item.one) ipv6Adress).map fun matched => matched.filter (· ≠ ':')

/-- `send_firmware_chunk_to_node`. -/
def sendFirmwareChunkToNode (ipv6Adress : Text) (firmwareBinChunk : List Byte) :
    Except Stop (List (List Byte)) :=
  match (ipv6AdressParse ipv6Adress).bind fromhex with
  | none => .error .luaError
  | some adress =>
      match uartSend (adress ++ [protocolVersionV1, deviceVersionV1, dataTypeFirmware] ++
          [0xFF, 0xFF, 0xFF, 0xFF] ++ firmwareBinChunk) with
      | none => .error .luaError
      | some segments => .ok segments

/-- `fw_cmd_data_processing` with the number it takes from the packet. -/
def fwCmdPacketProcessing (state : RouterState) (ipv6Adress : Text) (data : PacketData) :
    Except Stop RouterState := do
  let chunkNumber ← hex2Dec (data.byte 3 ++ data.byte 2)
  match state.otaImageTableSegments with
  | none => return state
  | some segments =>
      match fwCmdDataProcessing segments chunkNumber with
      | none => .error .osExit
      | some chunk => do
          let sent ← sendFirmwareChunkToNode ipv6Adress chunk
          return { state with written := state.written ++ [sent] }

/-- The version and the type of a packet, as text. -/
def versionV1 : Text := ['0', '1']

/-- `packet_processing`. A join packet is only printed. -/
def packetProcessing (state : RouterState) (ipv6Adress : Text) (data : PacketData) :
    Except Stop RouterState :=
  if data.pVersion = versionV1 ∧ data.devVersion = versionV1 then
    if data.dType = ['0', '2'] then sensorDataProcessing state ipv6Adress data
    else if data.dType = ['0', '6'] then statusDataProcessing state data
    else if data.dType = ['0', '9'] then messageDataProcessing state data
    else if data.dType = ['0', 'E'] then fwCmdPacketProcessing state ipv6Adress data
    else return state
  else return state

/-- `packet_processing_see_adresses`. -/
def packetProcessingSeeAdresses (state : RouterState) (ipv6Adress : Text) (data : PacketData) :
    Except Stop RouterState :=
  if (data.pVersion = versionV1 ∧ data.devVersion = versionV1) ∧ data.dType = ['0', '6'] then do
    let _major ← hex2Dec (data.byte 17)
    let _minor ← hex2Dec (data.byte 18)
    if ipv6Adress ∈ state.deviceList then return state
    else return { state with
      deviceList := state.deviceList ++ [ipv6Adress]
      updateDeviceList := state.updateDeviceList ++
        (if data.byte 19 = ['0', '1'] then [ipv6Adress] else []) }
  else return state

/-- The pattern of `packet_parse`. -/
def rawPattern : List CharClass :=
  "DAGROOTRAW1".toList.map CharClass.char ++ List.replicate 78 .alnum ++
    "RAWEND".toList.map CharClass.char

/-- The `i`-th pair of characters. -/
def pair (text : Text) (i : Nat) : Text := (text.drop (2 * i)).take 2

/-- The table of the captured data. -/
def packetData (rawData : Text) : PacketData where
  pVersion := pair rawData 0
  devVersion := pair rawData 1
  dType := pair rawData 2
  b := (List.range 20).map fun i => pair rawData (i + 3)

/-- `ipv6_adress`: the pairs of the captured address, with a colon after every second one. -/
def ipv6Adress (a : Nat → Text) : Text :=
  a 0 ++ a 1 ++ [':'] ++ a 2 ++ a 3 ++ [':'] ++ a 4 ++ a 5 ++ [':'] ++ a 6 ++ a 7 ++ [':'] ++
    a 8 ++ a 9 ++ [':'] ++ a 10 ++ a 11 ++ [':'] ++ a 12 ++ a 13 ++ [':'] ++ a 14 ++ a 15

/-- `packet_parse`. The patterns that cut the two captures into pairs fit them always. -/
def packetParse (packetProcessingAlt : Bool) (state : RouterState) (packet : Text) :
    Except Stop RouterState :=
  match find (rawPattern.map Item.one) packet with
  | none => return state
  | some raw =>
      if packetProcessingAlt = true then
        packetProcessingSeeAdresses state (ipv6Adress (pair ((raw.drop 11).take 32)))
          (packetData ((raw.drop 43).take 46))
      else
        packetProcessing state (ipv6Adress (pair ((raw.drop 11).take 32)))
          (packetData ((raw.drop 43).take 46))

end Smarthome.Router
