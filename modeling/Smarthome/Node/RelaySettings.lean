import Smarthome.Node.Relays
import Mathlib.Logic.Function.Iterate

/-! The way of a setting from `udp_receiver` to the flash. `main_process` takes the target of a
message for the kind of the device and `settings_change` takes the same byte for the setting. -/
namespace Smarthome.Node

/-- A node with the relays that its `main_process` drives. -/
structure RelayNode where
  node : MainNode
  device : RelayDevice

namespace RelayDevice

variable (device : RelayDevice) (command : Command)

/-- A setting that passes the test of `main_process` passes none of `settings_change`. -/
theorem settingsChange_of_relay (h : command.abilityTarget = deviceAbilityRelay) :
    device.settingsChange command = device := by
  have hFirst : command.abilityTarget ≠ deviceAbilityRelay1SettingsStartState := by
    rw [h]
    decide
  have hSecond : command.abilityTarget ≠ deviceAbilityRelay2SettingsStartState := by
    rw [h]
    decide
  rw [settingsChange, if_neg hFirst, if_neg hSecond, ite_self]

/-- Called with the target of a setting, `settings_change` would store it. -/
theorem settingsChange_stores {i : Nat} (hi : i < userFlashLength) (state : Byte) :
    (device.settingsChange ⟨dataTypeSettings, deviceAbilityRelay1SettingsStartState,
        deviceAbilityRelay1, state⟩).userByte i =
      if i = startStateOffset .relay1 then state else device.userByte i :=
  device.userByte_write _ _ hi

/-- The message of a setting does nothing. -/
theorem carryOut_settings (h : command.dataType = dataTypeSettings) :
    device.carryOut command = device := by
  have hCommand : command.dataType ≠ dataTypeCommand := by
    rw [h]
    decide
  unfold carryOut
  split_ifs with hTarget
  · exact device.settingsChange_of_relay command hTarget
  · rfl

/-- No message writes the start state of a relay. -/
theorem carryOut_startByte (relay : Relay) :
    (device.carryOut command).userByte (startStateOffset relay) =
      device.userByte (startStateOffset relay) := by
  unfold carryOut
  split_ifs with hTarget
  · unfold exeRelayCommand changeDioState
    split_ifs
    · rfl
    · exact device.changeState_startByte _ relay .relay1
    · exact device.changeState_startByte _ relay .relay2
    · rfl
  · rw [device.settingsChange_of_relay command hTarget]
  · rfl
  · rfl

theorem foldl_carryOut_startByte (commands : List Command) (relay : Relay) :
    (commands.foldl carryOut device).userByte (startStateOffset relay) =
      device.userByte (startStateOffset relay) := by
  induction commands generalizing device with
  | nil => rfl
  | cons command commands ih =>
      rw [List.foldl_cons, ih, carryOut_startByte]

end RelayDevice

namespace RelayNode

/-- `udp_receiver` for a datagram with a command or a setting, which touches no relay. -/
def receive (relayNode : RelayNode) (data : Nat → Byte) : RelayNode :=
  { relayNode with node := relayNode.node.receive (udpReceiver data) }

/-- `do_event`, with what the relays do. -/
def deliver (relayNode : RelayNode) : RelayNode where
  node := relayNode.node.doEvent
  device := match relayNode.node.events.take with
    | none => relayNode.device
    | some (event, _) =>
        if event.p = .mainProcess ∨ event.p = .broadcast then
          (mainProcess event relayNode.node.messageForMainProcess).foldl RelayDevice.carryOut
            relayNode.device
        else relayNode.device

/-- A datagram is received, and the events are delivered until the queue is empty. -/
def process (relayNode : RelayNode) (data : Nat → Byte) : RelayNode :=
  deliver^[processConfNumevents] (relayNode.receive data)

section Deliver

variable (relayNode : RelayNode)

theorem deliver_startByte (relay : Relay) :
    relayNode.deliver.device.userByte (startStateOffset relay) =
      relayNode.device.userByte (startStateOffset relay) := by
  unfold deliver
  cases relayNode.node.events.take with
  | none => rfl
  | some taken =>
      dsimp only
      split_ifs
      · exact relayNode.device.foldl_carryOut_startByte _ relay
      · rfl

/-- While the message is a setting, no event changes a relay, and none changes the message. -/
theorem deliver_settings
    (h : relayNode.node.messageForMainProcess.command.dataType = dataTypeSettings) :
    relayNode.deliver.device = relayNode.device ∧
      relayNode.deliver.node.messageForMainProcess = relayNode.node.messageForMainProcess := by
  unfold deliver MainNode.doEvent
  cases relayNode.node.events.take with
  | none => exact ⟨rfl, rfl⟩
  | some taken =>
      obtain ⟨event, events⟩ := taken
      dsimp only
      split_ifs
      · refine ⟨?_, rfl⟩
        unfold mainProcess
        split_ifs
        · rw [List.filter_singleton]
          cases decide (IsCarriedOut relayNode.node.messageForMainProcess.command) with
          | false => rfl
          | true => exact relayNode.device.carryOut_settings _ h
        · rfl
      · exact ⟨rfl, rfl⟩

theorem iterate_deliver_startByte (count : Nat) (relay : Relay) :
    (deliver^[count] relayNode).device.userByte (startStateOffset relay) =
      relayNode.device.userByte (startStateOffset relay) := by
  induction count generalizing relayNode with
  | zero => rfl
  | succ count ih =>
      rw [Function.iterate_succ_apply, ih, deliver_startByte]

theorem iterate_deliver_settings (count : Nat)
    (h : relayNode.node.messageForMainProcess.command.dataType = dataTypeSettings) :
    (deliver^[count] relayNode).device = relayNode.device := by
  induction count generalizing relayNode with
  | zero => rfl
  | succ count ih =>
      obtain ⟨hDevice, hMessage⟩ := relayNode.deliver_settings h
      rw [Function.iterate_succ_apply, ih, hDevice]
      rw [hMessage]
      exact h

end Deliver

/-- A setting for the relay, as the router sends it. -/
def relaySetting (i : Nat) : Byte :=
  [protocolVersionV1, currentDeviceVersion, dataTypeSettings, deviceAbilityRelay, 1, 1].getD i
    dataReserved

/-- A datagram with a setting makes the start state of the relay the one given, and changes no
other of the hundred bytes. -/
def Settable (relayNode : RelayNode) (relay : Relay) (state : Byte) : Prop :=
  ∃ data : Nat → Byte, data 2 = dataTypeSettings ∧
    (relayNode.process data).device.userByte (startStateOffset relay) = state ∧
    ∀ i < userFlashLength, i ≠ startStateOffset relay →
      (relayNode.process data).device.userByte i = relayNode.device.userByte i

/-- **No datagram sets the start state of a relay.** There is one after which a start state is
stored, with the other bytes as they were, if and only if it was stored before. -/
theorem start_state_settable_iff (relayNode : RelayNode) (relay : Relay) (state : Byte) :
    relayNode.Settable relay state ↔
      relayNode.device.userByte (startStateOffset relay) = state := by
  constructor
  · rintro ⟨data, -, hStored, -⟩
    rw [← hStored, process, iterate_deliver_startByte]
    rfl
  · intro hStored
    have hCall : udpReceiver relaySetting =
        .commandSettingsHandler dataTypeSettings deviceAbilityRelay 1 1 := by decide
    have hType : (relayNode.receive relaySetting).node.messageForMainProcess.command.dataType =
        dataTypeSettings := by
      rw [receive, hCall]
      rfl
    have hSame : (relayNode.process relaySetting).device = relayNode.device := by
      rw [process, iterate_deliver_settings _ _ hType]
      rfl
    have hByte (i : Nat) : (relayNode.process relaySetting).device.userByte i =
        relayNode.device.userByte i := congrArg (fun device => device.userByte i) hSame
    exact ⟨relaySetting, by decide, (hByte _).trans hStored, fun i _ _ => hByte i⟩

/-- On a device with a blank flash the first relay cannot be made to start switched on. -/
theorem start_state_settable_fails :
    ¬ (⟨MainNode.start, RelayDevice.powerOn RelayDevice.blankBoard⟩ : RelayNode).Settable
      .relay1 startOnOnState := by
  rintro ⟨data, -, hStored, -⟩
  rw [process, iterate_deliver_startByte] at hStored
  have hBlank : (RelayDevice.powerOn RelayDevice.blankBoard).userByte (startStateOffset .relay1) ≠
      startOnOnState := by decide
  exact hBlank hStored

end RelayNode
end Smarthome.Node
