import Smarthome.Node.Dispatch
import Smarthome.Semantics.RingQueue
import Smarthome.Semantics.Runs

/-! The way of a command through a node: `udp_receiver` writes it to the one static
`message_for_main_process` and posts a pointer to that, the event queue of the
kernel delivers the pointer, and `main_process` of the relay reads what is there. -/
namespace Smarthome.Node

open Semantics

@[simp] def processConfNumevents : Nat := 32
abbrev processEventContinue : Byte := 0x85
abbrev deviceAbilityRelay : Byte := 17

/-- The four fields of `struct command_data` that a command or a setting fills. -/
structure Command where
  dataType : Byte
  abilityTarget : Byte
  abilityNumber : Byte
  abilityState : Byte
  deriving DecidableEq

/-- `message_for_main_process`. -/
structure CommandMessage where
  command : Command
  uartReturnedDataLength : Byte
  uartDataLength : Byte
  payload : Vector Byte 16
  deriving DecidableEq

/-- The process an event is for; `broadcast` is for all of them. -/
inductive EventReceiver where
  | mainProcess
  | dagNodeProcess
  | otherProcess
  | broadcast
  deriving DecidableEq

/-- The pointer an event carries. -/
inductive EventPointer where
  | null
  | messageForMainProcess
  | other
  deriving DecidableEq

/-- `struct event_data`. -/
structure EventData where
  ev : Byte
  data : EventPointer
  p : EventReceiver
  deriving DecidableEq

/-- What the rest of the firmware posts. The pointer to the message is not known
there, and a CONTINUE carries no pointer. -/
structure OtherEvent where
  event : EventData
  data_ne : event.data ≠ .messageForMainProcess
  continue_null : event.ev = processEventContinue → event.data = .null

/-- A node with its queue of events. The two lists record the commands and settings
accepted from the network, and those that `main_process` carried out. -/
structure MainNode where
  events : RingQueue EventData processConfNumevents
  messageForMainProcess : CommandMessage
  accepted : List Command
  executed : List Command

/-- What `main_process` carries out: `exe_relay_command` and `settings_change` are
called for the relay's own target only. -/
def IsCarriedOut (command : Command) : Prop :=
  command.abilityTarget = deviceAbilityRelay ∧
    (command.dataType = dataTypeCommand ∨ command.dataType = dataTypeSettings)

instance : DecidablePred IsCarriedOut := fun _ => inferInstanceAs (Decidable (_ ∧ _))

/-- One pass of the loop of `main_process`: the command or setting it carries out. -/
def mainProcess (event : EventData) (message : CommandMessage) : List Command :=
  if event.ev = processEventContinue ∧ event.data = .messageForMainProcess then
    [message.command].filter IsCarriedOut
  else []

inductive MainEvent where
  | receive (data : Nat → Byte)
  | post (other : OtherEvent)
  /-- `do_event`. -/
  | deliver

namespace MainNode

/-- Static storage and an empty queue; `main_process` waits in its loop. -/
def start : MainNode where
  events := RingQueue.empty (fun _ => ⟨0, .null, .broadcast⟩) (by decide)
  messageForMainProcess := ⟨⟨0, 0, 0, 0⟩, 0, 0, Vector.replicate 16 0⟩
  accepted := []
  executed := []

/-- `process_post`. A full queue is left as it is, and no caller looks at the result. -/
def processPost (node : MainNode) (event : EventData) : MainNode :=
  { node with events := (node.events.post event).getD node.events }

/-- The event that `command_settings_handler` and `uart_packet_handler` post. -/
def messageEvent : EventData := ⟨processEventContinue, .messageForMainProcess, .mainProcess⟩

def commandSettingsHandler (node : MainNode) (command : Command) : MainNode :=
  { node with
    messageForMainProcess := { node.messageForMainProcess with command }
    accepted := node.accepted ++ [command] }.processPost messageEvent

def uartPacketHandler (node : MainNode) (dataType returnedLength length : Byte)
    (payload : Vector Byte 16) : MainNode :=
  { node with
    messageForMainProcess :=
      { command := { node.messageForMainProcess.command with dataType }
        uartReturnedDataLength := returnedLength
        uartDataLength := length
        payload } }.processPost messageEvent

/-- The variables after a restart; what was recorded stays. -/
def restart (node : MainNode) : MainNode :=
  { start with accepted := node.accepted, executed := node.executed }

/-- `udp_receiver`, for its effects on the message and the queue. -/
def receive (node : MainNode) : ReceiverCall → MainNode
  | .joinConfirmHandler => node.processPost ⟨processEventContinue, .null, .dagNodeProcess⟩
  | .commandSettingsHandler dataType target number state =>
      node.commandSettingsHandler ⟨dataType, target, number, state⟩
  | .uartPacketHandler dataType returnedLength length payload =>
      node.uartPacketHandler dataType returnedLength length payload
  | .watchdogReboot | .flashGoldenImageAndReboot => node.restart
  | _ => node

/-- `do_event`: the oldest event goes to its process, or to all of them. -/
def doEvent (node : MainNode) : MainNode :=
  match node.events.take with
  | none => node
  | some (event, events) =>
      if event.p = .mainProcess ∨ event.p = .broadcast then
        { node with
          events
          executed := node.executed ++ mainProcess event node.messageForMainProcess }
      else { node with events }

def step (node : MainNode) : MainEvent → Option MainNode
  | .receive data => some (node.receive (udpReceiver data))
  | .post other => some (node.processPost other.event)
  | .deliver => some node.doEvent

/-- An event at which `main_process` reads the message. -/
def ReadsMessage (event : EventData) : Prop :=
  (event.p = .mainProcess ∨ event.p = .broadcast) ∧
    event.ev = processEventContinue ∧ event.data = .messageForMainProcess

instance : DecidablePred ReadsMessage := fun _ => inferInstanceAs (Decidable (_ ∧ _))

/-- How many times the message will still be read. -/
def pending (node : MainNode) : Nat := node.events.contents.countP ReadsMessage

/-- What the events in the queue will have `main_process` carry out, if nothing
else arrives: the one message, as often as it is read. -/
def due (node : MainNode) : List Command :=
  (List.replicate node.pending node.messageForMainProcess.command).filter IsCarriedOut

/-- What was carried out, with what is still due, is what was accepted, in order. -/
def Exact (node : MainNode) : Prop := node.executed ++ node.due = node.accepted

instance (node : MainNode) : Decidable node.Exact := inferInstanceAs (Decidable (_ = _))

/-- The queue has room for the event that a handler posts. -/
def HasRoomFor (node : MainNode) : ReceiverCall → Prop
  | .joinConfirmHandler | .commandSettingsHandler .. | .uartPacketHandler .. =>
      node.events.count < processConfNumevents
  | _ => True

instance (node : MainNode) : DecidablePred node.HasRoomFor
  | .joinConfirmHandler | .commandSettingsHandler .. | .uartPacketHandler .. =>
      inferInstanceAs (Decidable (_ < _))
  | .pongHandler | .firmwareDataHandler _ | .timeDataHandler | .sendTimeSyncReqPacket
  | .sheduleDataHandler | .firmwareCmdNewFwHandler _ | .watchdogReboot | .eraseOtaImage _
  | .flashGoldenImageAndReboot | .incompatibleFwCmd _ | .incompatibleDataType _ | .ignored =>
      isTrue trivial

/-- No event is lost because the queue is full. -/
def HasRoom (node : MainNode) : MainEvent → Prop
  | .receive data => node.HasRoomFor (udpReceiver data)
  | .post _ => node.events.count < processConfNumevents
  | .deliver => True

instance (node : MainNode) : DecidablePred node.HasRoom
  | .receive data => inferInstanceAs (Decidable (node.HasRoomFor (udpReceiver data)))
  | .post _ => inferInstanceAs (Decidable (_ < _))
  | .deliver => isTrue trivial

/-- A handler writes the message only when no event in the queue still reads it, or
when what these will have carried out stays the same. A command is for the relay. -/
def KeepsMessageIn (node : MainNode) : ReceiverCall → Prop
  | .commandSettingsHandler dataType target number state =>
      IsCarriedOut ⟨dataType, target, number, state⟩ ∧
        (node.pending = 0 ∨
          node.messageForMainProcess.command = ⟨dataType, target, number, state⟩)
  | .uartPacketHandler .. | .watchdogReboot | .flashGoldenImageAndReboot =>
      node.pending = 0 ∨ ¬ IsCarriedOut node.messageForMainProcess.command
  | _ => True

def KeepsMessage (node : MainNode) : MainEvent → Prop
  | .receive data => node.KeepsMessageIn (udpReceiver data)
  | .post _ | .deliver => True

instance (node : MainNode) : DecidablePred node.KeepsMessageIn
  | .commandSettingsHandler .. => inferInstanceAs (Decidable (_ ∧ _))
  | .uartPacketHandler .. | .watchdogReboot | .flashGoldenImageAndReboot =>
      inferInstanceAs (Decidable (_ ∨ _))
  | .joinConfirmHandler | .pongHandler | .firmwareDataHandler _ | .timeDataHandler
  | .sendTimeSyncReqPacket | .sheduleDataHandler | .firmwareCmdNewFwHandler _ | .eraseOtaImage _
  | .incompatibleFwCmd _ | .incompatibleDataType _ | .ignored =>
      isTrue trivial

instance (node : MainNode) : DecidablePred node.KeepsMessage
  | .receive data => inferInstanceAs (Decidable (node.KeepsMessageIn (udpReceiver data)))
  | .post _ | .deliver => isTrue trivial

variable {node : MainNode} {event : EventData}

theorem processPost_contents (h : node.events.count < processConfNumevents) :
    (node.processPost event).events.contents = node.events.contents ++ [event] := by
  cases hPost : node.events.post event with
  | none =>
      rw [RingQueue.post_eq_none_iff, RingQueue.contents_length] at hPost
      omega
  | some next =>
      simp only [processPost, hPost, Option.getD_some]
      exact RingQueue.contents_post hPost

/-- An event that does not read the message changes nothing that is due. -/
theorem processPost_due (h : node.events.count < processConfNumevents)
    (hOther : ¬ ReadsMessage event) : (node.processPost event).due = node.due := by
  have hPending : (node.processPost event).pending = node.pending := by
    rw [pending, processPost_contents h]
    simp [pending, hOther]
  rw [due, hPending]
  rfl

theorem processPost_pending (h : node.events.count < processConfNumevents) :
    (node.processPost messageEvent).pending = node.pending + 1 := by
  have hReads : ReadsMessage messageEvent := by decide
  rw [pending, processPost_contents h]
  simp [pending, hReads]

/-- A command behind `k` readings of another one comes out right only if there are
none, or if it is the same. -/
theorem filter_replicate_eq_iff (k : Nat) (old new : Command) :
    (List.replicate (k + 1) new).filter IsCarriedOut =
        (List.replicate k old).filter IsCarriedOut ++ [new] ↔
      IsCarriedOut new ∧ (k = 0 ∨ old = new) := by
  by_cases hNew : IsCarriedOut new
  · by_cases hOld : IsCarriedOut old
    · simp [hNew, hOld, List.replicate_succ', List.replicate_inj, eq_comm]
    · have hNe : old ≠ new := fun h => hOld (h ▸ hNew)
      simp [hNew, hOld, hNe, List.replicate_succ]
  · simp [List.filter_replicate, hNew]

theorem due_eq_nil_iff :
    node.due = [] ↔ node.pending = 0 ∨ ¬ IsCarriedOut node.messageForMainProcess.command := by
  by_cases hCommand : IsCarriedOut node.messageForMainProcess.command
  · simp [due, hCommand]
  · simp [due, hCommand]

/-- What a reception that writes nothing due leaves behind. -/
theorem exact_iff_due_eq_nil (hExact : node.Exact) :
    node.executed = node.accepted ↔ node.due = [] := by
  rw [← hExact, List.self_eq_append_right]

theorem commandSettingsHandler_exact_iff {command : Command} (hExact : node.Exact)
    (hRoom : node.events.count < processConfNumevents) :
    (node.commandSettingsHandler command).Exact ↔ IsCarriedOut command ∧
      (node.pending = 0 ∨ node.messageForMainProcess.command = command) := by
  have hPending : (node.commandSettingsHandler command).pending = node.pending + 1 :=
    processPost_pending hRoom
  have hDue : (node.commandSettingsHandler command).due =
      (List.replicate (node.pending + 1) command).filter IsCarriedOut := by
    rw [due, hPending]
    rfl
  rw [← filter_replicate_eq_iff, Exact, hDue]
  show node.executed ++ _ = node.accepted ++ [command] ↔ _
  rw [← hExact, List.append_assoc, List.append_cancel_left_eq]
  rfl

theorem uartPacketHandler_exact_iff {returnedLength length : Byte} {payload : Vector Byte 16}
    (hExact : node.Exact) :
    (node.uartPacketHandler dataTypeUart returnedLength length payload).Exact ↔
      node.pending = 0 ∨ ¬ IsCarriedOut node.messageForMainProcess.command := by
  have hType (command : Command) :
      ¬ IsCarriedOut { command with dataType := dataTypeUart } := by
    intro hCarried
    have hNe : ¬ (dataTypeUart = dataTypeCommand ∨ dataTypeUart = dataTypeSettings) := by decide
    exact hNe hCarried.2
  have hDue : (node.uartPacketHandler dataTypeUart returnedLength length payload).due = [] := by
    rw [due_eq_nil_iff]
    exact Or.inr (hType _)
  rw [Exact, hDue, List.append_nil, ← due_eq_nil_iff, ← exact_iff_due_eq_nil hExact]
  rfl

theorem restart_exact_iff (hExact : node.Exact) :
    node.restart.Exact ↔ node.pending = 0 ∨ ¬ IsCarriedOut node.messageForMainProcess.command := by
  have hDue : node.restart.due = [] := rfl
  rw [Exact, hDue, List.append_nil, ← due_eq_nil_iff, ← exact_iff_due_eq_nil hExact]
  rfl

theorem processPost_exact_iff (hOther : ¬ ReadsMessage event)
    (hRoom : node.events.count < processConfNumevents) :
    (node.processPost event).Exact ↔ node.Exact := by
  rw [Exact, processPost_due hRoom hOther]
  rfl

/-- One reception, by the handler that `udp_receiver` calls. -/
theorem receive_exact_iff (data : Nat → Byte) (hExact : node.Exact)
    (hRoom : node.HasRoomFor (udpReceiver data)) :
    (node.receive (udpReceiver data)).Exact ↔ node.KeepsMessageIn (udpReceiver data) := by
  cases hCall : udpReceiver data with
  | joinConfirmHandler =>
      rw [hCall] at hRoom
      have hOther : ¬ ReadsMessage ⟨processEventContinue, .null, .dagNodeProcess⟩ := by decide
      exact iff_of_true ((processPost_exact_iff hOther hRoom).mpr hExact) trivial
  | commandSettingsHandler dataType target number state =>
      rw [hCall] at hRoom
      exact commandSettingsHandler_exact_iff hExact hRoom
  | uartPacketHandler dataType returnedLength length payload =>
      obtain rfl := udpReceiver_uart hCall
      exact uartPacketHandler_exact_iff hExact
  | watchdogReboot => exact restart_exact_iff hExact
  | flashGoldenImageAndReboot => exact restart_exact_iff hExact
  | _ => exact iff_of_true hExact trivial

theorem otherEvent_not_reads (other : OtherEvent) : ¬ ReadsMessage other.event := by
  intro hReads
  exact other.data_ne hReads.2.2

/-- An event that reads the message carries out what was due first. -/
theorem doEvent_exact (hExact : node.Exact) : node.doEvent.Exact := by
  unfold doEvent
  cases hTake : node.events.take with
  | none => exact hExact
  | some taken =>
      obtain ⟨event, events⟩ := taken
      have hContents := RingQueue.contents_take hTake
      by_cases hReads : ReadsMessage event
      · have hPending : node.pending = events.contents.countP ReadsMessage + 1 := by
          rw [pending, hContents]
          simp [hReads]
        have hDue : node.due = mainProcess event node.messageForMainProcess ++
            (List.replicate (events.contents.countP ReadsMessage)
              node.messageForMainProcess.command).filter IsCarriedOut := by
          rw [due, hPending, List.replicate_succ, ← List.singleton_append, List.filter_append,
            mainProcess, if_pos hReads.2]
        simp only [if_pos hReads.1]
        rw [Exact, ← hExact, hDue, List.append_assoc]
        rfl
      · have hPending : node.pending = events.contents.countP ReadsMessage := by
          rw [pending, hContents]
          simp [hReads]
        have hDue : node.due = (List.replicate (events.contents.countP ReadsMessage)
            node.messageForMainProcess.command).filter IsCarriedOut := by
          rw [due, hPending]
        dsimp only
        split_ifs with hMain
        · have hNothing : mainProcess event node.messageForMainProcess = [] :=
            if_neg fun h => hReads ⟨hMain, h⟩
          rw [Exact, ← hExact, hDue, hNothing, List.append_nil]
          rfl
        · rw [Exact, ← hExact, hDue]
          rfl

theorem step_exact_iff {next : MainNode} (event : MainEvent) (hExact : node.Exact)
    (hRoom : node.HasRoom event) (h : node.step event = some next) :
    next.Exact ↔ node.KeepsMessage event := by
  cases event with
  | receive data =>
      obtain rfl := Option.some.inj h
      exact receive_exact_iff data hExact hRoom
  | post other =>
      obtain rfl := Option.some.inj h
      exact iff_of_true
        ((processPost_exact_iff (otherEvent_not_reads other) hRoom).mpr hExact) trivial
  | deliver =>
      obtain rfl := Option.some.inj h
      exact iff_of_true (doEvent_exact hExact) trivial

theorem step_total (node : MainNode) (event : MainEvent) : ∃ next, node.step event = some next := by
  cases event with
  | receive data => exact ⟨_, rfl⟩
  | post other => exact ⟨_, rfl⟩
  | deliver => exact ⟨_, rfl⟩

/-- **When commands reach the relay unaltered.** While the queue does not overflow,
what `main_process` carries out is what was accepted, at every moment of a run, if
and only if no reception writes over a message that is still to be read. -/
theorem commands_unaltered_iff (events : List MainEvent)
    (hRoom : Along step HasRoom start events) :
    Throughout step Exact start events ↔ Along step KeepsMessage start events := by
  apply throughout_iff Exact Exact
  · intro node hExact
    exact hExact
  · intro node event hExact hFits hKeeps next hStep
    exact (step_exact_iff event hExact hFits hStep).mpr hKeeps
  · intro node event hExact hFits hNot
    obtain ⟨next, hStep⟩ := step_total node event
    exact ⟨next, hStep, mt (step_exact_iff event hExact hFits hStep).mp hNot⟩
  · rfl
  · exact hRoom

/-- A command for the first relay, as the coordinator sends it. -/
def relayCommand (state : Byte) (i : Nat) : Byte :=
  [protocolVersionV1, currentDeviceVersion, dataTypeCommand, deviceAbilityRelay, 1, state].getD i
    dataReserved

/-- Two commands, the second one received after the first has been carried out. -/
theorem commands_unaltered_in_turn : Throughout step Exact start
    [.receive (relayCommand 1), .deliver, .receive (relayCommand 0), .deliver] :=
  (commands_unaltered_iff _ (by simp [Along, step]; decide)).mpr (by simp [Along, step]; decide)

/-- Two commands before the first one is delivered: the second is carried out twice. -/
theorem commands_unaltered_fails : ¬ ∀ events : List MainEvent,
    Along step HasRoom start events → Throughout step Exact start events := by
  intro h
  have hBoth := h [.receive (relayCommand 1), .receive (relayCommand 0)]
    (by simp [Along, step]; decide)
  have hExact := ((hBoth.2 _ rfl).2 _ rfl).head
  exact absurd hExact (by decide)

end MainNode
end Smarthome.Node
