import Smarthome.Coordinator.Relay
import Smarthome.Semantics.Mailbox
import Smarthome.Semantics.Runs

/-! `send_command_process` and the interrupt handler that fills its slots, in any
interleaving. Each test of a `ready_to_send` is one step and each section between
`disable_interrupts` and `enable_interrupts` another, so that bytes may arrive
before, between and after them. -/
namespace Smarthome.Coordinator

open Semantics

/-- Where `send_command_process` stands. -/
inductive PollPoint where
  | waiting
  /-- Before the test of a slot's `ready_to_send`. -/
  | testing (kind : SlotKind)
  /-- After that test, before interrupts are off. -/
  | sending (kind : SlotKind)
  deriving DecidableEq

/-- What follows a slot in one round. -/
def SlotKind.next : SlotKind → PollPoint
  | .command => .testing .firmware
  | .firmware => .testing .firmwareCmd
  | .firmwareCmd => .testing .uart
  | .uart => .waiting

namespace Slots

def readyToSend (slots : Slots) : SlotKind → Bool
  | .command => slots.commandMessage.readyToSend
  | .firmware => slots.firmwareMessage.readyToSend
  | .firmwareCmd => slots.firmwareCmdMessage.readyToSend
  | .uart => slots.uartMessage.readyToSend

/-- The datagram that the sending function of a slot builds from its fields. -/
def datagram (slots : Slots) : SlotKind → Datagram
  | .command => sendCommandPacket slots.commandMessage
  | .firmware => sendFirmwarePacket slots.firmwareMessage
  | .firmwareCmd => sendFirmwareCmdPacket slots.firmwareCmdMessage
  | .uart => sendUartPacket slots.uartMessage

def clearReady (slots : Slots) : SlotKind → Slots
  | .command =>
      { slots with commandMessage := { slots.commandMessage with readyToSend := false } }
  | .firmware =>
      { slots with firmwareMessage := { slots.firmwareMessage with readyToSend := false } }
  | .firmwareCmd =>
      { slots with firmwareCmdMessage := { slots.firmwareCmdMessage with readyToSend := false } }
  | .uart => { slots with uartMessage := { slots.uartMessage with readyToSend := false } }

theorem clearReady_of_empty {slots : Slots} {kind : SlotKind}
    (h : slots.readyToSend kind = false) : slots.clearReady kind = slots := by
  cases kind with
  | command =>
      have hEmpty : slots.commandMessage.readyToSend = false := h
      simp [clearReady, ← hEmpty]
  | firmware =>
      have hEmpty : slots.firmwareMessage.readyToSend = false := h
      simp [clearReady, ← hEmpty]
  | firmwareCmd =>
      have hEmpty : slots.firmwareCmdMessage.readyToSend = false := h
      simp [clearReady, ← hEmpty]
  | uart =>
      have hEmpty : slots.uartMessage.readyToSend = false := h
      simp [clearReady, ← hEmpty]

end Slots

/-- A frame that `uart_packet_processed` takes for a command. -/
def IsCommandFrame (packet : UartPacket) : Prop := packet.uartData 18 = dataTypeCommand

instance : DecidablePred IsCommandFrame := fun _ => inferInstanceAs (Decidable (_ = _))

/-- A local command to reset the coordinator. -/
def IsRebootFrame (packet : UartPacket) : Prop :=
  packet.uartData 18 = dataTypeLocalCmd ∧ packet.uartData 19 = localRootCommandReboot

instance : DecidablePred IsRebootFrame := fun _ => inferInstanceAs (Decidable (_ ∧ _))

/-- A datagram of the command type. -/
def IsCommand (datagram : Datagram) : Prop := datagram.payload[2]? = some dataTypeCommand

instance : DecidablePred IsCommand := fun _ => inferInstanceAs (Decidable (_ = _))

/-- The datagram that is due for a COMMAND frame. -/
def commandDatagram (packet : UartPacket) : Datagram :=
  sendCommandPacket (commandMessage packet.uartData)

section Effect

variable {packet : UartPacket} {effect : PacketEffect}

theorem uartPacketProcessed_commandMessage (h : uartPacketProcessed packet = some effect) :
    effect.commandMessage =
      if IsCommandFrame packet then some (commandMessage packet.uartData) else none := by
  unfold uartPacketProcessed at h
  split_ifs at h
  · obtain ⟨message, -, rfl⟩ := Option.map_eq_some_iff.mp h
    rfl
  · obtain rfl := Option.some.inj h
    rfl

theorem uartPacketProcessed_systemReset (h : uartPacketProcessed packet = some effect) :
    effect.localCommand = some .systemReset ↔ IsRebootFrame packet := by
  have hLocal : effect.localCommand =
      if packet.uartData 18 = dataTypeLocalCmd then localCommand packet.uartData else none := by
    unfold uartPacketProcessed at h
    split_ifs at h
    · obtain ⟨message, -, rfl⟩ := Option.map_eq_some_iff.mp h
      rfl
    · obtain rfl := Option.some.inj h
      rfl
  rw [hLocal, IsRebootFrame]
  by_cases hType : packet.uartData 18 = dataTypeLocalCmd
  · rw [if_pos hType, localCommand, if_pos hType]
    split_ifs with hTime hBoot hReboot
    · have hNe : localRootCommandTimeSet ≠ localRootCommandReboot := by decide
      simp [hTime, hNe]
    · have hNe : localRootCommandBootloaderActivate ≠ localRootCommandReboot := by decide
      simp [hBoot, hNe]
    · simp [hType, hReboot]
    · simp [hReboot]
  · simp [hType]

end Effect

/-- The coordinator between the UART and the radio. `udpConn` is what registering
the connection gave; the two lists record the packets accepted from the UART and
the datagrams handed to `simple_udp_sendto`. -/
structure Polling where
  receiver : UartReceiver
  slots : Slots
  pollPoint : PollPoint
  udpConn : Bool
  accepted : List UartPacket
  sent : List Datagram

inductive PollEvent where
  /-- The interrupt handler takes a byte from the UART. -/
  | uart (uartChar : Byte)
  /-- `send_command_process` goes on to its next point. -/
  | poll

namespace Polling

def start (udpConn : Bool) : Polling where
  receiver := UartReceiver.reset
  slots := Slots.reset
  pollPoint := .waiting
  udpConn := udpConn
  accepted := []
  sent := []

/-- The variables after the system has been reset; what was recorded stays. -/
def systemReset (s : Polling) : Polling :=
  { s with receiver := UartReceiver.reset, slots := Slots.reset, pollPoint := .waiting }

/-- What `uart_packet_processed` does with an accepted packet, which is nothing
after the reset that a local command asks for. -/
def accept (s : Polling) (packet : UartPacket) (effect : PacketEffect) : Polling :=
  if effect.localCommand = some .systemReset then
    { s.systemReset with accepted := s.accepted ++ [packet] }
  else { s with slots := effect.store s.slots, accepted := s.accepted ++ [packet] }

/-- One byte from the UART. There is no next state when the call of
`uart_packet_processed` writes outside its payload array. -/
def uart (s : Polling) (uartChar : Byte) : Option Polling :=
  let next := { s with receiver := (uartDataReceiver s.receiver uartChar).1 }
  match (uartDataReceiver s.receiver uartChar).2 with
  | none => some next
  | some packet => (uartPacketProcessed packet).map (next.accept packet)

/-- One section without interrupts: the slot is sent, and cleared whether a
datagram has gone out or not. `ready_to_send` is not looked at again. -/
def sendSlot (s : Polling) (kind : SlotKind) : Polling :=
  { s with
    slots := s.slots.clearReady kind
    pollPoint := kind.next
    sent := s.sent ++ transmit s.udpConn true (s.slots.datagram kind) }

/-- `send_command_process` from one point to the next. -/
def poll (s : Polling) : Polling :=
  match s.pollPoint with
  | .waiting => { s with pollPoint := .testing .command }
  | .testing kind =>
      if s.slots.readyToSend kind then { s with pollPoint := .sending kind }
      else { s with pollPoint := kind.next }
  | .sending kind => s.sendSlot kind

def step (s : Polling) : PollEvent → Option Polling
  | .uart uartChar => s.uart uartChar
  | .poll => some s.poll

/-- What a slot's turn comes to when no byte arrives in it. -/
def turn (s : Polling) (kind : SlotKind) : Polling :=
  { s with
    slots := s.slots.clearReady kind
    pollPoint := kind.next
    sent := s.sent ++ transmit s.udpConn (s.slots.readyToSend kind) (s.slots.datagram kind) }

theorem poll_turn {s : Polling} {kind : SlotKind} (h : s.pollPoint = .testing kind) :
    ∃ n, poll^[n] s = s.turn kind := by
  cases hReady : s.slots.readyToSend kind with
  | true =>
      use 2
      simp [poll, h, hReady, sendSlot, turn]
  | false =>
      use 1
      have hSame := Slots.clearReady_of_empty hReady
      simp [poll, h, hReady, hSame, transmit, turn]

/-- A round that no byte interrupts sends and clears the four slots in turn. -/
theorem poll_round {s : Polling} (h : s.pollPoint = .waiting) :
    ∃ n, poll^[n] s =
      { s with
        slots := (sendCommandProcess s.udpConn s.slots).1
        sent := s.sent ++ (sendCommandProcess s.udpConn s.slots).2 } := by
  have hTimer : poll^[1] s = { s with pollPoint := .testing .command } := by simp [poll, h]
  obtain ⟨n₁, h₁⟩ := poll_turn (s := { s with pollPoint := .testing .command }) rfl
  obtain ⟨n₂, h₂⟩ := poll_turn (s := turn _ .command) rfl
  obtain ⟨n₃, h₃⟩ := poll_turn (s := turn _ .firmware) rfl
  obtain ⟨n₄, h₄⟩ := poll_turn (s := turn _ .firmwareCmd) rfl
  use n₄ + (n₃ + (n₂ + (n₁ + 1)))
  rw [Function.iterate_add_apply, Function.iterate_add_apply, Function.iterate_add_apply,
    Function.iterate_add_apply, hTimer, h₁, h₂, h₃, h₄]
  simp [turn, sendCommandProcess, Slots.clearReady, Slots.readyToSend, Slots.datagram,
    SlotKind.next, h]

/-- The command slot with all COMMAND frames accepted so far and all command
datagrams sent so far. -/
def commandBox (s : Polling) : Mailbox Datagram where
  content :=
    if s.slots.commandMessage.readyToSend then some (sendCommandPacket s.slots.commandMessage)
    else none
  accepted := (s.accepted.filter IsCommandFrame).map commandDatagram
  delivered := s.sent.filter IsCommand

/-- What an accepted frame means for the command slot. -/
def frameOperation (packet : UartPacket) : Mailbox.Operation Datagram :=
  if IsCommandFrame packet then .put (commandDatagram packet)
  else if IsRebootFrame packet then .clear
  else .skip

/-- What a step means for the command slot. -/
def operation (s : Polling) : PollEvent → Mailbox.Operation Datagram
  | .uart uartChar => (uartDataReceiver s.receiver uartChar).2.elim .skip frameOperation
  | .poll =>
      if s.pollPoint = .sending .command then (if s.udpConn then .take else .clear) else .skip

/-- Interrupts are only switched off for a command slot that was found full, and
nothing empties it before. -/
def SendsFull (s : Polling) : Prop :=
  s.pollPoint = .sending .command → s.slots.commandMessage.readyToSend = true

variable {s t : Polling} {packet : UartPacket} {effect : PacketEffect}

theorem accept_sendsFull (hs : s.SendsFull) (h : uartPacketProcessed packet = some effect) :
    (s.accept packet effect).SendsFull := by
  unfold accept
  split_ifs
  · intro hPoint
    cases hPoint
  · intro hPoint
    show (effect.commandMessage.getD s.slots.commandMessage).readyToSend = true
    rw [uartPacketProcessed_commandMessage h]
    split_ifs
    · rfl
    · exact hs hPoint

theorem accept_commandBox (h : uartPacketProcessed packet = some effect) :
    (s.accept packet effect).commandBox = s.commandBox.apply (frameOperation packet) := by
  have hMessage := uartPacketProcessed_commandMessage h
  by_cases hReboot : IsRebootFrame packet
  · have hNot : ¬ IsCommandFrame packet := fun hCommand => by
      exact absurd (hCommand.symm.trans hReboot.1) (by decide)
    rw [accept, if_pos ((uartPacketProcessed_systemReset h).mpr hReboot)]
    simp [commandBox, frameOperation, hNot, hReboot, systemReset, Slots.reset, Mailbox.apply]
  · rw [accept, if_neg (mt (uartPacketProcessed_systemReset h).mp hReboot)]
    by_cases hCommand : IsCommandFrame packet
    · rw [if_pos hCommand] at hMessage
      simp [commandBox, frameOperation, hCommand, PacketEffect.store, hMessage, Mailbox.apply,
        commandDatagram, commandMessage]
    · rw [if_neg hCommand] at hMessage
      simp [commandBox, frameOperation, hCommand, hReboot, PacketEffect.store, hMessage,
        Mailbox.apply]

/-- A byte either changes the receiver only or completes an accepted frame. -/
theorem uart_cases {uartChar : Byte} (h : s.uart uartChar = some t) :
    ((uartDataReceiver s.receiver uartChar).2 = none ∧
      t = { s with receiver := (uartDataReceiver s.receiver uartChar).1 }) ∨
    ∃ packet effect, (uartDataReceiver s.receiver uartChar).2 = some packet ∧
      uartPacketProcessed packet = some effect ∧
      t = { s with receiver := (uartDataReceiver s.receiver uartChar).1 }.accept packet effect := by
  unfold uart at h
  cases hPacket : (uartDataReceiver s.receiver uartChar).2 with
  | none =>
      rw [hPacket] at h
      exact Or.inl ⟨rfl, (Option.some.inj h).symm⟩
  | some packet =>
      rw [hPacket] at h
      obtain ⟨effect, hEffect, rfl⟩ := Option.map_eq_some_iff.mp h
      exact Or.inr ⟨packet, effect, rfl, hEffect, rfl⟩

theorem step_sendsFull (event : PollEvent) (hs : s.SendsFull) (h : s.step event = some t) :
    t.SendsFull := by
  cases event with
  | uart uartChar =>
      rcases uart_cases h with ⟨-, rfl⟩ | ⟨packet, effect, -, hEffect, rfl⟩
      · exact hs
      · exact accept_sendsFull (s := { s with receiver := _ }) hs hEffect
  | poll =>
      obtain rfl := Option.some.inj h
      unfold poll
      split
      · intro hPoint
        cases hPoint
      · next kind _ =>
          split_ifs with hReady
          · intro hPoint
            cases hPoint
            exact hReady
          · intro hPoint
            cases kind <;> cases hPoint
      · next kind _ =>
          intro hPoint
          cases kind <;> cases hPoint

/-- Of what a slot sends, the datagrams of the command type. -/
theorem filter_datagram (udpConn : Bool) (slots : Slots) (kind : SlotKind) :
    (transmit udpConn true (slots.datagram kind)).filter IsCommand =
      if kind = .command then transmit udpConn true (sendCommandPacket slots.commandMessage)
      else [] := by
  cases udpConn with
  | false =>
      have hNone (datagram : Datagram) : transmit false true datagram = [] := rfl
      simp [hNone]
  | true =>
      have hSome (datagram : Datagram) : transmit true true datagram = [datagram] := rfl
      rw [hSome, hSome]
      cases kind <;> rfl

/-- Clearing another slot leaves the command slot. -/
theorem clearReady_commandMessage (slots : Slots) {kind : SlotKind} (h : kind ≠ .command) :
    (slots.clearReady kind).commandMessage = slots.commandMessage := by
  cases kind with
  | command => exact absurd rfl h
  | firmware => rfl
  | firmwareCmd => rfl
  | uart => rfl

theorem poll_commandBox (hs : s.SendsFull) :
    s.poll.commandBox = s.commandBox.apply (s.operation .poll) := by
  unfold poll operation
  split
  · next hPoint => simp [hPoint, commandBox, Mailbox.apply]
  · next kind hPoint =>
      split_ifs <;> simp_all [commandBox, Mailbox.apply]
  · next kind hPoint =>
      by_cases hKind : kind = .command
      · subst hKind
        have hFull := hs hPoint
        rw [if_pos hPoint]
        cases hConn : s.udpConn with
        | false =>
            simp [sendSlot, commandBox, Mailbox.apply, hConn, transmit, Slots.clearReady]
        | true =>
            have hCommand : IsCommand (sendCommandPacket s.slots.commandMessage) := rfl
            simp [sendSlot, commandBox, Mailbox.apply, hConn, transmit, Slots.clearReady,
              Slots.datagram, hFull, hCommand]
      · have hOther : s.pollPoint ≠ .sending .command := by simp [hPoint, hKind]
        rw [if_neg hOther]
        simp [sendSlot, commandBox, Mailbox.apply, filter_datagram, hKind,
          clearReady_commandMessage]

/-- **The coordinator is a mailbox of one command.** -/
theorem step_commandBox (event : PollEvent) (hs : s.SendsFull) (h : s.step event = some t) :
    t.commandBox = s.commandBox.apply (s.operation event) := by
  cases event with
  | uart uartChar =>
      rcases uart_cases h with ⟨hPacket, rfl⟩ | ⟨packet, effect, hPacket, hEffect, rfl⟩
      · rw [operation, hPacket]
        rfl
      · rw [operation, hPacket]
        exact accept_commandBox (s := { s with receiver := _ }) hEffect
  | poll =>
      obtain rfl := Option.some.inj h
      exact poll_commandBox hs

/-- A step that loses no command: a COMMAND frame, or the frame of a reboot, is
completed only while no command waits; no frame overruns the payload array; and a
command is taken from its slot only if the connection was registered. -/
def LosesNothing (s : Polling) : PollEvent → Prop
  | .uart uartChar => ∀ packet ∈ (uartDataReceiver s.receiver uartChar).2,
      PayloadFits packet ∧
        (IsCommandFrame packet ∨ IsRebootFrame packet →
          s.slots.commandMessage.readyToSend = false)
  | .poll => s.pollPoint = .sending .command → s.udpConn = true

theorem losesNothing_defined {event : PollEvent} (h : s.LosesNothing event) :
    ∃ t, s.step event = some t := by
  cases event with
  | uart uartChar =>
      show ∃ t, s.uart uartChar = some t
      unfold uart
      cases hPacket : (uartDataReceiver s.receiver uartChar).2 with
      | none => exact ⟨_, rfl⟩
      | some packet =>
          obtain ⟨effect, hEffect⟩ :=
            Option.isSome_iff_exists.mp (uartPacketProcessed_isSome.mpr (h packet hPacket).1)
          apply Exists.intro
          simp only [hEffect]
          rfl
  | poll => exact ⟨_, rfl⟩

/-- On a step that can be made, the condition is that of the mailbox. -/
theorem losesNothing_iff_safe {event : PollEvent} (hs : s.SendsFull)
    (h : s.step event = some t) :
    s.LosesNothing event ↔ s.commandBox.Safe (s.operation event) := by
  have hEmpty : s.commandBox.content = none ↔ s.slots.commandMessage.readyToSend = false := by
    simp [commandBox]
  cases event with
  | uart uartChar =>
      rcases uart_cases h with ⟨hPacket, -⟩ | ⟨packet, effect, hPacket, hEffect, -⟩
      · simp [LosesNothing, operation, hPacket, Mailbox.Safe]
      · have hFits := uartPacketProcessed_isSome.mp (Option.isSome_iff_exists.mpr ⟨effect, hEffect⟩)
        simp only [LosesNothing, operation, hPacket, Option.mem_def, Option.some.injEq,
          forall_eq', hFits, true_and, Option.elim_some, frameOperation]
        split_ifs with hCommand hReboot
        · simp [Mailbox.Safe, hCommand, hEmpty]
        · simp [Mailbox.Safe, hReboot, hEmpty]
        · simp [Mailbox.Safe, hCommand, hReboot]
  | poll =>
      by_cases hPoint : s.pollPoint = .sending .command
      · have hFull := hs hPoint
        cases hConn : s.udpConn with
        | false => simp [LosesNothing, operation, hPoint, hConn, Mailbox.Safe, hEmpty, hFull]
        | true => simp [LosesNothing, operation, hPoint, hConn, Mailbox.Safe]
      · simp [LosesNothing, operation, hPoint, Mailbox.Safe]

/-- **When no command is lost.** The commands sent, with the one that waits, are
the COMMAND frames accepted, in order, each once, if and only if no step loses one. -/
theorem commands_exact_iff (udpConn : Bool) (events : List PollEvent) :
    (∃ t, runAll step (start udpConn) events = some t ∧ t.commandBox.Exact) ↔
      Along step LosesNothing (start udpConn) events := by
  apply runAll_good_iff SendsFull (fun s => s.commandBox.Exact) fun s => s.commandBox.Short
  · intro s event t hs hStep
    exact step_sendsFull event hs hStep
  · intro s event hs hExact hKept
    obtain ⟨t, hStep⟩ := losesNothing_defined hKept
    apply Exists.intro t
    rw [step_commandBox event hs hStep]
    exact ⟨hStep, hExact.apply ((losesNothing_iff_safe hs hStep).mp hKept)⟩
  · intro s event t hs hExact hLost hStep
    rw [step_commandBox event hs hStep]
    exact hExact.short_apply (mt (losesNothing_iff_safe hs hStep).mpr hLost)
  · intro s event t hs hShort hStep
    rw [step_commandBox event hs hStep]
    exact hShort.apply
  · intro s hShort
    exact hShort.not_exact
  · intro hPoint
    cases hPoint
  · rfl

/-- Bytes that complete no frame only change the receiver. -/
theorem runAll_uart_silent (word : List Byte) (s : Polling)
    (h : Coordinator.receiver.emitted s.receiver word = []) :
    runAll step s (word.map .uart) =
      some { s with receiver := Coordinator.receiver.after s.receiver word } := by
  induction word generalizing s with
  | nil => rfl
  | cons uartChar word ih =>
      rw [Transducer.emitted_cons, List.append_eq_nil_iff, Option.toList_eq_nil_iff] at h
      have hStep : s.step (.uart uartChar) =
          some { s with receiver := (uartDataReceiver s.receiver uartChar).1 } := by
        have hPacket : (uartDataReceiver s.receiver uartChar).2 = none := h.1
        simp [step, uart, hPacket]
      rw [List.map_cons, runAll, hStep, Option.bind_some, ih _ h.2]
      rfl

/-- Bytes that complete one frame, with no poll in between and no reboot. -/
theorem runAll_uart_frame (word : List Byte) (s : Polling)
    (h : Coordinator.receiver.emitted s.receiver word = [packet])
    (hEffect : uartPacketProcessed packet = some effect)
    (hReboot : effect.localCommand ≠ some .systemReset) :
    runAll step s (word.map .uart) =
      some
        { s with
          receiver := Coordinator.receiver.after s.receiver word
          slots := effect.store s.slots
          accepted := s.accepted ++ [packet] } := by
  induction word generalizing s with
  | nil => cases h
  | cons uartChar word ih =>
      rw [Transducer.emitted_cons] at h
      rw [List.map_cons, runAll]
      show (s.uart uartChar).bind _ = _
      unfold uart
      have hPacket : (Coordinator.receiver.step s.receiver uartChar).2 =
          (uartDataReceiver s.receiver uartChar).2 := rfl
      rw [hPacket] at h
      cases hNow : (uartDataReceiver s.receiver uartChar).2 with
      | none =>
          rw [hNow] at h
          exact ih _ h
      | some first =>
          rw [hNow, Option.toList_some, List.singleton_append, List.cons.injEq] at h
          obtain ⟨rfl, hRest⟩ := h
          simp only [hEffect, Option.map_some, Option.bind_some, accept, if_neg hReboot]
          rw [runAll_uart_silent word _ hRest]
          rfl

/-- The data of a command for the relay of a node. -/
def relayCommand (state : Byte) : List Byte :=
  nodeFrame (Vector.replicate 16 0) protocolVersionV1 deviceVersionV1 dataTypeCommand
    [3, 1, state]

/-- A COMMAND frame, received while nothing is polled, is one more accepted command. -/
theorem runAll_commandFrame (s : Polling) (crc : Byte) (data : List Byte) (h : s.receiver.Idle)
    (hLength : 0 < data.length ∧ data.length ≤ 1500) (hType : data[18]? = some dataTypeCommand) :
    ∃ t, runAll step s ((v3Frame crc data).map .uart) = some t ∧ t.receiver.Idle ∧
      t.sent = s.sent ∧ t.commandBox.accepted.length = s.commandBox.accepted.length + 1 := by
  obtain ⟨hEmitted, hIdle, -⟩ := UartReceiver.receive_frame h crc data hLength.1 hLength.2
  have hCommand : IsCommandFrame (packetOf s.receiver.uartData data) :=
    overlay_eq_of_getElem? hType
  have hNotFirmware : (packetOf s.receiver.uartData data).uartData 18 ≠ dataTypeFirmware := by
    rw [hCommand]
    decide
  have hNotReboot : ¬ IsRebootFrame (packetOf s.receiver.uartData data) := by
    intro hReboot
    have hOther := hReboot.1
    rw [hCommand] at hOther
    exact absurd hOther (by decide)
  have hEffect := uartPacketProcessed_of_ne hNotFirmware
  have hRun := runAll_uart_frame _ s hEmitted hEffect
    (mt (uartPacketProcessed_systemReset hEffect).mp hNotReboot)
  refine ⟨_, hRun, ?_, rfl, ?_⟩
  · dsimp only
    exact hIdle
  · simp only [commandBox, List.filter_append, List.map_append, List.length_append]
    simp [hCommand]

/-- Two commands between two polls: the first one is never sent. -/
theorem commands_exact_fails : ¬ ∀ (events : List PollEvent) (t : Polling),
    runAll step (start true) events = some t → t.commandBox.Exact := by
  intro h
  obtain ⟨s, hFirst, hIdle, hSent, hAccepted⟩ := runAll_commandFrame (start true) 0
    (List.replicate 18 0 ++ [dataTypeCommand, 3, 1, 1]) UartReceiver.idle_reset (by decide) rfl
  obtain ⟨t, hSecond, -, hNoneSent, hBoth⟩ := runAll_commandFrame s 0
    (List.replicate 18 0 ++ [dataTypeCommand, 3, 1, 2]) hIdle (by decide) rfl
  have hRun := @runAll_append _ _ step
    ((v3Frame 0 (List.replicate 18 0 ++ [dataTypeCommand, 3, 1, 1])).map .uart)
    ((v3Frame 0 (List.replicate 18 0 ++ [dataTypeCommand, 3, 1, 2])).map .uart) (start true)
  rw [hFirst, Option.bind_some, hSecond] at hRun
  have hExact := congrArg List.length (h _ t hRun)
  have hWaiting : t.commandBox.content.toList.length ≤ 1 := Option.length_toList_le
  have hDelivered : t.commandBox.delivered = [] := by
    show t.sent.filter IsCommand = []
    rw [hNoneSent, hSent]
    rfl
  rw [List.length_append, hDelivered, hBoth, hAccepted] at hExact
  simp only [List.length_nil] at hExact
  omega

end Polling
end Smarthome.Coordinator
