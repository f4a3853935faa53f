import Smarthome.Node.FirmwareUpdate

/-! `fw_update_process` under `process.c` and `etimer.c`: its timers, the events in the
queue, and its exit, after which the thread returns as if it waited. `call_process`
takes it for a running process then, so that an event that was posted to it before
wakes it once more, at the wait where it was. -/
namespace Smarthome.Node

/-- The event timers of the process. -/
inductive UpdateTimer where
  | otaImageEraseTimer
  | fwTimer
  | fwTimerDeadline
  | fwTimerDelayChunk
  deriving DecidableEq

/-- The process, with what it shares with the handlers and the event timers. -/
structure UpdateProcess where
  /-- Its wait is `notRunning` when the process is not in `process_list`. -/
  node : FwUpdate
  /-- The wait at which the next call goes on, which `process_exit` leaves as it is. -/
  lc : WaitPoint
  otaImageEraseTimerExpired : Bool
  fwTimerDelayChunkExpired : Bool
  /-- The timers of the process in the list of `etimer.c`. -/
  timerlist : List UpdateTimer
  /-- The timer events in the queue that are for this process. -/
  events : Nat
  /-- The event of `fw_timer` as the packet handler sets it, which is for all processes. -/
  packetEvent : Bool
  /-- The chunks that the update has requested, and how often its thread has gone on. -/
  requests : List Nat
  turns : Nat

inductive UpdateEvent where
  | expire (timer : UpdateTimer)
  /-- The next event for the process is taken from the queue. -/
  | deliver
  /-- An event for all processes. -/
  | broadcast
  | receive (data : Nat → Byte)
  /-- `verify_ota_slot(1)` returns, and the node does not restart. -/
  | finish

namespace UpdateProcess

/-- `process_exit`. It drops the timers of the process, and not its events. -/
def exit (process : UpdateProcess) : UpdateProcess :=
  if process.node.waitPoint = .notRunning then process
  else { process with
    node := { process.node with waitPoint := .notRunning }
    timerlist := [] }

/-- What the thread sets before a wait. -/
def waitAt (process : UpdateProcess) : WaitPoint → UpdateProcess
  | .imageErase page =>
      { process with
        lc := .imageErase page
        otaImageEraseTimerExpired := false
        timerlist := process.timerlist.insert .otaImageEraseTimer }
  | .chunk =>
      { process with
        lc := .chunk
        timerlist := (process.timerlist.insert .fwTimer).insert .fwTimerDeadline }
  | .delayChunk =>
      { process with
        lc := .delayChunk
        fwTimerDelayChunkExpired := false
        timerlist := process.timerlist.insert .fwTimerDelayChunk }
  | .notRunning | .verifying => process

/-- The thread has gone on to the point where `node` waits. A process that is not in
the list is not put there; what it verifies then, it verifies at once. -/
def goOn (process : UpdateProcess) (node : FwUpdate) (request : Option Nat) : UpdateProcess :=
  let turned := { process with
    requests := process.requests ++ request.toList, turns := process.turns + 1 }
  if process.node.waitPoint = .notRunning then
    { turned with node := { node with waitPoint := .notRunning } }.waitAt node.waitPoint
  else if node.waitPoint = .notRunning then
    { turned with node := { node with waitPoint := process.node.waitPoint } }.exit
  else { turned with node }.waitAt node.waitPoint

/-- The condition of the wait at which the thread goes on. -/
def expired (process : UpdateProcess) : Bool :=
  match process.lc with
  | .imageErase _ => process.otaImageEraseTimerExpired
  | .chunk => process.node.fwTimerExpired
  | .delayChunk => process.fwTimerDelayChunkExpired
  | .notRunning | .verifying => false

/-- `call_process`. -/
def call (process : UpdateProcess) : Option UpdateProcess :=
  if process.expired = true then
    { process.node with waitPoint := process.lc }.resume.map fun (node, request) =>
      process.goOn node request
  else some process

/-- A timer expires, and its event is posted. `fw_timer`, set before `fw_timer_deadline`
to one tick more, does not expire before it. -/
def expire (process : UpdateProcess) (timer : UpdateTimer) : Option UpdateProcess :=
  if timer ∈ process.timerlist ∧ (timer = .fwTimer → .fwTimerDeadline ∉ process.timerlist) then
    let posted := { process with
      timerlist := process.timerlist.erase timer, events := process.events + 1 }
    match timer with
    | .otaImageEraseTimer => some { posted with otaImageEraseTimerExpired := true }
    | .fwTimer => some { posted with node := { process.node with fwTimerExpired := true } }
    | .fwTimerDeadline =>
        some { posted with node := { process.node with fwTimerDeadlineExpired := true } }
    | .fwTimerDelayChunk => some { posted with fwTimerDelayChunkExpired := true }
  else none

/-- `udp_receiver`. The packet handler takes `fw_timer` from the process; a process
that is not in the list can be started. -/
def receive (process : UpdateProcess) (data : Nat → Byte) : Option UpdateProcess :=
  (process.node.receive (udpReceiver data)).map fun node =>
    match udpReceiver data with
    | .firmwareDataHandler _ =>
        { process with
          node, timerlist := process.timerlist.erase .fwTimer, packetEvent := true }
    | .firmwareCmdNewFwHandler _ =>
        if process.node.waitPoint = .notRunning ∧ node.waitPoint ≠ .notRunning then
          { process with node, requests := [] }.waitAt node.waitPoint
        else { process with node }
    | _ => { process with node }

/-- One event. Nothing but the verification happens while the process verifies. -/
def step (process : UpdateProcess) : UpdateEvent → Option UpdateProcess
  | .expire timer =>
      if process.node.waitPoint = .verifying then none else process.expire timer
  | .deliver =>
      if process.node.waitPoint = .verifying ∨ process.events = 0 then none
      else { process with events := process.events - 1 }.call
  | .broadcast =>
      if process.node.waitPoint = .verifying then none
      else if process.node.waitPoint = .notRunning then some { process with packetEvent := false }
      else { process with packetEvent := false }.call
  | .receive data =>
      if process.node.waitPoint = .verifying then none else process.receive data
  | .finish => if process.node.waitPoint = .verifying then some process.exit else none

/-- The process before its first start. A timer that was never set counts as expired. -/
def unstarted (spiActive : Bool) (flash : ExtFlash) : UpdateProcess where
  node :=
    { waitPoint := .notRunning, chunkNum := 0, fwChunkQuantity := 0, fwErrorCounter := 0
      otaImageCurrentOffset := 0, fwTimerExpired := true, fwTimerDeadlineExpired := true
      spiActive, flash }
  lc := .notRunning
  otaImageEraseTimerExpired := true
  fwTimerDelayChunkExpired := true
  timerlist := []
  events := 0
  packetEvent := false
  requests := []
  turns := 0

/-- The thread is about to go through the top of its request loop. -/
def AtTop (process : UpdateProcess) : Prop :=
  (∃ page, process.node.waitPoint = .imageErase page ∧ ¬ page + 1 < 25) ∨
    process.node.waitPoint = .delayChunk

/-- What a thread that goes on from its wait can do. -/
inductive Turn (process : UpdateProcess) : UpdateProcess → Prop where
  | erase (page : Nat) (flash : ExtFlash) (hPoint : process.node.waitPoint = .imageErase page)
      (hMore : page + 1 < 25) :
      Turn process { process with
        node := { process.node with flash, waitPoint := .imageErase (page + 1) }
        lc := .imageErase (page + 1)
        otaImageEraseTimerExpired := false
        timerlist := process.timerlist.insert .otaImageEraseTimer
        turns := process.turns + 1 }
  | request (hTop : process.AtTop) (hMore : process.node.chunkNum < process.node.fwChunkQuantity) :
      Turn process { process with
        node := { process.node with
          chunkNum := (process.node.chunkNum + 1) % 0x10000
          fwTimerExpired := false, fwTimerDeadlineExpired := false, waitPoint := .chunk }
        lc := .chunk
        timerlist := (process.timerlist.insert .fwTimer).insert .fwTimerDeadline
        requests := process.requests ++ [process.node.chunkNum]
        turns := process.turns + 1 }
  | verify (hTop : process.AtTop) (hEnd : ¬ process.node.chunkNum < process.node.fwChunkQuantity) :
      Turn process { process with
        node := { process.node with chunkNum := 0, fwErrorCounter := 0, waitPoint := .verifying }
        turns := process.turns + 1 }
  | giveUp (hPoint : process.node.waitPoint = .chunk)
      (hDeadline : process.node.fwTimerDeadlineExpired = true)
      (hMore : process.node.chunkNum < process.node.fwChunkQuantity)
      (hErrors : process.node.fwErrorCounter > fwMaxErrorCounter) :
      Turn process { process with
        node := { process.node with chunkNum := 0, fwErrorCounter := 0, waitPoint := .notRunning }
        timerlist := []
        turns := process.turns + 1 }
  | again (hPoint : process.node.waitPoint = .chunk)
      (hDeadline : process.node.fwTimerDeadlineExpired = true)
      (hMore : process.node.chunkNum < process.node.fwChunkQuantity)
      (hErrors : ¬ process.node.fwErrorCounter > fwMaxErrorCounter) :
      Turn process { process with
        node := { process.node with
          fwErrorCounter := (process.node.fwErrorCounter + 1) % 0x100
          chunkNum := (process.node.chunkNum + 0xFFFF) % 0x10000, waitPoint := .delayChunk }
        lc := .delayChunk
        fwTimerDelayChunkExpired := false
        timerlist := process.timerlist.insert .fwTimerDelayChunk
        turns := process.turns + 1 }
  | next (hPoint : process.node.waitPoint = .chunk)
      (hNext : ¬ (process.node.fwTimerDeadlineExpired = true ∧
        process.node.chunkNum < process.node.fwChunkQuantity)) :
      Turn process { process with
        node := { process.node with waitPoint := .delayChunk }
        lc := .delayChunk
        fwTimerDelayChunkExpired := false
        timerlist := process.timerlist.insert .fwTimerDelayChunk
        turns := process.turns + 1 }

section Turn

variable {process other : UpdateProcess}

theorem turn_requestChunk (hTop : process.AtTop)
    (h : process.goOn process.node.requestChunk.1 process.node.requestChunk.2 = other) :
    Turn process other := by
  have hListed : process.node.waitPoint ≠ .notRunning := by
    rcases hTop with ⟨page, hPoint, -⟩ | hPoint <;> rw [hPoint] <;> nofun
  unfold FwUpdate.requestChunk at h
  split_ifs at h with hMore
  · simp only [goOn, if_neg hListed, waitAt, reduceCtorEq, if_false] at h
    exact h ▸ Turn.request hTop hMore
  · simp only [goOn, if_neg hListed, waitAt, reduceCtorEq, if_false, Option.toList_none,
      List.append_nil] at h
    exact h ▸ Turn.verify hTop hMore

theorem turn_afterChunk (hPoint : process.node.waitPoint = .chunk)
    (h : process.goOn process.node.afterChunk none = other) : Turn process other := by
  have hListed : process.node.waitPoint ≠ .notRunning := by simp [hPoint]
  unfold FwUpdate.afterChunk at h
  split_ifs at h with hDeadline hErrors
  · simp only [goOn, if_neg hListed, exit, if_true, Option.toList_none, List.append_nil] at h
    exact h ▸ Turn.giveUp hPoint hDeadline.1 hDeadline.2 hErrors
  · simp only [goOn, if_neg hListed, waitAt, reduceCtorEq, if_false, Option.toList_none,
      List.append_nil] at h
    exact h ▸ Turn.again hPoint hDeadline.1 hDeadline.2 hErrors
  · simp only [goOn, if_neg hListed, waitAt, reduceCtorEq, if_false, Option.toList_none,
      List.append_nil] at h
    exact h ▸ Turn.next hPoint hDeadline

/-- A call of a process that goes on where its update waits. -/
theorem call_cases (hLc : process.lc = process.node.waitPoint) (hStep : process.call = some other) :
    process.expired = false ∧ other = process ∨ process.expired = true ∧ Turn process other := by
  rw [call, hLc] at hStep
  split_ifs at hStep with hExpired
  · apply Or.inr
    apply And.intro hExpired
    rw [Option.map_eq_some_iff] at hStep
    obtain ⟨⟨node, request⟩, hResume, hTurned⟩ := hStep
    rw [FwUpdate.resume] at hResume
    cases hPoint : process.node.waitPoint with
    | notRunning =>
        rw [expired, hLc, hPoint] at hExpired
        cases hExpired
    | imageErase page =>
        rw [hPoint] at hResume
        simp only at hResume
        split_ifs at hResume with hMore
        · rw [FwUpdate.erasePage, Option.map_map, Option.map_eq_some_iff] at hResume
          obtain ⟨flash, -, hErased⟩ := hResume
          obtain ⟨rfl, rfl⟩ := Prod.mk.inj hErased
          simp only [goOn, hPoint, waitAt, reduceCtorEq, if_false, Option.toList_none,
            List.append_nil] at hTurned
          exact hTurned ▸ Turn.erase page flash hPoint hMore
        · apply turn_requestChunk (Or.inl ⟨page, hPoint, hMore⟩)
          rw [← hPoint] at hResume
          rw [Option.some.inj hResume]
          exact hTurned
    | chunk =>
        rw [hPoint] at hResume
        simp only at hResume
        split_ifs at hResume
        apply turn_afterChunk hPoint
        rw [← hPoint] at hResume
        obtain ⟨rfl, rfl⟩ := Prod.mk.inj (Option.some.inj hResume)
        exact hTurned
    | delayChunk =>
        rw [hPoint] at hResume
        simp only at hResume
        apply turn_requestChunk (Or.inr hPoint)
        rw [← hPoint] at hResume
        rw [Option.some.inj hResume]
        exact hTurned
    | verifying =>
        rw [expired, hLc, hPoint] at hExpired
        cases hExpired
  · exact Or.inl ⟨Bool.eq_false_iff.mpr hExpired, (Option.some.inj hStep).symm⟩

end Turn

/-- A timer that expires sets its own flag, and posts an event. -/
theorem expire_eq {process other : UpdateProcess} {timer : UpdateTimer}
    (hStep : process.expire timer = some other) :
    timer ∈ process.timerlist ∧ (timer = .fwTimer → .fwTimerDeadline ∉ process.timerlist) ∧
      other = { process with
        node := { process.node with
          fwTimerExpired := process.node.fwTimerExpired || decide (timer = .fwTimer)
          fwTimerDeadlineExpired :=
            process.node.fwTimerDeadlineExpired || decide (timer = .fwTimerDeadline) }
        otaImageEraseTimerExpired :=
          process.otaImageEraseTimerExpired || decide (timer = .otaImageEraseTimer)
        fwTimerDelayChunkExpired :=
          process.fwTimerDelayChunkExpired || decide (timer = .fwTimerDelayChunk)
        timerlist := process.timerlist.erase timer
        events := process.events + 1 } := by
  rw [expire] at hStep
  split_ifs at hStep with hRuns
  apply And.intro hRuns.1
  apply And.intro hRuns.2
  cases timer with
  | _ =>
      obtain rfl := Option.some.inj hStep
      simp

/-- What a datagram can do to the process. -/
inductive Received (process : UpdateProcess) (data : Nat → Byte) : UpdateProcess → Prop where
  | unrelated (flash : ExtFlash) (hData : ∀ buffer, udpReceiver data ≠ .firmwareDataHandler buffer)
      (hNewFw : ∀ quantity, udpReceiver data ≠ .firmwareCmdNewFwHandler quantity) :
      Received process data { process with node := { process.node with flash } }
  | packet (flash : ExtFlash) (buffer : List Byte)
      (hData : udpReceiver data = .firmwareDataHandler buffer) :
      Received process data { process with
        node := { process.node with
          flash
          fwErrorCounter := 0
          otaImageCurrentOffset :=
            (process.node.otaImageCurrentOffset + firmwarePayloadLength) % 0x100000000
          fwTimerExpired := true }
        timerlist := process.timerlist.erase .fwTimer
        packetEvent := true }
  | start (flash : ExtFlash) (fwChunkQuantity : Nat)
      (hData : udpReceiver data = .firmwareCmdNewFwHandler fwChunkQuantity)
      (hStart : process.node.spiActive = true ∧ process.node.waitPoint = .notRunning) :
      Received process data { process with
        node := { process.node with
          flash, fwChunkQuantity, otaImageCurrentOffset := 0, waitPoint := .imageErase 0 }
        lc := .imageErase 0
        otaImageEraseTimerExpired := false
        timerlist := process.timerlist.insert .otaImageEraseTimer
        requests := [] }
  | announce (fwChunkQuantity : Nat)
      (hData : udpReceiver data = .firmwareCmdNewFwHandler fwChunkQuantity)
      (hStart : ¬ (process.node.spiActive = true ∧ process.node.waitPoint = .notRunning)) :
      Received process data { process with
        node := { process.node with fwChunkQuantity, otaImageCurrentOffset := 0 } }

theorem receive_cases {process other : UpdateProcess} {data : Nat → Byte}
    (hStep : process.receive data = some other) : Received process data other := by
  rw [receive, Option.map_eq_some_iff] at hStep
  obtain ⟨node, hNode, hOther⟩ := hStep
  cases hCall : udpReceiver data with
  | firmwareDataHandler buffer =>
      rw [hCall] at hNode hOther
      rw [FwUpdate.receive, FwUpdate.firmwareDataHandler, Option.map_eq_some_iff] at hNode
      obtain ⟨flash, -, rfl⟩ := hNode
      exact hOther ▸ Received.packet flash buffer hCall
  | firmwareCmdNewFwHandler fwChunkQuantity =>
      rw [hCall] at hNode hOther
      rw [FwUpdate.receive, FwUpdate.newFwHandler] at hNode
      split_ifs at hNode with hStart
      · rw [FwUpdate.erasePage, Option.map_eq_some_iff] at hNode
        obtain ⟨flash, -, rfl⟩ := hNode
        simp only [hStart.2, waitAt, reduceCtorEq, ne_eq, not_false_eq_true, and_self, if_true]
          at hOther
        exact hOther ▸ Received.start flash fwChunkQuantity hCall hStart
      · obtain rfl := Option.some.inj hNode
        simp only [ne_eq, and_not_self, if_false] at hOther
        exact hOther ▸ Received.announce fwChunkQuantity hCall hStart
  | eraseOtaImage slot =>
      rw [hCall] at hNode hOther
      rw [FwUpdate.receive, Option.map_eq_some_iff] at hNode
      obtain ⟨flash, -, rfl⟩ := hNode
      exact hOther ▸ Received.unrelated flash (by simp [hCall]) (by simp [hCall])
  | watchdogReboot | flashGoldenImageAndReboot =>
      rw [hCall] at hNode
      cases hNode
  | _ =>
      rw [hCall] at hNode hOther
      obtain rfl := Option.some.inj hNode
      exact hOther ▸ Received.unrelated process.node.flash (by simp [hCall]) (by simp [hCall])

end UpdateProcess

end Smarthome.Node
