import Smarthome.Contiki.Calls
import Smarthome.Node.RadioPower
import Smarthome.Protocol
import Mathlib.Data.Fintype.Sum

/-! How a node joins the network and leaves it: the threads of `dag_node.c` as programs on the
kernel of `process.c`. A thread is cut into points at its calls of the kernel and at its waits;
between two of them nothing else happens. -/
namespace Smarthome.Node.Membership

open Contiki (Kernel ProcessEvent ProcessData PtResult)

abbrev processEventContinue : ProcessEvent := 0x85

abbrev classC : Byte := 0x0C

def maxNonAnsweredPings : Nat := 3

/-- `node_mode`, which is zero before `dag_node_process` sets it. -/
inductive NodeMode where
  | boot
  | normal
  | notroot
  | joinProgress
  | needReboot
  deriving DecidableEq

/-- The processes that the threads of `dag_node.c` start and exit. -/
inductive NodeProcess where
  | dagNodeProcess
  | maintenanceProcess
  | rootFindProcess
  | statusSendProcess
  | dagNodeButtonProcess
  | ledProcess
  | timeSyncProcess
  deriving DecidableEq

instance : Fintype NodeProcess where
  elems := {.dagNodeProcess, .maintenanceProcess, .rootFindProcess, .statusSendProcess,
    .dagNodeButtonProcess, .ledProcess, .timeSyncProcess}
  complete process := by cases process <;> decide

/-- A process of the node, or one of the rest of the firmware. -/
abbrev AnyProcess (Other : Type) := NodeProcess ⊕ Other

/-- The processes whose threads are modelled. -/
def IsOwn {Other : Type} : AnyProcess Other → Bool
  | .inl .dagNodeProcess | .inl .maintenanceProcess | .inl .rootFindProcess
  | .inl .statusSendProcess => true
  | _ => false

inductive NodeTimer where
  | maintenance
  | maintenanceReboot
  | statusSend
  | findRoot
  | findRootLimit
  deriving DecidableEq

/-- What a thread does next, or the wait that it is at. -/
inductive Point where
  | begin
  | pauseYields
  | pause
  -- dag_node_process
  | startMaintenance
  | startShell
  | waitContinue
  | setNormal
  | checkImages
  | restartMaintenance
  | finish
  -- maintenance_process
  | top
  | waitReboot
  | startStatus
  | exitSearch
  | countPings
  | checkNotroot
  | sleepButton
  | sleepSearch
  | sleepStatus
  | sleepMaintenance
  | sleepRadio
  | rebootNow
  | checkJoin
  | startSearch
  | exitStatus
  | setMaintenanceTimer
  | waitMaintenance
  -- root_find_process
  | search
  | sendJoin (dagId : Ipv6Address)
  | setFindRootTimer
  | waitFindRoot
  -- status_send_process
  | status
  | countStatus
  | setStatusTimer
  | waitStatusSend
  deriving DecidableEq

inductive PacketKind where
  | join
  | status
  /-- Sensor events, messages, UART data and requests for the time. -/
  | data
  | fwChunkReq
  deriving DecidableEq

/-- A packet that was sent, with the senders of the confirmations received before, newest first. -/
structure SentPacket where
  kind : PacketKind
  destination : Ipv6Address
  confirmed : List Ipv6Address
  deriving DecidableEq

/-- The variables of `dag_node.c` and the radio. No code reads `confirmed`, `sent`,
`unanswered`, how often `status_send_process` has counted since the last pong, and `unchecked`,
how often since `maintenance_process` last looked at the number. -/
structure NodeVars where
  nodeMode : NodeMode
  rootAddr : Ipv6Address
  nonAnsweredPacket : Byte
  /-- `etimer_expired`; it holds of a timer that was never set. -/
  expired : NodeTimer → Bool
  radio : RadioPower
  confirmed : List Ipv6Address
  sent : List SentPacket
  unanswered : Nat
  unchecked : Nat

namespace NodeVars

def boot : NodeVars where
  nodeMode := .boot
  rootAddr := Vector.replicate 16 0
  nonAnsweredPacket := 0
  expired := fun _ => true
  radio := RadioPower.boot
  confirmed := []
  sent := []
  unanswered := 0
  unchecked := 0

def etimerSet (timer : NodeTimer) (vars : NodeVars) : NodeVars :=
  { vars with expired := Function.update vars.expired timer false }

/-- `simple_udp_sendto`. -/
def sendTo (kind : PacketKind) (destination : Ipv6Address) (vars : NodeVars) : NodeVars :=
  { vars with sent := ⟨kind, destination, vars.confirmed⟩ :: vars.sent }

/-- `send_sensor_event`, `send_message_packet`, `send_uart_data` and
`send_time_sync_req_packet`. -/
def sendData (nodeClass : Byte) (vars : NodeVars) : NodeVars :=
  if vars.nodeMode = .normal then
    { vars with radio := vars.radio.netOn nodeClass radioOnTimerOff }.sendTo .data vars.rootAddr
  else vars

/-- `send_status_packet`. -/
def sendStatusPacket (nodeClass : Byte) (vars : NodeVars) : NodeVars :=
  { vars with radio := vars.radio.netOn nodeClass radioOnTimerOff }.sendTo .status vars.rootAddr

/-- `send_fw_chunk_req_packet`, which does not look at the mode. -/
def sendFwChunkReqPacket (vars : NodeVars) : NodeVars := vars.sendTo .fwChunkReq vars.rootAddr

end NodeVars

/-- What a thread finds around it when it goes on. -/
structure Surroundings (Other : Type) where
  /-- The `dag_id` of the DAG of the preferred global address, if there are both. -/
  dagId : Option Ipv6Address
  ledFastBlinks : Bool
  /-- `rpl_get_any_dag` returns a DAG. -/
  anyDag : Bool
  parentReachable : Bool
  /-- The parent has an address and link statistics. -/
  parentKnown : Bool
  /-- The SPI flash is active, and `verify_ota_slot(0)` returns `VERIFY_SLOT_CRC_ERROR`. -/
  badGoldenImage : Bool
  /-- `read_fw_flag` returns `FW_FLAG_NEW_IMG_INT`. -/
  newImgInt : Bool
  /-- A process of the shell that is started next. -/
  shellProcess : Option Other

/-- What a thread does at a point. -/
inductive Turn (Other : Type) where
  /-- It calls a function of `process.c` and goes on after it. -/
  | call (vars : NodeVars) (action : Contiki.Action (AnyProcess Other)) (next : Point)
  | goOn (vars : NodeVars) (next : Point)
  /-- It returns, and the next call of it begins at the wait. -/
  | wait (vars : NodeVars) (point : Point)
  | ended (vars : NodeVars)
  | reboot (vars : NodeVars)

section Threads

variable {Other : Type}

abbrev start (p : NodeProcess) : Contiki.Action (AnyProcess Other) := .start (.inl p) .null

abbrev exit (p : NodeProcess) : Contiki.Action (AnyProcess Other) := .exit (.inl p)

/-- The post of `PROCESS_PAUSE`. -/
abbrev pauses (p : NodeProcess) : Contiki.Action (AnyProcess Other) :=
  .post (some (.inl p)) processEventContinue .null

/-- A call after a look at `process_is_running`. -/
def callIf (condition : Bool) (action : Contiki.Action (AnyProcess Other)) (vars : NodeVars)
    (next : Point) : Turn Other :=
  if condition = true then .call vars action next else .goOn vars next

def dagNodeProcess (nodeClass : Byte) (around : Surroundings Other) (ev : ProcessEvent)
    (vars : NodeVars) : Point → Turn Other
  | .begin => .call vars (pauses .dagNodeProcess) .pauseYields
  | .pauseYields => .wait vars .pause
  | .pause =>
      if ev = processEventContinue then
        .call { vars with nodeMode := .joinProgress } (start .dagNodeButtonProcess)
          .startMaintenance
      else .wait vars .pause
  | .startMaintenance => .call vars (start .maintenanceProcess) .startShell
  | .startShell =>
      match around.shellProcess with
      | some shell => .call vars (.start (.inr shell) .null) .startShell
      | none => .wait vars .waitContinue
  | .waitContinue =>
      -- led_mode_set(LED_SLOW_BLINK)
      if ev = processEventContinue then .call vars (start .ledProcess) .setNormal
      else .wait vars .waitContinue
  | .setNormal =>
      .call { vars with
          nodeMode := .normal
          radio := (vars.radio.netMode nodeClass radioFreedom).netOff nodeClass radioOffNow }
        (start .timeSyncProcess) .checkImages
  | .checkImages =>
      if around.badGoldenImage = true then .reboot (vars.sendData nodeClass)
      else if around.newImgInt = true then
        .call { vars.sendData nodeClass with nodeMode := .needReboot } (exit .maintenanceProcess)
          .restartMaintenance
      else .ended vars
  | .restartMaintenance => .call vars (start .maintenanceProcess) .finish
  | _ => .ended vars

def maintenanceProcess (nodeClass : Byte) (isRunning : AnyProcess Other → Bool) (ev : ProcessEvent)
    (vars : NodeVars) : Point → Turn Other
  | .begin =>
      if ev = Contiki.processEventExit then .wait vars .begin
      else .call vars (pauses .maintenanceProcess) .pauseYields
  | .pauseYields => .wait vars .pause
  | .pause => if ev = processEventContinue then .goOn vars .top else .wait vars .pause
  | .top =>
      if vars.nodeMode = .needReboot then .wait (vars.etimerSet .maintenanceReboot) .waitReboot
      -- led_mode_set(LED_OFF)
      else if vars.nodeMode = .normal then .call vars (exit .ledProcess) .startStatus
      else .goOn vars .checkNotroot
  | .waitReboot =>
      if vars.expired .maintenanceReboot = true then .reboot vars else .wait vars .waitReboot
  | .startStatus =>
      callIf (!isRunning (.inl .statusSendProcess)) (start .statusSendProcess) vars .exitSearch
  | .exitSearch =>
      callIf (isRunning (.inl .rootFindProcess)) (exit .rootFindProcess) vars .countPings
  | .countPings =>
      if vars.nonAnsweredPacket.toNat > maxNonAnsweredPings then .reboot vars
      else .goOn { vars with unchecked := 0 } .checkNotroot
  | .checkNotroot =>
      if vars.nodeMode = .notroot then
        if nodeClass = classB then .call vars (exit .ledProcess) .sleepButton
        else if nodeClass = classC then .call vars (start .ledProcess) .rebootNow
        else .goOn vars .checkJoin
      else .goOn vars .checkJoin
  | .sleepButton =>
      callIf (isRunning (.inl .dagNodeButtonProcess)) (exit .dagNodeButtonProcess) vars .sleepSearch
  | .sleepSearch =>
      callIf (isRunning (.inl .rootFindProcess)) (exit .rootFindProcess) vars .sleepStatus
  | .sleepStatus =>
      callIf (isRunning (.inl .statusSendProcess)) (exit .statusSendProcess) vars .sleepMaintenance
  | .sleepMaintenance =>
      callIf (isRunning (.inl .maintenanceProcess)) (exit .maintenanceProcess) vars .sleepRadio
  | .sleepRadio =>
      .goOn { vars with
          radio := ((vars.radio.netMode nodeClass radioFreedom).netOff nodeClass
            radioOffNow).netMode nodeClass radioHold } .checkJoin
  | .rebootNow => .reboot vars
  | .checkJoin =>
      if vars.nodeMode = .joinProgress then
        -- led_mode_set(LED_SLOW_BLINK)
        .call { vars with
            radio := (vars.radio.netOn nodeClass radioOnNormal).netMode nodeClass radioHold }
          (start .ledProcess) .startSearch
      else .goOn vars .setMaintenanceTimer
  | .startSearch =>
      callIf (!isRunning (.inl .rootFindProcess)) (start .rootFindProcess) vars .exitStatus
  | .exitStatus =>
      callIf (isRunning (.inl .statusSendProcess)) (exit .statusSendProcess) vars
        .setMaintenanceTimer
  | .setMaintenanceTimer => .wait (vars.etimerSet .maintenance) .waitMaintenance
  | .waitMaintenance =>
      if vars.expired .maintenance = true then .goOn vars .top else .wait vars .waitMaintenance
  | _ => .ended vars

def rootFindProcess (around : Surroundings Other) (ev : ProcessEvent) (vars : NodeVars) :
    Point → Turn Other
  | .begin =>
      if ev = Contiki.processEventExit then .wait vars .begin
      else .call vars (pauses .rootFindProcess) .pauseYields
  | .pauseYields => .wait vars .pause
  | .pause =>
      if ev = processEventContinue then .goOn (vars.etimerSet .findRootLimit) .search
      else .wait vars .pause
  | .search =>
      if vars.nodeMode = .joinProgress then
        if vars.expired .findRootLimit = true then
          .call { vars with nodeMode := .notroot } (exit .maintenanceProcess) .restartMaintenance
        else
          match around.dagId with
          | some dagId =>
              -- led_mode_set(LED_FAST_BLINK)
              callIf (!around.ledFastBlinks) (start .ledProcess) vars (.sendJoin dagId)
          | none => .goOn vars .setFindRootTimer
      else .goOn vars .setFindRootTimer
  | .sendJoin dagId => .goOn (vars.sendTo .join dagId) .setFindRootTimer
  | .restartMaintenance => .call vars (start .maintenanceProcess) .setFindRootTimer
  | .setFindRootTimer => .wait (vars.etimerSet .findRoot) .waitFindRoot
  | .waitFindRoot =>
      if vars.expired .findRoot = true then .goOn vars .search else .wait vars .waitFindRoot
  | _ => .ended vars

def statusSendProcess (nodeClass : Byte) (around : Surroundings Other) (ev : ProcessEvent)
    (vars : NodeVars) : Point → Turn Other
  | .begin =>
      if ev = Contiki.processEventExit then .wait vars .begin
      else .call vars (pauses .statusSendProcess) .pauseYields
  | .pauseYields => .wait vars .pause
  | .pause => if ev = processEventContinue then .goOn vars .status else .wait vars .pause
  | .status =>
      if around.anyDag = true ∧ vars.nodeMode = .normal then
        if around.parentReachable = false then .reboot vars
        -- led_mode_set(LED_FLASH)
        else if around.parentKnown = true then
          .call (vars.sendStatusPacket nodeClass) (start .ledProcess) .countStatus
        else .goOn vars .countStatus
      else .goOn vars .setStatusTimer
  | .countStatus =>
      .goOn { vars with
          nonAnsweredPacket := vars.nonAnsweredPacket + 1
          unanswered := vars.unanswered + 1
          unchecked := vars.unchecked + 1 } .setStatusTimer
  | .setStatusTimer => .wait (vars.etimerSet .statusSend) .waitStatusSend
  | .waitStatusSend =>
      if vars.expired .statusSend = true ∧ vars.nodeMode = .normal then .goOn vars .status
      else .wait vars .waitStatusSend
  | _ => .ended vars

/-- The thread of a process. The threads of the others are not modelled. -/
def thread (nodeClass : Byte) (isRunning : AnyProcess Other → Bool) (around : Surroundings Other)
    (ev : ProcessEvent) (vars : NodeVars) (point : Point) :
    AnyProcess Other → Option (Turn Other)
  | .inl .dagNodeProcess => some (dagNodeProcess nodeClass around ev vars point)
  | .inl .maintenanceProcess => some (maintenanceProcess nodeClass isRunning ev vars point)
  | .inl .rootFindProcess => some (rootFindProcess around ev vars point)
  | .inl .statusSendProcess => some (statusSendProcess nodeClass around ev vars point)
  | _ => none

end Threads

/-- A call of a thread, and what the thread does next in it. -/
structure ThreadCall (Other : Type) where
  p : AnyProcess Other
  ev : ProcessEvent
  point : Point

def ThreadCall.thread {Other : Type} (call : ThreadCall Other) : AnyProcess Other × ProcessEvent :=
  (call.p, call.ev)

/-- The kernel, the variables, the wait that each thread goes on from, and the calls of threads
that have not returned, innermost first. -/
structure MeshNode (Other : Type) where
  kernel : Kernel (AnyProcess Other)
  vars : NodeVars
  lc : AnyProcess Other → Point
  calls : List (ThreadCall Other)
  autostarted : Bool
  rebooted : Bool

inductive NodeEvent (Other : Type) where
  /-- `autostart_start` starts `dag_node_process`. -/
  | autostart
  /-- A modelled thread goes on. -/
  | thread (around : Surroundings Other)
  /-- A thread that is not modelled, or the main program, calls a function of `process.c`. -/
  | foreign (action : Contiki.Action (AnyProcess Other))
  /-- A thread that is not modelled returns. -/
  | returns (result : PtResult)
  | run
  | kernel
  /-- An interrupt polls a process. -/
  | poll (p : AnyProcess Other)
  | expire (timer : NodeTimer)
  /-- `join_confirm_handler`. -/
  | joinConfirm (senderAddr : Ipv6Address)
  /-- `pong_handler`. -/
  | pong
  | sendData
  | sendFwChunkReq

/-- What the rest of the firmware asks of the kernel: the modelled processes are started, exited
and polled by the modelled threads alone, and nothing else posts CONTINUE to them. -/
def Foreign {Other : Type} : Contiki.Action (AnyProcess Other) → Bool
  | .post p ev _ =>
      p.elim (ev ≠ processEventContinue) fun p =>
        !IsOwn p || (ev ≠ processEventContinue && ev ≠ Contiki.processEventInit)
  | .postSynch p _ _ | .start p _ | .exit p => !IsOwn p
  | .context _ => true
  | .return _ | .run | .poll _ | .kernel => false

namespace MeshNode

variable {Other : Type}

/-- After `process_init`. -/
def boot [DecidableEq Other] [Fintype Other] (slots : Nat → Contiki.EventData (AnyProcess Other)) :
    MeshNode Other where
  kernel := Kernel.processInit slots
  vars := NodeVars.boot
  lc := fun _ => .begin
  calls := []
  autostarted := false
  rebooted := false

/-- The code of a thread that is not modelled runs, or the main program. -/
def ForeignRuns (node : MeshNode Other) : Prop :=
  node.kernel.CodeRuns ∧ ∀ call ∈ node.calls.head?, IsOwn call.p = false

instance (node : MeshNode Other) : Decidable node.ForeignRuns := by
  unfold ForeignRuns
  infer_instance

/-- `process_is_running`. -/
def isRunning (node : MeshNode Other) (p : AnyProcess Other) : Bool := node.kernel.state p ≠ .none

/-- A thread that has been called begins at its wait. -/
def enter (node : MeshNode Other) : MeshNode Other :=
  match node.kernel.threads with
  | (p, ev) :: outer =>
      if outer.length = node.calls.length then
        { node with calls := ⟨p, ev, node.lc p⟩ :: node.calls }
      else node
  | [] => node

variable [DecidableEq Other] [Fintype Other]

/-- `process_start` of a process that is not on the list resets its thread. -/
def resetThread (node : MeshNode Other) :
    Contiki.Action (AnyProcess Other) → AnyProcess Other → Point
  | .start p _ =>
      if Kernel.find p node.kernel = some none then Function.update node.lc p .begin else node.lc
  | _ => node.lc

def act (node : MeshNode Other) (action : Contiki.Action (AnyProcess Other)) :
    Option (MeshNode Other) :=
  (Kernel.step node.kernel action).map fun kernel =>
    enter { node with kernel, lc := node.resetThread action }

/-- The thread of the innermost call goes on. -/
def takeTurn (node : MeshNode Other) (call : ThreadCall Other) (rest : List (ThreadCall Other)) :
    Turn Other → Option (MeshNode Other)
  | .call vars action next =>
      { node with vars, calls := { call with point := next } :: rest }.act action
  | .goOn vars next => some { node with vars, calls := { call with point := next } :: rest }
  | .wait vars point =>
      { node with vars, lc := Function.update node.lc call.p point, calls := rest }.act
        (.return .yielded)
  | .ended vars =>
      { node with vars, lc := Function.update node.lc call.p .begin, calls := rest }.act
        (.return .ended)
  | .reboot vars => some { node with vars, rebooted := true }

/-- What happens while the firmware runs. -/
def happens (nodeClass : Byte) (node : MeshNode Other) :
    NodeEvent Other → Option (MeshNode Other)
  | .autostart =>
      if node.kernel.CodeRuns ∧ node.calls = [] ∧ node.autostarted = false then
        { node with autostarted := true }.act (start .dagNodeProcess)
      else none
  | .thread around =>
      match node.calls with
      | call :: rest =>
          if node.kernel.CodeRuns then
            (thread nodeClass node.isRunning around call.ev node.vars call.point call.p).bind
              (node.takeTurn call rest)
          else none
      | [] => none
  | .foreign action =>
      if node.ForeignRuns ∧ Foreign action = true then node.act action else none
  | .returns result =>
      match node.calls with
      | call :: rest =>
          if node.kernel.CodeRuns ∧ IsOwn call.p = false then
            { node with calls := rest }.act (.return result)
          else none
      | [] => none
  | .run => node.act .run
  | .kernel => node.act .kernel
  | .poll p => if IsOwn p = false then node.act (.poll p) else none
  | .expire timer =>
      some { node with vars := { node.vars with
        expired := Function.update node.vars.expired timer true } }
  | .joinConfirm senderAddr =>
      -- `simple_udp` knows the callback once the mode is set.
      if node.ForeignRuns ∧ node.vars.nodeMode ≠ .boot then
        { node with vars := { node.vars with
            rootAddr := senderAddr
            expired := Function.update node.vars.expired .maintenance true
            confirmed := senderAddr :: node.vars.confirmed } }.act
          (.post (some (.inl .dagNodeProcess)) processEventContinue .null)
      else none
  | .pong =>
      some { node with vars := { node.vars with
        nonAnsweredPacket := 0
        unanswered := 0
        radio := node.vars.radio.netOff nodeClass radioOffNow } }
  | .sendData => some { node with vars := node.vars.sendData nodeClass }
  | .sendFwChunkReq => some { node with vars := node.vars.sendFwChunkReqPacket }

/-- One step; there is none after `watchdog_reboot`. -/
def step (nodeClass : Byte) (node : MeshNode Other) (event : NodeEvent Other) :
    Option (MeshNode Other) :=
  if node.rebooted = true then none else node.happens nodeClass event

end MeshNode

end Smarthome.Node.Membership
