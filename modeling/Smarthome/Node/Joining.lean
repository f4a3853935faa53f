import Smarthome.Node.Membership

/-! A node is a member of the network only after a confirmation. `dag_node_process` takes the
event CONTINUE for two things, for the end of its pause and for the confirmation; that it does
not take the one for the other is counted over the queue and the calls of its thread. -/
namespace Smarthome.Node.Membership

open Contiki Semantics
open Contiki.Kernel (Directed Settled Spectates owed)

/-- The modes in the order in which a node goes through them. -/
def NodeMode.rank : NodeMode → Nat
  | .boot => 0
  | .joinProgress => 1
  | .notroot => 2
  | .normal => 3
  | .needReboot => 4

/-- The node waits for a confirmation. -/
def NodeMode.Searching (mode : NodeMode) : Prop := mode = .joinProgress ∨ mode = .notroot

/-- The node has been taken into the network. -/
def NodeMode.Member (mode : NodeMode) : Prop := mode = .normal ∨ mode = .needReboot

abbrev unspecified : Ipv6Address := Vector.replicate 16 0

/-- Only joins and requests for firmware are sent without a confirmation, and what is no join
goes to the sender of the newest one. -/
def SentPacket.Proper (packet : SentPacket) : Prop :=
  packet.kind = .join ∨
    packet.destination = packet.confirmed.head?.getD unspecified ∧
      (packet.kind = .fwChunkReq ∨ packet.confirmed ≠ [])

structure Joined (vars : NodeVars) : Prop where
  booting : vars.nodeMode = .boot → vars.confirmed = []
  member : vars.nodeMode.Member → vars.confirmed ≠ []
  rootAddr : vars.rootAddr = vars.confirmed.head?.getD unspecified
  proper : ∀ packet ∈ vars.sent, packet.Proper

/-- What a thread may do to the variables, but for the mode. -/
structure Keeps (vars after : NodeVars) : Prop where
  confirmed : after.confirmed = vars.confirmed
  rootAddr : after.rootAddr = vars.rootAddr
  sent : ∀ packet ∈ after.sent, packet ∈ vars.sent ∨ packet.confirmed = vars.confirmed ∧
    (packet.kind = .join ∨ packet.destination = vars.rootAddr ∧
      (packet.kind = .fwChunkReq ∨ vars.nodeMode = .normal))

/-- What the threads but `dag_node_process` do to the mode: the search is given up. -/
def GivesUp (mode later : NodeMode) : Prop :=
  later = mode ∨ mode = .joinProgress ∧ later = .notroot

section Variables

variable {vars after : NodeVars} {nodeClass : Byte}

theorem Keeps.of_same (hConfirmed : after.confirmed = vars.confirmed)
    (hRoot : after.rootAddr = vars.rootAddr) (hSent : after.sent = vars.sent) :
    Keeps vars after :=
  ⟨hConfirmed, hRoot, fun _ hMem => Or.inl (hSent ▸ hMem)⟩

theorem Keeps.refl (vars : NodeVars) : Keeps vars vars := Keeps.of_same rfl rfl rfl

theorem keeps_sendTo {kind : PacketKind} {destination : Ipv6Address}
    (h : kind = .join ∨ destination = vars.rootAddr ∧
      (kind = .fwChunkReq ∨ vars.nodeMode = .normal)) :
    Keeps vars (vars.sendTo kind destination) where
  confirmed := rfl
  rootAddr := rfl
  sent packet hMem := by
    rcases List.mem_cons.mp hMem with rfl | hOld
    · exact Or.inr ⟨rfl, h⟩
    · exact Or.inl hOld

theorem keeps_sendData (nodeClass : Byte) (vars : NodeVars) :
    Keeps vars (vars.sendData nodeClass) := by
  unfold NodeVars.sendData
  split_ifs with hMode
  · have h : Keeps vars (vars.sendTo .data vars.rootAddr) :=
      keeps_sendTo (Or.inr ⟨rfl, Or.inr hMode⟩)
    exact ⟨h.confirmed, h.rootAddr, h.sent⟩
  · exact Keeps.refl vars

@[simp] theorem nodeMode_sendData (nodeClass : Byte) (vars : NodeVars) :
    (vars.sendData nodeClass).nodeMode = vars.nodeMode := by
  unfold NodeVars.sendData
  split_ifs
  · rfl
  · rfl

theorem Joined.keeps (h : Joined vars) (hKeeps : Keeps vars after)
    (hBooting : after.nodeMode = .boot → vars.nodeMode = .boot)
    (hMember : after.nodeMode.Member → vars.confirmed ≠ []) : Joined after where
  booting hBoot := hKeeps.confirmed.trans (h.booting (hBooting hBoot))
  member hMode := by
    rw [hKeeps.confirmed]
    exact hMember hMode
  rootAddr := by rw [hKeeps.rootAddr, hKeeps.confirmed, h.rootAddr]
  proper packet hMem := by
    rcases hKeeps.sent packet hMem with hOld | ⟨hConfirmed, hJoin | ⟨hRoot, hKind⟩⟩
    · exact h.proper packet hOld
    · exact Or.inl hJoin
    · right
      rw [hConfirmed]
      exact ⟨hRoot.trans h.rootAddr, hKind.imp_right fun hMode => h.member (Or.inl hMode)⟩

theorem Joined.givesUp (h : Joined vars) (hKeeps : Keeps vars after)
    (hMode : GivesUp vars.nodeMode after.nodeMode) : Joined after := by
  rcases hMode with hSame | ⟨-, hNotroot⟩
  · exact h.keeps hKeeps (fun hBoot => hSame ▸ hBoot) fun hMember => h.member (hSame ▸ hMember)
  · apply h.keeps hKeeps
    · intro hBoot
      rw [hNotroot] at hBoot
      cases hBoot
    · intro hMember
      rw [hNotroot] at hMember
      rcases hMember with hMember | hMember <;> cases hMember

theorem Joined.confirm (h : Joined vars) (senderAddr : Ipv6Address)
    (hBoot : vars.nodeMode ≠ .boot) (expired : NodeTimer → Bool) :
    Joined { vars with rootAddr := senderAddr, expired, confirmed := senderAddr :: vars.confirmed } where
  booting hMode := absurd hMode hBoot
  member _ := List.cons_ne_nil senderAddr vars.confirmed
  rootAddr := rfl
  proper := h.proper

theorem GivesUp.rank_le {mode later : NodeMode} (h : GivesUp mode later) : mode.rank ≤ later.rank := by
  rcases h with rfl | ⟨rfl, rfl⟩
  · exact Nat.le_refl _
  · decide

end Variables

section Threads

variable {Other : Type}

/-- The variables after a turn. -/
def Turn.after : Turn Other → NodeVars
  | .call vars _ _ | .goOn vars _ | .wait vars _ | .ended vars | .reboot vars => vars

/-- What a turn calls. -/
def Turn.action : Turn Other → Option (Contiki.Action (AnyProcess Other))
  | .call _ action _ => some action
  | _ => none

/-- A turn of a thread that leaves `dag_node_process` to itself. -/
structure Turn.Apart (vars : NodeVars) (turn : Turn Other) : Prop where
  keeps : Keeps vars turn.after
  mode : GivesUp vars.nodeMode turn.after.nodeMode
  alone : ∀ action ∈ turn.action, action.LeavesAlone (.inl .dagNodeProcess) processEventContinue

variable {vars : NodeVars}

theorem Turn.Apart.goOn {after : NodeVars} (hKeeps : Keeps vars after)
    (hMode : GivesUp vars.nodeMode after.nodeMode) (next : Point) :
    Turn.Apart vars (.goOn after next : Turn Other) := ⟨hKeeps, hMode, nofun⟩

theorem Turn.Apart.wait {after : NodeVars} (hKeeps : Keeps vars after)
    (hMode : after.nodeMode = vars.nodeMode) (point : Point) :
    Turn.Apart vars (.wait after point : Turn Other) := ⟨hKeeps, Or.inl hMode, nofun⟩

theorem Turn.Apart.etimerSet (timer : NodeTimer) (point : Point) :
    Turn.Apart vars (.wait (vars.etimerSet timer) point : Turn Other) :=
  ⟨Keeps.of_same rfl rfl rfl, Or.inl rfl, nofun⟩

theorem Turn.Apart.call {after : NodeVars} {action : Contiki.Action (AnyProcess Other)}
    (hKeeps : Keeps vars after) (hMode : GivesUp vars.nodeMode after.nodeMode)
    (hAlone : action.LeavesAlone (.inl .dagNodeProcess) processEventContinue) (next : Point) :
    Turn.Apart vars (.call after action next) :=
  ⟨hKeeps, hMode, fun action' hMem => by
    obtain rfl := Option.some.inj hMem
    exact hAlone⟩

theorem Turn.Apart.callIf {condition : Bool} {action : Contiki.Action (AnyProcess Other)}
    (hAlone : action.LeavesAlone (.inl .dagNodeProcess) processEventContinue) (next : Point) :
    Turn.Apart vars (callIf condition action vars next) := by
  unfold Membership.callIf
  split_ifs
  · exact Turn.Apart.call (Keeps.refl vars) (Or.inl rfl) hAlone next
  · exact Turn.Apart.goOn (Keeps.refl vars) (Or.inl rfl) next

theorem Turn.Apart.ended : Turn.Apart vars (.ended vars : Turn Other) :=
  ⟨Keeps.refl vars, Or.inl rfl, nofun⟩

theorem Turn.Apart.reboot : Turn.Apart vars (.reboot vars : Turn Other) :=
  ⟨Keeps.refl vars, Or.inl rfl, nofun⟩

/-- A start or an exit of another process, or the pause of one. -/
theorem leavesAlone_start (p : NodeProcess) (h : p ≠ .dagNodeProcess) :
    (start p : Action (AnyProcess Other)).LeavesAlone (.inl .dagNodeProcess) processEventContinue :=
  fun hSame => h (Sum.inl.inj hSame)

theorem leavesAlone_exit (p : NodeProcess) (h : p ≠ .dagNodeProcess) :
    (exit p : Action (AnyProcess Other)).LeavesAlone (.inl .dagNodeProcess) processEventContinue :=
  fun hSame => h (Sum.inl.inj hSame)

theorem leavesAlone_pauses (p : NodeProcess) (h : p ≠ .dagNodeProcess) :
    (pauses p : Action (AnyProcess Other)).LeavesAlone (.inl .dagNodeProcess) processEventContinue :=
  ⟨fun hSame => absurd (Sum.inl.inj (Option.some.inj hSame)) h, nofun⟩

theorem maintenanceProcess_apart (nodeClass : Byte) (isRunning : AnyProcess Other → Bool)
    (ev : ProcessEvent) (vars : NodeVars) (point : Point) :
    (maintenanceProcess nodeClass isRunning ev vars point).Apart vars := by
  have hSame : GivesUp vars.nodeMode vars.nodeMode := Or.inl rfl
  have hGoOn (next : Point) : Turn.Apart vars (.goOn vars next : Turn Other) :=
    Turn.Apart.goOn (Keeps.refl vars) hSame next
  have hWait (point : Point) : Turn.Apart vars (.wait vars point : Turn Other) :=
    Turn.Apart.wait (Keeps.refl vars) rfl point
  have hCall {action : Contiki.Action (AnyProcess Other)}
      (hAlone : action.LeavesAlone (.inl .dagNodeProcess) processEventContinue) (next : Point) :
      Turn.Apart vars (.call vars action next) :=
    Turn.Apart.call (Keeps.refl vars) hSame hAlone next
  have hSet (timer : NodeTimer) (point : Point) :
      Turn.Apart vars (.wait (vars.etimerSet timer) point : Turn Other) :=
    Turn.Apart.etimerSet timer point
  cases point <;> simp only [maintenanceProcess] <;> try exact Turn.Apart.ended
  case begin =>
    split_ifs
    · exact hWait _
    · exact hCall (leavesAlone_pauses .maintenanceProcess nofun) _
  case pauseYields => exact hWait _
  case pause =>
    split_ifs
    · exact hGoOn _
    · exact hWait _
  case top =>
    split_ifs
    · exact hSet _ _
    · exact hCall (leavesAlone_exit .ledProcess nofun) _
    · exact hGoOn _
  case waitReboot =>
    split_ifs
    · exact Turn.Apart.reboot
    · exact hWait _
  case startStatus => exact Turn.Apart.callIf (leavesAlone_start .statusSendProcess nofun) _
  case countPings =>
    split_ifs
    · exact Turn.Apart.reboot
    · refine Turn.Apart.goOn ?_ ?_ _
      · exact Keeps.of_same rfl rfl rfl
      · exact hSame
  case checkNotroot =>
    split_ifs
    · exact hCall (leavesAlone_exit .ledProcess nofun) _
    · exact hCall (leavesAlone_start .ledProcess nofun) _
    · exact hGoOn _
    · exact hGoOn _
  case sleepRadio =>
    refine Turn.Apart.goOn ?_ ?_ _
    · exact Keeps.of_same rfl rfl rfl
    · exact hSame
  case rebootNow => exact Turn.Apart.reboot
  case checkJoin =>
    split_ifs
    · refine Turn.Apart.call ?_ ?_ (leavesAlone_start .ledProcess nofun) _
      · exact Keeps.of_same rfl rfl rfl
      · exact hSame
    · exact hGoOn _
  case startSearch => exact Turn.Apart.callIf (leavesAlone_start .rootFindProcess nofun) _
  case setMaintenanceTimer => exact hSet _ _
  case waitMaintenance =>
    split_ifs
    · exact hGoOn _
    · exact hWait _
  case exitSearch => exact Turn.Apart.callIf (leavesAlone_exit .rootFindProcess nofun) _
  case sleepButton => exact Turn.Apart.callIf (leavesAlone_exit .dagNodeButtonProcess nofun) _
  case sleepSearch => exact Turn.Apart.callIf (leavesAlone_exit .rootFindProcess nofun) _
  case sleepStatus => exact Turn.Apart.callIf (leavesAlone_exit .statusSendProcess nofun) _
  case sleepMaintenance => exact Turn.Apart.callIf (leavesAlone_exit .maintenanceProcess nofun) _
  case exitStatus => exact Turn.Apart.callIf (leavesAlone_exit .statusSendProcess nofun) _

theorem rootFindProcess_apart (around : Surroundings Other) (ev : ProcessEvent) (vars : NodeVars)
    (point : Point) : (rootFindProcess around ev vars point).Apart vars := by
  have hSame : GivesUp vars.nodeMode vars.nodeMode := Or.inl rfl
  have hGoOn (next : Point) : Turn.Apart vars (.goOn vars next : Turn Other) :=
    Turn.Apart.goOn (Keeps.refl vars) hSame next
  have hWait (point : Point) : Turn.Apart vars (.wait vars point : Turn Other) :=
    Turn.Apart.wait (Keeps.refl vars) rfl point
  unfold rootFindProcess
  cases point <;> dsimp only <;> try exact Turn.Apart.ended
  case begin =>
    split_ifs
    · exact hWait _
    · exact Turn.Apart.call (Keeps.refl vars) hSame (leavesAlone_pauses .rootFindProcess nofun) _
  case pauseYields => exact hWait _
  case pause =>
    split_ifs
    · refine Turn.Apart.goOn ?_ ?_ _
      · exact Keeps.of_same rfl rfl rfl
      · exact hSame
    · exact hWait _
  case search =>
    split_ifs with hJoin hLimit
    · refine Turn.Apart.call ?_ (Or.inr ⟨hJoin, rfl⟩)
        (leavesAlone_exit .maintenanceProcess nofun) _
      exact Keeps.of_same rfl rfl rfl
    · split
      · exact Turn.Apart.callIf (leavesAlone_start .ledProcess nofun) _
      · exact hGoOn _
    · exact hGoOn _
  case sendJoin dagId => exact Turn.Apart.goOn (keeps_sendTo (Or.inl rfl)) hSame _
  case restartMaintenance =>
    exact Turn.Apart.call (Keeps.refl vars) hSame (leavesAlone_start .maintenanceProcess nofun) _
  case setFindRootTimer => exact Turn.Apart.etimerSet _ _
  case waitFindRoot =>
    split_ifs
    · exact hGoOn _
    · exact hWait _

theorem statusSendProcess_apart (nodeClass : Byte) (around : Surroundings Other) (ev : ProcessEvent)
    (vars : NodeVars) (point : Point) :
    (statusSendProcess nodeClass around ev vars point).Apart vars := by
  have hSame : GivesUp vars.nodeMode vars.nodeMode := Or.inl rfl
  have hGoOn (next : Point) : Turn.Apart vars (.goOn vars next : Turn Other) :=
    Turn.Apart.goOn (Keeps.refl vars) hSame next
  have hWait (point : Point) : Turn.Apart vars (.wait vars point : Turn Other) :=
    Turn.Apart.wait (Keeps.refl vars) rfl point
  cases point <;> simp only [statusSendProcess] <;> try exact Turn.Apart.ended
  case begin =>
    split_ifs
    · exact hWait _
    · exact Turn.Apart.call (Keeps.refl vars) hSame (leavesAlone_pauses .statusSendProcess nofun) _
  case pauseYields => exact hWait _
  case pause =>
    split_ifs
    · exact hGoOn _
    · exact hWait _
  case status =>
    split_ifs with hNormal
    · exact Turn.Apart.reboot
    · have hSent : Keeps vars (vars.sendTo .status vars.rootAddr) :=
        keeps_sendTo (Or.inr ⟨rfl, Or.inr hNormal.2⟩)
      refine Turn.Apart.call ?_ ?_ (leavesAlone_start .ledProcess nofun) _
      · exact ⟨hSent.confirmed, hSent.rootAddr, hSent.sent⟩
      · exact hSame
    · exact hGoOn _
    · exact hGoOn _
  case countStatus =>
    refine Turn.Apart.goOn ?_ ?_ _
    · exact Keeps.of_same rfl rfl rfl
    · exact hSame
  case setStatusTimer => exact Turn.Apart.etimerSet _ _
  case waitStatusSend =>
    split_ifs
    · exact hGoOn _
    · exact hWait _

end Threads

section Phases

variable {Other : Type} {vars after : NodeVars} {ev : ProcessEvent} {owed owed' : Nat}
  {point : Point}

/-- Where `dag_node_process` may be, or go on from, when it is owed so many events CONTINUE. -/
def Permits (vars : NodeVars) (owed : Nat) (ev : ProcessEvent) : Point → Prop
  | .begin => vars.nodeMode = .boot ∧ owed = 0
  | .pauseYields => vars.nodeMode = .boot ∧ owed ≤ 1 ∧ ev ≠ processEventContinue
  | .pause => vars.nodeMode = .boot ∧ owed ≤ 1
  | .startMaintenance | .startShell =>
      vars.nodeMode.Searching ∧ ev = processEventContinue ∧ (vars.confirmed = [] → owed ≤ 1)
  | .waitContinue => vars.nodeMode.Searching ∧ (vars.confirmed = [] → owed = 0)
  | .setNormal => vars.nodeMode.Searching ∧ vars.confirmed ≠ []
  | .checkImages => vars.nodeMode = .normal
  | .restartMaintenance | .finish => vars.nodeMode = .needReboot
  | _ => False

theorem GivesUp.searching {mode later : NodeMode} (h : GivesUp mode later)
    (hSearching : mode.Searching) : later.Searching := by
  rcases h with rfl | ⟨-, rfl⟩
  · exact hSearching
  · exact Or.inr rfl

theorem GivesUp.eq_of_ne {mode later : NodeMode} (h : GivesUp mode later)
    (hJoin : mode ≠ .joinProgress) : later = mode :=
  h.resolve_right fun hGiven => hJoin hGiven.1

/-- What the others do keeps `dag_node_process` where it may be. -/
theorem Permits.mono (h : Permits vars owed ev point) (hMode : GivesUp vars.nodeMode after.nodeMode)
    (hConfirmed : after.confirmed = vars.confirmed) (hOwed : owed' ≤ owed) :
    Permits after owed' ev point := by
  have hStays {mode : NodeMode} (hIs : vars.nodeMode = mode) (hNot : mode ≠ .joinProgress) :
      after.nodeMode = mode := (hMode.eq_of_ne (hIs ▸ hNot)).trans hIs
  cases point <;> simp only [Permits, hConfirmed] at h ⊢
  case begin => exact ⟨hStays h.1 nofun, by omega⟩
  case pauseYields => exact ⟨hStays h.1 nofun, by omega, h.2.2⟩
  case pause => exact ⟨hStays h.1 nofun, by omega⟩
  case startMaintenance =>
    exact ⟨hMode.searching h.1, h.2.1, fun hNone => hOwed.trans (h.2.2 hNone)⟩
  case startShell =>
    exact ⟨hMode.searching h.1, h.2.1, fun hNone => hOwed.trans (h.2.2 hNone)⟩
  case waitContinue =>
    exact ⟨hMode.searching h.1, fun hNone => Nat.eq_zero_of_le_zero (h.2 hNone ▸ hOwed)⟩
  case setNormal => exact ⟨hMode.searching h.1, h.2⟩
  case checkImages => exact hStays h nofun
  case restartMaintenance => exact hStays h nofun
  case finish => exact hStays h nofun

/-- After a confirmation the number does not matter. -/
theorem Permits.confirm (h : Permits vars owed ev point) (hMode : after.nodeMode = vars.nodeMode)
    (hBoot : vars.nodeMode ≠ .boot) (hConfirmed : after.confirmed ≠ []) (owed' : Nat) :
    Permits after owed' ev point := by
  cases point <;> simp only [Permits, hMode] at h ⊢
  case begin => exact absurd h.1 hBoot
  case pauseYields => exact absurd h.1 hBoot
  case pause => exact absurd h.1 hBoot
  case startMaintenance => exact ⟨h.1, h.2.1, fun hNone => absurd hNone hConfirmed⟩
  case startShell => exact ⟨h.1, h.2.1, fun hNone => absurd hNone hConfirmed⟩
  case waitContinue => exact ⟨h.1, fun hNone => absurd hNone hConfirmed⟩
  case setNormal => exact ⟨h.1, hConfirmed⟩
  case checkImages => exact h
  case restartMaintenance => exact h
  case finish => exact h

/-- `dag_node_process` before its start, between two calls of its thread, in one, or after
its end. -/
def Phase (vars : NodeVars) (owed : Nat) (autostarted : Bool) (state : ProcessState)
    (lc : Point) : List (ThreadCall Other) → Prop
  | [] =>
      if autostarted = true then state = .running → ∀ ev, Permits vars owed ev lc
      else state ≠ .running ∧ lc = .begin ∧ Permits vars owed processEventContinue .begin
  | [call] => autostarted = true ∧ state ≠ .running ∧ Permits vars owed call.ev call.point
  | _ => False

theorem Phase.imp {vars' : NodeVars} {autostarted : Bool} {state : ProcessState} {lc : Point}
    {calls : List (ThreadCall Other)} (h : Phase vars owed autostarted state lc calls)
    (hPermits : ∀ ev point, Permits vars owed ev point → Permits vars' owed' ev point) :
    Phase vars' owed' autostarted state lc calls := by
  unfold Phase at h ⊢
  split at h
  · split_ifs at h ⊢ with hAuto
    · exact fun hRuns ev => hPermits ev lc (h hRuns ev)
    · exact ⟨h.1, h.2.1, hPermits _ _ h.2.2⟩
  · exact ⟨h.1, h.2.1, hPermits _ _ h.2.2⟩
  · exact h.elim

end Phases

namespace MeshNode

variable {Other : Type} [DecidableEq Other]

abbrev dagNode : AnyProcess Other := .inl .dagNodeProcess

def dagCalls (calls : List (ThreadCall Other)) : List (ThreadCall Other) :=
  calls.filter fun call => call.p = dagNode

theorem called_ne_running : ProcessState.called ≠ ProcessState.running := by decide

/-- The events CONTINUE on their way to `dag_node_process`, or being handled by it. -/
def owedContinue (node : MeshNode Other) : Nat := owed dagNode processEventContinue node.kernel

structure Inv (node : MeshNode Other) : Prop where
  aligned : node.calls.map ThreadCall.thread = node.kernel.threads
  directed : Directed processEventContinue node.kernel
  settled : Settled dagNode node.kernel
  joined : Joined node.vars
  phase : Phase node.vars node.owedContinue node.autostarted (node.kernel.state dagNode)
    (node.lc dagNode) (dagCalls node.calls)

section Enter

variable {node : MeshNode Other} {q : AnyProcess Other} {ev : ProcessEvent}

omit [DecidableEq Other] in
theorem enter_of_aligned (h : node.calls.map ThreadCall.thread = node.kernel.threads) :
    enter node = node := by
  have hLength := congrArg List.length h
  rw [List.length_map] at hLength
  unfold enter
  split
  · rename_i p ev outer hThreads
    rw [hThreads, List.length_cons] at hLength
    exact if_neg (by omega)
  · rfl

omit [DecidableEq Other] in
theorem enter_of_called
    (h : node.kernel.threads = (q, ev) :: node.calls.map ThreadCall.thread) :
    enter node = { node with calls := ⟨q, ev, node.lc q⟩ :: node.calls } := by
  unfold enter
  rw [h]
  exact if_pos (List.length_map _)

omit [DecidableEq Other] in
theorem vars_enter (node : MeshNode Other) : (enter node).vars = node.vars := by
  unfold enter
  split
  · split_ifs
    · rfl
    · rfl
  · rfl

end Enter

variable {node after : MeshNode Other} {vars : NodeVars} {nodeClass : Byte}

omit [DecidableEq Other] in
theorem owedContinue_eq [DecidableEq Other] (node : MeshNode Other) :
    owed dagNode processEventContinue node.kernel = node.owedContinue := rfl

theorem dagCalls_own (call : ThreadCall Other) (h : call.p = dagNode)
    (calls : List (ThreadCall Other)) : dagCalls (call :: calls) = call :: dagCalls calls :=
  List.filter_cons_of_pos (decide_eq_true h)

theorem dagCalls_other (call : ThreadCall Other) (h : call.p ≠ dagNode)
    (calls : List (ThreadCall Other)) : dagCalls (call :: calls) = dagCalls calls :=
  List.filter_cons_of_neg (by simpa using h)

/-- The variables change as others change them. -/
theorem Inv.moves (h : node.Inv) (hKeeps : Keeps node.vars vars)
    (hMode : GivesUp node.vars.nodeMode vars.nodeMode) : Inv { node with vars } where
  aligned := h.aligned
  directed := h.directed
  settled := h.settled
  joined := h.joined.givesUp hKeeps hMode
  phase := h.phase.imp fun _ _ hOld => hOld.mono hMode hKeeps.confirmed (Nat.le_refl _)

/-- Another thread goes on to a point. -/
theorem Inv.goes {call : ThreadCall Other} {rest : List (ThreadCall Other)} (h : node.Inv)
    (hCalls : node.calls = call :: rest) (hOther : call.p ≠ dagNode) (next : Point) :
    Inv { node with calls := { call with point := next } :: rest } where
  aligned := by
    have hAligned := h.aligned
    rw [hCalls] at hAligned
    exact hAligned
  directed := h.directed
  settled := h.settled
  joined := h.joined
  phase := by
    have hPhase := h.phase
    have hDag : dagCalls ({ call with point := next } :: rest) = dagCalls rest :=
      dagCalls_other { call with point := next } hOther rest
    rw [hCalls, dagCalls_other _ hOther, ← hDag] at hPhase
    exact hPhase

/-- While a call of its thread is in progress, there is no other, and the process does not run. -/
theorem Inv.own {call : ThreadCall Other} {rest : List (ThreadCall Other)} (h : node.Inv)
    (hCalls : node.calls = call :: rest) (hOwn : call.p = dagNode) :
    dagCalls rest = [] ∧ node.autostarted = true ∧ node.kernel.state dagNode ≠ .running ∧
      Permits node.vars node.owedContinue call.ev call.point := by
  have hPhase := h.phase
  rw [hCalls, dagCalls_own _ hOwn] at hPhase
  cases hRest : dagCalls rest with
  | nil =>
      rw [hRest] at hPhase
      exact ⟨rfl, hPhase⟩
  | cons other others =>
      rw [hRest] at hPhase
      exact hPhase.elim

/-- The event that the thread handles is among those owed. -/
theorem Inv.owed_pos {call : ThreadCall Other} {rest : List (ThreadCall Other)} (h : node.Inv)
    (hCalls : node.calls = call :: rest) (hOwn : call.p = dagNode)
    (hContinue : call.ev = processEventContinue) : 0 < node.owedContinue := by
  have hThreads : (dagNode, processEventContinue) ∈ node.kernel.threads := by
    rw [← h.aligned, hCalls, List.map_cons, ThreadCall.thread, hOwn, hContinue]
    exact List.mem_cons_self ..
  exact Kernel.owed_pos hThreads

/-- `dag_node_process` itself goes on. -/
theorem Inv.dagGoes {call : ThreadCall Other} {rest : List (ThreadCall Other)} {next : Point}
    (h : node.Inv) (hCalls : node.calls = call :: rest) (hOwn : call.p = dagNode)
    (hJoined : Joined vars) (hNext : Permits vars node.owedContinue call.ev next) :
    Inv { node with vars, calls := { call with point := next } :: rest } where
  aligned := by
    have hAligned := h.aligned
    rw [hCalls] at hAligned
    exact hAligned
  directed := h.directed
  settled := h.settled
  joined := hJoined
  phase := by
    obtain ⟨hRest, hAuto, hState, -⟩ := h.own hCalls hOwn
    have hDag : dagCalls ({ call with point := next } :: rest) = [{ call with point := next }] := by
      rw [← hRest]
      exact dagCalls_own { call with point := next } hOwn rest
    dsimp only
    rw [hDag]
    exact ⟨hAuto, hState, hNext⟩

variable [Fintype Other]

theorem resetThread_of_alone {action : Contiki.Action (AnyProcess Other)}
    (hAlone : action.LeavesAlone dagNode processEventContinue) :
    node.resetThread action dagNode = node.lc dagNode := by
  unfold resetThread
  split
  · split_ifs
    · exact Function.update_of_ne (Ne.symm hAlone) _ _
    · rfl
  · rfl

/-- An action that leaves `dag_node_process` to itself. -/
theorem Inv.act {action : Contiki.Action (AnyProcess Other)} (h : node.Inv)
    (hAct : node.act action = some after)
    (hAlone : action.LeavesAlone dagNode processEventContinue) : after.Inv ∧ after.vars = node.vars := by
  unfold MeshNode.act at hAct
  rw [Option.map_eq_some_iff] at hAct
  obtain ⟨kernel, hStep, rfl⟩ := hAct
  have hView := Kernel.spectates_step (by decide) (by decide) h.directed h.settled hAlone hStep
  have hLc : node.resetThread action dagNode = node.lc dagNode := resetThread_of_alone hAlone
  have hPermits (ev : ProcessEvent) (point : Point)
      (hOld : Permits node.vars node.owedContinue ev point) :
      Permits node.vars (owed dagNode processEventContinue kernel) ev point :=
    hOld.mono (Or.inl rfl) rfl hView.owed
  rcases hView.threads with ⟨hThreads, hState⟩ | ⟨q, ev, hThreads, hWho⟩
  · have hAligned := h.aligned.trans hThreads.symm
    have hEnter : enter { node with kernel, lc := node.resetThread action } =
        { node with kernel, lc := node.resetThread action } := enter_of_aligned hAligned
    rw [hEnter]
    refine ⟨⟨hAligned, hView.directed, hView.settled, h.joined, ?_⟩, rfl⟩
    dsimp only [MeshNode.owedContinue]
    rw [hState, hLc]
    exact h.phase.imp hPermits
  · rw [← h.aligned] at hThreads
    have hEnter : enter { node with kernel, lc := node.resetThread action } = { node with
        kernel, lc := node.resetThread action
        calls := ⟨q, ev, node.resetThread action q⟩ :: node.calls } := enter_of_called hThreads
    rw [hEnter]
    refine ⟨⟨hThreads.symm, hView.directed, hView.settled, h.joined, ?_⟩, rfl⟩
    dsimp only [MeshNode.owedContinue]
    rcases hWho with ⟨hOther, hState⟩ | ⟨rfl, hRuns, hCalled⟩
    · rw [dagCalls_other _ hOther, hState, hLc]
      exact h.phase.imp hPermits
    · have hPhase := h.phase
      rw [dagCalls_own _ rfl, hCalled, hLc]
      cases hCalls : dagCalls node.calls with
      | nil =>
          rw [hCalls] at hPhase
          simp only [Phase] at hPhase
          split_ifs at hPhase with hAuto
          · exact ⟨hAuto, called_ne_running, hPermits _ _ (hPhase hRuns _)⟩
          · exact absurd hRuns hPhase.1
      | cons call calls =>
          rw [hCalls] at hPhase
          cases calls with
          | nil => exact absurd hRuns hPhase.2.1
          | cons other others => exact hPhase.elim

/-- The post of a CONTINUE to `dag_node_process`, by itself for its pause, or for a confirmation. -/
theorem Inv.actPost (h : node.Inv)
    (hPhase : ∀ number ≤ node.owedContinue + 1, Phase node.vars number node.autostarted
      (node.kernel.state dagNode) (node.lc dagNode) (dagCalls node.calls))
    (hAct : node.act (pauses .dagNodeProcess) = some after) :
    after.Inv ∧ after.vars = node.vars := by
  unfold MeshNode.act at hAct
  rw [Option.map_eq_some_iff] at hAct
  obtain ⟨kernel, hStep, rfl⟩ := hAct
  simp only [Kernel.step] at hStep
  split_ifs at hStep
  obtain rfl := Option.some.inj hStep
  have hAligned := h.aligned.trans (Kernel.threads_processPost
    ⟨processEventContinue, .null, some dagNode⟩ node.kernel).symm
  have hEnter : enter { node with
        kernel := Kernel.processPost ⟨processEventContinue, .null, some dagNode⟩ node.kernel } =
      { node with
        kernel := Kernel.processPost ⟨processEventContinue, .null, some dagNode⟩ node.kernel } :=
    enter_of_aligned hAligned
  have hNot : processEventContinue ≠ processEventInit := by decide
  obtain ⟨hDirected, hSettled⟩ := Kernel.settled_processPost
    (e := ⟨processEventContinue, .null, some dagNode⟩) h.directed h.settled
    (fun hAll => absurd hAll.2 (Option.some_ne_none _)) fun _ => hNot
  refine ⟨?_, vars_enter _⟩
  change Inv (enter { node with
    kernel := Kernel.processPost ⟨processEventContinue, .null, some dagNode⟩ node.kernel })
  rw [hEnter]
  refine ⟨hAligned, hDirected, hSettled, h.joined, ?_⟩
  dsimp only
  rw [Kernel.state_processPost]
  exact hPhase _ (Kernel.owed_processPost_le _ _ _ _)

/-- The innermost call of a thread returns. -/
theorem Inv.actReturn {call : ThreadCall Other} {rest : List (ThreadCall Other)}
    {lc : AnyProcess Other → Point} {result : PtResult} (h : node.Inv)
    (hCalls : node.calls = call :: rest)
    (hOther : call.p ≠ dagNode → lc dagNode = node.lc dagNode)
    (hOwn : call.p = dagNode → result = .ended ∨
      ∀ number, number + (if call.ev = processEventContinue then 1 else 0) ≤ node.owedContinue →
        ∀ ev, Permits node.vars number ev (lc dagNode))
    (hAct : ({ node with lc, calls := rest } : MeshNode Other).act (.return result) = some after) :
    after.Inv ∧ after.vars = node.vars := by
  unfold MeshNode.act at hAct
  rw [Option.map_eq_some_iff] at hAct
  obtain ⟨kernel, hStep, rfl⟩ := hAct
  obtain ⟨q, ev, hThreads, hDirected, hSettled, hOwed, hState, hEnded⟩ :=
    Kernel.threadReturns_spec h.directed h.settled hStep
  have hAligned := h.aligned
  rw [hCalls, hThreads, List.map_cons, List.cons.injEq, ThreadCall.thread, Prod.mk.injEq] at hAligned
  obtain ⟨⟨rfl, rfl⟩, hAligned⟩ := hAligned
  have hEnter : enter { node with kernel, lc, calls := rest } =
      { node with kernel, lc, calls := rest } := enter_of_aligned hAligned
  refine ⟨?_, vars_enter _⟩
  change Inv (enter { node with kernel, lc, calls := rest })
  rw [hEnter]
  refine ⟨hAligned, hDirected, hSettled, h.joined, ?_⟩
  dsimp only [MeshNode.owedContinue]
  by_cases hDag : call.p = dagNode
  · obtain ⟨hRest, hAuto, hNotRunning, -⟩ := h.own hCalls hDag
    rw [hRest]
    simp only [Phase, hAuto, if_true]
    intro hRuns ev
    rcases hOwn hDag with hResult | hPermits
    · exact absurd hRuns (hEnded hResult hNotRunning)
    · apply hPermits
      rw [hDag] at hOwed
      simp only [Prod.mk.injEq, true_and] at hOwed
      exact hOwed
  · have hPhase := h.phase
    rw [hCalls, dagCalls_other _ hDag] at hPhase
    rw [hState hDag, hOther hDag]
    have hNot : (call.p, call.ev) ≠ (dagNode, processEventContinue) :=
      fun hSame => hDag (Prod.mk.inj hSame).1
    rw [if_neg hNot] at hOwed
    exact hPhase.imp fun _ _ hOld => hOld.mono (Or.inl rfl) rfl hOwed

/-- `autostart_start` finds the process as `process_init` has left it. -/
theorem Inv.actAutostart (h : node.Inv) (hAuto : node.autostarted = false)
    (hAct : ({ node with autostarted := true } : MeshNode Other).act (start .dagNodeProcess) =
      some after) : after.Inv ∧ after.vars = node.vars := by
  unfold MeshNode.act at hAct
  rw [Option.map_eq_some_iff] at hAct
  obtain ⟨kernel, hStep, rfl⟩ := hAct
  have hPhase := h.phase
  rw [hAuto] at hPhase
  obtain ⟨hState, hLc, hPermits, hNone⟩ : node.kernel.state dagNode ≠ .running ∧
      node.lc dagNode = .begin ∧ Permits node.vars node.owedContinue processEventContinue .begin ∧
      dagCalls node.calls = [] := by
    cases hCalls : dagCalls node.calls with
    | nil =>
        rw [hCalls] at hPhase
        exact ⟨hPhase.1, hPhase.2.1, hPhase.2.2, rfl⟩
    | cons call calls =>
        rw [hCalls] at hPhase
        cases calls with
        | nil => cases hPhase.1
        | cons other others => exact hPhase.elim
  set lc := resetThread { node with autostarted := true } (start .dagNodeProcess) with hReset
  have hBegin : lc dagNode = .begin := by
    rw [hReset, resetThread]
    split_ifs
    · exact Function.update_self ..
    · exact hLc
  simp only [Kernel.step] at hStep
  split_ifs at hStep
  obtain ⟨hDirected, hSettled, hOwed, hCalled⟩ :=
    Kernel.processStart_own (by decide) h.directed h.settled hStep
  rcases hCalled with ⟨hThreads, hSame⟩ | ⟨hThreads, hCalled⟩
  · have hAligned := h.aligned.trans hThreads.symm
    have hEnter : enter { node with kernel, lc, autostarted := true } =
        { node with kernel, lc, autostarted := true } := enter_of_aligned hAligned
    rw [hEnter]
    refine ⟨⟨hAligned, hDirected, hSettled, h.joined, ?_⟩, rfl⟩
    dsimp only
    rw [hNone, hSame]
    exact fun hRuns => absurd hRuns hState
  · rw [← h.aligned] at hThreads
    have hEnter : enter { node with kernel, lc, autostarted := true } = { node with
        kernel, lc, autostarted := true
        calls := ⟨dagNode, processEventInit, lc dagNode⟩ :: node.calls } := enter_of_called hThreads
    rw [hEnter]
    refine ⟨⟨hThreads.symm, hDirected, hSettled, h.joined, ?_⟩, rfl⟩
    dsimp only [MeshNode.owedContinue]
    rw [dagCalls_own _ rfl, hNone, hCalled, hBegin, hOwed]
    exact ⟨rfl, called_ne_running, hPermits⟩

section Turns

variable {call : ThreadCall Other} {rest : List (ThreadCall Other)}

omit [DecidableEq Other] [Fintype Other] in
/-- No step follows a reboot, which leaves the kernel as it is. -/
theorem Inv.reboots [DecidableEq Other] (h : node.Inv) : Inv { node with rebooted := true } :=
  ⟨h.aligned, h.directed, h.settled, h.joined, h.phase⟩

/-- A thread other than that of `dag_node_process` takes a turn. -/
theorem Inv.turnApart {turn : Turn Other} (h : node.Inv) (hCalls : node.calls = call :: rest)
    (hOther : call.p ≠ dagNode) (hApart : turn.Apart node.vars)
    (hTurn : node.takeTurn call rest turn = some after) :
    after.Inv ∧ GivesUp node.vars.nodeMode after.vars.nodeMode := by
  have hMoved := h.moves hApart.keeps hApart.mode
  have hUpdate (point : Point) : Function.update node.lc call.p point dagNode = node.lc dagNode :=
    Function.update_of_ne (Ne.symm hOther) _ _
  cases turn with
  | call vars action next =>
      obtain ⟨hInv, hVars⟩ := (hMoved.goes hCalls hOther next).act hTurn (hApart.alone action rfl)
      exact ⟨hInv, hVars ▸ hApart.mode⟩
  | goOn vars next =>
      obtain rfl := Option.some.inj hTurn
      exact ⟨hMoved.goes hCalls hOther next, hApart.mode⟩
  | wait vars point =>
      obtain ⟨hInv, hVars⟩ := hMoved.actReturn hCalls (fun _ => hUpdate point)
        (fun hOwn => absurd hOwn hOther) hTurn
      exact ⟨hInv, hVars ▸ hApart.mode⟩
  | ended vars =>
      obtain ⟨hInv, hVars⟩ := hMoved.actReturn hCalls (fun _ => hUpdate .begin)
        (fun hOwn => absurd hOwn hOther) hTurn
      exact ⟨hInv, hVars ▸ hApart.mode⟩
  | reboot vars =>
      obtain rfl := Option.some.inj hTurn
      exact ⟨hMoved.reboots, hApart.mode⟩

/-- `dag_node_process` calls a function of the kernel for another process. -/
theorem Inv.dagCall {action : Contiki.Action (AnyProcess Other)} (h : node.Inv) (next : Point)
    (hCalls : node.calls = call :: rest) (hOwn : call.p = dagNode) (hJoined : Joined vars)
    (hNext : Permits vars node.owedContinue call.ev next)
    (hAlone : action.LeavesAlone dagNode processEventContinue)
    (hTurn : node.takeTurn call rest (.call vars action next) = some after) :
    after.Inv ∧ after.vars = vars :=
  (h.dagGoes hCalls hOwn hJoined hNext).act hTurn hAlone

/-- `dag_node_process` waits for an event. -/
theorem Inv.dagWait {point : Point} (h : node.Inv) (hCalls : node.calls = call :: rest)
    (hOwn : call.p = dagNode)
    (hPoint : ∀ number, number + (if call.ev = processEventContinue then 1 else 0) ≤
      node.owedContinue → ∀ ev, Permits node.vars number ev point)
    (hTurn : node.takeTurn call rest (.wait node.vars point) = some after) :
    after.Inv ∧ after.vars = node.vars := by
  apply h.actReturn hCalls (fun hOther => absurd hOwn hOther) (fun _ => Or.inr ?_) hTurn
  intro number hNumber ev
  rw [hOwn, Function.update_self]
  exact hPoint number hNumber ev

theorem Inv.dagEnded (h : node.Inv) (hCalls : node.calls = call :: rest) (hOwn : call.p = dagNode)
    (hTurn : node.takeTurn call rest (.ended node.vars) = some after) :
    after.Inv ∧ after.vars = node.vars :=
  h.actReturn hCalls (fun hOther => absurd hOwn hOther) (fun _ => Or.inl rfl) hTurn

/-- The thread of `dag_node_process` takes a turn. It leaves its last wait for a confirmation. -/
theorem Inv.turnDag {around : Surroundings Other} (h : node.Inv)
    (hCalls : node.calls = call :: rest) (hOwn : call.p = dagNode)
    (hTurn : node.takeTurn call rest
      (dagNodeProcess nodeClass around call.ev node.vars call.point) = some after) :
    after.Inv ∧ node.vars.nodeMode.rank ≤ after.vars.nodeMode.rank := by
  obtain ⟨hRest, hAuto, hState, hPermits⟩ := h.own hCalls hOwn
  have hOwed := h.owed_pos hCalls hOwn
  have hKept {vars : NodeVars} (hInv : after.Inv ∧ after.vars = vars)
      (hRank : node.vars.nodeMode.rank ≤ vars.nodeMode.rank) :
      after.Inv ∧ node.vars.nodeMode.rank ≤ after.vars.nodeMode.rank := ⟨hInv.1, hInv.2 ▸ hRank⟩
  cases hPoint : call.point <;> rw [hPoint] at hTurn hPermits <;>
    simp only [Permits, dagNodeProcess] at hTurn hPermits
  case begin =>
    have hNot : call.ev ≠ processEventContinue := fun hContinue => by
      have := hOwed hContinue
      omega
    have hNext : Permits node.vars node.owedContinue call.ev .pauseYields :=
      ⟨hPermits.1, by omega, hNot⟩
    have hGone := h.dagGoes hCalls hOwn h.joined hNext
    refine hKept (hGone.actPost ?_ hTurn) (Nat.le_refl _)
    intro number hNumber
    have hNumber : number ≤ node.owedContinue + 1 := hNumber
    dsimp only
    rw [dagCalls_own { call with point := .pauseYields } hOwn, hRest]
    exact ⟨hAuto, hState, hPermits.1, by omega, hNot⟩
  case pauseYields =>
    refine hKept (h.dagWait hCalls hOwn ?_ hTurn) (Nat.le_refl _)
    intro number hNumber ev
    exact ⟨hPermits.1, by omega⟩
  case pause =>
    split_ifs at hTurn with hContinue
    · have hJoined : Joined { node.vars with nodeMode := .joinProgress } :=
        h.joined.keeps (Keeps.of_same rfl rfl rfl) nofun (by rintro (hMode | hMode) <;> cases hMode)
      refine hKept (h.dagCall .startMaintenance hCalls hOwn hJoined ?_
        (leavesAlone_start .dagNodeButtonProcess nofun) hTurn) ?_
      · exact ⟨Or.inl rfl, hContinue, fun _ => hPermits.2⟩
      · rw [hPermits.1]
        exact Nat.zero_le _
    · refine hKept (h.dagWait hCalls hOwn ?_ hTurn) (Nat.le_refl _)
      intro number hNumber ev
      exact ⟨hPermits.1, by omega⟩
  case startMaintenance =>
    exact hKept (h.dagCall .startShell hCalls hOwn h.joined hPermits
      (leavesAlone_start .maintenanceProcess nofun) hTurn) (Nat.le_refl _)
  case startShell =>
    split at hTurn
    · rename_i shell _
      have hAlone : (Contiki.Action.start (.inr shell) .null).LeavesAlone dagNode
          processEventContinue := Sum.inr_ne_inl
      exact hKept (h.dagCall .startShell hCalls hOwn h.joined hPermits hAlone hTurn)
        (Nat.le_refl _)
    · refine hKept (h.dagWait hCalls hOwn ?_ hTurn) (Nat.le_refl _)
      intro number hNumber ev
      refine ⟨hPermits.1, fun hNone => ?_⟩
      have hOne := hPermits.2.2 hNone
      rw [if_pos hPermits.2.1] at hNumber
      omega
  case waitContinue =>
    split_ifs at hTurn with hContinue
    · have hConfirmed : node.vars.confirmed ≠ [] := fun hNone => by
        have := hOwed hContinue
        have := hPermits.2 hNone
        omega
      exact hKept (h.dagCall .setNormal hCalls hOwn h.joined ⟨hPermits.1, hConfirmed⟩
        (leavesAlone_start .ledProcess nofun) hTurn) (Nat.le_refl _)
    · refine hKept (h.dagWait hCalls hOwn ?_ hTurn) (Nat.le_refl _)
      intro number hNumber ev
      refine ⟨hPermits.1, fun hNone => ?_⟩
      have := hPermits.2 hNone
      omega
  case setNormal =>
    have hJoined : Joined { node.vars with
        nodeMode := .normal
        radio := (node.vars.radio.netMode nodeClass radioFreedom).netOff nodeClass radioOffNow } :=
      h.joined.keeps (Keeps.of_same rfl rfl rfl) nofun fun _ => hPermits.2
    refine hKept (h.dagCall .checkImages hCalls hOwn hJoined rfl
      (leavesAlone_start .timeSyncProcess nofun) hTurn) ?_
    rcases hPermits.1 with hMode | hMode
    · rw [hMode]
      exact Nat.le_of_ble_eq_true rfl
    · rw [hMode]
      exact Nat.le_of_ble_eq_true rfl
  case checkImages =>
    have hKeeps := keeps_sendData nodeClass node.vars
    have hConfirmed := h.joined.member (Or.inl hPermits)
    split_ifs at hTurn
    · obtain rfl := Option.some.inj hTurn
      have hSent := h.moves hKeeps (Or.inl (nodeMode_sendData ..))
      exact ⟨hSent.reboots, Nat.le_of_eq (congrArg _ (nodeMode_sendData ..).symm)⟩
    · have hJoined : Joined { node.vars.sendData nodeClass with nodeMode := .needReboot } :=
        h.joined.keeps ⟨hKeeps.confirmed, hKeeps.rootAddr, hKeeps.sent⟩ nofun fun _ => hConfirmed
      refine hKept (h.dagCall .restartMaintenance hCalls hOwn hJoined rfl
        (leavesAlone_exit .maintenanceProcess nofun) hTurn) ?_
      rw [hPermits]
      exact Nat.le_of_ble_eq_true rfl
    · exact hKept (h.dagEnded hCalls hOwn hTurn) (Nat.le_refl _)
  case restartMaintenance =>
    exact hKept (h.dagCall .finish hCalls hOwn h.joined hPermits
      (leavesAlone_start .maintenanceProcess nofun) hTurn) (Nat.le_refl _)
  case finish => exact hKept (h.dagEnded hCalls hOwn hTurn) (Nat.le_refl _)

end Turns

omit [DecidableEq Other] [Fintype Other] in
theorem leavesAlone_of_foreign {action : Contiki.Action (AnyProcess Other)}
    (h : Foreign action = true) : action.LeavesAlone dagNode processEventContinue := by
  have hOwn {p : AnyProcess Other} (hNot : (!IsOwn p) = true) : p ≠ dagNode := by
    rintro rfl
    cases hNot
  cases action with
  | post p ev data =>
      cases p with
      | none => exact ⟨nofun, fun hAll => of_decide_eq_true h hAll.1⟩
      | some p =>
          refine ⟨fun hSame => ?_, nofun⟩
          obtain rfl := Option.some.inj hSame
          simpa [Foreign, IsOwn] using h
  | postSynch p ev data => exact hOwn h
  | start p data => exact hOwn h
  | exit p => exact hOwn h
  | context p => trivial
  | «return» result => cases h
  | run => trivial
  | poll p => cases h
  | kernel => trivial

theorem inv_boot (slots : Nat → Contiki.EventData (AnyProcess Other)) : (MeshNode.boot slots).Inv where
  aligned := rfl
  directed := Kernel.directed_processInit ..
  settled := Kernel.settled_processInit ..
  joined := by
    refine ⟨fun _ => rfl, ?_, rfl, nofun⟩
    rintro (hMode | hMode) <;> cases hMode
  phase := by
    have hOwed : (MeshNode.boot slots).owedContinue = 0 := Kernel.owed_processInit ..
    rw [hOwed]
    exact ⟨nofun, rfl, rfl, rfl⟩

/-- Every step keeps the invariant, and no step leads back to an earlier mode. -/
theorem Inv.step {event : NodeEvent Other} (h : node.Inv)
    (hStep : node.step nodeClass event = some after) :
    after.Inv ∧ node.vars.nodeMode.rank ≤ after.vars.nodeMode.rank := by
  rw [MeshNode.step, ite_eq_iff] at hStep
  replace hStep : node.happens nodeClass event = some after :=
    hStep.elim (fun hNone => nomatch hNone.2) And.right
  -- A step that leaves the mode.
  have hKept {vars : NodeVars} (hInv : after.Inv ∧ after.vars = vars)
      (hMode : vars.nodeMode = node.vars.nodeMode) :
      after.Inv ∧ node.vars.nodeMode.rank ≤ after.vars.nodeMode.rank := by
    rw [hInv.2, hMode]
    exact ⟨hInv.1, Nat.le_refl _⟩
  have hMoved {vars : NodeVars} (hSome : some { node with vars } = some after)
      (hKeeps : Keeps node.vars vars) (hMode : vars.nodeMode = node.vars.nodeMode) :
      after.Inv ∧ node.vars.nodeMode.rank ≤ after.vars.nodeMode.rank := by
    obtain rfl := Option.some.inj hSome
    exact hKept ⟨h.moves hKeeps (Or.inl hMode), rfl⟩ hMode
  cases event with
  | autostart =>
      simp only [MeshNode.happens] at hStep
      split_ifs at hStep with hIdle
      exact hKept (h.actAutostart hIdle.2.2 hStep) rfl
  | thread around =>
      simp only [MeshNode.happens] at hStep
      split at hStep
      · rename_i call rest hCalls
        split_ifs at hStep
        rw [Option.bind_eq_some_iff] at hStep
        obtain ⟨turn, hThread, hTurn⟩ := hStep
        have hApart (hOther : call.p ≠ dagNode) (hApart : turn.Apart node.vars) :
            after.Inv ∧ node.vars.nodeMode.rank ≤ after.vars.nodeMode.rank := by
          obtain ⟨hInv, hMode⟩ := h.turnApart hCalls hOther hApart hTurn
          exact ⟨hInv, hMode.rank_le⟩
        unfold thread at hThread
        split at hThread
        · rename_i hOwn
          obtain rfl := Option.some.inj hThread
          exact h.turnDag hCalls hOwn hTurn
        · rename_i hOwn
          obtain rfl := Option.some.inj hThread
          exact hApart (by rw [hOwn]; nofun) (maintenanceProcess_apart ..)
        · rename_i hOwn
          obtain rfl := Option.some.inj hThread
          exact hApart (by rw [hOwn]; nofun) (rootFindProcess_apart ..)
        · rename_i hOwn
          obtain rfl := Option.some.inj hThread
          exact hApart (by rw [hOwn]; nofun) (statusSendProcess_apart ..)
        · cases hThread
      · cases hStep
  | foreign action =>
      simp only [MeshNode.happens] at hStep
      split_ifs at hStep with hForeign
      exact hKept (h.act hStep (leavesAlone_of_foreign hForeign.2)) rfl
  | returns result =>
      simp only [MeshNode.happens] at hStep
      split at hStep
      · rename_i call rest hCalls
        split_ifs at hStep with hForeign
        have hOther : call.p ≠ dagNode := by
          intro hOwn
          rw [hOwn] at hForeign
          cases hForeign.2
        exact hKept (h.actReturn hCalls (fun _ => rfl) (fun hOwn => absurd hOwn hOther) hStep) rfl
      · cases hStep
  | run => exact hKept (h.act hStep trivial) rfl
  | kernel => exact hKept (h.act hStep trivial) rfl
  | poll p =>
      simp only [MeshNode.happens] at hStep
      split_ifs at hStep with hForeign
      refine hKept (h.act hStep ?_) rfl
      rintro rfl
      cases hForeign
  | expire timer => exact hMoved hStep (Keeps.of_same rfl rfl rfl) rfl
  | joinConfirm senderAddr =>
      simp only [MeshNode.happens] at hStep
      split_ifs at hStep with hRuns
      have hPermits (number : Nat) (ev : ProcessEvent) (point : Point)
          (hOld : Permits node.vars node.owedContinue ev point) :
          Permits { node.vars with
            rootAddr := senderAddr
            expired := Function.update node.vars.expired .maintenance true
            confirmed := senderAddr :: node.vars.confirmed } number ev point := by
        refine hOld.confirm ?_ hRuns.2 ?_ number
        · rfl
        · exact List.cons_ne_nil senderAddr node.vars.confirmed
      have hConfirmed : Inv { node with vars := { node.vars with
          rootAddr := senderAddr
          expired := Function.update node.vars.expired .maintenance true
          confirmed := senderAddr :: node.vars.confirmed } } :=
        ⟨h.aligned, h.directed, h.settled, h.joined.confirm senderAddr hRuns.2 _,
          h.phase.imp (hPermits _)⟩
      exact hKept (hConfirmed.actPost (fun number _ => h.phase.imp (hPermits number)) hStep) rfl
  | pong => exact hMoved hStep (Keeps.of_same rfl rfl rfl) rfl
  | sendData => exact hMoved hStep (keeps_sendData nodeClass node.vars) (nodeMode_sendData ..)
  | sendFwChunkReq =>
      exact hMoved hStep (keeps_sendTo (Or.inr ⟨rfl, Or.inl rfl⟩)) rfl

/-- What holds in every state of a run holds however the threads, the rest of the firmware, the
timers and the network take turns. -/
theorem inv_of_run {slots : Nat → Contiki.EventData (AnyProcess Other)}
    (run : Reaches (MeshNode.step nodeClass) (fun _ _ => True) (MeshNode.boot slots) node) :
    node.Inv :=
  run.invariant MeshNode.Inv (inv_boot slots) fun _ _ _ hInv _ hStep => (hInv.step hStep).1

end MeshNode

/-- The surroundings of a node that has found a DAG. -/
def dagFound : Surroundings Empty where
  dagId := some (Vector.replicate 16 7)
  ledFastBlinks := false
  anyDag := true
  parentReachable := true
  parentKnown := true
  badGoldenImage := false
  newImgInt := false
  shellProcess := none

/-- A node of class C starts and searches, its join is confirmed, and it sends an event. -/
def joins : List (NodeEvent Empty) :=
  let own : NodeEvent Empty := .thread dagFound
  let other : NodeEvent Empty := .returns .yielded
  [.autostart, own, own, .kernel, .run, .kernel, own, other, .kernel, own, own, own, .kernel, own,
    .run, .kernel, own, own, own, own, other, .kernel, own, own, own, .kernel, own, own,
    .run, .kernel, own, own, own, own, .joinConfirm (Vector.replicate 16 9),
    .run, .kernel, own, own, other, .kernel, own, .sendData]

abbrev started : MeshNode Empty := MeshNode.boot fun _ => ⟨0, .null, none⟩

theorem joins_run : ∃ node, runAll (MeshNode.step classC) started joins = some node ∧
    node.vars.nodeMode = .normal ∧ node.vars.sent.map SentPacket.kind = [.data, .join] := by
  have hAny : (runAll (MeshNode.step classC) started joins).any (fun node =>
      node.vars.nodeMode = .normal ∧ node.vars.sent.map SentPacket.kind = [.data, .join]) = true := by
    decide +kernel
  obtain ⟨node, hRun, hNode⟩ := (Option.any_eq_true _ _).mp hAny
  exact ⟨node, hRun, of_decide_eq_true hNode⟩

namespace MeshNode

variable {Other : Type} [DecidableEq Other] [Fintype Other] {node : MeshNode Other}
  {nodeClass : Byte}

/-- Without a confirmation a node is no member and sends nothing but joins and requests for
firmware, and what it sends as a member goes to the sender of the newest confirmation. -/
theorem joined_first {slots : Nat → Contiki.EventData (AnyProcess Other)}
    (run : Reaches (MeshNode.step nodeClass) (fun _ _ => True) (MeshNode.boot slots) node) :
    (node.vars.nodeMode.Member → node.vars.confirmed ≠ []) ∧
      ∀ packet ∈ node.vars.sent, packet.Proper :=
  ⟨(inv_of_run run).joined.member, (inv_of_run run).joined.proper⟩

theorem joined_first_joins : ∃ node, runAll (MeshNode.step classC) started joins = some node ∧
    node.vars.sent.map SentPacket.kind = [.data, .join] ∧ node.vars.confirmed ≠ [] ∧
      ∀ packet ∈ node.vars.sent, packet.Proper := by
  obtain ⟨node, hRun, hMode, hSent⟩ := joins_run
  obtain ⟨hMember, hProper⟩ :=
    joined_first (Reaches.of_runAll (fun _ _ _ => trivial) hRun)
  exact ⟨node, hRun, hSent, hMember (Or.inl hMode), hProper⟩

/-- A node goes through the modes in their order: it does not search again once it is a member,
and takes no other mode before its reboot once it needs one. -/
theorem mode_forward {slots : Nat → Contiki.EventData (AnyProcess Other)} {later : MeshNode Other}
    (run : Reaches (MeshNode.step nodeClass) (fun _ _ => True) (MeshNode.boot slots) node)
    (rest : Reaches (MeshNode.step nodeClass) (fun _ _ => True) node later) :
    node.vars.nodeMode.rank ≤ later.vars.nodeMode.rank := by
  have hKept := rest.invariant
    (fun state => state.Inv ∧ node.vars.nodeMode.rank ≤ state.vars.nodeMode.rank)
    ⟨inv_of_run run, Nat.le_refl _⟩ fun state event after hState _ hStep => by
      obtain ⟨hInv, hRank⟩ := hState.1.step hStep
      exact ⟨hInv, hState.2.trans hRank⟩
  exact hKept.2

theorem mode_forward_joins : ∃ node, runAll (MeshNode.step classC) started joins = some node ∧
    NodeMode.rank .boot ≤ node.vars.nodeMode.rank := by
  obtain ⟨node, hRun, -⟩ := joins_run
  exact ⟨node, hRun, mode_forward Reaches.start (Reaches.of_runAll (fun _ _ _ => trivial) hRun)⟩

end MeshNode

end Smarthome.Node.Membership
