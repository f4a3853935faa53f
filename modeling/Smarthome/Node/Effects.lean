import Smarthome.Node.Joining

/-! What a step of a node does to its counters and to what it has sent: it leaves both, or it
sends one packet, or `maintenance_process` looks at the number of unanswered rounds, or
`status_send_process` counts one. -/
namespace Smarthome.Node.Membership

open Contiki Semantics

/-- The numbers stay. -/
structure SameCount (vars after : NodeVars) : Prop where
  nonAnsweredPacket : after.nonAnsweredPacket = vars.nonAnsweredPacket
  unanswered : after.unanswered = vars.unanswered
  unchecked : after.unchecked = vars.unchecked

/-- The numbers, the confirmations and the packets stay. -/
structure Quiet (vars after : NodeVars) : Prop where
  count : SameCount vars after
  confirmed : after.confirmed = vars.confirmed
  sent : after.sent = vars.sent

inductive Effect (vars : NodeVars) : NodeVars → Prop where
  | quiet {after : NodeVars} (h : Quiet vars after) : Effect vars after
  | sends {after : NodeVars} (packet : SentPacket) (hCount : SameCount vars after)
      (hConfirmed : after.confirmed = vars.confirmed) (hSent : after.sent = packet :: vars.sent)
      (hPacket : packet.confirmed = vars.confirmed) : Effect vars after
  | looks (hFew : vars.nonAnsweredPacket.toNat ≤ maxNonAnsweredPings) :
      Effect vars { vars with unchecked := 0 }
  | counts : Effect vars { vars with
      nonAnsweredPacket := vars.nonAnsweredPacket + 1
      unanswered := vars.unanswered + 1
      unchecked := vars.unchecked + 1 }

section Variables

variable {vars after : NodeVars}

theorem SameCount.refl (vars : NodeVars) : SameCount vars vars := ⟨rfl, rfl, rfl⟩

/-- A change of the mode, of the radio or of the timers. -/
theorem Effect.of_same (hCount : SameCount vars after) (hConfirmed : after.confirmed = vars.confirmed)
    (hSent : after.sent = vars.sent) : Effect vars after :=
  .quiet ⟨hCount, hConfirmed, hSent⟩

theorem Effect.refl (vars : NodeVars) : Effect vars vars :=
  Effect.of_same (SameCount.refl vars) rfl rfl

theorem effect_sendTo (kind : PacketKind) (destination : Ipv6Address) (radio : RadioPower) :
    Effect vars ({ vars with radio }.sendTo kind destination) :=
  .sends ⟨kind, destination, vars.confirmed⟩ ⟨rfl, rfl, rfl⟩ rfl rfl rfl

theorem effect_sendData (nodeClass : Byte) (vars : NodeVars) (nodeMode : NodeMode) :
    Effect vars { vars.sendData nodeClass with nodeMode } := by
  unfold NodeVars.sendData
  split_ifs
  · exact .sends ⟨.data, vars.rootAddr, vars.confirmed⟩ ⟨rfl, rfl, rfl⟩ rfl rfl rfl
  · exact Effect.of_same ⟨rfl, rfl, rfl⟩ rfl rfl

end Variables

section Threads

variable {Other : Type} {vars : NodeVars}

theorem effect_callIf (condition : Bool) (action : Contiki.Action (AnyProcess Other)) (next : Point) :
    Effect vars (callIf condition action vars next).after := by
  unfold Membership.callIf
  split_ifs
  · exact Effect.refl vars
  · exact Effect.refl vars

theorem effect_dagNodeProcess (nodeClass : Byte) (around : Surroundings Other) (ev : ProcessEvent)
    (point : Point) : Effect vars (dagNodeProcess nodeClass around ev vars point).after := by
  have hSame := Effect.refl vars
  cases point <;> simp only [Membership.dagNodeProcess] <;> try exact hSame
  case pause =>
    split_ifs
    · exact Effect.of_same ⟨rfl, rfl, rfl⟩ rfl rfl
    · exact hSame
  case startShell =>
    split
    · exact hSame
    · exact hSame
  case waitContinue =>
    split_ifs
    · exact hSame
    · exact hSame
  case setNormal => exact Effect.of_same ⟨rfl, rfl, rfl⟩ rfl rfl
  case checkImages =>
    split_ifs
    · exact effect_sendData nodeClass vars _
    · exact effect_sendData nodeClass vars .needReboot
    · exact hSame

theorem effect_maintenanceProcess (nodeClass : Byte) (isRunning : AnyProcess Other → Bool)
    (ev : ProcessEvent) (point : Point) :
    Effect vars (maintenanceProcess nodeClass isRunning ev vars point).after := by
  have hSame := Effect.refl vars
  cases point <;> simp only [Membership.maintenanceProcess] <;> try exact hSame
  case begin => split_ifs <;> exact hSame
  case pause => split_ifs <;> exact hSame
  case top =>
    split_ifs
    · exact Effect.of_same ⟨rfl, rfl, rfl⟩ rfl rfl
    · exact hSame
    · exact hSame
  case waitReboot => split_ifs <;> exact hSame
  case countPings =>
    split_ifs with hMany
    · exact hSame
    · exact .looks (Nat.le_of_not_lt hMany)
  case checkNotroot => split_ifs <;> exact hSame
  case sleepRadio => exact Effect.of_same ⟨rfl, rfl, rfl⟩ rfl rfl
  case checkJoin =>
    split_ifs
    · exact Effect.of_same ⟨rfl, rfl, rfl⟩ rfl rfl
    · exact hSame
  case setMaintenanceTimer => exact Effect.of_same ⟨rfl, rfl, rfl⟩ rfl rfl
  case waitMaintenance => split_ifs <;> exact hSame
  all_goals exact effect_callIf _ _ _

theorem effect_rootFindProcess (around : Surroundings Other) (ev : ProcessEvent) (point : Point) :
    Effect vars (rootFindProcess around ev vars point).after := by
  have hSame := Effect.refl vars
  unfold Membership.rootFindProcess
  cases point <;> dsimp only <;> try exact hSame
  case begin => split_ifs <;> exact hSame
  case pause =>
    split_ifs
    · exact Effect.of_same ⟨rfl, rfl, rfl⟩ rfl rfl
    · exact hSame
  case search =>
    split_ifs
    · exact Effect.of_same ⟨rfl, rfl, rfl⟩ rfl rfl
    · split
      · exact effect_callIf _ _ _
      · exact hSame
    · exact hSame
  case sendJoin dagId => exact effect_sendTo .join dagId vars.radio
  case setFindRootTimer => exact Effect.of_same ⟨rfl, rfl, rfl⟩ rfl rfl
  case waitFindRoot => split_ifs <;> exact hSame

theorem effect_statusSendProcess (nodeClass : Byte) (around : Surroundings Other)
    (ev : ProcessEvent) (point : Point) :
    Effect vars (statusSendProcess nodeClass around ev vars point).after := by
  have hSame := Effect.refl vars
  cases point <;> simp only [Membership.statusSendProcess] <;> try exact hSame
  case begin => split_ifs <;> exact hSame
  case pause => split_ifs <;> exact hSame
  case status =>
    split_ifs
    · exact hSame
    · exact effect_sendTo .status vars.rootAddr _
    · exact hSame
    · exact hSame
  case countStatus => exact .counts
  case setStatusTimer => exact Effect.of_same ⟨rfl, rfl, rfl⟩ rfl rfl
  case waitStatusSend => split_ifs <;> exact hSame

theorem effect_thread {nodeClass : Byte} {isRunning : AnyProcess Other → Bool}
    {around : Surroundings Other} {ev : ProcessEvent} {point : Point} {p : AnyProcess Other}
    {turn : Turn Other}
    (hThread : thread nodeClass isRunning around ev vars point p = some turn) :
    Effect vars turn.after := by
  unfold thread at hThread
  split at hThread
  · exact Option.some.inj hThread ▸ effect_dagNodeProcess ..
  · exact Option.some.inj hThread ▸ effect_maintenanceProcess ..
  · exact Option.some.inj hThread ▸ effect_rootFindProcess ..
  · exact Option.some.inj hThread ▸ effect_statusSendProcess ..
  · cases hThread

end Threads

namespace MeshNode

variable {Other : Type} [DecidableEq Other] [Fintype Other] {node after : MeshNode Other}
  {nodeClass : Byte}

theorem vars_act {action : Contiki.Action (AnyProcess Other)} (hAct : node.act action = some after) :
    after.vars = node.vars := by
  unfold MeshNode.act at hAct
  rw [Option.map_eq_some_iff] at hAct
  obtain ⟨kernel, -, rfl⟩ := hAct
  exact vars_enter _

theorem vars_takeTurn {call : ThreadCall Other} {rest : List (ThreadCall Other)}
    {turn : Turn Other} (hTurn : node.takeTurn call rest turn = some after) :
    after.vars = turn.after := by
  cases turn with
  | call vars action next => exact vars_act hTurn
  | goOn vars next =>
      obtain rfl := Option.some.inj hTurn
      rfl
  | wait vars point => exact vars_act hTurn
  | ended vars => exact vars_act hTurn
  | reboot vars =>
      obtain rfl := Option.some.inj hTurn
      rfl

theorem happens_of_step {event : NodeEvent Other} (hStep : node.step nodeClass event = some after) :
    node.happens nodeClass event = some after := by
  rw [MeshNode.step, ite_eq_iff] at hStep
  exact hStep.elim (fun hNone => absurd hNone.2.symm (Option.some_ne_none _)) And.right

theorem vars_joinConfirm {senderAddr : Ipv6Address}
    (hStep : node.step nodeClass (.joinConfirm senderAddr) = some after) :
    after.vars = { node.vars with
      rootAddr := senderAddr
      expired := Function.update node.vars.expired .maintenance true
      confirmed := senderAddr :: node.vars.confirmed } := by
  have hHappens := happens_of_step hStep
  simp only [MeshNode.happens] at hHappens
  split_ifs at hHappens
  exact vars_act hHappens

theorem vars_pong (hStep : node.step nodeClass .pong = some after) :
    after.vars = { node.vars with
      nonAnsweredPacket := 0
      unanswered := 0
      radio := node.vars.radio.netOff nodeClass radioOffNow } := by
  have hHappens := happens_of_step hStep
  obtain rfl := Option.some.inj hHappens
  rfl

end MeshNode

/-- Neither a confirmation nor a pong comes. -/
def NodeEvent.Inner {Other : Type} : NodeEvent Other → Prop
  | .joinConfirm _ | .pong => False
  | _ => True

instance {Other : Type} : (event : NodeEvent Other) → Decidable event.Inner
  | .joinConfirm _ | .pong => isFalse id
  | .autostart | .thread _ | .foreign _ | .returns _ | .run | .kernel | .poll _ | .expire _
  | .sendData | .sendFwChunkReq => isTrue trivial

namespace MeshNode

variable {Other : Type} [DecidableEq Other] [Fintype Other] {node after : MeshNode Other}
  {nodeClass : Byte}

theorem effect_step {event : NodeEvent Other} (hInner : event.Inner)
    (hStep : node.step nodeClass event = some after) : Effect node.vars after.vars := by
  have hSame := Effect.refl node.vars
  replace hStep := happens_of_step hStep
  cases event with
  | autostart =>
      simp only [MeshNode.happens] at hStep
      split_ifs at hStep
      rw [vars_act hStep]
      exact hSame
  | thread around =>
      simp only [MeshNode.happens] at hStep
      split at hStep
      · split_ifs at hStep
        rw [Option.bind_eq_some_iff] at hStep
        obtain ⟨turn, hThread, hTurn⟩ := hStep
        rw [vars_takeTurn hTurn]
        exact effect_thread hThread
      · cases hStep
  | foreign action =>
      simp only [MeshNode.happens] at hStep
      split_ifs at hStep
      rw [vars_act hStep]
      exact hSame
  | returns result =>
      simp only [MeshNode.happens] at hStep
      split at hStep
      · split_ifs at hStep
        rw [vars_act hStep]
        exact hSame
      · cases hStep
  | run =>
      rw [vars_act hStep]
      exact hSame
  | kernel =>
      rw [vars_act hStep]
      exact hSame
  | poll p =>
      simp only [MeshNode.happens] at hStep
      split_ifs at hStep
      rw [vars_act hStep]
      exact hSame
  | expire timer =>
      obtain rfl := Option.some.inj hStep
      exact Effect.of_same ⟨rfl, rfl, rfl⟩ rfl rfl
  | joinConfirm senderAddr => exact hInner.elim
  | pong => exact hInner.elim
  | sendData =>
      obtain rfl := Option.some.inj hStep
      exact effect_sendData nodeClass node.vars _
  | sendFwChunkReq =>
      obtain rfl := Option.some.inj hStep
      exact effect_sendTo .fwChunkReq node.vars.rootAddr node.vars.radio

end MeshNode

end Smarthome.Node.Membership
