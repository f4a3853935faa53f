import Smarthome.Node.Effects

/-! How many status rounds may go unanswered. The number is a byte that wraps around, and
`maintenance_process` looks at it now and then. -/
namespace Smarthome.Node.Membership

open Contiki Semantics

/-- The byte counts what is unanswered, and no more rounds are unanswered than were allowed when
`maintenance_process` last looked, and those since. -/
structure Counted (vars : NodeVars) : Prop where
  count : vars.nonAnsweredPacket.toNat = vars.unanswered % 256
  bound : vars.unanswered ≤ maxNonAnsweredPings + vars.unchecked

section Variables

variable {vars after : NodeVars}

theorem Counted.same (h : Counted vars) (hSame : SameCount vars after) : Counted after where
  count := by rw [hSame.nonAnsweredPacket, hSame.unanswered, h.count]
  bound := by rw [hSame.unanswered, hSame.unchecked]; exact h.bound

theorem Counted.round (h : Counted vars) : Counted { vars with
    nonAnsweredPacket := vars.nonAnsweredPacket + 1
    unanswered := vars.unanswered + 1
    unchecked := vars.unchecked + 1 } where
  count := by
    have hCount := h.count
    show (vars.nonAnsweredPacket + 1).toNat = (vars.unanswered + 1) % 256
    rw [UInt8.toNat_add, hCount, UInt8.toNat_one]
    omega
  bound := by
    have hBound := h.bound
    show vars.unanswered + 1 ≤ maxNonAnsweredPings + (vars.unchecked + 1)
    omega

/-- A look at the number, which has not wrapped around. -/
theorem Counted.look (h : Counted vars) (hUnchecked : vars.unchecked ≤ 252)
    (hFew : vars.nonAnsweredPacket.toNat ≤ maxNonAnsweredPings) :
    Counted { vars with unchecked := 0 } where
  count := h.count
  bound := by
    have hCount := h.count
    have hBound := h.bound
    show vars.unanswered ≤ maxNonAnsweredPings + 0
    have hSmall : vars.unanswered < 256 := by
      rw [maxNonAnsweredPings] at hBound
      omega
    rw [Nat.mod_eq_of_lt hSmall] at hCount
    omega

theorem Counted.effect (h : Counted vars) (hUnchecked : vars.unchecked ≤ 252)
    (hEffect : Effect vars after) : Counted after := by
  cases hEffect with
  | quiet hQuiet => exact h.same hQuiet.count
  | sends packet hCount => exact h.same hCount
  | looks hFew => exact h.look hUnchecked hFew
  | counts => exact h.round

end Variables

namespace MeshNode

variable {Other : Type} [DecidableEq Other] [Fintype Other] {node after : MeshNode Other}
  {nodeClass : Byte}

theorem counted_step {event : NodeEvent Other} (h : Counted node.vars)
    (hUnchecked : node.vars.unchecked ≤ 252) (hStep : node.step nodeClass event = some after) :
    Counted after.vars := by
  by_cases hInner : event.Inner
  · exact h.effect hUnchecked (effect_step hInner hStep)
  · cases event with
    | joinConfirm senderAddr =>
        rw [vars_joinConfirm hStep]
        exact h.same ⟨rfl, rfl, rfl⟩
    | pong =>
        rw [vars_pong hStep]
        exact ⟨rfl, Nat.zero_le _⟩
    | _ => exact absurd trivial hInner

end MeshNode

end Smarthome.Node.Membership
