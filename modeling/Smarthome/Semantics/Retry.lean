import Mathlib.Tactic.Common

/-! The loop `while (attempt fails);` over a state. The loop is bounded by fuel,
and the rule gives a fuel that is always enough. With it, a counting loop of such passes. -/
namespace Semantics

variable {State : Type*}

/-- Attempts until one succeeds; `none` when the fuel does not last. -/
def retry (attempt : State → Bool × State) : Nat → State → Option State
  | 0, _ => none
  | fuel + 1, s =>
      match attempt s with
      | (true, t) => some t
      | (false, t) => retry attempt fuel t

/-- Failed attempts that keep an invariant and lower a measure end in a success. -/
theorem retry_eq_some {attempt : State → Bool × State} (Inv : State → Prop)
    {Post : State → Prop} (measure : State → Nat)
    (hFail : ∀ s t, Inv s → attempt s = (false, t) → Inv t ∧ measure t < measure s)
    (hDone : ∀ s t, Inv s → attempt s = (true, t) → Post t)
    {fuel : Nat} {s : State} (hInv : Inv s) (hFuel : measure s < fuel) :
    ∃ t, retry attempt fuel s = some t ∧ Post t := by
  induction fuel generalizing s with
  | zero => omega
  | succ fuel ih =>
      rw [retry]
      match hAttempt : attempt s with
      | (true, t) => exact ⟨t, rfl, hDone s t hInv hAttempt⟩
      | (false, t) =>
          obtain ⟨hNext, hLess⟩ := hFail s t hInv hAttempt
          exact ih hNext (by omega)

/-- A counting loop whose passes all come through. -/
theorem foldlM_range_eq_some {body : State → Nat → Option State} (Inv : Nat → State → Prop)
    {count : Nat} (hBody : ∀ i < count, ∀ s, Inv i s → ∃ t, body s i = some t ∧ Inv (i + 1) t)
    {s : State} (hStart : Inv 0 s) :
    ∃ t, (List.range count).foldlM body s = some t ∧ Inv count t := by
  induction count with
  | zero => exact ⟨s, rfl, hStart⟩
  | succ count ih =>
      obtain ⟨middle, hMiddle, hInv⟩ := ih fun i hi => hBody i (Nat.lt_succ_of_lt hi)
      obtain ⟨t, hLast, hDone⟩ := hBody count (Nat.lt_succ_self count) middle hInv
      refine ⟨t, ?_, hDone⟩
      rw [List.range_succ, List.foldlM_append, hMiddle]
      simpa using hLast

end Semantics
