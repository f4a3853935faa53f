import Mathlib.Logic.Relation
import Smarthome.Semantics.CrashLogic

/-! Routines that are started again after a power loss. A loss of power falls between two
operations or into one of them; what an operation that it falls into leaves is a parameter. -/
namespace Semantics

universe u v w

/-- What a power loss in the middle of an operation can leave. -/
class Tearing (State : Type u) (Op : Type v) where
  torn : Op → State → State → Prop

variable {State : Type u} {Op : Type v} {Result Next : Type w}

namespace Routine

/-- Whatever state it is started in, a routine performs operations with this property only. -/
def Emits (P : Op → Prop) (m : Routine State Op Result) : Prop := ∀ s, ∀ op ∈ (m s).2, P op

variable {P : Op → Prop} {m : Routine State Op Result}

theorem Emits.perform {op : Op} (h : P op) : Emits P (Routine.perform op : Routine State Op Unit) := by
  intro s other hMem
  rw [List.mem_singleton.mp hMem]
  exact h

theorem Emits.withState {f : State → Routine State Op Result} (h : ∀ s, Emits P (f s)) :
    Emits P (Routine.withState f) := fun s => h s s

variable [Effect State Op]

theorem Emits.pure (r : Result) : Emits P (Pure.pure r : Routine State Op Result) :=
  fun _ _ hMem => absurd hMem List.not_mem_nil

/-- What follows a look at the state need be known for what has been seen only. -/
theorem Emits.get_bind {f : State → Result} {next : Result → Routine State Op Next}
    (h : ∀ s, Emits P (next (f s))) : Emits P (Routine.get f >>= next) := by
  intro s op hMem
  have hRun : Routine.get f s = (some (f s), ([] : List Op)) := rfl
  rw [bind_of_run hRun, List.nil_append] at hMem
  exact h s _ op hMem

theorem Emits.bind {f : Result → Routine State Op Next} (hm : Emits P m)
    (hf : ∀ r, Emits P (f r)) : Emits P (m >>= f) := by
  intro s op hMem
  rcases hRun : m s with ⟨_ | r, ops⟩
  · have hBind : (m >>= f) s = (none, ops) := by
      show andThen m f s = _
      unfold andThen
      rw [hRun]
    rw [hBind] at hMem
    exact hm s op (hRun ▸ hMem)
  · rw [bind_of_run hRun] at hMem
    rcases List.mem_append.mp hMem with hFirst | hSecond
    · exact hm s op (hRun ▸ hFirst)
    · exact hf r _ op hSecond

theorem Emits.forRange {body : Nat → Routine State Op Unit} {count : Nat}
    (h : ∀ i < count, Emits P (body i)) : Emits P (Routine.forRange body count) := by
  induction count with
  | zero => exact Emits.pure ()
  | succ count ih =>
      exact Emits.bind (ih fun i hi => h i (Nat.lt_succ_of_lt hi))
        fun _ => h count (Nat.lt_succ_self count)

theorem Emits.untilSome {attempt : Routine State Op (Option Result)} (h : Emits P attempt)
    (fuel : Nat) : Emits P (Routine.untilSome attempt fuel) := by
  induction fuel with
  | zero => exact fun _ _ hMem => absurd hMem List.not_mem_nil
  | succ fuel ih =>
      refine Emits.bind h fun r => ?_
      cases r with
      | none => exact ih
      | some r => exact Emits.pure r

variable [Tearing State Op]

/-- A power loss leaves the state between two operations of a run, or tears one of them. -/
def CutTo (m : Routine State Op Result) (s t : State) : Prop :=
  ∃ k, t = applyAll ((m s).2.take k) s ∨
    ∃ op, (m s).2[k]? = some op ∧ Tearing.torn op (applyAll ((m s).2.take k) s) t

/-- Some starts in a row, each of which ends with a power loss. Between two of them the state
can change in other ways. -/
def Restarted (m : Routine State Op Result) (powerUp : State → State → Prop) :
    State → State → Prop :=
  Relation.ReflTransGen fun s u => ∃ t, powerUp s t ∧ CutTo m t u

variable {Pre Crash Inv : State → Prop} {Post : Result → State → Prop}
  {powerUp : State → State → Prop} {s t : State}

/-- A crash condition that survives torn operations holds after every power loss. -/
theorem Triple.of_cutTo (h : Triple Pre m Crash Post) (hEmits : Emits P m)
    (hTorn : ∀ op s t, P op → Crash s → Tearing.torn op s t → Crash t) (hs : Pre s)
    (hCut : CutTo m s t) : Crash t := by
  obtain ⟨k, rfl | ⟨op, hOp, hTear⟩⟩ := hCut
  · exact (h s hs).1 k
  · exact hTorn op _ t (hEmits s op (List.mem_of_getElem? hOp)) ((h s hs).1 k) hTear

/-- The rule of restarts: what holds at the start and in every state that a power loss can
leave still holds after any number of them. -/
theorem Triple.of_restarted (h : Triple Inv m Inv Post) (hEmits : Emits P m)
    (hTorn : ∀ op s t, P op → Inv s → Tearing.torn op s t → Inv t)
    (hPowerUp : ∀ s t, Inv s → powerUp s t → Inv t) (hRestarted : Restarted m powerUp s t)
    (hs : Inv s) : Inv t := by
  induction hRestarted with
  | refl => exact hs
  | tail _ hLast ih =>
      obtain ⟨middle, hUp, hCut⟩ := hLast
      exact h.of_cutTo hEmits hTorn (hPowerUp _ _ ih hUp) hCut

end Routine
end Semantics
