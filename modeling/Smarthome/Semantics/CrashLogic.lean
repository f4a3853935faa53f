import Mathlib.Tactic.Common

/-! Routines that change a persistent state by atomic operations and can be cut
between any two of them. A routine gives its result together with the operations
it performs, so that the states a cut can leave are the prefixes of that list. -/
namespace Semantics

universe u v w

/-- What one atomic operation does to the state. -/
class Effect (State : Type u) (Op : Type v) where
  apply : Op → State → State

variable {State : Type u} {Op : Type v} {Result Next : Type w} [Effect State Op]

/-- The state after some operations, in order. -/
def applyAll (ops : List Op) (s : State) : State :=
  ops.foldl (fun s op => Effect.apply op s) s

@[simp] theorem applyAll_nil (s : State) : applyAll ([] : List Op) s = s := rfl

theorem applyAll_append (first second : List Op) (s : State) :
    applyAll (first ++ second) s = applyAll second (applyAll first s) := List.foldl_append

/-- Given the state at its start, a routine performs some operations and returns a
result, or performs them and never returns. -/
def Routine (State : Type u) (Op : Type v) (Result : Type w) := State → Option Result × List Op

namespace Routine

/-- One routine after another. -/
def andThen (m : Routine State Op Result) (f : Result → Routine State Op Next) :
    Routine State Op Next := fun s =>
  match m s with
  | (some r, ops) => ((f r (applyAll ops s)).1, ops ++ (f r (applyAll ops s)).2)
  | (none, ops) => (none, ops)

instance : Monad (Routine State Op) where
  pure r := fun _ => (some r, [])
  bind := andThen

/-- A run of a sequence, given the run of its first part. -/
theorem bind_of_run {m : Routine State Op Result} {f : Result → Routine State Op Next} {s : State}
    {r : Result} {ops : List Op} (hRun : m s = (some r, ops)) :
    (m >>= f) s = ((f r (applyAll ops s)).1, ops ++ (f r (applyAll ops s)).2) := by
  show andThen m f s = _
  unfold andThen
  rw [hRun]

/-- A look at the state. -/
def get (f : State → Result) : Routine State Op Result := fun s => (some (f s), [])

def perform (op : Op) : Routine State Op Unit := fun _ => (some (), [op])

/-- A routine chosen by the state at its start. -/
def withState (f : State → Routine State Op Result) : Routine State Op Result := fun s => f s s

/-- `for (i = 0; i < count; i++) body(i);`. -/
def forRange (body : Nat → Routine State Op Unit) : Nat → Routine State Op Unit
  | 0 => Pure.pure ()
  | count + 1 => forRange body count >>= fun _ => body count

/-- Attempts until one returns a value; it does not return when the fuel does not last. -/
def untilSome (attempt : Routine State Op (Option Result)) : Nat → Routine State Op Result
  | 0 => fun _ => (none, [])
  | fuel + 1 => attempt >>= fun r =>
      match r with
      | some r => Pure.pure r
      | none => untilSome attempt fuel

/-- From a state with the precondition the routine returns with the postcondition,
and a cut at any point leaves a state with the crash condition. -/
def Triple (Pre : State → Prop) (m : Routine State Op Result) (Crash : State → Prop)
    (Post : Result → State → Prop) : Prop :=
  ∀ s, Pre s → (∀ k, Crash (applyAll ((m s).2.take k) s)) ∧
    ∃ r, (m s).1 = some r ∧ Post r (applyAll (m s).2 s)

variable {Pre Crash : State → Prop} {Post : Result → State → Prop}

theorem Triple.pure {r : Result} (h : ∀ s, Pre s → Crash s ∧ Post r s) :
    Triple Pre (Pure.pure r : Routine State Op Result) Crash Post := by
  intro s hPre
  obtain ⟨hCrash, hPost⟩ := h s hPre
  refine ⟨fun k => ?_, r, rfl, hPost⟩
  have hOps : ((Pure.pure r : Routine State Op Result) s).2 = [] := rfl
  rwa [hOps, List.take_nil]

/-- Straight-line code: the operations of a run are known, and so are its cuts. -/
theorem Triple.of_run {m : Routine State Op Result} {s : State} {r : Result} {ops : List Op}
    (hRun : m s = (some r, ops)) (hCrash : ∀ k, Crash (applyAll (ops.take k) s))
    (hPost : Post r (applyAll ops s)) : Triple (fun t => t = s) m Crash Post := by
  rintro t rfl
  rw [hRun]
  exact ⟨hCrash, r, rfl, hPost⟩

theorem Triple.get {f : State → Result} (h : ∀ s, Pre s → Crash s ∧ Post (f s) s) :
    Triple Pre (Routine.get f : Routine State Op Result) Crash Post := by
  intro s hPre
  obtain ⟨hCrash, hPost⟩ := h s hPre
  refine ⟨fun k => ?_, f s, rfl, hPost⟩
  have hOps : ((Routine.get f : Routine State Op Result) s).2 = [] := rfl
  rwa [hOps, List.take_nil]

theorem Triple.perform {op : Op} {Post : Unit → State → Prop}
    (h : ∀ s, Pre s → Crash s ∧ Crash (Effect.apply op s) ∧ Post () (Effect.apply op s)) :
    Triple Pre (Routine.perform op) Crash Post := by
  intro s hPre
  obtain ⟨hBefore, hAfter, hPost⟩ := h s hPre
  refine ⟨fun k => ?_, (), rfl, hPost⟩
  have hOps : (Routine.perform op s).2 = [op] := rfl
  cases k with
  | zero => exact hBefore
  | succ k =>
      rw [hOps, List.take_succ_cons, List.take_nil]
      exact hAfter

/-- The rule of sequence: a cut falls into the first routine or into the second. -/
theorem Triple.bind {m : Routine State Op Result} {f : Result → Routine State Op Next}
    {Middle : Result → State → Prop} {Post : Next → State → Prop}
    (hm : Triple Pre m Crash Middle) (hf : ∀ r, Triple (Middle r) (f r) Crash Post) :
    Triple Pre (m >>= f) Crash Post := by
  intro s hPre
  obtain ⟨hCrash, r, hResult, hMiddle⟩ := hm s hPre
  obtain ⟨hLater, r', hNext, hPost⟩ := hf r _ hMiddle
  have hBind : (m >>= f) s = ((f r (applyAll (m s).2 s)).1,
      (m s).2 ++ (f r (applyAll (m s).2 s)).2) := bind_of_run (by rw [← hResult])
  rw [hBind]
  refine ⟨fun k => ?_, r', hNext, by rw [applyAll_append]; exact hPost⟩
  rw [List.take_append, applyAll_append]
  rcases Nat.le_total k (m s).2.length with hk | hk
  · rw [Nat.sub_eq_zero_of_le hk, List.take_zero]
    exact hCrash k
  · rw [List.take_of_length_le hk]
    exact hLater _

/-- A routine that has returned was not cut, but its last state is one a cut could leave. -/
theorem Triple.withCrash {m : Routine State Op Result} (h : Triple Pre m Crash Post) :
    Triple Pre m Crash fun r s => Post r s ∧ Crash s := by
  intro s hs
  obtain ⟨hCut, r, hResult, hDone⟩ := h s hs
  have hLast := hCut (m s).2.length
  rw [List.take_length] at hLast
  exact ⟨hCut, r, hResult, hDone, hLast⟩

theorem Triple.mono {m : Routine State Op Result} {Pre' Crash' : State → Prop}
    {Post' : Result → State → Prop} (h : Triple Pre m Crash Post) (hPre : ∀ s, Pre' s → Pre s)
    (hCrash : ∀ s, Crash s → Crash' s) (hPost : ∀ r s, Post r s → Post' r s) :
    Triple Pre' m Crash' Post' := by
  intro s hs
  obtain ⟨hCut, r, hResult, hDone⟩ := h s (hPre s hs)
  exact ⟨fun k => hCrash _ (hCut k), r, hResult, hPost r _ hDone⟩

/-- A triple for every single state of the precondition. -/
theorem Triple.of_forall {m : Routine State Op Result}
    (h : ∀ s, Pre s → Triple (fun t => t = s) m Crash Post) : Triple Pre m Crash Post :=
  fun s hPre => h s hPre s rfl

theorem Triple.of_mem {m : Routine State Op Result} (h : Triple Pre m Crash Post) {s : State}
    (hs : Pre s) : Triple (fun t => t = s) m Crash Post :=
  h.mono (fun _ ht => ht ▸ hs) (fun _ hCrash => hCrash) fun _ _ hPost => hPost

theorem Triple.withState {f : State → Routine State Op Result}
    (h : ∀ s, Pre s → Triple (fun t => t = s) (f s) Crash Post) :
    Triple Pre (Routine.withState f) Crash Post :=
  fun s hPre => h s hPre s rfl

/-- The rule of the counting loop. -/
theorem Triple.forRange {body : Nat → Routine State Op Unit} {Inv : Nat → State → Prop} {count : Nat}
    (hCrash : ∀ s, Inv 0 s → Crash s)
    (hBody : ∀ i < count, Triple (Inv i) (body i) Crash fun _ => Inv (i + 1)) :
    Triple (Inv 0) (Routine.forRange body count) Crash fun _ => Inv count := by
  induction count with
  | zero => exact Triple.pure fun s h => ⟨hCrash s h, h⟩
  | succ count ih =>
      exact Triple.bind (ih fun i hi => hBody i (Nat.lt_succ_of_lt hi))
        fun _ => hBody count (Nat.lt_succ_self count)

/-- The postcondition of an attempt: one for its value, one for its failure. -/
def OnAttempt (Done : Result → State → Prop) (Failed : State → Prop) : Option Result → State → Prop
  | some r => Done r
  | none => Failed

/-- The rule of the retry loop: a failed attempt lowers the measure, and so there is
a success before the fuel has run out. -/
theorem Triple.untilSome {attempt : Routine State Op (Option Result)} (Inv : State → Prop)
    (measure : State → Nat)
    (hAttempt : ∀ n, Triple (fun s => Inv s ∧ measure s = n) attempt Crash
      (OnAttempt Post fun s => Inv s ∧ measure s < n)) (fuel : Nat) :
    Triple (fun s => Inv s ∧ measure s < fuel) (Routine.untilSome attempt fuel) Crash Post := by
  induction fuel with
  | zero => exact fun s h => absurd h.2 (Nat.not_lt_zero _)
  | succ fuel ih =>
      intro s hs
      refine Triple.bind (hAttempt (measure s)).withCrash (fun r => ?_) s ⟨hs.1, rfl⟩
      cases r with
      | some r => exact Triple.pure fun t ht => ⟨ht.2, ht.1⟩
      | none =>
          refine ih.mono (fun t ht => ⟨ht.1.1, ?_⟩) (fun _ h => h) fun _ _ h => h
          have hLess := ht.1.2
          have hFuel := hs.2
          omega

end Routine
end Semantics
