import Mathlib.Tactic.Common

/-! Runs of a labelled system, given by a partial step function. A run may be held
to a condition on the state and the label of each step; a condition that always
holds gives all runs. -/
namespace Semantics

universe u v

variable {State : Type u} {Label : Type v}

/-- The states reached from `start` by steps that meet the condition. -/
inductive Reaches (step : State → Label → Option State) (Allowed : State → Label → Prop)
    (start : State) : State → Prop where
  | start : Reaches step Allowed start start
  | next {s t : State} {label : Label} (run : Reaches step Allowed start s)
      (last : step s label = some t) (allowed : Allowed s label) : Reaches step Allowed start t

variable {step : State → Label → Option State} {Allowed : State → Label → Prop}
  {start middle finish : State}

/-- A predicate that holds at the start and is kept by every step holds at the end. -/
theorem Reaches.invariant (Inv : State → Prop) (hStart : Inv start)
    (hStep : ∀ s label t, Inv s → Allowed s label → step s label = some t → Inv t)
    (run : Reaches step Allowed start finish) : Inv finish := by
  induction run with
  | start => exact hStart
  | next _ last allowed ih => exact hStep _ _ _ ih allowed last

theorem Reaches.trans (first : Reaches step Allowed start middle)
    (second : Reaches step Allowed middle finish) : Reaches step Allowed start finish := by
  induction second with
  | start => exact first
  | next _ last allowed ih => exact Reaches.next ih last allowed

/-- A system with one label comes to an end if its steps lower a measure. -/
theorem exists_end {step : State → Unit → Option State} (Inv : State → Prop)
    (size : State → Nat) (hStep : ∀ s t, Inv s → step s () = some t → Inv t ∧ size t < size s)
    (hStart : Inv start) :
    ∃ finish, Reaches step (fun _ _ => True) start finish ∧ step finish () = none := by
  induction hSize : size start using Nat.strongRecOn generalizing start with
  | ind n ih =>
      cases hFirst : step start () with
      | none => exact ⟨start, Reaches.start, hFirst⟩
      | some t =>
          obtain ⟨hNext, hLess⟩ := hStep start t hStart hFirst
          obtain ⟨finish, hRun, hEnd⟩ := ih (size t) (hSize ▸ hLess) hNext rfl
          exact ⟨finish, (Reaches.next Reaches.start hFirst trivial).trans hRun, hEnd⟩

/-- The state after the labels of a list, if all of their steps are possible. -/
def runAll (step : State → Label → Option State) : State → List Label → Option State
  | s, [] => some s
  | s, label :: labels => (step s label).bind fun t => runAll step t labels

theorem runAll_append (first second : List Label) (s : State) :
    runAll step s (first ++ second) = (runAll step s first).bind fun t => runAll step t second := by
  induction first generalizing s with
  | nil => rfl
  | cons label labels ih =>
      simp only [List.cons_append, runAll, Option.bind_assoc]
      congr 1
      funext t
      exact ih t

/-- A list of labels that can be run, each of them under the condition, is a run. -/
theorem Reaches.of_runAll {labels : List Label}
    (hAllowed : ∀ label ∈ labels, ∀ s, Allowed s label)
    (h : runAll step start labels = some finish) : Reaches step Allowed start finish := by
  induction labels generalizing start with
  | nil =>
      obtain rfl := Option.some.inj h
      exact Reaches.start
  | cons label labels ih =>
      rw [List.forall_mem_cons] at hAllowed
      rw [runAll, Option.bind_eq_some_iff] at h
      obtain ⟨t, hFirst, hRest⟩ := h
      exact (Reaches.next Reaches.start hFirst (hAllowed.1 start)).trans (ih hAllowed.2 hRest)

theorem Reaches.head {s : State} (run : Reaches step Allowed start s) :
    s = start ∨ ∃ label t, step start label = some t ∧ Reaches step Allowed t s := by
  induction run with
  | start => exact Or.inl rfl
  | @next middle finish label run last allowed ih =>
      rcases ih with rfl | ⟨first, t, hFirst, hRest⟩
      · exact Or.inr ⟨label, finish, last, Reaches.start⟩
      · exact Or.inr ⟨first, t, hFirst, Reaches.next hRest last allowed⟩

/-- Every step that a list of labels takes meets the condition. -/
def Along (step : State → Label → Option State) (Allowed : State → Label → Prop) :
    State → List Label → Prop
  | _, [] => True
  | s, label :: labels => Allowed s label ∧ ∀ t, step s label = some t → Along step Allowed t labels

/-- A list of labels that can be run, each step of it under the condition, is a run. -/
theorem Reaches.of_along {Allowed : State → Label → Prop} {labels : List Label}
    (hAlong : Along step Allowed start labels) (h : runAll step start labels = some finish) :
    Reaches step Allowed start finish := by
  induction labels generalizing start with
  | nil =>
      obtain rfl := Option.some.inj h
      exact Reaches.start
  | cons label labels ih =>
      rw [runAll, Option.bind_eq_some_iff] at h
      obtain ⟨t, hFirst, hRest⟩ := h
      exact (Reaches.next Reaches.start hFirst hAlong.1).trans (ih (hAlong.2 t hFirst) hRest)

/-- Damage that nothing repairs is done by the first step outside the condition.
The condition is then exact: `Good` holds at the end of a list of labels if and
only if each of its steps met it. -/
theorem runAll_good_iff {Allowed : State → Label → Prop} (Inv Good Bad : State → Prop)
    (hInv : ∀ s label t, Inv s → step s label = some t → Inv t)
    (hGood : ∀ s label, Inv s → Good s → Allowed s label → ∃ t, step s label = some t ∧ Good t)
    (hBreaks : ∀ s label t, Inv s → Good s → ¬ Allowed s label → step s label = some t → Bad t)
    (hBad : ∀ s label t, Inv s → Bad s → step s label = some t → Bad t)
    (hDisjoint : ∀ s, Bad s → ¬ Good s) (labels : List Label) (hStart : Inv start)
    (hFirst : Good start) :
    (∃ t, runAll step start labels = some t ∧ Good t) ↔ Along step Allowed start labels := by
  have hBadAfter (labels : List Label) : ∀ s, Inv s → Bad s →
      ∀ t, runAll step s labels = some t → Bad t := by
    induction labels with
    | nil =>
        intro s _ hs t h
        exact Option.some.inj h ▸ hs
    | cons label labels ih =>
        intro s hs hBadS t h
        rw [runAll, Option.bind_eq_some_iff] at h
        obtain ⟨u, hStep, hRest⟩ := h
        exact ih u (hInv _ _ _ hs hStep) (hBad _ _ _ hs hBadS hStep) t hRest
  induction labels generalizing start with
  | nil =>
      constructor
      · intro _
        trivial
      · intro _
        exact ⟨start, rfl, hFirst⟩
  | cons label labels ih =>
      simp only [runAll, Along, Option.bind_eq_some_iff]
      constructor
      · rintro ⟨t, ⟨u, hStep, hRest⟩, hEnd⟩
        have hAllowed : Allowed start label := by
          by_contra hNot
          exact hDisjoint t (hBadAfter labels u (hInv _ _ _ hStart hStep)
            (hBreaks _ _ _ hStart hFirst hNot hStep) t hRest) hEnd
        obtain ⟨v, hSame, hGoodV⟩ := hGood start label hStart hFirst hAllowed
        apply And.intro hAllowed
        intro w hw
        obtain rfl := Option.some.inj (hStep.symm.trans hw)
        obtain rfl := Option.some.inj (hStep.symm.trans hSame)
        exact (ih (hInv _ _ _ hStart hStep) hGoodV).mp ⟨t, hRest, hEnd⟩
      · rintro ⟨hAllowed, hAlong⟩
        obtain ⟨u, hStep, hGoodU⟩ := hGood start label hStart hFirst hAllowed
        obtain ⟨t, hRest, hEnd⟩ :=
          (ih (hInv _ _ _ hStart hStep) hGoodU).mpr (hAlong u hStep)
        exact ⟨t, ⟨u, hStep, hRest⟩, hEnd⟩

/-- A property of every state that a list of labels passes through. -/
def Throughout (step : State → Label → Option State) (Good : State → Prop) :
    State → List Label → Prop
  | s, [] => Good s
  | s, label :: labels => Good s ∧ ∀ t, step s label = some t → Throughout step Good t labels

theorem Throughout.head {Good : State → Prop} {labels : List Label}
    (h : Throughout step Good start labels) : Good start := by
  cases labels with
  | nil => exact h
  | cons label labels => exact h.1

theorem Throughout.last {Good : State → Prop} {labels : List Label}
    (h : Throughout step Good start labels) (hRun : runAll step start labels = some finish) :
    Good finish := by
  induction labels generalizing start with
  | nil =>
      obtain rfl := Option.some.inj hRun
      exact h
  | cons label labels ih =>
      rw [runAll, Option.bind_eq_some_iff] at hRun
      obtain ⟨t, hFirst, hRest⟩ := hRun
      exact ih (h.2 t hFirst) hRest

/-- An invariant that is kept under a condition gives its consequences in all states that
are passed through under the condition. -/
theorem Throughout.of_along {Allowed : State → Label → Prop} (Inv : State → Prop)
    {Good : State → Prop} (hGood : ∀ s, Inv s → Good s)
    (hStep : ∀ s label t, Inv s → Allowed s label → step s label = some t → Inv t)
    (hStart : Inv start) {labels : List Label} (hAlong : Along step Allowed start labels) :
    Throughout step Good start labels := by
  induction labels generalizing start with
  | nil => exact hGood start hStart
  | cons label labels ih =>
      refine ⟨hGood start hStart, fun t ht => ?_⟩
      exact ih (hStep start label t hStart hAlong.1 ht) (hAlong.2 t ht)

theorem Along.of_forall {Allowed : State → Label → Prop} (h : ∀ s label, Allowed s label)
    (s : State) (labels : List Label) : Along step Allowed s labels := by
  induction labels generalizing s with
  | nil => trivial
  | cons label labels ih => exact ⟨h s label, fun t _ => ih t⟩

/-- A condition on the labels alone. -/
theorem Along.of_labels {Fits : Label → Prop} {labels : List Label}
    (h : ∀ label ∈ labels, Fits label) (s : State) :
    Along step (fun _ label => Fits label) s labels := by
  induction labels generalizing s with
  | nil => trivial
  | cons label labels ih =>
      rw [List.forall_mem_cons] at h
      exact ⟨h.1, fun t _ => ih h.2 t⟩

/-- An invariant that every step keeps gives its consequences in all states passed through. -/
theorem Throughout.of_invariant {Inv Good : State → Prop} (hGood : ∀ s, Inv s → Good s)
    (hStep : ∀ s label t, Inv s → step s label = some t → Inv t) (hStart : Inv start)
    (labels : List Label) : Throughout step Good start labels :=
  have hAlong : Along step (fun _ _ => True) start labels :=
    Along.of_forall (fun _ _ => trivial) start labels
  Throughout.of_along Inv hGood (fun s label t hs _ => hStep s label t hs) hStart hAlong

theorem Along.mono {Allowed Weaker : State → Label → Prop}
    (h : ∀ s label, Allowed s label → Weaker s label) {labels : List Label}
    (hAlong : Along step Allowed start labels) : Along step Weaker start labels := by
  induction labels generalizing start with
  | nil => trivial
  | cons label labels ih => exact ⟨h _ _ hAlong.1, fun t ht => ih (hAlong.2 t ht)⟩

theorem Throughout.mono {Good Weaker : State → Prop} (h : ∀ s, Good s → Weaker s)
    {labels : List Label} (hGood : Throughout step Good start labels) :
    Throughout step Weaker start labels := by
  induction labels generalizing start with
  | nil => exact h _ hGood
  | cons label labels ih => exact ⟨h _ hGood.1, fun t ht => ih (hGood.2 t ht)⟩

/-- A condition on the steps can be checked along a list of labels. -/
instance Along.decidable {Allowed : State → Label → Prop}
    [∀ s label, Decidable (Allowed s label)] (s : State) :
    (labels : List Label) → Decidable (Along step Allowed s labels)
  | [] => isTrue trivial
  | label :: labels =>
      match h : step s label with
      | none => decidable_of_iff (Allowed s label) (by simp [Along, h])
      | some t =>
          have : Decidable (Along step Allowed t labels) := Along.decidable t labels
          decidable_of_iff (Allowed s label ∧ Along step Allowed t labels) (by simp [Along, h])

/-- With one label there is only one way, and at most one end. -/
theorem Reaches.eq_of_end {step : State → Unit → Option State} {s t : State}
    (first : Reaches step (fun _ _ => True) start s) (hFirst : step s () = none)
    (second : Reaches step (fun _ _ => True) start t) (hSecond : step t () = none) : s = t := by
  have hBehind : Reaches step (fun _ _ => True) t s := by
    clear hSecond
    induction second with
    | start => exact first
    | @next u v label run last allowed ih =>
        rcases ih.head with rfl | ⟨other, w, hStep, hRest⟩
        · rw [hFirst] at last
          cases last
        · obtain rfl : v = w := Option.some.inj (last.symm.trans hStep)
          exact hRest
  rcases hBehind.head with rfl | ⟨label, u, hStep, -⟩
  · rfl
  · rw [hSecond] at hStep
    cases hStep

/-- With one label, a list that runs to an end passes through all states that there are. -/
theorem forall_reaches_of_along {step : State → Unit → Option State} {Good : State → Prop}
    {labels : List Unit} (hAlong : Along step (fun s _ => Good s) start labels)
    (hEnd : ∃ t, runAll step start labels = some t ∧ Good t ∧ step t () = none) {s : State}
    (run : Reaches step (fun _ _ => True) start s) : Good s := by
  induction labels generalizing start with
  | nil =>
      obtain ⟨t, hRun, hGood, hNone⟩ := hEnd
      obtain rfl := Option.some.inj hRun
      rcases run.head with rfl | ⟨label, t, hStep, -⟩
      · exact hGood
      · rw [hNone] at hStep
        cases hStep
  | cons label labels ih =>
      obtain ⟨finish, hRun, hLast⟩ := hEnd
      rw [runAll, Option.bind_eq_some_iff] at hRun
      obtain ⟨t, hFirst, hRest⟩ := hRun
      rcases run.head with rfl | ⟨other, u, hStep, hTail⟩
      · exact hAlong.1
      · obtain rfl : t = u := Option.some.inj (hFirst.symm.trans hStep)
        exact ih (hAlong.2 t hFirst) ⟨finish, hRest, hLast⟩ hTail

/-- A condition that keeps an invariant, and without which a property fails at once,
is exact for runs: the property holds throughout if and only if each step met it. -/
theorem throughout_iff {Fits Allowed : State → Label → Prop} (Inv Good : State → Prop)
    (hGood : ∀ s, Inv s → Good s)
    (hKeep : ∀ s label, Inv s → Fits s label → Allowed s label →
      ∀ t, step s label = some t → Inv t)
    (hBreak : ∀ s label, Inv s → Fits s label → ¬ Allowed s label →
      ∃ t, step s label = some t ∧ ¬ Good t)
    (labels : List Label) (hStart : Inv start) (hFits : Along step Fits start labels) :
    Throughout step Good start labels ↔ Along step Allowed start labels := by
  induction labels generalizing start with
  | nil =>
      constructor
      · intro _
        trivial
      · intro _
        exact hGood start hStart
  | cons label labels ih =>
      obtain ⟨hFit, hRest⟩ := hFits
      constructor
      · rintro ⟨-, hLater⟩
        have hAllowed : Allowed start label := by
          by_contra hNot
          obtain ⟨t, hOne, hBad⟩ := hBreak start label hStart hFit hNot
          exact hBad (hLater t hOne).head
        apply And.intro hAllowed
        intro t ht
        exact (ih (hKeep _ _ hStart hFit hAllowed t ht) (hRest t ht)).mp (hLater t ht)
      · rintro ⟨hAllowed, hLater⟩
        apply And.intro (hGood start hStart)
        intro t ht
        exact (ih (hKeep _ _ hStart hFit hAllowed t ht) (hRest t ht)).mpr (hLater t ht)

end Semantics
