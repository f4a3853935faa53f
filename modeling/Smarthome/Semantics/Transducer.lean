import Mathlib.Data.List.Basic

/-! Deterministic machines which read one symbol at a time and may report an
event at each symbol. Nothing here fixes an alphabet, a state or an event type. -/
namespace Semantics

structure Transducer (State Symbol Event : Type*) where
  step : State → Symbol → State × Option Event

namespace Transducer

variable {State Symbol Event : Type*} (machine : Transducer State Symbol Event)

/-- The state after a whole word. -/
def after (start : State) (word : List Symbol) : State :=
  word.foldl (fun s a => (machine.step s a).1) start

/-- The events reported while a word is read, oldest first. -/
def emitted : State → List Symbol → List Event
  | _, [] => []
  | start, a :: word =>
      (machine.step start a).2.toList ++ emitted (machine.step start a).1 word

@[simp] theorem after_nil (start : State) : machine.after start [] = start := rfl

@[simp] theorem after_cons (start : State) (a : Symbol) (word : List Symbol) :
    machine.after start (a :: word) = machine.after (machine.step start a).1 word := rfl

@[simp] theorem emitted_nil (start : State) : machine.emitted start [] = [] := rfl

theorem emitted_cons (start : State) (a : Symbol) (word : List Symbol) :
    machine.emitted start (a :: word) =
      (machine.step start a).2.toList ++ machine.emitted (machine.step start a).1 word := rfl

theorem after_append (start : State) (first second : List Symbol) :
    machine.after start (first ++ second) = machine.after (machine.after start first) second :=
  List.foldl_append

/-- A word cut anywhere reports the same events as the two parts in turn. -/
theorem emitted_append (start : State) (first second : List Symbol) :
    machine.emitted start (first ++ second) =
      machine.emitted start first ++ machine.emitted (machine.after start first) second := by
  induction first generalizing start with
  | nil => rfl
  | cons a word ih => simp only [List.cons_append, emitted_cons, after_cons, ih, List.append_assoc]

/-- A predicate kept by every step holds after every word. -/
theorem after_invariant {Inv : State → Prop} (start : State) (hStart : Inv start)
    (hStep : ∀ s a, Inv s → Inv (machine.step s a).1) (word : List Symbol) :
    Inv (machine.after start word) := by
  induction word generalizing start with
  | nil => exact hStart
  | cons a word ih => exact ih _ (hStep start a hStart)

/-- What every step reports from a state with the invariant holds of every event. -/
theorem forall_mem_emitted {Inv : State → Prop} (Good : Event → Prop)
    (hStep : ∀ s a, Inv s → Inv (machine.step s a).1)
    (hEvent : ∀ s a e, Inv s → (machine.step s a).2 = some e → Good e)
    (word : List Symbol) (start : State) (hStart : Inv start) :
    ∀ e ∈ machine.emitted start word, Good e := by
  induction word generalizing start with
  | nil => simp
  | cons a word ih =>
      intro e hMem
      rw [emitted_cons, List.mem_append, Option.mem_toList] at hMem
      rcases hMem with hNow | hLater
      · exact hEvent start a e hStart hNow
      · exact ih _ (hStep start a hStart) e hLater

/-- Blocks that each start and end in `Rest` may be read one after the other.
What is observed of the events of a block then does not depend on the blocks before it. -/
theorem observed_flatMap (Rest : State → Prop) {Block Observation : Type*}
    (observe : Event → Observation) (word : Block → List Symbol)
    (observation : Block → List Observation) (blocks : List Block)
    (hBlock : ∀ b ∈ blocks, ∀ s, Rest s → (machine.emitted s (word b)).map observe = observation b ∧
      Rest (machine.after s (word b)))
    (start : State) (hStart : Rest start) :
    (machine.emitted start (blocks.flatMap word)).map observe = blocks.flatMap observation ∧
      Rest (machine.after start (blocks.flatMap word)) := by
  induction blocks generalizing start with
  | nil => exact ⟨rfl, hStart⟩
  | cons b blocks ih =>
      obtain ⟨hEvent, hRest⟩ := hBlock b (List.mem_cons_self ..) start hStart
      obtain ⟨hEvents, hLast⟩ := ih (fun c hMem => hBlock c (List.mem_cons_of_mem _ hMem)) _ hRest
      simp only [List.flatMap_cons, emitted_append, after_append, List.map_append]
      exact ⟨by rw [hEvent, hEvents], hLast⟩

end Transducer
end Semantics
