import Smarthome.Buttons.Presses

/-! Buttons and each other: when the events of a button are those that the driver would report
if there were no other button. -/
namespace Smarthome

/-- A driver that has one button only, with a timer of its own. -/
structure OneButton where
  button : Button
  clock : Nat
  pin : Bool
  lastLowTime : Nat
  lastState : Bool
  process : Option Nat
  lowSince : Nat
  period : Nat
  events : List ButtonEvent

namespace OneButton

def report (u : OneButton) (kind : ClickKind) : OneButton :=
  { u with events := u.events ++ [⟨u.button, kind, u.period, u.lowSince, u.clock⟩] }

def due (u : OneButton) : Bool :=
  u.process.any fun since => decide (longInterval ≤ u.clock - since)

def poll (u : OneButton) : OneButton :=
  if u.due = true then
    if u.pin = false then { u with process := none }.report .longClick
    else { u with process := none }
  else u

def tick (u : OneButton) : OneButton := { u.poll with clock := u.poll.clock + 1 }

/-- The button has been down for so long. -/
def lowTime (u : OneButton) : Nat :=
  (u.clock % 0x100000000 + 0x100000000 - u.lastLowTime) % 0x100000000

def press (u : OneButton) : OneButton :=
  { u with
    lastState := false
    lastLowTime := u.clock % 0x100000000
    lowSince := u.clock
    period := u.period + 1
    process := if u.process = none then some u.clock else u.process }

def release (u : OneButton) : OneButton :=
  if u.lowTime > debounceInterval ∧ u.lowTime < longInterval then
    { u with lastState := true, process := none }.report .click
  else { u with lastState := true }

def setPin (u : OneButton) (high : Bool) : OneButton := { u with pin := high }

/-- After a lost interrupt the pin comes to be as it is remembered. -/
def edge (u : OneButton) : OneButton :=
  if u.lastState ≠ u.pin then u.setPin !u.pin
  else if u.pin = true then (u.setPin false).press
  else (u.setPin true).release

/-- The edges of other buttons are not there. -/
def step (u : OneButton) : ButtonLabel → OneButton
  | .tick => u.tick
  | .poll => u.poll
  | .edge button => if button = u.button then u.edge else u

def run (u : OneButton) (labels : List ButtonLabel) : OneButton := labels.foldl step u

end OneButton

namespace ButtonDriver

/-- What the driver knows of a button. -/
def only (s : ButtonDriver) (button : Button) : OneButton where
  button := button
  clock := s.clock
  pin := s.pin button
  lastLowTime := s.buttonLastLowTime button
  lastState := s.buttonLastState button
  process := if s.currentButtonLong = button then s.longProcess else none
  lowSince := s.lowSince button
  period := s.period button
  events := s.events.filter fun event => event.button = button

/-- A step by which the other buttons do not disturb this one. The process does not run for
another button when this one is pressed, and when it runs for this one, no other is clicked. -/
def Undisturbed (button : Button) (s : ButtonDriver) : ButtonLabel → Prop
  | .edge other =>
      if other = button then
        s.pin button = true → s.longProcess ≠ none → s.currentButtonLong = button
      else s.pin other = false → debounceInterval < s.lowTime other →
        s.lowTime other < longInterval → s.longProcess ≠ none → s.currentButtonLong ≠ button
  | _ => True

instance (button : Button) (s : ButtonDriver) :
    (label : ButtonLabel) → Decidable (Undisturbed button s label)
  | .tick => isTrue trivial
  | .poll => isTrue trivial
  | .edge other => inferInstanceAs (Decidable (if other = button then
        s.pin button = true → s.longProcess ≠ none → s.currentButtonLong = button
      else s.pin other = false → debounceInterval < s.lowTime other →
        s.lowTime other < longInterval → s.longProcess ≠ none → s.currentButtonLong ≠ button))

section Step

variable {s : ButtonDriver} {button other : Button} {kind : ClickKind}

theorem only_sensorsChanged_self :
    (s.sensorsChanged button kind).only button = (s.only button).report kind := by
  have hEvents : (s.sensorsChanged button kind).events.filter (fun event => event.button = button) =
      (s.only button).events ++ [⟨button, kind, s.period button, s.lowSince button, s.clock⟩] := by
    simp [only, sensorsChanged]
  rw [only, hEvents]
  rfl

theorem only_sensorsChanged_other (hOther : other ≠ button) :
    (s.sensorsChanged other kind).only button = s.only button := by
  have hEvents : (s.sensorsChanged other kind).events.filter (fun event => event.button = button) =
      (s.only button).events := by
    simp [only, sensorsChanged, hOther]
  rw [only, hEvents]
  rfl

theorem only_processExit :
    s.processExit.only button = { s.only button with process := none } := by
  have hProcess : (if s.currentButtonLong = button then (none : Option Nat) else none) = none :=
    ite_self none
  exact congrArg (fun process => { s.only button with process := process }) hProcess

/-- The process that runs for this button is due in the one when it is due in the other. -/
theorem only_due (hOwner : s.currentButtonLong = button) :
    (s.only button).due = s.longTimerDue := by
  rw [OneButton.due, only, if_pos hOwner]
  rfl

theorem only_not_due (hOwner : s.currentButtonLong ≠ button) : (s.only button).due = false := by
  rw [OneButton.due, only, if_neg hOwner]
  rfl

theorem only_exit_other (hOwner : s.currentButtonLong ≠ button) :
    s.processExit.only button = s.only button := by
  have hProcess : (s.only button).process = none := if_neg hOwner
  rw [only_processExit, ← hProcess]

theorem only_poll : s.poll.only button = (s.only button).poll := by
  unfold ButtonDriver.poll OneButton.poll
  by_cases hOwner : s.currentButtonLong = button
  · rw [only_due hOwner]
    by_cases hDue : s.longTimerDue = true
    · rw [if_pos hDue, if_pos hDue]
      by_cases hLow : s.pin s.currentButtonLong = false
      · have hPin : (s.only button).pin = false := hOwner ▸ hLow
        rw [longProcessResume_low hLow, if_pos hPin, hOwner, only_sensorsChanged_self,
          only_processExit]
      · have hPin : ¬ (s.only button).pin = false := hOwner ▸ hLow
        rw [longProcessResume_high hLow, if_neg hPin, only_processExit]
    · rw [if_neg hDue, if_neg hDue]
  · rw [only_not_due hOwner, if_neg Bool.false_ne_true]
    split_ifs
    · by_cases hLow : s.pin s.currentButtonLong = false
      · rw [longProcessResume_low hLow, only_sensorsChanged_other hOwner, only_exit_other hOwner]
      · rw [longProcessResume_high hLow, only_exit_other hOwner]
    · rfl

theorem only_tick : s.tick.only button = (s.only button).tick := by
  have hPoll : s.poll.only button = (s.only button).poll := only_poll
  rw [OneButton.tick, ← hPoll]
  rfl

/-- A falling edge. The process is started in the one when it is started in the other. -/
theorem only_pressed (hOwner : s.longProcess ≠ none → s.currentButtonLong = button) :
    (s.pressed button).only button = (s.only button).press := by
  unfold pressed OneButton.press
  by_cases hProcess : s.longProcess = none
  · have hNone : (s.only button).process = none := by simp [only, hProcess]
    rw [if_pos hProcess, if_pos hNone]
    simp [only, processStart, noteLow, clockTime]
  · have hSame : (s.only button).process = s.longProcess := if_pos (hOwner hProcess)
    rw [if_neg hProcess, hSame, if_neg hProcess]
    simp [only, noteLow, clockTime, hOwner hProcess]

theorem only_noteHigh :
    (s.noteHigh button).only button = { s.only button with lastState := true } := by
  simp only [only, noteHigh, Function.update_self]
  rfl

theorem only_released : (s.released button).only button = (s.only button).release := by
  have hTime : (s.only button).lowTime = s.lowTime button := rfl
  unfold released OneButton.release
  rw [hTime]
  split_ifs
  · rw [only_sensorsChanged_self, only_processExit, only_noteHigh]
  · rw [only_noteHigh]

theorem only_setPin {high : Bool} :
    (s.setPin button high).only button = (s.only button).setPin high := by
  simp only [only, setPin, Function.update_self]
  rfl

/-- An edge after an interrupt was lost leaves the pin as the driver remembers it. -/
theorem edge_unchanged (hState : s.buttonLastState button ≠ s.pin button) :
    s.edge button = s.setPin button (!s.pin button) := by
  have hSame : s.buttonLastState button = !s.pin button := by
    cases hPin : s.pin button with
    | true => simpa [hPin] using hState
    | false => simpa [hPin] using hState
  simp [edge, buttonPressHandler, setPin, hSame]

/-- An edge of this button. -/
theorem only_edge (hOwner : s.pin button = true → s.longProcess ≠ none →
    s.currentButtonLong = button) : (s.edge button).only button = (s.only button).edge := by
  have hPinOnly : (s.only button).pin = s.pin button := rfl
  have hStateOnly : (s.only button).lastState = s.buttonLastState button := rfl
  unfold OneButton.edge
  rw [hPinOnly, hStateOnly]
  by_cases hState : s.buttonLastState button = s.pin button
  · rw [if_neg (not_not_intro hState)]
    cases hPin : s.pin button with
    | true =>
        have hProcess : (s.setPin button false).longProcess ≠ none →
            (s.setPin button false).currentButtonLong = button := hOwner hPin
        rw [edge_high hState hPin, only_pressed hProcess, only_setPin, if_pos rfl]
    | false =>
        rw [edge_low hState hPin, only_released, only_setPin, if_neg Bool.false_ne_true]
  · rw [edge_unchanged hState, only_setPin, if_pos hState]

theorem only_setPin_other (hOther : other ≠ button) {high : Bool} :
    (s.setPin other high).only button = s.only button := by
  simp only [only, setPin, Function.update_of_ne hOther.symm]
  rfl

theorem only_pressed_other (hOther : other ≠ button) :
    (s.pressed other).only button = s.only button := by
  unfold pressed
  split_ifs with hProcess
  · have hNone : (s.only button).process = none := by simp [only, hProcess]
    simp [only, processStart, noteLow, hOther, hOther.symm, hProcess]
  · simp only [only, noteLow, Function.update_of_ne hOther.symm]
    rfl

theorem only_released_other (hOther : other ≠ button) (hClick : debounceInterval < s.lowTime other →
    s.lowTime other < longInterval → s.longProcess ≠ none → s.currentButtonLong ≠ button) :
    (s.released other).only button = s.only button := by
  have hNote : (s.noteHigh other).only button = s.only button := by
    simp only [only, noteHigh, Function.update_of_ne hOther.symm]
    rfl
  unfold released
  split_ifs with hTime
  · have hProcess : (s.only button).process = none := by
      by_cases hRunning : s.longProcess = none
      · simp [only, hRunning]
      · exact if_neg (hClick hTime.1 hTime.2 hRunning)
    rw [only_sensorsChanged_other hOther, only_processExit, hNote, ← hProcess]
  · exact hNote

/-- An edge of another button that does not click while the process runs for this one. -/
theorem only_edge_other (hOther : other ≠ button)
    (hClick : s.pin other = false → debounceInterval < s.lowTime other →
      s.lowTime other < longInterval → s.longProcess ≠ none → s.currentButtonLong ≠ button) :
    (s.edge other).only button = s.only button := by
  by_cases hState : s.buttonLastState other = s.pin other
  · cases hPin : s.pin other with
    | true => rw [edge_high hState hPin, only_pressed_other hOther, only_setPin_other hOther]
    | false =>
        have hReleased : debounceInterval < (s.setPin other true).lowTime other →
            (s.setPin other true).lowTime other < longInterval →
            (s.setPin other true).longProcess ≠ none →
            (s.setPin other true).currentButtonLong ≠ button := hClick hPin
        rw [edge_low hState hPin, only_released_other hOther hReleased, only_setPin_other hOther]
  · rw [edge_unchanged hState, only_setPin_other hOther]

end Step

section Runs

variable {s t : ButtonDriver} {button : Button} {label : ButtonLabel}

/-- An undisturbed step is what the driver of this button alone does. -/
theorem only_step (h : Undisturbed button s label) (hStep : s.step label = some t) :
    t.only button = (s.only button).step label := by
  cases label with
  | tick =>
      obtain rfl := Option.some.inj hStep
      exact only_tick
  | poll =>
      obtain rfl := Option.some.inj hStep
      exact only_poll
  | edge other =>
      obtain rfl := Option.some.inj hStep
      have hButton : (s.only button).button = button := rfl
      simp only [Undisturbed] at h
      simp only [OneButton.step, hButton]
      by_cases hSame : other = button
      · subst hSame
        rw [if_pos rfl] at h ⊢
        exact only_edge h
      · rw [if_neg hSame] at h ⊢
        exact only_edge_other hSame h

/-- A run in which the other buttons do not disturb this one is, for this one, the run of a
driver that has no other. -/
theorem only_run {labels : List ButtonLabel}
    (h : Semantics.Along step (Undisturbed button) s labels) :
    ∃ t, Semantics.runAll step s labels = some t ∧
      t.only button = (s.only button).run labels := by
  induction labels generalizing s with
  | nil => exact ⟨s, rfl, rfl⟩
  | cons label labels ih =>
      obtain ⟨t, hStep⟩ : ∃ t, s.step label = some t := by
        cases label with
        | tick => exact ⟨_, rfl⟩
        | poll => exact ⟨_, rfl⟩
        | edge other => exact ⟨_, rfl⟩
      obtain ⟨finish, hRun, hOnly⟩ := ih (h.2 t hStep)
      refine ⟨finish, ?_, ?_⟩
      · rw [Semantics.runAll, hStep]
        exact hRun
      · rw [hOnly, only_step h.1 hStep]
        rfl

end Runs

end ButtonDriver

/-- The labels that a button is concerned with: its own edges and the time. -/
def ButtonLabel.concerns (button : Button) : ButtonLabel → Bool
  | .edge other => other = button
  | _ => true

namespace OneButton

theorem poll_button (u : OneButton) : u.poll.button = u.button := by
  unfold poll
  split_ifs
  · rfl
  · rfl
  · rfl

theorem edge_button (u : OneButton) : u.edge.button = u.button := by
  unfold edge release
  split_ifs
  · rfl
  · rfl
  · rfl
  · rfl

theorem button_step (u : OneButton) (label : ButtonLabel) : (u.step label).button = u.button := by
  cases label with
  | tick => exact poll_button u
  | poll => exact poll_button u
  | edge other =>
      simp only [step]
      split_ifs
      · exact edge_button u
      · rfl

/-- A driver of one button does not see the edges of others. -/
theorem run_filter (u : OneButton) (labels : List ButtonLabel) :
    u.run (labels.filter (ButtonLabel.concerns u.button)) = u.run labels := by
  induction labels generalizing u with
  | nil => rfl
  | cons label labels ih =>
      cases hConcerns : label.concerns u.button with
      | true =>
          have hRest := ih (u.step label)
          rw [button_step] at hRest
          rw [List.filter_cons_of_pos hConcerns]
          exact hRest
      | false =>
          have hStep : u.step label = u := by
            cases label with
            | tick => cases hConcerns
            | poll => cases hConcerns
            | edge other => exact if_neg (of_decide_eq_false hConcerns)
          rw [List.filter_cons_of_neg (by simp [hConcerns]), ih u, run, run, List.foldl_cons, hStep]

end OneButton

namespace ButtonDriver

/-- **Buttons do not interfere.** Of two runs in which a button has the same edges at the same
times, and in which no other button disturbs it, the events of the button are the same. -/
theorem events_eq_of_undisturbed (button : Button) (first second : List ButtonLabel)
    (hSame : first.filter (ButtonLabel.concerns button) =
      second.filter (ButtonLabel.concerns button))
    (hFirst : Semantics.Along step (Undisturbed button) start first)
    (hSecond : Semantics.Along step (Undisturbed button) start second) :
    ∃ s t, Semantics.runAll step start first = some s ∧
      Semantics.runAll step start second = some t ∧
      s.events.filter (fun event => event.button = button) =
        t.events.filter (fun event => event.button = button) := by
  obtain ⟨s, hRunFirst, hOnlyFirst⟩ := only_run hFirst
  obtain ⟨t, hRunSecond, hOnlySecond⟩ := only_run hSecond
  refine ⟨s, t, hRunFirst, hRunSecond, ?_⟩
  have hRuns : s.only button = t.only button := by
    rw [hOnlyFirst, hOnlySecond, ← OneButton.run_filter _ first, ← OneButton.run_filter _ second]
    exact congrArg (OneButton.run _) hSame
  exact congrArg OneButton.events hRuns

/-- A click of one button, and the same with another that is pressed and released after it. -/
def clickA : List ButtonLabel := [.edge .a] ++ List.replicate 20 .tick ++ [.edge .a]

def clickAThenB : List ButtonLabel :=
  [.edge .a, .edge .b] ++ List.replicate 20 .tick ++ [.edge .a, .edge .b]

theorem events_eq_clickA : ∃ s t, Semantics.runAll step start clickA = some s ∧
    Semantics.runAll step start clickAThenB = some t ∧
    s.events.filter (fun event => event.button = .a) =
      t.events.filter (fun event => event.button = .a) :=
  events_eq_of_undisturbed .a clickA clickAThenB (by decide +kernel) (by decide +kernel)
    (by decide +kernel)

/-- A button that is held for a long interval, and the same after another has been pressed. -/
def holdA : List ButtonLabel := [.edge .a] ++ List.replicate 92 .tick ++ [.poll]

def holdAAfterB : List ButtonLabel := .edge .b :: holdA

theorem holdA_events :
    (Semantics.runAll step start holdA).map (fun s =>
      s.events.filter (fun event => event.button = .a)) = some [⟨.a, .longClick, 1, 0, 92⟩] ∧
    (Semantics.runAll step start holdAAfterB).map (fun s =>
      s.events.filter (fun event => event.button = .a)) = some [] := by
  decide +kernel

/-- The long click of a button is lost when another was pressed before it. -/
theorem buttons_interfere : ¬ ∀ button first second,
    first.filter (ButtonLabel.concerns button) = second.filter (ButtonLabel.concerns button) →
    ∃ s t, Semantics.runAll step start first = some s ∧
      Semantics.runAll step start second = some t ∧
      s.events.filter (fun event => event.button = button) =
        t.events.filter (fun event => event.button = button) := by
  intro hAll
  obtain ⟨s, t, hFirst, hSecond, hEvents⟩ := hAll .a holdA holdAAfterB (by decide +kernel)
  obtain ⟨hLong, hNone⟩ := holdA_events
  rw [hFirst] at hLong
  rw [hSecond] at hNone
  have hLongEvents : s.events.filter (fun event => event.button = .a) = [_] :=
    Option.some.inj hLong
  have hNoEvents : t.events.filter (fun event => event.button = .a) = [] := Option.some.inj hNone
  rw [hEvents, hNoEvents] at hLongEvents
  exact List.cons_ne_nil _ _ hLongEvents.symm

end ButtonDriver

end Smarthome
