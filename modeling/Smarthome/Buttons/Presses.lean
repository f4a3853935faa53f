import Smarthome.Buttons.Driver

/-! One event for one press: when a low period of a button leads to one event at most, and to
the one that its length calls for. -/
namespace Smarthome

/-- The event is one that the length of its low period calls for. -/
def ButtonEvent.Right (event : ButtonEvent) : Prop :=
  match event.kind with
  | .click => debounceInterval < event.time - event.lowSince ∧
      event.time - event.lowSince < longInterval
  | .longClick => longInterval ≤ event.time - event.lowSince

namespace ButtonDriver

/-- No low period has two events, and each event is right. -/
structure OneEvent (s : ButtonDriver) : Prop where
  once : s.events.Pairwise fun first second =>
    ¬ (first.button = second.button ∧ first.period = second.period)
  right : ∀ event ∈ s.events, event.Right

/-- There is an event that no length of its low period calls for. -/
def WrongEvent (s : ButtonDriver) : Prop := ∃ event ∈ s.events, ¬ event.Right

/-- What holds in every run. -/
structure Tracked (s : ButtonDriver) : Prop where
  lastState : ∀ button, s.buttonLastState button = s.pin button
  low : ∀ button, s.pin button = false → s.lowSince button ≤ s.clock ∧
    s.buttonLastLowTime button = s.lowSince button % 0x100000000
  running : ∀ since, s.longProcess = some since → since ≤ s.clock ∧
    s.clock ≤ since + longInterval ∧ since ≤ s.lowSince s.currentButtonLong
  past : ∀ event ∈ s.events, event.period ≤ s.period event.button
  current : ∀ event ∈ s.events, event.period = s.period event.button →
    s.pin event.button = false → event.lowSince = s.lowSince event.button ∧
      event.kind = .longClick ∧ event.time ≤ s.clock ∧
      (s.longProcess ≠ none → s.currentButtonLong ≠ event.button)

/-- A step with which nothing goes wrong. When the timer fires with the button down, the button
has been down since the process was started. When a button is released, the clock has not come
round to a difference that looks like a click. -/
def Allowed (s : ButtonDriver) : ButtonLabel → Prop
  | .edge button => s.pin button = false →
      debounceInterval < (s.clock - s.lowSince button) % 0x100000000 →
      (s.clock - s.lowSince button) % 0x100000000 < longInterval →
      s.clock - s.lowSince button < 0x100000000
  | _ => ∀ since, s.longProcess = some since → s.longTimerDue = true →
      s.pin s.currentButtonLong = false → s.lowSince s.currentButtonLong = since

theorem tracked_start : Tracked start where
  lastState := fun _ => rfl
  low := fun _ h => absurd h (by simp [start])
  running := fun _ h => absurd h (by simp [start])
  past := fun _ h => absurd h (by simp [start])
  current := fun _ h => absurd h (by simp [start])

section Report

variable {s : ButtonDriver} {button : Button} {kind : ClickKind}

theorem Tracked.processExit (h : Tracked s) : Tracked s.processExit where
  lastState := h.lastState
  low := h.low
  running := fun _ hSome => by cases hSome
  past := h.past
  current := fun event hMem hPeriod hLow => by
    obtain ⟨hSince, hKind, hTime, -⟩ := h.current event hMem hPeriod hLow
    exact ⟨hSince, hKind, hTime, fun hRunning => absurd rfl hRunning⟩

theorem mem_sensorsChanged {event : ButtonEvent}
    (h : event ∈ (s.sensorsChanged button kind).events) : event ∈ s.events ∨
      event = ⟨button, kind, s.period button, s.lowSince button, s.clock⟩ := by
  rw [sensorsChanged, List.mem_append, List.mem_singleton] at h
  exact h

/-- A click is reported of a button that is up, and anything when the process has ended. -/
theorem Tracked.sensorsChanged (h : Tracked s) (hStopped : s.longProcess = none)
    (hKind : s.pin button = false → kind = .longClick) :
    Tracked (s.sensorsChanged button kind) where
  lastState := h.lastState
  low := h.low
  running := h.running
  past := fun event hMem => by
    rcases mem_sensorsChanged hMem with hOld | rfl
    · exact h.past event hOld
    · exact Nat.le_refl _
  current := fun event hMem hPeriod hLow => by
    rcases mem_sensorsChanged hMem with hOld | rfl
    · exact h.current event hOld hPeriod hLow
    · exact ⟨rfl, hKind hLow, Nat.le_refl _, fun hRunning => absurd hStopped hRunning⟩

/-- The first event of a low period, if it is the right one, is no harm. -/
theorem OneEvent.sensorsChanged (h : OneEvent s)
    (hRight : ButtonEvent.Right ⟨button, kind, s.period button, s.lowSince button, s.clock⟩)
    (hFresh : ∀ event ∈ s.events, event.button = button → event.period ≠ s.period button) :
    OneEvent (s.sensorsChanged button kind) where
  once := by
    refine List.pairwise_append.mpr ⟨h.once, List.pairwise_singleton _ _, ?_⟩
    intro first hFirst second hSecond hSame
    obtain rfl := List.mem_singleton.mp hSecond
    exact hFresh first hFirst hSame.1 hSame.2
  right := fun event hMem => by
    rcases mem_sensorsChanged hMem with hOld | rfl
    · exact h.right event hOld
    · exact hRight

theorem wrongEvent_sensorsChanged
    (hWrong : ¬ ButtonEvent.Right ⟨button, kind, s.period button, s.lowSince button, s.clock⟩) :
    WrongEvent (s.sensorsChanged button kind) :=
  ⟨_, List.mem_append_right _ (List.mem_singleton_self _), hWrong⟩

end Report

section Resume

variable {s : ButtonDriver} {since : Nat}

/-- The timer is due when the clock is a long interval on. -/
theorem longTimerDue_iff (hSome : s.longProcess = some since) :
    s.longTimerDue = true ↔ longInterval ≤ s.clock - since := by
  rw [longTimerDue, hSome, Option.any_some, decide_eq_true_iff]

theorem exists_since (hDue : s.longTimerDue = true) : ∃ since, s.longProcess = some since := by
  cases hProcess : s.longProcess with
  | none =>
      rw [longTimerDue, hProcess] at hDue
      exact absurd hDue Bool.false_ne_true
  | some since => exact ⟨since, rfl⟩

/-- The process reports a button that is down, and ends. -/
theorem longProcessResume_low (hLow : s.pin s.currentButtonLong = false) :
    s.longProcessResume = s.processExit.sensorsChanged s.currentButtonLong .longClick :=
  if_pos hLow

theorem longProcessResume_high (hHigh : ¬ s.pin s.currentButtonLong = false) :
    s.longProcessResume = s.processExit :=
  if_neg hHigh

theorem Tracked.poll (h : Tracked s) : Tracked s.poll := by
  unfold ButtonDriver.poll
  split_ifs
  · by_cases hLow : s.pin s.currentButtonLong = false
    · rw [longProcessResume_low hLow]
      exact h.processExit.sensorsChanged rfl fun _ => rfl
    · rw [longProcessResume_high hLow]
      exact h.processExit
  · exact h

/-- After the timers have been looked at, the process is not due. -/
theorem poll_running (hSome : s.poll.longProcess = some since) :
    s.longProcess = some since ∧ s.clock - since < longInterval := by
  unfold ButtonDriver.poll at hSome
  split_ifs at hSome with hDue
  · by_cases hLow : s.pin s.currentButtonLong = false
    · rw [longProcessResume_low hLow] at hSome
      cases hSome
    · rw [longProcessResume_high hLow] at hSome
      cases hSome
  · rw [longTimerDue_iff hSome] at hDue
    exact ⟨hSome, Nat.lt_of_not_le hDue⟩

theorem poll_clock : s.poll.clock = s.clock := by
  unfold ButtonDriver.poll longProcessResume
  split_ifs
  · rfl
  · rfl
  · rfl

theorem Tracked.tick (h : Tracked s) : Tracked s.tick where
  lastState := h.poll.lastState
  low := fun button hLow => by
    obtain ⟨hSince, hTime⟩ := h.poll.low button hLow
    exact ⟨Nat.le_succ_of_le hSince, hTime⟩
  running := fun since hSome => by
    obtain ⟨hStart, -, hOwner⟩ := h.poll.running since hSome
    have hLess := (poll_running hSome).2
    have hClock : s.tick.clock = s.clock + 1 := congrArg (· + 1) poll_clock
    rw [poll_clock] at hStart
    rw [hClock]
    exact ⟨by omega, by omega, hOwner⟩
  past := h.poll.past
  current := fun event hMem hPeriod hLow => by
    obtain ⟨hSince, hKind, hTime, hOwner⟩ := h.poll.current event hMem hPeriod hLow
    exact ⟨hSince, hKind, Nat.le_succ_of_le hTime, hOwner⟩

/-- The long click of a button that has been down since the process was started. -/
theorem OneEvent.poll (hGood : OneEvent s) (h : Tracked s)
    (hAllowed : ∀ since, s.longProcess = some since → s.longTimerDue = true →
      s.pin s.currentButtonLong = false → s.lowSince s.currentButtonLong = since) :
    OneEvent s.poll := by
  unfold ButtonDriver.poll
  split_ifs with hDue
  · obtain ⟨since, hSome⟩ := exists_since hDue
    by_cases hLow : s.pin s.currentButtonLong = false
    · rw [longProcessResume_low hLow]
      have hSince := hAllowed since hSome hDue hLow
      rw [longTimerDue_iff hSome] at hDue
      refine OneEvent.sensorsChanged ⟨hGood.once, hGood.right⟩ ?_ fun event hMem hButton hPeriod => ?_
      · show longInterval ≤ s.clock - s.lowSince s.currentButtonLong
        rw [hSince]
        exact hDue
      · obtain ⟨-, -, -, hOwner⟩ := h.current event hMem (hButton ▸ hPeriod) (hButton ▸ hLow)
        exact hOwner (by simp [hSome]) hButton.symm
    · rw [longProcessResume_high hLow]
      exact ⟨hGood.once, hGood.right⟩
  · exact hGood

/-- The long click of a button that has been down for less than that. -/
theorem wrongEvent_poll (h : Tracked s)
    (hNot : ¬ ∀ since, s.longProcess = some since → s.longTimerDue = true →
      s.pin s.currentButtonLong = false → s.lowSince s.currentButtonLong = since) :
    WrongEvent s.poll := by
  push Not at hNot
  obtain ⟨since, hSome, hDue, hLow, hLater⟩ := hNot
  obtain ⟨hStart, hEnd, hOwner⟩ := h.running since hSome
  rw [ButtonDriver.poll, if_pos hDue, longProcessResume_low hLow]
  apply wrongEvent_sensorsChanged
  show ¬ longInterval ≤ s.clock - s.lowSince s.currentButtonLong
  have hLess : since < s.lowSince s.currentButtonLong := Nat.lt_of_le_of_ne hOwner hLater.symm
  simp only [longInterval] at hEnd ⊢
  omega

/-- What has been reported stays reported. -/
theorem WrongEvent.poll (h : WrongEvent s) : WrongEvent s.poll := by
  obtain ⟨event, hMem, hWrong⟩ := h
  refine ⟨event, ?_, hWrong⟩
  unfold ButtonDriver.poll longProcessResume
  split_ifs
  · exact List.mem_append_left _ hMem
  · exact hMem
  · exact hMem

end Resume

section Edge

variable {s : ButtonDriver} {button : Button}

/-- A falling edge. -/
theorem edge_high (hState : s.buttonLastState button = s.pin button)
    (hHigh : s.pin button = true) : s.edge button = (s.setPin button false).pressed button := by
  rw [hHigh] at hState
  simp [edge, buttonPressHandler, setPin, hHigh, hState]

/-- A rising edge. -/
theorem edge_low (hState : s.buttonLastState button = s.pin button)
    (hLow : s.pin button = false) : s.edge button = (s.setPin button true).released button := by
  rw [hLow] at hState
  simp [edge, buttonPressHandler, setPin, hLow, hState]

/-- The length of the low period, as far as 32 bits of it go. -/
theorem Tracked.lowTime_eq (h : Tracked s) (hLow : s.pin button = false) :
    s.lowTime button = (s.clock - s.lowSince button) % 0x100000000 := by
  obtain ⟨hSince, hTime⟩ := h.low button hLow
  rw [lowTime, clockTime, hTime]
  omega

/-- The process is started for a button that has just been pressed. -/
theorem Tracked.processStart (h : Tracked s) (hSince : s.lowSince button = s.clock)
    (hFresh : ∀ event ∈ s.events, event.button = button → event.period ≠ s.period button) :
    Tracked (s.processStart button) where
  lastState := h.lastState
  low := h.low
  running := fun since hSome => by
    obtain rfl := Option.some.inj hSome
    exact ⟨Nat.le_refl _, Nat.le_add_right _ _, Nat.le_of_eq hSince.symm⟩
  past := h.past
  current := fun event hMem hPeriod hLow => by
    obtain ⟨hEvent, hKind, hTime, -⟩ := h.current event hMem hPeriod hLow
    refine ⟨hEvent, hKind, hTime, fun _ hOwner => ?_⟩
    exact hFresh event hMem hOwner.symm (hPeriod.trans (congrArg s.period hOwner.symm))

/-- The handler has noted that the button is down. -/
theorem Tracked.down (h : Tracked s) : Tracked ((s.setPin button false).noteLow button) where
  lastState := fun other => by
    by_cases hSame : other = button
    · subst hSame
      simp [setPin, noteLow]
    · simpa [setPin, noteLow, hSame] using h.lastState other
  low := fun other hLow => by
    by_cases hSame : other = button
    · subst hSame
      simp [setPin, noteLow, clockTime]
    · simp only [setPin, noteLow, Function.update_of_ne hSame] at hLow ⊢
      exact h.low other hLow
  running := fun since hSome => by
    obtain ⟨hStart, hEnd, hOwner⟩ := h.running since hSome
    refine ⟨hStart, hEnd, ?_⟩
    by_cases hSame : s.currentButtonLong = button
    · simpa [setPin, noteLow, hSame] using hStart
    · simpa [setPin, noteLow, hSame] using hOwner
  past := fun event hMem => by
    have hPast := h.past event hMem
    by_cases hSame : event.button = button
    · rw [hSame] at hPast
      simpa [setPin, noteLow, hSame] using Nat.le_succ_of_le hPast
    · simpa [setPin, noteLow, hSame] using hPast
  current := fun event hMem hPeriod hLow => by
    by_cases hSame : event.button = button
    · have hPast := h.past event hMem
      simp only [setPin, noteLow, hSame, Function.update_self] at hPeriod hPast
      omega
    · simp only [setPin, noteLow, Function.update_of_ne hSame] at hPeriod hLow ⊢
      exact h.current event hMem hPeriod hLow

theorem Tracked.pressed (h : Tracked s) : Tracked ((s.setPin button false).pressed button) := by
  unfold ButtonDriver.pressed
  split_ifs
  · refine h.down.processStart (by simp [setPin, noteLow]) fun event hMem hButton hPeriod => ?_
    have hPast := h.past event hMem
    simp only [setPin, noteLow, hButton, Function.update_self] at hPeriod hPast
    omega
  · exact h.down

theorem pressed_events : (s.pressed button).events = s.events := by
  unfold ButtonDriver.pressed
  split_ifs
  · rfl
  · rfl

/-- Nothing is known of a button that is up. -/
theorem Tracked.up (h : Tracked s) : Tracked ((s.setPin button true).noteHigh button) where
  lastState := fun other => by
    by_cases hSame : other = button
    · subst hSame
      simp [setPin, noteHigh]
    · simpa [setPin, noteHigh, hSame] using h.lastState other
  low := fun other hLow => by
    by_cases hSame : other = button
    · subst hSame
      simp [setPin, noteHigh] at hLow
    · simp only [setPin, noteHigh, Function.update_of_ne hSame] at hLow
      exact h.low other hLow
  running := h.running
  past := h.past
  current := fun event hMem hPeriod hLow => by
    by_cases hSame : event.button = button
    · subst hSame
      simp [setPin, noteHigh] at hLow
    · simp only [setPin, noteHigh, Function.update_of_ne hSame] at hLow
      exact h.current event hMem hPeriod hLow

theorem Tracked.released (h : Tracked s) : Tracked ((s.setPin button true).released button) := by
  unfold ButtonDriver.released
  split_ifs
  · exact h.up.processExit.sensorsChanged rfl fun hLow =>
      absurd hLow (by simp [ButtonDriver.processExit, noteHigh, setPin])
  · exact h.up

theorem Tracked.edge (h : Tracked s) : Tracked (s.edge button) := by
  cases hPin : s.pin button with
  | true =>
      rw [edge_high (h.lastState button) hPin]
      exact h.pressed
  | false =>
      rw [edge_low (h.lastState button) hPin]
      exact h.released

/-- What a rising edge does: there is a click when the low period looks like one. -/
theorem edge_events (h : Tracked s) (hLow : s.pin button = false) : (s.edge button).events =
    if debounceInterval < (s.clock - s.lowSince button) % 0x100000000 ∧
        (s.clock - s.lowSince button) % 0x100000000 < longInterval then
      (s.sensorsChanged button .click).events else s.events := by
  rw [edge_low (h.lastState button) hLow, ← h.lowTime_eq hLow]
  unfold ButtonDriver.released
  split_ifs with hClick hSame hSame
  · rfl
  · exact absurd hClick hSame
  · exact absurd hSame hClick
  · rfl

/-- No click has been reported of the low period of a button that is down, and no long click if
that period is still short. -/
theorem fresh_of_short (hGood : OneEvent s) (h : Tracked s) (hLow : s.pin button = false)
    (hShort : s.clock - s.lowSince button < longInterval) :
    ∀ event ∈ s.events, event.button = button → event.period ≠ s.period button := by
  rintro event hMem rfl hPeriod
  obtain ⟨hSince, hKind, hTime, -⟩ := h.current event hMem hPeriod hLow
  have hRight := hGood.right event hMem
  simp only [ButtonEvent.Right, hKind, hSince] at hRight
  omega

theorem OneEvent.edge (hGood : OneEvent s) (h : Tracked s) (hAllowed : Allowed s (.edge button)) :
    OneEvent (s.edge button) := by
  cases hPin : s.pin button with
  | true =>
      have hEvents : (s.edge button).events = s.events := by
        rw [edge_high (h.lastState button) hPin, pressed_events]
        rfl
      exact ⟨hEvents ▸ hGood.once, hEvents ▸ hGood.right⟩
  | false =>
      have hEvents := edge_events h hPin
      split_ifs at hEvents with hClick
      · have hLess := hAllowed hPin hClick.1 hClick.2
        rw [Nat.mod_eq_of_lt hLess] at hClick
        have hNew : OneEvent (s.sensorsChanged button .click) :=
          hGood.sensorsChanged hClick (fresh_of_short hGood h hPin hClick.2)
        exact ⟨hEvents ▸ hNew.once, hEvents ▸ hNew.right⟩
      · exact ⟨hEvents ▸ hGood.once, hEvents ▸ hGood.right⟩

/-- The click of a low period so long that the clock has come round. -/
theorem wrongEvent_edge (h : Tracked s) (hNot : ¬ Allowed s (.edge button)) :
    WrongEvent (s.edge button) := by
  simp only [Allowed] at hNot
  push Not at hNot
  obtain ⟨hLow, hOver, hUnder, hLong⟩ := hNot
  have hEvents := edge_events h hLow
  rw [if_pos ⟨hOver, hUnder⟩] at hEvents
  obtain ⟨event, hMem, hWrong⟩ : WrongEvent (s.sensorsChanged button .click) := by
    apply wrongEvent_sensorsChanged
    simp only [ButtonEvent.Right, longInterval]
    omega
  exact ⟨event, hEvents ▸ hMem, hWrong⟩

theorem WrongEvent.edge (h : WrongEvent s) (hTracked : Tracked s) : WrongEvent (s.edge button) := by
  obtain ⟨event, hMem, hWrong⟩ := h
  refine ⟨event, ?_, hWrong⟩
  cases hPin : s.pin button with
  | true =>
      rw [edge_high (hTracked.lastState button) hPin, pressed_events]
      exact hMem
  | false =>
      rw [edge_events hTracked hPin]
      split_ifs
      · exact List.mem_append_left _ hMem
      · exact hMem

end Edge

section Runs

variable {s t : ButtonDriver} {label : ButtonLabel}

theorem Tracked.step (h : Tracked s) (hStep : s.step label = some t) : Tracked t := by
  cases label with
  | tick =>
      obtain rfl := Option.some.inj hStep
      exact h.tick
  | poll =>
      obtain rfl := Option.some.inj hStep
      exact h.poll
  | edge button =>
      obtain rfl := Option.some.inj hStep
      exact h.edge

theorem OneEvent.step (hGood : OneEvent s) (h : Tracked s) (hAllowed : Allowed s label) :
    ∃ t, s.step label = some t ∧ OneEvent t := by
  cases label with
  | tick =>
      have hPoll := hGood.poll h hAllowed
      exact ⟨s.tick, rfl, hPoll.once, hPoll.right⟩
  | poll => exact ⟨s.poll, rfl, hGood.poll h hAllowed⟩
  | edge button => exact ⟨s.edge button, rfl, hGood.edge h hAllowed⟩

theorem wrongEvent_step (h : Tracked s) (hNot : ¬ Allowed s label)
    (hStep : s.step label = some t) : WrongEvent t := by
  cases label with
  | tick =>
      obtain rfl := Option.some.inj hStep
      exact wrongEvent_poll h hNot
  | poll =>
      obtain rfl := Option.some.inj hStep
      exact wrongEvent_poll h hNot
  | edge button =>
      obtain rfl := Option.some.inj hStep
      exact wrongEvent_edge h hNot

theorem WrongEvent.step (hWrong : WrongEvent s) (h : Tracked s) (hStep : s.step label = some t) :
    WrongEvent t := by
  cases label with
  | tick =>
      obtain rfl := Option.some.inj hStep
      exact hWrong.poll
  | poll =>
      obtain rfl := Option.some.inj hStep
      exact hWrong.poll
  | edge button =>
      obtain rfl := Option.some.inj hStep
      exact hWrong.edge h

theorem oneEvent_start : OneEvent start where
  once := List.Pairwise.nil
  right := fun _ hMem => absurd hMem List.not_mem_nil

end Runs

/-- **One press, one event.** In a run of edges, timers and ticks, each low period leads to one
event at most and to no event that its length does not call for, if and only if the long-press
timer never fires with the button down for less time than the timer has run, and no release is
so late that the clock of 32 bits has come round to a short difference. -/
theorem one_press_one_event_iff (labels : List ButtonLabel) :
    (∃ t, Semantics.runAll step start labels = some t ∧ OneEvent t) ↔
      Semantics.Along step Allowed start labels :=
  Semantics.runAll_good_iff Tracked OneEvent WrongEvent
    (fun _ _ _ h hStep => h.step hStep) (fun _ _ h hGood hAllowed => hGood.step h hAllowed)
    (fun _ _ _ h _ hNot hStep => wrongEvent_step h hNot hStep)
    (fun _ _ _ h hWrong hStep => hWrong.step h hStep)
    (fun _ ⟨event, hMem, hWrong⟩ hGood => hWrong (hGood.right event hMem))
    labels tracked_start oneEvent_start

/-- A bounce of seven ticks, and a press after it that the timer of the bounce takes for a long
one. Its release is a click as well. -/
def bounceAndPress : List ButtonLabel :=
  [.edge .a] ++ List.replicate 7 .tick ++ [.edge .a] ++ List.replicate 50 .tick ++ [.edge .a] ++
    List.replicate 36 .tick ++ [.edge .a]

theorem bounceAndPress_events :
    (Semantics.runAll step start bounceAndPress).map ButtonDriver.events =
      some [⟨.a, .longClick, 2, 57, 92⟩, ⟨.a, .click, 2, 57, 93⟩] := by
  decide +kernel

/-- A press of 36 ticks is reported as a long one and as a click. -/
theorem one_press_one_event_fails :
    ¬ ∀ labels, ∃ t, Semantics.runAll step start labels = some t ∧ OneEvent t := by
  intro hAll
  obtain ⟨t, hRun, hGood⟩ := hAll bounceAndPress
  have hEvents := bounceAndPress_events
  rw [hRun] at hEvents
  have hOnce := hGood.once
  rw [Option.some.inj hEvents] at hOnce
  exact List.rel_of_pairwise_cons hOnce (List.mem_singleton_self _) ⟨rfl, rfl⟩

end ButtonDriver

end Smarthome
