import Smarthome.Csma.Driver
import Smarthome.Semantics.Runs

/-! `radio_power.c`: the radio of a node on batteries is off between its messages. The mode
is looked at when a call is made, and not again when the timer that a call has set expires. -/
namespace Smarthome.Node

open Csma Semantics

abbrev classB : Byte := 0x0B

abbrev radioOffOnTimer : Byte := 0x01
abbrev radioOffNow : Byte := 0x02
abbrev radioOnNormal : Byte := 0x01
abbrev radioOnTimerOff : Byte := 0x02
abbrev radioHold : Byte := 0x01
abbrev radioFreedom : Byte := 0x02

/-- `UIP_DS6_PERIOD`, as the nodes of this class define it. -/
def uipDs6Period : Nat := clockSecond

/-- A call of `NETSTACK_MAC.on` or `NETSTACK_MAC.off`, with the `radio_mode` at that time. -/
structure RadioSwitch where
  isOn : Bool
  radioMode : Byte
  deriving DecidableEq

/-- The variables of the file, whether `net_off_timer` is in the list of the timers, and
`uip_ds_6_interval`. No code reads `switches`, which has the last switch first. -/
structure RadioPower where
  radioMode : Byte
  netOffTimer : Bool
  interval : Nat
  switches : List RadioSwitch
  deriving DecidableEq

namespace RadioPower

/-- What the variables start from. -/
def boot : RadioPower := ⟨0, false, uipDs6Period, []⟩

/-- `NETSTACK_MAC.on()` and `NETSTACK_MAC.off(0)`. -/
def netstackMac (radio : RadioPower) (isOn : Bool) : RadioPower :=
  { radio with switches := ⟨isOn, radio.radioMode⟩ :: radio.switches }

/-- `uip_ds_6_interval_set`. -/
def uipDs6IntervalSet (radio : RadioPower) (interval : Nat) : RadioPower := { radio with interval }

/-- `ctimer_reset` and `ctimer_set`, of which each puts the timer into the list. -/
def ctimerSet (radio : RadioPower) : RadioPower := { radio with netOffTimer := true }

def ctimerStop (radio : RadioPower) : RadioPower := { radio with netOffTimer := false }

def netOff (nodeClass mode : Byte) (radio : RadioPower) : RadioPower :=
  if nodeClass = classB then
    let radio := radio.uipDs6IntervalSet (clockSecond * 20)
    let radio :=
      if mode = radioOffOnTimer ∧ radio.radioMode = radioFreedom then radio.ctimerSet else radio
    if mode = radioOffNow ∧ radio.radioMode = radioFreedom then
      radio.ctimerStop.netstackMac false
    else radio
  else radio

def netOn (nodeClass mode : Byte) (radio : RadioPower) : RadioPower :=
  if nodeClass = classB then
    let radio :=
      if mode = radioOnNormal ∧ radio.radioMode = radioFreedom then
        (radio.netstackMac true).uipDs6IntervalSet (clockSecond / 2)
      else radio
    if mode = radioOnTimerOff ∧ radio.radioMode = radioFreedom then
      ((radio.netstackMac true).uipDs6IntervalSet (clockSecond / 2)).netOff nodeClass radioOffOnTimer
    else radio
  else radio

def netMode (nodeClass mode : Byte) (radio : RadioPower) : RadioPower :=
  if nodeClass = classB then { radio with radioMode := mode } else radio

/-- `net_off_timer_now`. -/
def netOffTimerNow (radio : RadioPower) : RadioPower := radio.netstackMac false

/-- `ctimer_process` gets the event of `net_off_timer`: it is taken from the list and called,
unless it has been stopped since. -/
def timerExpired (radio : RadioPower) : RadioPower :=
  if radio.netOffTimer then radio.ctimerStop.netOffTimerNow else radio

end RadioPower

inductive RadioEvent where
  | netOn (mode : Byte)
  | netOff (mode : Byte)
  | netMode (mode : Byte)
  | timerExpired
  deriving DecidableEq

/-- Every call returns. -/
def radioStep (nodeClass : Byte) (radio : RadioPower) : RadioEvent → Option RadioPower
  | .netOn mode => some (radio.netOn nodeClass mode)
  | .netOff mode => some (radio.netOff nodeClass mode)
  | .netMode mode => some (radio.netMode nodeClass mode)
  | .timerExpired => some radio.timerExpired

/-- The radio has not been switched in the mode `RADIO_HOLD`. -/
def HoldRespected (radio : RadioPower) : Prop :=
  ∀ change ∈ radio.switches, change.radioMode ≠ radioHold

/-- The timer does not expire in the mode `RADIO_HOLD`, unless it has been stopped. -/
def ExpiryAllowed (radio : RadioPower) (event : RadioEvent) : Prop :=
  event = .timerExpired → radio.netOffTimer = true → radio.radioMode ≠ radioHold

/-- The mode `RADIO_HOLD` is set only while the timer is not running. -/
def HoldWithoutTimer (radio : RadioPower) (event : RadioEvent) : Prop :=
  event = .netMode radioHold → radio.netOffTimer = false

instance (radio : RadioPower) (event : RadioEvent) : Decidable (HoldWithoutTimer radio event) :=
  inferInstanceAs (Decidable (_ → _))

/-- What the calls that look at the mode do: the mode stays, and without `RADIO_FREEDOM` the
timer and the radio stay as they are. -/
structure HeedsMode (radio after : RadioPower) : Prop where
  radioMode : after.radioMode = radio.radioMode
  timer : radio.radioMode ≠ radioFreedom → after.netOffTimer = radio.netOffTimer
  respected : HoldRespected radio → HoldRespected after

section Steps

variable {radio after later : RadioPower}

theorem HeedsMode.refl (radio : RadioPower) : HeedsMode radio radio := ⟨rfl, fun _ => rfl, id⟩

theorem HeedsMode.trans (h : HeedsMode radio after) (h' : HeedsMode after later) :
    HeedsMode radio later where
  radioMode := h'.radioMode.trans h.radioMode
  timer hMode := by
    have hAfter : after.radioMode ≠ radioFreedom := by rwa [h.radioMode]
    exact (h'.timer hAfter).trans (h.timer hMode)
  respected := h'.respected ∘ h.respected

theorem HoldRespected.netstackMac (h : HoldRespected radio) (hMode : radio.radioMode ≠ radioHold)
    (isOn : Bool) : HoldRespected (radio.netstackMac isOn) := by
  intro change hChange
  rcases List.mem_cons.mp hChange with rfl | hOld
  · exact hMode
  · exact h change hOld

theorem ne_hold_of_freedom (h : radio.radioMode = radioFreedom) : radio.radioMode ≠ radioHold := by
  rw [h]
  decide

theorem HeedsMode.uipDs6IntervalSet (h : HeedsMode radio after) (interval : Nat) :
    HeedsMode radio (after.uipDs6IntervalSet interval) := ⟨h.radioMode, h.timer, h.respected⟩

theorem HeedsMode.netstackMac (h : HeedsMode radio after) (hMode : after.radioMode = radioFreedom)
    (isOn : Bool) : HeedsMode radio (after.netstackMac isOn) where
  radioMode := h.radioMode
  timer := h.timer
  respected hHold := (h.respected hHold).netstackMac (ne_hold_of_freedom hMode) isOn

/-- In `RADIO_FREEDOM` the timer may be set and stopped. -/
theorem HeedsMode.timerChange (h : HeedsMode radio after) (hMode : after.radioMode = radioFreedom)
    (netOffTimer : Bool) : HeedsMode radio { after with netOffTimer } where
  radioMode := h.radioMode
  timer hNot := absurd (h.radioMode.symm.trans hMode) hNot
  respected := h.respected

theorem HeedsMode.ite {c : Prop} [Decidable c] {first second : RadioPower}
    (hFirst : c → HeedsMode radio first) (hSecond : ¬ c → HeedsMode radio second) :
    HeedsMode radio (if c then first else second) := by
  split_ifs with h
  · exact hFirst h
  · exact hSecond h

theorem netOff_heedsMode (nodeClass mode : Byte) (radio : RadioPower) :
    HeedsMode radio (radio.netOff nodeClass mode) := by
  apply HeedsMode.ite
  · intro _
    let slow := radio.uipDs6IntervalSet (clockSecond * 20)
    have hSlow : HeedsMode radio slow := (HeedsMode.refl radio).uipDs6IntervalSet _
    have hSet : HeedsMode radio (if mode = radioOffOnTimer ∧ slow.radioMode = radioFreedom then
        slow.ctimerSet else slow) :=
      HeedsMode.ite (fun h => hSlow.timerChange h.2 true) fun _ => hSlow
    refine HeedsMode.ite (fun h => ?_) fun _ => hSet
    exact (hSet.timerChange h.2 false).netstackMac h.2 false
  · exact fun _ => HeedsMode.refl radio

theorem netOn_heedsMode (nodeClass mode : Byte) (radio : RadioPower) :
    HeedsMode radio (radio.netOn nodeClass mode) := by
  apply HeedsMode.ite
  · intro _
    have hNormal : HeedsMode radio (if mode = radioOnNormal ∧ radio.radioMode = radioFreedom then
        (radio.netstackMac true).uipDs6IntervalSet (clockSecond / 2) else radio) :=
      HeedsMode.ite (fun h => ((HeedsMode.refl radio).netstackMac h.2 true).uipDs6IntervalSet _)
        fun _ => HeedsMode.refl radio
    refine HeedsMode.ite (fun h => ?_) fun _ => hNormal
    exact ((hNormal.netstackMac h.2 true).uipDs6IntervalSet _).trans
      (netOff_heedsMode nodeClass radioOffOnTimer _)
  · exact fun _ => HeedsMode.refl radio

/-- A step that is allowed keeps the hold. -/
theorem HoldRespected.step {nodeClass : Byte} {event : RadioEvent} (h : HoldRespected radio)
    (hAllowed : ExpiryAllowed radio event) (hStep : radioStep nodeClass radio event = some after) :
    HoldRespected after := by
  cases event with
  | netOn mode =>
      obtain rfl := Option.some.inj hStep
      exact (netOn_heedsMode nodeClass mode radio).respected h
  | netOff mode =>
      obtain rfl := Option.some.inj hStep
      exact (netOff_heedsMode nodeClass mode radio).respected h
  | netMode mode =>
      obtain rfl := Option.some.inj hStep
      unfold RadioPower.netMode
      split_ifs
      · exact h
      · exact h
  | timerExpired =>
      obtain rfl := Option.some.inj hStep
      unfold RadioPower.timerExpired
      split_ifs with hTimer
      · have hStopped : HoldRespected radio.ctimerStop := h
        exact hStopped.netstackMac (hAllowed rfl hTimer) false
      · exact h

/-- A timer that expires in the mode `RADIO_HOLD` switches the radio off. -/
theorem not_holdRespected_timerExpired (hTimer : radio.netOffTimer = true)
    (hMode : radio.radioMode = radioHold) : ¬ HoldRespected radio.timerExpired := by
  intro h
  unfold RadioPower.timerExpired at h
  rw [if_pos hTimer] at h
  exact h ⟨false, radio.radioMode⟩ List.mem_cons_self hMode

/-- If `RADIO_HOLD` is never set while the timer runs, the timer never runs in it. -/
theorem timer_of_hold {nodeClass : Byte} {event : RadioEvent}
    (h : radio.radioMode = radioHold → radio.netOffTimer = false)
    (hAllowed : HoldWithoutTimer radio event)
    (hStep : radioStep nodeClass radio event = some after) (hMode : after.radioMode = radioHold) :
    after.netOffTimer = false := by
  have hCall (hHeeds : HeedsMode radio after) : after.netOffTimer = false := by
    have hBefore : radio.radioMode = radioHold := hHeeds.radioMode.symm.trans hMode
    have hNot : radio.radioMode ≠ radioFreedom := by
      rw [hBefore]
      decide
    exact (hHeeds.timer hNot).trans (h hBefore)
  cases event with
  | netOn mode =>
      obtain rfl := Option.some.inj hStep
      exact hCall (netOn_heedsMode nodeClass mode radio)
  | netOff mode =>
      obtain rfl := Option.some.inj hStep
      exact hCall (netOff_heedsMode nodeClass mode radio)
  | netMode mode =>
      obtain rfl := Option.some.inj hStep
      unfold RadioPower.netMode at hMode ⊢
      split_ifs at hMode ⊢ with hClass
      · exact hAllowed (congrArg RadioEvent.netMode hMode)
      · exact h hMode
  | timerExpired =>
      obtain rfl := Option.some.inj hStep
      unfold RadioPower.timerExpired
      split_ifs with hTimer
      · rfl
      · exact Bool.eq_false_iff.mpr hTimer

end Steps

/-- The hold is respected in a run exactly when the timer never expires in it. That it is
set only while no timer runs is enough for this. -/
theorem hold_respected_iff (events : List RadioEvent) :
    (Throughout (radioStep classB) HoldRespected RadioPower.boot events ↔
        Along (radioStep classB) ExpiryAllowed RadioPower.boot events) ∧
      (Along (radioStep classB) HoldWithoutTimer RadioPower.boot events →
        Throughout (radioStep classB) HoldRespected RadioPower.boot events) := by
  have hStart : HoldRespected RadioPower.boot := fun _ h => absurd h List.not_mem_nil
  constructor
  · refine throughout_iff HoldRespected HoldRespected (fun _ h => h)
      (fun radio event h _ hAllowed after hStep => h.step hAllowed hStep)
      (fun radio event _ _ hNot => ?_) events hStart (Along.of_forall (fun _ _ => trivial) _ events)
    unfold ExpiryAllowed at hNot
    push Not at hNot
    obtain ⟨rfl, hTimer, hMode⟩ := hNot
    exact ⟨_, rfl, not_holdRespected_timerExpired hTimer hMode⟩
  · refine Throughout.of_along (fun radio => HoldRespected radio ∧
      (radio.radioMode = radioHold → radio.netOffTimer = false)) (fun _ h => h.1) ?_
      ⟨hStart, fun _ => rfl⟩
    rintro radio event after ⟨hHold, hTimer⟩ hAllowed hStep
    refine ⟨hHold.step (fun hEvent hRuns hMode => ?_) hStep, timer_of_hold hTimer hAllowed hStep⟩
    rw [hTimer hMode] at hRuns
    exact Bool.noConfusion hRuns

/-- What `dag_node_process` does when no root is found, with a timer that was running. -/
theorem hold_respected_rootNotFound : Throughout (radioStep classB) HoldRespected RadioPower.boot
    [.netMode radioFreedom, .netOn radioOnTimerOff, .netMode radioFreedom, .netOff radioOffNow,
      .netMode radioHold, .timerExpired] :=
  (hold_respected_iff _).2 (by decide)

/-- The radio is left to the timer, and then to be held. -/
def heldTooLate : List RadioEvent :=
  [.netMode radioFreedom, .netOn radioOnTimerOff, .netMode radioHold, .timerExpired]

theorem not_hold_respected :
    ¬ ∀ events, Throughout (radioStep classB) HoldRespected RadioPower.boot events := by
  intro h
  have hRun : runAll (radioStep classB) RadioPower.boot heldTooLate =
      some ⟨radioHold, false, clockSecond * 20, [⟨false, radioHold⟩, ⟨true, radioFreedom⟩]⟩ := by
    decide
  exact (h heldTooLate).last hRun ⟨false, radioHold⟩ List.mem_cons_self rfl

/-- On a node of another class the calls do nothing, and no timer ever runs. -/
theorem quiet_of_other_class {nodeClass : Byte} (hClass : nodeClass ≠ classB)
    (events : List RadioEvent) :
    Throughout (radioStep nodeClass) (fun radio => radio.switches = []) RadioPower.boot events := by
  have hQuiet (radio : RadioPower) (h : radio = RadioPower.boot) : radio.switches = [] := by rw [h]; rfl
  refine Throughout.of_invariant hQuiet ?_ rfl events
  · rintro radio event after rfl hStep
    cases event with
    | netOn mode => exact (Option.some.inj hStep).symm.trans (if_neg hClass)
    | netOff mode => exact (Option.some.inj hStep).symm.trans (if_neg hClass)
    | netMode mode => exact (Option.some.inj hStep).symm.trans (if_neg hClass)
    | timerExpired => exact (Option.some.inj hStep).symm

end Smarthome.Node
