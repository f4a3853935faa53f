import Smarthome.Semantics.Runs
import Mathlib.Logic.Function.Basic

/-! The driver of the five buttons: `button_press_handler`, which every edge of a pin
interrupts for, and `button_sensor_long_process`, of which there is one for all buttons. -/
namespace Smarthome

/-- `BOARD_IOID_KEY_A` to `BOARD_IOID_KEY_E`. -/
inductive Button where
  | a
  | b
  | c
  | d
  | e
  deriving DecidableEq

/-- `LONG_INTERVAL` and `DEBOUNCE_INTERVAL`, with 128 ticks in a second. -/
@[simp] def longInterval : Nat := 720 * 128 / 1000

@[simp] def debounceInterval : Nat := 60 * 128 / 1000

inductive ClickKind where
  | click
  | longClick
  deriving DecidableEq

/-- A call of `sensors_changed`. The low period that it is about is recorded with it: its
number, when it began, and how late it is. -/
structure ButtonEvent where
  button : Button
  kind : ClickKind
  period : Nat
  lowSince : Nat
  time : Nat
  deriving DecidableEq

/-- The variables of the driver, the pins and the clock. Of `button_sensor_long_process` there
is the clock at which its timer was set, if it is running. What comes after `longProcess` is
read by no code. -/
structure ButtonDriver where
  clock : Nat
  /-- `ti_lib_gpio_read_dio`, high being true. -/
  pin : Button → Bool
  buttonLastLowTime : Button → Nat
  buttonLastState : Button → Bool
  currentButton : Button
  currentButtonLong : Button
  longProcess : Option Nat
  lowSince : Button → Nat
  period : Button → Nat
  events : List ButtonEvent

inductive ButtonLabel where
  /-- The clock goes on. -/
  | tick
  /-- The timers are looked at. -/
  | poll
  | edge (button : Button)
  deriving DecidableEq

namespace ButtonDriver

/-- `SENSORS_HW_INIT`. No button is pressed. -/
def start : ButtonDriver where
  clock := 0
  pin := fun _ => true
  buttonLastLowTime := fun _ => 0
  buttonLastState := fun _ => true
  currentButton := .a
  currentButtonLong := .a
  longProcess := none
  lowSince := fun _ => 0
  period := fun _ => 0
  events := []

/-- `clock_time`, a number of 32 bits. -/
def clockTime (s : ButtonDriver) : Nat := s.clock % 0x100000000

def sensorsChanged (s : ButtonDriver) (button : Button) (kind : ClickKind) : ButtonDriver :=
  { s with events := s.events ++ [⟨button, kind, s.period button, s.lowSince button, s.clock⟩] }

/-- `process_start` of a process that is not running, up to its wait for the timer. -/
def processStart (s : ButtonDriver) (button : Button) : ButtonDriver :=
  { s with currentButton := button, currentButtonLong := button, longProcess := some s.clock }

/-- The process ends, by itself or by `process_exit`, and with it its timer. -/
def processExit (s : ButtonDriver) : ButtonDriver := { s with longProcess := none }

/-- The process after its wait. -/
def longProcessResume (s : ButtonDriver) : ButtonDriver :=
  if s.pin s.currentButtonLong = false then
    s.processExit.sensorsChanged s.currentButtonLong .longClick
  else s.processExit

/-- The timer of the process has run out. -/
def longTimerDue (s : ButtonDriver) : Bool :=
  s.longProcess.any fun since => decide (longInterval ≤ s.clock - since)

def poll (s : ButtonDriver) : ButtonDriver :=
  if s.longTimerDue then s.longProcessResume else s

/-- The timer fires before the clock goes on from the tick at which it is due. -/
def tick (s : ButtonDriver) : ButtonDriver := { s.poll with clock := s.poll.clock + 1 }

/-- `current_time - button_last_low_time[ioid]`, in 32 bits. -/
def lowTime (s : ButtonDriver) (button : Button) : Nat :=
  (s.clockTime + 0x100000000 - s.buttonLastLowTime button) % 0x100000000

def setPin (s : ButtonDriver) (button : Button) (high : Bool) : ButtonDriver :=
  { s with pin := Function.update s.pin button high }

def noteLow (s : ButtonDriver) (button : Button) : ButtonDriver :=
  { s with
    buttonLastState := Function.update s.buttonLastState button false
    buttonLastLowTime := Function.update s.buttonLastLowTime button s.clockTime
    lowSince := Function.update s.lowSince button s.clock
    period := Function.update s.period button (s.period button + 1) }

def noteHigh (s : ButtonDriver) (button : Button) : ButtonDriver :=
  { s with buttonLastState := Function.update s.buttonLastState button true }

/-- The branch of `button_press_handler` for a pin that has become low. -/
def pressed (s : ButtonDriver) (button : Button) : ButtonDriver :=
  if s.longProcess = none then (s.noteLow button).processStart button else s.noteLow button

/-- The branch for a pin that has become high. -/
def released (s : ButtonDriver) (button : Button) : ButtonDriver :=
  if s.lowTime button > debounceInterval ∧ s.lowTime button < longInterval then
    (s.noteHigh button).processExit.sensorsChanged button .click
  else s.noteHigh button

def buttonPressHandler (s : ButtonDriver) (button : Button) : ButtonDriver :=
  if s.buttonLastState button ≠ s.pin button then
    if s.pin button = false then s.pressed button else s.released button
  else s

/-- An edge of a pin, and the interrupt. -/
def edge (s : ButtonDriver) (button : Button) : ButtonDriver :=
  (s.setPin button (!s.pin button)).buttonPressHandler button

def step (s : ButtonDriver) : ButtonLabel → Option ButtonDriver
  | .tick => some s.tick
  | .poll => some s.poll
  | .edge button => some (s.edge button)

end ButtonDriver

end Smarthome
