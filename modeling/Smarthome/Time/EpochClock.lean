import Smarthome.Time.Clock
import Smarthome.Semantics.Runs
import Mathlib.Data.List.Chain

/-! The clock of the epoch between two updates. It goes on with what is read of the local
clock. But the seconds and the milliseconds of that are read one after the other, and
between the two a second may end. -/
namespace Smarthome.Time

open Semantics

/-- The milliseconds from one reading of the local clock to another. -/
def Reading.elapsed (reading later : Reading) : Int :=
  ((later.seconds : Int) - reading.seconds) * 1000 +
    ((later.milliseconds : Int) - reading.milliseconds)

/-- **The clock runs true.** From a reading at which it is set to any other it goes on by the
milliseconds between the two. -/
theorem epoch_clock_true {time : TimeData} (h : time.Normal) (reading later : Reading) :
    ((getEpochTimeAt (setEpochTimeAt time reading) later).milliseconds : Int) =
        (time.total + reading.elapsed later) % 1000 ∧
      ((getEpochTimeAt (setEpochTimeAt time reading) later).seconds : Int) =
        (time.total + reading.elapsed later) / 1000 % 0x100000000 := by
  obtain ⟨hSet, hSetTotal⟩ := setEpochTimeAt_spec h reading
  obtain ⟨hNormal, hTotal⟩ := getEpochTimeAt_spec hSet later
  have hSeconds := (getEpochTimeAt (setEpochTimeAt time reading) later).seconds_lt
  unfold TimeData.Normal at hNormal
  unfold Reading.total at hSetTotal hTotal
  unfold TimeData.total at hTotal
  unfold Reading.elapsed
  constructor
  · omega
  · omega

/-- Set at the very end of a second, and read in the next one. -/
theorem epoch_clock_true_carry : (TimeData.assign 7 999).Normal ∧
    ((getEpochTimeAt (setEpochTimeAt (TimeData.assign 7 999) ⟨3, 1000, by decide, by decide⟩)
      ⟨4, 1, by decide, by decide⟩).seconds : Int) = 8 := by
  have hNormal : (TimeData.assign 7 999).Normal :=
    TimeData.assign_normal 7 (by decide) (by decide)
  have hTrue := epoch_clock_true hNormal ⟨3, 1000, by decide, by decide⟩
    ⟨4, 1, by decide, by decide⟩
  have hSum : ((TimeData.assign 7 999).total + Reading.elapsed ⟨3, 1000, by decide, by decide⟩
      ⟨4, 1, by decide, by decide⟩ : Int) = 8000 := by decide
  rw [hSum] at hTrue
  exact ⟨hNormal, hTrue.2⟩

/-- The values of the counter at the two reads of a call. -/
structure RtcReads where
  first : Nat
  second : Nat

namespace RtcReads

def reading (reads : RtcReads) : Reading := readRtc reads.first reads.second

/-- The milliseconds that a call finds on the local clock, without the end of its seconds. -/
def localTime (reads : RtcReads) : Nat := reads.first / 0x100000000 * 1000 + rtcMs reads.second

/-- How often the seconds of the epoch have begun again when a call returns. -/
def cycles (offset : EpochOffset) (reads : RtcReads) : Nat :=
  (reads.first / 0x100000000 + offset.epochSecOffset +
    if 1000 ≤ rtcMs reads.second + offset.epochMsecOffset then 1 else 0) / 0x100000000

/-- With the cycles that are lost, a call returns the local time and the offset. The sum of
the milliseconds fits its variable. -/
theorem total_getEpochTimeAt {offset : EpochOffset} (h : offset.epochMsecOffset ≤ 64535)
    (reads : RtcReads) : (getEpochTimeAt offset reads.reading).total +
      cycles offset reads * 4294967296000 = reads.localTime + offset.total := by
  have hMs := rtcMs_le reads.second
  have hSeconds := wrap32_eq (rtcS reads.first + offset.epochSecOffset)
  have hMilliseconds := wrap16_eq (rtcMs reads.second + offset.epochMsecOffset)
  unfold getEpochTimeAt TimeData.assign TimeData.total EpochOffset.total cycles localTime reading
    readRtc
  unfold rtcS at hSeconds ⊢
  dsimp only
  by_cases hCarry : 1000 ≤ rtcMs reads.second + offset.epochMsecOffset
  · have hWrapped : 1000 ≤ wrap16 (rtcMs reads.second + offset.epochMsecOffset) := by omega
    have hNextSecond := wrap32_eq (wrap32 ((reads.first / 0x100000000 % 0x100000000 : Nat) +
      offset.epochSecOffset) + 1)
    have hRest := wrap16_eq (wrap16 (rtcMs reads.second + offset.epochMsecOffset) - 1000)
    rw [if_pos hCarry, if_pos hWrapped]
    dsimp only
    omega
  · have hWrapped : ¬ 1000 ≤ wrap16 (rtcMs reads.second + offset.epochMsecOffset) := by omega
    rw [if_neg hCarry, if_neg hWrapped]
    dsimp only
    omega

/-- The local time goes back only from one call to another that reads the same second. -/
theorem localTime_le_iff {earlier later : RtcReads} (h : earlier.first ≤ later.first) :
    earlier.localTime ≤ later.localTime ↔
      (earlier.first / 0x100000000 = later.first / 0x100000000 →
        rtcMs earlier.second ≤ rtcMs later.second) := by
  have hMs := rtcMs_le earlier.second
  have hSeconds : earlier.first / 0x100000000 ≤ later.first / 0x100000000 :=
    Nat.div_le_div_right h
  unfold localTime
  omega

/-- By a second it goes back at most. -/
theorem localTime_le_add {earlier later : RtcReads} (h : earlier.first ≤ later.first) :
    earlier.localTime ≤ later.localTime + 1000 := by
  have hMs := rtcMs_le earlier.second
  have hSeconds : earlier.first / 0x100000000 ≤ later.first / 0x100000000 :=
    Nat.div_le_div_right h
  unfold localTime
  omega

end RtcReads

/-- Whatever time is set, the milliseconds of the offset leave room for those of the local
clock. -/
theorem setEpochTimeAt_msec_le (newTime : TimeData) (reading : Reading) :
    (setEpochTimeAt newTime reading).epochMsecOffset ≤ 64535 := by
  have hMs := reading.milliseconds_le
  have hTime := newTime.milliseconds_lt
  rw [setEpochTimeAt_msec]
  split_ifs
  all_goals omega

/-- The clock with the value of the counter and the calls of `get_epoch_time` since the last
update, the latest one first. -/
structure EpochClock where
  offset : EpochOffset
  ticks : Nat
  calls : List RtcReads

inductive ClockEvent where
  | setEpochTime (newTime : TimeData) (reads : RtcReads)
  | getEpochTime (reads : RtcReads)

def ClockEvent.reads : ClockEvent → RtcReads
  | .setEpochTime _ reads => reads
  | .getEpochTime reads => reads

namespace EpochClock

def start (ticks : Nat) : EpochClock := ⟨EpochOffset.initial, ticks, []⟩

def step (clock : EpochClock) : ClockEvent → Option EpochClock
  | .setEpochTime newTime reads => some ⟨setEpochTimeAt newTime reads.reading, reads.second, []⟩
  | .getEpochTime reads => some ⟨clock.offset, reads.second, reads :: clock.calls⟩

/-- The counter only advances, in front of a call and between its reads. -/
def Advances (clock : EpochClock) (event : ClockEvent) : Prop :=
  clock.ticks ≤ event.reads.first ∧ event.reads.first ≤ event.reads.second

/-- Of two successive calls, the later one returns no earlier time. -/
def NeverBack (clock : EpochClock) : Prop :=
  clock.calls.IsChain fun later earlier => (getEpochTimeAt clock.offset earlier.reading).total ≤
    (getEpochTimeAt clock.offset later.reading).total

/-- A call that reads the same second as the one before reads no fewer milliseconds: no second
has ended between its two reads. And when the seconds of the epoch have begun again, a whole
cycle of them has gone by on the local clock. -/
def Steady (clock : EpochClock) : ClockEvent → Prop
  | .setEpochTime _ _ => True
  | .getEpochTime reads => ∀ earlier ∈ clock.calls.head?,
      (RtcReads.cycles clock.offset earlier = RtcReads.cycles clock.offset reads →
        earlier.first / 0x100000000 = reads.first / 0x100000000 →
          rtcMs earlier.second ≤ rtcMs reads.second) ∧
      (RtcReads.cycles clock.offset earlier < RtcReads.cycles clock.offset reads →
        earlier.localTime + RtcReads.cycles clock.offset reads * 4294967296000 ≤
          reads.localTime + RtcReads.cycles clock.offset earlier * 4294967296000)

instance (clock : EpochClock) (event : ClockEvent) : Decidable (clock.Advances event) :=
  inferInstanceAs (Decidable (_ ∧ _))

instance (clock : EpochClock) : (event : ClockEvent) → Decidable (clock.Steady event)
  | .setEpochTime _ _ => isTrue trivial
  | .getEpochTime _ => inferInstanceAs (Decidable (∀ earlier ∈ clock.calls.head?, _ ∧ _))

/-- What holds while the time never goes back. -/
structure Regular (clock : EpochClock) : Prop where
  neverBack : clock.NeverBack
  msec_le : clock.offset.epochMsecOffset ≤ 64535
  first_le : ∀ call ∈ clock.calls.head?, call.first ≤ clock.ticks

variable {clock next : EpochClock}

/-- One more call is steady exactly if the time does not go back with it. -/
theorem neverBack_cons_iff (h : clock.Regular) {reads : RtcReads}
    (hAdvances : clock.Advances (.getEpochTime reads)) :
    NeverBack ⟨clock.offset, reads.second, reads :: clock.calls⟩ ↔
      clock.Steady (.getEpochTime reads) := by
  have hTotal := RtcReads.total_getEpochTimeAt h.msec_le
  have hCalls := h.neverBack
  have hFirst := h.first_le
  unfold NeverBack at hCalls ⊢
  unfold Steady
  cases hList : clock.calls with
  | nil => simp
  | cons earlier calls =>
      rw [hList] at hCalls hFirst
      have hOrder : earlier.first ≤ reads.first := (hFirst earlier rfl).trans hAdvances.1
      have hLocal := RtcReads.localTime_le_iff hOrder
      have hSecond := RtcReads.localTime_le_add hOrder
      have hEarlier := hTotal earlier
      have hLater := hTotal reads
      simp only [List.isChain_cons_cons, hCalls, and_true, List.head?_cons, Option.mem_some_iff,
        forall_eq', ← hLocal]
      omega

theorem regular_start (ticks : Nat) : (start ticks).Regular where
  neverBack := List.isChain_nil
  msec_le := show wrap16 0 ≤ 64535 by decide
  first_le := nofun

/-- Half a second and a whole one after the start. -/
def halfSecond : Nat := 0x80000000

def wholeSecond : Nat := 0x100000000

end EpochClock
end Smarthome.Time
