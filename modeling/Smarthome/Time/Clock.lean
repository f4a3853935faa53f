import Smarthome.Time.TimeData

/-! The clock of `rtc-common.c`: the time of the epoch is the local time of the real-time
counter with an offset to it. -/
namespace Smarthome.Time

/-- The seconds and the milliseconds of a variable are cut to its width. -/
def wrap32 (n : Int) : Nat := (n % 0x100000000).toNat

def wrap16 (n : Int) : Nat := (n % 0x10000).toNat

theorem wrap32_eq (n : Int) : (wrap32 n : Int) = n % 0x100000000 :=
  Int.toNat_of_nonneg (Int.emod_nonneg n (by decide))

theorem wrap16_eq (n : Int) : (wrap16 n : Int) = n % 0x10000 :=
  Int.toNat_of_nonneg (Int.emod_nonneg n (by decide))

theorem wrap32_lt (n : Int) : wrap32 n < 0x100000000 := by
  have hEq := wrap32_eq n
  omega

theorem wrap16_lt (n : Int) : wrap16 n < 0x10000 := by
  have hEq := wrap16_eq n
  omega

/-- A time as it is assigned, seconds and milliseconds each for itself. -/
def TimeData.assign (seconds milliseconds : Int) : TimeData where
  seconds := wrap32 seconds
  milliseconds := wrap16 milliseconds
  seconds_lt := wrap32_lt seconds
  milliseconds_lt := wrap16_lt milliseconds

/-- `rtc_s`, from the counter of 2^-32 seconds. -/
def rtcS (ticks : Nat) : Nat := ticks / 0x100000000 % 0x100000000

/-- `rtc_ms`. The divisor is a little too small, so at the very end of a second there are
a thousand milliseconds. -/
def rtcMs (ticks : Nat) : Nat := ticks % 0x100000000 / 4294967

/-- `epoch_sec_offset` and `epoch_msec_offset`. -/
structure EpochOffset where
  epochSecOffset : Nat
  epochMsecOffset : Nat
  epochSecOffset_lt : epochSecOffset < 0x100000000
  epochMsecOffset_lt : epochMsecOffset < 0x10000

def EpochOffset.assign (seconds milliseconds : Int) : EpochOffset where
  epochSecOffset := wrap32 seconds
  epochMsecOffset := wrap16 milliseconds
  epochSecOffset_lt := wrap32_lt seconds
  epochMsecOffset_lt := wrap16_lt milliseconds

/-- The values of the variables at the start. -/
def EpochOffset.initial : EpochOffset := EpochOffset.assign 0 0

/-- `get_epoch_time`, with both readings of the counter at one value of it. The sum of the
milliseconds is never negative. -/
def getEpochTime (offset : EpochOffset) (ticks : Nat) : TimeData :=
  let localTime := TimeData.assign (rtcS ticks + offset.epochSecOffset)
    (rtcMs ticks + offset.epochMsecOffset)
  if 1000 ≤ localTime.milliseconds then
    TimeData.assign (localTime.seconds + 1) (localTime.milliseconds - 1000)
  else localTime

/-- `set_epoch_time`. -/
def setEpochTime (newTime : TimeData) (ticks : Nat) : EpochOffset :=
  let seconds : Int := newTime.seconds - rtcS ticks
  let milliseconds : Int := newTime.milliseconds - rtcMs ticks
  if 1000 ≤ milliseconds then EpochOffset.assign (seconds + 1) (milliseconds - 1000)
  else if milliseconds < 0 then EpochOffset.assign (seconds - 1) (milliseconds + 1000)
  else EpochOffset.assign seconds milliseconds

/-- What `rtc_s` and `rtc_ms` return, each for itself. -/
structure Reading where
  seconds : Nat
  milliseconds : Nat
  seconds_lt : seconds < 0x100000000
  milliseconds_le : milliseconds ≤ 1000

theorem rtcS_lt (ticks : Nat) : rtcS ticks < 0x100000000 := Nat.mod_lt _ (by decide)

theorem rtcMs_le (ticks : Nat) : rtcMs ticks ≤ 1000 := by
  unfold rtcMs
  omega

/-- `rtc_s` at one value of the counter, and then `rtc_ms` at another. -/
def readRtc (first second : Nat) : Reading where
  seconds := rtcS first
  milliseconds := rtcMs second
  seconds_lt := rtcS_lt first
  milliseconds_le := rtcMs_le second

/-- `get_epoch_time`, with what it reads of the local clock. The sum of the milliseconds is
never negative. -/
def getEpochTimeAt (offset : EpochOffset) (reading : Reading) : TimeData :=
  let localTime := TimeData.assign (reading.seconds + offset.epochSecOffset)
    (reading.milliseconds + offset.epochMsecOffset)
  if 1000 ≤ localTime.milliseconds then
    TimeData.assign (localTime.seconds + 1) (localTime.milliseconds - 1000)
  else localTime

/-- `set_epoch_time`, with what it reads of the local clock. -/
def setEpochTimeAt (newTime : TimeData) (reading : Reading) : EpochOffset :=
  let seconds : Int := newTime.seconds - reading.seconds
  let milliseconds : Int := newTime.milliseconds - reading.milliseconds
  if 1000 ≤ milliseconds then EpochOffset.assign (seconds + 1) (milliseconds - 1000)
  else if milliseconds < 0 then EpochOffset.assign (seconds - 1) (milliseconds + 1000)
  else EpochOffset.assign seconds milliseconds

theorem getEpochTime_eq (offset : EpochOffset) (ticks : Nat) :
    getEpochTime offset ticks = getEpochTimeAt offset (readRtc ticks ticks) := rfl

theorem setEpochTime_eq (newTime : TimeData) (ticks : Nat) :
    setEpochTime newTime ticks = setEpochTimeAt newTime (readRtc ticks ticks) := rfl

/-- The milliseconds that the local clock has counted, without the end of its seconds. -/
def rtcCount (ticks : Nat) : Nat := ticks / 0x100000000 * 1000 + rtcMs ticks

/-- A time, a reading and an offset in milliseconds. -/
def TimeData.total (time : TimeData) : Nat := time.seconds * 1000 + time.milliseconds

def Reading.total (reading : Reading) : Nat := reading.seconds * 1000 + reading.milliseconds

def EpochOffset.total (offset : EpochOffset) : Nat :=
  offset.epochSecOffset * 1000 + offset.epochMsecOffset

/-- Less than a second of milliseconds. -/
def TimeData.Normal (time : TimeData) : Prop := time.milliseconds < 1000

def EpochOffset.Normal (offset : EpochOffset) : Prop := offset.epochMsecOffset < 1000

theorem TimeData.assign_normal {milliseconds : Int} (seconds : Int) (h : 0 ≤ milliseconds)
    (hLess : milliseconds < 1000) : (TimeData.assign seconds milliseconds).Normal := by
  have hMilliseconds := wrap16_eq milliseconds
  unfold TimeData.Normal TimeData.assign
  dsimp only
  omega

/-- The milliseconds do not run backwards, at the end of a second neither. -/
theorem rtcCount_le {ticks later : Nat} (h : ticks ≤ later) : rtcCount ticks ≤ rtcCount later := by
  unfold rtcCount rtcMs
  omega

/-- Whole seconds are counted as such. -/
theorem rtcCount_add_seconds (ticks n : Nat) :
    rtcCount (ticks + n * 0x100000000) = rtcCount ticks + n * 1000 := by
  unfold rtcCount rtcMs
  rw [Nat.add_mul_div_right _ _ (by decide), Nat.add_mul_mod_self_right]
  omega

/-- A reading at one value of the counter is its count, up to the end of all seconds. -/
theorem rtcCount_mod (ticks : Nat) : (readRtc ticks ticks).total % 4294967296000 =
    rtcCount ticks % 4294967296000 := by
  unfold Reading.total readRtc rtcCount rtcS
  dsimp only
  omega

theorem EpochOffset.initial_normal : EpochOffset.initial.Normal := by
  show wrap16 0 < 1000
  decide

variable {offset : EpochOffset} {ticks : Nat} {time : TimeData}

/-- The time of the epoch is the local time with the offset, up to the end of all seconds. -/
theorem getEpochTimeAt_spec (h : offset.Normal) (reading : Reading) :
    (getEpochTimeAt offset reading).Normal ∧ (getEpochTimeAt offset reading).total =
      (reading.total + offset.total) % 4294967296000 := by
  have hMs := reading.milliseconds_le
  have hSeconds := wrap32_eq (reading.seconds + offset.epochSecOffset)
  have hMilliseconds := wrap16_eq (reading.milliseconds + offset.epochMsecOffset)
  unfold EpochOffset.Normal at h
  unfold getEpochTimeAt TimeData.assign TimeData.Normal TimeData.total Reading.total EpochOffset.total
  dsimp only
  by_cases hCarry : 1000 ≤ wrap16 (reading.milliseconds + offset.epochMsecOffset)
  · rw [if_pos hCarry]
    have hNextSecond := wrap32_eq (wrap32 (reading.seconds + offset.epochSecOffset) + 1)
    have hRest := wrap16_eq (wrap16 (reading.milliseconds + offset.epochMsecOffset) - 1000)
    dsimp only
    omega
  · rw [if_neg hCarry]
    dsimp only
    omega

/-- The offset is set such that the time of the epoch is the new one. -/
theorem setEpochTimeAt_spec (h : time.Normal) (reading : Reading) :
    (setEpochTimeAt time reading).Normal ∧
      (reading.total + (setEpochTimeAt time reading).total) % 4294967296000 = time.total := by
  have hMs := reading.milliseconds_le
  have hTime := time.seconds_lt
  unfold TimeData.Normal at h
  unfold setEpochTimeAt EpochOffset.assign EpochOffset.Normal EpochOffset.total TimeData.total
    Reading.total
  dsimp only
  have hNoCarry : ¬ (1000 : Int) ≤ time.milliseconds - reading.milliseconds := by omega
  rw [if_neg hNoCarry]
  by_cases hBorrow : (time.milliseconds : Int) - reading.milliseconds < 0
  · rw [if_pos hBorrow]
    have hSeconds := wrap32_eq ((time.seconds : Int) - reading.seconds - 1)
    have hMilliseconds := wrap16_eq ((time.milliseconds : Int) - reading.milliseconds + 1000)
    dsimp only
    omega
  · rw [if_neg hBorrow]
    have hSeconds := wrap32_eq ((time.seconds : Int) - reading.seconds)
    have hMilliseconds := wrap16_eq ((time.milliseconds : Int) - reading.milliseconds)
    dsimp only
    omega

/-- Of the milliseconds of an offset one second is carried or borrowed, and not another one. -/
theorem setEpochTimeAt_msec (time : TimeData) (reading : Reading) :
    (setEpochTimeAt time reading).epochMsecOffset =
      if reading.milliseconds + 1000 ≤ time.milliseconds then
        time.milliseconds - reading.milliseconds - 1000
      else if time.milliseconds < reading.milliseconds then
        time.milliseconds + 1000 - reading.milliseconds
      else time.milliseconds - reading.milliseconds := by
  have hMs := reading.milliseconds_le
  have hTime := time.milliseconds_lt
  have hLess := wrap16_eq ((time.milliseconds : Int) - reading.milliseconds - 1000)
  have hMore := wrap16_eq ((time.milliseconds : Int) - reading.milliseconds + 1000)
  have hSame := wrap16_eq ((time.milliseconds : Int) - reading.milliseconds)
  unfold setEpochTimeAt EpochOffset.assign
  dsimp only
  split_ifs
  all_goals
    dsimp only
    omega

/-- Normal times are told apart by their milliseconds in all. -/
theorem TimeData.eq_of_total {other : TimeData} (h : time.Normal) (hOther : other.Normal)
    (hTotal : time.total = other.total) : time = other := by
  cases time with
  | mk seconds milliseconds hSeconds hMilliseconds =>
      cases other with
      | mk otherSeconds otherMilliseconds hOtherSeconds hOtherMilliseconds =>
          unfold TimeData.Normal at h hOther
          unfold TimeData.total at hTotal
          dsimp only at h hOther hTotal
          rw [TimeData.mk.injEq]
          omega

/-- At the reading at which it is set, the clock shows the new time. -/
theorem getEpochTimeAt_setEpochTimeAt (h : time.Normal) (reading : Reading) :
    getEpochTimeAt (setEpochTimeAt time reading) reading = time := by
  obtain ⟨hSet, hSetTotal⟩ := setEpochTimeAt_spec h reading
  obtain ⟨hNormal, hTotal⟩ := getEpochTimeAt_spec hSet reading
  exact TimeData.eq_of_total hNormal h (hTotal.trans hSetTotal)

theorem getEpochTime_spec (h : offset.Normal) (ticks : Nat) :
    (getEpochTime offset ticks).Normal ∧ (getEpochTime offset ticks).total =
      (rtcCount ticks + offset.total) % 4294967296000 := by
  have hCount := rtcCount_mod ticks
  obtain ⟨hNormal, hTotal⟩ := getEpochTimeAt_spec h (readRtc ticks ticks)
  rw [getEpochTime_eq]
  exact ⟨hNormal, by omega⟩

theorem setEpochTime_spec (h : time.Normal) (ticks : Nat) :
    (setEpochTime time ticks).Normal ∧
      (rtcCount ticks + (setEpochTime time ticks).total) % 4294967296000 = time.total := by
  have hCount := rtcCount_mod ticks
  obtain ⟨hNormal, hTotal⟩ := setEpochTimeAt_spec h (readRtc ticks ticks)
  rw [setEpochTime_eq]
  exact ⟨hNormal, by omega⟩

end Smarthome.Time
