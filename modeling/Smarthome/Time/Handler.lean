import Smarthome.Time.Clock

/-! `time_data_handler` of a node: the time of the root, changed by half of the transit
time, becomes the time of the epoch. -/
namespace Smarthome.Time

/-- The milliseconds from one time of the epoch to another. -/
def TimeData.elapsed (time later : TimeData) : Int := (later.total : Int) - time.total

/-- `calculate_transit_time`. What it returns is the half. -/
def calculateTransitTime (timeReq timeRes : TimeData) : Nat :=
  let transitTimeS := wrap32 (timeRes.seconds - timeReq.seconds)
  let transitTimeMs := wrap32 (timeRes.milliseconds - timeReq.milliseconds)
  let halfTransitTimeMs := wrap32 (wrap32 (transitTimeS * 1000) + transitTimeMs) / 2
  wrap16 halfTransitTimeMs

/-- `calculate_diff_time`. The seconds are subtracted as unsigned, so the check for minus
thirty seconds is never met. -/
def calculateDiffTime (timeMax timeMin : TimeData) : Int :=
  let diffTimeS : Int := wrap32 (timeMax.seconds - timeMin.seconds)
  let diffTimeMs : Int := diffTimeS * 1000 + (timeMax.milliseconds - timeMin.milliseconds)
  if 30 < diffTimeS ∨ diffTimeS < -30 ∨ 30 * 1000 < diffTimeMs ∨ diffTimeMs < -30 * 1000 then 32767
  else diffTimeMs

/-- `seconds--`. -/
def TimeData.secondsDecrement (time : TimeData) : TimeData where
  seconds := wrap32 (time.seconds - 1)
  milliseconds := time.milliseconds
  seconds_lt := wrap32_lt (time.seconds - 1)
  milliseconds_lt := time.milliseconds_lt

/-- The loop of `time_data_handler`, with the half transit time that it leaves. -/
def subtractSeconds (rootTime : TimeData) (halfTransitTime : Nat) : TimeData × Nat :=
  if 1000 < halfTransitTime then
    subtractSeconds rootTime.secondsDecrement (halfTransitTime - 1000)
  else (rootTime, halfTransitTime)
  termination_by halfTransitTime
  decreasing_by omega

/-- What `time_data_handler` makes of the time of the root before it is set. -/
def subtractTransitTime (rootTime : TimeData) (halfTransitTime : Nat) : TimeData :=
  let (rootTime, halfTransitTime) := subtractSeconds rootTime halfTransitTime
  if rootTime.milliseconds < halfTransitTime then
    TimeData.assign rootTime.secondsDecrement.seconds
      (wrap16 (rootTime.milliseconds + 1000) - halfTransitTime)
  else TimeData.assign rootTime.seconds (rootTime.milliseconds - halfTransitTime)

/-- `time_data_handler`, with the difference that it prints and sends. -/
def timeDataHandler (offset : EpochOffset) (rootTime localTimeReq : TimeData) (ticks : Nat) :
    EpochOffset × Option Int :=
  let localTimeRes := getEpochTime offset ticks
  let halfTransitTime := calculateTransitTime localTimeReq localTimeRes
  if 3000 < halfTransitTime then (offset, none)
  else
    let newTime := subtractTransitTime rootTime halfTransitTime
    (setEpochTime newTime ticks, some (calculateDiffTime newTime localTimeRes))

variable {rootTime timeReq timeRes : TimeData} {offset : EpochOffset}

/-- A normal time is one of the milliseconds of all seconds. -/
theorem TimeData.Normal.total_lt (h : rootTime.Normal) : rootTime.total < 4294967296000 := by
  have hSeconds := rootTime.seconds_lt
  unfold TimeData.Normal at h
  unfold TimeData.total
  omega

/-- The transit time is cut to 32 bits, and its half to 16. -/
theorem calculateTransitTime_elapsed (timeReq timeRes : TimeData) :
    (calculateTransitTime timeReq timeRes : Int) = timeReq.elapsed timeRes % 131072 / 2 := by
  have hS := wrap32_eq (timeRes.seconds - timeReq.seconds)
  have hMs := wrap32_eq (timeRes.milliseconds - timeReq.milliseconds)
  have hProduct := wrap32_eq (wrap32 (timeRes.seconds - timeReq.seconds) * 1000)
  have hSum := wrap32_eq (wrap32 (wrap32 (timeRes.seconds - timeReq.seconds) * 1000) +
    wrap32 (timeRes.milliseconds - timeReq.milliseconds))
  have hHalf := wrap16_eq (wrap32 (wrap32 (wrap32 (timeRes.seconds - timeReq.seconds) * 1000) +
    wrap32 (timeRes.milliseconds - timeReq.milliseconds)) / 2 : Nat)
  unfold calculateTransitTime TimeData.elapsed TimeData.total
  dsimp only
  omega

/-- Of a transit of at most six seconds the half is exact, also where the seconds of the
clock begin again in between. -/
theorem calculateTransitTime_eq {transit : Nat}
    (hTransit : (timeReq.total + transit) % 4294967296000 = timeRes.total) (h : transit ≤ 6000) :
    calculateTransitTime timeReq timeRes = transit / 2 := by
  have hHalf := calculateTransitTime_elapsed timeReq timeRes
  unfold TimeData.elapsed at hHalf
  omega

theorem TimeData.Normal.secondsDecrement (h : rootTime.Normal) :
    rootTime.secondsDecrement.Normal ∧
      (rootTime.secondsDecrement.total + 1000) % 4294967296000 = rootTime.total := by
  have hSeconds := wrap32_eq (rootTime.seconds - 1)
  have hLt := rootTime.seconds_lt
  unfold TimeData.Normal at h
  unfold TimeData.secondsDecrement TimeData.Normal TimeData.total
  dsimp only
  omega

/-- The loop takes whole seconds away from both. -/
theorem subtractSeconds_spec (h : rootTime.Normal) (halfTransitTime : Nat) :
    (subtractSeconds rootTime halfTransitTime).1.Normal ∧
      (subtractSeconds rootTime halfTransitTime).2 ≤ 1000 ∧
      ((subtractSeconds rootTime halfTransitTime).1.total + halfTransitTime) % 4294967296000 =
        (rootTime.total + (subtractSeconds rootTime halfTransitTime).2) % 4294967296000 := by
  fun_induction subtractSeconds rootTime halfTransitTime with
  | case1 rootTime halfTransitTime hMore ih =>
      obtain ⟨hDecremented, hTotal⟩ := h.secondsDecrement
      obtain ⟨hNormal, hRest, hSum⟩ := ih hDecremented
      refine ⟨hNormal, hRest, ?_⟩
      omega
  | case2 rootTime halfTransitTime hLast =>
      exact ⟨h, by omega, rfl⟩

theorem subtractTransitTime_spec (h : rootTime.Normal) (halfTransitTime : Nat) :
    (subtractTransitTime rootTime halfTransitTime).Normal ∧
      ((subtractTransitTime rootTime halfTransitTime).total + halfTransitTime) % 4294967296000 =
        rootTime.total := by
  obtain ⟨hNormal, hRest, hSum⟩ := subtractSeconds_spec h halfTransitTime
  have hTotal := h.total_lt
  unfold subtractTransitTime
  generalize subtractSeconds rootTime halfTransitTime = result at hNormal hRest hSum ⊢
  cases result with
  | mk time rest =>
      have hSeconds := time.seconds_lt
      unfold TimeData.Normal at hNormal
      unfold TimeData.total at hSum hTotal
      dsimp only at hNormal hRest hSum ⊢
      by_cases hBorrow : time.milliseconds < rest
      · rw [if_pos hBorrow]
        have hEarlier := wrap32_eq (time.seconds - 1)
        have hSame := wrap32_eq (wrap32 (time.seconds - 1) : Nat)
        have hMore := wrap16_eq (time.milliseconds + 1000)
        have hMs := wrap16_eq (wrap16 (time.milliseconds + 1000) - rest)
        unfold TimeData.assign TimeData.secondsDecrement TimeData.Normal TimeData.total
        dsimp only
        omega
      · rw [if_neg hBorrow]
        have hSame := wrap32_eq (time.seconds : Nat)
        have hMs := wrap16_eq (time.milliseconds - rest)
        unfold TimeData.assign TimeData.Normal TimeData.total
        dsimp only
        omega

/-- The handler leaves an offset as normal as it was. -/
theorem timeDataHandler_normal (hOffset : offset.Normal) (hRoot : rootTime.Normal)
    (localTimeReq : TimeData) (ticks : Nat) :
    (timeDataHandler offset rootTime localTimeReq ticks).1.Normal := by
  unfold timeDataHandler
  dsimp only
  split_ifs
  · exact hOffset
  · exact (setEpochTime_spec (subtractTransitTime_spec hRoot _).1 ticks).1

/-- After a round trip of at most six seconds the node's time of the epoch is the time of
the root less half of the round trip. -/
theorem getEpochTime_timeDataHandler (hOffset : offset.Normal) (hRoot : rootTime.Normal)
    {request arrival : Nat} (hLater : request ≤ arrival)
    (hTransit : rtcCount arrival - rtcCount request ≤ 6000) :
    ((getEpochTime (timeDataHandler offset rootTime (getEpochTime offset request) arrival).1
      arrival).total + (rtcCount arrival - rtcCount request) / 2) % 4294967296000 =
        rootTime.total := by
  obtain ⟨-, hReqTotal⟩ := getEpochTime_spec hOffset request
  obtain ⟨-, hResTotal⟩ := getEpochTime_spec hOffset arrival
  have hCount := rtcCount_le hLater
  have hSum : ((getEpochTime offset request).total + (rtcCount arrival - rtcCount request)) %
      4294967296000 = (getEpochTime offset arrival).total := by omega
  have hHalf := calculateTransitTime_eq hSum hTransit
  obtain ⟨hNew, hNewTotal⟩ := subtractTransitTime_spec hRoot
    ((rtcCount arrival - rtcCount request) / 2)
  obtain ⟨hSet, hSetTotal⟩ := setEpochTime_spec hNew arrival
  obtain ⟨-, hTotal⟩ := getEpochTime_spec hSet arrival
  have hShort : ¬ 3000 < (rtcCount arrival - rtcCount request) / 2 := by omega
  unfold timeDataHandler
  dsimp only
  rw [hHalf, if_neg hShort]
  dsimp only
  rw [hTotal, hSetTotal]
  exact hNewTotal

end Smarthome.Time
