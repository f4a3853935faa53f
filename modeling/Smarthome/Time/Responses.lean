import Smarthome.Time.Handler
import Smarthome.Node.DatagramReads
import Smarthome.Semantics.Runs

/-! What `time_data_handler` makes of any response, with any stamp and any time of the root:
which responses it accepts, what it leaves in the offset, and the error that it reports. -/
namespace Smarthome.Time

open Semantics

/-- What `time_data_handler` sets the clock to, if it does not return before. -/
def newEpochTime (rootTime localTimeReq localTimeRes : TimeData) : Option TimeData :=
  let halfTransitTime := calculateTransitTime localTimeReq localTimeRes
  if 3000 < halfTransitTime then none else some (subtractTransitTime rootTime halfTransitTime)

/-- `time_data_handler`, with what `get_epoch_time` and then `set_epoch_time` read of the
local clock. Without the call of the latter, nothing is sent either. -/
def timeDataHandlerAt (offset : EpochOffset) (rootTime localTimeReq : TimeData)
    (received set : Reading) : EpochOffset × Option Int :=
  let localTimeRes := getEpochTimeAt offset received
  match newEpochTime rootTime localTimeReq localTimeRes with
  | none => (offset, none)
  | some newTime => (setEpochTimeAt newTime set, some (calculateDiffTime newTime localTimeRes))

/-- The handler at one value of the counter. -/
theorem timeDataHandler_eq (offset : EpochOffset) (rootTime localTimeReq : TimeData)
    (ticks : Nat) : timeDataHandler offset rootTime localTimeReq ticks =
      timeDataHandlerAt offset rootTime localTimeReq (readRtc ticks ticks)
        (readRtc ticks ticks) := by
  unfold timeDataHandler timeDataHandlerAt newEpochTime
  rw [getEpochTime_eq]
  dsimp only
  split_ifs with hLate
  · rfl
  · rfl

section Stale

/-- Outside of the six seconds, the handler leaves the clock alone. -/
def RejectsStale (offset : EpochOffset) (rootTime localTimeReq : TimeData)
    (received set : Reading) : Prop :=
  let elapsed := localTimeReq.elapsed (getEpochTimeAt offset received)
  ¬ (0 ≤ elapsed ∧ elapsed ≤ 6001) →
    timeDataHandlerAt offset rootTime localTimeReq received set = (offset, none)

theorem timeDataHandlerAt_eq_none_iff (offset : EpochOffset) (rootTime localTimeReq : TimeData)
    (received set : Reading) :
    timeDataHandlerAt offset rootTime localTimeReq received set = (offset, none) ↔
      6001 < localTimeReq.elapsed (getEpochTimeAt offset received) % 131072 := by
  have hHalf := calculateTransitTime_elapsed localTimeReq (getEpochTimeAt offset received)
  unfold timeDataHandlerAt newEpochTime
  dsimp only
  split_ifs with hLate
  · exact iff_of_true rfl (by omega)
  · refine iff_of_false (fun h => ?_) (by omega)
    cases congrArg Prod.snd h

/-- **When a response that is out of time is discarded.** The elapsed time must not fall into
the six seconds again where it is cut to 131072 milliseconds. -/
theorem stale_rejected_iff (offset : EpochOffset) (rootTime localTimeReq : TimeData)
    (received set : Reading) : RejectsStale offset rootTime localTimeReq received set ↔
      (0 ≤ localTimeReq.elapsed (getEpochTimeAt offset received) ∧
        localTimeReq.elapsed (getEpochTimeAt offset received) ≤ 6001) ∨
      6001 < localTimeReq.elapsed (getEpochTimeAt offset received) % 131072 := by
  unfold RejectsStale
  dsimp only
  rw [timeDataHandlerAt_eq_none_iff, or_iff_not_imp_left]

/-- A response that comes after two minutes and eleven seconds is accepted. -/
theorem stale_rejected_fails : ¬ ∀ (offset : EpochOffset) (rootTime localTimeReq : TimeData)
    (received set : Reading), RejectsStale offset rootTime localTimeReq received set := by
  intro h
  have hRejected := h EpochOffset.initial (TimeData.assign 0 0) (TimeData.assign 0 0)
    ⟨131, 72, by decide, by decide⟩ ⟨131, 72, by decide, by decide⟩ (by decide)
  cases congrArg Prod.snd hRejected

end Stale

section Stored

/-- What is left of the half transit time when the loop has taken whole seconds away. -/
def restTransitTime (halfTransitTime : Nat) : Nat :=
  halfTransitTime - (halfTransitTime - 1) / 1000 * 1000

/-- The loop does not look at the milliseconds. -/
theorem subtractSeconds_milliseconds (rootTime : TimeData) (halfTransitTime : Nat) :
    (subtractSeconds rootTime halfTransitTime).1.milliseconds = rootTime.milliseconds ∧
      (subtractSeconds rootTime halfTransitTime).2 = restTransitTime halfTransitTime := by
  unfold restTransitTime
  fun_induction subtractSeconds rootTime halfTransitTime with
  | case1 rootTime halfTransitTime hMore ih =>
      obtain ⟨hMilliseconds, hRest⟩ := ih
      exact ⟨hMilliseconds, by omega⟩
  | case2 rootTime halfTransitTime hLast => exact ⟨rfl, by omega⟩

/-- A second is borrowed at most, and only where the milliseconds are less than that. -/
theorem milliseconds_subtractTransitTime (rootTime : TimeData) (halfTransitTime : Nat) :
    (subtractTransitTime rootTime halfTransitTime).milliseconds =
      if rootTime.milliseconds < restTransitTime halfTransitTime then
        rootTime.milliseconds + 1000 - restTransitTime halfTransitTime
      else rootTime.milliseconds - restTransitTime halfTransitTime := by
  obtain ⟨hMilliseconds, hRest⟩ := subtractSeconds_milliseconds rootTime halfTransitTime
  have hSecond : restTransitTime halfTransitTime ≤ 1000 := by
    unfold restTransitTime
    omega
  have hRoot := rootTime.milliseconds_lt
  unfold subtractTransitTime
  generalize subtractSeconds rootTime halfTransitTime = result at hMilliseconds hRest ⊢
  cases result with
  | mk time rest =>
      dsimp only at hMilliseconds hRest ⊢
      rw [hMilliseconds, hRest]
      by_cases hBorrow : rootTime.milliseconds < restTransitTime halfTransitTime
      · rw [if_pos hBorrow, if_pos hBorrow]
        have hMore := wrap16_eq (rootTime.milliseconds + 1000)
        have hMs := wrap16_eq (wrap16 (rootTime.milliseconds + 1000) -
          restTransitTime halfTransitTime)
        unfold TimeData.assign
        dsimp only
        omega
      · rw [if_neg hBorrow, if_neg hBorrow]
        have hMs := wrap16_eq (rootTime.milliseconds - restTransitTime halfTransitTime)
        unfold TimeData.assign
        dsimp only
        omega

/-- One second too many is given to the seconds, but not two. -/
theorem setEpochTimeAt_normal_iff (newTime : TimeData) (reading : Reading) :
    (setEpochTimeAt newTime reading).Normal ↔
      newTime.milliseconds < 2000 + reading.milliseconds := by
  have hMs := reading.milliseconds_le
  rw [EpochOffset.Normal, setEpochTimeAt_msec]
  split_ifs
  all_goals omega

/-- Every value that `get_epoch_time` can return is normal. -/
def AlwaysNormal (offset : EpochOffset) : Prop :=
  ∀ reading, (getEpochTimeAt offset reading).Normal

/-- An offset that is not normal is seen at the beginning or at the end of a second. -/
theorem alwaysNormal_iff (offset : EpochOffset) : AlwaysNormal offset ↔ offset.Normal := by
  constructor
  · intro h
    have hOffset := offset.epochMsecOffset_lt
    have hFirst := h ⟨0, 0, by decide, by decide⟩
    have hLast := h ⟨0, 1000, by decide, by decide⟩
    have hFirstSum := wrap16_eq ((0 : Nat) + offset.epochMsecOffset)
    have hFirstRest := wrap16_eq (wrap16 ((0 : Nat) + offset.epochMsecOffset) - 1000)
    have hLastSum := wrap16_eq ((1000 : Nat) + offset.epochMsecOffset)
    have hLastRest := wrap16_eq (wrap16 ((1000 : Nat) + offset.epochMsecOffset) - 1000)
    unfold TimeData.Normal getEpochTimeAt TimeData.assign at hFirst hLast
    unfold EpochOffset.Normal
    dsimp only at hFirst hLast
    split_ifs at hFirst hLast
    all_goals
      dsimp only at hFirst hLast
      omega
  · intro h reading
    exact (getEpochTimeAt_spec h reading).1

/-- A response with the readings of the local clock in its handler. -/
structure Response where
  data : Nat → Byte
  received : Reading
  set : Reading
  isResponse : Node.udpReceiver data = .timeDataHandler

namespace Response

def rootTime (response : Response) : TimeData :=
  (Node.Receiving.timeResponse.value response.data).1

def localTimeReq (response : Response) : TimeData :=
  (Node.Receiving.timeResponse.value response.data).2

end Response

/-- The offset after a response. -/
def receiveResponse (offset : EpochOffset) (response : Response) : Option EpochOffset :=
  some (timeDataHandlerAt offset response.rootTime response.localTimeReq response.received
    response.set).1

/-- Half of the milliseconds from the stamp to the local time with the offset, as far as the
handler sees them. -/
def halfTransitTime (offset : EpochOffset) (response : Response) : Nat :=
  (((response.received.total + offset.total : Nat) - response.localTimeReq.total : Int) % 131072 /
    2).toNat

/-- Where the response is accepted, the milliseconds of the root are less than two seconds
above those of the local clock, with what is left of the half transit time. -/
def KeepsNormal (offset : EpochOffset) (response : Response) : Prop :=
  halfTransitTime offset response ≤ 3000 → response.rootTime.milliseconds <
    2000 + response.set.milliseconds + restTransitTime (halfTransitTime offset response)

theorem halfTransitTime_eq {offset : EpochOffset} (h : offset.Normal) (response : Response) :
    halfTransitTime offset response =
      calculateTransitTime response.localTimeReq (getEpochTimeAt offset response.received) := by
  have hHalf := calculateTransitTime_elapsed response.localTimeReq
    (getEpochTimeAt offset response.received)
  obtain ⟨-, hTotal⟩ := getEpochTimeAt_spec h response.received
  unfold TimeData.elapsed at hHalf
  unfold halfTransitTime
  omega

/-- One response leaves a normal offset, or it does not. -/
theorem receiveResponse_normal_iff {offset next : EpochOffset} {response : Response}
    (h : offset.Normal) (hStep : receiveResponse offset response = some next) :
    next.Normal ↔ KeepsNormal offset response := by
  have hHalf := halfTransitTime_eq h response
  obtain rfl := Option.some.inj hStep
  unfold KeepsNormal timeDataHandlerAt newEpochTime
  dsimp only
  rw [hHalf]
  split_ifs with hLate
  · exact iff_of_true h fun hEarly => absurd hEarly (Nat.not_le.mpr hLate)
  · have hSecond : restTransitTime (calculateTransitTime response.localTimeReq
        (getEpochTimeAt offset response.received)) ≤ 1000 := by
      unfold restTransitTime
      omega
    show (setEpochTimeAt _ response.set).Normal ↔ _
    rw [setEpochTimeAt_normal_iff, milliseconds_subtractTransitTime]
    split_ifs with hBorrow
    · omega
    · omega

/-- **When the stored time stays normal.** All that `get_epoch_time` returns, at every moment of
a sequence of responses, has less than a second of milliseconds if and only if each response
keeps it so. -/
theorem stored_time_normal_iff (responses : List Response) :
    Throughout receiveResponse AlwaysNormal EpochOffset.initial responses ↔
      Along receiveResponse KeepsNormal EpochOffset.initial responses := by
  have hFits : Along receiveResponse (fun _ _ => True) EpochOffset.initial responses :=
    Along.of_forall (fun _ _ => trivial) _ responses
  refine throughout_iff EpochOffset.Normal AlwaysNormal ?_ ?_ ?_ responses ?_ hFits
  · intro offset h
    exact (alwaysNormal_iff offset).mpr h
  · intro offset response h _ hKeeps next hStep
    exact (receiveResponse_normal_iff h hStep).mpr hKeeps
  · intro offset response h _ hNot
    refine ⟨_, rfl, fun hNormal => hNot ?_⟩
    exact (receiveResponse_normal_iff h rfl).mp ((alwaysNormal_iff _).mp hNormal)
  · exact EpochOffset.initial_normal

/-- A response to a request at the start, whose time of the root has these milliseconds. -/
def responseBytes (low high : Byte) (i : Nat) : Byte :=
  [protocolVersionV1, currentDeviceVersion, dataTypeSetTime, dataTypeSetTimeResponse, 0, 0, 0, 0,
    low, high].getD i 0

/-- A root with two seconds of milliseconds. -/
theorem stored_time_normal_fails : ¬ ∀ responses : List Response,
    Throughout receiveResponse AlwaysNormal EpochOffset.initial responses := by
  intro h
  let start : Reading := ⟨0, 0, by decide, by decide⟩
  let response : Response := ⟨responseBytes 0xD0 0x07, start, start, by decide⟩
  have hAfter := ((h [response]).2 _ rfl).head
  have hKeeps := (receiveResponse_normal_iff EpochOffset.initial_normal rfl).mp
    ((alwaysNormal_iff _).mp hAfter)
  exact absurd (hKeeps (by decide)) (by decide)

end Stored

section SyncError

/-- The difference of two times in milliseconds, as `calculate_diff_time` should return it. -/
def signedDiffTime (timeMax timeMin : TimeData) : Int :=
  if (timeMin.elapsed timeMax).natAbs ≤ 30000 then timeMin.elapsed timeMax else 32767

/-- The error is signed: it is the difference, and it changes its sign with the two times. -/
def SignedError (timeMax timeMin : TimeData) : Prop :=
  calculateDiffTime timeMax timeMin = signedDiffTime timeMax timeMin ∧
    (calculateDiffTime timeMax timeMin ≠ 32767 → calculateDiffTime timeMin timeMax ≠ 32767 →
      calculateDiffTime timeMin timeMax = -calculateDiffTime timeMax timeMin)

variable {timeMax timeMin : TimeData}

/-- The seconds are subtracted without a sign, and so the difference of the times is taken on
the circle of all seconds, but for the milliseconds. -/
theorem calculateDiffTime_eq (hMax : timeMax.Normal) (hMin : timeMin.Normal) :
    calculateDiffTime timeMax timeMin =
      if timeMin.seconds ≤ timeMax.seconds then
        (if timeMin.elapsed timeMax ≤ 30000 then timeMin.elapsed timeMax else 32767)
      else if timeMin.elapsed timeMax + 4294967296000 ≤ 30000 then
        timeMin.elapsed timeMax + 4294967296000
      else 32767 := by
  have hMaxSeconds := timeMax.seconds_lt
  have hMinSeconds := timeMin.seconds_lt
  have hSeconds := wrap32_eq (timeMax.seconds - timeMin.seconds)
  unfold TimeData.Normal at hMax hMin
  unfold calculateDiffTime TimeData.elapsed TimeData.total
  dsimp only
  split_ifs
  all_goals omega

/-- Only times of one second, or on both sides of zero seconds, can be less than half a minute
apart both ways. -/
theorem calculateDiffTime_neg (hMax : timeMax.Normal) (hMin : timeMin.Normal)
    (hForth : calculateDiffTime timeMax timeMin ≠ 32767)
    (hBack : calculateDiffTime timeMin timeMax ≠ 32767) :
    calculateDiffTime timeMin timeMax = -calculateDiffTime timeMax timeMin := by
  have hMaxSeconds := timeMax.seconds_lt
  have hMinSeconds := timeMin.seconds_lt
  rw [calculateDiffTime_eq hMax hMin] at hForth ⊢
  rw [calculateDiffTime_eq hMin hMax] at hBack ⊢
  unfold TimeData.Normal at hMax hMin
  unfold TimeData.elapsed TimeData.total at hForth hBack ⊢
  split_ifs at hForth hBack ⊢
  all_goals omega

/-- **When the error is signed.** The first time must not have fewer seconds than the second
one, unless they are more than half a minute apart on the circle of all seconds too. -/
theorem signed_error_iff (hMax : timeMax.Normal) (hMin : timeMin.Normal) :
    SignedError timeMax timeMin ↔ timeMin.seconds ≤ timeMax.seconds ∨
      (30000 - 4294967296000 < timeMin.elapsed timeMax ∧ timeMin.elapsed timeMax < -30000) := by
  have hMaxSeconds := timeMax.seconds_lt
  have hMinSeconds := timeMin.seconds_lt
  have hNeg := calculateDiffTime_neg hMax hMin
  unfold SignedError signedDiffTime
  rw [and_iff_left hNeg, calculateDiffTime_eq hMax hMin]
  unfold TimeData.Normal at hMax hMin
  unfold TimeData.elapsed TimeData.total
  split_ifs
  all_goals omega

/-- Five milliseconds, within one second. -/
theorem signed_error_milliseconds : SignedError (TimeData.assign 7 0) (TimeData.assign 7 5) :=
  (signed_error_iff (TimeData.assign_normal 7 (by decide) (by decide))
    (TimeData.assign_normal 7 (by decide) (by decide))).mpr (Or.inl (by decide))

/-- One second the other way round. -/
theorem signed_error_fails : ¬ ∀ timeMax timeMin : TimeData, timeMax.Normal → timeMin.Normal →
    SignedError timeMax timeMin := by
  intro h
  have hError := (h (TimeData.assign 7 0) (TimeData.assign 8 0)
    (TimeData.assign_normal 7 (by decide) (by decide))
    (TimeData.assign_normal 8 (by decide) (by decide))).1
  exact absurd hError (by decide)

end SyncError

end Smarthome.Time
