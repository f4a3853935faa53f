import Smarthome.Node.UpdateProcess
import Smarthome.Semantics.Runs
import Mathlib.Data.List.Chain

/-! An update from its start to its exit: which chunks `fw_update_process` requests, how
many more when packets stop, and what it leaves to the next update. -/
namespace Smarthome.Node.UpdateProcess

open Semantics

/-- Requests that start with the first chunk, each for the chunk before it or the next one. -/
structure InOrder (fwChunkQuantity : Nat) (requests : List Nat) : Prop where
  inside : ∀ n ∈ requests, n < fwChunkQuantity
  neighbours : requests.IsChain fun n next => next = n ∨ next = n + 1
  first : ∀ n ∈ requests.head?, n = 0

/-- The chunk may be requested after these requests. -/
def Follows (requests : List Nat) (chunk : Nat) : Prop :=
  match requests.getLast? with
  | none => chunk = 0
  | some last => chunk = last ∨ chunk = last + 1

theorem InOrder.nil (fwChunkQuantity : Nat) : InOrder fwChunkQuantity [] where
  inside := nofun
  neighbours := List.isChain_nil
  first := nofun

theorem InOrder.snoc {fwChunkQuantity chunk : Nat} {requests : List Nat}
    (h : InOrder fwChunkQuantity requests) (hInside : chunk < fwChunkQuantity)
    (hFollows : Follows requests chunk) : InOrder fwChunkQuantity (requests ++ [chunk]) where
  inside := fun n hn => by
    rcases List.mem_append.mp hn with hBefore | hLast
    · exact h.inside n hBefore
    · rw [List.mem_singleton.mp hLast]
      exact hInside
  neighbours := by
    rw [List.isChain_append]
    refine ⟨h.neighbours, List.isChain_singleton _, fun last hLast next hNext => ?_⟩
    obtain rfl : chunk = next := by simpa using hNext
    rw [Follows, Option.mem_def.mp hLast] at hFollows
    exact hFollows
  first := fun n hn => by
    cases requests with
    | nil =>
        obtain rfl : chunk = n := by simpa using hn
        exact hFollows
    | cons first rest => exact h.first n hn

/-- A timer of a wait is in the list, or its event is in the queue. -/
def Pending (process : UpdateProcess) (timer : UpdateTimer) (isExpired : Bool) : Prop :=
  timer ∈ process.timerlist ∨ isExpired = true ∧ 0 < process.events

/-- The process will be called when its wait is over, and never after its exit. -/
def Awaited (process : UpdateProcess) : Prop :=
  match process.node.waitPoint with
  | .imageErase _ => process.Pending .otaImageEraseTimer process.otaImageEraseTimerExpired
  | .chunk =>
      process.Pending .fwTimer process.node.fwTimerExpired ∨
        process.node.fwTimerExpired = true ∧ process.packetEvent = true
  | .delayChunk => process.Pending .fwTimerDelayChunk process.fwTimerDelayChunkExpired
  | .verifying => True
  | .notRunning => process.events = 0 ∧ process.timerlist = []

/-- The counters and the thread, by the point at which the process waits. -/
def CountedAt (process : UpdateProcess) : Prop :=
  match process.node.waitPoint with
  | .imageErase page =>
      process.lc = .imageErase page ∧ page < 25 ∧ process.node.chunkNum = 0 ∧
        process.node.fwErrorCounter = 0 ∧ process.requests = []
  | .chunk =>
      process.lc = .chunk ∧ 0 < process.node.chunkNum ∧
        process.node.chunkNum ≤ process.node.fwChunkQuantity ∧
        process.requests.getLast? = some (process.node.chunkNum - 1) ∧
        (.fwTimerDeadline ∈ process.timerlist ∨ process.node.fwTimerDeadlineExpired = true)
  | .delayChunk =>
      process.lc = .delayChunk ∧ process.node.chunkNum ≤ process.node.fwChunkQuantity ∧
        Follows process.requests process.node.chunkNum
  | .verifying | .notRunning => process.node.chunkNum = 0 ∧ process.node.fwErrorCounter = 0

structure Counted (process : UpdateProcess) : Prop where
  quantity : process.node.fwChunkQuantity < 0x10000
  errors : process.node.fwErrorCounter ≤ 6
  active : process.node.spiActive = true ∨
    process.requests = [] ∧ process.node.waitPoint = .notRunning
  inOrder : InOrder process.node.fwChunkQuantity process.requests
  point : process.CountedAt

/-- The process is about to give up: the chunk has been requested too often. -/
def Exhausted (process : UpdateProcess) : Prop :=
  process.node.waitPoint = .chunk ∧ process.node.fwTimerExpired = true ∧
    process.node.fwTimerDeadlineExpired = true ∧
    process.node.chunkNum < process.node.fwChunkQuantity ∧
    process.node.fwErrorCounter > fwMaxErrorCounter

/-- When the process exits, no event for it is left in the queue. -/
def Quiet (process : UpdateProcess) : UpdateEvent → Prop
  | .finish => process.events = 0
  | .deliver => process.Exhausted → process.events = 1
  | .broadcast => process.Exhausted → process.events = 0
  | _ => True

/-- No update is announced while one runs. -/
def OneUpdate (process : UpdateProcess) : UpdateEvent → Prop
  | .receive data =>
      ∀ quantity, udpReceiver data = .firmwareCmdNewFwHandler quantity →
        process.node.waitPoint = .notRunning
  | _ => True

section Turn

variable {process other : UpdateProcess}

theorem Turn.listed (h : Turn process other) : process.node.waitPoint ≠ .notRunning := by
  cases h with
  | erase page flash hPoint => simp [hPoint]
  | request hTop | verify hTop =>
      rcases hTop with ⟨page, hPoint, -⟩ | hPoint
      · simp [hPoint]
      · simp [hPoint]
  | giveUp hPoint | again hPoint | next hPoint => simp [hPoint]

theorem Counted.follows_of_atTop (h : process.Counted) (hTop : process.AtTop) :
    Follows process.requests process.node.chunkNum := by
  have hPoint := h.point
  rw [CountedAt] at hPoint
  rcases hTop with ⟨page, hErase, -⟩ | hDelay
  · rw [hErase] at hPoint
    obtain ⟨-, -, hNum, -, hNone⟩ := hPoint
    rw [hNone]
    exact hNum
  · rw [hDelay] at hPoint
    exact hPoint.2.2

/-- A turn of the thread keeps the count. -/
theorem counted_turn (h : process.Counted) (hTurn : Turn process other) : other.Counted := by
  have hQuantity := h.quantity
  have hPoint := h.point
  have hActive : process.node.spiActive = true :=
    h.active.resolve_right fun hOff => hTurn.listed hOff.2
  rw [CountedAt] at hPoint
  cases hTurn with
  | erase page flash hErase hMore =>
      rw [hErase] at hPoint
      obtain ⟨-, -, hNum, hErrors, hNone⟩ := hPoint
      exact ⟨h.quantity, h.errors, Or.inl hActive, h.inOrder, rfl, hMore, hNum, hErrors, hNone⟩
  | request hTop hMore =>
      have hFollows := h.follows_of_atTop hTop
      have hNext : (process.node.chunkNum + 1) % 0x10000 = process.node.chunkNum + 1 := by omega
      refine ⟨h.quantity, h.errors, Or.inl hActive, h.inOrder.snoc hMore hFollows, rfl, ?_, ?_, ?_, ?_⟩
      · show 0 < (process.node.chunkNum + 1) % 0x10000
        omega
      · show (process.node.chunkNum + 1) % 0x10000 ≤ process.node.fwChunkQuantity
        omega
      · show (process.requests ++ [process.node.chunkNum]).getLast? = _
        rw [List.getLast?_append]
        simp [hNext]
      · exact Or.inl (by simp)
  | verify hTop hEnd => exact ⟨h.quantity, Nat.zero_le _, Or.inl hActive, h.inOrder, rfl, rfl⟩
  | giveUp hChunk hDeadline hMore hErrors =>
      exact ⟨h.quantity, Nat.zero_le _, Or.inl hActive, h.inOrder, rfl, rfl⟩
  | again hChunk hDeadline hMore hErrors =>
      rw [hChunk] at hPoint
      obtain ⟨-, hPositive, hLe, hLast, -⟩ := hPoint
      have hBack : (process.node.chunkNum + 0xFFFF) % 0x10000 = process.node.chunkNum - 1 := by omega
      have hCount : (process.node.fwErrorCounter + 1) % 0x100 ≤ 6 := by
        rw [fwMaxErrorCounter] at hErrors
        omega
      refine ⟨h.quantity, hCount, Or.inl hActive, h.inOrder, rfl, ?_, ?_⟩
      · show (process.node.chunkNum + 0xFFFF) % 0x10000 ≤ process.node.fwChunkQuantity
        omega
      · show Follows process.requests ((process.node.chunkNum + 0xFFFF) % 0x10000)
        rw [Follows, hLast, hBack]
        exact Or.inl rfl
  | next hChunk hNext =>
      rw [hChunk] at hPoint
      obtain ⟨-, hPositive, hLe, hLast, -⟩ := hPoint
      refine ⟨h.quantity, h.errors, Or.inl hActive, h.inOrder, rfl, hLe, ?_⟩
      show Follows process.requests process.node.chunkNum
      rw [Follows, hLast]
      exact Or.inr (Nat.sub_add_cancel hPositive).symm

/-- A turn of the thread sets the timer of its next wait, or it is the last one. -/
theorem awaited_turn (hTurn : Turn process other)
    (hQuiet : other.node.waitPoint = .notRunning → process.events = 0) : other.Awaited := by
  cases hTurn with
  | erase | again | next => exact Or.inl List.mem_insert_self
  | request =>
      exact Or.inl (Or.inl (List.mem_insert_of_mem List.mem_insert_self))
  | verify => trivial
  | giveUp => exact ⟨hQuiet rfl, rfl⟩

/-- A turn that ends the update is one that gives up. -/
theorem Turn.exhausted (hTurn : Turn process other) (hExpired : process.expired = true)
    (hLc : process.lc = process.node.waitPoint) (hEnd : other.node.waitPoint = .notRunning) :
    process.Exhausted := by
  cases hTurn with
  | giveUp hPoint hDeadline hMore hErrors =>
      rw [expired, hLc, hPoint] at hExpired
      exact ⟨hPoint, hExpired, hDeadline, hMore, hErrors⟩
  | erase | request | verify | again | next => cases hEnd

/-- A wait that goes on has its timer in the list. -/
theorem Awaited.of_not_expired (h : process.Awaited) (hLc : process.lc = process.node.waitPoint)
    (hExpired : process.expired = false) (events : Nat) (packetEvent : Bool)
    (hEvents : process.node.waitPoint = .notRunning → events = process.events) :
    { process with events, packetEvent }.Awaited := by
  rw [expired, hLc] at hExpired
  rw [Awaited] at h ⊢
  dsimp only
  cases hPoint : process.node.waitPoint with
  | notRunning =>
      rw [hPoint] at h
      exact ⟨(hEvents hPoint).trans h.1, h.2⟩
  | imageErase page | delayChunk =>
      rw [hPoint] at h hExpired
      exact Or.inl (h.resolve_right fun hOver => by simp [hExpired] at hOver)
  | chunk =>
      rw [hPoint] at h hExpired
      exact Or.inl (Or.inl ((h.resolve_right fun hOver => by simp [hExpired] at hOver).resolve_right
        fun hOver => by simp [hExpired] at hOver))
  | verifying => trivial

end Turn

/-- The counters are right, and the process will be called. -/
def Regular (process : UpdateProcess) : Prop := process.Counted ∧ process.Awaited

section Step

variable {process other : UpdateProcess}

theorem Counted.lc_eq (h : process.Counted) (hListed : process.node.waitPoint ≠ .notRunning)
    (hWaits : process.node.waitPoint ≠ .verifying) : process.lc = process.node.waitPoint := by
  have hPoint := h.point
  rw [CountedAt] at hPoint
  cases hCase : process.node.waitPoint with
  | notRunning => exact absurd hCase hListed
  | verifying => exact absurd hCase hWaits
  | imageErase page | chunk | delayChunk =>
      rw [hCase] at hPoint
      exact hPoint.1

/-- Counters do not depend on the events in the queue. -/
theorem Counted.withEvents (h : process.Counted) (events : Nat) (packetEvent : Bool) :
    { process with events, packetEvent }.Counted :=
  ⟨h.quantity, h.errors, h.active, h.inOrder, h.point⟩

theorem regular_call {events : Nat} {packetEvent : Bool} (h : process.Regular)
    (hListed : process.node.waitPoint ≠ .notRunning)
    (hWaits : process.node.waitPoint ≠ .verifying)
    (hQuiet : process.Exhausted → events = 0)
    (hStep : { process with events, packetEvent }.call = some other) : other.Regular := by
  obtain ⟨hCounted, hAwaited⟩ := h
  have hLc := hCounted.lc_eq hListed hWaits
  have hCases := @call_cases { process with events, packetEvent } other hLc hStep
  rcases hCases with ⟨hWaiting, rfl⟩ | ⟨hExpired, hTurn⟩
  · exact ⟨hCounted.withEvents events packetEvent,
      hAwaited.of_not_expired hLc hWaiting events packetEvent fun hPoint => absurd hPoint hListed⟩
  · apply And.intro (counted_turn (hCounted.withEvents events packetEvent) hTurn)
    apply awaited_turn hTurn
    intro hEnd
    exact hQuiet (hTurn.exhausted hExpired hLc hEnd)

/-- After its exit nothing is left that could call the process. -/
theorem Regular.idle (h : process.Regular) (hIdle : process.node.waitPoint = .notRunning) :
    process.events = 0 ∧ process.timerlist = [] := by
  have hNone := h.2
  rwa [Awaited, hIdle] at hNone

theorem regular_exit (h : process.Counted) (hPoint : process.node.waitPoint = .verifying)
    (hQuiet : process.events = 0) : process.exit.Regular := by
  have hZero := h.point
  rw [CountedAt, hPoint] at hZero
  rw [exit, hPoint, if_neg (by decide)]
  exact ⟨⟨h.quantity, h.errors, Or.inl (h.active.resolve_right fun hOff => by simp [hPoint] at hOff),
    h.inOrder, hZero⟩, hQuiet, rfl⟩

/-- A timer that expires leaves the list, and its event is in the queue. -/
theorem Pending.expire {awaited timer : UpdateTimer} {isExpired expiredThen : Bool}
    (h : process.Pending awaited isExpired) (hTimer : awaited = timer → expiredThen = true)
    (hOver : isExpired = true → expiredThen = true)
    (hList : other.timerlist = process.timerlist.erase timer)
    (hEvents : other.events = process.events + 1) : other.Pending awaited expiredThen := by
  rw [Pending, hList, hEvents]
  rcases eq_or_ne awaited timer with hSame | hOther
  · exact Or.inr ⟨hTimer hSame, Nat.succ_pos _⟩
  · rcases h with hMem | ⟨hExpired, -⟩
    · exact Or.inl ((List.mem_erase_of_ne hOther).mpr hMem)
    · exact Or.inr ⟨hOver hExpired, Nat.succ_pos _⟩

/-- No counter depends on a timer, except that the deadline is marked when it has passed. -/
theorem counted_expire {timer : UpdateTimer} (h : process.Counted)
    (hStep : process.expire timer = some other) : other.Counted := by
  obtain ⟨-, -, rfl⟩ := expire_eq hStep
  have hPoint := h.point
  rw [CountedAt] at hPoint
  refine ⟨h.quantity, h.errors, h.active, h.inOrder, ?_⟩
  rw [CountedAt]
  dsimp only
  cases hCase : process.node.waitPoint with
  | chunk =>
      rw [hCase] at hPoint
      obtain ⟨hLc, hPositive, hLe, hLast, hDeadline⟩ := hPoint
      refine ⟨hLc, hPositive, hLe, hLast, ?_⟩
      rcases eq_or_ne timer .fwTimerDeadline with hSame | hOther
      · exact Or.inr (by simp [hSame])
      · rcases hDeadline with hList | hExpired
        · exact Or.inl ((List.mem_erase_of_ne hOther.symm).mpr hList)
        · exact Or.inr (by simp [hExpired])
  | imageErase page | delayChunk | verifying | notRunning =>
      rw [hCase] at hPoint
      exact hPoint

theorem awaited_expire {timer : UpdateTimer} (h : process.Awaited)
    (hStep : process.expire timer = some other) : other.Awaited := by
  obtain ⟨hMem, -, rfl⟩ := expire_eq hStep
  rw [Awaited] at h ⊢
  dsimp only
  cases hCase : process.node.waitPoint with
  | imageErase page | delayChunk =>
      rw [hCase] at h
      exact h.expire (fun hSame => by simp [hSame]) (fun hOver => by simp [hOver]) rfl rfl
  | chunk =>
      rw [hCase] at h
      rcases h with hPending | ⟨hExpired, hPacket⟩
      · exact Or.inl (hPending.expire (fun hSame => by simp [← hSame])
          (fun hOver => by simp [hOver]) rfl rfl)
      · exact Or.inr ⟨by simp [hExpired], hPacket⟩
  | verifying => trivial
  | notRunning =>
      rw [hCase] at h
      rw [h.2] at hMem
      cases hMem

theorem regular_expire {timer : UpdateTimer} (h : process.Regular)
    (hStep : process.expire timer = some other) : other.Regular :=
  ⟨counted_expire h.1 hStep, awaited_expire h.2 hStep⟩

theorem regular_receive {data : Nat → Byte} (h : process.Regular)
    (hOne : process.OneUpdate (.receive data)) (hStep : process.receive data = some other) :
    other.Regular := by
  obtain ⟨hCounted, hAwaited⟩ := h
  have hPoint := hCounted.point
  rw [CountedAt] at hPoint
  cases receive_cases hStep with
  | unrelated flash =>
      exact ⟨⟨hCounted.quantity, hCounted.errors, hCounted.active, hCounted.inOrder,
        hCounted.point⟩, hAwaited⟩
  | packet flash buffer hData =>
      constructor
      · refine ⟨hCounted.quantity, Nat.zero_le _, hCounted.active, hCounted.inOrder, ?_⟩
        rw [CountedAt]
        dsimp only
        cases hCase : process.node.waitPoint with
        | notRunning | verifying =>
            rw [hCase] at hPoint
            exact ⟨hPoint.1, rfl⟩
        | imageErase page =>
            rw [hCase] at hPoint
            exact ⟨hPoint.1, hPoint.2.1, hPoint.2.2.1, rfl, hPoint.2.2.2.2⟩
        | chunk =>
            rw [hCase] at hPoint
            obtain ⟨hLc, hPositive, hLe, hLast, hDeadline⟩ := hPoint
            exact ⟨hLc, hPositive, hLe, hLast,
              hDeadline.imp_left fun hList => (List.mem_erase_of_ne (by decide)).mpr hList⟩
        | delayChunk =>
            rw [hCase] at hPoint
            exact hPoint
      · rw [Awaited] at hAwaited ⊢
        dsimp only
        cases hCase : process.node.waitPoint with
        | notRunning =>
            rw [hCase] at hAwaited
            refine ⟨hAwaited.1, ?_⟩
            rw [hAwaited.2]
            rfl
        | verifying => trivial
        | imageErase page | delayChunk =>
            rw [hCase] at hAwaited
            exact hAwaited.imp_left fun hList => (List.mem_erase_of_ne (by decide)).mpr hList
        | chunk => exact Or.inr ⟨rfl, rfl⟩
  | start flash quantity hData hStart =>
      rw [hStart.2] at hPoint
      exact ⟨⟨udpReceiver_newFw_lt hData, hCounted.errors, Or.inl hStart.1, InOrder.nil _,
        rfl, by decide, hPoint.1, hPoint.2, rfl⟩, Or.inl List.mem_insert_self⟩
  | announce quantity hData hStart =>
      have hIdle := hOne quantity hData
      have hOff : process.node.spiActive = false :=
        Bool.eq_false_iff.mpr fun hActive => hStart ⟨hActive, hIdle⟩
      have hNone : process.requests = [] := by
        rcases hCounted.active with hActive | hNone
        · exact absurd ⟨hActive, hIdle⟩ hStart
        · exact hNone.1
      refine ⟨⟨udpReceiver_newFw_lt hData, hCounted.errors, Or.inr ⟨hNone, hIdle⟩, ?_, ?_⟩, hAwaited⟩
      · rw [hNone]
        exact InOrder.nil _
      · rw [hIdle] at hPoint
        rw [CountedAt, hIdle]
        exact hPoint

/-- One event keeps the process regular. -/
theorem regular_step {event : UpdateEvent} (h : process.Regular) (hQuiet : process.Quiet event)
    (hOne : process.OneUpdate event) (hStep : process.step event = some other) : other.Regular := by
  cases event with
  | expire timer =>
      rw [step] at hStep
      split_ifs at hStep
      exact regular_expire h hStep
  | deliver =>
      rw [step] at hStep
      split_ifs at hStep with hNone
      rw [not_or] at hNone
      have hListed : process.node.waitPoint ≠ .notRunning :=
        fun hIdle => hNone.2 (h.idle hIdle).1
      apply regular_call h hListed hNone.1 _ hStep
      intro hExhausted
      rw [hQuiet hExhausted]
  | broadcast =>
      rw [step] at hStep
      split_ifs at hStep with hWaits hIdle
      · obtain rfl := Option.some.inj hStep
        apply And.intro (h.1.withEvents process.events false)
        rw [Awaited]
        dsimp only
        rw [hIdle]
        exact h.idle hIdle
      · exact regular_call h hIdle hWaits hQuiet hStep
  | receive data =>
      rw [step] at hStep
      split_ifs at hStep
      exact regular_receive h hOne hStep
  | finish =>
      rw [step] at hStep
      split_ifs at hStep with hPoint
      exact Option.some.inj hStep ▸ regular_exit h.1 hPoint hQuiet

end Step

/-- No packet and no announcement. -/
def Silent : UpdateEvent → Prop
  | .receive data =>
      (∀ buffer, udpReceiver data ≠ .firmwareDataHandler buffer) ∧
        ∀ quantity, udpReceiver data ≠ .firmwareCmdNewFwHandler quantity
  | _ => True

/-- How many chunks are requested at most before the process gives up, in silence. -/
def requestsLeft (process : UpdateProcess) : Nat :=
  match process.node.waitPoint with
  | .imageErase _ => 7
  | .chunk =>
      if process.node.chunkNum < process.node.fwChunkQuantity then
        if process.node.fwTimerExpired = true ∧ process.node.fwTimerDeadlineExpired = false then
          7 - process.node.fwErrorCounter
        else 6 - process.node.fwErrorCounter
      else 0
  | .delayChunk =>
      if process.node.chunkNum < process.node.fwChunkQuantity then 7 - process.node.fwErrorCounter
      else 0
  | .verifying | .notRunning => 0

/-- How often the thread goes on at most: twice for each request, and once for each page. -/
def turnsLeft (process : UpdateProcess) : Nat :=
  match process.node.waitPoint with
  | .imageErase page => 41 - page
  | .chunk => 2 * process.requestsLeft + 2
  | .delayChunk => 2 * process.requestsLeft + 1
  | .verifying | .notRunning => 0

section Silence

variable {process other : UpdateProcess}

theorem requestsLeft_le (process : UpdateProcess) : process.requestsLeft ≤ 7 := by
  rw [requestsLeft]
  cases process.node.waitPoint with
  | _ =>
      dsimp only
      try split_ifs
      all_goals omega

theorem turnsLeft_le (process : UpdateProcess) : process.turnsLeft ≤ 41 := by
  have hRequests := process.requestsLeft_le
  rw [turnsLeft]
  cases process.node.waitPoint with
  | _ =>
      dsimp only
      omega

/-- What has been done, and what can still be done before the exit, do not grow. -/
structure Spends (process other : UpdateProcess) : Prop where
  requests : other.requests.length + other.requestsLeft ≤
    process.requests.length + process.requestsLeft
  turns : other.turns + other.turnsLeft ≤ process.turns + process.turnsLeft

theorem requestsLeft_erase {page : Nat} (hPoint : process.node.waitPoint = .imageErase page) :
    process.requestsLeft = 7 := by
  rw [requestsLeft, hPoint]

theorem requestsLeft_delay (hPoint : process.node.waitPoint = .delayChunk) :
    process.requestsLeft = if process.node.chunkNum < process.node.fwChunkQuantity then
      7 - process.node.fwErrorCounter else 0 := by
  rw [requestsLeft, hPoint]

theorem requestsLeft_chunk (hPoint : process.node.waitPoint = .chunk) :
    process.requestsLeft = if process.node.chunkNum < process.node.fwChunkQuantity then
      if process.node.fwTimerExpired = true ∧ process.node.fwTimerDeadlineExpired = false then
        7 - process.node.fwErrorCounter
      else 6 - process.node.fwErrorCounter
    else 0 := by
  rw [requestsLeft, hPoint]

/-- While a chunk is awaited, all but one of the errors left can still be made. -/
theorem requestsLeft_chunk_le (hPoint : process.node.waitPoint = .chunk)
    (hRuns : process.node.fwTimerExpired = false) :
    process.requestsLeft ≤ 6 - process.node.fwErrorCounter := by
  rw [requestsLeft_chunk hPoint, hRuns]
  split_ifs with hMore hInTime
  · exact hInTime.1.elim
  · exact le_rfl
  · exact Nat.zero_le _

theorem turnsLeft_erase {page : Nat} (hPoint : process.node.waitPoint = .imageErase page) :
    process.turnsLeft = 41 - page := by
  rw [turnsLeft, hPoint]

theorem turnsLeft_chunk (hPoint : process.node.waitPoint = .chunk) :
    process.turnsLeft = 2 * process.requestsLeft + 2 := by
  rw [turnsLeft, hPoint]

theorem turnsLeft_delay (hPoint : process.node.waitPoint = .delayChunk) :
    process.turnsLeft = 2 * process.requestsLeft + 1 := by
  rw [turnsLeft, hPoint]

/-- At the top of the loop one request more can be made than there are errors left. -/
theorem left_of_atTop (h : process.Counted) (hTop : process.AtTop) :
    (process.node.chunkNum < process.node.fwChunkQuantity →
      process.requestsLeft = 7 - process.node.fwErrorCounter) ∧
      2 * process.requestsLeft + 1 ≤ process.turnsLeft := by
  have hPoint := h.point
  rw [CountedAt] at hPoint
  rcases hTop with ⟨page, hErase, hLast⟩ | hDelay
  · rw [hErase] at hPoint
    have hErrors := hPoint.2.2.2.1
    have hPage := hPoint.2.1
    rw [turnsLeft_erase hErase, requestsLeft_erase hErase]
    omega
  · rw [turnsLeft_delay hDelay, requestsLeft_delay hDelay]
    exact ⟨fun hMore => if_pos hMore, le_rfl⟩

/-- A turn to the end needs nothing but a turn left. -/
theorem Spends.of_exit (hRequests : other.requests = process.requests)
    (hTurns : other.turns = process.turns + 1) (hNoRequest : other.requestsLeft = 0)
    (hNoTurn : other.turnsLeft = 0) (hLeft : 0 < process.turnsLeft) : Spends process other where
  requests := by
    rw [hRequests, hNoRequest]
    exact Nat.add_le_add_left (Nat.zero_le _) _
  turns := by
    rw [hTurns, hNoTurn]
    omega

/-- A turn from the wait for a chunk to the next top of the loop keeps the requests left. -/
theorem Spends.of_delay (hChunk : process.node.waitPoint = .chunk)
    (hDelay : other.node.waitPoint = .delayChunk) (hRequests : other.requests = process.requests)
    (hTurns : other.turns = process.turns + 1)
    (hLeft : other.requestsLeft ≤ process.requestsLeft) : Spends process other where
  requests := by
    rw [hRequests]
    exact Nat.add_le_add_left hLeft _
  turns := by
    rw [hTurns, turnsLeft_delay hDelay, turnsLeft_chunk hChunk]
    omega

theorem spends_turn (h : process.Counted) (hExpired : process.expired = true)
    (hLc : process.lc = process.node.waitPoint) (hTurn : Turn process other) :
    Spends process other := by
  have hErrors := h.errors
  have hPoint := h.point
  rw [expired, hLc] at hExpired
  rw [CountedAt] at hPoint
  cases hTurn with
  | erase page flash hErase hMore =>
      constructor
      · rw [requestsLeft_erase hErase]
        exact le_rfl
      · rw [turnsLeft_erase hErase, turnsLeft_erase rfl]
        dsimp only
        omega
  | request hTop hMore =>
      obtain ⟨hLeft, hTurns⟩ := left_of_atTop h hTop
      rw [hLeft hMore] at hTurns
      constructor
      · apply Nat.le_trans (Nat.add_le_add_left (requestsLeft_chunk_le rfl rfl) _)
        rw [hLeft hMore, List.length_append, List.length_singleton]
        dsimp only
        omega
      · rw [turnsLeft_chunk rfl]
        apply Nat.le_trans (Nat.add_le_add_left (Nat.add_le_add_right
          (Nat.mul_le_mul_left 2 (requestsLeft_chunk_le rfl rfl)) 2) _)
        dsimp only
        omega
  | verify hTop hEnd =>
      obtain ⟨-, hTurns⟩ := left_of_atTop h hTop
      exact Spends.of_exit rfl rfl rfl rfl (by omega)
  | giveUp hChunk hDeadline hMore hMany =>
      have hTurns := turnsLeft_chunk hChunk
      exact Spends.of_exit rfl rfl rfl rfl (by omega)
  | again hChunk hDeadline hMore hFew =>
      rw [fwMaxErrorCounter] at hFew
      have hLeft : process.requestsLeft = 6 - process.node.fwErrorCounter := by
        rw [requestsLeft_chunk hChunk, if_pos hMore, if_neg (by simp [hDeadline])]
      have hCount : (process.node.fwErrorCounter + 1) % 0x100 = process.node.fwErrorCounter + 1 := by
        omega
      refine Spends.of_delay hChunk rfl rfl rfl ?_
      rw [requestsLeft_delay rfl, hLeft]
      dsimp only
      rw [hCount]
      split_ifs
      · omega
      · exact Nat.zero_le _
  | next hChunk hNext =>
      rw [hChunk] at hExpired
      refine Spends.of_delay hChunk rfl rfl rfl ?_
      rw [requestsLeft_delay rfl, requestsLeft_chunk hChunk]
      split_ifs with hMore hInTime
      · exact le_rfl
      · exact absurd ⟨hExpired, Bool.eq_false_iff.mpr fun hLate => hNext ⟨hLate, hMore⟩⟩ hInTime
      · exact le_rfl

/-- A step that leaves the process at its wait spends turns as it spends requests. -/
theorem Spends.of_requestsLeft (hPoint : other.node.waitPoint = process.node.waitPoint)
    (hRequests : other.requests = process.requests) (hTurns : other.turns = process.turns)
    (hLeft : other.requestsLeft ≤ process.requestsLeft) : Spends process other where
  requests := by
    rw [hRequests]
    exact Nat.add_le_add_left hLeft _
  turns := by
    rw [hTurns, turnsLeft, turnsLeft, hPoint]
    cases process.node.waitPoint with
    | _ =>
        dsimp only
        omega

/-- A timer that expires leaves no request more to make. Without a packet `fw_timer`
expires after its deadline. -/
theorem spends_expire {timer : UpdateTimer} (h : process.Counted)
    (hStep : process.expire timer = some other) : Spends process other := by
  obtain ⟨-, hOrder, rfl⟩ := expire_eq hStep
  have hPoint := h.point
  rw [CountedAt] at hPoint
  apply Spends.of_requestsLeft
  · rfl
  · rfl
  · rfl
  · rw [requestsLeft, requestsLeft]
    dsimp only
    cases hCase : process.node.waitPoint with
    | chunk =>
        rw [hCase] at hPoint
        have hDeadline : timer = .fwTimer → process.node.fwTimerDeadlineExpired = true :=
          fun hTimer => hPoint.2.2.2.2.resolve_left (hOrder hTimer)
        dsimp only
        split_ifs with hMore hAfter hBefore
        · exact le_rfl
        · rw [Bool.or_eq_true, Bool.or_eq_false_iff] at hAfter
          obtain ⟨hExpired | hTimer, hInTime, -⟩ := hAfter
          · exact absurd ⟨hExpired, hInTime⟩ hBefore
          · rw [hDeadline (of_decide_eq_true hTimer)] at hInTime
            cases hInTime
        · exact Nat.sub_le_sub_right (by decide) _
        · exact le_rfl
        · exact le_rfl
    | imageErase page | delayChunk | verifying | notRunning => exact le_rfl

/-- An event without a packet spends of what is left. -/
theorem spends_step {event : UpdateEvent} (h : process.Regular) (hSilent : Silent event)
    (hStep : process.step event = some other) : Spends process other := by
  have hCall (events : Nat) (packetEvent : Bool) (hListed : process.node.waitPoint ≠ .notRunning)
      (hWaits : process.node.waitPoint ≠ .verifying)
      (hCalled : { process with events, packetEvent }.call = some other) :
      Spends process other := by
    have hLc := h.1.lc_eq hListed hWaits
    have hCases := @call_cases { process with events, packetEvent } other hLc hCalled
    rcases hCases with ⟨-, rfl⟩ | ⟨hExpired, hTurn⟩
    · exact ⟨le_rfl, le_rfl⟩
    · have hSpends := @spends_turn { process with events, packetEvent } other
        (h.1.withEvents events packetEvent) hExpired hLc hTurn
      exact ⟨hSpends.requests, hSpends.turns⟩
  cases event with
  | expire timer =>
      rw [step] at hStep
      split_ifs at hStep
      exact spends_expire h.1 hStep
  | deliver =>
      rw [step] at hStep
      split_ifs at hStep with hNone
      rw [not_or] at hNone
      have hListed : process.node.waitPoint ≠ .notRunning :=
        fun hIdle => hNone.2 (h.idle hIdle).1
      exact hCall _ _ hListed hNone.1 hStep
  | broadcast =>
      rw [step] at hStep
      split_ifs at hStep with hWaits hIdle
      · obtain rfl := Option.some.inj hStep
        exact ⟨le_rfl, le_rfl⟩
      · exact hCall _ _ hIdle hWaits hStep
  | receive data =>
      rw [step] at hStep
      split_ifs at hStep
      cases receive_cases hStep with
      | unrelated flash => exact ⟨le_rfl, le_rfl⟩
      | packet flash buffer hData => exact absurd hData (hSilent.1 buffer)
      | start flash quantity hData | announce quantity hData =>
          exact absurd hData (hSilent.2 quantity)
  | finish =>
      rw [step] at hStep
      split_ifs at hStep with hPoint
      obtain rfl := Option.some.inj hStep
      rw [exit, hPoint, if_neg (by decide)]
      exact ⟨Nat.add_le_add_left (Nat.zero_le _) _, Nat.add_le_add_left (Nat.zero_le _) _⟩

theorem Spends.trans {last : UpdateProcess} (first : Spends process other)
    (second : Spends other last) : Spends process last :=
  ⟨second.requests.trans first.requests, second.turns.trans first.turns⟩

end Silence

/-- What a run of the process has come to is in order, and when packets stop it requests
at most seven chunks more. It is called when its waits are over, and no more often than
it takes to make these requests. -/
structure Orderly (Allowed : UpdateProcess → UpdateEvent → Prop) (process : UpdateProcess) :
    Prop where
  inOrder : InOrder process.node.fwChunkQuantity process.requests
  left : ∀ last, Reaches step (fun s event => Allowed s event ∧ Silent event) process last →
    last.requests.length ≤ process.requests.length + 7 ∧ last.turns ≤ process.turns + 41 ∧
      last.Awaited
  clean : process.node.waitPoint = .notRunning →
    process.node.chunkNum = 0 ∧ process.node.fwErrorCounter = 0

theorem regular_unstarted (spiActive : Bool) (flash : ExtFlash) :
    (unstarted spiActive flash).Regular :=
  ⟨⟨(by decide : 0 < 0x10000), Nat.zero_le 6, Or.inr ⟨rfl, rfl⟩, InOrder.nil _, rfl, rfl⟩, rfl, rfl⟩

theorem Regular.orderly {process : UpdateProcess} (h : process.Regular) :
    process.Orderly fun s event => s.OneUpdate event ∧ s.Quiet event where
  inOrder := h.1.inOrder
  left := fun last run => by
    have hLast : last.Regular ∧ Spends process last := by
      apply run.invariant fun s => s.Regular ∧ Spends process s
      · exact ⟨h, le_rfl, le_rfl⟩
      · rintro s event t ⟨hRegular, hSpends⟩ ⟨⟨hOne, hQuiet⟩, hSilent⟩ hStep
        exact ⟨regular_step hRegular hQuiet hOne hStep,
          hSpends.trans (spends_step hRegular hSilent hStep)⟩
    have hRequests := hLast.2.requests
    have hTurns := hLast.2.turns
    have hRequestsLeft := process.requestsLeft_le
    have hTurnsLeft := process.turnsLeft_le
    exact ⟨by omega, by omega, hLast.1.2⟩
  clean := fun hIdle => by
    have hPoint := h.1.point
    rw [CountedAt, hIdle] at hPoint
    exact hPoint

/-- **Updates end, and leave a clean state**, when no event for the process is left in
the queue as it exits. -/
theorem updates_end_clean (spiActive : Bool) (flash : ExtFlash) (process : UpdateProcess)
    (run : Reaches step (fun s event => s.OneUpdate event ∧ s.Quiet event)
      (unstarted spiActive flash) process) :
    process.Orderly fun s event => s.OneUpdate event ∧ s.Quiet event := by
  have hRegular : process.Regular := by
    apply run.invariant Regular (regular_unstarted spiActive flash)
    rintro s event t h ⟨hOne, hQuiet⟩ hStep
    exact regular_step h hQuiet hOne hStep
  exact hRegular.orderly

section EventLeft

/-- The announcement of an image of one chunk. -/
def announcement : Nat → Byte :=
  fun i => [protocolVersionV1, currentDeviceVersion, dataTypeFirmwareCmd,
    dataTypeFirmwareCommandNewFw, 0, 1].getD i 0

/-- A packet with a chunk of zeros. -/
def chunkPacket : Nat → Byte :=
  fun i => [protocolVersionV1, currentDeviceVersion, dataTypeFirmware].getD i 0

/-- The pause after a page. -/
def erasing (flash : ExtFlash) (page : Nat) : UpdateProcess :=
  { unstarted true flash with
    node := { (unstarted true flash).node with
      fwChunkQuantity := 1, waitPoint := .imageErase page }
    lc := .imageErase page
    otaImageEraseTimerExpired := false
    timerlist := [.otaImageEraseTimer]
    turns := page }

/-- The only chunk is awaited. -/
def chunkAwaited (flash : ExtFlash) : UpdateProcess :=
  { erasing flash 25 with
    node := { (erasing flash 25).node with
      waitPoint := .chunk, chunkNum := 1, fwTimerExpired := false, fwTimerDeadlineExpired := false }
    lc := .chunk
    otaImageEraseTimerExpired := true
    timerlist := [.fwTimerDeadline, .fwTimer]
    requests := [0] }

/-- The only chunk is stored in time. -/
def chunkStored (flash : ExtFlash) : UpdateProcess :=
  { chunkAwaited flash with
    node := { (chunkAwaited flash).node with otaImageCurrentOffset := 600, fwTimerExpired := true }
    timerlist := [.fwTimerDeadline]
    packetEvent := true }

theorem receive_announcement (flash : ExtFlash) :
    ∃ next, step (unstarted true flash) (.receive announcement) = some (erasing next 0) := by
  have hCall : udpReceiver announcement = .firmwareCmdNewFwHandler 1 := by decide
  obtain ⟨next, hErase, -⟩ := FwUpdate.erasePage_spec
    { (unstarted true flash).node with fwChunkQuantity := 1 } (by decide : 0 < 25)
  have hNode : (unstarted true flash).node.receive (.firmwareCmdNewFwHandler 1) =
      some (erasing next 0).node := hErase
  have hReceive : (unstarted true flash).receive announcement = some (erasing next 0) := by
    rw [receive, hCall, hNode]
    rfl
  exact ⟨next, hReceive⟩

/-- The pause after a page is over. -/
def erased (flash : ExtFlash) (page : Nat) : UpdateProcess :=
  { erasing flash page with otaImageEraseTimerExpired := true, timerlist := [], events := 1 }

theorem deliver_erased (flash : ExtFlash) {page : Nat} (hPage : page + 1 < 25) :
    ∃ next, step (erased flash page) .deliver = some (erasing next (page + 1)) := by
  obtain ⟨next, hErase, -⟩ := FwUpdate.erasePage_spec (erased flash page).node hPage
  have hResume : (erased flash page).node.resume =
      some ((erasing next (page + 1)).node, none) := by
    show (if page + 1 < 25 then _ else _) = _
    rw [if_pos hPage, hErase]
    rfl
  have hDeliver : step (erased flash page) .deliver =
      (erased flash page).node.resume.map fun (node, request) =>
        goOn { erased flash page with events := 0 } node request := rfl
  rw [hResume] at hDeliver
  exact ⟨next, hDeliver⟩

theorem udpReceiver_chunkPacket :
    udpReceiver chunkPacket = .firmwareDataHandler (flashWriteBuffer chunkPacket) :=
  udpReceiver_firmware rfl rfl rfl

theorem oneUpdate_chunkPacket (process : UpdateProcess) :
    process.OneUpdate (.receive chunkPacket) := by
  intro quantity hData
  rw [udpReceiver_chunkPacket] at hData
  cases hData

theorem receive_chunkPacket (flash : ExtFlash) :
    ∃ next, step (chunkAwaited flash) (.receive chunkPacket) = some (chunkStored next) := by
  have hEnd : downloadAddress + (chunkAwaited flash).node.otaImageCurrentOffset +
      (flashWriteBuffer chunkPacket).length ≤ 0x1000000 := by
    rw [udpReceiver_firmware_length udpReceiver_chunkPacket]
    show 0x32000 + 0 + 600 ≤ 0x1000000
    decide
  obtain ⟨next, hStore, -⟩ := FwUpdate.firmwareDataHandler_spec hEnd
  have hNode : (chunkAwaited flash).node.receive (.firmwareDataHandler (flashWriteBuffer chunkPacket)) =
      some (chunkStored next).node := hStore
  have hReceive : (chunkAwaited flash).receive chunkPacket = some (chunkStored next) := by
    rw [receive, udpReceiver_chunkPacket, hNode]
    rfl
  exact ⟨next, hReceive⟩

variable {Allowed : UpdateProcess → UpdateEvent → Prop}

/-- All pages are erased, and the only chunk is requested and stored. -/
theorem chunkStored_reaches (hErase : ∀ flash page,
      Allowed (erasing flash page) (.expire .otaImageEraseTimer) ∧
        Allowed (erased flash page) .deliver)
    (hNewFw : ∀ flash, Allowed (unstarted true flash) (.receive announcement))
    (hPacket : ∀ flash, Allowed (chunkAwaited flash) (.receive chunkPacket)) (flash : ExtFlash) :
    ∃ next, Reaches step Allowed (unstarted true flash) (chunkStored next) := by
  have hPages (page : Nat) (hPage : page < 25) :
      ∃ next, Reaches step Allowed (unstarted true flash) (erasing next page) := by
    induction page with
    | zero =>
        obtain ⟨next, hStart⟩ := receive_announcement flash
        exact ⟨next, Reaches.next Reaches.start hStart (hNewFw flash)⟩
    | succ page ih =>
        obtain ⟨before, run⟩ := ih (Nat.lt_of_succ_lt hPage)
        obtain ⟨next, hDeliver⟩ := deliver_erased before hPage
        have hExpire : step (erasing before page) (.expire .otaImageEraseTimer) =
          some (erased before page) := rfl
        exact ⟨next, Reaches.next (Reaches.next run hExpire (hErase before page).1) hDeliver
          (hErase before page).2⟩
  obtain ⟨before, run⟩ := hPages 24 (by decide)
  have hExpire : step (erasing before 24) (.expire .otaImageEraseTimer) =
    some (erased before 24) := rfl
  have hRequest : step (erased before 24) .deliver = some (chunkAwaited before) := rfl
  obtain ⟨next, hStore⟩ := receive_chunkPacket before
  exact ⟨next, Reaches.next (Reaches.next (Reaches.next run hExpire (hErase before 24).1) hRequest
    (hErase before 24).2) hStore (hPacket before)⟩

end EventLeft

/-- An update of one chunk, at the exit of its process. -/
theorem updates_end_clean_one_chunk : ∃ process : UpdateProcess,
    process.node.waitPoint = .notRunning ∧ process.requests = [0] ∧
      process.Orderly fun s event => s.OneUpdate event ∧ s.Quiet event := by
  obtain ⟨flash, stored⟩ := @chunkStored_reaches (fun s event => s.OneUpdate event ∧ s.Quiet event)
    (fun _ _ => ⟨⟨trivial, trivial⟩, trivial, fun h => nomatch h.1⟩)
    (fun _ => ⟨fun _ _ => rfl, trivial⟩) (fun _ => ⟨oneUpdate_chunkPacket _, trivial⟩)
    ⟨fun _ => 0xFF, []⟩
  have woken := Reaches.next stored
    (rfl : step (chunkStored flash) .broadcast = some _) ⟨trivial, fun h => nomatch h.2.2.1⟩
  have paused := Reaches.next woken (rfl : step _ (.expire .fwTimerDelayChunk) = some _)
    ⟨trivial, trivial⟩
  have verifying := Reaches.next paused (rfl : step _ .deliver = some _)
    ⟨trivial, fun h => nomatch h.1⟩
  have run := Reaches.next verifying (rfl : step _ .finish = some _) ⟨trivial, rfl⟩
  exact ⟨_, rfl, rfl, updates_end_clean true ⟨fun _ => 0xFF, []⟩ _ run⟩

/-- The pause after the last chunk and the deadline of its request end together. The
first of their events ends the update, and the second one wakes the process again,
which requests a chunk: the next update would begin with the second one. -/
theorem updates_end_clean_fails : ¬ ∀ (spiActive : Bool) (flash : ExtFlash)
    (process : UpdateProcess),
    Reaches step (fun s event => s.OneUpdate event) (unstarted spiActive flash) process →
    process.Orderly fun s event => s.OneUpdate event := by
  intro h
  obtain ⟨flash, stored⟩ := @chunkStored_reaches (fun s event => s.OneUpdate event)
    (fun _ _ => ⟨trivial, trivial⟩) (fun _ _ _ => rfl) (fun _ => oneUpdate_chunkPacket _)
    ⟨fun _ => 0xFF, []⟩
  have woken := Reaches.next stored (rfl : step (chunkStored flash) .broadcast = some _) trivial
  have paused := Reaches.next woken (rfl : step _ (.expire .fwTimerDelayChunk) = some _) trivial
  have late := Reaches.next paused (rfl : step _ (.expire .fwTimerDeadline) = some _) trivial
  have verifying := Reaches.next late (rfl : step _ .deliver = some _) trivial
  have ended := Reaches.next verifying (rfl : step _ .finish = some _) trivial
  have again := Reaches.next ended (rfl : step _ .deliver = some _) trivial
  have hClean := ((h true ⟨fun _ => 0xFF, []⟩ _ again).clean rfl).1
  cases hClean

end Smarthome.Node.UpdateProcess
