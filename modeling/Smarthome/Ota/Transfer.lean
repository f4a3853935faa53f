import Smarthome.Ota.System

/-! When an image arrives as it was sent. The node keeps two counters, the chunks it
has requested and the bytes it has stored, and nothing in a packet ties them
together: they stay in step when every packet comes once, while it is awaited. -/
namespace Smarthome.Ota

open Semantics Coordinator Node Router

/-- The packet with the chunk that was requested last and is not stored yet. -/
def Awaited (segments : List (List Byte)) (node : FwUpdate) (packet : Datagram) : Prop :=
  node.waitPoint = .chunk ∧
    node.otaImageCurrentOffset + firmwarePayloadLength = firmwarePayloadLength * node.chunkNum ∧
    ∃ chunk, segments[node.chunkNum - 1]? = some chunk ∧
      udpReceiver (payloadData packet) = .firmwareDataHandler chunk

/-- A packet that is no firmware packet or command, or comes after the update has ended. -/
def Unrelated (node : FwUpdate) (packet : Datagram) : Prop :=
  match udpReceiver (payloadData packet) with
  | .firmwareDataHandler _ => node.waitPoint = .notRunning
  | .firmwareCmdNewFwHandler _ | .eraseOtaImage _ => False
  | _ => True

/-- The steps that keep the counters together. A firmware packet comes while it is
awaited and before the deadline, which does not fall between its arrival and the
process's turn; the last chunk comes before its timeout, which nothing looks at. -/
def InTime (segments : List (List Byte)) (system : System) : Event → Prop
  | .deliver packet =>
      Unrelated system.node packet ∨
        Awaited segments system.node packet ∧
          (system.node.fwTimerDeadlineExpired = false ∨
            system.node.chunkNum = system.node.fwChunkQuantity)
  | .deadline =>
      system.node.otaImageCurrentOffset < firmwarePayloadLength * system.node.chunkNum ∨
        system.node.chunkNum = system.node.fwChunkQuantity
  | .timeout => system.node.chunkNum < system.node.fwChunkQuantity
  | _ => True

/-- The first chunks are in the download slot, and what follows them is erased. -/
structure Stored (segments : List (List Byte)) (chunks : Nat) (memory : Nat → Byte) : Prop where
  chunk : ∀ i (h : i < segments.length), i < chunks →
    NorFlash.slice memory (downloadAddress + 600 * i) 600 = segments[i]
  erased : ∀ a, 600 * chunks ≤ a → a < 25 * 0x1000 → memory (downloadAddress + a) = 0xFF

/-- A chunk has been requested, and is not stored. -/
structure Outstanding (segments : List (List Byte)) (node : FwUpdate) : Prop where
  offset : node.otaImageCurrentOffset + 600 = 600 * node.chunkNum
  stored : Stored segments (node.chunkNum - 1) node.flash.memory
  timer : node.fwTimerExpired = true →
    node.fwTimerDeadlineExpired = true ∧ node.chunkNum < node.fwChunkQuantity

/-- The chunk that was requested is stored, in time if there are others to come. -/
structure Received (segments : List (List Byte)) (node : FwUpdate) : Prop where
  offset : node.otaImageCurrentOffset = 600 * node.chunkNum
  stored : Stored segments node.chunkNum node.flash.memory
  timer : node.fwTimerExpired = true
  deadline : node.fwTimerDeadlineExpired = true → node.chunkNum = node.fwChunkQuantity

/-- The two counters of a node, by the point at which its process waits. -/
def Aligned (segments : List (List Byte)) (node : FwUpdate) : Prop :=
  node.fwChunkQuantity = segments.length ∧
    match node.waitPoint with
    | .notRunning => True
    | .imageErase page =>
        page < 25 ∧ node.chunkNum = 0 ∧ node.otaImageCurrentOffset = 0 ∧
          ∀ a < (page + 1) * 0x1000, node.flash.memory (downloadAddress + a) = 0xFF
    | .chunk =>
        0 < node.chunkNum ∧ node.chunkNum ≤ node.fwChunkQuantity ∧
          (Outstanding segments node ∨ Received segments node)
    | .delayChunk =>
        node.chunkNum ≤ node.fwChunkQuantity ∧
          node.otaImageCurrentOffset = 600 * node.chunkNum ∧
          Stored segments node.chunkNum node.flash.memory
    | .verifying =>
        node.otaImageCurrentOffset = 600 * node.fwChunkQuantity ∧
          Stored segments node.fwChunkQuantity node.flash.memory

section Node

variable {segments : List (List Byte)} {node other : FwUpdate} {request : Option Nat}

theorem aligned_chunk_iff (hPoint : node.waitPoint = .chunk) : Aligned segments node ↔
    node.fwChunkQuantity = segments.length ∧ 0 < node.chunkNum ∧
      node.chunkNum ≤ node.fwChunkQuantity ∧ (Outstanding segments node ∨ Received segments node) := by
  rw [Aligned, hPoint]

theorem aligned_of_chunk (hPoint : node.waitPoint = .chunk)
    (hQuantity : node.fwChunkQuantity = segments.length) (hPositive : 0 < node.chunkNum)
    (hLe : node.chunkNum ≤ node.fwChunkQuantity)
    (hCases : Outstanding segments node ∨ Received segments node) : Aligned segments node :=
  (aligned_chunk_iff hPoint).mpr ⟨hQuantity, hPositive, hLe, hCases⟩

/-- A chunk that is stored behind the others. -/
theorem Stored.extend {chunks : Nat} {memory : Nat → Byte} {chunk : List Byte}
    (h : Stored segments chunks memory) (hMore : chunks < segments.length)
    (hChunk : segments[chunks] = chunk) (hLength : chunk.length = 600)
    (hSpace : 600 * (chunks + 1) ≤ 25 * 0x1000) :
    Stored segments (chunks + 1)
      (NorFlash.program (downloadAddress + 600 * chunks) chunk memory) where
  chunk := fun i hi hLt => by
    rcases Nat.lt_or_eq_of_le (Nat.le_of_lt_succ hLt) with hBefore | rfl
    · rw [← h.chunk i hi hBefore]
      exact NorFlash.slice_congr fun a _ hTo => NorFlash.program_below (by omega)
    · have hErased (j : Nat) (hj : j < chunk.length) :
          memory (downloadAddress + 600 * i + j) = NorCell.erased := by
        rw [Nat.add_assoc]
        exact h.erased _ (by omega) (by omega)
      have hRead := NorFlash.slice_program_of_erased hErased
      rw [hLength] at hRead
      rw [hRead, hChunk]
  erased := fun a hFrom hTo => by
    rw [NorFlash.program_above (by omega)]
    exact h.erased a (by omega) hTo

/-- At the top of the loop: the next request, or the end. -/
theorem aligned_requestChunk (hQuantity : node.fwChunkQuantity = segments.length)
    (hFew : segments.length ≤ 170) (hLe : node.chunkNum ≤ node.fwChunkQuantity)
    (hOffset : node.otaImageCurrentOffset = 600 * node.chunkNum)
    (hStored : Stored segments node.chunkNum node.flash.memory) :
    Aligned segments node.requestChunk.1 := by
  unfold FwUpdate.requestChunk
  split_ifs with hMore
  · have hNext : (node.chunkNum + 1) % 0x10000 = node.chunkNum + 1 := by omega
    simp only [hNext]
    refine ⟨hQuantity, Nat.succ_pos _, hMore, Or.inl ⟨?_, hStored, nofun⟩⟩
    show node.otaImageCurrentOffset + 600 = 600 * (node.chunkNum + 1)
    omega
  · have hEnd : node.chunkNum = node.fwChunkQuantity := by omega
    refine ⟨hQuantity, ?_⟩
    rw [hEnd] at hOffset hStored
    exact ⟨hOffset, hStored⟩

/-- After the wait the chunk is requested again, or it is stored. -/
theorem aligned_afterChunk (h : Aligned segments node) (hFew : segments.length ≤ 170)
    (hChunk : node.waitPoint = .chunk) (hExpired : node.fwTimerExpired = true) :
    Aligned segments node.afterChunk := by
  obtain ⟨hQuantity, hPositive, hLe, hOutstanding | hReceived⟩ := (aligned_chunk_iff hChunk).mp h
  · obtain ⟨hDeadline, hMore⟩ := hOutstanding.timer hExpired
    have hBack : (node.chunkNum + 0xFFFF) % 0x10000 = node.chunkNum - 1 := by omega
    rw [FwUpdate.afterChunk, if_pos ⟨hDeadline, hMore⟩]
    split_ifs with hErrors
    · exact ⟨hQuantity, trivial⟩
    · have hOffset := hOutstanding.offset
      refine ⟨hQuantity, ?_, ?_, ?_⟩
      · show (node.chunkNum + 0xFFFF) % 0x10000 ≤ node.fwChunkQuantity
        omega
      · show node.otaImageCurrentOffset = 600 * ((node.chunkNum + 0xFFFF) % 0x10000)
        omega
      · show Stored segments ((node.chunkNum + 0xFFFF) % 0x10000) node.flash.memory
        rw [hBack]
        exact hOutstanding.stored
  · have hInTime : ¬ (node.fwTimerDeadlineExpired = true ∧ node.chunkNum < node.fwChunkQuantity) :=
      fun hLate => Nat.ne_of_lt hLate.2 (hReceived.deadline hLate.1)
    rw [FwUpdate.afterChunk, if_neg hInTime]
    exact ⟨hQuantity, hLe, hReceived.offset, hReceived.stored⟩

theorem aligned_resume (h : Aligned segments node) (hFew : segments.length ≤ 170)
    (hResume : node.resume = some (other, request)) : Aligned segments other := by
  unfold FwUpdate.resume at hResume
  cases hPoint : node.waitPoint with
  | notRunning =>
      rw [hPoint] at hResume
      contradiction
  | imageErase page =>
      obtain ⟨hQuantity, hCases⟩ := h
      rw [hPoint] at hResume hCases
      obtain ⟨hPage, hNone, hOffset, hErased⟩ := hCases
      simp only at hResume
      split_ifs at hResume with hMore
      · obtain ⟨flash, hErase, hNext⟩ := FwUpdate.erasePage_spec node hMore
        rw [hErase, Option.map_some, Option.some.injEq, Prod.mk.injEq] at hResume
        obtain ⟨rfl, -⟩ := hResume
        exact ⟨hQuantity, hMore, hNone, hOffset, hNext hErased⟩
      · obtain rfl : node.requestChunk.1 = other := congrArg Prod.fst (Option.some.inj hResume)
        have hLast : page + 1 = 25 := by omega
        rw [hLast] at hErased
        refine aligned_requestChunk hQuantity hFew ?_ ?_ ⟨?_, fun a _ ha => hErased a ha⟩
        · rw [hNone]
          exact Nat.zero_le _
        · rw [hNone, hOffset]
        · rw [hNone]
          exact fun i _ hi => absurd hi (Nat.not_lt_zero i)
  | chunk =>
      rw [hPoint] at hResume
      simp only at hResume
      split_ifs at hResume with hExpired
      obtain rfl : node.afterChunk = other := congrArg Prod.fst (Option.some.inj hResume)
      exact aligned_afterChunk h hFew hPoint hExpired
  | delayChunk =>
      obtain ⟨hQuantity, hCases⟩ := h
      rw [hPoint] at hResume hCases
      obtain ⟨hLe, hOffset, hStored⟩ := hCases
      obtain rfl : node.requestChunk.1 = other := congrArg Prod.fst (Option.some.inj hResume)
      exact aligned_requestChunk hQuantity hFew hLe hOffset hStored
  | verifying =>
      rw [hPoint] at hResume
      simp only [Option.some.injEq, Prod.mk.injEq] at hResume
      obtain ⟨rfl, -⟩ := hResume
      exact ⟨h.1, trivial⟩

/-- The chunk that was awaited is stored at its place. -/
theorem aligned_firmwareDataHandler {chunk : List Byte} (h : Aligned segments node)
    (hFew : segments.length ≤ 170) (hSegments : ∀ segment ∈ segments, segment.length = 600)
    (hPoint : node.waitPoint = .chunk)
    (hAwaited : node.otaImageCurrentOffset + 600 = 600 * node.chunkNum)
    (hChunk : segments[node.chunkNum - 1]? = some chunk)
    (hDeadline : node.fwTimerDeadlineExpired = false ∨ node.chunkNum = node.fwChunkQuantity)
    (hStep : node.firmwareDataHandler chunk = some other) : Aligned segments other := by
  obtain ⟨hQuantity, hPositive, hLe, hOutstanding | hReceived⟩ := (aligned_chunk_iff hPoint).mp h
  · have hIndex : node.chunkNum - 1 < segments.length := by omega
    rw [List.getElem?_eq_getElem hIndex, Option.some.injEq] at hChunk
    have hLength : chunk.length = 600 := hChunk ▸ hSegments _ (List.getElem_mem hIndex)
    have hOffset : node.otaImageCurrentOffset = 600 * (node.chunkNum - 1) := by omega
    have hEnd : downloadAddress + node.otaImageCurrentOffset + chunk.length ≤ 0x1000000 := by
      rw [downloadAddress_eq, hLength]
      omega
    obtain ⟨flash, hStore, hMemory⟩ := FwUpdate.firmwareDataHandler_spec hEnd
    have hStored := hOutstanding.stored.extend hIndex hChunk hLength (by omega)
    rw [← hOffset, ← hMemory, Nat.sub_add_cancel hPositive] at hStored
    obtain rfl := Option.some.inj (hStore.symm.trans hStep)
    refine aligned_of_chunk hPoint hQuantity hPositive hLe
      (Or.inr ⟨?_, hStored, rfl, fun hExpired => ?_⟩)
    · show node.otaImageCurrentOffset + 600 = 600 * node.chunkNum
      omega
    · rcases hDeadline with hInTime | hLast
      · exact absurd (hInTime.symm.trans hExpired) Bool.false_ne_true
      · exact hLast
  · have hOffset := hReceived.offset
    omega

/-- What comes after the end of the update is stored, but nothing looks at it. -/
theorem aligned_ended {chunk : List Byte} (h : Aligned segments node)
    (hEnded : node.waitPoint = .notRunning) (hStep : node.firmwareDataHandler chunk = some other) :
    Aligned segments other := by
  rw [FwUpdate.firmwareDataHandler, Option.map_eq_some_iff] at hStep
  obtain ⟨flash, _, rfl⟩ := hStep
  refine ⟨h.1, ?_⟩
  simp only [hEnded]

theorem aligned_unrelated {packet : Datagram} (h : Aligned segments node)
    (hUnrelated : Unrelated node packet)
    (hStep : node.receive (udpReceiver (payloadData packet)) = some other) :
    Aligned segments other := by
  rw [Unrelated] at hUnrelated
  cases hCall : udpReceiver (payloadData packet) with
  | firmwareDataHandler chunk =>
      rw [hCall] at hUnrelated hStep
      exact aligned_ended h hUnrelated hStep
  | firmwareCmdNewFwHandler | eraseOtaImage =>
      rw [hCall] at hUnrelated
      exact hUnrelated.elim
  | watchdogReboot | flashGoldenImageAndReboot =>
      rw [hCall] at hStep
      cases hStep
  | _ =>
      rw [hCall] at hStep
      exact Option.some.inj hStep ▸ h

theorem aligned_deadline (h : Aligned segments node)
    (hInTime : node.otaImageCurrentOffset < 600 * node.chunkNum ∨
      node.chunkNum = node.fwChunkQuantity)
    (hStep : node.deadline = some other) : Aligned segments other := by
  rw [FwUpdate.deadline] at hStep
  split_ifs at hStep with hPoint
  obtain rfl := Option.some.inj hStep
  obtain ⟨hQuantity, hPositive, hLe, hOutstanding | hReceived⟩ := (aligned_chunk_iff hPoint).mp h
  · exact aligned_of_chunk hPoint hQuantity hPositive hLe (Or.inl ⟨hOutstanding.offset,
      hOutstanding.stored, fun hExpired => ⟨rfl, (hOutstanding.timer hExpired).2⟩⟩)
  · have hOffset := hReceived.offset
    have hLast : node.chunkNum = node.fwChunkQuantity :=
      hInTime.resolve_left (by omega)
    exact aligned_of_chunk hPoint hQuantity hPositive hLe
      (Or.inr ⟨hOffset, hReceived.stored, hReceived.timer, fun _ => hLast⟩)

theorem aligned_timeout (h : Aligned segments node) (hMore : node.chunkNum < node.fwChunkQuantity)
    (hStep : node.timeout = some other) : Aligned segments other := by
  rw [FwUpdate.timeout] at hStep
  split_ifs at hStep with hWaiting
  obtain ⟨hPoint, hRunning⟩ := hWaiting
  obtain rfl := Option.some.inj hStep
  obtain ⟨hQuantity, hPositive, hLe, hOutstanding | hReceived⟩ := (aligned_chunk_iff hPoint).mp h
  · exact aligned_of_chunk hPoint hQuantity hPositive hLe
      (Or.inl ⟨hOutstanding.offset, hOutstanding.stored, fun _ => ⟨rfl, hMore⟩⟩)
  · exact absurd (hRunning.symm.trans hReceived.timer) Bool.false_ne_true

/-- The announcement of an image to a node that runs no update. -/
theorem aligned_newFwHandler (hIdle : node.waitPoint = .notRunning) (hNone : node.chunkNum = 0)
    (hStep : node.newFwHandler segments.length = some other) : Aligned segments other := by
  rw [FwUpdate.newFwHandler] at hStep
  split_ifs at hStep with hStart
  · obtain ⟨flash, hErase, hErased⟩ := FwUpdate.erasePage_spec
      { node with fwChunkQuantity := segments.length, otaImageCurrentOffset := 0 }
      (by decide : 0 < 25)
    obtain rfl := Option.some.inj (hErase.symm.trans hStep)
    exact ⟨rfl, by decide, hNone, rfl, hErased fun a ha => absurd ha (by omega)⟩
  · obtain rfl := Option.some.inj hStep
    refine ⟨rfl, ?_⟩
    simp only [hIdle]

end Node

section Run

variable {address : Ipv6Address} {segments : List (List Byte)} {system other : System}

/-- A step in time keeps the counters together. -/
theorem aligned_step {event : Event} (hSegments : ∀ segment ∈ segments, segment.length = 600)
    (hFew : segments.length ≤ 170) (h : Aligned segments system.node)
    (hInTime : InTime segments system event)
    (hStep : step address segments system event = some other) : Aligned segments other.node := by
  cases step_node hStep with
  | resume request hResume => exact aligned_resume h hFew hResume
  | deadline hDeadline => exact aligned_deadline h hInTime hDeadline
  | timeout hTimeout => exact aligned_timeout h hInTime hTimeout
  | answer _ hNode | relay hNode => exact hNode ▸ h
  | deliver packet hReceive =>
      rcases hInTime with hUnrelated | ⟨⟨hPoint, hOffset, chunk, hChunk, hCall⟩, hDeadline⟩
      · exact aligned_unrelated h hUnrelated hReceive
      · rw [hCall] at hReceive
        exact aligned_firmwareDataHandler h hFew hSegments hPoint hOffset hChunk hDeadline hReceive

end Run

section OneChunk

variable {address : Ipv6Address} {segments : List (List Byte)} {Allowed : System → Event → Prop}

/-- An update of one chunk, about to be started on an erased flash. -/
def idleNode : FwUpdate where
  waitPoint := .notRunning
  chunkNum := 0
  fwChunkQuantity := 0
  fwErrorCounter := 0
  otaImageCurrentOffset := 0
  fwTimerExpired := false
  fwTimerDeadlineExpired := false
  spiActive := true
  flash := ⟨fun _ => 0xFF, []⟩

/-- The node between two pages of its erase loop, with nothing sent yet. -/
def erasing (flash : ExtFlash) (page : Nat) : System where
  node := { idleNode with waitPoint := .imageErase page, fwChunkQuantity := 1, flash }
  requests := []
  packets := []
  slots := Slots.reset

/-- The process erases all pages before it requests a chunk. -/
theorem erasing_reaches (hResume : ∀ system, Allowed system .resume) (flash : ExtFlash)
    {page : Nat} (hPage : page < 25) :
    ∃ next, Reaches (step address segments) Allowed (erasing flash 0) (erasing next page) := by
  induction page with
  | zero => exact ⟨flash, Reaches.start⟩
  | succ page ih =>
      obtain ⟨middle, run⟩ := ih (Nat.lt_of_succ_lt hPage)
      obtain ⟨next, hErase, -⟩ := FwUpdate.erasePage_spec (erasing middle page).node hPage
      have hNode : (erasing middle page).node.resume = some ((erasing next (page + 1)).node, none) := by
        show (if page + 1 < 25 then _ else _) = _
        rw [if_pos hPage, hErase]
        rfl
      refine ⟨next, Reaches.next run ?_ (hResume _)⟩
      rw [step, hNode]
      rfl

/-- The announcement of one chunk. -/
theorem newFwHandler_idleNode : ∃ flash, idleNode.newFwHandler 1 = some (erasing flash 0).node := by
  obtain ⟨flash, hErase, -⟩ :=
    FwUpdate.erasePage_spec { idleNode with fwChunkQuantity := 1 } (by decide : 0 < 25)
  exact ⟨flash, hErase⟩

/-- The packet of the only chunk is lost, and its timeout is taken for its arrival. -/
theorem lost_chunk (flash : ExtFlash) :
    ∃ system, runAll (step address segments) (erasing flash 24)
        [.resume, .timeout, .resume, .resume] = some system ∧
      system.node.waitPoint = .verifying ∧ system.node.otaImageCurrentOffset = 0 :=
  ⟨_, rfl, rfl, rfl⟩

/-- The only chunk is requested. -/
def requested (flash : ExtFlash) : System where
  node := { idleNode with
    waitPoint := .chunk, chunkNum := 1, fwChunkQuantity := 1, flash }
  requests := [0]
  packets := []
  slots := Slots.reset

/-- The packet of the only chunk comes in time. -/
theorem delivered_chunk (flash : ExtFlash) {chunk : List Byte} (hChunk : chunk.length = 600) :
    ∃ system, Reaches (step address [chunk]) (InTime [chunk]) (requested flash) system ∧
      system.node.waitPoint = .verifying := by
  obtain ⟨slots, packets, hRelayed, hPacket⟩ : ∃ slots packets,
      runAll (step address [chunk]) (requested flash) [.answer 0, .relay] =
        some { requested flash with slots, packets } ∧ chunkDatagram address chunk ∈ packets :=
    chunk_relayed (List.mem_singleton_self 0) rfl hChunk
  have relayed : Reaches (step address [chunk]) (InTime [chunk]) (requested flash) _ :=
    Reaches.of_runAll (by simp [InTime]) hRelayed
  have hEnd : downloadAddress + (requested flash).node.otaImageCurrentOffset + chunk.length ≤
      0x1000000 := by
    rw [hChunk]
    show downloadAddress + 0 + 600 ≤ 0x1000000
    decide
  obtain ⟨stored, hReceive, -⟩ := FwUpdate.firmwareDataHandler_spec hEnd
  have hDeliver : step address [chunk] { requested flash with slots, packets }
      (.deliver (chunkDatagram address chunk)) = _ := step_deliver_chunk hPacket hChunk
  rw [hReceive, Option.map_some] at hDeliver
  have delivered := Reaches.next relayed hDeliver
    (Or.inr ⟨⟨rfl, rfl, chunk, rfl, udpReceiver_chunk hChunk⟩, Or.inl rfl⟩)
  exact ⟨_, delivered.trans (Reaches.of_runAll (by simp [InTime])
    (rfl : runAll (step address [chunk]) _ [.resume, .resume] = some _)), rfl⟩

end OneChunk

end Smarthome.Ota
