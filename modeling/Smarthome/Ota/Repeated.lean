import Smarthome.Ota.Transfer

/-! Commands that repeat. A NEW_FW command that comes while an update runs sets the offset
and the quantity of chunks at once, and leaves the process where it is: the chunks that
are requested afterwards are stored from the start of the slot. -/
namespace Smarthome.Ota.Repeated

open Semantics Node

/-- A packet as it was stored: the request it answered, and whether its bytes were clean. -/
structure Store where
  chunk : Nat
  offset : Nat
  clean : Bool

/-- A node in an update, with what a network that answers each request once knows. -/
structure System where
  node : FwUpdate
  /-- The images of all commands, the last one first. -/
  announced : List (List (List Byte))
  /-- The request that has no answer yet. -/
  outstanding : Option Nat
  /-- The bytes that have been erased and not been programmed since. -/
  clean : Nat → Bool
  stores : List Store

inductive Event where
  | resume
  | deadline
  | timeout
  | newFw (segments : List (List Byte))
  | packet (chunk : List Byte)

namespace System

/-- The clean bytes when the process has moved to the wait of `node`. -/
def cleanAfter (system : System) (node : FwUpdate) : Nat → Bool :=
  match node.waitPoint with
  | .imageErase page => fun a =>
      decide (node.waitPoint ≠ system.node.waitPoint ∧
        a / 0x10000 = (0x32 + page) * 0x1000 / 0x10000) || system.clean a
  | _ => system.clean

/-- The bytes that a packet is stored on are clean. -/
def isClean (system : System) : Bool :=
  (List.range 600).all fun i =>
    system.clean (downloadAddress + system.node.otaImageCurrentOffset + i)

/-- The clean bytes when a packet has been stored. -/
def cleanBeside (system : System) : Nat → Bool := fun a =>
  system.clean a && decide (a < downloadAddress + system.node.otaImageCurrentOffset ∨
    downloadAddress + system.node.otaImageCurrentOffset + 600 ≤ a)

def step (system : System) : Event → Option System
  | .resume => system.node.resume.map fun (node, request) =>
      { system with
        node, clean := system.cleanAfter node, outstanding := request.or system.outstanding }
  | .deadline => system.node.deadline.map fun node => { system with node }
  | .timeout => system.node.timeout.map fun node => { system with node }
  | .newFw segments =>
      (system.node.receive (.firmwareCmdNewFwHandler segments.length)).map fun node =>
        { system with
          node, clean := system.cleanAfter node, announced := segments :: system.announced }
  | .packet chunk => (system.node.receive (.firmwareDataHandler chunk)).map fun node =>
      { system with
        node
        outstanding := none
        clean := system.cleanBeside
        stores := system.stores ++ (system.outstanding.map fun n =>
          { chunk := n, offset := system.node.otaImageCurrentOffset, clean := system.isClean }).toList }

/-- One update, and a network that answers each request once, with a chunk of one of the
images, before its timeout. -/
def Served (system : System) : Event → Prop
  | .resume => True
  | .deadline | .timeout => system.outstanding = none
  | .newFw segments =>
      (∀ segment ∈ segments, segment.length = 600) ∧ segments.length < 0x10000 ∧
        system.node.waitPoint ≠ .verifying ∧
        (system.node.waitPoint = .notRunning → system.announced = [])
  | .packet chunk => ∃ n, system.outstanding = some n ∧
      ∃ segments ∈ system.announced, segments[n]? = some chunk

/-- The slot holds the image, and as many chunks as have been stored. -/
def Holds (system : System) (segments : List (List Byte)) : Prop :=
  segments.length = system.stores.length ∧ ∀ i (h : i < segments.length),
    NorFlash.slice system.node.flash.memory (downloadAddress + 600 * i) 600 = segments[i]

/-- The steps that do no harm to the download of an image. A command comes before a
chunk is stored, or when nothing is missing any more; the packets are the chunks of one
image, and its length is what the last command said; and the deadline does not fall
between the arrival of a packet and the process's turn, unless it is the last one. -/
def Undisturbed (image : List (List Byte)) (system : System) : Event → Prop
  | .newFw segments =>
      system.node.waitPoint = .chunk ∨ system.node.waitPoint = .delayChunk →
        system.outstanding = some 0 ∨
          system.outstanding = none ∧ segments.length ≤ system.node.chunkNum ∧
            ∃ whole ∈ segments :: system.announced, system.Holds whole
  | .packet chunk =>
      image ∈ system.announced ∧ system.node.fwChunkQuantity = image.length ∧
        ∃ n < 170, system.outstanding = some n ∧ image[n]? = some chunk
  | .deadline => system.node.fwChunkQuantity ≤ system.node.chunkNum
  | .resume | .timeout => True

/-- Chunks are stored at their places on clean bytes, and the slot that is verified holds
one of the images. -/
def Intact (system : System) : Prop :=
  (∀ store ∈ system.stores, store.offset = 600 * store.chunk ∧
    600 * (store.chunk + 1) ≤ 25 * 0x1000 ∧ store.clean = true) ∧
  (system.node.waitPoint = .verifying → ∃ segments ∈ system.announced, system.Holds segments)

/-- A node before its first update. -/
def idle (node : FwUpdate) : System where
  node
  announced := []
  outstanding := none
  clean := fun _ => false
  stores := []

/-- The first chunks of the image are in the slot, and what follows them is clean. -/
structure Held (image : List (List Byte)) (chunks : Nat) (system : System) : Prop where
  stored : Stored image chunks system.node.flash.memory
  clean : ∀ a, 600 * chunks ≤ a → a < 25 * 0x1000 → system.clean (downloadAddress + a) = true

/-- Between a chunk and the next request: the counters are in step, or nothing is missing. -/
def Between (image : List (List Byte)) (system : System) : Prop :=
  system.node.otaImageCurrentOffset = 600 * system.node.chunkNum ∧
      system.stores.length = system.node.chunkNum ∧ Held image system.node.chunkNum system ∧
      image ∈ system.announced ∧ system.node.fwChunkQuantity = image.length ∧
      system.node.chunkNum ≤ image.length ∨
    system.node.fwChunkQuantity ≤ system.node.chunkNum ∧
      ∃ segments ∈ system.announced, system.Holds segments

/-- A request without an answer, as it stands. -/
structure Asked (image : List (List Byte)) (n : Nat) (system : System) : Prop where
  outstanding : system.outstanding = some n
  chunkNum : system.node.chunkNum = n + 1
  offset : system.node.otaImageCurrentOffset = 600 * n
  stores : system.stores.length = n
  held : Held image n system
  timer : system.node.fwTimerExpired = false
  deadline : system.node.fwTimerDeadlineExpired = false

/-- The system by the point at which the process waits. -/
def SoundAt (image : List (List Byte)) (system : System) : Prop :=
  match system.node.waitPoint with
  | .notRunning =>
      system.outstanding = none ∧
        (system.announced = [] → system.node.chunkNum = 0 ∧ system.stores = [])
  | .imageErase page =>
      page < 25 ∧ system.outstanding = none ∧ system.node.chunkNum = 0 ∧
        system.node.otaImageCurrentOffset = 0 ∧ system.stores = [] ∧
        ∀ a < (page + 1) * 0x1000, system.node.flash.memory (downloadAddress + a) = 0xFF ∧
          system.clean (downloadAddress + a) = true
  | .chunk =>
      (∃ n, Asked image n system) ∨
        system.outstanding = none ∧ system.node.fwTimerExpired = true ∧
          (system.node.fwTimerDeadlineExpired = true →
            system.node.fwChunkQuantity ≤ system.node.chunkNum) ∧ Between image system
  | .delayChunk => system.outstanding = none ∧ Between image system
  | .verifying =>
      system.outstanding = none ∧ ∃ segments ∈ system.announced, system.Holds segments

structure Sound (image : List (List Byte)) (system : System) : Prop where
  stores : ∀ store ∈ system.stores, store.offset = 600 * store.chunk ∧
    600 * (store.chunk + 1) ≤ 25 * 0x1000 ∧ store.clean = true
  quantity : system.node.waitPoint ≠ .notRunning →
    ∃ segments ∈ system.announced, system.node.fwChunkQuantity = segments.length
  lengths : ∀ segments ∈ system.announced,
    segments.length < 0x10000 ∧ ∀ segment ∈ segments, segment.length = 600
  point : SoundAt image system

section Step

variable {image : List (List Byte)} {system other : System}

theorem soundAt_notRunning (hPoint : system.node.waitPoint = .notRunning)
    (hNone : system.outstanding = none)
    (hFirst : system.announced = [] → system.node.chunkNum = 0 ∧ system.stores = []) :
    SoundAt image system := by
  rw [SoundAt, hPoint]
  exact ⟨hNone, hFirst⟩

theorem soundAt_chunk (hPoint : system.node.waitPoint = .chunk)
    (h : (∃ n, Asked image n system) ∨ system.outstanding = none ∧
      system.node.fwTimerExpired = true ∧ (system.node.fwTimerDeadlineExpired = true →
        system.node.fwChunkQuantity ≤ system.node.chunkNum) ∧ Between image system) :
    SoundAt image system := by
  rw [SoundAt, hPoint]
  exact h

theorem soundAt_delayChunk (hPoint : system.node.waitPoint = .delayChunk)
    (h : system.outstanding = none ∧ Between image system) : SoundAt image system := by
  rw [SoundAt, hPoint]
  exact h

theorem Sound.quantity_lt (h : Sound image system) (hRuns : system.node.waitPoint ≠ .notRunning) :
    system.node.fwChunkQuantity < 0x10000 := by
  obtain ⟨segments, hMem, hQuantity⟩ := h.quantity hRuns
  exact hQuantity ▸ (h.lengths segments hMem).1

/-- The top of the request loop, from a state where nothing is outstanding. -/
theorem sound_requestChunk (h : Sound image system) (hRuns : system.node.waitPoint ≠ .notRunning)
    (hMore : system.node.chunkNum < system.node.fwChunkQuantity →
      system.node.otaImageCurrentOffset = 600 * system.node.chunkNum ∧
        system.stores.length = system.node.chunkNum ∧ Held image system.node.chunkNum system)
    (hEnd : ¬ system.node.chunkNum < system.node.fwChunkQuantity →
      ∃ segments ∈ system.announced, system.Holds segments)
    (hNone : system.outstanding = none) :
    Sound image { system with
      node := system.node.requestChunk.1
      clean := system.cleanAfter system.node.requestChunk.1
      outstanding := system.node.requestChunk.2.or system.outstanding } := by
  have hQuantity := h.quantity_lt hRuns
  unfold FwUpdate.requestChunk
  split_ifs with hAsk
  · obtain ⟨hOffset, hStores, hHeld⟩ := hMore hAsk
    have hNext : (system.node.chunkNum + 1) % 0x10000 = system.node.chunkNum + 1 := by omega
    exact ⟨h.stores, fun _ => h.quantity hRuns, h.lengths,
      Or.inl ⟨system.node.chunkNum, rfl, hNext, hOffset, hStores,
        ⟨hHeld.stored, hHeld.clean⟩, rfl, rfl⟩⟩
  · exact ⟨h.stores, fun _ => h.quantity hRuns, h.lengths, hNone, hEnd hAsk⟩

/-- With all chunks of the image stored, or another image whole, the slot can be verified. -/
theorem Between.holds (h : Between image system)
    (hEnd : ¬ system.node.chunkNum < system.node.fwChunkQuantity) :
    ∃ segments ∈ system.announced, system.Holds segments := by
  rcases h with ⟨hOffset, hStores, hHeld, hMem, hLength, hLe⟩ | ⟨-, hWhole⟩
  · have hAll : image.length = system.node.chunkNum := by omega
    exact ⟨image, hMem, hAll.trans hStores.symm, fun i hi => hHeld.stored.chunk i hi (hAll ▸ hi)⟩
  · exact hWhole

theorem Between.inStep (h : Between image system)
    (hMore : system.node.chunkNum < system.node.fwChunkQuantity) :
    system.node.otaImageCurrentOffset = 600 * system.node.chunkNum ∧
      system.stores.length = system.node.chunkNum ∧ Held image system.node.chunkNum system := by
  rcases h with ⟨hOffset, hStores, hHeld, -⟩ | ⟨hEnd, -⟩
  · exact ⟨hOffset, hStores, hHeld⟩
  · exact absurd hMore (Nat.not_lt_of_le hEnd)

/-- The block of the next page is clean when it has been erased. -/
theorem cleanAfter_erase {node : FwUpdate} {page : Nat}
    (hPoint : node.waitPoint = .imageErase page)
    (hMoved : .imageErase page ≠ system.node.waitPoint)
    (hClean : ∀ a < page * 0x1000, system.clean (downloadAddress + a) = true) :
    ∀ a < (page + 1) * 0x1000, system.cleanAfter node (downloadAddress + a) = true := by
  intro a ha
  simp only [cleanAfter, hPoint, Bool.or_eq_true, decide_eq_true_eq]
  by_cases hBlock : (downloadAddress + a) / 0x10000 = (0x32 + page) * 0x1000 / 0x10000
  · exact Or.inl ⟨hMoved, hBlock⟩
  · exact Or.inr (hClean a (FwUpdate.lt_of_other_block ha hBlock))

/-- A slot that is clean throughout holds no chunk yet. -/
theorem held_zero (h : ∀ a < 25 * 0x1000, system.node.flash.memory (downloadAddress + a) = 0xFF ∧
    system.clean (downloadAddress + a) = true) : Held image 0 system where
  stored := ⟨fun i _ hi => absurd hi (Nat.not_lt_zero i), fun a _ ha => (h a ha).1⟩
  clean a _ ha := (h a ha).2

theorem sound_resume (h : Sound image system)
    (hStep : system.step .resume = some other) : Sound image other := by
  rw [step, Option.map_eq_some_iff] at hStep
  obtain ⟨⟨node, request⟩, hResume, rfl⟩ := hStep
  have hPoint := h.point
  rw [SoundAt] at hPoint
  unfold FwUpdate.resume at hResume
  cases hCase : system.node.waitPoint with
  | notRunning =>
      rw [hCase] at hResume
      cases hResume
  | imageErase page =>
      rw [hCase] at hResume hPoint
      obtain ⟨hPage, hNone, hNum, hOffset, hStores, hErased⟩ := hPoint
      have hRuns : system.node.waitPoint ≠ .notRunning := by simp [hCase]
      simp only at hResume
      split_ifs at hResume with hMore
      · obtain ⟨flash, hErase, hMemory⟩ := FwUpdate.erasePage_spec system.node hMore
        rw [hErase, Option.map_some, Option.some.injEq, Prod.mk.injEq] at hResume
        obtain ⟨rfl, rfl⟩ := hResume
        have hMoved : WaitPoint.imageErase (page + 1) ≠ system.node.waitPoint := by simp [hCase]
        refine ⟨h.stores, fun _ => h.quantity hRuns, h.lengths, hMore, hNone, hNum, hOffset,
          hStores, fun a ha => ⟨?_, ?_⟩⟩
        · exact hMemory (fun b hb => (hErased b hb).1) a ha
        · dsimp only
          exact cleanAfter_erase (by rfl) hMoved (fun b hb => (hErased b hb).2) a ha
      · obtain ⟨rfl, rfl⟩ := Prod.mk.inj (Option.some.inj hResume)
        have hLast : page + 1 = 25 := by omega
        rw [hLast] at hErased
        apply sound_requestChunk h hRuns _ _ hNone
        · intro _
          rw [hNum, hOffset, hStores]
          exact ⟨rfl, rfl, held_zero hErased⟩
        · intro hEnd
          obtain ⟨segments, hMem, hLength⟩ := h.quantity hRuns
          have hEmpty : segments.length = 0 := by omega
          refine ⟨segments, hMem, ?_, fun i hi => absurd hi (by omega)⟩
          rw [hEmpty, hStores]
          rfl
  | chunk =>
      rw [hCase] at hResume hPoint
      have hRuns : system.node.waitPoint ≠ .notRunning := by simp [hCase]
      simp only at hResume
      split_ifs at hResume with hExpired
      obtain ⟨rfl, rfl⟩ := Prod.mk.inj (Option.some.inj hResume)
      rcases hPoint with ⟨n, hAsked⟩ | ⟨hNone, -, hDeadline, hBetween⟩
      · rw [hAsked.timer] at hExpired
        cases hExpired
      · have hGoesOn : ¬ (system.node.fwTimerDeadlineExpired = true ∧
            system.node.chunkNum < system.node.fwChunkQuantity) :=
          fun hLate => Nat.not_lt_of_le (hDeadline hLate.1) hLate.2
        rw [FwUpdate.afterChunk, if_neg hGoesOn]
        refine ⟨h.stores, fun _ => h.quantity hRuns, h.lengths, hNone, ?_⟩
        rcases hBetween with ⟨hOffset, hStores, hHeld, hRest⟩ | hWhole
        · exact Or.inl ⟨hOffset, hStores, ⟨hHeld.stored, hHeld.clean⟩, hRest⟩
        · exact Or.inr hWhole
  | delayChunk =>
      rw [hCase] at hResume hPoint
      have hRuns : system.node.waitPoint ≠ .notRunning := by simp [hCase]
      obtain ⟨rfl, rfl⟩ := Prod.mk.inj (Option.some.inj hResume)
      exact sound_requestChunk h hRuns hPoint.2.inStep hPoint.2.holds hPoint.1
  | verifying =>
      rw [hCase] at hResume hPoint
      obtain ⟨rfl, rfl⟩ := Prod.mk.inj (Option.some.inj hResume)
      refine ⟨h.stores, fun hRuns => absurd rfl hRuns, h.lengths, hPoint.1, fun hNone => ?_⟩
      obtain ⟨segments, hMem, -⟩ := hPoint.2
      rw [show system.announced = [] from hNone] at hMem
      cases hMem

theorem sound_deadline (h : Sound image system) (hServed : system.Served .deadline)
    (hAllowed : Undisturbed image system .deadline) (hStep : system.step .deadline = some other) :
    Sound image other := by
  rw [step, FwUpdate.deadline, Option.map_eq_some_iff] at hStep
  obtain ⟨node, hDeadline, rfl⟩ := hStep
  split_ifs at hDeadline with hCase
  obtain rfl := Option.some.inj hDeadline
  have hRuns : system.node.waitPoint ≠ .notRunning := by simp [hCase]
  have hPoint := h.point
  rw [SoundAt, hCase] at hPoint
  refine ⟨h.stores, fun _ => h.quantity hRuns, h.lengths, ?_⟩
  refine soundAt_chunk ?_ ?_
  · exact hCase
  rcases hPoint with ⟨n, hAsked⟩ | ⟨hNone, hExpired, -, hBetween⟩
  · exact absurd (hAsked.outstanding.symm.trans hServed) (Option.some_ne_none n)
  · refine Or.inr ⟨hNone, hExpired, fun _ => hAllowed, ?_⟩
    rcases hBetween with ⟨hOffset, hStores, hHeld, hRest⟩ | hWhole
    · exact Or.inl ⟨hOffset, hStores, ⟨hHeld.stored, hHeld.clean⟩, hRest⟩
    · exact Or.inr hWhole

theorem sound_timeout (h : Sound image system) (hServed : system.Served .timeout)
    (hStep : system.step .timeout = some other) : Sound image other := by
  rw [step, FwUpdate.timeout, Option.map_eq_some_iff] at hStep
  obtain ⟨node, hTimeout, rfl⟩ := hStep
  split_ifs at hTimeout with hCase
  have hPoint := h.point
  rw [SoundAt, hCase.1] at hPoint
  rcases hPoint with ⟨n, hAsked⟩ | ⟨hNone, hExpired, -⟩
  · exact absurd (hAsked.outstanding.symm.trans hServed) (Option.some_ne_none n)
  · exact absurd (hCase.2.symm.trans hExpired) (by decide)

/-- A request without an answer is waited for. -/
theorem Sound.asked (h : Sound image system) {n : Nat} (hOut : system.outstanding = some n) :
    system.node.waitPoint = .chunk ∧ Asked image n system := by
  have hPoint := h.point
  rw [SoundAt] at hPoint
  cases hCase : system.node.waitPoint with
  | chunk =>
      rw [hCase] at hPoint
      rcases hPoint with ⟨m, hAsked⟩ | ⟨hNone, -⟩
      · obtain rfl := Option.some.inj (hAsked.outstanding.symm.trans hOut)
        exact ⟨rfl, hAsked⟩
      · exact absurd (hOut.symm.trans hNone) (Option.some_ne_none n)
  | imageErase page =>
      rw [hCase] at hPoint
      exact absurd (hOut.symm.trans hPoint.2.1) (Option.some_ne_none n)
  | notRunning | delayChunk | verifying =>
      rw [hCase] at hPoint
      exact absurd (hOut.symm.trans hPoint.1) (Option.some_ne_none n)

/-- A packet that answers a request is stored at its place. -/
theorem sound_packet {chunk : List Byte} (h : Sound image system)
    (hAllowed : Undisturbed image system (.packet chunk))
    (hStep : system.step (.packet chunk) = some other) : Sound image other := by
  obtain ⟨hMem, hQuantity, n, hInside, hOut, hChunk⟩ := hAllowed
  obtain ⟨hPoint, hAsked⟩ := h.asked hOut
  obtain ⟨hIndex, hEq⟩ := List.getElem?_eq_some_iff.mp hChunk
  have hLength : chunk.length = 600 :=
    hEq ▸ (h.lengths image hMem).2 _ (List.getElem_mem hIndex)
  have hOffset := hAsked.offset
  have hEnd : downloadAddress + system.node.otaImageCurrentOffset + chunk.length ≤ 0x1000000 := by
    rw [downloadAddress_eq, hLength]
    omega
  obtain ⟨flash, hStore, hMemory⟩ := FwUpdate.firmwareDataHandler_spec hEnd
  have hReceive : system.node.receive (.firmwareDataHandler chunk) = _ := hStore
  rw [step, hReceive, Option.map_some, Option.some.injEq] at hStep
  subst hStep
  have hClean : system.isClean = true := by
    rw [isClean, List.all_eq_true]
    intro i hi
    rw [List.mem_range] at hi
    rw [hOffset, Nat.add_assoc]
    exact hAsked.held.clean _ (Nat.le_add_right _ _) (by omega)
  have hSlot : 600 * (n + 1) ≤ 25 * 0x1000 := by omega
  have hStored := hAsked.held.stored.extend hIndex hEq hLength hSlot
  rw [← hOffset, ← hMemory] at hStored
  refine ⟨?_, fun _ => h.quantity (by simp [hPoint]), h.lengths, ?_⟩
  · intro store hIn
    rw [hOut] at hIn
    rcases List.mem_append.mp hIn with hBefore | hNew
    · exact h.stores store hBefore
    · rw [List.mem_singleton.mp hNew]
      dsimp only
      exact ⟨hOffset, hSlot, hClean⟩
  · refine soundAt_chunk ?_ ?_
    · exact hPoint
    refine Or.inr ⟨rfl, rfl, ?_, Or.inl ⟨?_, ?_, ⟨?_, ?_⟩, hMem, hQuantity, ?_⟩⟩
    · intro hLate
      exact absurd (hAsked.deadline.symm.trans hLate) (by decide)
    · show system.node.otaImageCurrentOffset + 600 = 600 * system.node.chunkNum
      rw [hOffset, hAsked.chunkNum]
      omega
    · show (system.stores ++ _).length = system.node.chunkNum
      rw [hOut, List.length_append, hAsked.stores, hAsked.chunkNum]
      rfl
    · show Stored image system.node.chunkNum flash.memory
      rw [hAsked.chunkNum]
      exact hStored
    · intro a hFrom hTo
      rw [show system.node.chunkNum = n + 1 from hAsked.chunkNum] at hFrom
      show (system.clean (downloadAddress + a) && decide _) = true
      rw [hAsked.held.clean a (by omega) hTo, Bool.true_and, decide_eq_true_eq, hOffset]
      omega
    · show system.node.chunkNum ≤ image.length
      rw [hAsked.chunkNum]
      exact hIndex

/-- What is clean stays so when a command comes. -/
theorem cleanAfter_of_clean {node : FwUpdate} {a : Nat} (h : system.clean a = true) :
    system.cleanAfter node a = true := by
  rw [cleanAfter]
  cases node.waitPoint with
  | imageErase page => simp only [h, Bool.or_true]
  | notRunning | chunk | delayChunk | verifying => exact h

theorem sound_newFw {segments : List (List Byte)} (h : Sound image system)
    (hServed : system.Served (.newFw segments)) (hAllowed : Undisturbed image system (.newFw segments))
    (hStep : system.step (.newFw segments) = some other) : Sound image other := by
  obtain ⟨hLengths, hSmall, hNotVerifying, hFirst⟩ := hServed
  have hAllLengths : ∀ image ∈ segments :: system.announced,
      image.length < 0x10000 ∧ ∀ segment ∈ image, segment.length = 600 :=
    List.forall_mem_cons.mpr ⟨⟨hSmall, hLengths⟩, h.lengths⟩
  have hPoint := h.point
  rw [SoundAt] at hPoint
  rw [step, FwUpdate.receive, Option.map_eq_some_iff] at hStep
  obtain ⟨node, hNode, rfl⟩ := hStep
  rw [FwUpdate.newFwHandler] at hNode
  split_ifs at hNode with hStart
  · rw [hStart.2] at hPoint
    obtain ⟨hNum, hStores⟩ := hPoint.2 (hFirst hStart.2)
    obtain ⟨flash, hErase, hMemory⟩ := FwUpdate.erasePage_spec
      { system.node with fwChunkQuantity := segments.length, otaImageCurrentOffset := 0 }
      (by decide : 0 < 25)
    rw [hErase] at hNode
    obtain rfl := Option.some.inj hNode
    have hMoved : WaitPoint.imageErase 0 ≠ system.node.waitPoint := by simp [hStart.2]
    refine ⟨h.stores, fun _ => ⟨segments, List.mem_cons_self, rfl⟩, hAllLengths, by decide,
      hPoint.1, hNum, rfl, hStores, fun a ha => ⟨?_, ?_⟩⟩
    · exact hMemory (fun b hb => absurd hb (by omega)) a ha
    · dsimp only
      exact cleanAfter_erase (by rfl) hMoved (fun b hb => absurd hb (by omega)) a ha
  · obtain rfl := Option.some.inj hNode
    refine ⟨h.stores, fun _ => ⟨segments, List.mem_cons_self, rfl⟩, hAllLengths, ?_⟩
    obtain ⟨point, hCase⟩ : ∃ point, system.node.waitPoint = point := ⟨_, rfl⟩
    cases point with
    | notRunning =>
        rw [hCase] at hPoint
        apply soundAt_notRunning
        · exact hCase
        · exact hPoint.1
        · intro hNever
          cases hNever
    | imageErase page =>
        rw [hCase] at hPoint
        obtain ⟨hPage, hNone, hNum, hOffset, hStores, hErased⟩ := hPoint
        rw [SoundAt]
        dsimp only
        rw [hCase]
        exact ⟨hPage, hNone, hNum, rfl, hStores,
          fun a ha => ⟨(hErased a ha).1, cleanAfter_of_clean (hErased a ha).2⟩⟩
    | chunk =>
        refine soundAt_chunk ?_ ?_
        · exact hCase
        rcases hAllowed (Or.inl hCase) with hOut | ⟨hNone, hEnd, hWhole⟩
        · have hAsked := (h.asked hOut).2
          exact Or.inl ⟨0, hOut, hAsked.chunkNum, rfl, hAsked.stores, ⟨hAsked.held.stored,
            fun a hFrom hTo => cleanAfter_of_clean (hAsked.held.clean a hFrom hTo)⟩,
            hAsked.timer, hAsked.deadline⟩
        · rw [hCase] at hPoint
          rcases hPoint with ⟨n, hAsked⟩ | ⟨-, hExpired, -⟩
          · exact absurd (hAsked.outstanding.symm.trans hNone) (Option.some_ne_none _)
          · exact Or.inr ⟨hNone, hExpired, fun _ => hEnd, Or.inr ⟨hEnd, hWhole⟩⟩
    | delayChunk =>
        refine soundAt_delayChunk ?_ ?_
        · exact hCase
        rw [hCase] at hPoint
        rcases hAllowed (Or.inr hCase) with hOut | ⟨hNone, hEnd, hWhole⟩
        · exact absurd (hOut.symm.trans hPoint.1) (Option.some_ne_none _)
        · exact ⟨hNone, Or.inr ⟨hEnd, hWhole⟩⟩
    | verifying => exact absurd hCase hNotVerifying

/-- Every step of an undisturbed download keeps its counters and chunks in order. -/
theorem sound_step {event : Event} (h : Sound image system) (hServed : system.Served event)
    (hAllowed : Undisturbed image system event) (hStep : system.step event = some other) :
    Sound image other := by
  cases event with
  | resume => exact sound_resume h hStep
  | deadline => exact sound_deadline h hServed hAllowed hStep
  | timeout => exact sound_timeout h hServed hStep
  | newFw segments => exact sound_newFw h hServed hAllowed hStep
  | packet chunk => exact sound_packet h hAllowed hStep

theorem Sound.intact (h : Sound image system) : system.Intact := by
  refine ⟨h.stores, fun hVerifying => ?_⟩
  have hPoint := h.point
  rw [SoundAt, hVerifying] at hPoint
  exact hPoint.2

theorem sound_idle {node : FwUpdate} (hIdle : node.waitPoint = .notRunning)
    (hNone : node.chunkNum = 0) : Sound image (idle node) := by
  refine ⟨nofun, fun hRuns => absurd hIdle hRuns, nofun, ?_⟩
  exact soundAt_notRunning hIdle rfl fun _ => ⟨hNone, rfl⟩

end Step

section Runs

variable {Allowed : System → Event → Prop}

/-- The pause after a page, with images of this many chunks announced. -/
def erasing (quantity : Nat) (announced : List (List (List Byte))) (flash : ExtFlash)
    (clean : Nat → Bool) (page : Nat) : System where
  node := { idleNode with waitPoint := .imageErase page, fwChunkQuantity := quantity, flash }
  announced
  outstanding := none
  clean
  stores := []

theorem newFw_idle (segments : List (List Byte)) :
    ∃ flash clean, step (idle idleNode) (.newFw segments) =
      some (erasing segments.length [segments] flash clean 0) := by
  obtain ⟨flash, hErase, -⟩ := FwUpdate.erasePage_spec
    { idleNode with fwChunkQuantity := segments.length } (by decide : 0 < 25)
  have hNode : (idle idleNode).node.receive (.firmwareCmdNewFwHandler segments.length) = _ := hErase
  exact ⟨flash, _, by rw [step, hNode]; rfl⟩

theorem erasing_reaches (hResume : ∀ system, Allowed system .resume) (quantity : Nat)
    (announced : List (List (List Byte))) (flash : ExtFlash) (clean : Nat → Bool) {page : Nat}
    (hPage : page < 25) :
    ∃ flash' clean', Reaches step Allowed (erasing quantity announced flash clean 0)
      (erasing quantity announced flash' clean' page) := by
  induction page with
  | zero => exact ⟨flash, clean, Reaches.start⟩
  | succ page ih =>
      obtain ⟨middle, before, run⟩ := ih (Nat.lt_of_succ_lt hPage)
      obtain ⟨next, hErase, -⟩ :=
        FwUpdate.erasePage_spec (erasing quantity announced middle before page).node hPage
      have hNode : (erasing quantity announced middle before page).node.resume = some
          ((erasing quantity announced next before (page + 1)).node, none) := by
        show (if page + 1 < 25 then _ else _) = _
        rw [if_pos hPage, hErase]
        rfl
      have hStep : step (erasing quantity announced middle before page) .resume = some
          (erasing quantity announced next
            (cleanAfter (erasing quantity announced middle before page)
              (erasing quantity announced next before (page + 1)).node) (page + 1)) := by
        rw [step, hNode]
        rfl
      exact ⟨next, _, Reaches.next run hStep (hResume _)⟩

/-- The first chunk has been requested. -/
def asking (quantity : Nat) (announced : List (List (List Byte))) (flash : ExtFlash)
    (clean : Nat → Bool) : System where
  node := { idleNode with
    waitPoint := .chunk, chunkNum := 1, fwChunkQuantity := quantity, flash }
  announced
  outstanding := some 0
  clean
  stores := []

/-- A packet is stored at the start of the slot. -/
theorem packet_reaches {start system : System} {chunk : List Byte}
    (run : Reaches step Allowed start system) (hLength : chunk.length = 600)
    (hOffset : system.node.otaImageCurrentOffset = 0) (hAllowed : Allowed system (.packet chunk)) :
    ∃ flash, Reaches step Allowed start { system with
      node := { system.node with
        flash, fwErrorCounter := 0, fwTimerExpired := true, otaImageCurrentOffset := 600 }
      outstanding := none
      clean := system.cleanBeside
      stores := system.stores ++ (system.outstanding.map fun n =>
        { chunk := n, offset := 0, clean := system.isClean }).toList } := by
  have hEnd : downloadAddress + system.node.otaImageCurrentOffset + chunk.length ≤ 0x1000000 := by
    rw [downloadAddress_eq, hLength, hOffset]
    decide
  obtain ⟨flash, hStore, -⟩ := FwUpdate.firmwareDataHandler_spec hEnd
  have hNode : system.node.receive (.firmwareDataHandler chunk) = _ := hStore
  refine ⟨flash, Reaches.next run ?_ hAllowed⟩
  rw [step, hNode, hOffset]
  rfl

end Runs

end System

end Smarthome.Ota.Repeated
