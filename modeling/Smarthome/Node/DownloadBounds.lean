import Smarthome.Node.FirmwareUpdate
import Smarthome.Semantics.Runs

/-! Where `firmware_data_handler` writes over any sequence of datagrams. Its address
is a counter that each firmware packet advances by a chunk and that only the
announcement of an image, or a restart, sets back to zero. -/
namespace Smarthome.Node

open Semantics FwUpdate

/-- A node with the addresses of the external flash that `firmware_data_handler` has
programmed, and the number of firmware packets since the last announcement. -/
structure Download where
  node : FwUpdate
  packets : Nat
  programmed : List Nat

inductive DownloadEvent where
  | datagram (data : Nat → Byte)
  /-- `fw_update_process` is called for an event. -/
  | resume
  | deadline
  | timeout

/-- The addresses that a call of `store_firmware_data` programs. -/
def programmedAddresses (extAddress length : Nat) : List Nat :=
  (List.range length).map fun i => ExtFlash.address24 (extAddress + i)

namespace Download

/-- Static storage, with timers that were never set, on a flash as it is. -/
def start (spiActive : Bool) (flash : ExtFlash) : Download where
  node :=
    { waitPoint := .notRunning, chunkNum := 0, fwChunkQuantity := 0, fwErrorCounter := 0
      otaImageCurrentOffset := 0, fwTimerExpired := true, fwTimerDeadlineExpired := true
      spiActive, flash }
  packets := 0
  programmed := []

/-- What a call of `udp_receiver` comes to; what was recorded survives a restart. -/
def receive (s : Download) : ReceiverCall → Option Download
  | .firmwareDataHandler flashWriteBuffer =>
      (s.node.firmwareDataHandler flashWriteBuffer).map fun node =>
        { node
          packets := s.packets + 1
          programmed := s.programmed ++ programmedAddresses
            ((downloadAddress + s.node.otaImageCurrentOffset) % 0x100000000)
            flashWriteBuffer.length }
  | .firmwareCmdNewFwHandler fwChunkQuantity =>
      (s.node.newFwHandler fwChunkQuantity).map fun node => { s with node, packets := 0 }
  | .watchdogReboot | .flashGoldenImageAndReboot =>
      some { start s.node.spiActive s.node.flash with programmed := s.programmed }
  | call => (s.node.receive call).map fun node => { s with node }

/-- One event; what cannot happen now changes nothing. -/
def step (s : Download) : DownloadEvent → Option Download
  | .datagram data => s.receive (udpReceiver data)
  | .resume => some { s with node := (s.node.resume.map Prod.fst).getD s.node }
  | .deadline => some { s with node := s.node.deadline.getD s.node }
  | .timeout => some { s with node := s.node.timeout.getD s.node }

/-- Everything programmed so far lies in the download slot. -/
def Inside (s : Download) : Prop := ∀ a ∈ s.programmed, InSlot downloadSlot a

/-- A firmware packet is at most the 170th since the last announcement. -/
def Counted (s : Download) : DownloadEvent → Prop
  | .datagram data =>
      (∃ flashWriteBuffer, udpReceiver data = .firmwareDataHandler flashWriteBuffer) →
        s.packets < 170
  | .resume | .deadline | .timeout => True

/-- The offset counts the packets, and the packets so far were inside. -/
structure Tracked (s : Download) : Prop where
  offset : s.node.otaImageCurrentOffset = 600 * s.packets
  packets_le : s.packets ≤ 170
  inside : s.Inside

variable {s t : Download}

theorem mem_programmedAddresses {extAddress length a : Nat} (h : extAddress + length ≤ 0x1000000) :
    a ∈ programmedAddresses extAddress length ↔ extAddress ≤ a ∧ a < extAddress + length := by
  simp only [programmedAddresses, ExtFlash.address24, List.mem_map, List.mem_range]
  constructor
  · rintro ⟨i, hi, rfl⟩
    omega
  · rintro ⟨hLow, hHigh⟩
    exact ⟨a - extAddress, by omega, by omega⟩

/-- The recorded addresses are those at which the handler changes the flash: it
merges the packet's data with what stands there, and keeps all other bytes. -/
theorem firmwareDataHandler_programs {node next : FwUpdate} {flashWriteBuffer : List Byte}
    (hEnd : downloadAddress + node.otaImageCurrentOffset + flashWriteBuffer.length ≤ 0x1000000)
    (h : node.firmwareDataHandler flashWriteBuffer = some next) :
    (∀ a ∉ programmedAddresses ((downloadAddress + node.otaImageCurrentOffset) % 0x100000000)
        flashWriteBuffer.length, next.flash.memory a = node.flash.memory a) ∧
      ∀ i (hi : i < flashWriteBuffer.length),
        next.flash.memory (downloadAddress + node.otaImageCurrentOffset + i) =
          node.flash.memory (downloadAddress + node.otaImageCurrentOffset + i) &&&
            flashWriteBuffer[i] := by
  obtain ⟨flash, hHandler, hMemory⟩ := firmwareDataHandler_spec hEnd
  obtain rfl := Option.some.inj (hHandler.symm.trans h)
  have hAddress : (downloadAddress + node.otaImageCurrentOffset) % 0x100000000 =
      downloadAddress + node.otaImageCurrentOffset := Nat.mod_eq_of_lt (by omega)
  rw [hAddress]
  constructor
  · intro a hNot
    rw [mem_programmedAddresses hEnd] at hNot
    show flash.memory a = _
    rw [hMemory]
    exact NorFlash.program_outside (by omega)
  · intro i hi
    show flash.memory _ = _
    rw [hMemory]
    exact NorFlash.program_inside hi

/-- No step of the process touches the offset. -/
theorem resume_offset {node next : FwUpdate} {request : Option Nat}
    (h : node.resume = some (next, request)) :
    next.otaImageCurrentOffset = node.otaImageCurrentOffset := by
  have hErase (page : Nat) {erased : FwUpdate} (hErased : node.erasePage page = some erased) :
      erased.otaImageCurrentOffset = node.otaImageCurrentOffset := by
    obtain ⟨flash, -, rfl⟩ := Option.map_eq_some_iff.mp hErased
    rfl
  have hRequest : node.requestChunk.1.otaImageCurrentOffset = node.otaImageCurrentOffset := by
    unfold requestChunk
    split_ifs <;> rfl
  have hAfter : node.afterChunk.otaImageCurrentOffset = node.otaImageCurrentOffset := by
    unfold afterChunk
    split_ifs <;> rfl
  unfold resume at h
  cases hPoint : node.waitPoint with
  | notRunning =>
      rw [hPoint] at h
      cases h
  | imageErase page =>
      rw [hPoint] at h
      simp only at h
      split_ifs at h
      · obtain ⟨erased, hErased, hEq⟩ := Option.map_eq_some_iff.mp h
        obtain rfl : erased = next := congrArg Prod.fst hEq
        exact hErase _ hErased
      · obtain rfl : node.requestChunk.1 = next := congrArg Prod.fst (Option.some.inj h)
        exact hRequest
  | chunk =>
      rw [hPoint] at h
      simp only at h
      split_ifs at h
      obtain rfl : node.afterChunk = next := congrArg Prod.fst (Option.some.inj h)
      exact hAfter
  | delayChunk =>
      rw [hPoint] at h
      obtain rfl : node.requestChunk.1 = next := congrArg Prod.fst (Option.some.inj h)
      exact hRequest
  | verifying =>
      rw [hPoint] at h
      obtain rfl := congrArg Prod.fst (Option.some.inj h)
      rfl

/-- A step that leaves the offset and the record alone. -/
theorem Tracked.of_offset {node : FwUpdate} (hs : s.Tracked)
    (h : node.otaImageCurrentOffset = s.node.otaImageCurrentOffset) :
    { s with node }.Tracked := ⟨h.trans hs.offset, hs.packets_le, hs.inside⟩

theorem Tracked.firmware {flashWriteBuffer : List Byte} (hs : s.Tracked)
    (hLength : flashWriteBuffer.length = firmwarePayloadLength) :
    ∃ t, s.receive (.firmwareDataHandler flashWriteBuffer) = some t ∧
      t.packets = s.packets + 1 ∧ (s.packets < 170 → t.Tracked) ∧
      (¬ s.packets < 170 → ¬ t.Inside) := by
  have hOffset := hs.offset
  have hPackets := hs.packets_le
  have hBase : downloadAddress = 0x32000 := rfl
  have hSize : flashWriteBuffer.length = 600 := hLength
  have hEnd : downloadAddress + s.node.otaImageCurrentOffset + flashWriteBuffer.length ≤
      0x1000000 := by omega
  obtain ⟨flash, hHandler, -⟩ := firmwareDataHandler_spec hEnd
  have hAddress : (downloadAddress + s.node.otaImageCurrentOffset) % 0x100000000 =
      downloadAddress + s.node.otaImageCurrentOffset := Nat.mod_eq_of_lt (by omega)
  refine ⟨_, by rw [receive, hHandler]; rfl, rfl, ?_, ?_⟩
  · intro hRoom
    refine ⟨?_, ?_, ?_⟩
    · show s.node.otaImageCurrentOffset + 600 = 600 * (s.packets + 1)
      omega
    · show s.packets + 1 ≤ 170
      omega
    · intro a hMem
      rcases List.mem_append.mp hMem with hOld | hNew
      · exact hs.inside a hOld
      · rw [hAddress, mem_programmedAddresses hEnd] at hNew
        show 0x32 * 0x1000 ≤ a ∧ a < (0x32 + 25) * 0x1000
        omega
  · intro hFull hInside
    have hLast : 0x4B000 ∈ programmedAddresses
        ((downloadAddress + s.node.otaImageCurrentOffset) % 0x100000000) flashWriteBuffer.length := by
      rw [hAddress, mem_programmedAddresses hEnd]
      omega
    have hSlot : InSlot downloadSlot 0x4B000 := hInside _ (List.mem_append_right _ hLast)
    exact absurd hSlot.2 (by decide)

theorem Tracked.newFw (hs : s.Tracked) (fwChunkQuantity : Nat) :
    ∀ t, s.receive (.firmwareCmdNewFwHandler fwChunkQuantity) = some t → t.Tracked := by
  intro t h
  obtain ⟨node, hNode, rfl⟩ := Option.map_eq_some_iff.mp h
  have hOffset : node.otaImageCurrentOffset = 0 := by
    unfold newFwHandler at hNode
    split_ifs at hNode
    · obtain ⟨flash, -, rfl⟩ := Option.map_eq_some_iff.mp hNode
      rfl
    · obtain rfl := Option.some.inj hNode
      rfl
  exact ⟨hOffset, Nat.zero_le _, hs.inside⟩

/-- A datagram that is no firmware packet. -/
theorem Tracked.other {call : ReceiverCall} (hs : s.Tracked)
    (hOther : ∀ buffer, call ≠ .firmwareDataHandler buffer) (h : s.receive call = some t) :
    t.Tracked := by
  cases call with
  | firmwareDataHandler buffer => exact absurd rfl (hOther buffer)
  | firmwareCmdNewFwHandler fwChunkQuantity => exact hs.newFw fwChunkQuantity t h
  | watchdogReboot =>
      obtain rfl := Option.some.inj h
      exact ⟨rfl, Nat.zero_le _, hs.inside⟩
  | flashGoldenImageAndReboot =>
      obtain rfl := Option.some.inj h
      exact ⟨rfl, Nat.zero_le _, hs.inside⟩
  | eraseOtaImage slot =>
      obtain ⟨node, hNode, rfl⟩ := Option.map_eq_some_iff.mp h
      obtain ⟨flash, -, rfl⟩ := Option.map_eq_some_iff.mp hNode
      exact hs.of_offset rfl
  | _ =>
      obtain rfl := Option.some.inj h
      exact hs

theorem Tracked.step (hs : s.Tracked) (event : DownloadEvent) (hCounted : s.Counted event)
    (h : s.step event = some t) : t.Tracked := by
  cases event with
  | datagram data =>
      cases hCall : udpReceiver data with
      | firmwareDataHandler buffer =>
          obtain ⟨next, hNext, -, hTracked, -⟩ := hs.firmware (udpReceiver_firmware_length hCall)
          have hStep : s.receive (udpReceiver data) = some t := h
          rw [hCall, hNext, Option.some.injEq] at hStep
          exact hStep ▸ hTracked (hCounted ⟨buffer, hCall⟩)
      | _ =>
          have hStep : s.receive (udpReceiver data) = some t := h
          rw [hCall] at hStep
          exact hs.other (fun _ hEq => by cases hEq) hStep
  | resume =>
      obtain rfl := Option.some.inj h
      apply hs.of_offset
      cases hResume : s.node.resume with
      | none => rfl
      | some result => exact resume_offset hResume
  | deadline =>
      obtain rfl := Option.some.inj h
      apply hs.of_offset
      unfold FwUpdate.deadline
      split_ifs <;> rfl
  | timeout =>
      obtain rfl := Option.some.inj h
      apply hs.of_offset
      unfold FwUpdate.timeout
      split_ifs <;> rfl

/-- **When a download stays in its slot.** Over every sequence of datagrams, with
the steps of the process anywhere in it, `firmware_data_handler` programs bytes of
the download slot only, if and only if no announcement, and no start, is followed
by more than 170 firmware packets. -/
theorem download_inside_iff (spiActive : Bool) (flash : ExtFlash) (events : List DownloadEvent) :
    Throughout step Inside (start spiActive flash) events ↔
      Along step Counted (start spiActive flash) events := by
  apply throughout_iff Tracked Inside
  · intro s hs
    exact hs.inside
  · intro s event hs _ hCounted t hStep
    exact hs.step event hCounted hStep
  · intro s event hs _ hNot
    cases event with
    | datagram data =>
        obtain ⟨⟨buffer, hCall⟩, hFull⟩ := Classical.not_imp.mp hNot
        obtain ⟨t, hStep, -, -, hOutside⟩ := hs.firmware (udpReceiver_firmware_length hCall)
        exact ⟨t, by rw [Download.step, hCall, hStep], hOutside hFull⟩
    | resume => exact absurd trivial hNot
    | deadline => exact absurd trivial hNot
    | timeout => exact absurd trivial hNot
  · exact ⟨rfl, Nat.zero_le _, fun _ hMem => absurd hMem List.not_mem_nil⟩
  · exact Along.of_forall (fun _ _ => trivial) _ _

/-- A firmware packet that nobody asked for. -/
def unsolicitedPacket (i : Nat) : Byte :=
  [protocolVersionV1, currentDeviceVersion, dataTypeFirmware].getD i 0

/-- Firmware packets that go on until there are 171 leave the slot. -/
theorem not_throughout_packets (count : Nat) (s : Download) (hs : s.Tracked)
    (hCount : s.packets + count = 171) :
    ¬ Throughout step Inside s (List.replicate count (.datagram unsolicitedPacket)) := by
  induction count generalizing s with
  | zero =>
      have hPackets := hs.packets_le
      omega
  | succ count ih =>
      intro h
      have hCall : udpReceiver unsolicitedPacket =
          .firmwareDataHandler (flashWriteBuffer unsolicitedPacket) :=
        udpReceiver_firmware rfl rfl rfl
      obtain ⟨t, hStep, hPackets, hTracked, hOutside⟩ :=
        hs.firmware (udpReceiver_firmware_length hCall)
      rw [← hCall] at hStep
      have hRest := h.2 t hStep
      by_cases hRoom : s.packets < 170
      · exact ih t (hTracked hRoom) (by omega) hRest
      · exact hOutside hRoom hRest.head

/-- The 171st packet after a start ends behind the slot. -/
theorem download_inside_fails : ¬ ∀ (spiActive : Bool) (flash : ExtFlash)
    (events : List DownloadEvent), Throughout step Inside (start spiActive flash) events := by
  intro h
  have hStart : (start true ⟨fun _ => 0xFF, []⟩).Tracked :=
    ⟨rfl, Nat.zero_le _, fun _ hMem => absurd hMem List.not_mem_nil⟩
  exact not_throughout_packets 171 _ hStart rfl (h true ⟨fun _ => 0xFF, []⟩ _)

end Download
end Smarthome.Node
