import Smarthome.Time.Sync
import Smarthome.Wire.LocalCommand

/-! The way of the time from the router to the coordinator, in a local command. -/
namespace Smarthome.Wire

open Semantics Coordinator UartReceiver Node Router Time

/-- The offset of the coordinator's clock after `local_command`, with what `set_epoch_time`
reads of the local clock. -/
def localCommandOffsetAt (root : EpochOffset) (reading : Reading) :
    Option LocalEffect → EpochOffset
  | some (.setEpochTime seconds) => setEpochTimeAt (TimeData.assign seconds 0) reading
  | some .systemReset => EpochOffset.initial
  | some (.flashSectorErase _) => root
  | none => root

theorem localCommandOffset_eq (root : EpochOffset) (uartData : Nat → Byte) (ticks : Nat) :
    localCommandOffset root uartData ticks =
      localCommandOffsetAt root (readRtc ticks ticks) (localCommand uartData) := by
  unfold localCommandOffset
  cases localCommand uartData with
  | none => rfl
  | some effect =>
      cases effect with
      | setEpochTime seconds => rfl
      | flashSectorErase sectorAddress => rfl
      | systemReset => rfl

/-- What the coordinator does with the time in a local command. -/
theorem SeesLocalCommand.timeSet {packet : UartPacket} {b0 b1 b2 b3 : Byte}
    (h : SeesLocalCommand packet localRootCommandTimeSet #v[b0, b1, b2, b3]) :
    ∃ effect, uartPacketProcessed packet = some effect ∧
      effect.localCommand = some (.setEpochTime (u32 b0 b1 b2 b3)) := by
  obtain ⟨effect, hEffect, hLocal, hType, hSubtype, hData⟩ := h
  refine ⟨effect, hEffect, ?_⟩
  rw [hLocal, localCommand, if_pos hType, if_pos hSubtype, hData 0 (by decide), hData 1 (by decide),
    hData 2 (by decide), hData 3 (by decide)]
  rfl

/-- The frame that `root_time_sync` has sent. -/
theorem rootTimeSync_frame {nowEpoch : Nat} (h : nowEpoch < 0x100000000) :
    rootTimeSync nowEpoch = .ok (dataCut 25 (by decide) (v3Frame 0xFF (localFrame
      localRootCommandTimeSet #v[memoryByte nowEpoch 0, memoryByte nowEpoch 1,
        memoryByte nowEpoch 2, memoryByte nowEpoch 3]))) := by
  have hType : fromhex dataTypeLocalCmdHex = some [dataTypeLocalCmd] := by decide
  rw [rootTimeSync_eq h, ← text_localAdress, sendToAdress_frame localAdress hType _ (by simp)]
  simp only [List.map_cons, List.map_nil, value_hexOfByte]
  rfl

/-- **Time setting round trip.** The time of the router reaches an idle coordinator in one
frame, and from then on its clock shows that time, whatever the local clock is read as. -/
theorem root_time_round_trip {s : UartReceiver} (hIdle : s.Idle) {nowEpoch : Nat}
    (h : nowEpoch < 0x100000000) : ∃ segments packet effect,
    rootTimeSync nowEpoch = .ok segments ∧
    receiver.emitted s segments.flatten = [packet] ∧
    uartPacketProcessed packet = some effect ∧
    effect.localCommand = some (.setEpochTime nowEpoch) ∧
    ∀ root reading,
      (getEpochTimeAt (localCommandOffsetAt root reading effect.localCommand) reading).seconds =
          nowEpoch ∧
        (getEpochTimeAt (localCommandOffsetAt root reading effect.localCommand)
          reading).milliseconds = 0 := by
  obtain ⟨effect, hEffect, hLocal⟩ :=
    (seesLocalCommand_localFrame s.uartData localRootCommandTimeSet #v[memoryByte nowEpoch 0,
      memoryByte nowEpoch 1, memoryByte nowEpoch 2, memoryByte nowEpoch 3]).timeSet
  rw [u32_memoryByte h] at hLocal
  refine ⟨_, _, effect, rootTimeSync_frame h, ?_, hEffect, hLocal, fun root reading => ?_⟩
  · rw [dataCut_flatten]
    exact (receive_frame hIdle 0xFF _ (by simp [localFrame, nodeFrame_length])
      (by simp [localFrame, nodeFrame_length])).1
  · have hSeconds := wrap32_eq nowEpoch
    rw [hLocal, localCommandOffsetAt,
      getEpochTimeAt_setEpochTimeAt (TimeData.assign_normal nowEpoch (by decide) (by decide))]
    exact ⟨show wrap32 nowEpoch = nowEpoch by omega, rfl⟩

/-- The first frame after a reset sets the seconds of a day in 2023. -/
theorem root_time_round_trip_reset : ∃ segments packet effect,
    rootTimeSync 1700000000 = .ok segments ∧
      receiver.emitted UartReceiver.reset segments.flatten = [packet] ∧
      uartPacketProcessed packet = some effect ∧
      effect.localCommand = some (.setEpochTime 1700000000) := by
  obtain ⟨segments, packet, effect, hSegments, hPacket, hEffect, hLocal, -⟩ :=
    root_time_round_trip UartReceiver.idle_reset (show 1700000000 < 0x100000000 by decide)
  exact ⟨segments, packet, effect, hSegments, hPacket, hEffect, hLocal⟩

end Smarthome.Wire
