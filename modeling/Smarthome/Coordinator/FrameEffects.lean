import Smarthome.Coordinator.Slots
import Smarthome.Coordinator.UartFrames

/-! Which slots one accepted frame fills, and with what. The test for a UART
message reads byte 26 of the buffer, so that the payload of any other frame, or
what an earlier frame left there, can fill the UART slot as well. -/
namespace Smarthome.Coordinator

open Semantics UartReceiver

/-- The call assigns to no slot but the one of this packet type. -/
def FillsOnly (typeByte : Byte) (packet : UartPacket) : Prop :=
  ∃ effect, uartPacketProcessed packet = some effect ∧
    (∀ kind, effect.Fills kind → kind.typeCode = typeByte) ∧
    ∀ slots kind, kind.typeCode ≠ typeByte → (effect.store slots).SameAt slots kind

/-- The first frame after reset, whole, is the packet passed on. -/
theorem emitted_reset_frame (crc : Byte) (data : List Byte)
    (hLength : 0 < data.length ∧ data.length ≤ 1500) :
    receiver.emitted reset (v3Frame crc data) = [packetOf reset.uartData data] :=
  (receive_frame idle_reset crc data hLength.1 hLength.2).1

theorem bytes_length (packet : UartPacket) : packet.bytes.length = packet.uartDataLength := by
  simp [UartPacket.bytes]

theorem bytes_getElem (packet : UartPacket) {i : Nat} (h : i < packet.bytes.length) :
    packet.bytes[i] = packet.uartData i := by
  simp [UartPacket.bytes]

/-- What a frame does in two runs which leave the receiver idle before it. -/
def SameEffect (crc : Byte) (data : List Byte) : Prop :=
  ∀ first second : List Byte,
    (receiver.after reset first).Idle → (receiver.after reset second).Idle →
    ∃ effect,
      (receiver.emitted (receiver.after reset first) (v3Frame crc data)).map uartPacketProcessed =
        [some effect] ∧
      (receiver.emitted (receiver.after reset second) (v3Frame crc data)).map uartPacketProcessed =
        [some effect]

section Agreement

variable {first second : Nat → Byte}

theorem destinationAddress_congr (h : ∀ i < 16, first i = second i) :
    destinationAddress first = destinationAddress second := by
  ext i hi
  simpa [destinationAddress] using congrArg UInt8.toNat (h i hi)

/-- Only a UART message reads past byte 26. -/
theorem fixedEffect_congr (h : ∀ i < 27, first i = second i)
    (hUart : first 26 = dataTypeUart → ∀ i < 37, first i = second i) :
    fixedEffect first = fixedEffect second := by
  have hAddress := destinationAddress_congr fun i hi => h i (Nat.lt_trans hi (by decide))
  have hPayload (hType : first 26 = dataTypeUart) :
      uartMessage first = uartMessage second := by
    simp only [uartMessage, hAddress, h 16 (by decide), h 17 (by decide), h 19 (by decide),
      h 20 (by decide)]
    congr 2
    funext i
    exact hUart hType _ (by omega)
  have hUartSlot : (if first 26 = dataTypeUart then some (uartMessage first) else none) =
      if second 26 = dataTypeUart then some (uartMessage second) else none := by
    rw [← h 26 (by decide)]
    split_ifs with hType
    · rw [hPayload hType]
    · rfl
  simp only [fixedEffect, hUartSlot, localCommand, commandMessage, firmwareCmdMessage, hAddress,
    h 16 (by decide), h 17 (by decide), h 18 (by decide), h 19 (by decide), h 20 (by decide),
    h 21 (by decide), h 22 (by decide), h 23 (by decide)]

theorem firmwareMessage_congr {length : Nat} (h : ∀ i < length, first i = second i)
    (h23 : 23 ≤ length) (hLe : length ≤ 1500) :
    firmwareMessage ⟨first, length⟩ = firmwareMessage ⟨second, length⟩ := by
  have hAddress := destinationAddress_congr fun i hi => h i (by omega)
  have hPayload : (List.range (fwPayloadLength length)).map (fun i => first (23 + i)) =
      (List.range (fwPayloadLength length)).map fun i => second (23 + i) := by
    refine List.map_congr_left fun i hi => h _ ?_
    have hLt := List.mem_range.mp hi
    unfold fwPayloadLength at hLt
    omega
  simp only [firmwareMessage, hAddress, hPayload, h 16 (by omega), h 17 (by omega),
    h 19 (by omega), h 20 (by omega), h 21 (by omega), h 22 (by omega)]

/-- Buffers which agree on a frame's own bytes, when these include all that is read. -/
theorem uartPacketProcessed_congr {length : Nat} (h : ∀ i < length, first i = second i)
    (h27 : 27 ≤ length) (hLe : length ≤ 1500) (hUart : first 26 = dataTypeUart → 37 ≤ length) :
    uartPacketProcessed ⟨first, length⟩ = uartPacketProcessed ⟨second, length⟩ := by
  have hFixed := fixedEffect_congr (fun i hi => h i (by omega))
    (fun hType i hi => h i (by have hLong := hUart hType; omega))
  simp only [uartPacketProcessed, hFixed, firmwareMessage_congr h (by omega) hLe, h 18 (by omega)]

end Agreement

theorem uartPacketProcessed_uartMessage {packet : UartPacket} {effect : PacketEffect}
    (h : uartPacketProcessed packet = some effect) :
    effect.uartMessage =
      if packet.uartData 26 = dataTypeUart then some (uartMessage packet.uartData) else none := by
  unfold uartPacketProcessed at h
  split_ifs at h
  · obtain ⟨message, -, rfl⟩ := Option.map_eq_some_iff.mp h
    rfl
  · obtain rfl := Option.some.inj h
    rfl

/-- Two left-over contents of the buffer and what the frame then does in both. -/
theorem SameEffect.leftOver {crc : Byte} {data : List Byte} (h : SameEffect crc data)
    (hPos : 0 < data.length) (hLe : data.length ≤ 1500) (x y : Byte) :
    ∃ (a b : Nat → Byte) (effect : PacketEffect),
      (∀ i < 1500, data.length ≤ i → a i = x ∧ b i = y) ∧
      (∀ i (hi : i < data.length), a i = data[i] ∧ b i = data[i]) ∧
      uartPacketProcessed ⟨a, data.length⟩ = some effect ∧
      uartPacketProcessed ⟨b, data.length⟩ = some effect := by
  obtain ⟨first, hFirst, hX⟩ := exists_leftOver x
  obtain ⟨second, hSecond, hY⟩ := exists_leftOver y
  obtain ⟨effect, hA, hB⟩ := h first second hFirst hSecond
  rw [(receive_frame hFirst crc data hPos hLe).1] at hA
  rw [(receive_frame hSecond crc data hPos hLe).1] at hB
  refine ⟨_, _, effect, fun i hi hOver => ?_, fun i hi => ?_, List.singleton_injective hA,
    List.singleton_injective hB⟩
  · rw [overlay_ge hOver, overlay_ge hOver]
    exact ⟨hX i hi, hY i hi⟩
  · exact ⟨overlay_lt hi, overlay_lt hi⟩

end Smarthome.Coordinator
