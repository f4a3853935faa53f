import Smarthome.Coordinator.UartReceiver
import Smarthome.Semantics.PrefixMatcher
import Mathlib.Tactic.Common

/-! Whole frames through the receiver: what a well-formed frame does from an idle
state, and what bytes in front of a frame do to the search for the magic sequence. -/
namespace Smarthome.Coordinator

open Semantics UartReceiver

/-- The header of a V3 frame: magic sequence, version, length (low byte first), CRC. -/
def v3Header (low high crc : Byte) : List Byte :=
  uartMagicSequence ++ [uartProtocolVersionV3, low, high, crc]

def v3Frame (crc : Byte) (data : List Byte) : List Byte :=
  v3Header (UInt8.ofNat data.length) (UInt8.ofNat (data.length / 256)) crc ++ data

theorem u16_ofNat {n : Nat} (h : n < 65536) : u16 (UInt8.ofNat n) (UInt8.ofNat (n / 256)) = n := by
  simp only [u16, UInt8.toNat_ofNat']
  omega

/-- The bytes `data` written into a buffer from an index on. -/
def overlay (buffer : Nat → Byte) (start : Nat) (data : List Byte) (i : Nat) : Byte :=
  if i < start then buffer i else data.getD (i - start) (buffer i)

theorem overlay_nil (buffer : Nat → Byte) (start : Nat) : overlay buffer start [] = buffer := by
  funext i
  simp [overlay]

theorem overlay_cons (buffer : Nat → Byte) (start : Nat) (a : Byte) (data : List Byte) :
    overlay buffer start (a :: data) =
      overlay (Function.update buffer start a) (start + 1) data := by
  funext i
  simp only [overlay, Function.update_apply]
  rcases Nat.lt_trichotomy i start with h | h | h
  · simp [h, Nat.lt_succ_of_lt h, Nat.ne_of_lt h]
  · simp [h]
  · obtain ⟨k, rfl⟩ := Nat.exists_eq_add_of_lt h
    have hShift : start + k + 1 - start = k + 1 := by omega
    have hRest : start + k + 1 - (start + 1) = k := by omega
    have hNot : ¬ start + k + 1 < start := by omega
    have hNe : start + k + 1 ≠ start := by omega
    have hLater : ¬ start + k + 1 < start + 1 := by omega
    simp only [hNot, hLater, hNe, hShift, hRest, if_false, List.getD_cons_succ]

theorem overlay_lt {buffer : Nat → Byte} {data : List Byte} {i : Nat} (h : i < data.length) :
    overlay buffer 0 data i = data[i] := by
  simp [overlay, h]

/-- The byte a position of `data` holds, where there is one. -/
theorem overlay_eq_of_getElem? {buffer : Nat → Byte} {data : List Byte} {i : Nat} {a : Byte}
    (h : data[i]? = some a) : overlay buffer 0 data i = a := by
  simp [overlay, h]

theorem overlay_ge {buffer : Nat → Byte} {data : List Byte} {i : Nat} (h : data.length ≤ i) :
    overlay buffer 0 data i = buffer i := by
  simp [overlay, List.getElem?_eq_none h]

/-- The packet that the receiver passes on for `data`, given what the buffer held. -/
def packetOf (buffer : Nat → Byte) (data : List Byte) : UartPacket :=
  ⟨overlay buffer 0 data, data.length⟩

@[simp] theorem packetOf_bytes (buffer : Nat → Byte) (data : List Byte) :
    (packetOf buffer data).bytes = data := by
  apply List.ext_getElem
  · simp [packetOf, UartPacket.bytes]
  · intro i hFirst hSecond
    simp [packetOf, UartPacket.bytes, overlay_lt hSecond]

namespace UartReceiver

variable {s : UartReceiver}

/-- The data bytes of an accepted header complete the frame and nothing else. -/
theorem receive_data (hs : s.Bounded) (hHeader : s.uartHeaderIterator = 11)
    (hLength : 0 < s.uartDataLength) (data : List Byte)
    (hData : s.uartDataIterator + data.length = s.uartDataLength) :
    receiver.emitted s data =
        [⟨overlay s.uartData s.uartDataIterator data, s.uartDataLength⟩] ∧
      (receiver.after s data).Idle ∧
      (receiver.after s data).uartData = overlay s.uartData s.uartDataIterator data := by
  induction data generalizing s with
  | nil =>
      have hUnfinished := hs.unfinished hLength
      simp only [List.length_nil] at hData
      omega
  | cons a data ih =>
      have hStep := step_data a hs hHeader hLength
      have hNext := bounded_step a hs
      have hRead : s.readDataByte a =
          { s with
            uartData := Function.update s.uartData s.uartDataIterator a
            uartDataIterator := s.uartDataIterator + 1 } := by
        simp [readDataByte, hLength]
      rw [hRead] at hStep
      simp only [List.length_cons] at hData
      rw [Transducer.emitted_cons, Transducer.after_cons, overlay_cons]
      cases data with
      | nil =>
          simp only [List.length_nil, Nat.zero_add] at hData
          rw [hStep, if_pos hData, overlay_nil]
          exact ⟨rfl, idle_restart _, rfl⟩
      | cons b rest =>
          have hMore : s.uartDataIterator + 1 ≠ s.uartDataLength := by
            simp only [List.length_cons] at hData
            omega
          rw [hStep, if_neg hMore] at hNext ⊢
          exact ih hNext hHeader hLength (by simp only [List.length_cons] at hData ⊢; omega)

/-- From an idle state a version 3 header of an allowed length leads to the data phase. -/
theorem receive_header (hs : s.Idle) (low high crc : Byte) (hLong : u16 low high ≤ 1500) :
    receiver.emitted s (v3Header low high crc) = [] ∧
      (receiver.after s (v3Header low high crc)).uartHeaderIterator = 11 ∧
      (receiver.after s (v3Header low high crc)).uartDataIterator = 0 ∧
      (receiver.after s (v3Header low high crc)).uartDataLength = u16 low high ∧
      (receiver.after s (v3Header low high crc)).uartData = s.uartData := by
  obtain ⟨hHeader, hIterator, hLength⟩ := hs
  have hShort : ¬ 1500 < u16 low high := by omega
  simp [v3Header, uartMagicSequence, Transducer.emitted, receiver, uartDataReceiver,
    readMagicByte, hHeader, readHeaderByte, hIterator, hLength, readDataByte, checkHeader,
    Function.update, hShort]

/-- **A well-formed frame read in an idle state is passed on once, whole, and
leaves the receiver idle.** The bytes after the frame's own in `uart_data` are
those that were there before. -/
theorem receive_frame (hs : s.Idle) (crc : Byte) (data : List Byte)
    (hPos : 0 < data.length) (hLe : data.length ≤ 1500) :
    receiver.emitted s (v3Frame crc data) = [packetOf s.uartData data] ∧
      (receiver.after s (v3Frame crc data)).Idle ∧
      (receiver.after s (v3Frame crc data)).uartData = overlay s.uartData 0 data := by
  have hU16 : u16 (UInt8.ofNat data.length) (UInt8.ofNat (data.length / 256)) = data.length :=
    u16_ofNat (by omega)
  obtain ⟨hEmitted, hHeader, hIterator, hLength, hBuffer⟩ :=
    receive_header hs (UInt8.ofNat data.length) (UInt8.ofNat (data.length / 256)) crc (by omega)
  have hRead := receive_data (bounded_after _ hs.bounded) hHeader (by omega) data (by omega)
  rw [hBuffer, hIterator, hLength, hU16] at hRead
  rw [v3Frame, Transducer.emitted_append, Transducer.after_append, hEmitted]
  exact hRead

/-- Every content of the data buffer is left over by some earlier frame. -/
theorem exists_leftOver (value : Byte) : ∃ history, (receiver.after reset history).Idle ∧
    ∀ i < 1500, (receiver.after reset history).uartData i = value := by
  obtain ⟨-, hIdle, hBuffer⟩ :=
    receive_frame idle_reset 0 (List.replicate 1500 value) (by rw [List.length_replicate]; decide)
      (by rw [List.length_replicate])
  refine ⟨_, hIdle, fun i hi => ?_⟩
  rw [hBuffer, overlay_lt (by rwa [List.length_replicate]), List.getElem_replicate]

end UartReceiver
end Smarthome.Coordinator
