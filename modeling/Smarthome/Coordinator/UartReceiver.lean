import Smarthome.Protocol
import Smarthome.Semantics.Transducer
import Mathlib.Logic.Function.Basic

/-! The coordinator's `uart_data_receiver`, one call for each byte that the
interrupt handler takes from the UART. A call of `uart_packet_processed` is an
event of this machine; what that function does with it is modelled elsewhere. -/
namespace Smarthome.Coordinator

open Semantics

/-- The static variables of `uart_data_receiver` and the global `uart_data`.
Buffers are total functions of the index; `Bounded` below keeps every index the
code writes inside the declared sizes (4 header bytes, 1500 data bytes). -/
structure UartReceiver where
  uartHeaderIterator : Nat
  uartHeaderData : Nat → Byte
  uartDataIterator : Nat
  uartDataLength : Nat
  uartPacketCrc : Byte
  uartData : Nat → Byte

/-- The arguments of one call of `uart_packet_processed`. -/
structure UartPacket where
  uartData : Nat → Byte
  uartDataLength : Nat

namespace UartPacket

/-- The bytes the frame declared, without what the buffer holds after them. -/
def bytes (packet : UartPacket) : List Byte :=
  (List.range packet.uartDataLength).map packet.uartData

end UartPacket

namespace UartReceiver

/-- Static storage after reset. -/
def reset : UartReceiver where
  uartHeaderIterator := 0
  uartHeaderData := fun _ => 0
  uartDataIterator := 0
  uartDataLength := 0
  uartPacketCrc := 0
  uartData := fun _ => 0

/-- The assignments every exit of the receiver makes; the buffers keep their bytes. -/
def restart (s : UartReceiver) : UartReceiver :=
  { s with uartHeaderIterator := 0, uartDataIterator := 0, uartDataLength := 0, uartPacketCrc := 0 }

/-- The receiver is waiting for the first byte of a frame. -/
def Idle (s : UartReceiver) : Prop :=
  s.uartHeaderIterator = 0 ∧ s.uartDataIterator = 0 ∧ s.uartDataLength = 0

instance (s : UartReceiver) : Decidable s.Idle := inferInstanceAs (Decidable (_ ∧ _ ∧ _))

theorem idle_reset : reset.Idle := ⟨rfl, rfl, rfl⟩

theorem idle_restart (s : UartReceiver) : s.restart.Idle := ⟨rfl, rfl, rfl⟩

/-- "Read and verify magic seq". -/
def readMagicByte (s : UartReceiver) (uartChar : Byte) : UartReceiver :=
  if uartMagicSequence[s.uartHeaderIterator]? = some uartChar then
    { s with uartHeaderIterator := s.uartHeaderIterator + 1 }
  else s.restart

/-- "Read header data": one byte into `uart_header_data`. -/
def readHeaderByte (s : UartReceiver) (uartChar : Byte) : UartReceiver :=
  { s with
    uartHeaderData :=
      Function.update s.uartHeaderData (s.uartHeaderIterator - magicSequenceLength) uartChar
    uartHeaderIterator := s.uartHeaderIterator + 1 }

/-- "check uart header data": version and declared length of a complete header. -/
def checkHeader (s : UartReceiver) : UartReceiver :=
  if s.uartHeaderData 0 ≠ uartProtocolVersionV3 then s.restart
  else if u16 (s.uartHeaderData 1) (s.uartHeaderData 2) > maxUartDataLength then s.restart
  else
    { s with
      uartDataLength := u16 (s.uartHeaderData 1) (s.uartHeaderData 2)
      uartPacketCrc := s.uartHeaderData 3
      uartHeaderIterator := s.uartHeaderIterator + 1 }

/-- "Read uart data", which happens only for a declared length above zero. -/
def readDataByte (s : UartReceiver) (uartChar : Byte) : UartReceiver :=
  if s.uartDataLength > 0 then
    { s with
      uartData := Function.update s.uartData s.uartDataIterator uartChar
      uartDataIterator := s.uartDataIterator + 1 }
  else s

end UartReceiver

open UartReceiver in
/-- One call of `uart_data_receiver`, with the packet it passes on, if any. The
branches stand in the order of the source; a header byte that does not complete
the header falls through to the data branches. -/
def uartDataReceiver (s : UartReceiver) (uartChar : Byte) : UartReceiver × Option UartPacket :=
  if s.uartHeaderIterator < packetHeaderLength ∧ s.uartHeaderIterator < magicSequenceLength then
    (s.readMagicByte uartChar, none)
  else
    let s := if s.uartHeaderIterator < packetHeaderLength ∧
        s.uartHeaderIterator ≥ magicSequenceLength then s.readHeaderByte uartChar else s
    if s.uartHeaderIterator = packetHeaderLength then (s.checkHeader, none)
    else if s.uartDataIterator ≥ maxUartDataLength then (s.restart, none)
    else
      let s := s.readDataByte uartChar
      if s.uartDataLength > 0 ∧ s.uartDataIterator = s.uartDataLength then
        (s.restart, some ⟨s.uartData, s.uartDataLength⟩)
      else (s, none)

/-- The receiver as a machine over the bytes of the UART. -/
def receiver : Transducer UartReceiver Byte UartPacket := ⟨uartDataReceiver⟩

namespace UartReceiver

/-- What holds between any two calls. The header iterator skips the value ten:
the call that completes a header also checks it. While a header is incomplete
the data counters are zero, and afterwards they describe an unfinished frame. -/
structure Bounded (s : UartReceiver) : Prop where
  header_le : s.uartHeaderIterator ≤ 11
  header_ne : s.uartHeaderIterator ≠ 10
  before_data : s.uartHeaderIterator < 10 →
    s.uartDataIterator = 0 ∧ s.uartDataLength = 0
  length_le : s.uartDataLength ≤ 1500
  unfinished : 0 < s.uartDataLength → s.uartDataIterator < s.uartDataLength
  empty : s.uartDataLength = 0 → s.uartDataIterator = 0
  accepted : s.uartHeaderIterator = 11 →
    s.uartHeaderData 0 = uartProtocolVersionV3 ∧
      s.uartDataLength = u16 (s.uartHeaderData 1) (s.uartHeaderData 2)

theorem Idle.bounded {s : UartReceiver} (h : s.Idle) : s.Bounded := by
  obtain ⟨hHeader, hIterator, hLength⟩ := h
  constructor <;> simp [hHeader, hIterator, hLength]

theorem bounded_restart (s : UartReceiver) : s.restart.Bounded := (idle_restart s).bounded

variable {s : UartReceiver} (uartChar : Byte)

theorem step_magic (h : s.uartHeaderIterator < 6) :
    receiver.step s uartChar = (s.readMagicByte uartChar, none) := by
  have hHeader : s.uartHeaderIterator < 10 := by omega
  simp [receiver, uartDataReceiver, h, hHeader]

/-- A header byte before the last one is only stored. -/
theorem step_header (hs : s.Bounded) (hMagic : 6 ≤ s.uartHeaderIterator)
    (hLast : s.uartHeaderIterator + 1 < 10) :
    receiver.step s uartChar = (s.readHeaderByte uartChar, none) := by
  obtain ⟨hIterator, hLength⟩ := hs.before_data (by omega)
  have hNot : ¬ s.uartHeaderIterator < 6 := by omega
  have hHeader : s.uartHeaderIterator < 10 := by omega
  have hNext : s.uartHeaderIterator + 1 ≠ 10 := by omega
  simp [receiver, uartDataReceiver, hNot, hHeader, hMagic, readHeaderByte, hNext, hIterator,
    readDataByte, hLength]

theorem step_check (hLast : s.uartHeaderIterator + 1 = 10) :
    receiver.step s uartChar = ((s.readHeaderByte uartChar).checkHeader, none) := by
  have hNot : ¬ s.uartHeaderIterator < 6 := by omega
  have hHeader : s.uartHeaderIterator < 10 := by omega
  have hMagic : 6 ≤ s.uartHeaderIterator := by omega
  simp [receiver, uartDataReceiver, hNot, hHeader, hMagic, readHeaderByte, hLast]

theorem step_data (hs : s.Bounded) (hHeader : s.uartHeaderIterator = 11)
    (hLength : 0 < s.uartDataLength) :
    receiver.step s uartChar =
      if s.uartDataIterator + 1 = s.uartDataLength then
        ((s.readDataByte uartChar).restart,
          some ⟨(s.readDataByte uartChar).uartData, s.uartDataLength⟩)
      else (s.readDataByte uartChar, none) := by
  have hIterator := hs.unfinished hLength
  have hBound := hs.length_le
  have hRoom : ¬ 1500 ≤ s.uartDataIterator := by omega
  simp [receiver, uartDataReceiver, hHeader, readDataByte, hRoom, hLength]

/-- A frame of declared length zero has been accepted: no byte changes anything. -/
theorem step_zero_length (hs : s.Bounded) (hHeader : s.uartHeaderIterator = 11)
    (hLength : s.uartDataLength = 0) : receiver.step s uartChar = (s, none) := by
  have hIterator := hs.empty hLength
  simp [receiver, uartDataReceiver, hHeader, readDataByte, hLength, hIterator]

/-- The five situations a call can find, each with its spec lemma above. -/
theorem Bounded.cases (hs : s.Bounded) :
    s.uartHeaderIterator < 6 ∨
    (6 ≤ s.uartHeaderIterator ∧ s.uartHeaderIterator + 1 < 10) ∨
    s.uartHeaderIterator + 1 = 10 ∨
    (s.uartHeaderIterator = 11 ∧ 0 < s.uartDataLength) ∨
    (s.uartHeaderIterator = 11 ∧ s.uartDataLength = 0) := by
  have hLe := hs.header_le
  have hNe := hs.header_ne
  omega

theorem bounded_readMagicByte (hs : s.Bounded) (h : s.uartHeaderIterator < 6) :
    (s.readMagicByte uartChar).Bounded := by
  obtain ⟨hIterator, hLength⟩ := hs.before_data (by omega)
  unfold readMagicByte
  split_ifs
  · constructor <;> simp [hIterator, hLength] <;> omega
  · exact bounded_restart s

theorem bounded_checkHeader (hHeader : s.uartHeaderIterator = 10)
    (hIterator : s.uartDataIterator = 0) : s.checkHeader.Bounded := by
  unfold checkHeader
  split_ifs with hVersion hLong
  · exact bounded_restart s
  · exact bounded_restart s
  · simp only [ne_eq, not_not, maxUartDataLength, gt_iff_lt, Nat.not_lt] at hVersion hLong
    constructor <;> simp [hHeader, hIterator, hVersion]
    omega

theorem bounded_step (hs : s.Bounded) : (receiver.step s uartChar).1.Bounded := by
  rcases hs.cases with h | ⟨hMagic, hLast⟩ | hLast | ⟨hHeader, hLength⟩ | ⟨hHeader, hLength⟩
  · rw [step_magic uartChar h]
    exact bounded_readMagicByte uartChar hs h
  · obtain ⟨hIterator, hZero⟩ := hs.before_data (by omega)
    rw [step_header uartChar hs hMagic hLast]
    constructor <;> simp [readHeaderByte, hIterator, hZero] <;> omega
  · obtain ⟨hIterator, -⟩ := hs.before_data (by omega)
    rw [step_check uartChar hLast]
    exact bounded_checkHeader (by simpa [readHeaderByte] using hLast) hIterator
  · have hIterator := hs.unfinished hLength
    have hBound := hs.length_le
    have hAccepted := hs.accepted hHeader
    rw [step_data uartChar hs hHeader hLength]
    split_ifs with hEnd
    · exact bounded_restart _
    · constructor <;> simp [readDataByte, hLength, hHeader, hAccepted.1, ← hAccepted.2] <;> omega
  · rw [step_zero_length uartChar hs hHeader hLength]
    exact hs

/-- Every byte stream from reset leaves the counters inside the declared arrays. -/
theorem bounded_after (word : List Byte) (hs : s.Bounded) : (receiver.after s word).Bounded :=
  receiver.after_invariant s hs (fun _ a h => bounded_step a h) word

/-- A packet is passed on with a declared length that the receiver allows. -/
theorem length_of_mem_emitted (word : List Byte) (hs : s.Bounded) {packet : UartPacket}
    (hMem : packet ∈ receiver.emitted s word) :
    0 < packet.uartDataLength ∧ packet.uartDataLength ≤ 1500 := by
  refine receiver.forall_mem_emitted
    (fun packet => 0 < packet.uartDataLength ∧ packet.uartDataLength ≤ 1500)
    (fun _ a h => bounded_step a h) ?_ word s hs packet hMem
  intro t a packet ht hEvent
  rcases ht.cases with h | ⟨hMagic, hLast⟩ | hLast | ⟨hHeader, hLength⟩ | ⟨hHeader, hLength⟩
  · rw [step_magic a h] at hEvent
    contradiction
  · rw [step_header a ht hMagic hLast] at hEvent
    contradiction
  · rw [step_check a hLast] at hEvent
    contradiction
  · rw [step_data a ht hHeader hLength] at hEvent
    split_ifs at hEvent
    obtain rfl := Option.some.inj hEvent
    exact ⟨hLength, ht.length_le⟩
  · rw [step_zero_length a ht hHeader hLength] at hEvent
    contradiction

end UartReceiver
end Smarthome.Coordinator
