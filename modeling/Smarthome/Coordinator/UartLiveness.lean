import Smarthome.Coordinator.UartReceiver
import Mathlib.Tactic.Common

/-! Whether the receiver comes back to its idle state. A frame of declared length
zero passes the check of the header, which only has an upper bound, and then
neither the data branch nor the end-of-packet branch is ever entered again. -/
namespace Smarthome.Coordinator

open Semantics

namespace UartReceiver

/-- The first `count` bytes of an unbounded input. -/
def firstBytes (input : Nat → Byte) (count : Nat) : List Byte :=
  (List.range count).map input

/-- Some call among the next `bound` leaves the receiver idle. -/
def IdleWithin (s : UartReceiver) (input : Nat → Byte) (bound : Nat) : Prop :=
  ∃ count, 0 < count ∧ count ≤ bound ∧ (receiver.after s (firstBytes input count)).Idle

/-- Byte `i` of the header in progress: read already, or still to come. -/
def headerByte (s : UartReceiver) (input : Nat → Byte) (i : Nat) : Byte :=
  if i < s.uartHeaderIterator then
    if i < magicSequenceLength then uartMagicSequence.getD i 0
    else s.uartHeaderData (i - magicSequenceLength)
  else input (i - s.uartHeaderIterator)

/-- The header in progress is a version 3 header that declares length zero. -/
def ZeroLengthHeader (s : UartReceiver) (input : Nat → Byte) : Prop :=
  (∀ i < magicSequenceLength, s.headerByte input i = uartMagicSequence.getD i 0) ∧
    s.headerByte input 6 = uartProtocolVersionV3 ∧
    s.headerByte input 7 = 0 ∧ s.headerByte input 8 = 0

theorem firstBytes_succ (input : Nat → Byte) (count : Nat) :
    firstBytes input (count + 1) = input 0 :: firstBytes (fun i => input (i + 1)) count := by
  simp [firstBytes, List.range_succ_eq_map, Function.comp_def]

variable {s : UartReceiver} {input : Nat → Byte} {bound : Nat}

/-- One call later. -/
theorem idleWithin_succ :
    s.IdleWithin input (bound + 1) ↔ (receiver.step s (input 0)).1.Idle ∨
      (receiver.step s (input 0)).1.IdleWithin (fun i => input (i + 1)) bound := by
  constructor
  · rintro ⟨count, hPos, hLe, hIdle⟩
    obtain ⟨k, rfl⟩ := Nat.exists_eq_add_of_lt hPos
    rw [Nat.zero_add, firstBytes_succ, Transducer.after_cons] at hIdle
    cases k with
    | zero => exact Or.inl hIdle
    | succ k => exact Or.inr ⟨k + 1, by omega, by omega, hIdle⟩
  · rintro (hIdle | ⟨count, hPos, hLe, hIdle⟩)
    · refine ⟨1, by omega, by omega, ?_⟩
      rw [firstBytes_succ, Transducer.after_cons]
      exact hIdle
    · refine ⟨count + 1, by omega, by omega, ?_⟩
      rw [firstBytes_succ, Transducer.after_cons]
      exact hIdle

theorem IdleWithin.mono {larger : Nat} (h : s.IdleWithin input bound) (hLe : bound ≤ larger) :
    s.IdleWithin input larger := by
  obtain ⟨count, hPos, hCount, hIdle⟩ := h
  exact ⟨count, hPos, Nat.le_trans hCount hLe, hIdle⟩

/-- Every declared length above zero is used up by that many bytes. -/
theorem data_idleWithin (hs : s.Bounded) (hHeader : s.uartHeaderIterator = 11)
    (hLength : 0 < s.uartDataLength) :
    s.IdleWithin input (s.uartDataLength - s.uartDataIterator) := by
  induction hRest : s.uartDataLength - s.uartDataIterator generalizing s input with
  | zero =>
      have hUnfinished := hs.unfinished hLength
      omega
  | succ rest ih =>
      have hNext := bounded_step (input 0) hs
      rw [idleWithin_succ]
      rw [step_data _ hs hHeader hLength] at hNext ⊢
      split_ifs at hNext ⊢ with hEnd
      · exact Or.inl (idle_restart _)
      · right
        have hRead : (s.readDataByte (input 0)).uartDataLength = s.uartDataLength ∧
            (s.readDataByte (input 0)).uartDataIterator = s.uartDataIterator + 1 ∧
            (s.readDataByte (input 0)).uartHeaderIterator = s.uartHeaderIterator := by
          simp [readDataByte, hLength]
        exact ih hNext (hRead.2.2.trans hHeader) (hRead.1 ▸ hLength) (by
          rw [hRead.1, hRead.2.1]
          omega)

/-- A receiver with an accepted header of length zero never changes again. -/
theorem after_zero_length (bytes : List Byte) (hs : s.Bounded) (hHeader : s.uartHeaderIterator = 11)
    (hLength : s.uartDataLength = 0) : receiver.after s bytes = s := by
  induction bytes with
  | nil => rfl
  | cons byte bytes ih =>
      rw [Transducer.after_cons, step_zero_length byte hs hHeader hLength]
      exact ih

theorem not_idleWithin_of_zero (hs : s.Bounded) (hHeader : s.uartHeaderIterator = 11)
    (hLength : s.uartDataLength = 0) : ¬ s.IdleWithin input bound := by
  rintro ⟨count, -, -, hIdle⟩
  rw [after_zero_length _ hs hHeader hLength] at hIdle
  exact absurd (hIdle.1.symm.trans hHeader) (by decide)

/-- While the header grows, the header in progress stays the same one. -/
theorem zeroLengthHeader_step {t : UartReceiver}
    (hHeader : t.uartHeaderIterator = s.uartHeaderIterator + 1)
    (hOld : ∀ i < s.uartHeaderIterator, t.headerByte (fun i => input (i + 1)) i = s.headerByte input i)
    (hNew : t.headerByte (fun i => input (i + 1)) s.uartHeaderIterator = input 0) :
    t.ZeroLengthHeader (fun i => input (i + 1)) ↔ s.ZeroLengthHeader input := by
  have hSame : ∀ i, t.headerByte (fun i => input (i + 1)) i = s.headerByte input i := by
    intro i
    rcases Nat.lt_trichotomy i s.uartHeaderIterator with h | h | h
    · exact hOld i h
    · subst h
      rw [hNew]
      simp [headerByte]
    · have hLater : ¬ i < s.uartHeaderIterator + 1 := by omega
      have hNot : ¬ i < s.uartHeaderIterator := by omega
      have hIndex : i - (s.uartHeaderIterator + 1) + 1 = i - s.uartHeaderIterator := by omega
      simp only [headerByte, hHeader, hLater, hNot, if_false, hIndex]
  simp only [ZeroLengthHeader, hSame]

/-- A byte that continues the header keeps both the answer and the question one step on. -/
theorem idleWithin_iff_step {t : UartReceiver} (hStep : (receiver.step s (input 0)).1 = t)
    (hHeader : t.uartHeaderIterator = s.uartHeaderIterator + 1)
    (hOld : ∀ i < s.uartHeaderIterator, t.headerByte (fun i => input (i + 1)) i = s.headerByte input i)
    (hNew : t.headerByte (fun i => input (i + 1)) s.uartHeaderIterator = input 0)
    (ih : t.IdleWithin (fun i => input (i + 1)) bound ↔
      ¬ t.ZeroLengthHeader (fun i => input (i + 1))) :
    s.IdleWithin input (bound + 1) ↔ ¬ s.ZeroLengthHeader input := by
  have hBusy : ¬ t.Idle := fun h => by
    have hZero := h.1
    omega
  rw [idleWithin_succ, hStep, ih, zeroLengthHeader_step hHeader hOld hNew]
  exact or_iff_right hBusy

/-- The accepted header decides: length zero is stuck, any other length is used up. -/
theorem accepted_idleWithin_iff (hs : s.Bounded) (hHeader : s.uartHeaderIterator = 11)
    (hBound : 1500 ≤ bound) : s.IdleWithin input bound ↔ s.uartDataLength ≠ 0 := by
  constructor
  · intro h hLength
    exact not_idleWithin_of_zero hs hHeader hLength h
  · intro hLength
    have hLe := hs.length_le
    exact (data_idleWithin hs hHeader (Nat.pos_of_ne_zero hLength)).mono (by omega)

theorem zeroLengthHeader_accepted (hs : s.Bounded) (hHeader : s.uartHeaderIterator = 11) :
    s.ZeroLengthHeader input ↔ s.uartDataLength = 0 := by
  obtain ⟨hVersion, hLength⟩ := hs.accepted hHeader
  rw [hLength, u16_eq_zero_iff]
  simp only [ZeroLengthHeader, headerByte, hHeader, magicSequenceLength]
  constructor
  · rintro ⟨-, -, hLow, hHigh⟩
    exact ⟨hLow, hHigh⟩
  · rintro ⟨hLow, hHigh⟩
    refine ⟨fun i hi => ?_, hVersion, hLow, hHigh⟩
    simp [Nat.lt_trans hi (by decide : 6 < 11), hi]

/-- A byte of the magic sequence: it continues the header or the receiver is idle. -/
theorem magic_idleWithin_iff (hMagic : s.uartHeaderIterator < 6)
    (ih : ∀ t : UartReceiver, (receiver.step s (input 0)).1 = t →
      t.uartHeaderIterator = s.uartHeaderIterator + 1 →
      (t.IdleWithin (fun i => input (i + 1)) bound ↔
        ¬ t.ZeroLengthHeader (fun i => input (i + 1)))) :
    s.IdleWithin input (bound + 1) ↔ ¬ s.ZeroLengthHeader input := by
  have hStep := step_magic (input 0) hMagic
  rw [readMagicByte] at hStep
  split_ifs at hStep with hMatch
  · refine idleWithin_iff_step (congrArg Prod.fst hStep) rfl ?_ ?_
      (ih _ (congrArg Prod.fst hStep) rfl)
    · intro i hi
      have hSix : i < 6 := Nat.lt_trans hi hMagic
      simp [headerByte, hi, hSix, Nat.lt_succ_of_lt hi]
    · simp [headerByte, hMagic, hMatch]
  · have hIdle : s.IdleWithin input (bound + 1) := by
      rw [idleWithin_succ, hStep]
      exact Or.inl (idle_restart s)
    refine iff_of_true hIdle fun hZero => hMatch ?_
    have hByte := hZero.1 s.uartHeaderIterator hMagic
    simp only [headerByte, Nat.lt_irrefl, if_false, Nat.sub_self] at hByte
    have hLength : s.uartHeaderIterator < uartMagicSequence.length := hMagic
    simp [hByte, hLength]

/-- A stored header byte becomes part of the header in progress. -/
theorem headerByte_readHeaderByte (s : UartReceiver) (input : Nat → Byte)
    (hMagic : 6 ≤ s.uartHeaderIterator) :
    (∀ i < s.uartHeaderIterator,
      (s.readHeaderByte (input 0)).headerByte (fun i => input (i + 1)) i = s.headerByte input i) ∧
    (s.readHeaderByte (input 0)).headerByte (fun i => input (i + 1)) s.uartHeaderIterator =
      input 0 := by
  refine ⟨fun i hi => ?_, ?_⟩
  · by_cases hSix : i < 6
    · simp [headerByte, readHeaderByte, hi, hSix, Nat.lt_succ_of_lt hi]
    · have hNe : i - 6 ≠ s.uartHeaderIterator - 6 := by omega
      simp [headerByte, readHeaderByte, hi, hSix, Nat.lt_succ_of_lt hi, hNe]
  · have hSix : ¬ s.uartHeaderIterator < 6 := by omega
    simp [headerByte, readHeaderByte, hSix]

theorem zeroLengthHeader_complete (hHeader : s.uartHeaderIterator = 10) :
    s.ZeroLengthHeader input ↔ s.uartHeaderData 0 = uartProtocolVersionV3 ∧
      s.uartHeaderData 1 = 0 ∧ s.uartHeaderData 2 = 0 := by
  simp only [ZeroLengthHeader, headerByte, hHeader, magicSequenceLength]
  refine ⟨fun h => h.2, fun h => ⟨fun i hi => ?_, h⟩⟩
  simp [Nat.lt_trans hi (by decide : 6 < 10), hi]

/-- The byte that completes the header: the check of the header decides. -/
theorem check_idleWithin_iff (hs : s.Bounded) (hLast : s.uartHeaderIterator = 9)
    (hBound : 1500 ≤ bound) :
    s.IdleWithin input (bound + 1) ↔ ¬ s.ZeroLengthHeader input := by
  obtain ⟨hOld, hNew⟩ := headerByte_readHeaderByte s input (by omega)
  have hStep := step_check (s := s) (input 0) (by simp [hLast])
  have hNext := bounded_step (input 0) hs
  rw [hStep] at hNext
  have hTen : (s.readHeaderByte (input 0)).uartHeaderIterator = 10 := by
    simp [readHeaderByte, hLast]
  rw [idleWithin_succ, hStep, ← zeroLengthHeader_step rfl hOld hNew, zeroLengthHeader_complete hTen]
  generalize s.readHeaderByte (input 0) = t at hNext hTen
  unfold checkHeader at hNext ⊢
  split_ifs at hNext ⊢ with hVersion hLong
  · exact iff_of_true (Or.inl (idle_restart t)) fun h => hVersion h.1
  · apply iff_of_true (Or.inl (idle_restart t))
    intro h
    rw [(u16_eq_zero_iff _ _).mpr h.2] at hLong
    exact absurd hLong (by decide)
  · have hAccepted : t.uartHeaderIterator + 1 = 11 := by omega
    rw [accepted_idleWithin_iff hNext hAccepted hBound, ← u16_eq_zero_iff]
    constructor
    · rintro (hIdle | hPos) h
      · exact absurd (hIdle.1.symm.trans hAccepted) (by decide)
      · exact hPos h.2
    · exact fun h => Or.inr fun hZero => h ⟨not_not.mp hVersion, hZero⟩

/-- **Liveness of the receiver.** From any state between two calls the receiver
is idle again within 1510 bytes, unless the header in progress turns out to be a
version 3 header of length zero; then it is never idle again. -/
theorem idleWithin_iff (hs : s.Bounded) (hBound : 10 - s.uartHeaderIterator + 1500 ≤ bound) :
    s.IdleWithin input bound ↔ ¬ s.ZeroLengthHeader input := by
  induction hRest : 10 - s.uartHeaderIterator generalizing s input bound with
  | zero =>
      have hHeader : s.uartHeaderIterator = 11 := by
        have hLe := hs.header_le
        have hNe := hs.header_ne
        omega
      rw [accepted_idleWithin_iff hs hHeader (by omega), zeroLengthHeader_accepted hs hHeader]
  | succ rest ih =>
      obtain ⟨below, rfl⟩ : ∃ below, bound = below + 1 := ⟨bound - 1, by omega⟩
      by_cases hMagic : s.uartHeaderIterator < 6
      · apply magic_idleWithin_iff hMagic
        intro t hStep hHeader
        exact ih (hStep ▸ bounded_step _ hs) (by omega) (by omega)
      · by_cases hLast : s.uartHeaderIterator = 9
        · exact check_idleWithin_iff hs hLast (by omega)
        · have hStep := step_header (input 0) hs (by omega) (by omega)
          obtain ⟨hOld, hNew⟩ := headerByte_readHeaderByte s input (by omega)
          refine idleWithin_iff_step (congrArg Prod.fst hStep) rfl hOld hNew (ih ?_ ?_ ?_)
          · have hNext := bounded_step (input 0) hs
            rwa [hStep] at hNext
          · simp only [readHeaderByte]
            omega
          · simp only [readHeaderByte]
            omega

end UartReceiver

open UartReceiver

/-- Liveness at every reachable state, for one continuation and for all of them:
no bound serves every continuation exactly when one of them can complete the
header in progress to a version 3 header of length zero. -/
theorem returns_idle_iff (history : List Byte) :
    (∀ input, (∃ bound, (receiver.after reset history).IdleWithin input bound) ↔
      ¬ (receiver.after reset history).ZeroLengthHeader input) ∧
    (∀ input, ¬ (receiver.after reset history).ZeroLengthHeader input →
      (receiver.after reset history).IdleWithin input 1510) ∧
    ((∃ bound, ∀ input, (receiver.after reset history).IdleWithin input bound) ↔
      ∀ input, ¬ (receiver.after reset history).ZeroLengthHeader input) := by
  have hs := bounded_after history idle_reset.bounded
  have hIff (input : Nat → Byte) : (receiver.after reset history).IdleWithin input 1510 ↔
      ¬ (receiver.after reset history).ZeroLengthHeader input := idleWithin_iff hs (by omega)
  have hOne (input : Nat → Byte) (bound : Nat)
      (h : (receiver.after reset history).IdleWithin input bound) :
      ¬ (receiver.after reset history).ZeroLengthHeader input :=
    (idleWithin_iff hs (by omega : _ ≤ bound + 1510)).mp (h.mono (by omega))
  refine ⟨fun input => ⟨?_, fun h => ⟨1510, (hIff input).mpr h⟩⟩, fun input => (hIff input).mpr, ?_⟩
  · rintro ⟨bound, h⟩
    exact hOne input bound h
  · constructor
    · rintro ⟨bound, h⟩ input
      exact hOne input bound (h input)
    · exact fun h => ⟨1510, fun input => (hIff input).mpr (h input)⟩

/-- After `01 16 16 16 16 10 03 00 00 FF` no number of further bytes helps. -/
theorem returns_idle_fails : ¬ ∀ history : List Byte, ∃ bound, ∀ more : List Byte,
    more.length = bound → ∃ count ≤ bound, (receiver.after (receiver.after reset history)
      (more.take count)).Idle := by
  intro h
  obtain ⟨bound, hBound⟩ := h [0x01, 0x16, 0x16, 0x16, 0x16, 0x10, 0x03, 0x00, 0x00, 0xFF]
  obtain ⟨count, -, hIdle⟩ := hBound (List.replicate bound 0) (by simp)
  rw [after_zero_length _ (bounded_after _ idle_reset.bounded) (by decide) (by decide)] at hIdle
  exact absurd hIdle.1 (by decide)

end Smarthome.Coordinator
