import Smarthome.Coordinator.UartFrames

/-! The search for the magic sequence in a stream that starts with other bytes.
While no header is open, `uart_data_receiver` is the restarting matcher of
`Semantics.PrefixMatcher`, so a byte that breaks a match is never tried as the
first byte of the next one. -/
namespace Smarthome.Coordinator

open Semantics UartReceiver

/-- `pattern` occurs in `word` at position `place` and at no other position. -/
def OccursOnlyAt (pattern word : List Byte) (place : Nat) : Prop :=
  ∀ before rest, before ++ pattern ++ rest = word → before.length = place

theorem OccursOnlyAt.of_forall {pattern word : List Byte} {place : Nat} (hPattern : pattern ≠ [])
    (h : ∀ i < word.length, pattern <+: word.drop i → i = place) :
    OccursOnlyAt pattern word place := by
  rintro before rest rfl
  apply h
  · have hPos := List.length_pos_iff.mpr hPattern
    simp only [List.length_append]
    omega
  · rw [List.append_assoc, List.drop_left]
    exact List.prefix_append pattern rest

variable {s : UartReceiver}

theorem readMagicByte_iterator (hs : s.Bounded) (h : s.uartHeaderIterator < 6) (uartChar : Byte) :
    (s.readMagicByte uartChar).uartHeaderIterator =
        PrefixMatcher.step uartMagicSequence s.uartHeaderIterator uartChar ∧
      (s.readMagicByte uartChar).uartDataIterator = 0 ∧
      (s.readMagicByte uartChar).uartDataLength = 0 ∧
      (s.readMagicByte uartChar).uartData = s.uartData := by
  obtain ⟨hIterator, hLength⟩ := hs.before_data (by omega)
  unfold readMagicByte PrefixMatcher.step
  split_ifs
  · exact ⟨rfl, hIterator, hLength, rfl⟩
  · exact ⟨rfl, rfl, rfl, rfl⟩

/-- Bytes without a magic sequence move only the header iterator, as the matcher does. -/
theorem after_unmatched (hs : s.Idle) (word : List Byte)
    (hWord : ¬ uartMagicSequence <:+: word) :
    (receiver.after s word).uartHeaderIterator = PrefixMatcher.scan uartMagicSequence word ∧
      (receiver.after s word).uartDataIterator = 0 ∧
      (receiver.after s word).uartDataLength = 0 ∧
      (receiver.after s word).uartData = s.uartData ∧
      receiver.emitted s word = [] := by
  induction word using List.reverseRecOn with
  | nil => exact ⟨hs.1, hs.2.1, hs.2.2, rfl, rfl⟩
  | append_singleton word a ih =>
      have hBefore : ¬ uartMagicSequence <:+: word := fun h =>
        hWord (h.trans (List.prefix_append word [a]).isInfix)
      obtain ⟨hScan, -, -, hBuffer, hEmitted⟩ := ih hBefore
      have hLt : (receiver.after s word).uartHeaderIterator < 6 := by
        rw [hScan]
        exact PrefixMatcher.scan_lt_of_not_infix hBefore
      obtain ⟨hNext, hIterator, hLength, hKept⟩ :=
        readMagicByte_iterator (bounded_after word hs.bounded) hLt a
      rw [Transducer.after_append, Transducer.emitted_append, Transducer.after_cons,
        Transducer.after_nil, Transducer.emitted_cons, Transducer.emitted_nil, step_magic a hLt]
      refine ⟨?_, hIterator, hLength, hKept.trans hBuffer, by simp [hEmitted]⟩
      rw [hNext, hScan, PrefixMatcher.scan_concat]

/-- The first magic byte occurs nowhere else in the sequence, so read inside a
partial match it only breaks it. -/
theorem step_first_magic_byte {k : Nat} (hk : 0 < k) :
    PrefixMatcher.step uartMagicSequence k 0x01 = 0 := by
  rw [PrefixMatcher.step, if_neg]
  rcases Nat.lt_or_ge k 6 with h | h
  · exact (by decide : ∀ k < 6, 0 < k → ¬ uartMagicSequence[k]? = some 0x01) k h hk
  · rw [List.getElem?_eq_none (by simpa [uartMagicSequence] using h)]
    simp

theorem v3Frame_eq_cons (crc : Byte) (data : List Byte) :
    v3Frame crc data = 0x01 :: (v3Frame crc data).tail := rfl

section Garbage

variable {garbage data : List Byte} {crc : Byte}
    (hOnly : OccursOnlyAt uartMagicSequence (garbage ++ v3Frame crc data) garbage.length)

include hOnly

theorem garbage_unmatched : ¬ uartMagicSequence <:+: garbage := by
  rintro ⟨before, rest, he⟩
  have hPlace := hOnly before (rest ++ v3Frame crc data) (by rw [← he]; simp)
  have hLength := congrArg List.length he
  simp only [List.length_append, uartMagicSequence, List.length_cons] at hLength
  omega

theorem tail_unmatched : ¬ uartMagicSequence <:+: (v3Frame crc data).tail := by
  rintro ⟨before, rest, he⟩
  have hPlace := hOnly (garbage ++ [0x01] ++ before) rest (by
    conv => rhs; rw [v3Frame_eq_cons]
    rw [← he]
    simp)
  simp at hPlace

/-- After garbage that ends inside an attempt the frame's first byte breaks that
attempt, and the rest of the frame holds no magic sequence any more. -/
theorem emitted_of_pending (hs : s.Idle)
    (hPending : PrefixMatcher.scan uartMagicSequence garbage ≠ 0) :
    receiver.emitted s (garbage ++ v3Frame crc data) = [] := by
  have hGarbage := garbage_unmatched hOnly
  obtain ⟨hScan, -, -, -, hEmitted⟩ := after_unmatched hs garbage hGarbage
  have hBounded := bounded_after garbage hs.bounded
  have hLt : (receiver.after s garbage).uartHeaderIterator < 6 := by
    rw [hScan]
    exact PrefixMatcher.scan_lt_of_not_infix hGarbage
  obtain ⟨hNext, hIterator, hLength, -⟩ := readMagicByte_iterator hBounded hLt 0x01
  rw [hScan, step_first_magic_byte (Nat.pos_of_ne_zero hPending)] at hNext
  have hIdle : ((receiver.after s garbage).readMagicByte 0x01).Idle :=
    ⟨hNext, hIterator, hLength⟩
  rw [Transducer.emitted_append, hEmitted, v3Frame_eq_cons, Transducer.emitted_cons,
    step_magic 0x01 hLt]
  simpa using (after_unmatched hIdle _ (tail_unmatched hOnly)).2.2.2.2

end Garbage

/-- **Resynchronisation.** The frame after the garbage is passed on, once and
whole, exactly when the garbage falls apart into failed attempts at the magic
sequence, so that none is in progress when the frame starts. -/
theorem resync_iff (hs : s.Idle) (garbage data : List Byte) (crc : Byte)
    (hPos : 0 < data.length) (hLe : data.length ≤ 1500)
    (hOnly : OccursOnlyAt uartMagicSequence (garbage ++ v3Frame crc data) garbage.length) :
    (receiver.emitted s (garbage ++ v3Frame crc data)).map UartPacket.bytes = [data] ↔
      PrefixMatcher.Attempts uartMagicSequence garbage := by
  have hGarbage := garbage_unmatched hOnly
  rw [← PrefixMatcher.scan_eq_zero_iff hGarbage]
  constructor
  · intro h
    by_contra hPending
    rw [emitted_of_pending hOnly hs hPending] at h
    simp at h
  · intro hFresh
    obtain ⟨hScan, hIterator, hLength, -, hEmitted⟩ := after_unmatched hs garbage hGarbage
    have hIdle : (receiver.after s garbage).Idle := ⟨hScan.trans hFresh, hIterator, hLength⟩
    rw [Transducer.emitted_append, hEmitted, (receive_frame hIdle crc data hPos hLe).1]
    simp

theorem resync_iff_zero_byte :
    (receiver.emitted reset ([0x00] ++ v3Frame 0xFF [0x05])).map UartPacket.bytes = [[0x05]] ↔
      PrefixMatcher.Attempts uartMagicSequence [0x00] :=
  resync_iff idle_reset [0x00] [0x05] 0xFF (by decide) (by decide)
    (OccursOnlyAt.of_forall (by decide) (by decide))

/-- A single `01`, the first byte of the magic sequence, hides the frame behind it. -/
theorem resync_fails : ¬ ∀ (garbage data : List Byte) (crc : Byte),
    0 < data.length → data.length ≤ 1500 →
    OccursOnlyAt uartMagicSequence (garbage ++ v3Frame crc data) garbage.length →
    (receiver.emitted reset (garbage ++ v3Frame crc data)).map UartPacket.bytes = [data] := by
  intro h
  have hOnly : OccursOnlyAt uartMagicSequence ([0x01] ++ v3Frame 0xFF [0x00]) 1 :=
    OccursOnlyAt.of_forall (by decide) (by decide)
  have hFrame := h [0x01] [0x00] 0xFF (by decide) (by decide) hOnly
  revert hFrame
  decide

end Smarthome.Coordinator
