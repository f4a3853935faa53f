import Smarthome.Coordinator.UartFrames
import Mathlib.Tactic.Common

/-! The sending side of the UART in `router.lua`: the frame around a packet is
built as hexadecimal text and written to the port in short segments. -/
namespace Smarthome.Router

open Semantics Coordinator UartReceiver

/-- The value of a hexadecimal digit, in either case. -/
def hexDigit (c : Char) : Option Nat :=
  if '0' ≤ c ∧ c ≤ '9' then some (c.toNat - '0'.toNat)
  else if 'a' ≤ c ∧ c ≤ 'f' then some (c.toNat - 'a'.toNat + 10)
  else if 'A' ≤ c ∧ c ≤ 'F' then some (c.toNat - 'A'.toNat + 10)
  else none

/-- The substitution of `string.fromhex`: two characters become one byte, and an
odd last character has no partner and stays. Two characters that are not a
number make `string.char` raise an error. -/
def bytePairs : List Char → Option (List Byte)
  | [] => some []
  | [c] => some [UInt8.ofNat c.toNat]
  | high :: low :: str => do
      let high ← hexDigit high
      let low ← hexDigit low
      let bytes ← bytePairs str
      return UInt8.ofNat (16 * high + low) :: bytes

def fromhex (str : List Char) : Option (List Byte) :=
  bytePairs (str.filter (· ≠ ' '))

/-- `bindechex.Dec2Hex`, that is `string.format("%x", s)`. -/
def dec2Hex (s : Nat) : List Char := Nat.toDigits 16 s

/-- Text of length one, two or three is filled up to four digits; no other is touched. -/
def padHex (sizeHex : List Char) : List Char :=
  if sizeHex.length = 1 then ['0', '0', '0'] ++ sizeHex
  else if sizeHex.length = 2 then ['0', '0'] ++ sizeHex
  else if sizeHex.length = 3 then ['0'] ++ sizeHex
  else sizeHex

def uartProtocolVersionV3Hex : List Char := ['0', '3']
def uartPv2StartMq : List Char := ['0', '1', '1', '6', '1', '6', '1', '6', '1', '6', '1', '0']
def uartFfData : List Char := ['F', 'F']

/-- `data_cut`: segments of `segmentLen` bytes and a last one which may be shorter.
The loop tests the length from before the cut, so the empty string gives one empty
segment. -/
def dataCut (segmentLen : Nat) (hPos : 0 < segmentLen) (allData : List Byte) : List (List Byte) :=
  if allData.length < segmentLen + 1 then [allData.take segmentLen]
  else allData.take segmentLen :: dataCut segmentLen hPos (allData.drop segmentLen)
  termination_by allData.length
  decreasing_by
    simp only [List.length_drop]
    omega

/-- `uart_send`: the segments written to the port, none for a packet that is too
big. The size goes out low byte first, from the second half of the hexadecimal text. -/
def uartSend (binData : List Byte) : Option (List (List Byte)) :=
  if binData.length > 1500 then some []
  else
    let uartPacketSizeHex := padHex (dec2Hex binData.length)
    let uartPacketSizeHexB1 := uartPacketSizeHex.take 2
    let uartPacketSizeHexB2 := (uartPacketSizeHex.drop 2).take 2
    do
      let startMq ← fromhex uartPv2StartMq
      let version ← fromhex uartProtocolVersionV3Hex
      let sizeB2 ← fromhex uartPacketSizeHexB2
      let sizeB1 ← fromhex uartPacketSizeHexB1
      let ffData ← fromhex uartFfData
      let preamble := startMq ++ version ++ sizeB2 ++ sizeB1 ++ ffData
      return dataCut 25 (by decide) (preamble ++ binData)

theorem hexDigit_digitChar {d : Nat} (h : d < 16) : hexDigit d.digitChar = some d := by
  have hAll : ∀ i : Fin 16, hexDigit i.val.digitChar = some i.val := by decide
  exact hAll ⟨d, h⟩

theorem digitChar_ne_blank {d : Nat} (h : d < 16) : d.digitChar ≠ ' ' := by
  have hAll : ∀ i : Fin 16, i.val.digitChar ≠ ' ' := by decide
  exact hAll ⟨d, h⟩

/-- Two written digits are read back as the byte they denote. -/
theorem fromhex_digits {high low : Nat} (hHigh : high < 16) (hLow : low < 16) :
    fromhex [high.digitChar, low.digitChar] = some [UInt8.ofNat (16 * high + low)] := by
  simp [fromhex, bytePairs, hexDigit_digitChar, digitChar_ne_blank, hHigh, hLow]

/-- The hexadecimal digits of a number in a field of the given width. -/
def fixedDigits : Nat → Nat → List Char
  | 0, _ => []
  | width + 1, n => fixedDigits width (n / 16) ++ [(n % 16).digitChar]

theorem fixedDigits_zero (width : Nat) : fixedDigits width 0 = List.replicate width '0' := by
  induction width with
  | zero => rfl
  | succ width ih =>
      rw [fixedDigits, Nat.zero_div, ih, List.replicate_succ']
      rfl

/-- A number that fits its field is padded to the digits of the field. -/
theorem padded_dec2Hex (width : Nat) {n : Nat} (h : n < 16 ^ (width + 1)) :
    List.replicate (width + 1 - (dec2Hex n).length) '0' ++ dec2Hex n =
      fixedDigits (width + 1) n := by
  have hCut (m : Nat) : dec2Hex m =
      if m < 16 then [m.digitChar] else dec2Hex (m / 16) ++ [(m % 16).digitChar] :=
    Nat.toDigits_eq_if (by decide)
  induction width generalizing n with
  | zero =>
      have hDigit : n < 16 := h
      have hLast : n % 16 = n := Nat.mod_eq_of_lt hDigit
      rw [hCut, if_pos hDigit, fixedDigits, fixedDigits, hLast]
      rfl
  | succ width ih =>
      rw [hCut, fixedDigits]
      split_ifs with hDigit
      · have hFirst : n / 16 = 0 := Nat.div_eq_of_lt hDigit
        have hLast : n % 16 = n := Nat.mod_eq_of_lt hDigit
        rw [hFirst, hLast, fixedDigits_zero]
        rfl
      · have hNext : n / 16 < 16 ^ (width + 1) := by
          rw [Nat.div_lt_iff_lt_mul (by decide), ← Nat.pow_succ]
          exact h
        rw [← ih hNext, List.length_append, List.length_singleton, Nat.add_sub_add_right,
          List.append_assoc]

/-- The four cases of the padding agree on one shape: the four hexadecimal
digits of a 16-bit number, leading zeros included. -/
theorem padHex_dec2Hex {n : Nat} (h : n < 65536) :
    padHex (dec2Hex n) = [(n / 4096).digitChar, (n / 256 % 16).digitChar,
      (n / 16 % 16).digitChar, (n % 16).digitChar] := by
  have hPad {sizeHex : List Char} (hLength : 0 < sizeHex.length) :
      padHex sizeHex = List.replicate (4 - sizeHex.length) '0' ++ sizeHex := by
    unfold padHex
    split_ifs with hOne hTwo hThree
    · rw [hOne]
      rfl
    · rw [hTwo]
      rfl
    · rw [hThree]
      rfl
    · have hNone : 4 - sizeHex.length = 0 := by omega
      rw [hNone, List.replicate_zero, List.nil_append]
  have hFirst : n / 4096 % 16 = n / 4096 := by omega
  have hLength : 0 < (dec2Hex n).length := Nat.length_toDigits_pos
  rw [hPad hLength, padded_dec2Hex 3 h]
  simp [fixedDigits, Nat.div_div_eq_div_mul, hFirst]

/-- The two halves of the size text are its high and its low byte. -/
theorem fromhex_sizeHex {n : Nat} (h : n < 65536) :
    fromhex ((padHex (dec2Hex n)).take 2) = some [UInt8.ofNat (n / 256)] ∧
      fromhex (((padHex (dec2Hex n)).drop 2).take 2) = some [UInt8.ofNat n] := by
  rw [padHex_dec2Hex h]
  constructor
  · have hByte : 16 * (n / 4096) + n / 256 % 16 = n / 256 := by omega
    exact (fromhex_digits (by omega) (by omega)).trans (by rw [hByte])
  · refine (fromhex_digits (by omega) (by omega)).trans (congrArg (fun b => some [b]) ?_)
    rw [← UInt8.toNat_inj, UInt8.toNat_ofNat', UInt8.toNat_ofNat']
    omega

/-- The whole text is both bytes, the high one first. -/
theorem fromhex_padHex {n : Nat} (h : n < 65536) :
    fromhex (padHex (dec2Hex n)) = some [UInt8.ofNat (n / 256), UInt8.ofNat n] := by
  have hHigh : 16 * (n / 4096) + n / 256 % 16 = n / 256 := by omega
  have hLow : UInt8.ofNat (16 * (n / 16 % 16) + n % 16) = UInt8.ofNat n := by
    rw [← UInt8.toNat_inj, UInt8.toNat_ofNat', UInt8.toNat_ofNat']
    omega
  have hTop : n / 4096 < 16 := by omega
  have hDigit (m : Nat) : m % 16 < 16 := Nat.mod_lt m (by decide)
  have hKept : ([(n / 4096).digitChar, (n / 256 % 16).digitChar, (n / 16 % 16).digitChar,
      (n % 16).digitChar]).filter (· ≠ ' ') = [(n / 4096).digitChar, (n / 256 % 16).digitChar,
        (n / 16 % 16).digitChar, (n % 16).digitChar] := by
    simp [digitChar_ne_blank, hTop, hDigit]
  rw [padHex_dec2Hex h, fromhex, hKept, bytePairs, bytePairs, bytePairs,
    hexDigit_digitChar hTop, hexDigit_digitChar (hDigit _), hexDigit_digitChar (hDigit _),
    hexDigit_digitChar (hDigit _)]
  show some [UInt8.ofNat (16 * (n / 4096) + n / 256 % 16),
    UInt8.ofNat (16 * (n / 16 % 16) + n % 16)] = _
  rw [hHigh, hLow]

/-- Cutting loses and reorders nothing. -/
theorem dataCut_flatten (segmentLen : Nat) (hPos : 0 < segmentLen) (allData : List Byte) :
    (dataCut segmentLen hPos allData).flatten = allData := by
  induction allData using dataCut.induct segmentLen hPos with
  | case1 allData hLast =>
      rw [dataCut, if_pos hLast, List.flatten_singleton, List.take_of_length_le (by omega)]
  | case2 allData hMore ih =>
      rw [dataCut, if_neg hMore, List.flatten_cons, ih, List.take_append_drop]

/-- What `uart_send` writes is a version 3 frame with the CRC byte `FF`. -/
theorem uartSend_eq {binData : List Byte} (hLe : binData.length ≤ 1500) :
    uartSend binData = some (dataCut 25 (by decide) (v3Frame 0xFF binData)) := by
  obtain ⟨hB1, hB2⟩ := fromhex_sizeHex (n := binData.length) (by omega)
  have hStart : fromhex uartPv2StartMq = some uartMagicSequence := by decide
  have hVersion : fromhex uartProtocolVersionV3Hex = some [uartProtocolVersionV3] := by decide
  have hFf : fromhex uartFfData = some [0xFF] := by decide
  have hNot : ¬ binData.length > 1500 := by omega
  simp only [uartSend, hNot, if_false, hStart, hVersion, hB2, hB1, hFf]
  simp [v3Frame, v3Header]

theorem mapM_uartSend {packets : List (List Byte)}
    (hLengths : ∀ binData ∈ packets, binData.length ≤ 1500) :
    packets.mapM uartSend =
      some (packets.map fun binData => dataCut 25 (by decide) (v3Frame 0xFF binData)) := by
  induction packets with
  | nil => rfl
  | cons binData packets ih =>
      rw [List.forall_mem_cons] at hLengths
      simp [List.mapM_cons, uartSend_eq hLengths.1, ih hLengths.2]

/-- **Framing round trip.** A packet written by `uart_send` is passed on once by
an idle receiver, with the bytes and the length the router had; packets written
back to back are passed on in the same order, and the receiver ends idle. -/
theorem uart_round_trip (s : UartReceiver) (hs : s.Idle) (packets : List (List Byte))
    (hLengths : ∀ binData ∈ packets, 0 < binData.length ∧ binData.length ≤ 1500) :
    (∀ binData ∈ packets, ∃ segments packet, uartSend binData = some segments ∧
      receiver.emitted s segments.flatten = [packet] ∧
      packet.uartDataLength = binData.length ∧
      (∀ i (h : i < binData.length), packet.uartData i = binData[i]) ∧
      (receiver.after s segments.flatten).Idle) ∧
    ∃ written, packets.mapM uartSend = some written ∧
      (receiver.emitted s written.flatten.flatten).map UartPacket.bytes = packets ∧
      (receiver.after s written.flatten.flatten).Idle := by
  constructor
  · intro binData hMem
    obtain ⟨hPos, hLe⟩ := hLengths binData hMem
    obtain ⟨hEmitted, hIdle, -⟩ := receive_frame hs 0xFF binData hPos hLe
    refine ⟨_, packetOf s.uartData binData, uartSend_eq hLe, ?_, rfl, ?_, ?_⟩
    · rwa [dataCut_flatten]
    · exact fun i h => overlay_lt h
    · rwa [dataCut_flatten]
  · obtain ⟨hPackets, hIdle⟩ := receiver.observed_flatMap Idle UartPacket.bytes
      (v3Frame 0xFF) (fun binData => [binData]) packets (fun binData hMem t ht => by
        obtain ⟨hPos, hLe⟩ := hLengths binData hMem
        obtain ⟨hEmitted, hLast, -⟩ := receive_frame ht 0xFF binData hPos hLe
        exact ⟨by simp [hEmitted], hLast⟩) s hs
    have hStream : (packets.map fun binData =>
        dataCut 25 (by decide) (v3Frame 0xFF binData)).flatten.flatten =
          packets.flatMap (v3Frame 0xFF) := by
      rw [List.flatten_flatten, List.map_map, List.flatMap_def]
      simp only [Function.comp_def, dataCut_flatten]
    refine ⟨_, mapM_uartSend fun binData hMem => (hLengths binData hMem).2, ?_, ?_⟩
    · rw [hStream, hPackets, List.flatMap_singleton']
    · rwa [hStream]

/-- Two packets from reset, the first of which begins like a magic sequence. -/
theorem uart_round_trip_two : ∃ written,
    [[0x01, 0x16, 0x16], [0xFF]].mapM uartSend = some written ∧
      (receiver.emitted reset written.flatten.flatten).map UartPacket.bytes =
        [[0x01, 0x16, 0x16], [0xFF]] ∧
      (receiver.after reset written.flatten.flatten).Idle :=
  (uart_round_trip reset idle_reset [[0x01, 0x16, 0x16], [0xFF]] (by decide)).2

end Smarthome.Router
