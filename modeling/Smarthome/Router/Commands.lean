import Smarthome.Router.RawPackets

/-! The functions of `router.lua` that send a packet to a node. Their arguments are
hexadecimal text; the packet is what `uart_send` writes. -/
namespace Smarthome.Router

open Semantics LuaPattern Coordinator

/-- Two hexadecimal digits, in either case. -/
structure HexByte where
  high : Char
  low : Char
  isHex : (hexDigit high).isSome ∧ (hexDigit low).isSome

namespace HexByte

def text (b : HexByte) : Text := [b.high, b.low]

def value (b : HexByte) : Byte :=
  UInt8.ofNat (16 * (hexDigit b.high).getD 0 + (hexDigit b.low).getD 0)

/-- What is not a digit of a number is in no text of a byte. -/
theorem ne_of_mem_text {b : HexByte} {c other : Char} (hMem : c ∈ b.text)
    (hOther : hexDigit other = none) : c ≠ other := by
  rintro rfl
  rcases List.mem_pair.mp hMem with rfl | rfl
  · exact absurd b.isHex.1 (by simp [hOther])
  · exact absurd b.isHex.2 (by simp [hOther])

theorem bytePairs_append (b : HexByte) (str : Text) :
    bytePairs (b.text ++ str) = (bytePairs str).map fun bytes => b.value :: bytes := by
  obtain ⟨high, hHigh⟩ := Option.isSome_iff_exists.mp b.isHex.1
  obtain ⟨low, hLow⟩ := Option.isSome_iff_exists.mp b.isHex.2
  rw [text, List.cons_append, List.cons_append, List.nil_append, bytePairs, hHigh, hLow, value,
    hHigh, hLow]
  cases bytePairs str with
  | none => rfl
  | some bytes => rfl

/-- Texts of bytes are read back as the bytes. -/
theorem fromhex_flatMap (bytes : List HexByte) :
    fromhex (bytes.flatMap text) = some (bytes.map value) := by
  have hKept : (bytes.flatMap text).filter (· ≠ ' ') = bytes.flatMap text := by
    refine List.filter_eq_self.mpr fun c hc => decide_eq_true ?_
    obtain ⟨b, -, hMem⟩ := List.mem_flatMap.mp hc
    exact ne_of_mem_text hMem (by decide)
  rw [fromhex, hKept]
  clear hKept
  induction bytes with
  | nil => rfl
  | cons b bytes ih => rw [List.flatMap_cons, bytePairs_append, ih, Option.map_some, List.map_cons]

theorem fromhex_text (b : HexByte) : fromhex b.text = some [b.value] := by
  simpa using fromhex_flatMap [b]

/-- The digits are letters or figures. -/
theorem accepts_text (b : HexByte) : ∀ c ∈ b.text, CharClass.alnum.accepts c = true := by
  have hAlnum (c : Char) (hc : (hexDigit c).isSome) : CharClass.alnum.accepts c = true := by
    have hRange : ('0' ≤ c ∧ c ≤ '9') ∨ ('a' ≤ c ∧ c ≤ 'f') ∨ ('A' ≤ c ∧ c ≤ 'F') := by
      unfold hexDigit at hc
      split_ifs at hc with hFigure hLower hUpper
      · exact Or.inl hFigure
      · exact Or.inr (Or.inl hLower)
      · exact Or.inr (Or.inr hUpper)
      · cases hc
    have hLetter : ('f' : Char) ≤ 'z' := by decide
    have hCapital : ('F' : Char) ≤ 'Z' := by decide
    show ((c.isUpper || c.isLower) || c.isDigit) = true
    rcases hRange with ⟨hFirst, hLast⟩ | ⟨hFirst, hLast⟩ | ⟨hFirst, hLast⟩
    · have hDigit : c.isDigit = true :=
        Bool.and_eq_true_iff.mpr ⟨decide_eq_true hFirst, decide_eq_true hLast⟩
      rw [hDigit, Bool.or_true]
    · have hLower : c.isLower = true :=
        Bool.and_eq_true_iff.mpr ⟨decide_eq_true hFirst, decide_eq_true (UInt32.le_trans hLast hLetter)⟩
      rw [hLower, Bool.or_true, Bool.true_or]
    · have hUpper : c.isUpper = true := decide_eq_true ⟨hFirst, UInt32.le_trans hLast hCapital⟩
      rw [hUpper, Bool.true_or, Bool.true_or]
  intro c hc
  rcases List.mem_pair.mp hc with rfl | rfl
  · exact hAlnum _ b.isHex.1
  · exact hAlnum _ b.isHex.2

end HexByte

/-- Eight groups of four hexadecimal digits, with colons between them. -/
structure AdressText where
  pairs : Vector HexByte 16

namespace AdressText

def text (adress : AdressText) : Text :=
  ipv6Adress fun i => (adress.pairs.toList.map HexByte.text).getD i []

/-- The address that the text stands for. -/
def value (adress : AdressText) : Ipv6Address := adress.pairs.map HexByte.value

theorem ipv6AdressParse_text (adress : AdressText) :
    ipv6AdressParse adress.text = some (adress.pairs.toList.flatMap HexByte.text) := by
  have hPair (i : Nat) (hi : i < 16) :
      (adress.pairs.toList.map HexByte.text).getD i [] = (adress.pairs[i]).text := by
    simp [hi]
  rw [text, ipv6AdressParse_ipv6Adress]
  · congr 1
    rw [List.flatMap_def, List.flatMap_def]
    congr 1
    refine List.ext_getElem (by simp) fun i hFirst hSecond => ?_
    have hi : i < 16 := by simpa using hFirst
    rw [List.getElem_map, List.getElem_range, hPair i hi]
    simp
  · intro i hi
    rw [hPair i hi]
    exact fits_replicate (HexByte.accepts_text _)
  · intro i hi c hc
    rw [hPair i hi] at hc
    exact HexByte.ne_of_mem_text hc (by decide)

theorem fromhex_parsed (adress : AdressText) :
    fromhex (adress.pairs.toList.flatMap HexByte.text) = some adress.value.toList := by
  rw [HexByte.fromhex_flatMap, value, Vector.toList_map]

end AdressText

def protocolVersionV1Hex : Text := ['0', '1']
def deviceVersionV1Hex : Text := ['0', '1']
def dataTypeCommandHex : Text := ['0', '5']
def dataTypeUartHex : Text := ['0', 'D']
def dataTypeFirmwareCmdHex : Text := ['0', 'E']
def dataTypeFirmwareCommandNewFwHex : Text := ['0', '1']

/-- A packet is put together from texts and sent. A text that is not hexadecimal ends the
program. -/
def sendTexts (texts : List Text) : Except Stop (List (List Byte)) :=
  match (texts.mapM fromhex).bind fun fields => uartSend fields.flatten with
  | none => .error .luaError
  | some segments => .ok segments

/-- A packet with an address; a text that is no address is `nil`, which has no `fromhex`. -/
def sendToAdress (ipv6Adress : Text) (fields : List Text) : Except Stop (List (List Byte)) :=
  match ipv6AdressParse ipv6Adress with
  | none => .error .luaError
  | some adress => sendTexts (adress :: fields)

/-- `send_command_to_ability`. -/
def sendCommandToAbility (ipv6Adress abilityTarget abilityNumber abilityState : Text) :
    Except Stop (List (List Byte)) :=
  sendToAdress ipv6Adress [protocolVersionV1Hex, deviceVersionV1Hex, dataTypeCommandHex,
    abilityTarget, abilityNumber, abilityState]

/-- `send_uart_data_to_ability`; what is missing of the payload is filled up with ones. -/
def sendUartDataToAbility (ipv6Adress returnedDataLenth dataLenth : Text) (payload : List Text) :
    Except Stop (List (List Byte)) :=
  sendToAdress ipv6Adress ([protocolVersionV1Hex, deviceVersionV1Hex, dataTypeUartHex,
    dataLenth, returnedDataLenth] ++
    (List.range 16).map fun i => payload.getD i uartFfData)

/-- `send_firmware_new_fw_cmd_to_node`. Without an address the packet has none. -/
def sendFirmwareNewFwCmdToNode (ipv6Adress : Text) (tableSegments : List (List Byte)) :
    Except Stop (List (List Byte)) :=
  let adress := (ipv6AdressParse ipv6Adress).getD []
  let chunkQuantityHex := padHex (dec2Hex tableSegments.length)
  sendTexts [adress, protocolVersionV1Hex, deviceVersionV1Hex, dataTypeFirmwareCmdHex,
    dataTypeFirmwareCommandNewFwHex, chunkQuantityHex]

/-- Texts of bytes are sent as one frame. -/
theorem sendTexts_eq {texts : List Text} (fields : List (List Byte))
    (hFields : texts.mapM fromhex = some fields) (hLength : fields.flatten.length ≤ 1500) :
    sendTexts texts = .ok (dataCut 25 (by decide) (v3Frame 0xFF fields.flatten)) := by
  rw [sendTexts, hFields, Option.bind_some, uartSend_eq hLength]

theorem sendToAdress_eq (adress : AdressText) {texts : List Text} (fields : List (List Byte))
    (hFields : texts.mapM fromhex = some fields) (hLength : fields.flatten.length ≤ 1484) :
    sendToAdress adress.text texts =
      .ok (dataCut 25 (by decide) (v3Frame 0xFF (adress.value.toList ++ fields.flatten))) := by
  rw [sendToAdress, adress.ipv6AdressParse_text]
  refine sendTexts_eq (adress.value.toList :: fields) ?_ ?_
  · rw [List.mapM_cons, adress.fromhex_parsed, hFields]
    rfl
  · rw [List.flatten_cons, List.length_append, Vector.length_toList]
    omega

/-- Texts of bytes are read one by one. -/
theorem mapM_fromhex (bytes : List HexByte) :
    (bytes.map HexByte.text).mapM fromhex = some (bytes.map fun b => [b.value]) := by
  induction bytes with
  | nil => rfl
  | cons b bytes ih => rw [List.map_cons, List.mapM_cons, b.fromhex_text, ih, List.map_cons]; rfl

end Smarthome.Router
