import Smarthome.Router.Packet

/-! The raw packets that the coordinator prints: their text fits the pattern of
`packet_parse`, and the fields of the table are the bytes of the packet. -/
namespace Smarthome.Router

open Semantics LuaPattern Coordinator

/-- What `dag_root_raw_print` is called with; it prints no other lengths. -/
structure RawPacket where
  addr : Ipv6Address
  data : List Byte
  length_data : data.length = 10 ∨ data.length = 23

namespace RawPacket

/-- The line that is printed. -/
def line (packet : RawPacket) : Text := rawText packet.addr packet.data

/-- The part of the line up to `RAWEND`, which is what `packet_parse` is given. -/
def text (packet : RawPacket) : Text := packet.line.take 95

/-- The data with the bytes that are printed in place of missing ones. -/
def filled (packet : RawPacket) : List Byte :=
  packet.data ++ List.replicate (23 - packet.data.length) 0xFF

theorem length_filled (packet : RawPacket) : packet.filled.length = 23 := by
  rw [filled, List.length_append, List.length_replicate]
  obtain h | h := packet.length_data
  · rw [h]
  · rw [h]

end RawPacket

@[simp] theorem length_hex02 (b : Byte) : (hex02 b).length = 2 := rfl

@[simp] theorem length_upperHex02 (b : Byte) : (upperHex02 b).length = 2 := rfl

/-- The two digits of a byte. -/
theorem digits_lt (b : Byte) : b.toNat / 16 < 16 ∧ b.toNat % 16 < 16 := by
  have hByte := b.toNat_lt
  omega

/-- What holds of the sixteen digits holds of both digits of every byte. -/
theorem forall_mem_hex02 {P : Char → Prop} (h : ∀ d : Fin 16, P d.val.digitChar) (b : Byte) :
    ∀ c ∈ hex02 b, P c := by
  obtain ⟨hHigh, hLow⟩ := digits_lt b
  intro c hc
  rw [hex02, List.mem_cons, List.mem_singleton] at hc
  rcases hc with rfl | rfl
  · exact h ⟨_, hHigh⟩
  · exact h ⟨_, hLow⟩

theorem forall_mem_upperHex02 {P : Char → Prop} (h : ∀ d : Fin 16, P d.val.digitChar.toUpper)
    (b : Byte) : ∀ c ∈ upperHex02 b, P c := by
  intro c hc
  obtain ⟨d, hd, rfl⟩ := List.mem_map.mp hc
  exact forall_mem_hex02 (P := fun digit => P digit.toUpper) h b d hd

/-- What holds of the digits of each byte holds in the text of all of them. -/
theorem forall_mem_flatMap {f : Byte → Text} {P : Char → Prop} (h : ∀ b, ∀ c ∈ f b, P c)
    (bytes : List Byte) : ∀ c ∈ bytes.flatMap f, P c := by
  intro c hc
  obtain ⟨b, -, hb⟩ := List.mem_flatMap.mp hc
  exact h b c hb

theorem accepts_hex02 : ∀ b : Byte, ∀ c ∈ hex02 b, CharClass.alnum.accepts c = true :=
  forall_mem_hex02 (by decide)

theorem accepts_upperHex02 :
    ∀ b : Byte, ∀ c ∈ upperHex02 b, CharClass.alnum.accepts c = true :=
  forall_mem_upperHex02 (by decide)

theorem upperHex02_injective : Function.Injective upperHex02 := by
  intro b b' h
  obtain ⟨hHigh, hLow⟩ := digits_lt b
  obtain ⟨hHigh', hLow'⟩ := digits_lt b'
  have hDigits : ∀ d d' : Fin 16, d.val.digitChar.toUpper = d'.val.digitChar.toUpper →
      d = d' := by decide
  simp only [upperHex02, hex02, List.map_cons, List.map_nil, List.cons.injEq, and_true] at h
  have hFirst := congrArg Fin.val (hDigits ⟨_, hHigh⟩ ⟨_, hHigh'⟩ h.1)
  have hSecond := congrArg Fin.val (hDigits ⟨_, hLow⟩ ⟨_, hLow'⟩ h.2)
  dsimp only at hFirst hSecond
  apply UInt8.toNat_inj.mp
  omega

/-- The value of two digits that were printed. -/
theorem hexDigit_toUpper {d : Nat} (h : d < 16) : hexDigit d.digitChar.toUpper = some d := by
  have hAll : ∀ i : Fin 16, hexDigit i.val.digitChar.toUpper = some i.val := by decide
  exact hAll ⟨d, h⟩

/-- Printed bytes are read back, high byte first. -/
theorem hex2Dec_flatMap (bytes : List Byte) : hex2Dec (bytes.flatMap upperHex02) =
    .ok (bytes.foldl (fun value b => 256 * value + b.toNat) 0) := by
  have hDigits : (bytes.flatMap upperHex02).mapM hexDigit =
      some (bytes.flatMap fun b => [b.toNat / 16, b.toNat % 16]) := by
    induction bytes with
    | nil => rfl
    | cons b bytes ih =>
        obtain ⟨hHigh, hLow⟩ := digits_lt b
        simp [upperHex02, hex02, hexDigit_toUpper hHigh, hexDigit_toUpper hLow] at ih ⊢
        simp [ih]
  have hValue (start : Nat) : (bytes.flatMap fun b => [b.toNat / 16, b.toNat % 16]).foldl
      (fun value digit => 16 * value + digit) start =
        bytes.foldl (fun value b => 256 * value + b.toNat) start := by
    clear hDigits
    induction bytes generalizing start with
    | nil => rfl
    | cons b bytes ih =>
        have hByte : 16 * (16 * start + b.toNat / 16) + b.toNat % 16 = 256 * start + b.toNat := by
          omega
        rw [List.flatMap_cons, List.foldl_append, List.foldl_cons, List.foldl_cons, List.foldl_nil,
          hByte, ih, List.foldl_cons]
  rw [hex2Dec, hDigits]
  exact congrArg Except.ok (hValue 0)

/-- A way of printing a byte as two digits that the router reads. -/
def Prints (f : Byte → Text) : Prop :=
  ∀ b, ∃ high low, f b = [high, low] ∧ (high ≠ ' ' ∧ low ≠ ' ') ∧
    hexDigit high = some (b.toNat / 16) ∧ hexDigit low = some (b.toNat % 16)

theorem prints_hex02 : Prints hex02 := by
  intro b
  obtain ⟨hHigh, hLow⟩ := digits_lt b
  exact ⟨_, _, rfl, ⟨digitChar_ne_blank hHigh, digitChar_ne_blank hLow⟩,
    hexDigit_digitChar hHigh, hexDigit_digitChar hLow⟩

theorem prints_upperHex02 : Prints upperHex02 := by
  intro b
  obtain ⟨hHigh, hLow⟩ := digits_lt b
  have hBlank : ∀ d : Fin 16, d.val.digitChar.toUpper ≠ ' ' := by decide
  exact ⟨_, _, rfl, ⟨hBlank ⟨_, hHigh⟩, hBlank ⟨_, hLow⟩⟩,
    hexDigit_toUpper hHigh, hexDigit_toUpper hLow⟩

/-- Printed bytes are read back as the bytes they were. -/
theorem fromhex_flatMap {f : Byte → Text} (hf : Prints f) (bytes : List Byte) :
    fromhex (bytes.flatMap f) = some bytes := by
  rw [fromhex]
  induction bytes with
  | nil => rfl
  | cons b bytes ih =>
      obtain ⟨high, low, hText, ⟨hFirst, hSecond⟩, hHigh, hLow⟩ := hf b
      have hByte : UInt8.ofNat (16 * (b.toNat / 16) + b.toNat % 16) = b := by
        rw [Nat.div_add_mod, UInt8.ofNat_toNat]
      have hKept : (high :: low :: bytes.flatMap f).filter (· ≠ ' ') =
          high :: low :: (bytes.flatMap f).filter (· ≠ ' ') := by
        simp [hFirst, hSecond]
      rw [List.flatMap_cons, hText, List.cons_append, List.cons_append, List.nil_append, hKept,
        bytePairs, hHigh, hLow, ih]
      exact congrArg (fun first => some (first :: bytes)) hByte

/-- The pairs of a text of pairs. -/
theorem pair_flatMap {f : Byte → Text} (hf : ∀ b, (f b).length = 2) (bytes : List Byte) {i : Nat}
    (hi : i < bytes.length) : pair (bytes.flatMap f) i = f (bytes.getD i 0) := by
  induction bytes generalizing i with
  | nil => exact absurd hi (Nat.not_lt_zero i)
  | cons b bytes ih =>
      cases i with
      | zero =>
          rw [pair, List.flatMap_cons, Nat.mul_zero, List.drop_zero, List.take_left' (hf b)]
          rfl
      | succ i =>
          have hi' : i < bytes.length := Nat.lt_of_succ_lt_succ hi
          have hDrop : (f b ++ bytes.flatMap f).drop (2 * (i + 1)) =
              (bytes.flatMap f).drop (2 * i) := by
            have hTwo : 2 * (i + 1) = (f b).length + 2 * i := by
              rw [hf]
              omega
            rw [hTwo, List.drop_length_add_append]
          rw [pair, List.flatMap_cons, hDrop, ← pair, ih hi', List.getD_cons_succ]

/-- The pairs of a text are the text. -/
theorem flatMap_pair (n : Nat) {text : Text} (h : text.length = 2 * n) :
    (List.range n).flatMap (pair text) = text := by
  induction n generalizing text with
  | zero => exact (List.length_eq_zero_iff.mp h).symm
  | succ n ih =>
      have hRest : (text.drop 2).length = 2 * n := by
        rw [List.length_drop]
        omega
      have hPair (i : Nat) : pair text (i + 1) = pair (text.drop 2) i := by
        rw [pair, pair, List.drop_drop, Nat.add_comm 2, Nat.mul_succ]
      rw [List.range_succ_eq_map, List.flatMap_cons, List.flatMap_map]
      simp only [hPair, ih hRest]
      exact List.take_append_drop 2 text

theorem length_flatMap {f : Byte → Text} (hf : ∀ b, (f b).length = 2) (bytes : List Byte) :
    (bytes.flatMap f).length = 2 * bytes.length := by
  rw [List.length_flatMap]
  simp only [hf, List.map_const', List.sum_replicate_nat, Nat.mul_comm]

/-- An address of sixteen pairs has the form that `ipv6_adress_parse` looks for. -/
theorem fits_ipv6Adress {a : Nat → Text}
    (hFits : ∀ i < 16, Fits (List.replicate 2 .alnum) (a i)) :
    Fits adressPattern (ipv6Adress a) := by
  have hGroup (i : Nat) (hi : i + 1 < 16) : Fits (List.replicate 4 .alnum) (a i ++ a (i + 1)) :=
    (hFits i (Nat.lt_of_succ_lt hi)).append (hFits (i + 1) hi)
  have hNext (i : Nat) (hi : i + 1 < 16) :
      Fits (.char ':' :: List.replicate 4 .alnum) ([':'] ++ (a i ++ a (i + 1))) :=
    (fits_chars [':']).append (hGroup i hi)
  have hText : ipv6Adress a = (a 0 ++ a 1) ++ ([':'] ++ (a 2 ++ a 3)) ++
      ([':'] ++ (a 4 ++ a 5)) ++ ([':'] ++ (a 6 ++ a 7)) ++ ([':'] ++ (a 8 ++ a 9)) ++
      ([':'] ++ (a 10 ++ a 11)) ++ ([':'] ++ (a 12 ++ a 13)) ++ ([':'] ++ (a 14 ++ a 15)) := by
    unfold ipv6Adress
    simp only [List.append_assoc]
  rw [hText]
  exact (((((((hGroup 0 (by decide)).append (hNext 2 (by decide))).append
    (hNext 4 (by decide))).append (hNext 6 (by decide))).append (hNext 8 (by decide))).append
    (hNext 10 (by decide))).append (hNext 12 (by decide))).append (hNext 14 (by decide))

theorem ipv6AdressParse_ipv6Adress {a : Nat → Text}
    (hFits : ∀ i < 16, Fits (List.replicate 2 .alnum) (a i))
    (hColon : ∀ i < 16, ∀ c ∈ a i, c ≠ ':') :
    ipv6AdressParse (ipv6Adress a) = some ((List.range 16).flatMap a) := by
  have hKept (i : Nat) (hi : i < 16) : (a i).filter (· ≠ ':') = a i := by
    rw [List.filter_eq_self]
    exact fun c hc => decide_eq_true (hColon i hi c hc)
  have hRange : List.range 16 = [0, 1, 2, 3, 4, 5, 6, 7, 8, 9, 10, 11, 12, 13, 14, 15] := rfl
  rw [ipv6AdressParse, find_of_matchAt (matchAt_of_fits (fits_ipv6Adress hFits)), Option.map_some]
  apply congrArg some
  have hGone : [':'].filter (· ≠ ':') = [] := rfl
  unfold ipv6Adress
  simp (disch := decide) only [List.filter_append, hKept, hGone, hRange, List.flatMap_cons,
    List.flatMap_nil, List.append_nil, List.nil_append, List.append_assoc]

namespace RawPacket

/-- The two captures: the address and the data as text. -/
def captures (packet : RawPacket) : Text :=
  packet.addr.toList.flatMap hex02 ++ packet.filled.flatMap upperHex02

theorem length_addr (packet : RawPacket) : (packet.addr.toList.flatMap hex02).length = 32 := by
  rw [length_flatMap length_hex02, Vector.length_toList]

theorem length_captures (packet : RawPacket) : packet.captures.length = 78 := by
  rw [captures, List.length_append, length_addr, length_flatMap length_upperHex02, length_filled]

/-- The line of a packet, in the parts that the pattern has. -/
theorem line_eq (packet : RawPacket) : packet.line =
    "DAGROOTRAW1".toList ++ packet.captures ++ "RAWEND".toList ++ "   \n".toList := by
  have hFilled : (List.replicate (23 - packet.data.length) (0xFF : Byte)).flatMap upperHex02 =
      List.replicate (46 - 2 * packet.data.length) 'F' := by
    have hByte : upperHex02 0xFF = List.replicate 2 'F' := by decide
    have hLength : (23 - packet.data.length) * 2 = 46 - 2 * packet.data.length := by omega
    rw [List.flatMap_replicate, hByte, List.flatten_replicate_replicate, hLength]
  have hEnd : "RAWEND   \n".toList = "RAWEND".toList ++ "   \n".toList := by decide
  unfold line rawText captures filled
  simp only [List.flatMap_append, hFilled, hEnd, List.append_assoc]

theorem text_eq (packet : RawPacket) :
    packet.text = "DAGROOTRAW1".toList ++ packet.captures ++ "RAWEND".toList := by
  rw [text, line_eq]
  apply List.take_left'
  rw [List.length_append, List.length_append, length_captures]
  rfl

theorem accepts_captures (packet : RawPacket) :
    ∀ c ∈ packet.captures, CharClass.alnum.accepts c = true := by
  intro c hc
  rw [captures, List.mem_append] at hc
  rcases hc with hc | hc
  · exact forall_mem_flatMap accepts_hex02 _ c hc
  · exact forall_mem_flatMap accepts_upperHex02 _ c hc

theorem find_rawPattern (packet : RawPacket) :
    find (rawPattern.map Item.one) packet.text = some packet.text := by
  apply find_of_matchAt
  apply matchAt_of_fits
  have hCaptures := fits_replicate packet.accepts_captures
  rw [length_captures] at hCaptures
  rw [text_eq]
  exact ((fits_chars _).append hCaptures).append (fits_chars _)

/-- The address as `packet_parse` puts it together. -/
def adress (packet : RawPacket) : Text := ipv6Adress (pair (packet.addr.toList.flatMap hex02))

/-- Each pair of the address is a byte, printed as two digits. -/
theorem pair_adress (packet : RawPacket) {i : Nat} (hi : i < 16) :
    pair (packet.addr.toList.flatMap hex02) i = hex02 (packet.addr.toList.getD i 0) :=
  pair_flatMap length_hex02 _ (by rwa [Vector.length_toList])

/-- The address that has been put together is taken apart again. -/
theorem ipv6AdressParse_adress (packet : RawPacket) :
    ipv6AdressParse packet.adress = some (packet.addr.toList.flatMap hex02) := by
  have hPairs : (List.range 16).flatMap (pair (packet.addr.toList.flatMap hex02)) =
      packet.addr.toList.flatMap hex02 := flatMap_pair 16 packet.length_addr
  rw [adress, ipv6AdressParse_ipv6Adress, hPairs]
  · intro i hi
    rw [packet.pair_adress hi]
    exact fits_replicate (accepts_hex02 _)
  · intro i hi
    rw [packet.pair_adress hi]
    exact forall_mem_hex02 (P := (· ≠ ':')) (by decide) _

/-- The table as `packet_parse` fills it. -/
def table (packet : RawPacket) : PacketData := packetData (packet.filled.flatMap upperHex02)

/-- The first capture is the address. -/
theorem take_adress (packet : RawPacket) :
    (packet.text.drop 11).take 32 = packet.addr.toList.flatMap hex02 := by
  have hStart : packet.text.drop 11 = packet.captures ++ "RAWEND".toList := by
    rw [text_eq, List.append_assoc]
    exact List.drop_left' (by decide)
  rw [hStart, captures, List.append_assoc]
  exact List.take_left' packet.length_addr

/-- The second one is the data, filled up. -/
theorem take_data (packet : RawPacket) :
    (packet.text.drop 43).take 46 = packet.filled.flatMap upperHex02 := by
  have hLength : (packet.filled.flatMap upperHex02).length = 46 := by
    rw [length_flatMap length_upperHex02, length_filled]
  have hBefore : ("DAGROOTRAW1".toList ++ packet.addr.toList.flatMap hex02).length = 43 := by
    rw [List.length_append, packet.length_addr]
    rfl
  have hDrop : packet.text.drop 43 = packet.filled.flatMap upperHex02 ++ "RAWEND".toList := by
    rw [text_eq, captures, ← List.append_assoc, List.append_assoc _ _ "RAWEND".toList]
    exact List.drop_left' hBefore
  rw [hDrop]
  exact List.take_left' hLength

/-- What a packet is processed as. -/
theorem packetParse_text (alt : Bool) (state : RouterState) (packet : RawPacket) :
    packetParse alt state packet.text = if alt = true then
      packetProcessingSeeAdresses state packet.adress packet.table
    else packetProcessing state packet.adress packet.table := by
  rw [packetParse, find_rawPattern]
  dsimp only
  rw [take_adress, take_data]
  rfl

/-- A byte of the packet, which the router counts from one and from the fourth. -/
def byte (packet : RawPacket) (i : Nat) : Byte := packet.filled.getD i 0

theorem table_byte (packet : RawPacket) {i : Nat} (hFirst : 1 ≤ i) (hLast : i ≤ 20) :
    packet.table.byte i = upperHex02 (packet.byte (i + 2)) := by
  have hFilled : i + 2 < packet.filled.length := by
    rw [length_filled]
    omega
  have hIndex : i - 1 + 3 = i + 2 := by omega
  have hShort : i - 1 < 20 := by omega
  rw [PacketData.byte, table, byte, ← pair_flatMap length_upperHex02 _ hFilled, ← hIndex]
  simp [packetData, hShort]

/-- The three bytes in front are named in the table. -/
theorem table_head (packet : RawPacket) :
    packet.table.pVersion = upperHex02 (packet.byte 0) ∧
      packet.table.devVersion = upperHex02 (packet.byte 1) ∧
      packet.table.dType = upperHex02 (packet.byte 2) := by
  have hPair (i : Nat) (hi : i < 23) :
      pair (packet.filled.flatMap upperHex02) i = upperHex02 (packet.byte i) :=
    pair_flatMap length_upperHex02 _ (by rwa [length_filled])
  exact ⟨hPair 0 (by decide), hPair 1 (by decide), hPair 2 (by decide)⟩

end RawPacket

end Smarthome.Router
