import Smarthome.Uip.UdpInput
import Smarthome.Semantics.OnesComplement
import Mathlib.Algebra.BigOperators.Intervals

/-! `uip6.c`: what the checksum of a UDP datagram says about its addresses, ports and payload. -/
namespace Smarthome.Uip

open Semantics

/-- The words that `chksum` adds; a byte that is left over is the high one of a word. -/
def words16 : List Byte → List Nat
  | high :: low :: rest => (high.toNat * 256 + low.toNat) :: words16 rest
  | [last] => [last.toNat * 256]
  | [] => []

theorem words16_lt (bytes : List Byte) : ∀ t ∈ words16 bytes, t < 65536 := by
  induction bytes using words16.induct with
  | case1 high low rest ih =>
      have hHigh := high.toNat_lt
      have hLow := low.toNat_lt
      exact List.forall_mem_cons.mpr ⟨by omega, ih⟩
  | case2 last =>
      have hLast := last.toNat_lt
      exact List.forall_mem_singleton.mpr (by omega)
  | case3 => exact fun _ h => absurd h List.not_mem_nil

theorem chksum_eq_total (sum : Nat) (bytes : List Byte) :
    chksum sum bytes = OnesComplement.total 65536 sum (words16 bytes) := by
  induction sum, bytes using chksum.induct with
  | case1 sum high low rest ih =>
      rw [chksum, ih]
      rfl
  | case2 sum last => rfl
  | case3 sum => rfl

/-- What a byte at this place counts in a sum of words. -/
def weight (i : Nat) : Nat := if i % 2 = 0 then 256 else 1

@[simp] theorem weight_zero : weight 0 = 256 := rfl

@[simp] theorem weight_one : weight 1 = 1 := rfl

theorem weight_add_two (i : Nat) : weight (i + 2) = weight i := by
  unfold weight
  rw [Nat.add_mod_right]

theorem words16_sum (f : Nat → Byte) (n : Nat) :
    (words16 ((List.range n).map f)).sum = ∑ i ∈ Finset.range n, weight i * (f i).toNat := by
  induction n using Nat.twoStepInduction generalizing f with
  | zero => rfl
  | one =>
      rw [Finset.sum_range_one, weight_zero]
      show (f 0).toNat * 256 + 0 = 256 * (f 0).toNat
      omega
  | more n ih =>
      have hRange : (List.range (n + 2)).map f =
          f 0 :: f 1 :: (List.range n).map fun i => f (i + 2) := by
        rw [List.range_succ_eq_map, List.range_succ_eq_map]
        simp only [List.map_cons, List.map_map]
        rfl
      rw [hRange, words16, List.sum_cons, ih, Finset.sum_range_succ', Finset.sum_range_succ']
      simp only [Nat.zero_add, Nat.add_assoc, Nat.reduceAdd, weight_add_two, weight_zero, weight_one]
      omega

/-- `upper_layer_len`. -/
def upperLayerLen (p : Packet) : Nat := (declaredLen p.buf + 65536 - p.uipExtLen) % 65536

/-- The bytes of a datagram that are under the checksum: the addresses, then the headers and the
payload of the upper layer. -/
def covered (p : Packet) (i : Nat) : Byte :=
  if i < 32 then p.buf (8 + i) else p.buf (uipIphLen + p.uipExtLen + (i - 32))

/-- What the checksum is of. -/
def coveredSum (p : Packet) : Nat :=
  upperLayerLen p + uipProtoUdp.toNat +
    ∑ i ∈ Finset.range (32 + upperLayerLen p), weight i * (covered p i).toNat

theorem weight_add_thirtyTwo (i : Nat) : weight (32 + i) = weight i := by
  unfold weight
  congr 1
  exact propext ⟨fun h => by omega, fun h => by omega⟩

theorem coveredSum_eq (p : Packet) :
    coveredSum p = upperLayerLen p + uipProtoUdp.toNat +
      (words16 ((List.range 32).map fun i => p.buf (8 + i))).sum +
      (words16 ((List.range (upperLayerLen p)).map fun i =>
        p.buf (uipIphLen + p.uipExtLen + i))).sum := by
  have hAddresses : ∑ i ∈ Finset.range 32, weight i * (covered p i).toNat =
      ∑ i ∈ Finset.range 32, weight i * (p.buf (8 + i)).toNat := by
    refine Finset.sum_congr rfl fun i hi => ?_
    rw [covered, if_pos (Finset.mem_range.mp hi)]
  have hUpper (i : Nat) : weight (32 + i) * (covered p (32 + i)).toNat =
      weight i * (p.buf (uipIphLen + p.uipExtLen + i)).toNat := by
    rw [weight_add_thirtyTwo, covered, if_neg (by omega), Nat.add_sub_cancel_left]
  rw [coveredSum, Finset.sum_range_add, hAddresses, words16_sum, words16_sum]
  simp only [hUpper, Nat.add_assoc]

theorem upperLayerChksum_eq_total {p : Packet} (hLen : upperLayerLen p < 65519) :
    upperLayerChksum p uipProtoUdp = OnesComplement.total 65536
      (OnesComplement.total 65536 (upperLayerLen p + uipProtoUdp.toNat)
        (words16 ((List.range 32).map fun i => p.buf (8 + i))))
      (words16 ((List.range (upperLayerLen p)).map fun i =>
        p.buf (uipIphLen + p.uipExtLen + i))) := by
  have hProto : uipProtoUdp.toNat = 17 := rfl
  have hFirst : (upperLayerLen p + uipProtoUdp.toNat) % 65536 =
      upperLayerLen p + uipProtoUdp.toNat := Nat.mod_eq_of_lt (by omega)
  rw [← chksum_eq_total, ← chksum_eq_total, ← hFirst]
  rfl

/-- The sum is the one's complement sum of what is covered, modulo 65535. -/
theorem upperLayerChksum_modEq {p : Packet} (hLen : upperLayerLen p < 65519) :
    upperLayerChksum p uipProtoUdp ≡ coveredSum p [MOD 65535] := by
  have hProto : uipProtoUdp.toNat = 17 := rfl
  have hFirst : upperLayerLen p + uipProtoUdp.toNat < 65536 := by omega
  have hAddresses := OnesComplement.total_modEq hFirst
    (words16_lt ((List.range 32).map fun i => p.buf (8 + i)))
  have hLt := OnesComplement.total_lt hFirst
    (words16_lt ((List.range 32).map fun i => p.buf (8 + i)))
  rw [upperLayerChksum_eq_total hLen, coveredSum_eq]
  exact (OnesComplement.total_modEq hLt (words16_lt _)).trans (hAddresses.add_right _)

theorem upperLayerChksum_lt {p : Packet} (hLen : upperLayerLen p < 65519) :
    upperLayerChksum p uipProtoUdp < 65536 := by
  have hProto : uipProtoUdp.toNat = 17 := rfl
  rw [upperLayerChksum_eq_total hLen]
  exact OnesComplement.total_lt (OnesComplement.total_lt (by omega) (words16_lt _)) (words16_lt _)

/-- The checksum is correct if and only if what is covered adds up to zero modulo 65535. -/
theorem chksumCorrect_iff {p : Packet} (hLen : upperLayerLen p < 65519) :
    ChksumCorrect p ↔ 65535 ∣ coveredSum p := by
  have hLt := upperLayerChksum_lt hLen
  rw [← (upperLayerChksum_modEq hLen).dvd_iff dvd_rfl, ChksumCorrect]
  omega

/-- Two pairs of bytes that a one's complement sum does not tell apart. -/
def Alike (x y : Byte × Byte) : Prop :=
  x = y ∨ x = (0x00, 0x00) ∧ y = (0xFF, 0xFF) ∨ x = (0xFF, 0xFF) ∧ y = (0x00, 0x00)

instance (x y : Byte × Byte) : Decidable (Alike x y) := inferInstanceAs (Decidable (_ ∨ _ ∨ _))

section Change

variable {f g : Nat → Byte} {k n : Nat}

/-- A sum, with two adjacent places apart from the others. -/
theorem sum_split (f : Nat → Byte) (hk : k + 1 < n) :
    ∑ i ∈ Finset.range n, weight i * (f i).toNat =
      weight k * (f k).toNat + weight (k + 1) * (f (k + 1)).toNat +
        ∑ i ∈ ((Finset.range n).erase k).erase (k + 1), weight i * (f i).toNat := by
  have hFirst : k ∈ Finset.range n := Finset.mem_range.mpr (by omega)
  have hSecond : k + 1 ∈ (Finset.range n).erase k :=
    Finset.mem_erase.mpr ⟨by omega, Finset.mem_range.mpr hk⟩
  rw [Nat.add_assoc, Finset.add_sum_erase _ (fun i => weight i * (f i).toNat) hSecond,
    Finset.add_sum_erase _ (fun i => weight i * (f i).toNat) hFirst]

/-- Of two adjacent bytes, one is the high one of a word and the other a low one. -/
theorem weight_pair (k : Nat) :
    weight k = 256 ∧ weight (k + 1) = 1 ∨ weight k = 1 ∧ weight (k + 1) = 256 := by
  unfold weight
  split_ifs
  · omega
  · exact Or.inl ⟨rfl, rfl⟩
  · exact Or.inr ⟨rfl, rfl⟩
  · omega

theorem eq_or_of_dvd {a b c d rest : Nat} (ha : a < 256) (hb : b < 256) (hc : c < 256)
    (hd : d < 256) (h : 65535 ∣ 256 * a + b + rest) (h' : 65535 ∣ 256 * c + d + rest) :
    a = c ∧ b = d ∨ (a = 0 ∧ b = 0) ∧ c = 255 ∧ d = 255 ∨ (a = 255 ∧ b = 255) ∧ c = 0 ∧ d = 0 := by
  obtain ⟨m, hm⟩ := h
  obtain ⟨n, hn⟩ := h'
  rcases Nat.lt_trichotomy m n with hLess | rfl | hMore
  · have hNext : n = m + 1 := by omega
    omega
  · omega
  · have hNext : m = n + 1 := by omega
    omega

/-- Two bytes change the sum modulo 65535 unless they are alike. -/
theorem alike_of_sum_eq {rest : Nat} {x y : Byte × Byte}
    (hx : 65535 ∣ weight k * x.1.toNat + weight (k + 1) * x.2.toNat + rest)
    (hy : 65535 ∣ weight k * y.1.toNat + weight (k + 1) * y.2.toNat + rest) : Alike x y := by
  obtain ⟨x1, x2⟩ := x
  obtain ⟨y1, y2⟩ := y
  dsimp only at hx hy
  have hx1 := x1.toNat_lt
  have hx2 := x2.toNat_lt
  have hy1 := y1.toNat_lt
  have hy2 := y2.toNat_lt
  simp only [Alike, Prod.mk.injEq, ← UInt8.toNat_inj, UInt8.toNat_ofNat, Nat.reducePow,
    Nat.reduceMod]
  rcases weight_pair k with ⟨hHigh, hLow⟩ | ⟨hLow, hHigh⟩
  · rw [hHigh, hLow, Nat.one_mul] at hx hy
    exact eq_or_of_dvd hx1 hx2 hy1 hy2 hx hy
  · rw [hHigh, hLow, Nat.one_mul, Nat.add_comm x1.toNat] at hx
    rw [hHigh, hLow, Nat.one_mul, Nat.add_comm y1.toNat] at hy
    have hBoth := eq_or_of_dvd hx2 hx1 hy2 hy1 hx hy
    omega

theorem alike_of_dvd {c : Nat} (hk : k + 1 < n)
    (hOther : ∀ i < n, i ≠ k → i ≠ k + 1 → g i = f i)
    (hf : 65535 ∣ c + ∑ i ∈ Finset.range n, weight i * (f i).toNat)
    (hg : 65535 ∣ c + ∑ i ∈ Finset.range n, weight i * (g i).toNat) :
    Alike (f k, f (k + 1)) (g k, g (k + 1)) := by
  have hRest : ∑ i ∈ ((Finset.range n).erase k).erase (k + 1), weight i * (g i).toNat =
      ∑ i ∈ ((Finset.range n).erase k).erase (k + 1), weight i * (f i).toNat := by
    refine Finset.sum_congr rfl fun i hi => ?_
    rw [Finset.mem_erase, Finset.mem_erase, Finset.mem_range] at hi
    rw [hOther i hi.2.2 hi.2.1 hi.1]
  rw [sum_split f hk, Nat.add_left_comm] at hf
  rw [sum_split g hk, Nat.add_left_comm, hRest] at hg
  exact alike_of_sum_eq hf hg

end Change

section Received

/-- `UIP_BUFSIZE`. -/
abbrev uipBufsize : Nat := 900

/-- A packet fits into `uip_buf`, has the length that it declares, and room in it for its
headers. -/
structure WellSized (p : Packet) : Prop where
  uipLen : p.uipLen = uipIphLen + declaredLen p.buf
  size : p.uipLen ≤ uipBufsize
  headers : p.uipExtLen + 8 ≤ declaredLen p.buf

variable {p q d : Packet}

theorem WellSized.upperLayerLen_eq (h : WellSized p) :
    upperLayerLen p = declaredLen p.buf - p.uipExtLen := by
  obtain ⟨hLen, hSize, hHeaders⟩ := h
  simp only [uipIphLen, uipBufsize] at hLen hSize
  unfold upperLayerLen
  omega

/-- The headers in between are cut out. -/
theorem WellSized.removeExtHdr_eq (h : WellSized p) (hExt : 0 < p.uipExtLen) :
    removeExtHdr p = p.cut.setLen := by
  have hRoom : ¬ p.uipLen < uipIphLen + p.uipExtLen := by
    have hHeaders := h.headers
    rw [h.uipLen]
    omega
  rw [removeExtHdr, if_pos hExt, if_neg hRoom]

theorem removeExtHdr_of_no_ext (hExt : p.uipExtLen = 0) : removeExtHdr p = p := by
  rw [removeExtHdr, if_neg (by omega)]

theorem WellSized.uipLen_removeExtHdr (h : WellSized p) :
    (removeExtHdr p).uipLen = p.uipLen - p.uipExtLen := by
  rcases Nat.eq_zero_or_pos p.uipExtLen with hExt | hExt
  · rw [removeExtHdr_of_no_ext hExt, hExt, Nat.sub_zero]
  · rw [h.removeExtHdr_eq hExt]
    rfl

theorem WellSized.uipExtLen_removeExtHdr (h : WellSized p) : (removeExtHdr p).uipExtLen = 0 := by
  rcases Nat.eq_zero_or_pos p.uipExtLen with hExt | hExt
  · rw [removeExtHdr_of_no_ext hExt, hExt]
  · rw [h.removeExtHdr_eq hExt]
    rfl

theorem WellSized.declaredLen_removeExtHdr (h : WellSized p) :
    declaredLen (removeExtHdr p).buf = declaredLen p.buf - p.uipExtLen := by
  rcases Nat.eq_zero_or_pos p.uipExtLen with hExt | hExt
  · rw [removeExtHdr_of_no_ext hExt, hExt, Nat.sub_zero]
  · have hLen : p.cut.uipLen - uipIphLen = declaredLen p.buf - p.uipExtLen := by
      show p.uipLen - p.uipExtLen - uipIphLen = _
      rw [h.uipLen]
      omega
    have hSmall : declaredLen p.buf ≤ 860 := by
      have hSize := h.size
      simp only [h.uipLen, uipIphLen, uipBufsize] at hSize
      omega
    rw [h.removeExtHdr_eq hExt, declaredLen, Packet.setLen]
    dsimp only
    rw [Function.update_self, Function.update_of_ne (by decide), Function.update_self, hLen,
      UInt8.toNat_ofNat', UInt8.toNat_ofNat']
    omega

theorem WellSized.upperLayerLen_removeExtHdr (h : WellSized p) :
    upperLayerLen (removeExtHdr p) = upperLayerLen p := by
  have hLen := h.upperLayerLen_eq
  have hSize := h.size
  have hUipLen := h.uipLen
  simp only [uipIphLen, uipBufsize] at hUipLen hSize
  rw [upperLayerLen, h.declaredLen_removeExtHdr, h.uipExtLen_removeExtHdr, hLen]
  omega

/-- What is under the checksum stays as it was. -/
theorem WellSized.covered_removeExtHdr (h : WellSized p) {i : Nat}
    (hi : i < 32 + upperLayerLen p) : covered (removeExtHdr p) i = covered p i := by
  rcases Nat.eq_zero_or_pos p.uipExtLen with hExt | hExt
  · rw [removeExtHdr_of_no_ext hExt]
  · rw [h.upperLayerLen_eq] at hi
    have hBuf {j : Nat} (hj : 6 < j) :
        p.cut.setLen.buf j = p.buf (movedFrom p.uipLen p.uipExtLen j) := by
      rw [Packet.setLen]
      dsimp only
      rw [Function.update_of_ne (by omega), Function.update_of_ne (by omega)]
      rfl
    have hNoExt : p.cut.setLen.uipExtLen = 0 := rfl
    rw [h.removeExtHdr_eq hExt, covered, covered, hNoExt, hBuf (by omega),
      hBuf (by simp only [uipIphLen]; omega)]
    have hUipLen := h.uipLen
    simp only [uipIphLen] at hUipLen ⊢
    split_ifs with hAddress
    · rw [movedFrom, if_neg (by simp only [uipIphLen]; omega)]
    · rw [movedFrom, if_pos (by simp only [uipIphLen]; omega)]
      congr 1
      omega

/-- What `udp_input` looks at. -/
def udpFound (p : Packet) : Packet :=
  { removeExtHdr p with buf := Function.update (removeExtHdr p).buf 6 uipProtoUdp }

theorem covered_udpFound {i : Nat} : covered (udpFound p) i = covered (removeExtHdr p) i := by
  unfold covered udpFound
  dsimp only
  rw [Function.update_of_ne (by omega), Function.update_of_ne (by simp only [uipIphLen]; omega)]

theorem upperLayerLen_udpFound : upperLayerLen (udpFound p) = upperLayerLen (removeExtHdr p) := by
  unfold upperLayerLen declaredLen udpFound
  dsimp only
  rw [Function.update_of_ne (by decide), Function.update_of_ne (by decide)]

theorem WellSized.coveredSum_udpFound (h : WellSized p) : coveredSum (udpFound p) = coveredSum p := by
  unfold coveredSum
  rw [upperLayerLen_udpFound, h.upperLayerLen_removeExtHdr]
  congr 1
  refine Finset.sum_congr rfl fun i hi => ?_
  rw [covered_udpFound, h.covered_removeExtHdr (Finset.mem_range.mp hi)]

/-- The field of the datagram that holds the checksum. -/
def udpchksum (p : Packet) : Nat := u16 (covered p 38) (covered p 39)

theorem WellSized.udpchksum_udpFound (h : WellSized p) :
    u16 ((udpFound p).buf 46) ((udpFound p).buf 47) = udpchksum p := by
  have hRoom : 8 ≤ upperLayerLen p := by
    rw [h.upperLayerLen_eq]
    have hHeaders := h.headers
    omega
  have hPlace (i : Nat) (hi : i < 8) : (udpFound p).buf (40 + i) = covered p (32 + i) := by
    rw [← h.covered_removeExtHdr (i := 32 + i) (by omega), ← covered_udpFound, covered,
      if_neg (by omega)]
    have hExt : (udpFound p).uipExtLen = 0 := h.uipExtLen_removeExtHdr
    rw [hExt, Nat.add_zero, Nat.add_sub_cancel_left]
  rw [udpchksum, ← hPlace 6 (by omega), ← hPlace 7 (by omega)]

/-- `udp_input` takes a datagram with a checksum only if the sum over it is zero. -/
theorem WellSized.dvd_coveredSum {conns : List UipUdpConn} (h : WellSized p)
    (hInput : udpInput conns p = some d) (hChecked : udpchksum p ≠ 0) : 65535 ∣ coveredSum p := by
  have hCorrect : ChksumCorrect (udpFound p) := by
    by_contra hWrong
    rw [← h.udpchksum_udpFound] at hChecked
    rw [udpInput, if_pos ⟨hChecked, hWrong⟩] at hInput
    cases hInput
  have hLen : upperLayerLen (udpFound p) < 65519 := by
    have hSize := h.size
    rw [h.uipLen] at hSize
    simp only [uipIphLen, uipBufsize] at hSize
    rw [upperLayerLen_udpFound, h.upperLayerLen_removeExtHdr, h.upperLayerLen_eq]
    omega
  rw [← h.coveredSum_udpFound]
  exact (chksumCorrect_iff hLen).mp hCorrect

end Received

/-- Two bytes of payload, with a checksum. -/
def checkedPacket (last : Byte) : Packet :=
  ⟨50, 0, udpBuf 10 [0x0F, 0xA3, 0x0F, 0xA3, 0, 10, 0xDF, 0x92, 1, last], id⟩

theorem wellSized_checkedPacket (last : Byte) : WellSized (checkedPacket last) := by
  have hLen : declaredLen (checkedPacket last).buf = 10 := by
    simp [declaredLen, checkedPacket, udpBuf]
  constructor
  · rw [hLen]
    rfl
  · show 50 ≤ 900
    decide
  · rw [hLen]
    show 0 + 8 ≤ 10
    decide

end Smarthome.Uip
