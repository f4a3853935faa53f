import Smarthome.Uip.Forwarding

/-! What `udp_send` makes is what `udp_input` finds: the checksum of a datagram is correct when it
is sent, and it is one of the contents alone. -/
namespace Smarthome.Uip

open Semantics

/-- The bytes under the checksum. -/
def Contents.byte (c : Contents) (i : Nat) : Byte :=
  if i < 32 then c.addresses i else c.upper (i - 32)

/-- The sum over the contents. -/
def Contents.sum (c : Contents) : Nat :=
  c.udplen + uipProtoUdp.toNat + ∑ i ∈ Finset.range (32 + c.udplen), weight i * (c.byte i).toNat

/-- The connection is one for a datagram with these contents. -/
def Contents.For (c : Contents) (conn : UipUdpConn) : Prop :=
  conn.lport ≠ 0 ∧ u16 (c.upper 2) (c.upper 3) = conn.lport ∧
    (conn.rport = 0 ∨ u16 (c.upper 0) (c.upper 1) = conn.rport) ∧
    (conn.ripaddr.toList = List.replicate 16 0 ∨
      (List.range 16).map c.addresses = conn.ripaddr.toList)

section Received

variable {c : Contents} {ext : Nat} {ttl : Byte} {p d : Packet} {conns : List UipUdpConn}

theorem Carries.wellSized (h : Carries c ext ttl p) (hExt : p.uipExtLen = ext) : WellSized p where
  uipLen := by rw [h.uipLen, h.declared, Nat.add_assoc]
  size := h.size
  headers := by
    have hUdplen := h.udplen
    rw [h.declared, hExt]
    omega

theorem Carries.upperLayerLen_eq (h : Carries c ext ttl p) (hExt : p.uipExtLen = ext) :
    upperLayerLen p = c.udplen := by
  rw [(h.wellSized hExt).upperLayerLen_eq, h.declared, hExt, Nat.add_sub_cancel_left]

theorem Carries.covered_eq (h : Carries c ext ttl p) (hExt : p.uipExtLen = ext) {i : Nat}
    (hi : i < 32 + c.udplen) : covered p i = c.byte i := by
  unfold covered Contents.byte
  split_ifs with hAddress
  · exact h.addresses i hAddress
  · rw [hExt]
    exact h.upper (i - 32) (by omega)

theorem Carries.coveredSum_eq (h : Carries c ext ttl p) (hExt : p.uipExtLen = ext) :
    coveredSum p = c.sum := by
  rw [coveredSum, Contents.sum, h.upperLayerLen_eq hExt]
  congr 1
  refine Finset.sum_congr rfl fun i hi => ?_
  rw [h.covered_eq hExt (Finset.mem_range.mp hi)]

/-- Where the upper layer is found, without the headers in between. -/
theorem WellSized.udpFound_upper (h : WellSized p) {i : Nat} (hi : i < upperLayerLen p) :
    (udpFound p).buf (40 + i) = covered p (32 + i) := by
  have hExt : (udpFound p).uipExtLen = 0 := h.uipExtLen_removeExtHdr
  rw [← h.covered_removeExtHdr (by omega), ← covered_udpFound, covered, if_neg (by omega), hExt,
    Nat.add_sub_cancel_left]

theorem WellSized.udpFound_addresses (h : WellSized p) {i : Nat} (hi : i < 32) :
    (udpFound p).buf (8 + i) = covered p i := by
  rw [← h.covered_removeExtHdr (by omega), ← covered_udpFound, covered, if_pos hi]

theorem Carries.udpFound_upper (h : Carries c ext ttl p) (hExt : p.uipExtLen = ext) {i : Nat}
    (hi : i < c.udplen) : (udpFound p).buf (40 + i) = c.upper i := by
  rw [(h.wellSized hExt).udpFound_upper (by rw [h.upperLayerLen_eq hExt]; exact hi),
    h.covered_eq hExt (by omega), Contents.byte, if_neg (by omega), Nat.add_sub_cancel_left]

theorem Carries.udpFound_addresses (h : Carries c ext ttl p) (hExt : p.uipExtLen = ext) {i : Nat}
    (hi : i < 32) : (udpFound p).buf (8 + i) = c.addresses i := by
  rw [(h.wellSized hExt).udpFound_addresses hi, h.covered_eq hExt (by omega), Contents.byte,
    if_pos hi]

/-- The connections are compared with the contents. -/
theorem Carries.matches_iff (h : Carries c ext ttl p) (hExt : p.uipExtLen = ext) {conn : UipUdpConn} :
    conn.Matches (udpFound p).buf ↔ c.For conn := by
  have hUdplen := h.udplen
  have hAddress : (List.range 16).map (fun i => (udpFound p).buf (8 + i)) =
      (List.range 16).map c.addresses := by
    refine List.map_congr_left fun i hi => ?_
    rw [List.mem_range] at hi
    exact h.udpFound_addresses hExt (by omega)
  unfold UipUdpConn.Matches Contents.For
  rw [hAddress, h.udpFound_upper hExt (by omega : 0 < _), h.udpFound_upper hExt (by omega : 1 < _),
    h.udpFound_upper hExt (by omega : 2 < _), h.udpFound_upper hExt (by omega : 3 < _)]

/-- The payload and the addresses of a datagram that an application is called with. -/
theorem Carries.delivered (h : Carries c ext ttl p) (hExt : p.uipExtLen = ext)
    (hInput : udpInput conns p = some d) : d.uipLen = c.udplen - 8 ∧
      (∀ i < c.udplen, d.buf (40 + i) = c.upper i) ∧ ∀ i < 32, d.buf (8 + i) = c.addresses i := by
  have hWell := h.wellSized hExt
  have hBuf : d.buf = (udpFound p).buf := by
    simp only [udpInput] at hInput
    split_ifs at hInput
    obtain rfl := Option.some.inj hInput
    rfl
  refine ⟨?_, fun i hi => by rw [hBuf, h.udpFound_upper hExt hi],
    fun i hi => by rw [hBuf, h.udpFound_addresses hExt hi]⟩
  have hUdplen := h.udplen
  have hUipLen := h.uipLen
  have hSize := h.size
  simp only [uipIphLen, uipBufsize] at hUipLen hSize
  rw [udpInput_uipLen hInput, hWell.uipLen_removeExtHdr, hExt]
  simp only [uipIpudphLen]
  omega

/-- A datagram whose sum is zero goes to its connection. -/
theorem Carries.accepted (h : Carries c ext ttl p) (hExt : p.uipExtLen = ext)
    (hSum : 65535 ∣ c.sum) : (∃ d, udpInput conns p = some d) ↔ ∃ conn ∈ conns, c.For conn := by
  have hWell := h.wellSized hExt
  have hLen : upperLayerLen (udpFound p) < 65519 := by
    have hSize := h.size
    have hUipLen := h.uipLen
    simp only [uipIphLen, uipBufsize] at hUipLen hSize
    rw [upperLayerLen_udpFound, hWell.upperLayerLen_removeExtHdr, h.upperLayerLen_eq hExt]
    omega
  have hCorrect : ChksumCorrect (udpFound p) := by
    rw [chksumCorrect_iff hLen, hWell.coveredSum_udpFound, h.coveredSum_eq hExt]
    exact hSum
  have hAny : (conns.any fun conn => decide (conn.Matches (udpFound p).buf)) = true ↔
      ∃ conn ∈ conns, c.For conn := by
    simp only [List.any_eq_true, decide_eq_true_eq, h.matches_iff hExt]
  have hUdplen := h.udplen
  have hPort : u16 ((udpFound p).buf 42) ((udpFound p).buf 43) = u16 (c.upper 2) (c.upper 3) := by
    rw [h.udpFound_upper hExt (by omega : 2 < _), h.udpFound_upper hExt (by omega : 3 < _)]
  have hInput : udpInput conns p =
      if u16 ((udpFound p).buf 46) ((udpFound p).buf 47) ≠ 0 ∧ ¬ ChksumCorrect (udpFound p) then none
      else if u16 ((udpFound p).buf 42) ((udpFound p).buf 43) = 0 then none
      else if conns.any fun conn => decide (conn.Matches (udpFound p).buf) then
        some { udpFound p with uipLen := ((removeExtHdr p).uipLen + 65536 - uipIpudphLen) % 65536 }
      else none := rfl
  rw [hInput, if_neg (fun hWrong => hWrong.2 hCorrect), hPort, ← hAny]
  constructor
  · rintro ⟨d, hd⟩
    split_ifs at hd with _ hMatch
    exact hMatch
  · intro hMatch
    obtain ⟨conn, -, hUsed, hSame, -⟩ := hAny.mp hMatch
    rw [if_neg (by rw [hSame]; exact hUsed), if_pos hMatch]
    exact ⟨_, rfl⟩

end Received

/-- What a packet without further headers brings. -/
def contentsOf (p : Packet) : Contents where
  udplen := p.uipLen - uipIphLen
  addresses i := p.buf (8 + i)
  upper i := p.buf (uipIphLen + i)

section Sent

variable {conn : UipUdpConn} {src : Ipv6Address} {ttl : Byte} {uipSlen : Nat} {p : Packet}

theorem putU16_of_ne {place value : Nat} {buf : Nat → Byte} {i : Nat} (hHigh : i ≠ place)
    (hLow : i ≠ place + 1) : putU16 place value buf i = buf i := by
  rw [putU16, Function.update_of_ne hLow, Function.update_of_ne hHigh]

theorem putU16_high {place value : Nat} {buf : Nat → Byte} :
    putU16 place value buf place = UInt8.ofNat (value / 256) := by
  rw [putU16, Function.update_of_ne (Nat.ne_of_lt (Nat.lt_succ_self _)), Function.update_self]

theorem putU16_low {place value : Nat} {buf : Nat → Byte} :
    putU16 place value buf (place + 1) = UInt8.ofNat value := by
  rw [putU16, Function.update_self]

/-- Two bytes hold a 16-bit number. -/
theorem putU16_value {value : Nat} (hValue : value < 65536) :
    (UInt8.ofNat (value / 256)).toNat * 256 + (UInt8.ofNat value).toNat = value := by
  rw [UInt8.toNat_ofNat', UInt8.toNat_ofNat']
  omega

/-- A datagram without its checksum. -/
def unchecked (conn : UipUdpConn) (src : Ipv6Address) (ttl : Byte) (uipSlen : Nat) (p : Packet) :
    Packet :=
  { p with uipLen := uipSlen + uipIpudphLen, buf := udpFields conn src ttl uipSlen p.buf }

theorem udpSend_eq : udpSend conn src ttl uipSlen p =
    { unchecked conn src ttl uipSlen p with
      buf := putBytes 0 [0x60, 0, 0, 0] <| putU16 46
        (udpchksumOf (upperLayerChksum (unchecked conn src ttl uipSlen p) uipProtoUdp))
        (unchecked conn src ttl uipSlen p).buf } := rfl

/-- The rest of the packet is written before the checksum. -/
theorem udpSend_buf {i : Nat} (hi : 4 ≤ i) (h46 : i ≠ 46) (h47 : i ≠ 47) :
    (udpSend conn src ttl uipSlen p).buf i = udpFields conn src ttl uipSlen p.buf i := by
  rw [udpSend_eq]
  dsimp only
  rw [putBytes_of_ge (Or.inr hi), putU16_of_ne h46 h47]
  rfl

/-- The payload stays as the application has left it. -/
theorem udpSend_payload {i : Nat} :
    (udpSend conn src ttl uipSlen p).buf (48 + i) = p.buf (48 + i) := by
  rw [udpSend_buf (by omega) (by omega) (by omega), udpFields,
    putBytes_of_ge (Or.inr (by rw [Vector.length_toList]; omega)),
    putBytes_of_ge (Or.inr (by rw [Vector.length_toList]; omega)),
    putBytes_of_ge (Or.inr (show 42 + 2 ≤ 48 + i by omega)),
    putBytes_of_ge (Or.inr (show 40 + 2 ≤ 48 + i by omega)), putU16_of_ne (by omega) (by omega),
    putU16_of_ne (by omega) (by omega), putBytes_of_ge (Or.inr (show 6 + 2 ≤ 48 + i by omega)),
    putU16_of_ne (by omega) (by omega)]

theorem udpSend_src {i : Nat} (hi : i < 16) :
    (udpSend conn src ttl uipSlen p).buf (8 + i) = src.toList.getD i 0 := by
  rw [udpSend_buf (by omega) (by omega) (by omega), udpFields, putBytes_add (by simpa using hi)]

theorem udpSend_dest {i : Nat} (hi : i < 16) :
    (udpSend conn src ttl uipSlen p).buf (24 + i) = conn.ripaddr.toList.getD i 0 := by
  rw [udpSend_buf (by omega) (by omega) (by omega), udpFields,
    putBytes_of_ge (Or.inr (by rw [Vector.length_toList]; omega)), putBytes_add (by simpa using hi)]

/-- The fields in front of the addresses, and the ports. -/
theorem udpFields_front {buf : Nat → Byte} :
    udpFields conn src ttl uipSlen buf 4 = UInt8.ofNat ((uipSlen + uipIpudphLen - uipIphLen) / 256) ∧
    udpFields conn src ttl uipSlen buf 5 = UInt8.ofNat (uipSlen + uipIpudphLen - uipIphLen) ∧
    udpFields conn src ttl uipSlen buf 6 = uipProtoUdp ∧
    udpFields conn src ttl uipSlen buf 7 = ttl ∧
    udpFields conn src ttl uipSlen buf 40 = UInt8.ofNat conn.lport ∧
    udpFields conn src ttl uipSlen buf 41 = UInt8.ofNat (conn.lport / 256) ∧
    udpFields conn src ttl uipSlen buf 42 = UInt8.ofNat conn.rport ∧
    udpFields conn src ttl uipSlen buf 43 = UInt8.ofNat (conn.rport / 256) ∧
    udpFields conn src ttl uipSlen buf 46 = 0 ∧ udpFields conn src ttl uipSlen buf 47 = 0 := by
  simp [udpFields, putBytes, putU16, Function.update, portBytes]

theorem declaredLen_udpFields {buf : Nat → Byte} (hLen : uipSlen ≤ uipBufsize - uipIpudphLen) :
    declaredLen (udpFields conn src ttl uipSlen buf) = uipSlen + 8 := by
  obtain ⟨hHigh, hLow, -⟩ := @udpFields_front conn src ttl uipSlen buf
  simp only [uipBufsize, uipIpudphLen] at hLen
  have hSmall : uipSlen + uipIpudphLen - uipIphLen = uipSlen + 8 := by
    simp only [uipIpudphLen, uipIphLen]
    omega
  rw [declaredLen, hHigh, hLow, hSmall]
  exact putU16_value (by omega)

theorem upperLayerLen_of_no_ext {q : Packet} (hExt : q.uipExtLen = 0)
    (hDeclared : declaredLen q.buf < 65536) : upperLayerLen q = declaredLen q.buf := by
  rw [upperLayerLen, hExt]
  omega

/-- The complement brings the sum to zero. -/
theorem dvd_add_udpchksumOf {sum total : Nat} (hSum : sum < 65536) (hTotal : sum ≡ total [MOD 65535]) :
    65535 ∣ total + udpchksumOf sum := by
  have hZero : 65535 ∣ sum + udpchksumOf sum := by
    unfold udpchksumOf
    split_ifs
    · omega
    · exact ⟨1, by omega⟩
  exact ((hTotal.add_right _).dvd_iff dvd_rfl).mp hZero

theorem udpchksumOf_pos {sum : Nat} (hSum : sum < 65536) :
    0 < udpchksumOf sum ∧ udpchksumOf sum < 65536 := by
  unfold udpchksumOf
  split_ifs
  · decide
  · omega

theorem upperLayerLen_unchecked (hExt : p.uipExtLen = 0)
    (hLen : uipSlen ≤ uipBufsize - uipIpudphLen) :
    upperLayerLen (unchecked conn src ttl uipSlen p) = uipSlen + 8 := by
  have hDeclared : declaredLen (unchecked conn src ttl uipSlen p).buf = uipSlen + 8 :=
    declaredLen_udpFields hLen
  simp only [uipBufsize, uipIpudphLen] at hLen
  rw [← hDeclared]
  exact upperLayerLen_of_no_ext hExt (by omega)

theorem declaredLen_udpSend (hLen : uipSlen ≤ uipBufsize - uipIpudphLen) :
    declaredLen (udpSend conn src ttl uipSlen p).buf = uipSlen + 8 := by
  have hDeclared : declaredLen (udpFields conn src ttl uipSlen p.buf) = uipSlen + 8 :=
    declaredLen_udpFields hLen
  rw [← hDeclared, declaredLen, declaredLen, udpSend_buf (by decide) (by decide) (by decide),
    udpSend_buf (by decide) (by decide) (by decide)]

theorem upperLayerLen_udpSend (hExt : p.uipExtLen = 0)
    (hLen : uipSlen ≤ uipBufsize - uipIpudphLen) :
    upperLayerLen (udpSend conn src ttl uipSlen p) = uipSlen + 8 := by
  have hDeclared : declaredLen (udpSend conn src ttl uipSlen p).buf = uipSlen + 8 :=
    declaredLen_udpSend hLen
  simp only [uipBufsize, uipIpudphLen] at hLen
  rw [← hDeclared]
  exact upperLayerLen_of_no_ext hExt (by omega)

/-- The place of a byte of the UDP header or the payload. -/
theorem covered_of_no_ext {q : Packet} (hExt : q.uipExtLen = 0) (i : Nat) :
    covered q (32 + i) = q.buf (40 + i) := by
  rw [covered, if_neg (by omega), hExt, Nat.add_sub_cancel_left]

theorem covered_udpSend_of_ne (hExt : p.uipExtLen = 0) {i : Nat} (h38 : i ≠ 38) (h39 : i ≠ 39) :
    covered (udpSend conn src ttl uipSlen p) i = covered (unchecked conn src ttl uipSlen p) i := by
  rcases Nat.lt_or_ge i 32 with hAddress | hUpper
  · rw [covered, covered, if_pos hAddress, if_pos hAddress]
    exact udpSend_buf (by omega) (by omega) (by omega)
  · obtain ⟨k, rfl⟩ := Nat.exists_eq_add_of_le hUpper
    have hSent : (udpSend conn src ttl uipSlen p).uipExtLen = 0 := hExt
    have hFirst : (unchecked conn src ttl uipSlen p).uipExtLen = 0 := hExt
    rw [covered_of_no_ext hSent, covered_of_no_ext hFirst]
    exact udpSend_buf (by omega) (by omega) (by omega)

/-- The field of the checksum, while it is computed and afterwards. -/
theorem covered_udpchksum (hExt : p.uipExtLen = 0) :
    (covered (unchecked conn src ttl uipSlen p) 38 = 0 ∧
      covered (unchecked conn src ttl uipSlen p) 39 = 0) ∧
    (covered (udpSend conn src ttl uipSlen p) 38).toNat * 256 +
      (covered (udpSend conn src ttl uipSlen p) 39).toNat =
        udpchksumOf (upperLayerChksum (unchecked conn src ttl uipSlen p) uipProtoUdp) % 65536 := by
  obtain ⟨-, -, -, -, -, -, -, -, h46, h47⟩ := @udpFields_front conn src ttl uipSlen p.buf
  have hSent : (udpSend conn src ttl uipSlen p).uipExtLen = 0 := hExt
  have hFirst : (unchecked conn src ttl uipSlen p).uipExtLen = 0 := hExt
  rw [covered_of_no_ext hFirst 6, covered_of_no_ext hFirst 7, covered_of_no_ext hSent 6,
    covered_of_no_ext hSent 7, udpSend_eq]
  dsimp only
  rw [putBytes_of_ge (Or.inr (by decide)), putBytes_of_ge (Or.inr (by decide)), putU16_high,
    putU16_low, UInt8.toNat_ofNat', UInt8.toNat_ofNat']
  refine ⟨⟨h46, h47⟩, ?_⟩
  omega

/-- **The checksum of what is sent is correct.** -/
theorem dvd_coveredSum_udpSend (hExt : p.uipExtLen = 0)
    (hLen : uipSlen ≤ uipBufsize - uipIpudphLen) :
    65535 ∣ coveredSum (udpSend conn src ttl uipSlen p) := by
  have hFirstLen : upperLayerLen (unchecked conn src ttl uipSlen p) = uipSlen + 8 :=
    upperLayerLen_unchecked hExt hLen
  have hSmall : upperLayerLen (unchecked conn src ttl uipSlen p) < 65519 := by
    simp only [uipBufsize, uipIpudphLen] at hLen
    omega
  have hSum := upperLayerChksum_lt hSmall
  obtain ⟨⟨hZero, hZero'⟩, hField⟩ := @covered_udpchksum conn src ttl uipSlen p hExt
  have hPlace : 38 + 1 < 32 + (uipSlen + 8) := by omega
  have hRest : ∑ i ∈ ((Finset.range (32 + (uipSlen + 8))).erase 38).erase (38 + 1),
      weight i * (covered (udpSend conn src ttl uipSlen p) i).toNat =
      ∑ i ∈ ((Finset.range (32 + (uipSlen + 8))).erase 38).erase (38 + 1),
      weight i * (covered (unchecked conn src ttl uipSlen p) i).toNat := by
    refine Finset.sum_congr rfl fun i hi => ?_
    rw [Finset.mem_erase, Finset.mem_erase] at hi
    rw [covered_udpSend_of_ne hExt hi.2.1 hi.1]
  have hTotal : coveredSum (udpSend conn src ttl uipSlen p) =
      coveredSum (unchecked conn src ttl uipSlen p) +
        udpchksumOf (upperLayerChksum (unchecked conn src ttl uipSlen p) uipProtoUdp) := by
    have hHigh : weight 38 = 256 := rfl
    have hLow : weight (38 + 1) = 1 := rfl
    have hMod := Nat.mod_eq_of_lt (udpchksumOf_pos hSum).2
    rw [coveredSum, coveredSum, upperLayerLen_udpSend hExt hLen, hFirstLen, sum_split _ hPlace,
      sum_split _ hPlace, hRest, hZero, hZero', hHigh, hLow]
    rw [hMod] at hField
    rw [← hField]
    show _ + (_ + 1 * (covered (udpSend conn src ttl uipSlen p) 39).toNat + _) =
      _ + (256 * 0 + 1 * 0 + _) + _
    omega
  rw [hTotal]
  exact dvd_add_udpchksumOf hSum (upperLayerChksum_modEq hSmall)

theorem carries_udpSend (hLen : uipSlen ≤ uipBufsize - uipIpudphLen) :
    Carries (contentsOf (udpSend conn src ttl uipSlen p)) 0 ttl (udpSend conn src ttl uipSlen p) := by
  have hUdplen : (contentsOf (udpSend conn src ttl uipSlen p)).udplen = uipSlen + 8 := by
    show uipSlen + 48 - 40 = _
    omega
  have hUipLen : (udpSend conn src ttl uipSlen p).uipLen = uipSlen + 48 := rfl
  obtain ⟨-, -, hProto, hTtl, -⟩ := @udpFields_front conn src ttl uipSlen p.buf
  simp only [uipBufsize, uipIpudphLen] at hLen
  constructor
  · refine Or.inl ⟨rfl, ?_⟩
    rw [udpSend_buf (by decide) (by decide) (by decide), hProto]
  · rw [hUdplen, hUipLen]
    simp only [uipIphLen]
    omega
  · rw [hUipLen]
    simp only [uipBufsize]
    omega
  · rw [hUdplen]
    omega
  · have hVersion : (udpSend conn src ttl uipSlen p).buf (0 + 0) = 0x60 := by
      rw [udpSend_eq]
      dsimp only
      rw [putBytes_add (Nat.zero_lt_succ _)]
      rfl
    rw [← Nat.zero_add 0, hVersion]
    decide
  · rw [declaredLen_udpSend hLen, hUdplen, Nat.zero_add]
  · rw [udpSend_buf (by decide) (by decide) (by decide), hTtl]
  · exact fun _ _ => rfl
  · exact fun _ _ => rfl

theorem dvd_sum_udpSend (hExt : p.uipExtLen = 0) (hLen : uipSlen ≤ uipBufsize - uipIpudphLen) :
    65535 ∣ (contentsOf (udpSend conn src ttl uipSlen p)).sum := by
  have hSent : (udpSend conn src ttl uipSlen p).uipExtLen = 0 := hExt
  rw [← (carries_udpSend hLen).coveredSum_eq hSent]
  exact dvd_coveredSum_udpSend hExt hLen

theorem u16_portBytes (port : Nat) :
    u16 (UInt8.ofNat port) (UInt8.ofNat (port / 256)) = port % 65536 := by
  rw [u16, UInt8.toNat_ofNat', UInt8.toNat_ofNat']
  omega

theorem ports_udpSend :
    u16 ((udpSend conn src ttl uipSlen p).buf 40) ((udpSend conn src ttl uipSlen p).buf 41) =
      conn.lport % 65536 ∧
    u16 ((udpSend conn src ttl uipSlen p).buf 42) ((udpSend conn src ttl uipSlen p).buf 43) =
      conn.rport % 65536 := by
  obtain ⟨-, -, -, -, h40, h41, h42, h43, -⟩ := @udpFields_front conn src ttl uipSlen p.buf
  rw [udpSend_buf (by decide) (by decide) (by decide), h40,
    udpSend_buf (by decide) (by decide) (by decide), h41,
    udpSend_buf (by decide) (by decide) (by decide), h42,
    udpSend_buf (by decide) (by decide) (by decide), h43, u16_portBytes, u16_portBytes]
  exact ⟨rfl, rfl⟩

end Sent

end Smarthome.Uip
