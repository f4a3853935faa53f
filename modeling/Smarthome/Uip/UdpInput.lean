import Smarthome.Uip.WalkBounds

/-! `uip6.c`: from a received packet to the call of a UDP application, and when the payload that
the application finds is a part of that packet. -/
namespace Smarthome.Uip

open Semantics HeaderWalk

/-- `UIP_IPUDPH_LEN`. -/
abbrev uipIpudphLen : Nat := 48

/-- A UDP connection, its ports as they are in the packets. -/
structure UipUdpConn where
  lport : Nat
  rport : Nat
  ripaddr : Ipv6Address

/-- The length that the IPv6 header declares. -/
def declaredLen (buf : Nat → Byte) : Nat := (buf 4).toNat * 256 + (buf 5).toNat

/-- The checks in front of the walk over the headers. They lead to a new `uip_len`. -/
def checkHeader (uipLen : Nat) (buf : Nat → Byte) : Option Nat :=
  if buf 0 &&& 0xf0 ≠ 0x60 then none
  else if declaredLen buf ≤ uipLen then
    if IsAddrMcast (buf 8) then none else some ((declaredLen buf + uipIphLen) % 65536)
  else none

/-- `uip_len`, `uip_ext_len` and `uip_buf`. With each place of `uip_buf` there is the one at which
what is there was received. -/
structure Packet where
  uipLen : Nat
  uipExtLen : Nat
  buf : Nat → Byte
  source : Nat → Nat

/-- Where `memmove` takes what it puts here. -/
def movedFrom (uipLen uipExtLen i : Nat) : Nat :=
  if uipIphLen ≤ i ∧ i < uipLen - uipExtLen then i + uipExtLen else i

/-- The headers between that of IPv6 and that of UDP are cut out. -/
def Packet.cut (p : Packet) : Packet where
  uipLen := p.uipLen - p.uipExtLen
  uipExtLen := 0
  buf := fun i => p.buf (movedFrom p.uipLen p.uipExtLen i)
  source := fun i => p.source (movedFrom p.uipLen p.uipExtLen i)

/-- The IP length is brought up to date. -/
def Packet.setLen (p : Packet) : Packet :=
  { p with buf := Function.update (Function.update p.buf
      4 (UInt8.ofNat ((p.uipLen - uipIphLen) / 256))) 5 (UInt8.ofNat (p.uipLen - uipIphLen)) }

/-- `remove_ext_hdr`, with `uip_clear_buf` where the packet is too short. -/
def removeExtHdr (p : Packet) : Packet :=
  if 0 < p.uipExtLen then
    if p.uipLen < uipIphLen + p.uipExtLen then { p with uipLen := 0, uipExtLen := 0 }
    else p.cut.setLen
  else p

/-- A sum of 16 bits with its carry. -/
def addCarry (sum t : Nat) : Nat :=
  if (sum + t) % 65536 < t then ((sum + t) % 65536 + 1) % 65536 else (sum + t) % 65536

def chksum (sum : Nat) : List Byte → Nat
  | high :: low :: rest => chksum (addCarry sum (high.toNat * 256 + low.toNat)) rest
  | [last] => addCarry sum (last.toNat * 256)
  | [] => sum

/-- `upper_layer_chksum`, before the bytes of the sum are swapped. -/
def upperLayerChksum (p : Packet) (proto : Byte) : Nat :=
  let upperLayerLen := (declaredLen p.buf + 65536 - p.uipExtLen) % 65536
  let sum := chksum ((upperLayerLen + proto.toNat) % 65536)
    ((List.range 32).map fun i => p.buf (8 + i))
  chksum sum ((List.range upperLayerLen).map fun i => p.buf (uipIphLen + p.uipExtLen + i))

/-- The sum is 0xffff, or it is 0 and reported as 0xffff. -/
def ChksumCorrect (p : Packet) : Prop :=
  upperLayerChksum p uipProtoUdp = 0xffff ∨ upperLayerChksum p uipProtoUdp = 0

instance (p : Packet) : Decidable (ChksumCorrect p) := inferInstanceAs (Decidable (_ ∨ _))

/-- The connection is one for a packet with these ports and this address of the sender. -/
def UipUdpConn.Matches (conn : UipUdpConn) (buf : Nat → Byte) : Prop :=
  conn.lport ≠ 0 ∧ u16 (buf 42) (buf 43) = conn.lport ∧
    (conn.rport = 0 ∨ u16 (buf 40) (buf 41) = conn.rport) ∧
    (conn.ripaddr.toList = List.replicate 16 0 ∨
      (List.range 16).map (fun i => buf (8 + i)) = conn.ripaddr.toList)

instance (conn : UipUdpConn) (buf : Nat → Byte) : Decidable (conn.Matches buf) :=
  inferInstanceAs (Decidable (_ ∧ _ ∧ (_ ∨ _) ∧ (_ ∨ _)))

/-- `udp_input` and `udp_found`, up to the call of the application. -/
def udpInput (conns : List UipUdpConn) (p : Packet) : Option Packet :=
  let p := removeExtHdr p
  let p := { p with buf := Function.update p.buf 6 uipProtoUdp }
  if u16 (p.buf 46) (p.buf 47) ≠ 0 ∧ ¬ ChksumCorrect p then none
  else if u16 (p.buf 42) (p.buf 43) = 0 then none
  else if conns.any fun conn => decide (conn.Matches p.buf) then
    some { p with uipLen := (p.uipLen + 65536 - uipIpudphLen) % 65536 }
  else none

section Payload

variable {conns : List UipUdpConn} {p d : Packet} {n : Nat}

/-- What the application finds lies in the first `n` bytes, and was received there. -/
structure PayloadInside (n : Nat) (d : Packet) : Prop where
  notNegative : d.uipLen < 0x8000
  inside : uipIpudphLen + d.uipLen ≤ n
  received : ∀ i < d.uipLen, d.source (uipIpudphLen + i) < n

theorem udpInput_uipLen (h : udpInput conns p = some d) :
    d.uipLen = ((removeExtHdr p).uipLen + 65536 - uipIpudphLen) % 65536 := by
  simp only [udpInput] at h
  split_ifs at h
  obtain rfl := Option.some.inj h
  rfl

theorem udpInput_source (h : udpInput conns p = some d) : d.source = (removeExtHdr p).source := by
  simp only [udpInput] at h
  split_ifs at h
  obtain rfl := Option.some.inj h
  rfl

theorem udpInput_buf (h : udpInput conns p = some d) {i : Nat} (hi : i ≠ 6) :
    d.buf i = (removeExtHdr p).buf i := by
  simp only [udpInput] at h
  split_ifs at h
  obtain rfl := Option.some.inj h
  exact Function.update_of_ne hi _ _

/-- Bytes of the upper layers are moved, and nothing else is done to them. -/
theorem removeExtHdr_buf {i : Nat} (hi : 6 < i) (hSource : p.source = id) :
    (removeExtHdr p).buf i = p.buf ((removeExtHdr p).source i) := by
  unfold removeExtHdr
  split_ifs
  · rw [hSource]
    rfl
  · have hPlace : p.cut.source i = movedFrom p.uipLen p.uipExtLen i := by
      rw [Packet.cut, hSource]
      rfl
    show Function.update (Function.update p.cut.buf 4 _) 5 _ i = p.buf (p.cut.source i)
    rw [Function.update_of_ne (by omega), Function.update_of_ne (by omega), hPlace]
    rfl
  · rw [hSource]
    rfl

/-- Without a header that is cut out, the length is what was declared. -/
theorem payloadInside_iff_of_no_ext (h : udpInput conns p = some d) (hSource : p.source = id)
    (hLeast : uipIphLen ≤ p.uipLen) (hMost : p.uipLen ≤ uipIphLen + n) (hSize : n ≤ 900)
    (hExt : p.uipExtLen = 0) : PayloadInside n d ↔
      uipIpudphLen ≤ p.uipLen ∧ (p.uipLen ≤ n ∨ p.uipLen = uipIpudphLen ∧ uipIpudphLen ≤ n) := by
  have hRemove : removeExtHdr p = p := by simp [removeExtHdr, hExt]
  have hLen := udpInput_uipLen h
  have hPlace := udpInput_source h
  rw [hRemove] at hLen hPlace
  rw [hSource] at hPlace
  constructor
  · rintro ⟨hNotNegative, hInside, -⟩
    simp only [uipIphLen, uipIpudphLen] at *
    omega
  · rintro ⟨hHeader, hFits⟩
    simp only [uipIphLen, uipIpudphLen] at *
    have hInside : 48 + d.uipLen ≤ n := by omega
    refine ⟨by omega, hInside, fun i hi => ?_⟩
    rw [hPlace]
    exact Nat.lt_of_lt_of_le (Nat.add_lt_add_left hi 48) hInside

/-- With one, the payload comes from behind it. -/
theorem payloadInside_iff_of_ext (h : udpInput conns p = some d) (hSource : p.source = id)
    (hLeast : uipIphLen ≤ p.uipLen) (hMost : p.uipLen ≤ uipIphLen + n) (hSize : n ≤ 900)
    (hExt : 0 < p.uipExtLen) : PayloadInside n d ↔
      uipIpudphLen + p.uipExtLen ≤ p.uipLen ∧
        (p.uipLen ≤ n ∨ p.uipLen = uipIpudphLen + p.uipExtLen ∧ uipIpudphLen ≤ n) := by
  have hLen := udpInput_uipLen h
  have hPlace := udpInput_source h
  by_cases hShort : p.uipLen < uipIphLen + p.uipExtLen
  · have hRemove : (removeExtHdr p).uipLen = 0 := by
      rw [removeExtHdr, if_pos hExt, if_pos hShort]
    rw [hRemove] at hLen
    simp only [uipIphLen, uipIpudphLen] at *
    constructor
    · intro hPayload
      have hNotNegative := hPayload.notNegative
      omega
    · intro hBoth
      omega
  · have hRemove : removeExtHdr p = p.cut.setLen := by
      rw [removeExtHdr, if_pos hExt, if_neg hShort]
    have hCutLen : (removeExtHdr p).uipLen = p.uipLen - p.uipExtLen := by rw [hRemove]; rfl
    have hMoved (i : Nat) (hi : i < d.uipLen) (hPos : uipIpudphLen + p.uipExtLen ≤ p.uipLen) :
        d.source (uipIpudphLen + i) = uipIpudphLen + i + p.uipExtLen := by
      rw [hCutLen] at hLen
      rw [hPlace, hRemove]
      show p.source (movedFrom _ _ _) = _
      rw [hSource, movedFrom, if_pos (by simp only [uipIphLen, uipIpudphLen] at *; omega)]
      rfl
    rw [hCutLen] at hLen
    constructor
    · rintro ⟨hNotNegative, hInside, hReceived⟩
      have hHeader : uipIpudphLen + p.uipExtLen ≤ p.uipLen := by
        simp only [uipIphLen, uipIpudphLen] at *
        omega
      refine ⟨hHeader, ?_⟩
      rcases Nat.eq_zero_or_pos d.uipLen with hZero | hPos
      · simp only [uipIphLen, uipIpudphLen] at *
        omega
      · have hLast := hReceived (d.uipLen - 1) (by omega)
        rw [hMoved _ (by omega) hHeader] at hLast
        simp only [uipIphLen, uipIpudphLen] at *
        omega
    · rintro ⟨hHeader, hFits⟩
      refine ⟨?_, ?_, fun i hi => ?_⟩
      · simp only [uipIphLen, uipIpudphLen] at *
        omega
      · simp only [uipIphLen, uipIpudphLen] at *
        omega
      · rw [hMoved i hi hHeader]
        simp only [uipIphLen, uipIpudphLen] at *
        omega

end Payload

/-- What `udp_input` finds when it is reached with these headers. -/
def packetAt (uipLen : Nat) (s : HeaderWalk) : Packet := ⟨uipLen, s.uipExtLen, s.buf, id⟩

/-- **A delivered datagram lies inside the received packet** if and only if the declared length
has room for the headers in front of the payload, and the packet is not shorter than declared,
or the payload is empty. -/
theorem payload_inside_iff (ip : IpState) (conns : List UipUdpConn) {n uipLen : Nat}
    {buf : Nat → Byte} {s : HeaderWalk} {d : Packet} (hSize : n ≤ 900)
    (hCheck : checkHeader n buf = some uipLen) (_ : Visits ip buf s)
    (_ : s.point = .done .udpInput) (hInput : udpInput conns (packetAt uipLen s) = some d) :
    (∀ i, d.buf (uipIpudphLen + i) = s.buf (d.source (uipIpudphLen + i))) ∧
    (PayloadInside n d ↔ s.uipExtLen + 8 ≤ declaredLen buf ∧
      (uipIphLen + declaredLen buf ≤ n ∨
        declaredLen buf = s.uipExtLen + 8 ∧ uipIpudphLen ≤ n)) := by
  have hLen : declaredLen buf ≤ n ∧ uipLen = declaredLen buf + uipIphLen := by
    unfold checkHeader at hCheck
    split_ifs at hCheck with hVersion hFits hMcast
    have hMod := Option.some.inj hCheck
    simp only [uipIphLen] at *
    omega
  constructor
  · intro i
    have hPlace : 6 < uipIpudphLen + i := by
      simp only [uipIpudphLen]
      omega
    rw [udpInput_buf hInput (Nat.ne_of_gt hPlace), udpInput_source hInput]
    exact removeExtHdr_buf hPlace rfl
  · have hLeast : uipIphLen ≤ (packetAt uipLen s).uipLen := by
      simp only [packetAt, uipIphLen] at *
      omega
    have hMost : (packetAt uipLen s).uipLen ≤ uipIphLen + n := by
      simp only [packetAt, uipIphLen] at *
      omega
    have hPayload : PayloadInside n d ↔ uipIpudphLen + s.uipExtLen ≤ uipLen ∧
        (uipLen ≤ n ∨ uipLen = uipIpudphLen + s.uipExtLen ∧ uipIpudphLen ≤ n) := by
      rcases Nat.eq_zero_or_pos s.uipExtLen with hExt | hExt
      · rw [hExt]
        exact payloadInside_iff_of_no_ext hInput rfl hLeast hMost hSize hExt
      · exact payloadInside_iff_of_ext hInput rfl hLeast hMost hSize hExt
    rw [hPayload]
    simp only [uipIphLen, uipIpudphLen] at *
    omega

/-- An IPv6 packet to port 4003 with this declared length, and these bytes behind the header. -/
def udpBuf (len : Byte) (bytes : List Byte) (i : Nat) : Byte :=
  match i with
  | 0 => 0x60
  | 5 => len
  | 6 => uipProtoUdp
  | i => if i < 40 then 0 else bytes.getD (i - 40) 0

def examplePort : List UipUdpConn := [⟨u16 0x0F 0xA3, 0, Vector.replicate 16 0⟩]

/-- The ports, a length and no checksum, and two bytes of payload. -/
def udpBytes (payload : List Byte) : List Byte := [0x0F, 0xA3, 0x0F, 0xA3, 0, 10, 0, 0] ++ payload

theorem visits_udpBuf (len : Byte) (payload : List Byte) :
    ∃ s, Visits exampleIp (udpBuf len (udpBytes payload)) s ∧ s.point = .done .udpInput ∧
      s.uipExtLen = 0 ∧ s.buf = udpBuf len (udpBytes payload) := by
  have hRun : ∃ s, runAll (step exampleIp) (start (udpBuf len (udpBytes payload)))
      [(), (), ()] = some s ∧ s.point = .done .udpInput ∧ s.uipExtLen = 0 ∧
        s.buf = udpBuf len (udpBytes payload) := ⟨_, rfl, rfl, rfl, rfl⟩
  obtain ⟨s, hSteps, hRest⟩ := hRun
  exact ⟨s, Reaches.of_runAll (fun _ _ _ => trivial) hSteps, hRest⟩

theorem udpInput_udpBuf {uipLen : Nat} {buf : Nat → Byte} {s : HeaderWalk}
    (hExt : s.uipExtLen = 0) (hBuf : s.buf = buf)
    (hSome : (udpInput examplePort ⟨uipLen, 0, buf, id⟩).isSome = true) :
    ∃ d, udpInput examplePort (packetAt uipLen s) = some d := by
  rw [packetAt, hExt, hBuf]
  exact Option.isSome_iff_exists.mp hSome

/-- A datagram with two bytes of payload, as it should be. -/
theorem payload_inside_two : ∃ s d, Visits exampleIp (udpBuf 10 (udpBytes [1, 2])) s ∧
    udpInput examplePort (packetAt 50 s) = some d ∧ PayloadInside 50 d := by
  obtain ⟨s, hVisits, hDone, hExt, hBuf⟩ := visits_udpBuf 10 [1, 2]
  have hSome : (udpInput examplePort ⟨50, 0, udpBuf 10 (udpBytes [1, 2]), id⟩).isSome = true := by
    decide +kernel
  obtain ⟨d, hInput⟩ := udpInput_udpBuf hExt hBuf hSome
  have hCheck : checkHeader 50 (udpBuf 10 (udpBytes [1, 2])) = some 50 := by decide +kernel
  refine ⟨s, d, hVisits, hInput, ?_⟩
  exact (payload_inside_iff exampleIp examplePort (by decide) hCheck hVisits hDone hInput).2.mpr
    ⟨by rw [hExt]; decide +kernel, Or.inl (by decide +kernel)⟩

/-- A packet of 48 bytes that declares 48 bytes behind its header. The application finds 40
bytes that an earlier packet has left. -/
theorem payload_inside_fails : ¬ ∀ (ip : IpState) (conns : List UipUdpConn) (n uipLen : Nat)
    (buf : Nat → Byte) (s : HeaderWalk) (d : Packet) (_ : n ≤ 900)
    (_ : checkHeader n buf = some uipLen) (_ : Visits ip buf s) (_ : s.point = .done .udpInput)
    (_ : udpInput conns (packetAt uipLen s) = some d), PayloadInside n d := by
  intro h
  obtain ⟨s, hVisits, hDone, hExt, hBuf⟩ := visits_udpBuf 48 []
  have hSome : (udpInput examplePort ⟨88, 0, udpBuf 48 (udpBytes []), id⟩).isSome = true := by
    decide +kernel
  obtain ⟨d, hInput⟩ := udpInput_udpBuf hExt hBuf hSome
  have hCheck : checkHeader 48 (udpBuf 48 (udpBytes [])) = some 88 := by decide +kernel
  have hInside := h exampleIp examplePort 48 88 _ s d (by decide) hCheck hVisits hDone hInput
  have hRemove : removeExtHdr (packetAt 88 s) = packetAt 88 s := by
    simp [removeExtHdr, packetAt, hExt]
  have hLen : d.uipLen = 40 := by
    rw [udpInput_uipLen hInput, hRemove]
    show (88 + 65536 - 48) % 65536 = 40
    decide
  have hRange := hInside.inside
  rw [hLen] at hRange
  exact absurd hRange (by decide)

end Smarthome.Uip
