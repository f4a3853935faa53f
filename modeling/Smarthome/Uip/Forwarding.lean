import Smarthome.Uip.Output

/-! What a packet brings stays the same at every node that forwards it: the walk over its headers,
and what becomes of the RPL option. -/
namespace Smarthome.Uip

open Semantics HeaderWalk

/-- What a datagram brings: the addresses, and the UDP header with the payload. -/
structure Contents where
  udplen : Nat
  addresses : Nat → Byte
  upper : Nat → Byte

/-- The first header is one with an RPL option, and the UDP header is the next. -/
structure HasOption (buf : Nat → Byte) : Prop where
  proto : buf 6 = uipProtoHbho
  next : buf 40 = uipProtoUdp
  len : buf 41 = 0
  optType : buf 42 = uipExtHdrOptRpl
  optLen : buf 43 = rplHdrOptLen

/-- The packet brings the contents, behind `ext` bytes of headers and with this hop limit. -/
structure Carries (c : Contents) (ext : Nat) (ttl : Byte) (p : Packet) : Prop where
  headers : ext = 0 ∧ p.buf 6 = uipProtoUdp ∨ ext = rplHopByHopLen ∧ HasOption p.buf
  uipLen : p.uipLen = uipIphLen + ext + c.udplen
  size : p.uipLen ≤ uipBufsize
  udplen : 8 ≤ c.udplen
  version : p.buf 0 &&& 0xf0 = 0x60
  declared : declaredLen p.buf = ext + c.udplen
  ttl : p.buf 7 = ttl
  addresses : ∀ i < 32, p.buf (8 + i) = c.addresses i
  upper : ∀ i < c.udplen, p.buf (uipIphLen + ext + i) = c.upper i

/-- What is at these places decides what a packet brings. -/
theorem Carries.of_eq {c : Contents} {ext : Nat} {ttl ttl' : Byte} {p q : Packet}
    (h : Carries c ext ttl p) (hLen : q.uipLen = p.uipLen) (hTtl : q.buf 7 = ttl')
    (hBuf : ∀ i < p.uipLen, i ≠ 7 → i < 44 ∨ 48 ≤ i ∨ ext = 0 → q.buf i = p.buf i) :
    Carries c ext ttl' q := by
  obtain ⟨hHeaders, hUipLen, hSize, hUdplen, hVersion, hDeclared, -, hAddresses, hUpper⟩ := h
  simp only [uipIphLen] at hUipLen hUpper
  have hSame (i : Nat) (hi : i < 44) (hNotTtl : i ≠ 7) : q.buf i = p.buf i :=
    hBuf i (by omega) hNotTtl (Or.inl hi)
  constructor
  · rcases hHeaders with ⟨hExt, hProto⟩ | ⟨hExt, hProto, hNext, hZero, hType, hOptLen⟩
    · exact Or.inl ⟨hExt, by rw [hSame 6 (by decide) (by decide), hProto]⟩
    · refine Or.inr ⟨hExt, ?_, ?_, ?_, ?_, ?_⟩
      · rw [hSame 6 (by decide) (by decide), hProto]
      · rw [hSame 40 (by decide) (by decide), hNext]
      · rw [hSame 41 (by decide) (by decide), hZero]
      · rw [hSame 42 (by decide) (by decide), hType]
      · rw [hSame 43 (by decide) (by decide), hOptLen]
  · rw [hLen, hUipLen]
  · rw [hLen]
    exact hSize
  · exact hUdplen
  · rw [hSame 0 (by decide) (by decide), hVersion]
  · rw [declaredLen, hSame 4 (by decide) (by decide), hSame 5 (by decide) (by decide), ← hDeclared]
    rfl
  · exact hTtl
  · intro i hi
    rw [hSame (8 + i) (by omega) (by omega), hAddresses i hi]
  · intro i hi
    simp only [uipIphLen]
    rw [hBuf (40 + ext + i) (by omega) (by omega), hUpper i hi]
    rcases hHeaders with ⟨hExt, -⟩ | ⟨hExt, -⟩
    · exact Or.inr (Or.inr hExt)
    · simp only [rplHopByHopLen] at hExt
      omega

theorem Carries.proto {c : Contents} {ttl : Byte} {p : Packet} (h : Carries c 0 ttl p) :
    p.buf 6 = uipProtoUdp := by
  rcases h.headers with ⟨-, hProto⟩ | ⟨hExt, -⟩
  · exact hProto
  · exact absurd hExt (by decide)

theorem Carries.hasOption {c : Contents} {ttl : Byte} {p : Packet}
    (h : Carries c rplHopByHopLen ttl p) : HasOption p.buf := by
  rcases h.headers with ⟨hExt, -⟩ | ⟨-, hOption⟩
  · exact absurd hExt (by decide)
  · exact hOption

section Walk

variable {ip : IpState} {buf : Nat → Byte}

/-- What `rpl_verify_hbh_header` leaves in `uip_buf`, if it does not have the packet dropped. -/
def verified (ip : IpState) (buf : Nat → Byte) : Option (Nat → Byte) :=
  match (rplVerifyHbhHeader ip uipIphLen 42).value buf with
  | .accept => some buf
  | .acceptRankErr => some (Function.update buf 44 (buf 44 ||| rplHdrOptRankErr))
  | _ => none

/-- The rank in the option. -/
def senderRank (buf : Nat → Byte) : Nat := u16 (buf 47) (buf 46)

/-- What `rpl_verify_hbh_header` decides on: the flags, the instance and the rank of the sender. -/
theorem rplVerifyHbhHeader_value (hLen : buf 41 = 0) (hOptLen : buf 43 = rplHdrOptLen) :
    (rplVerifyHbhHeader ip uipIphLen 42).value buf =
      match ip.rplGetInstance (buf 45) with
      | none => .discard
      | some i =>
          if buf 44 &&& rplHdrOptFwdErr ≠ 0 ∨ i.joined = false then .discard
          else if buf 44 &&& rplHdrOptDown ≠ 0 ↔ senderRank buf < i.rank then .accept
          else if buf 44 &&& rplHdrOptRankErr ≠ 0 then .discard
          else .acceptRankErr := by
  have hFits : ¬ ((Reads.read (uipIphLen + 1)).value buf ≠ 0 ∨
      (Reads.read (42 + 1)).value buf ≠ rplHdrOptLen) := by
    rintro (hWrong | hWrong)
    · exact hWrong hLen
    · exact hWrong hOptLen
  simp only [rplVerifyHbhHeader, Reads.value_bind, Reads.value_ite, Reads.value_pure]
  rw [if_neg hFits]
  show (match ip.rplGetInstance (buf 45) with
    | none => _
    | some rplInstance => _ : Reads Byte OptionOutcome).value buf = _
  cases ip.rplGetInstance (buf 45) with
  | none => rfl
  | some i =>
      simp only [Reads.value_bind, Reads.value_ite, Reads.value_pure]
      rfl

/-- Where a walk ends that has come to the addresses. -/
def addressed (ip : IpState) (buf : Nat → Byte) : WalkEnd :=
  if ip.isMyAddr (destipaddr buf) then .udpInput else .notForMe

theorem visits_next {s t : HeaderWalk} (h : Visits ip buf s) (hStep : s.step ip () = some t) :
    Visits ip buf t := Reaches.next h hStep trivial

/-- From the addresses to the end, when the UDP header is the next one. -/
theorem visits_of_addresses {s : HeaderWalk} (h : Visits ip buf s) (hPoint : s.point = .addresses)
    (hNext : s.buf s.uipNextHdr = uipProtoUdp) :
    ∃ t, Visits ip buf t ∧ t.buf = s.buf ∧ t.uipExtLen = s.uipExtLen ∧
      t.point = .done (addressed ip s.buf) := by
  have hFirst : s.step ip () = some (s.addressesStep ip) := by
    simp only [HeaderWalk.step, hPoint]
  have hVisits := visits_next h hFirst
  by_cases hMine : ip.isMyAddr (destipaddr s.buf) = true
  · have hLoop : (s.addressesStep ip).point = .loop := by
      show (if ip.isMyAddr (destipaddr s.buf) then _ else _) = _
      rw [if_pos hMine]
    have hUdp : (s.addressesStep ip).buf (s.addressesStep ip).uipNextHdr = uipProtoUdp := hNext
    have hSecond : (s.addressesStep ip).step ip () = some (s.addressesStep ip).loopStep := by
      simp only [HeaderWalk.step, hLoop]
    refine ⟨_, visits_next hVisits hSecond, ?_, ?_, ?_⟩
    · rw [loopStep, if_pos hUdp]
      rfl
    · rw [loopStep, if_pos hUdp]
      rfl
    · rw [loopStep, if_pos hUdp, addressed, if_pos hMine]
      rfl
  · refine ⟨_, hVisits, rfl, rfl, ?_⟩
    show (if ip.isMyAddr (destipaddr s.buf) then _ else _) = _
    rw [addressed, if_neg hMine, if_neg hMine]

/-- A packet without further headers. -/
theorem visits_of_udp (hProto : buf 6 = uipProtoUdp) : ∃ s, Visits ip buf s ∧ s.buf = buf ∧
    s.uipExtLen = 0 ∧ s.point = .done (addressed ip buf) := by
  have hOther : ¬ (start buf).buf 6 = uipProtoHbho := by
    show ¬ buf 6 = _
    rw [hProto]
    decide
  have hFirst : (start buf).step ip () = some (((start buf).look [6]).goto .addresses) := by
    show some (start buf).hopByHopStep = _
    rw [hopByHopStep, if_neg hOther]
  exact visits_of_addresses (visits_next Reaches.start hFirst) rfl hProto

theorem extHdrOption_rpl (h : HasOption buf) : (extHdrOption ip uipIphLen 2).value buf =
    (rplVerifyHbhHeader ip uipIphLen 42).value buf := by
  have hLen : buf (uipIphLen + 1) = 0 := h.len
  have hType : buf (uipIphLen + 2) = uipExtHdrOptRpl := h.optType
  rw [extHdrOption_value, hLen, hType]
  rfl

/-- The walk stands at the RPL option. -/
theorem visits_options (h : HasOption buf) : ∃ s, Visits ip buf s ∧ s.buf = buf ∧
    s.uipExtLen = 0 ∧ s.point = .options 2 false := by
  have hFirst : (start buf).step ip () = some (start buf).hopByHopStep := rfl
  have hProto : (start buf).buf 6 = uipProtoHbho := h.proto
  refine ⟨_, visits_next Reaches.start hFirst, ?_, ?_, ?_⟩
  · rw [hopByHopStep, if_pos hProto]
    rfl
  · rw [hopByHopStep, if_pos hProto]
    rfl
  · rw [hopByHopStep, if_pos hProto]

/-- A packet with an RPL option. -/
theorem visits_of_option (h : HasOption buf) : ∃ s, Visits ip buf s ∧
    match verified ip buf with
    | none => s.point = .done .drop ∨ s.point = .done .send
    | some buf' => s.buf = buf' ∧ s.uipExtLen = rplHopByHopLen ∧
        s.point = .done (addressed ip buf') := by
  obtain ⟨s, hVisits, rfl, hExtLen, hPoint⟩ := @visits_options ip _ h
  have hExt : s.ext = uipIphLen := by rw [HeaderWalk.ext, hExtLen]
  have hStep : s.step ip () = some (s.optionsStep ip 2 false) := by
    simp only [HeaderWalk.step, hPoint]
  have hVisits' := visits_next hVisits hStep
  have hLen : s.buf (s.ext + 1) = 0 := by
    rw [hExt]
    exact h.len
  have hNext : s.buf s.ext = uipProtoUdp := by
    rw [hExt]
    exact h.next
  have hBehind : (s.uipExtLen + ((s.buf (s.ext + 1)).toNat * 8 + 8)) % 256 = rplHopByHopLen := by
    rw [hExtLen, hLen]
    rfl
  have hOption : (extHdrOption ip s.ext 2).value s.buf =
      (rplVerifyHbhHeader ip uipIphLen 42).value s.buf := by rw [hExt, extHdrOption_rpl h]
  unfold verified
  cases hOutcome : (rplVerifyHbhHeader ip uipIphLen 42).value s.buf with
  | next offset => exact absurd hOutcome rplVerifyHbhHeader_ne_next
  | accept =>
      rw [optionsStep, hOption, hOutcome] at hVisits'
      obtain ⟨t, hEnd, hBuf, hExtEnd, hDone⟩ := visits_of_addresses hVisits' rfl hNext
      exact ⟨t, hEnd, hBuf, hExtEnd.trans hBehind, hDone⟩
  | acceptRankErr =>
      have hOther (i : Nat) (hi : i ≠ 44) : Function.update s.buf (s.ext + 2 + 2)
          (s.buf (s.ext + 2 + 2) ||| rplHdrOptRankErr) i = s.buf i := by
        rw [hExt]
        exact Function.update_of_ne hi _ _
      rw [optionsStep, hOption, hOutcome] at hVisits'
      obtain ⟨t, hEnd, hBuf, hExtEnd, hDone⟩ := visits_of_addresses hVisits' rfl
        ((hOther s.ext (by rw [hExt]; decide)).trans hNext)
      have hMarked : t.buf = Function.update s.buf 44 (s.buf 44 ||| rplHdrOptRankErr) := by
        rw [hBuf]
        show Function.update s.buf (s.ext + 2 + 2) (s.buf (s.ext + 2 + 2) ||| rplHdrOptRankErr) = _
        rw [hExt]
      refine ⟨t, hEnd, hMarked, ?_, ?_⟩
      · refine hExtEnd.trans ?_
        show (s.uipExtLen + ((Function.update s.buf (s.ext + 2 + 2)
          (s.buf (s.ext + 2 + 2) ||| rplHdrOptRankErr) (s.ext + 1)).toNat * 8 + 8)) % 256 = _
        rw [hOther (s.ext + 1) (by rw [hExt]; decide), hBehind]
      · rw [← hMarked, hDone, hBuf]
  | discard =>
      rw [optionsStep, hOption, hOutcome] at hVisits'
      exact ⟨_, hVisits', Or.inl rfl⟩
  | error =>
      rw [optionsStep, hOption, hOutcome] at hVisits'
      exact ⟨_, hVisits', Or.inr rfl⟩

end Walk

section Steps

variable {c : Contents} {ext : Nat} {ttl : Byte} {p q : Packet} {ip : IpState} {node : RplNode}

theorem verified_of_ne {buf buf' : Nat → Byte} (h : verified ip buf = some buf') {i : Nat}
    (hi : i ≠ 44) : buf' i = buf i := by
  unfold verified at h
  split at h
  · obtain rfl := Option.some.inj h
    rfl
  · obtain rfl := Option.some.inj h
    exact Function.update_of_ne hi _ _
  · cases h

theorem destipaddr_congr {buf buf' : Nat → Byte} (h : ∀ i, 24 ≤ i → i < 40 → buf' i = buf i) :
    destipaddr buf' = destipaddr buf := by
  refine List.map_congr_left fun i hi => ?_
  rw [List.mem_range] at hi
  exact h (24 + i) (by omega) (by omega)

/-- The walk over such a packet ends at the UDP header or with a packet for another node, and
leaves it as it is, apart from a mark in the option. -/
theorem Carries.walk_end (h : Carries c ext ttl p) {s : HeaderWalk} {r : WalkEnd}
    (hVisits : Visits ip p.buf s) (hPoint : s.point = .done r)
    (hTaken : r = .udpInput ∨ r = .notForMe) :
    s.uipExtLen = ext ∧ r = addressed ip p.buf ∧
      (ext = 0 ∧ s.buf = p.buf ∨ ext = rplHopByHopLen ∧ verified ip p.buf = some s.buf) := by
  have hNoStep (t : HeaderWalk) (r : WalkEnd) (hDone : t.point = .done r) :
      t.step ip () = none := by simp only [HeaderWalk.step, hDone]
  rcases h.headers with ⟨rfl, hProto⟩ | ⟨rfl, hOption⟩
  · obtain ⟨t, hVisits', hBuf, hExtLen, hDone⟩ := @visits_of_udp ip _ hProto
    obtain rfl := hVisits.eq_of_end (hNoStep s r hPoint) hVisits' (hNoStep t _ hDone)
    exact ⟨hExtLen, WalkPoint.done.inj (hPoint.symm.trans hDone), Or.inl ⟨rfl, hBuf⟩⟩
  · obtain ⟨t, hVisits', hEnd⟩ := @visits_of_option ip _ hOption
    cases hVerified : verified ip p.buf with
    | none =>
        rw [hVerified] at hEnd
        have hDropped (r' : WalkEnd) (hDone : t.point = .done r') : r = r' := by
          obtain rfl := hVisits.eq_of_end (hNoStep s r hPoint) hVisits' (hNoStep t r' hDone)
          exact WalkPoint.done.inj (hPoint.symm.trans hDone)
        rcases hEnd with hDone | hDone
        · rw [hDropped _ hDone] at hTaken
          rcases hTaken with hTaken | hTaken <;> cases hTaken
        · rw [hDropped _ hDone] at hTaken
          rcases hTaken with hTaken | hTaken <;> cases hTaken
    | some buf' =>
        rw [hVerified] at hEnd
        obtain ⟨hBuf, hExtLen, hDone⟩ := hEnd
        obtain rfl := hVisits.eq_of_end (hNoStep s r hPoint) hVisits' (hNoStep t _ hDone)
        have hAddress : destipaddr buf' = destipaddr p.buf :=
          destipaddr_congr fun i _ hi => verified_of_ne hVerified (by omega)
        refine ⟨hExtLen, ?_, Or.inr ⟨rfl, by rw [hBuf]⟩⟩
        rw [WalkPoint.done.inj (hPoint.symm.trans hDone), addressed, hAddress]
        rfl

/-- What the node has then. -/
theorem Carries.walked (h : Carries c ext ttl p) {s : HeaderWalk}
    (hBuf : ext = 0 ∧ s.buf = p.buf ∨ ext = rplHopByHopLen ∧ verified ip p.buf = some s.buf) :
    Carries c ext ttl (packetAt p.uipLen s) := by
  have hPlaces (i : Nat) (hi : i < 44 ∨ 48 ≤ i ∨ ext = 0) : s.buf i = p.buf i := by
    rcases hBuf with ⟨-, hBuf⟩ | ⟨rfl, hBuf⟩
    · exact congrFun hBuf i
    · refine verified_of_ne hBuf ?_
      rintro rfl
      simp only [rplHopByHopLen] at hi
      omega
  exact h.of_eq rfl ((hPlaces 7 (Or.inl (by decide))).trans h.ttl) fun i _ _ => hPlaces i

theorem forwardPacket_eq (h : forwardPacket p = some q) :
    1 < p.buf 7 ∧ q = { p with buf := Function.update p.buf 7 (p.buf 7 - 1) } := by
  unfold forwardPacket at h
  split_ifs at h with _ _ hTtl
  exact ⟨UInt8.not_le.mp hTtl, (Option.some.inj h).symm⟩

theorem Carries.forward (h : Carries c ext ttl p) (hForward : forwardPacket p = some q) :
    1 < ttl ∧ Carries c ext (ttl - 1) q := by
  obtain ⟨hTtl, rfl⟩ := forwardPacket_eq hForward
  rw [h.ttl] at hTtl
  refine ⟨hTtl, h.of_eq rfl ?_ fun i _ hi _ => Function.update_of_ne hi _ _⟩
  show Function.update p.buf 7 (p.buf 7 - 1) 7 = _
  rw [Function.update_self, h.ttl]

/-- What `update_hbh_header` does to a packet with an option. -/
theorem updateHbhHeader_of_option (hOption : HasOption p.buf) (h : updateHbhHeader node p = some q) :
    ∃ i flags, node.ip.rplGetInstance (p.buf 45) = some i ∧ i.joined = true ∧
      updateFlags (node.routed (destipaddr p.buf)) (p.buf 44) = some flags ∧
      q = { p with buf := Function.update (putU16 46 i.rank p.buf) 44 flags } := by
  have hWrong : ¬ (p.buf 41 ≠ 0 ∨ p.buf 43 ≠ rplHdrOptLen) := by
    rw [hOption.len, hOption.optLen]
    decide
  rw [updateHbhHeader, if_pos ⟨hOption.proto, hOption.optType⟩, if_neg hWrong,
    Option.bind_eq_some_iff] at h
  obtain ⟨i, hInstance, h⟩ := h
  by_cases hJoined : i.joined = true
  · rw [if_pos hJoined, Option.map_eq_some_iff] at h
    obtain ⟨flags, hFlags, rfl⟩ := h
    exact ⟨i, flags, hInstance, hJoined, hFlags, rfl⟩
  · rw [if_neg hJoined] at h
    cases h

/-- It writes the flags and the rank, and no other place. -/
theorem optionBuf_of_ne {buf : Nat → Byte} {rank : Nat} {flags : Byte} {i : Nat} (h44 : i ≠ 44)
    (h46 : i ≠ 46) (h47 : i ≠ 47) : Function.update (putU16 46 rank buf) 44 flags i = buf i := by
  rw [Function.update_of_ne h44, putU16, Function.update_of_ne h47, Function.update_of_ne h46]

/-- A packet without an option stays as it is. -/
theorem updateHbhHeader_of_udp (hProto : p.buf 6 = uipProtoUdp) :
    updateHbhHeader node p = some p := by
  rw [updateHbhHeader, if_neg]
  rw [hProto]
  exact fun h => absurd h.1 (by decide)

theorem Carries.update (h : Carries c ext ttl p) (hUpdate : updateHbhHeader node p = some q) :
    Carries c ext ttl q := by
  rcases h.headers with ⟨rfl, hProto⟩ | ⟨rfl, hOption⟩
  · rw [updateHbhHeader_of_udp hProto] at hUpdate
    obtain rfl := Option.some.inj hUpdate
    exact h
  · obtain ⟨i, flags, -, -, -, rfl⟩ := updateHbhHeader_of_option hOption hUpdate
    refine h.of_eq rfl ?_ fun i _ _ hPlace => ?_
    · show Function.update (putU16 46 i.rank p.buf) 44 flags 7 = ttl
      rw [optionBuf_of_ne (by decide) (by decide) (by decide), h.ttl]
    · simp only [rplHopByHopLen] at hPlace
      exact optionBuf_of_ne (by omega) (by omega) (by omega)

theorem putBytes_of_ge {place : Nat} {bytes : List Byte} {buf : Nat → Byte} {i : Nat}
    (hi : i < place ∨ place + bytes.length ≤ i) : putBytes place bytes buf i = buf i := by
  rw [putBytes, if_neg]
  omega

theorem putBytes_add {place : Nat} {bytes : List Byte} {buf : Nat → Byte} {i : Nat}
    (hi : i < bytes.length) : putBytes place bytes buf (place + i) = bytes.getD i 0 := by
  rw [putBytes, if_pos ⟨Nat.le_add_right _ _, Nat.add_lt_add_left hi _⟩, Nat.add_sub_cancel_left]

section Inserted

variable (i : DefaultInstance)

theorem withOption_buf : (withOption i p).buf =
    (addLen 8 <| putBytes 40 (hbhHeader (p.buf 6) i.instanceId i.rank) <|
      Function.update (fun j => if 48 ≤ j ∧ j < p.uipLen + 8 then p.buf (j - 8) else p.buf j)
        6 uipProtoHbho) := rfl

theorem withOption_front {j : Nat} (h4 : j ≠ 4) (h5 : j ≠ 5) (h6 : j ≠ 6) (hj : j < 40) :
    (withOption i p).buf j = p.buf j := by
  rw [withOption_buf, addLen, Function.update_of_ne h4, Function.update_of_ne h5,
    putBytes_of_ge (Or.inl hj), Function.update_of_ne h6, if_neg (by omega)]

theorem withOption_header {j : Nat} (hj : j < 8) :
    (withOption i p).buf (40 + j) = (hbhHeader (p.buf 6) i.instanceId i.rank).getD j 0 := by
  rw [withOption_buf, addLen, Function.update_of_ne (by omega), Function.update_of_ne (by omega),
    putBytes_add hj]

theorem withOption_moved {j : Nat} (hj : 40 + j < p.uipLen) :
    (withOption i p).buf (48 + j) = p.buf (40 + j) := by
  have hBack : 48 + j - 8 = 40 + j := by omega
  rw [withOption_buf, addLen, Function.update_of_ne (by omega), Function.update_of_ne (by omega),
    putBytes_of_ge (Or.inr (show 40 + 8 ≤ 48 + j by omega)), Function.update_of_ne (by omega),
    if_pos (by omega), hBack]

theorem withOption_proto : (withOption i p).buf 6 = uipProtoHbho := by
  rw [withOption_buf, addLen, Function.update_of_ne (by decide), Function.update_of_ne (by decide),
    putBytes_of_ge (Or.inl (by decide)), Function.update_self]

theorem declaredLen_addLen {buf : Nat → Byte} {n : Byte}
    (hSmall : declaredLen buf + n.toNat < 65536) :
    declaredLen (addLen n buf) = declaredLen buf + n.toNat := by
  have hHigh := (buf 4).toNat_lt
  have hLow := (buf 5).toNat_lt
  have hn := n.toNat_lt
  unfold declaredLen at *
  rw [addLen, Function.update_self, Function.update_of_ne (by decide), Function.update_self]
  by_cases hCarry : buf 5 + n < buf 5
  · rw [if_pos hCarry]
    rw [UInt8.lt_iff_toNat_lt, UInt8.toNat_add] at hCarry
    rw [UInt8.toNat_add, UInt8.toNat_add]
    show ((buf 4).toNat + 1) % 256 * 256 + _ = _
    omega
  · rw [if_neg hCarry]
    rw [UInt8.lt_iff_toNat_lt, UInt8.toNat_add] at hCarry
    rw [UInt8.toNat_add]
    omega

theorem declaredLen_withOption (hSmall : declaredLen p.buf < 65528) :
    declaredLen (withOption i p).buf = declaredLen p.buf + 8 := by
  have hFront : declaredLen (putBytes 40 (hbhHeader (p.buf 6) i.instanceId i.rank)
      (Function.update (fun j => if 48 ≤ j ∧ j < p.uipLen + 8 then p.buf (j - 8) else p.buf j)
        6 uipProtoHbho)) = declaredLen p.buf := by
    unfold declaredLen
    rw [putBytes_of_ge (Or.inl (by decide)), putBytes_of_ge (Or.inl (by decide)),
      Function.update_of_ne (by decide), Function.update_of_ne (by decide)]
    rfl
  have hEight : (8 : Byte).toNat = 8 := rfl
  rw [← hFront] at hSmall ⊢
  exact declaredLen_addLen (by omega)

end Inserted

theorem Carries.withOption (h : Carries c 0 ttl p) (i : DefaultInstance)
    (hSize : p.uipLen + rplHopByHopLen ≤ uipBufsize) :
    Carries c rplHopByHopLen ttl (withOption i p) := by
  have hProto := h.proto
  obtain ⟨-, hUipLen, -, hUdplen, hVersion, hDeclared, hTtl, hAddresses, hUpper⟩ := h
  simp only [uipIphLen, rplHopByHopLen, uipBufsize, Nat.zero_add, Nat.add_zero] at *
  constructor
  · refine Or.inr ⟨rfl, withOption_proto i, ?_, ?_, ?_, ?_⟩
    · exact (withOption_header i (by decide : 0 < 8)).trans hProto
    · exact withOption_header i (by decide : 1 < 8)
    · exact withOption_header i (by decide : 2 < 8)
    · exact withOption_header i (by decide : 3 < 8)
  · show p.uipLen + 8 = 40 + 8 + c.udplen
    omega
  · exact hSize
  · exact hUdplen
  · rw [withOption_front i (by decide) (by decide) (by decide) (by decide), hVersion]
  · rw [declaredLen_withOption i (by omega), hDeclared, Nat.add_comm]
  · rw [withOption_front i (by decide) (by decide) (by decide) (by decide), hTtl]
  · intro j hj
    rw [withOption_front i (by omega) (by omega) (by omega) (by omega), hAddresses j hj]
  · intro j hj
    rw [← hUpper j hj]
    exact withOption_moved i (by omega)

theorem Carries.insert (h : Carries c 0 ttl p) {i : DefaultInstance}
    (hInsert : insertHbhHeader node i p = some q) : Carries c rplHopByHopLen ttl q := by
  unfold insertHbhHeader at hInsert
  split_ifs at hInsert with hSize
  exact (h.withOption i (Nat.not_lt.mp hSize)).update hInsert

section Removed

theorem declaredLen_subLen {buf : Nat → Byte} {n : Byte} (hRoom : n.toNat ≤ declaredLen buf) :
    declaredLen (subLen n buf) = declaredLen buf - n.toNat := by
  have hHigh := (buf 4).toNat_lt
  have hLow := (buf 5).toNat_lt
  have hn := n.toNat_lt
  unfold declaredLen at *
  rw [subLen, Function.update_self, Function.update_of_ne (by decide), Function.update_self]
  by_cases hBorrow : buf 5 < buf 5 - n
  · rw [if_pos hBorrow]
    rw [UInt8.lt_iff_toNat_lt, UInt8.toNat_sub] at hBorrow
    rw [UInt8.toNat_sub, UInt8.toNat_sub]
    show (2 ^ 8 - 1 + (buf 4).toNat) % 2 ^ 8 * 256 + _ = _
    omega
  · rw [if_neg hBorrow]
    rw [UInt8.lt_iff_toNat_lt, UInt8.toNat_sub] at hBorrow
    rw [UInt8.toNat_sub]
    omega

theorem HasOption.rplExtHdrLen (h : HasOption p.buf) : rplExtHdrLen p.buf = rplHopByHopLen := by
  rw [Uip.rplExtHdrLen, h.len]
  rfl

theorem removeFirst_buf (hOption : HasOption p.buf) (hLen : 48 ≤ p.uipLen) (hMost : p.uipLen ≤ 900) :
    (removeFirst p).buf = fun j => if 40 ≤ j ∧ j < p.uipLen - 8 then p.buf (j + 8)
      else subLen 8 (Function.update p.buf 6 (p.buf 40)) j := by
  have hRest : (p.uipLen + 65536 - 8) % 65536 = p.uipLen - 8 := by omega
  simp only [removeFirst, hOption.rplExtHdrLen, rplHopByHopLen, hRest]
  rfl

theorem removeFirst_front (hOption : HasOption p.buf) (hLen : 48 ≤ p.uipLen) (hMost : p.uipLen ≤ 900)
    {j : Nat} (h4 : j ≠ 4) (h5 : j ≠ 5) (h6 : j ≠ 6) (hj : j < 40) :
    (removeFirst p).buf j = p.buf j := by
  rw [removeFirst_buf hOption hLen hMost]
  dsimp only
  rw [if_neg (by omega), subLen, Function.update_of_ne h4, Function.update_of_ne h5,
    Function.update_of_ne h6]

theorem Carries.removeFirst (h : Carries c rplHopByHopLen ttl p) :
    Carries c 0 ttl (removeFirst p) := by
  have hOption := h.hasOption
  obtain ⟨-, hUipLen, hSize, hUdplen, hVersion, hDeclared, hTtl, hAddresses, hUpper⟩ := h
  simp only [uipIphLen, rplHopByHopLen, uipBufsize] at *
  have hLen : 48 ≤ p.uipLen := by omega
  have hBuf := removeFirst_buf hOption hLen hSize
  have hRest : (Uip.removeFirst p).uipLen = p.uipLen - 8 := by
    show (p.uipLen + 65536 - rplExtHdrLen p.buf) % 65536 = _
    rw [hOption.rplExtHdrLen]
    simp only [rplHopByHopLen]
    omega
  constructor
  · refine Or.inl ⟨rfl, ?_⟩
    rw [hBuf, ← hOption.next]
    rfl
  · rw [hRest, hUipLen]
    show _ = 40 + 0 + c.udplen
    omega
  · rw [hRest]
    show _ ≤ 900
    omega
  · exact hUdplen
  · rw [removeFirst_front hOption hLen hSize (by decide) (by decide) (by decide) (by decide),
      hVersion]
  · have hFront : declaredLen (Function.update p.buf 6 (p.buf 40)) = declaredLen p.buf := rfl
    have hShorter : declaredLen (Uip.removeFirst p).buf =
        declaredLen (subLen 8 (Function.update p.buf 6 (p.buf 40))) := by
      rw [hBuf]
      rfl
    have hEight : (8 : Byte).toNat = 8 := rfl
    rw [hShorter, declaredLen_subLen (by omega), hFront]
    omega
  · rw [removeFirst_front hOption hLen hSize (by decide) (by decide) (by decide) (by decide), hTtl]
  · intro j hj
    rw [removeFirst_front hOption hLen hSize (by omega) (by omega) (by omega) (by omega),
      hAddresses j hj]
  · intro j hj
    have hBehind : 40 + 0 + j + 8 = 40 + 8 + j := by omega
    rw [hBuf]
    simp only [uipIphLen]
    rw [if_pos (by omega), hBehind, hUpper j hj]

/-- A packet without further headers is left as it is. -/
theorem rplRemoveHeader_of_udp {rounds : Nat} (hProto : p.buf 6 = uipProtoUdp)
    (hRemove : rplRemoveHeader rounds p = some q) : q = { p with uipExtLen := 0 } := by
  cases rounds with
  | zero => cases hRemove
  | succ rounds =>
      rw [rplRemoveHeader, hProto, if_neg (by decide), if_neg (by decide)] at hRemove
      exact (Option.some.inj hRemove).symm

theorem Carries.remove (h : Carries c ext ttl p) {rounds : Nat}
    (hRemove : rplRemoveHeader rounds p = some q) : Carries c 0 ttl q := by
  have hUdp {p q : Packet} {rounds : Nat} (h : Carries c 0 ttl p)
      (hRemove : rplRemoveHeader rounds p = some q) : Carries c 0 ttl q := by
    obtain rfl := rplRemoveHeader_of_udp h.proto hRemove
    exact h.of_eq rfl h.ttl fun _ _ _ _ => rfl
  rcases h.headers with ⟨rfl, -⟩ | ⟨rfl, hOption⟩
  · exact hUdp h hRemove
  · cases rounds with
    | zero => cases hRemove
    | succ rounds =>
        rw [rplRemoveHeader, if_pos (Or.inl hOption.proto)] at hRemove
        split_ifs at hRemove
        exact hUdp h.removeFirst hRemove

end Removed

/-- The option is put in where it is not there yet: at the sender, whose hop limit the packet
still has. -/
theorem Carries.updateHeader (h : Carries c ext ttl p) {rounds : Nat}
    (hFirst : node.isMyUnicast (srcipaddr p.buf) = true → p.buf 7 = node.curHopLimit → ext = 0)
    (hUpdate : rplUpdateHeader rounds node p = some q) : ∃ ext', Carries c ext' ttl q := by
  unfold rplUpdateHeader at hUpdate
  cases hDefault : node.defaultInstance with
  | none =>
      rw [hDefault] at hUpdate
      obtain rfl := Option.some.inj hUpdate
      exact ⟨ext, h⟩
  | some i =>
      rw [hDefault] at hUpdate
      dsimp only at hUpdate
      split_ifs at hUpdate with _ _ hSender
      · obtain rfl := Option.some.inj hUpdate
        exact ⟨ext, h⟩
      · rw [Option.bind_eq_some_iff] at hUpdate
        obtain ⟨r, hRemove, hInsert⟩ := hUpdate
        exact ⟨_, (h.remove hRemove).insert hInsert⟩
      · obtain rfl := hFirst hSender.1 hSender.2
        exact ⟨_, h.insert hUpdate⟩
      · exact ⟨ext, h.update hUpdate⟩

end Steps

end Smarthome.Uip
