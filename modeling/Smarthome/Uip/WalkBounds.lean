import Smarthome.Uip.HeaderWalk

/-! That the walk over the headers ends, and that it reads nothing behind the packet: of packets
whose headers lie inside them and whose options do not carry the 8-bit offset past 255. -/
namespace Smarthome.Uip

open Semantics

/-- The header that the walk stands at ends inside the first `n` bytes. -/
def HeaderInside (n : Nat) (buf : Nat → Byte) (ext : Nat) : Prop :=
  ext + ((buf (ext + 1)).toNat * 8 + 8) ≤ n

/-- The option that begins here, if one does. One that is skipped has its length inside the
packet and ends at an offset of 8 bits; the six bytes of an RPL option are inside the packet. -/
structure OptionFits (n : Nat) (buf : Nat → Byte) (ext offset : Nat) : Prop where
  pad1 : buf (ext + offset) = uipExtHdrOptPad1 → offset + 1 < 256
  skipped : buf (ext + offset) ≠ uipExtHdrOptPad1 → buf (ext + offset) &&& 0xC0 = 0 →
    ext + offset + 2 ≤ n ∧ offset + (buf (ext + offset + 1)).toNat + 2 < 256
  rpl : buf (ext + offset) = uipExtHdrOptRpl → ext + offset + 6 ≤ n

section Option

variable {ip : IpState} {n ext offset : Nat} {buf : Nat → Byte}

theorem rplVerifyHbhHeader_inBounds {opt : Nat} (hLen : ext + 1 < n) (hOption : opt + 6 ≤ n) :
    (rplVerifyHbhHeader ip ext opt).InBounds buf n := by
  unfold rplVerifyHbhHeader
  simp only [Reads.inBounds_bind, Reads.inBounds_read, Reads.inBounds_ite, Reads.inBounds_pure]
  refine ⟨hLen, by omega, fun _ => trivial, fun _ => ⟨by omega, ?_⟩⟩
  simp only [Reads.value_read]
  cases ip.rplGetInstance (buf (opt + 3)) with
  | none => exact (Reads.inBounds_pure buf n _).mpr trivial
  | some rplInstance =>
      simp only [Reads.inBounds_bind, Reads.inBounds_read, Reads.inBounds_ite,
        Reads.inBounds_pure]
      exact ⟨by omega, fun _ => trivial, fun _ => ⟨by omega, by omega, fun _ => trivial,
        fun _ => ⟨fun _ => trivial, fun _ => trivial⟩⟩⟩

/-- A round of the loop reads inside the packet. -/
theorem extHdrOption_inBounds (ip : IpState) (hHeader : uipIphLen ≤ n) (hInside : HeaderInside n buf ext)
    (hFits : offset < (buf (ext + 1)).toNat * 8 + 8 → OptionFits n buf ext offset) :
    (extHdrOption ip ext offset).InBounds buf n := by
  unfold HeaderInside at hInside
  have hLen : ext + 1 < n := by omega
  simp only [extHdrOption, skipOption, Reads.inBounds_bind, Reads.inBounds_read,
    Reads.inBounds_ite, Reads.inBounds_pure]
  simp only [Reads.value_read]
  refine ⟨hLen, fun hMore => ?_, fun _ => trivial⟩
  obtain ⟨-, hSkipped, hRpl⟩ := hFits hMore
  refine ⟨by omega, fun _ => trivial, fun hPad1 => ⟨fun hPadn => ?_, fun _ => ⟨fun hType => ?_,
    fun _ => ⟨fun hTop => ?_, fun _ => ⟨fun _ => trivial, fun _ => ⟨fun _ => ?_,
      fun _ => trivial⟩⟩⟩⟩⟩⟩
  · have hTop : buf (ext + offset) &&& 0xC0 = 0 := by rw [hPadn]; decide
    exact ⟨by have := (hSkipped hPad1 hTop).1; omega, trivial⟩
  · exact rplVerifyHbhHeader_inBounds hLen (hRpl hType)
  · exact ⟨by have := (hSkipped hPad1 hTop).1; omega, trivial⟩
  · exact ⟨by simp only [uipIphLen] at hHeader; omega, trivial⟩

theorem rplVerifyHbhHeader_ne_next {opt offset' : Nat} :
    (rplVerifyHbhHeader ip ext opt).value buf ≠ .next offset' := by
  simp only [rplVerifyHbhHeader, Reads.value_bind, Reads.value_ite, Reads.value_pure]
  split_ifs
  · exact OptionOutcome.noConfusion
  · cases ip.rplGetInstance ((Reads.read (opt + 3)).value buf) with
    | none => exact OptionOutcome.noConfusion
    | some rplInstance =>
        simp only [Reads.value_bind, Reads.value_ite, Reads.value_pure]
        split_ifs <;> exact OptionOutcome.noConfusion

/-- What a round of the loop leads to. -/
theorem extHdrOption_value : (extHdrOption ip ext offset).value buf =
    if offset < (buf (ext + 1)).toNat * 8 + 8 then
      if buf (ext + offset) = uipExtHdrOptPad1 then .next ((offset + 1) % 256)
      else if buf (ext + offset) = uipExtHdrOptPadn then
        .next ((offset + (buf (ext + offset + 1)).toNat + 2) % 256)
      else if buf (ext + offset) = uipExtHdrOptRpl then
        (rplVerifyHbhHeader ip ext (ext + offset)).value buf
      else if buf (ext + offset) &&& 0xC0 = 0 then
        .next ((offset + (buf (ext + offset + 1)).toNat + 2) % 256)
      else if buf (ext + offset) &&& 0xC0 = 0x40 then .discard
      else if buf (ext + offset) &&& 0xC0 = 0xC0 then
        if IsAddrMcast (buf 24) then .discard else .error
      else .error
    else .accept := by
  simp only [extHdrOption, skipOption, Reads.value_bind, Reads.value_ite, Reads.value_pure]
  rfl

/-- The walk over the options goes on behind the option. -/
theorem extHdrOption_next {offset' : Nat}
    (hFits : offset < (buf (ext + 1)).toNat * 8 + 8 → OptionFits n buf ext offset)
    (hNext : (extHdrOption ip ext offset).value buf = .next offset') :
    offset < offset' ∧ offset' < 256 := by
  rw [extHdrOption_value] at hNext
  split_ifs at hNext with hMore hPad1 hPadn hType hTop
  · have hEnd := (hFits hMore).pad1 hPad1
    obtain rfl := OptionOutcome.next.inj hNext
    omega
  · have hTop : buf (ext + offset) &&& 0xC0 = 0 := by rw [hPadn]; decide
    have hEnd := ((hFits hMore).skipped hPad1 hTop).2
    obtain rfl := OptionOutcome.next.inj hNext
    omega
  · exact absurd hNext rplVerifyHbhHeader_ne_next
  · have hEnd := ((hFits hMore).skipped hPad1 hTop).2
    obtain rfl := OptionOutcome.next.inj hNext
    omega

end Option

namespace HeaderWalk

/-- What is at the place where the walk stands does not lead it out of the packet. -/
def Fits (n : Nat) (s : HeaderWalk) : Prop :=
  match s.point with
  | .options offset _ => HeaderInside n s.buf s.ext ∧
      (offset < (s.buf (s.ext + 1)).toNat * 8 + 8 → OptionFits n s.buf s.ext offset)
  | .loop => s.buf s.uipNextHdr = uipProtoRouting → s.uipExtBitmap.routing = false →
      HeaderInside n s.buf s.ext
  | _ => True

instance (n : Nat) (buf : Nat → Byte) (ext : Nat) : Decidable (HeaderInside n buf ext) :=
  inferInstanceAs (Decidable (_ ≤ n))

instance (n : Nat) (buf : Nat → Byte) (ext offset : Nat) :
    Decidable (OptionFits n buf ext offset) :=
  decidable_of_iff ((buf (ext + offset) = uipExtHdrOptPad1 → offset + 1 < 256) ∧
      (buf (ext + offset) ≠ uipExtHdrOptPad1 → buf (ext + offset) &&& 0xC0 = 0 →
        ext + offset + 2 ≤ n ∧ offset + (buf (ext + offset + 1)).toNat + 2 < 256) ∧
      (buf (ext + offset) = uipExtHdrOptRpl → ext + offset + 6 ≤ n))
    ⟨fun h => ⟨h.1, h.2.1, h.2.2⟩, fun h => ⟨h.pad1, h.skipped, h.rpl⟩⟩

instance (n : Nat) (s : HeaderWalk) : Decidable (Fits n s) :=
  match s with
  | ⟨_, _, _, _, .hopByHop, _⟩ => isTrue trivial
  | ⟨buf, _, uipExtLen, _, .options offset _, _⟩ =>
      inferInstanceAs (Decidable (HeaderInside n buf (uipIphLen + uipExtLen) ∧
        (offset < (buf (uipIphLen + uipExtLen + 1)).toNat * 8 + 8 →
          OptionFits n buf (uipIphLen + uipExtLen) offset)))
  | ⟨_, _, _, _, .addresses, _⟩ => isTrue trivial
  | ⟨buf, uipNextHdr, uipExtLen, uipExtBitmap, .loop, _⟩ =>
      inferInstanceAs (Decidable (buf uipNextHdr = uipProtoRouting →
        uipExtBitmap.routing = false → HeaderInside n buf (uipIphLen + uipExtLen)))
  | ⟨_, _, _, _, .done _, _⟩ => isTrue trivial

/-- The headers that the bitmap still allows. -/
def left (bitmap : ExtBitmap) : Nat :=
  (!bitmap.hbho).toNat + (!bitmap.desto1).toNat + (!bitmap.desto2).toNat + (!bitmap.routing).toNat

/-- What becomes less with every step. The offset of an option that fits is below 256. -/
def size (s : HeaderWalk) : Nat :=
  left s.uipExtBitmap * 1024 + match s.point with
    | .hopByHop => 500
    | .options offset _ => 3 + (256 - offset)
    | .addresses => 2
    | .loop => 1
    | .done _ => 0

theorem left_lt (bitmap : ExtBitmap) :
    (bitmap.hbho ≠ true → left { bitmap with hbho := true } < left bitmap) ∧
    (bitmap.desto1 ≠ true → left { bitmap with desto1 := true } < left bitmap) ∧
    (bitmap.desto2 ≠ true → left { bitmap with desto2 := true } < left bitmap) ∧
    (bitmap.routing ≠ true → left { bitmap with routing := true } < left bitmap) := by
  simp only [left]
  exact ⟨fun h => by simp [h], fun h => by simp [h], fun h => by simp [h], fun h => by simp [h]⟩

/-- All that was read is inside the packet, and the field of the next header is. -/
structure Inside (n : Nat) (s : HeaderWalk) : Prop where
  reads : ∀ i ∈ s.reads, i < n
  nextHdr : s.uipNextHdr < n

section Step

variable {ip : IpState} {n : Nat} {s : HeaderWalk}

theorem Inside.look (h : Inside n s) (indices : List Nat) (hIndices : ∀ i ∈ indices, i < n) :
    Inside n (s.look indices) where
  reads := List.forall_mem_append.mpr ⟨h.reads, hIndices⟩
  nextHdr := h.nextHdr

theorem Inside.goto (h : Inside n s) (point : WalkPoint) : Inside n (s.goto point) :=
  ⟨h.reads, h.nextHdr⟩

theorem Inside.skipHeader (h : Inside n s) (hExt : s.ext + 1 < n) (point : WalkPoint) :
    Inside n (s.skipHeader point) where
  reads := (h.look [s.ext + 1] (List.forall_mem_singleton.mpr hExt)).reads
  nextHdr := Nat.lt_of_succ_lt hExt

theorem hopByHopStep_spec (hHeader : uipIphLen ≤ n) (h : Inside n s)
    (hPoint : s.point = .hopByHop) : Inside n s.hopByHopStep ∧ s.hopByHopStep.size < s.size := by
  have hLook := h.look [6] (by simp only [uipIphLen] at hHeader; simp; omega)
  unfold hopByHopStep
  split_ifs
  · refine ⟨⟨hLook.reads, hLook.nextHdr⟩, ?_⟩
    simp only [size, left, hPoint, Bool.not_true, Bool.toNat_false]
    omega
  · refine ⟨hLook.goto _, ?_⟩
    simp [size, HeaderWalk.goto, HeaderWalk.look, hPoint]

theorem optionsStep_spec {offset : Nat} {inLoop : Bool} (hHeader : uipIphLen ≤ n)
    (h : Inside n s) (hPoint : s.point = .options offset inLoop) (hFits : Fits n s) :
    Inside n (s.optionsStep ip offset inLoop) ∧
      (s.optionsStep ip offset inLoop).size < s.size := by
  rw [Fits, hPoint] at hFits
  obtain ⟨hInside, hOption⟩ := hFits
  have hLook := h.look _ (extHdrOption_inBounds ip hHeader hInside hOption)
  have hExt : s.ext + 1 < n := by
    unfold HeaderInside at hInside
    omega
  have hSize : s.size = left s.uipExtBitmap * 1024 + (3 + (256 - offset)) := by
    rw [size, hPoint]
  unfold optionsStep
  cases hOutcome : (extHdrOption ip s.ext offset).value s.buf with
  | next offset' =>
      obtain ⟨hLess, hSmall⟩ := extHdrOption_next hOption hOutcome
      refine ⟨hLook.goto _, ?_⟩
      rw [hSize]
      simp only [endOptions, size, HeaderWalk.goto, HeaderWalk.look]
      omega
  | accept =>
      refine ⟨hLook.skipHeader hExt _, ?_⟩
      rw [hSize]
      cases inLoop with
      | true => exact Nat.add_lt_add_left (by omega : 1 < 3 + (256 - offset)) _
      | false => exact Nat.add_lt_add_left (by omega : 2 < 3 + (256 - offset)) _
  | acceptRankErr =>
      have hMarked : Inside n ((s.look ((extHdrOption ip s.ext offset).indices s.buf)).setRankErr
          (s.ext + offset)) := ⟨hLook.reads, hLook.nextHdr⟩
      refine ⟨hMarked.skipHeader hExt _, ?_⟩
      rw [hSize]
      cases inLoop with
      | true => exact Nat.add_lt_add_left (by omega : 1 < 3 + (256 - offset)) _
      | false => exact Nat.add_lt_add_left (by omega : 2 < 3 + (256 - offset)) _
  | discard =>
      refine ⟨hLook.goto _, ?_⟩
      rw [hSize]
      exact Nat.add_lt_add_left (by omega : 0 < 3 + (256 - offset)) _
  | error =>
      refine ⟨hLook.goto _, ?_⟩
      rw [hSize]
      exact Nat.add_lt_add_left (by omega : 0 < 3 + (256 - offset)) _

theorem addressesStep_spec (hHeader : uipIphLen ≤ n) (h : Inside n s)
    (hPoint : s.point = .addresses) :
    Inside n (s.addressesStep ip) ∧ (s.addressesStep ip).size < s.size := by
  have hRead : (Reads.readRange 8 32 : Reads Byte (List Byte)).InBounds s.buf n :=
    (Reads.inBounds_readRange s.buf n 8 32).mpr (Or.inr hHeader)
  refine ⟨(h.look _ hRead).goto _, ?_⟩
  have hSize : s.size = left s.uipExtBitmap * 1024 + 2 := by rw [size, hPoint]
  rw [hSize, addressesStep]
  split_ifs
  · exact Nat.add_lt_add_left (by decide : 1 < 2) _
  · exact Nat.add_lt_add_left (by decide : 0 < 2) _

/-- A header in the loop uses up what the bitmap allows. -/
theorem loopStep_spec (h : Inside n s) (hPoint : s.point = .loop) (hFits : Fits n s) :
    Inside n s.loopStep ∧ s.loopStep.size < s.size := by
  have hLook := h.look [s.uipNextHdr] (List.forall_mem_singleton.mpr h.nextHdr)
  have hSize : s.size = left s.uipExtBitmap * 1024 + 1 := by rw [size, hPoint]
  have hDone (result : WalkEnd) : Inside n ((s.look [s.uipNextHdr]).goto (.done result)) ∧
      ((s.look [s.uipNextHdr]).goto (.done result)).size < s.size := by
    refine ⟨hLook.goto _, ?_⟩
    rw [hSize]
    exact Nat.add_lt_add_left (by decide : 0 < 1) _
  have hOptions (bitmap : ExtBitmap) (hLeft : left bitmap < left s.uipExtBitmap) :
      Inside n { s.look [s.uipNextHdr] with uipExtBitmap := bitmap, point := .options 2 true } ∧
        HeaderWalk.size { s.look [s.uipNextHdr] with
          uipExtBitmap := bitmap, point := .options 2 true } < s.size := by
    refine ⟨⟨hLook.reads, hLook.nextHdr⟩, ?_⟩
    rw [hSize]
    simp only [size]
    omega
  obtain ⟨hLeftHbho, hLeftDesto1, hLeftDesto2, hLeftRouting⟩ := left_lt s.uipExtBitmap
  have hRoutingInside (hType : s.buf s.uipNextHdr = uipProtoRouting)
      (hOnce : s.uipExtBitmap.routing ≠ true) : s.ext + 3 < n := by
    rw [Fits, hPoint] at hFits
    have hInside := hFits hType (Bool.eq_false_iff.mpr hOnce)
    unfold HeaderInside at hInside
    omega
  simp only [loopStep, destoStep, routingStep]
  split_ifs with hUdp hIcmp6 hHbho hSeen hDesto hFirst hSecond hRouting hOnce hLeft hFragNone
  · exact hDone _
  · exact hDone _
  · exact hDone _
  · exact hOptions _ (hLeftHbho hSeen)
  · exact hDone _
  · exact hOptions _ (hLeftDesto2 hSecond)
  · exact hOptions _ (hLeftDesto1 hFirst)
  · exact hDone _
  · have hExt := hRoutingInside hRouting hOnce
    have hSegLeft := hLook.look [s.ext + 3] (List.forall_mem_singleton.mpr hExt)
    refine ⟨hSegLeft.goto _, ?_⟩
    rw [hSize]
    exact Nat.add_lt_add_left (by decide : 0 < 1) _
  · have hExt := hRoutingInside hRouting hOnce
    have hSegLeft := hLook.look [s.ext + 3] (List.forall_mem_singleton.mpr hExt)
    have hMarked : Inside n { (s.look [s.uipNextHdr]).look [s.ext + 3] with
        uipExtBitmap := { s.uipExtBitmap with routing := true } } :=
      ⟨hSegLeft.reads, hSegLeft.nextHdr⟩
    have hShort : s.ext + 1 < n := by omega
    refine ⟨hMarked.skipHeader hShort .loop, ?_⟩
    have hLess := hLeftRouting hOnce
    rw [hSize]
    show left _ * 1024 + 1 < _
    exact Nat.add_lt_add_right (Nat.mul_lt_mul_of_pos_right hLess (by decide)) 1
  · exact hDone _
  · exact hDone _

/-- A step from a place where all fits. -/
theorem step_spec {t : HeaderWalk} (hHeader : uipIphLen ≤ n) (h : Inside n s) (hFits : Fits n s)
    (hStep : s.step ip () = some t) : Inside n t ∧ t.size < s.size := by
  unfold HeaderWalk.step at hStep
  cases hPoint : s.point with
  | hopByHop =>
      rw [hPoint] at hStep
      obtain rfl := Option.some.inj hStep
      exact hopByHopStep_spec hHeader h hPoint
  | options offset inLoop =>
      rw [hPoint] at hStep
      obtain rfl := Option.some.inj hStep
      exact optionsStep_spec hHeader h hPoint hFits
  | addresses =>
      rw [hPoint] at hStep
      obtain rfl := Option.some.inj hStep
      exact addressesStep_spec hHeader h hPoint
  | loop =>
      rw [hPoint] at hStep
      obtain rfl := Option.some.inj hStep
      exact loopStep_spec h hPoint hFits
  | done result =>
      rw [hPoint] at hStep
      cases hStep

theorem done_of_step_eq_none (h : s.step ip () = none) : ∃ result, s.point = .done result := by
  unfold HeaderWalk.step at h
  cases hPoint : s.point with
  | done result => exact ⟨result, rfl⟩
  | hopByHop => simp [hPoint] at h
  | options offset inLoop => simp [hPoint] at h
  | addresses => simp [hPoint] at h
  | loop => simp [hPoint] at h

end Step

/-- The states of the walk over the headers of a packet. -/
def Visits (ip : IpState) (buf : Nat → Byte) (s : HeaderWalk) : Prop :=
  Reaches (step ip) (fun _ _ => True) (start buf) s

/-- The walk ends, and what it reads lies in the first `n` bytes. -/
def EndsInside (ip : IpState) (n : Nat) (buf : Nat → Byte) : Prop :=
  (∃ s, Visits ip buf s ∧ ∃ result, s.point = .done result) ∧
    ∀ s, Visits ip buf s → ∀ i ∈ s.reads, i < n

/-- **The processing of headers ends and stays inside the packet** if the IPv6 header is all
there, and if at every place that the walk comes to the header ends inside the packet and the
option fits. -/
theorem endsInside_of_fits (ip : IpState) {n : Nat} {buf : Nat → Byte} (hHeader : uipIphLen ≤ n)
    (hFits : ∀ s, Visits ip buf s → Fits n s) : EndsInside ip n buf := by
  have hStart : Inside n (start buf) :=
    ⟨fun i hi => absurd hi List.not_mem_nil, Nat.lt_of_lt_of_le (by decide : 6 < uipIphLen) hHeader⟩
  have hInside (s : HeaderWalk) (hVisits : Visits ip buf s) : Inside n s := by
    induction hVisits with
    | start => exact hStart
    | next run last _ ih => exact (step_spec hHeader ih (hFits _ run) last).1
  refine ⟨?_, fun s hVisits => (hInside s hVisits).reads⟩
  obtain ⟨s, hRun, hEnd⟩ := exists_end (Visits ip buf) size
    (fun s t hVisits hStep => ⟨Reaches.next hVisits hStep trivial,
      (step_spec hHeader (hInside s hVisits) (hFits s hVisits) hStep).2⟩) Reaches.start
  exact ⟨s, hRun, done_of_step_eq_none hEnd⟩

/-- A node that every packet is for, with one RPL instance. -/
def exampleIp : IpState where
  rplGetInstance number := if number = 30 then some ⟨true, 512⟩ else none
  isMyAddr _ := true

/-- Bytes at the places from 40 on, behind an IPv6 header with this next header. -/
def packetBuf (nextHeader : Byte) (bytes : List Byte) (i : Nat) : Byte :=
  if i = 6 then nextHeader else if i < 40 then 0 else bytes.getD (i - 40) 0

/-- A hop-by-hop header with an RPL option, and destination options that are padding. -/
def twoHeaders : Nat → Byte :=
  packetBuf uipProtoHbho [60, 0, 0x63, 4, 0x80, 30, 1, 0, 17, 0, 0, 0, 1, 2, 0, 0]

theorem endsInside_twoHeaders : uipIphLen ≤ 64 ∧ EndsInside exampleIp 64 twoHeaders :=
  ⟨by decide, endsInside_of_fits exampleIp (by decide) fun s hVisits =>
    have hAlong : Along (step exampleIp) (fun s _ => Fits 64 s) (start twoHeaders)
        (List.replicate 9 ()) := by decide +kernel
    forall_reaches_of_along hAlong (by decide +kernel) hVisits⟩

/-- Padding of 254 bytes, whose end is again at the offset 2. -/
def longPadding : Nat → Byte := packetBuf uipProtoHbho [17, 0, 1, 254, 0, 0, 0, 0]

/-- The walk over the options of `longPadding` does not get any further. -/
theorem longPadding_stays {s : HeaderWalk} (hVisits : Visits exampleIp longPadding s) :
    s.buf = longPadding ∧ s.ext = 40 ∧ (s.point = .hopByHop ∨ s.point = .options 2 false) := by
  induction hVisits with
  | start => exact ⟨rfl, rfl, Or.inl rfl⟩
  | @next s t label run last _ ih =>
      obtain ⟨hBuf, hExt, hHopByHop | hOptions⟩ := ih
      · have hFirst : s.buf 6 = uipProtoHbho := by rw [hBuf]; decide
        simp only [step, hHopByHop, hopByHopStep, if_pos hFirst] at last
        obtain rfl := Option.some.inj last
        exact ⟨hBuf, hExt, Or.inr rfl⟩
      · have hOutcome : (extHdrOption exampleIp 40 2).value longPadding = .next 2 := by
          decide +kernel
        simp only [step, hOptions, optionsStep, hBuf, hExt, hOutcome] at last
        obtain rfl := Option.some.inj last
        exact ⟨hBuf, hExt, Or.inr rfl⟩

/-- A packet of 48 bytes that is walked for ever. -/
theorem endsInside_fails : ¬ ∀ (ip : IpState) (n : Nat) (buf : Nat → Byte) (_ : uipIphLen ≤ n)
    (_ : n ≤ 900), EndsInside ip n buf := by
  intro h
  obtain ⟨⟨s, hVisits, result, hDone⟩, -⟩ :=
    h exampleIp 48 longPadding (by decide) (by decide)
  rcases (longPadding_stays hVisits).2.2 with hPoint | hPoint
  · rw [hDone] at hPoint
    cases hPoint
  · rw [hDone] at hPoint
    cases hPoint

end HeaderWalk

end Smarthome.Uip
