import Mathlib.Tactic.IntervalCases
import Smarthome.Lowpan.Iphc

/-! Uncompressing the headers that were compressed gives them back, unless bytes were left
out that the receiver cannot know. Each field is followed through both directions, in the
order of the inline bytes. -/
namespace Smarthome.Lowpan

open Semantics

/-- Facts about the bytes of a list are decided on the list, not on all bytes. -/
local instance (priority := 1100) decidableBytes {P : Byte → Prop} [DecidablePred P]
    (bytes : List Byte) : Decidable (∀ b ∈ bytes, P b) := List.decidableBAll P bytes

section Bits

theorem byte_forall {P : Byte → Prop} (h : ∀ n : Fin 256, P (UInt8.ofFin n)) (b : Byte) : P b :=
  h b.toFin

/-- A byte whose high half is known is one of sixteen. -/
theorem byte_of_high {high : Byte} (b : Byte) (hHigh : b &&& 0xF0 = high) :
    ∃ low : Fin 16, b = high ||| UInt8.ofNat low := by
  subst hHigh
  revert b
  refine byte_forall fun n => ⟨⟨n % 16, by omega⟩, ?_⟩
  revert n
  decide +kernel

/-- Its other half does not matter. -/
theorem byte_high (b : Byte) : ∃ high : Fin 16,
    b >>> 4 = UInt8.ofNat high ∧ b >>> 4 <<< 4 = b &&& (0xF0 : Byte) ∧
      (b &&& (0xF0 : Byte)) ||| (b &&& (0x0f : Byte)) = b := by
  revert b
  refine byte_forall fun n => ⟨⟨n / 16, by omega⟩, ?_⟩
  revert n
  decide +kernel

/-- What is made of the traffic class, with the flow label inline and without. -/
theorem ecnDscp_back (vtc : Byte) (hVersion : vtc &&& 0xF0 = version6) (tcflow : Byte) :
    version6 ||| (ecnDscp vtc tcflow >>> 2 &&& (0x0f : Byte)) = vtc ∧
      (ecnDscp vtc tcflow >>> 2 &&& (0x30 : Byte)) ||| ecnDscp vtc tcflow <<< 6 |||
        (tcflow &&& 0x0f) = tcflow ∧
      (tcflow &&& 0x0f = 0 → (ecnDscp vtc tcflow <<< 6 &&& (0xC0 : Byte)) |||
        (ecnDscp vtc tcflow >>> 2 &&& (0x30 : Byte)) = tcflow) := by
  obtain ⟨low, rfl⟩ := byte_of_high vtc hVersion
  obtain ⟨high, hShift, hHigh, hWhole⟩ := byte_high tcflow
  have hBits (low high : Fin 16) :
      let vtc : Byte := version6 ||| UInt8.ofNat low
      let tmp : Byte := vtc <<< 4 ||| UInt8.ofNat high
      let tmp : Byte := (tmp &&& (0x03 : Byte)) <<< 6 ||| tmp >>> 2
      version6 ||| (tmp >>> 2 &&& (0x0f : Byte)) = vtc ∧
        (tmp >>> 2 &&& (0x30 : Byte)) ||| tmp <<< 6 = UInt8.ofNat high <<< 4 ∧
        (tmp <<< 6 &&& (0xC0 : Byte)) ||| (tmp >>> 2 &&& (0x30 : Byte)) = UInt8.ofNat high <<< 4 := by
    revert low high
    decide +kernel
  obtain ⟨hVtc, hTcflow, hNoFlow⟩ := hBits low high
  rw [← hShift] at hVtc hTcflow hNoFlow
  rw [hHigh] at hTcflow hNoFlow
  refine ⟨hVtc, ?_, fun hFlow => ?_⟩
  · rw [ecnDscp, hTcflow, hWhole]
  · rw [hFlow, UInt8.or_zero] at hWhole
    rw [ecnDscp, hNoFlow, hWhole]

/-- A traffic class of zero, in the byte of the flow label. -/
theorem ecnDscp_zero : ∀ vtc : Byte, vtc &&& 0xF0 = version6 → vtc &&& 0x0F = 0 →
    ∀ tcflow : Byte, tcflow &&& 0xF0 = 0 →
      version6 = vtc ∧ (tcflow &&& 0x0f = 0 → tcflow = 0) ∧
        ((ecnDscp vtc tcflow &&& 0xc0 ||| tcflow &&& 0x0F : Byte) &&& (0x0F : Byte)) |||
          ((ecnDscp vtc tcflow &&& 0xc0 ||| tcflow &&& 0x0F : Byte) >>> 2 &&& (0x30 : Byte)) =
            tcflow := by
  refine byte_forall fun n hVersion hZero => byte_forall ?_
  revert n
  decide +kernel

/-- The two ports in one byte. -/
theorem udpPorts_back (src : Byte) (hSrc : src &&& 0xF0 = 0xB0) (dest : Byte)
    (hDest : dest &&& 0xF0 = 0xB0) :
    (0xB0 : Byte) + (((src - 0xB0) <<< 4) + (dest - 0xB0)) >>> 4 = src ∧
      (0xB0 : Byte) + ((((src - 0xB0) <<< 4) + (dest - 0xB0)) &&& (0x0F : Byte)) = dest := by
  obtain ⟨srcLow, rfl⟩ := byte_of_high src hSrc
  obtain ⟨destLow, rfl⟩ := byte_of_high dest hDest
  clear hSrc hDest
  revert srcLow destLow
  decide +kernel

end Bits

section Fields

variable {h pkt : Nat → Byte} {ptr : Nat} {iphc0 : Byte}

theorem uncompressTf_compressTf (hVersion : h 0 &&& 0xF0 = version6)
    (hFl : iphc0 &&& iphcFlC = (compressTf h).bits &&& iphcFlC)
    (hTc : iphc0 &&& iphcTcC = (compressTf h).bits &&& iphcTcC)
    (hInline : slice pkt ptr (compressTf h).inline.length = (compressTf h).inline) :
    Piece.Restore h (· < 4) (uncompressTf pkt ptr iphc0).1 ∧
      (uncompressTf pkt ptr iphc0).2 = ptr + (compressTf h).inline.length := by
  obtain ⟨hVtc, hTcflow, hNoFlow⟩ := ecnDscp_back (h 0) hVersion (h 1)
  by_cases hFlow : h 1 &&& 0x0F = 0 ∧ h 2 = 0 ∧ h 3 = 0 <;>
    by_cases hClass : h 0 &&& 0x0F = 0 ∧ h 1 &&& 0xF0 = 0
  all_goals
    simp only [compressTf, hFlow, hClass, and_self, if_true, if_false, List.length_cons,
      List.length_nil, slice_succ, slice_zero, List.cons.injEq, and_true] at hFl hTc hInline ⊢
  · obtain ⟨hVersion6, hZero, -⟩ := ecnDscp_zero (h 0) hVersion hClass.1 (h 1) hClass.2
    have hModes : iphc0 &&& iphcFlC ≠ 0 ∧ iphc0 &&& iphcTcC ≠ 0 := by
      rw [hFl, hTc]
      decide
    simp only [uncompressTf, hModes.1, hModes.2, if_false]
    refine ⟨⟨?_, fun i => ?_⟩, rfl⟩
    · simp [← hVersion6, hZero hFlow.1, hFlow]
    · simp [Piece.Covers]
      omega
  · have hModes : iphc0 &&& iphcFlC ≠ 0 ∧ iphc0 &&& iphcTcC = 0 := by
      rw [hFl, hTc]
      decide
    simp only [uncompressTf, hModes.1, hModes.2, if_false, if_true, hInline]
    refine ⟨⟨?_, fun i => ?_⟩, trivial⟩
    · simp [hVtc, hNoFlow hFlow.1, hFlow]
    · simp [Piece.Covers]
      omega
  · obtain ⟨hVersion6, -, hByte⟩ := ecnDscp_zero (h 0) hVersion hClass.1 (h 1) hClass.2
    have hModes : iphc0 &&& iphcFlC = 0 ∧ iphc0 &&& iphcTcC ≠ 0 := by
      rw [hFl, hTc]
      decide
    simp only [uncompressTf, hModes.1, hModes.2, if_false, if_true, hInline.1, slice_succ,
      slice_zero, hInline.2]
    refine ⟨⟨?_, fun i => ?_⟩, trivial⟩
    · simp [hVersion6, hByte]
    · simp [Piece.Covers]
      omega
  · have hModes : iphc0 &&& iphcFlC = 0 ∧ iphc0 &&& iphcTcC = 0 := by
      rw [hFl, hTc]
      decide
    simp only [uncompressTf, hModes.1, hModes.2, if_true, hInline.1, slice_succ, slice_zero,
      hInline.2]
    refine ⟨⟨?_, fun i => ?_⟩, trivial⟩
    · simp [hVtc, hTcflow, Piece.Within, slice_succ]
    · simp [Piece.Covers]
      omega

theorem uncompressProto_compressProto
    (hNh : iphc0 &&& iphcNhC = (compressProto h).bits)
    (hInline : slice pkt ptr (compressProto h).inline.length = (compressProto h).inline) :
    Piece.Restore h (fun i => i = 6 ∧ h 6 ≠ uipProtoUdp) (uncompressProto pkt ptr iphc0).1 ∧
      (uncompressProto pkt ptr iphc0).2 = ptr + (compressProto h).inline.length := by
  by_cases hUdp : h 6 = uipProtoUdp
  · simp only [compressProto, hUdp, if_true] at hNh ⊢
    simp only [uncompressProto, hNh, if_neg (show ¬ iphcNhC = 0 by decide)]
    exact ⟨Piece.Restore.nil.congr fun i => by simp, rfl⟩
  · simp only [compressProto, hUdp, if_false, List.length_cons, List.length_nil, slice_succ,
      slice_zero, List.cons.injEq, and_true] at hNh hInline ⊢
    simp only [uncompressProto, hNh, if_true, hInline]
    exact ⟨(Piece.Restore.one rfl).congr fun i => by simp [hUdp], trivial⟩

theorem uncompressTtl_compressTtl
    (hTtl : iphc0 &&& 0x03 = (compressTtl h).bits)
    (hInline : slice pkt ptr (compressTtl h).inline.length = (compressTtl h).inline) :
    Piece.Restore h (· = 7) (uncompressTtl pkt ptr iphc0).1 ∧
      (uncompressTtl pkt ptr iphc0).2 = ptr + (compressTtl h).inline.length := by
  unfold compressTtl at hTtl hInline ⊢
  split_ifs at hTtl hInline ⊢ with h1 h64 h255
  · simp only [uncompressTtl, hTtl]
    exact ⟨Piece.Restore.one h1.symm, rfl⟩
  · simp only [uncompressTtl, hTtl]
    exact ⟨Piece.Restore.one h64.symm, rfl⟩
  · simp only [uncompressTtl, hTtl]
    exact ⟨Piece.Restore.one h255.symm, rfl⟩
  · simp only [List.length_cons, List.length_nil, slice_succ, slice_zero, List.cons.injEq,
      and_true] at hInline
    simp only [uncompressTtl, hTtl, hInline]
    exact ⟨Piece.Restore.one rfl, rfl⟩

theorem compressPorts_mode (h : Nat → Byte) :
    ∃ mode ∈ [(0xF0 : Byte), 0xF1, 0xF2, 0xF3], ∃ ports, compressPorts h = mode :: ports := by
  unfold compressPorts
  split_ifs <;> simp

theorem uncompressPorts_compressPorts
    (hInline : slice pkt ptr (compressPorts h).length = compressPorts h) :
    Piece.Restore h (fun i => 40 ≤ i ∧ i < 44) (uncompressPorts pkt ptr).1 ∧
      (uncompressPorts pkt ptr).2 = ptr + (compressPorts h).length := by
  have hMask : ∀ mode ∈ [(0xF0 : Byte), 0xF1, 0xF2, 0xF3], mode &&& 0xF3 = mode := by decide
  simp only [List.forall_mem_cons] at hMask
  unfold compressPorts at hInline ⊢
  split_ifs at hInline ⊢ with hBoth hDest hSrc
  all_goals
    simp only [slice_succ, slice_zero, List.length_cons, List.length_nil, List.cons.injEq,
      and_true, Nat.reduceAdd] at hInline
    simp [uncompressPorts, hInline, hMask, slice_succ]
    refine ⟨?_, fun i => ?_⟩
  · obtain ⟨hSrc, hDest⟩ := udpPorts_back (h 41) hBoth.1.2 (h 43) hBoth.2.2
    simp [hBoth, hSrc, hDest]
  · simp [Piece.Covers]
    omega
  · simp [hDest]
  · simp [Piece.Covers]
    omega
  · simp [hSrc]
  · simp [Piece.Covers]
    omega
  · simp
  · simp [Piece.Covers]
    omega

/-- The UDP header, without its length. -/
theorem uncompressUdp_compressUdp
    (hNh : iphc0 &&& iphcNhC = (compressProto h).bits)
    (hInline : slice pkt ptr (compressUdp h).length = compressUdp h) :
    Piece.Restore h (fun i => h 6 = uipProtoUdp ∧ (i = 6 ∨ 40 ≤ i ∧ i < 44 ∨ 46 ≤ i ∧ i < 48))
        (uncompressUdp pkt ptr iphc0).1 ∧
      (uncompressUdp pkt ptr iphc0).2 =
        (ptr + (compressUdp h).length, if h 6 = uipProtoUdp then uipUdphLen else 0) := by
  by_cases hUdp : h 6 = uipProtoUdp
  · simp only [compressProto, compressUdp, hUdp, if_true, slice_append_eq_iff] at hNh hInline ⊢
    obtain ⟨hPorts, hChecksum⟩ := hInline
    obtain ⟨hRestore, hEnd⟩ := uncompressPorts_compressPorts hPorts
    have hMode : pkt ptr &&& nhcUdpMask = nhcUdpId ∧ pkt ptr &&& nhcUdpChecksumc = 0 := by
      have hModes : ∀ mode ∈ [(0xF0 : Byte), 0xF1, 0xF2, 0xF3],
          mode &&& nhcUdpMask = nhcUdpId ∧ mode &&& nhcUdpChecksumc = 0 := by decide
      obtain ⟨mode, hMem, ports, hIs⟩ := compressPorts_mode h
      rw [hIs, List.length_cons, slice_succ, List.cons.injEq] at hPorts
      rw [hPorts.1]
      exact hModes mode hMem
    rw [length_slice] at hChecksum
    simp only [uncompressUdp, HasUdp, hNh, hMode, hEnd, ne_eq, show ¬ iphcNhC = 0 by decide,
      not_false_eq_true, and_self, if_true, List.length_append, length_slice, Nat.add_assoc]
    refine ⟨?_, trivial⟩
    have hLast : Piece.Restore h (fun i => 46 ≤ i ∧ i < 48)
        [⟨46, slice pkt (ptr + (compressPorts h).length) 2⟩] := by
      refine ⟨?_, fun i => ?_⟩
      · simpa [Piece.within_slice] using hChecksum
      · simp [Piece.Covers]
    exact ((Piece.Restore.one hUdp.symm).append hRestore).append hLast |>.congr fun i => by
      simp only [true_and, or_assoc]
  · simp only [compressProto, hUdp, if_false] at hNh
    simp only [uncompressUdp, HasUdp, compressUdp, hNh, hUdp, ne_eq, not_true, false_and, if_false]
    exact ⟨Piece.Restore.nil, rfl⟩

end Fields

section Addresses

variable {a : IpAddr} {m : LinkAddr} {contexts : List AddrContext} {h pkt : Nat → Byte} {ptr : Nat}

/-- How much of the interface identifier is inline. -/
def iidMode (a : IpAddr) (m : LinkAddr) : Byte :=
  if IsAddrMacAddrBased a m then 3 else if IsIid16BitCompressable a then 2 else 1

theorem compressAddr64_bits (bitpos : Byte) :
    (compressAddr64 bitpos a m).bits = iidMode a m <<< bitpos := by
  unfold compressAddr64 iidMode
  split_ifs <;> rfl

theorem iidMode_mem (a : IpAddr) (m : LinkAddr) : iidMode a m ∈ [(1 : Byte), 2, 3] := by
  unfold iidMode
  split_ifs <;> decide

/-- The identifier comes back behind the prefix that the receiver has. -/
theorem uncompressAddr_compressAddr64 {bitpos : Byte} (addrPrefix : Nat → Byte)
    (hInline : slice pkt ptr (compressAddr64 bitpos a m).inline.length =
      (compressAddr64 bitpos a m).inline) :
    uncompressAddr addrPrefix (uncCtxconf (iidMode a m)) m pkt ptr =
      (slice addrPrefix 0 8 ++ slice a 8 8,
        ptr + (compressAddr64 bitpos a m).inline.length) := by
  unfold compressAddr64 at hInline ⊢
  unfold iidMode
  split_ifs at hInline ⊢ with hMac hShort
  · have hIid : setAddrIid m = slice a 8 8 := by
      obtain ⟨h8, h9, h10, h11, h12, h13, h14, h15⟩ := hMac
      simp [setAddrIid, slice_succ, h8, h9, h10, h11, h12, h13, h14, h15]
    rw [← hIid]
    rfl
  · have hIid : [0, 0, 0, 0xff, 0xfe, 0] ++ slice pkt ptr 2 = slice a 8 8 := by
      obtain ⟨⟨h8, h9⟩, h10, h11, h12, h13⟩ := hShort
      have hPost : slice pkt ptr 2 = slice a 14 2 := by simpa only [length_slice] using hInline
      rw [hPost]
      simp [slice_succ, h8, h9, h10, h11, h12, h13]
    rw [← hIid]
    rfl
  · have hPost : slice pkt ptr 8 = slice a 8 8 := by simpa only [length_slice] using hInline
    rw [← hPost]
    rfl

/-- The prefix of two bytes, with zeros up to the identifier. -/
def zeroExtended (addrPrefix : Nat → Byte) : Nat → Byte := fun i =>
  if i < 2 then addrPrefix i else 0

theorem uncompressAddr_llconf {mode : Byte} (hMode : mode ∈ [(1 : Byte), 2, 3])
    (addrPrefix : Nat → Byte) :
    uncompressAddr addrPrefix (uncLlconf mode) m pkt ptr =
      uncompressAddr (zeroExtended addrPrefix) (uncCtxconf mode) m pkt ptr := by
  simp only [List.mem_cons, List.not_mem_nil, or_false] at hMode
  rcases hMode with rfl | rfl | rfl <;> rfl

theorem prefixCmp_iff {addrPrefix : Nat → Byte} :
    slice addrPrefix 0 8 ++ slice a 8 8 = slice a 0 16 ↔ PrefixCmp addrPrefix a := by
  rw [show 16 = 8 + 8 from rfl, slice_add a, List.append_left_inj, slice_eq_iff]
  simp only [Nat.zero_add, PrefixCmp]

/-- The prefix of an address has a context. -/
def HasContext (contexts : List AddrContext) (a : IpAddr) : Prop :=
  addrContextLookupByPrefix contexts a ≠ none

/-- The number leads to a context with the prefix of the address. -/
def NumberFinds (contexts : List AddrContext) (number : Byte) (a : IpAddr) : Prop :=
  ∃ context, addrContextLookupByNumber contexts number = some context ∧
    PrefixCmp context.addrPrefix a

/-- The bytes 2 to 7, which a link-local address has zero. -/
def MiddleZero (a : IpAddr) : Prop := U16Zero a 1 ∧ U16Zero a 2 ∧ U16Zero a 3

theorem prefixCmp_llprefix (hLinklocal : IsAddrLinklocal a) :
    PrefixCmp (zeroExtended llprefix) a ↔ MiddleZero a := by
  obtain ⟨h0, h1⟩ := hLinklocal
  constructor
  · intro hSame
    exact ⟨⟨(hSame 2 (by decide)).symm, (hSame 3 (by decide)).symm⟩,
      ⟨(hSame 4 (by decide)).symm, (hSame 5 (by decide)).symm⟩,
      ⟨(hSame 6 (by decide)).symm, (hSame 7 (by decide)).symm⟩⟩
  · rintro ⟨⟨h2, h3⟩, ⟨h4, h5⟩, h6, h7⟩ i hi
    interval_cases i
    all_goals simp_all [zeroExtended, llprefix]

/-- What a stage with an address gives: a piece that is right exactly under the condition,
and the end of its inline bytes. It fails only where the condition does. -/
def Yields (offset : Nat) (a : IpAddr) (last : Nat) (Right : Prop) :
    Option (List (Piece Byte) × Nat) → Prop
  | none => ¬ Right
  | some (pieces, ptr) => ptr = last ∧
      ∃ cells, pieces = [⟨offset, cells⟩] ∧ cells.length = 16 ∧ (cells = slice a 0 16 ↔ Right)

/-- When the receiver can put back the source address. -/
def SrcRestorable (contexts : List AddrContext) (h : Nat → Byte) (number : Byte) : Prop :=
  (¬ IsAddrUnspecified (srcipaddr h) → HasContext contexts (srcipaddr h) →
    NumberFinds contexts number (srcipaddr h)) ∧
  (¬ HasContext contexts (srcipaddr h) → IsAddrLinklocal (srcipaddr h) →
    MiddleZero (destipaddr h) → MiddleZero (srcipaddr h))

/-- When the receiver can put back the destination address. -/
def DestRestorable (contexts : List AddrContext) (h : Nat → Byte) (number : Byte) : Prop :=
  ¬ IsAddrMcast (destipaddr h) → HasContext contexts (destipaddr h) →
    NumberFinds contexts number (destipaddr h)

theorem Yields.congr {offset last : Nat} {Right Right' : Prop}
    {result : Option (List (Piece Byte) × Nat)} (hYields : Yields offset a last Right result)
    (hSame : Right ↔ Right') : Yields offset a last Right' result :=
  (propext hSame) ▸ hYields

theorem yields_context {offset : Nat} {bitpos number : Byte}
    (hInline : slice pkt ptr (compressAddr64 bitpos a m).inline.length =
      (compressAddr64 bitpos a m).inline) :
    Yields offset a (ptr + (compressAddr64 bitpos a m).inline.length)
      (NumberFinds contexts number a)
      ((addrContextLookupByNumber contexts number).map fun context =>
        atOffset offset
          (uncompressAddr context.addrPrefix (uncCtxconf (iidMode a m)) m pkt ptr)) := by
  cases hFound : addrContextLookupByNumber contexts number with
  | none =>
      rintro ⟨context, hIs, -⟩
      exact nomatch hFound.symm.trans hIs
  | some context =>
      rw [Option.map_some, uncompressAddr_compressAddr64 _ hInline]
      refine ⟨rfl, _, rfl, by simp, ?_⟩
      rw [prefixCmp_iff]
      simp [NumberFinds, hFound]

theorem yields_linklocal {offset : Nat} {bitpos : Byte} (hLinklocal : IsAddrLinklocal a)
    (hInline : slice pkt ptr (compressAddr64 bitpos a m).inline.length =
      (compressAddr64 bitpos a m).inline) :
    Yields offset a (ptr + (compressAddr64 bitpos a m).inline.length) (MiddleZero a)
      (some (atOffset offset (uncompressAddr llprefix (uncLlconf (iidMode a m)) m pkt ptr))) := by
  rw [uncompressAddr_llconf (iidMode_mem a m), uncompressAddr_compressAddr64 _ hInline]
  refine ⟨rfl, _, rfl, by simp, ?_⟩
  rw [prefixCmp_iff, prefixCmp_llprefix hLinklocal]

theorem yields_full {offset : Nat} (hInline : slice pkt ptr 16 = slice a 0 16) :
    Yields offset a (ptr + 16) True
      (some (atOffset offset (uncompressAddr llprefix (uncLlconf 0) m pkt ptr))) :=
  ⟨rfl, slice pkt ptr 16, rfl, length_slice .., iff_true_intro hInline⟩

theorem eq_zero_of_unspecified (hUnspecified : IsAddrUnspecified a) : ∀ i < 16, a i = 0 := by
  intro i hi
  have hPair := hUnspecified (i / 2) (by omega)
  rcases Nat.mod_two_eq_zero_or_one i with hEven | hOdd
  · rw [show i = 2 * (i / 2) by omega]
    exact hPair.1
  · rw [show i = 2 * (i / 2) + 1 by omega]
    exact hPair.2

theorem uncompressSrc_compressSrc {iphc1 : Byte} (sciDci : Byte)
    (hSac : iphc1 &&& iphcSac = (compressSrc contexts m h).bits &&& iphcSac)
    (hSam : iphc1 &&& iphcSam11 = (compressSrc contexts m h).bits &&& iphcSam11)
    (hCid : HasContext contexts (srcipaddr h) → iphc1 &&& iphcCid ≠ 0)
    (hInline : slice pkt ptr (compressSrc contexts m h).inline.length =
      (compressSrc contexts m h).inline) :
    Yields 8 (srcipaddr h) (ptr + (compressSrc contexts m h).inline.length)
      (SrcRestorable contexts h (sciDci >>> 4))
      (uncompressSrc pkt ptr iphc1 contexts m sciDci) := by
  have hModes : ∀ mode ∈ [(1 : Byte), 2, 3],
      (iphcCid ||| iphcSac ||| mode <<< iphcSamBit) &&& iphcSac ≠ 0 ∧
      ((iphcCid ||| iphcSac ||| mode <<< iphcSamBit) &&& iphcSam11) >>> iphcSamBit &&& 0x03 = mode ∧
      mode <<< iphcSamBit &&& iphcSac = 0 ∧
      (mode <<< iphcSamBit &&& iphcSam11) >>> iphcSamBit &&& 0x03 = mode ∧ mode ≠ 0 := by decide
  obtain ⟨hCtxSac, hCtxSam, hLlSac, hLlSam, hNonzero⟩ := hModes _ (iidMode_mem (srcipaddr h) m)
  unfold compressSrc at hSac hSam hInline ⊢
  unfold uncompressSrc srcMode
  by_cases hUnspecified : IsAddrUnspecified (srcipaddr h)
  · simp only [hUnspecified, if_true] at hSac hSam hInline ⊢
    have hZero := eq_zero_of_unspecified hUnspecified
    have hRight : SrcRestorable contexts h (sciDci >>> 4) := by
      refine ⟨fun hNot => absurd hUnspecified hNot, fun _ hLinklocal => ?_⟩
      have hFe := hLinklocal.1
      rw [hZero 0 (by decide)] at hFe
      exact absurd hFe (by decide)
    rw [hSac, hSam]
    refine ⟨rfl, List.replicate 16 0, rfl, rfl, iff_of_true ?_ hRight⟩
    refine (List.eq_replicate_iff.mpr ⟨length_slice .., fun cell hMem => ?_⟩).symm
    obtain ⟨i, hi, rfl⟩ := List.mem_map.mp hMem
    rw [Nat.zero_add, hZero i (List.mem_range.mp hi)]
  · simp only [hUnspecified, if_false] at hSac hSam hInline ⊢
    cases hLookup : addrContextLookupByPrefix contexts (srcipaddr h) with
    | some context =>
        have hHas : HasContext contexts (srcipaddr h) := by simp [HasContext, hLookup]
        simp only [hLookup, compressAddr64_bits] at hSac hSam hInline ⊢
        rw [hSac, hSam, if_pos hCtxSac, hCtxSam, if_pos hNonzero, if_pos (hCid hHas)]
        refine (yields_context hInline).congr ?_
        simp [SrcRestorable, hUnspecified, hHas]
    | none =>
        have hHas : ¬ HasContext contexts (srcipaddr h) := by simp [HasContext, hLookup]
        by_cases hLocal : IsAddrLinklocal (srcipaddr h) ∧ MiddleZero (destipaddr h)
        · rw [MiddleZero] at hLocal
          simp only [hLookup, hLocal, and_self, if_true, compressAddr64_bits] at hSac hSam hInline ⊢
          rw [hSac, hSam, if_neg (not_not.mpr hLlSac), hLlSam]
          refine (yields_linklocal hLocal.1 hInline).congr ?_
          simp [SrcRestorable, hHas, hLocal, MiddleZero]
        · rw [MiddleZero] at hLocal
          simp only [hLookup, if_neg hLocal] at hSac hSam hInline ⊢
          rw [hSac, hSam]
          refine Yields.congr (yields_full ?_) ?_
          · exact hInline
          · simp only [SrcRestorable, hHas, false_imp_iff, imp_true_iff, not_false_eq_true,
              forall_true_left, true_and, true_iff]
            exact fun hLinklocal hMiddle => absurd ⟨hLinklocal, hMiddle⟩ hLocal

theorem srcRestorable_congr {number number' : Byte}
    (hNumber : HasContext contexts (srcipaddr h) → number = number') :
    SrcRestorable contexts h number ↔ SrcRestorable contexts h number' := by
  refine and_congr_left' (imp_congr_right fun _ => forall_congr' fun hHas => ?_)
  rw [hNumber hHas]

theorem destRestorable_congr {number number' : Byte}
    (hNumber : HasContext contexts (destipaddr h) → number = number') :
    DestRestorable contexts h number ↔ DestRestorable contexts h number' := by
  refine imp_congr_right fun _ => forall_congr' fun hHas => ?_
  rw [hNumber hHas]

theorem compressMcast_mem (a : IpAddr) :
    (compressMcast a).bits ∈ [iphcM, iphcM ||| 1, iphcM ||| 2, iphcM ||| 3] := by
  unfold compressMcast
  split_ifs <;> simp

theorem uncompressMcast_compressMcast (hMcast : IsAddrMcast a)
    (hInline : slice pkt ptr (compressMcast a).inline.length = (compressMcast a).inline) :
    uncompressMcast pkt ptr ((compressMcast a).bits &&& 0x03) =
      (slice a 0 16, ptr + (compressMcast a).inline.length) := by
  have h0 : a 0 = 0xff := hMcast
  unfold compressMcast at hInline ⊢
  split_ifs at hInline ⊢ with h8 h32 h48
  all_goals
    simp only [slice_succ, slice_zero, List.length_cons, List.length_nil, List.cons.injEq,
      and_true, Nat.reduceAdd] at hInline
  · obtain ⟨h1, ⟨h2, h3⟩, ⟨h4, h5⟩, ⟨h6, h7⟩, ⟨h8, h9⟩, ⟨h10, h11⟩, ⟨h12, h13⟩, h14⟩ := h8
    have hIs : uncompressMcast pkt ptr ((iphcM ||| 3) &&& 0x03) =
        ([0xff, 0x02] ++ List.replicate 13 0 ++ [pkt ptr], ptr + 1) := rfl
    rw [hIs, hInline]
    simp_all [slice_succ]
  · obtain ⟨⟨h2, h3⟩, ⟨h4, h5⟩, ⟨h6, h7⟩, ⟨h8, h9⟩, ⟨h10, h11⟩, h12⟩ := h32
    have hIs : uncompressMcast pkt ptr ((iphcM ||| 2) &&& 0x03) =
        ([0xff, pkt ptr] ++ List.replicate 11 0 ++ slice pkt (ptr + 1) 3, ptr + 4) := rfl
    rw [hIs]
    simp_all [slice_succ]
  · obtain ⟨⟨h2, h3⟩, ⟨h4, h5⟩, ⟨h6, h7⟩, ⟨h8, h9⟩, h10⟩ := h48
    have hIs : uncompressMcast pkt ptr ((iphcM ||| 1) &&& 0x03) =
        ([0xff, pkt ptr] ++ List.replicate 9 0 ++ slice pkt (ptr + 1) 5, ptr + 6) := rfl
    rw [hIs]
    simp_all [slice_succ]
  · have hIs : uncompressMcast pkt ptr (iphcM &&& 0x03) = (slice pkt ptr 16, ptr + 16) := rfl
    rw [hIs]
    simp_all [slice_succ]

theorem uncompressDest_compressDest {iphc1 : Byte} (sciDci : Byte)
    (hM : iphc1 &&& iphcM = (compressDest contexts m h).bits &&& iphcM)
    (hDac : iphc1 &&& iphcDac = (compressDest contexts m h).bits &&& iphcDac)
    (hDam : iphc1 &&& iphcDam11 = (compressDest contexts m h).bits &&& iphcDam11)
    (hCid : HasContext contexts (destipaddr h) → iphc1 &&& iphcCid ≠ 0)
    (hInline : slice pkt ptr (compressDest contexts m h).inline.length =
      (compressDest contexts m h).inline) :
    Yields 24 (destipaddr h) (ptr + (compressDest contexts m h).inline.length)
      (DestRestorable contexts h (sciDci &&& 0x0f))
      (uncompressDest pkt ptr iphc1 contexts m sciDci) := by
  have hModes : ∀ mode ∈ [(1 : Byte), 2, 3],
      (iphcDac ||| mode <<< iphcDamBit) &&& iphcM = 0 ∧
      (iphcDac ||| mode <<< iphcDamBit) &&& iphcDac ≠ 0 ∧
      (iphcDac ||| mode <<< iphcDamBit) &&& iphcDam11 &&& 0x03 = mode ∧
      mode <<< iphcDamBit &&& iphcM = 0 ∧ mode <<< iphcDamBit &&& iphcDac = 0 ∧
      mode <<< iphcDamBit &&& iphcDam11 &&& 0x03 = mode := by decide
  obtain ⟨hCtxM, hCtxDac, hCtxDam, hLlM, hLlDac, hLlDam⟩ :=
    hModes _ (iidMode_mem (destipaddr h) m)
  unfold compressDest at hM hDac hDam hInline ⊢
  unfold uncompressDest destMode
  by_cases hMcast : IsAddrMcast (destipaddr h)
  · have hRight : DestRestorable contexts h (sciDci &&& 0x0f) := fun hNot => absurd hMcast hNot
    have hMcasts : ∀ bits ∈ [iphcM, iphcM ||| 1, iphcM ||| 2, iphcM ||| 3],
        bits &&& iphcM ≠ 0 ∧ bits &&& iphcDac = 0 ∧
          bits &&& iphcDam11 &&& 0x03 = bits &&& 0x03 := by decide
    obtain ⟨hMcastM, hMcastDac, hMcastDam⟩ := hMcasts _ (compressMcast_mem (destipaddr h))
    simp only [hMcast, if_true] at hM hDac hDam hInline ⊢
    rw [hM, hDac, hDam, if_pos hMcastM, if_neg (not_not.mpr hMcastDac), hMcastDam,
      uncompressMcast_compressMcast hMcast hInline]
    exact ⟨rfl, _, rfl, length_slice .., iff_of_true rfl hRight⟩
  · simp only [hMcast, if_false] at hM hDac hDam hInline ⊢
    cases hLookup : addrContextLookupByPrefix contexts (destipaddr h) with
    | some context =>
        have hHas : HasContext contexts (destipaddr h) := by simp [HasContext, hLookup]
        simp only [hLookup, compressAddr64_bits] at hM hDac hDam hInline ⊢
        rw [hM, hDac, hDam, if_neg (not_not.mpr hCtxM), if_pos hCtxDac, hCtxDam,
          if_pos (hCid hHas)]
        refine (yields_context hInline).congr ?_
        simp [DestRestorable, hMcast, hHas]
    | none =>
        have hRight : DestRestorable contexts h (sciDci &&& 0x0f) := fun _ hHas =>
          absurd hLookup hHas
        by_cases hLocal : IsAddrLinklocal (destipaddr h) ∧ MiddleZero (destipaddr h)
        · rw [MiddleZero] at hLocal
          simp only [hLookup, hLocal, and_self, if_true, compressAddr64_bits]
            at hM hDac hDam hInline ⊢
          rw [hM, hDac, hDam, if_neg (not_not.mpr hLlM), if_neg (not_not.mpr hLlDac), hLlDam]
          exact (yields_linklocal hLocal.1 hInline).congr (iff_of_true hLocal.2 hRight)
        · rw [MiddleZero] at hLocal
          simp only [hLookup, if_neg hLocal] at hM hDac hDam hInline ⊢
          rw [hM, hDac, hDam]
          exact Yields.congr (yields_full hInline) (iff_of_true trivial hRight)

end Addresses

section Headers

variable {contexts : List AddrContext} {sender receiver : LinkAddr} {h pkt buf : Nat → Byte}

/-- The two encoding bytes. -/
def encoding0 (h : Nat → Byte) : Byte :=
  dispatchIphc ||| (compressTf h).bits ||| (compressProto h).bits ||| (compressTtl h).bits

/-- The number of the context for an address, 0 if there is none. -/
def contextNumber (contexts : List AddrContext) (a : IpAddr) : Byte :=
  match addrContextLookupByPrefix contexts a with
  | some context => context.number
  | none => 0

/-- The numbers of both contexts, in one byte. -/
def contextNumbers (contexts : List AddrContext) (h : Nat → Byte) : Byte :=
  let sci : Byte :=
    if IsAddrUnspecified (srcipaddr h) then 0
    else contextNumber contexts (srcipaddr h) <<< (4 : Byte)
  let dci := if IsAddrMcast (destipaddr h) then 0 else contextNumber contexts (destipaddr h)
  sci ||| dci

theorem sciDci_eq_contextNumbers :
    (compressSrc contexts sender h).sciDci ||| (compressDest contexts receiver h).sciDci =
      contextNumbers contexts h := by
  have hNone (bitpos : Byte) (a : IpAddr) (m : LinkAddr) :
      (compressAddr64 bitpos a m).sciDci = 0 := by
    unfold compressAddr64
    split_ifs <;> rfl
  have hMcast (a : IpAddr) : (compressMcast a).sciDci = 0 := by
    unfold compressMcast
    split_ifs <;> rfl
  have hSrc : (compressSrc contexts sender h).sciDci =
      if IsAddrUnspecified (srcipaddr h) then 0
      else contextNumber contexts (srcipaddr h) <<< (4 : Byte) := by
    unfold compressSrc contextNumber
    by_cases hUnspecified : IsAddrUnspecified (srcipaddr h)
    · simp only [hUnspecified, if_true]
    · cases hLookup : addrContextLookupByPrefix contexts (srcipaddr h) with
      | some context => simp only [hUnspecified, if_false]
      | none =>
          simp only [hUnspecified, if_false]
          split_ifs
          · exact hNone ..
          · rfl
  have hDest : (compressDest contexts receiver h).sciDci =
      if IsAddrMcast (destipaddr h) then 0 else contextNumber contexts (destipaddr h) := by
    unfold compressDest contextNumber
    by_cases hIs : IsAddrMcast (destipaddr h)
    · simp only [hIs, if_true, hMcast]
    · cases hLookup : addrContextLookupByPrefix contexts (destipaddr h) with
      | some context => simp only [hIs, if_false, hLookup]
      | none =>
          simp only [hIs, if_false, hLookup]
          split_ifs
          · exact hNone ..
          · rfl
  rw [hSrc, hDest, contextNumbers]

def encoding1 (contexts : List AddrContext) (sender receiver : LinkAddr) (h : Nat → Byte) : Byte :=
  (compressCid contexts h (contextNumbers contexts h)).bits |||
    (compressSrc contexts sender h).bits ||| (compressDest contexts receiver h).bits

theorem encoding0_reads (h : Nat → Byte) :
    encoding0 h &&& 0xe0 = dispatchIphc ∧
    encoding0 h &&& iphcFlC = (compressTf h).bits &&& iphcFlC ∧
    encoding0 h &&& iphcTcC = (compressTf h).bits &&& iphcTcC ∧
    encoding0 h &&& iphcNhC = (compressProto h).bits ∧
    encoding0 h &&& 0x03 = (compressTtl h).bits := by
  have hTf : (compressTf h).bits ∈ [iphcFlC ||| iphcTcC, iphcFlC, iphcTcC, 0] := by
    unfold compressTf
    split_ifs <;> simp
  have hProto : (compressProto h).bits ∈ [iphcNhC, 0] := by
    unfold compressProto
    split_ifs <;> simp
  have hTtl : (compressTtl h).bits ∈ [(1 : Byte), 2, 3, 0] := by
    unfold compressTtl
    split_ifs <;> simp
  have hReads : ∀ tf ∈ [iphcFlC ||| iphcTcC, iphcFlC, iphcTcC, 0], ∀ proto ∈ [iphcNhC, 0],
      ∀ ttl ∈ [(1 : Byte), 2, 3, 0],
        (dispatchIphc ||| tf ||| proto ||| ttl) &&& 0xe0 = dispatchIphc ∧
        (dispatchIphc ||| tf ||| proto ||| ttl) &&& iphcFlC = tf &&& iphcFlC ∧
        (dispatchIphc ||| tf ||| proto ||| ttl) &&& iphcTcC = tf &&& iphcTcC ∧
        (dispatchIphc ||| tf ||| proto ||| ttl) &&& iphcNhC = proto ∧
        (dispatchIphc ||| tf ||| proto ||| ttl) &&& 0x03 = ttl := by decide
  exact hReads _ hTf _ hProto _ hTtl

theorem compressSrc_mem (contexts : List AddrContext) (m : LinkAddr) (h : Nat → Byte) :
    (compressSrc contexts m h).bits ∈ [(0 : Byte), 0x10, 0x20, 0x30, 0x40] ∨
      HasContext contexts (srcipaddr h) ∧
        (compressSrc contexts m h).bits ∈ [(0xD0 : Byte), 0xE0, 0xF0] := by
  have hModes : ∀ mode ∈ [(1 : Byte), 2, 3],
      mode <<< iphcSamBit ∈ [(0 : Byte), 0x10, 0x20, 0x30, 0x40] ∧
        iphcCid ||| iphcSac ||| mode <<< iphcSamBit ∈ [(0xD0 : Byte), 0xE0, 0xF0] := by decide
  have hMode := hModes _ (iidMode_mem (srcipaddr h) m)
  unfold compressSrc
  by_cases hUnspecified : IsAddrUnspecified (srcipaddr h)
  · simp [hUnspecified]
  · cases hLookup : addrContextLookupByPrefix contexts (srcipaddr h) with
    | some context =>
        refine Or.inr ⟨by simp [HasContext, hLookup], ?_⟩
        simpa only [if_neg hUnspecified, compressAddr64_bits] using hMode.2
    | none =>
        refine Or.inl ?_
        simp only [if_neg hUnspecified]
        split_ifs
        · simpa only [compressAddr64_bits] using hMode.1
        · simp

theorem compressDest_mem (contexts : List AddrContext) (m : LinkAddr) (h : Nat → Byte) :
    (compressDest contexts m h).bits ∈ [(0 : Byte), 1, 2, 3, 5, 6, 7, 8, 9, 10, 11] := by
  have hModes : ∀ mode ∈ [(1 : Byte), 2, 3],
      mode <<< iphcDamBit ∈ [(0 : Byte), 1, 2, 3, 5, 6, 7, 8, 9, 10, 11] ∧
        iphcDac ||| mode <<< iphcDamBit ∈ [(0 : Byte), 1, 2, 3, 5, 6, 7, 8, 9, 10, 11] := by decide
  have hMcasts : ∀ bits ∈ [iphcM, iphcM ||| 1, iphcM ||| 2, iphcM ||| 3],
      bits ∈ [(0 : Byte), 1, 2, 3, 5, 6, 7, 8, 9, 10, 11] := by decide
  have hMode := hModes _ (iidMode_mem (destipaddr h) m)
  unfold compressDest
  by_cases hMcast : IsAddrMcast (destipaddr h)
  · simpa only [hMcast, if_true] using hMcasts _ (compressMcast_mem (destipaddr h))
  · cases hLookup : addrContextLookupByPrefix contexts (destipaddr h) with
    | some context => simpa only [hLookup, if_neg hMcast, compressAddr64_bits] using hMode.2
    | none =>
        simp only [hLookup, if_neg hMcast]
        split_ifs
        · simpa only [compressAddr64_bits] using hMode.1
        · simp

theorem compressCid_of_src {numbers : Byte} (hHas : HasContext contexts (srcipaddr h)) :
    compressCid contexts h numbers = { bits := iphcCid, inline := [numbers] } :=
  if_pos (Or.inr hHas)

theorem compressCid_of_dest {numbers : Byte} (hHas : HasContext contexts (destipaddr h)) :
    compressCid contexts h numbers = { bits := iphcCid, inline := [numbers] } :=
  if_pos (Or.inl hHas)

theorem encoding1_reads (contexts : List AddrContext) (sender receiver : LinkAddr)
    (h : Nat → Byte) :
    let cid := compressCid contexts h (contextNumbers contexts h)
    let encoding := encoding1 contexts sender receiver h
    encoding &&& iphcCid = cid.bits ∧
    encoding &&& iphcSac = (compressSrc contexts sender h).bits &&& iphcSac ∧
    encoding &&& iphcSam11 = (compressSrc contexts sender h).bits &&& iphcSam11 ∧
    encoding &&& iphcM = (compressDest contexts receiver h).bits &&& iphcM ∧
    encoding &&& iphcDac = (compressDest contexts receiver h).bits &&& iphcDac ∧
    encoding &&& iphcDam11 = (compressDest contexts receiver h).bits &&& iphcDam11 := by
  have hReads : ∀ dest ∈ [(0 : Byte), 1, 2, 3, 5, 6, 7, 8, 9, 10, 11], ∀ cid ∈ [iphcCid, 0],
      ∀ src ∈ [(0 : Byte), 0x10, 0x20, 0x30, 0x40, 0xD0, 0xE0, 0xF0],
        (src ∈ [(0xD0 : Byte), 0xE0, 0xF0] → cid = iphcCid) →
        (cid ||| src ||| dest) &&& iphcCid = cid ∧
        (cid ||| src ||| dest) &&& iphcSac = src &&& iphcSac ∧
        (cid ||| src ||| dest) &&& iphcSam11 = src &&& iphcSam11 ∧
        (cid ||| src ||| dest) &&& iphcM = dest &&& iphcM ∧
        (cid ||| src ||| dest) &&& iphcDac = dest &&& iphcDac ∧
        (cid ||| src ||| dest) &&& iphcDam11 = dest &&& iphcDam11 := by decide
  refine hReads _ (compressDest_mem contexts receiver h) _ ?_ _ ?_ ?_
  · unfold compressCid
    split_ifs <;> simp
  · rcases compressSrc_mem contexts sender h with hMem | ⟨-, hMem⟩
    · exact List.mem_append_left [(0xD0 : Byte), 0xE0, 0xF0] hMem
    · exact List.mem_append_right [(0 : Byte), 0x10, 0x20, 0x30, 0x40] hMem
  · intro hContext
    rcases compressSrc_mem contexts sender h with hMem | ⟨hHas, -⟩
    · have hApart : ∀ bits ∈ [(0 : Byte), 0x10, 0x20, 0x30, 0x40],
          bits ∉ [(0xD0 : Byte), 0xE0, 0xF0] := by decide
      exact absurd hContext (hApart _ hMem)
    · rw [compressCid_of_src hHas]

/-- The bytes of the compressed header, stage by stage from `first` on. -/
theorem compressedHdr_stages {first : Nat}
    (hBytes : slice pkt first (compressHdrIphc contexts sender receiver h).bytes.length =
      (compressHdrIphc contexts sender receiver h).bytes) :
    let cid := (compressCid contexts h (contextNumbers contexts h)).inline
    let tf := (compressTf h).inline
    let proto := (compressProto h).inline
    let ttl := (compressTtl h).inline
    let src := (compressSrc contexts sender h).inline
    let dest := (compressDest contexts receiver h).inline
    let ptr := first + 2 + cid.length
    let mid := ptr + tf.length + proto.length + ttl.length
    (pkt first = encoding0 h ∧ pkt (first + 1) = encoding1 contexts sender receiver h) ∧
    slice pkt (first + 2) cid.length = cid ∧ slice pkt ptr tf.length = tf ∧
    slice pkt (ptr + tf.length) proto.length = proto ∧
    slice pkt (ptr + tf.length + proto.length) ttl.length = ttl ∧
    slice pkt mid src.length = src ∧ slice pkt (mid + src.length) dest.length = dest ∧
    slice pkt (mid + src.length + dest.length) (compressUdp h).length = compressUdp h ∧
    mid + src.length + dest.length + (compressUdp h).length =
      first + (compressHdrIphc contexts sender receiver h).bytes.length := by
  simp only [compressHdrIphc, sciDci_eq_contextNumbers, slice_append_eq_iff] at hBytes
  simp only [List.length_append, ← Nat.add_assoc] at hBytes
  obtain ⟨⟨⟨⟨⟨⟨⟨hEncoding, hCid⟩, hTf⟩, hProto⟩, hTtl⟩, hSrc⟩, hDest⟩, hUdp⟩ := hBytes
  refine ⟨?_, hCid, hTf, hProto, hTtl, hSrc, hDest, hUdp, ?_⟩
  · simpa [slice_succ, encoding0, encoding1] using hEncoding
  · simp only [compressHdrIphc, sciDci_eq_contextNumbers, List.length_append, ← Nat.add_assoc]
    rfl

/-- With everything else in place, the header is right if the addresses are. -/
theorem addresses_right_iff {region region' : Nat → Prop} {start tail : List (Piece Byte)}
    {src dest : List Byte} {size : Nat} (hStart : Piece.Restore h region start)
    (hTail : Piece.Restore h region' tail) (hSize : 40 ≤ size)
    (hSrc : src.length = 16) (hDest : dest.length = 16)
    (hElse : ∀ i, region i ∨ region' i ↔ i < size ∧ (i < 8 ∨ 40 ≤ i)) :
    (∀ i < size,
      Piece.writeAll buf (start ++ [⟨8, src⟩] ++ [⟨24, dest⟩] ++ tail) i = h i) ↔
      src = slice h 8 16 ∧ dest = slice h 24 16 := by
  have hCoversSrc (i : Nat) : Piece.Covers ⟨8, src⟩ i ↔ 8 ≤ i ∧ i < 24 := by
    simp only [Piece.Covers, hSrc]
  have hCoversDest (i : Nat) : Piece.Covers ⟨24, dest⟩ i ↔ 24 ≤ i ∧ i < 40 := by
    simp only [Piece.Covers, hDest]
  have hNotTail (i : Nat) (hFrom : 8 ≤ i) (hTo : i < 40) : ∀ other ∈ tail, ¬ other.Covers i :=
    hTail.not_covers fun hRegion =>
      have hEdge := (hElse i).mp (Or.inr hRegion)
      by omega
  have hWithin : (src = slice h 8 16 ↔ Piece.Within ⟨8, src⟩ h) ∧
      (dest = slice h 24 16 ↔ Piece.Within ⟨24, dest⟩ h) := by
    simp only [Piece.Within, hSrc, hDest, and_self]
  rw [hWithin.1, hWithin.2]
  constructor
  · intro hAll
    constructor
    · have hAlone : ∀ other ∈ ⟨24, dest⟩ :: tail, ∀ i, Piece.Covers ⟨8, src⟩ i →
          ¬ other.Covers i := by
        intro other hMem i hCovers
        rw [hCoversSrc] at hCovers
        rcases List.mem_cons.mp hMem with rfl | hIn
        · rw [hCoversDest]
          omega
        · exact hNotTail i (by omega) (by omega) other hIn
      refine (Piece.writeAll_eq_iff_within buf start hAlone).mp fun i hi => ?_
      rw [hCoversSrc] at hi
      simpa using hAll i (by omega)
    · have hAlone : ∀ other ∈ tail, ∀ i, Piece.Covers ⟨24, dest⟩ i → ¬ other.Covers i := by
        intro other hMem i hCovers
        rw [hCoversDest] at hCovers
        exact hNotTail i (by omega) (by omega) other hMem
      refine (Piece.writeAll_eq_iff_within buf (start ++ [⟨8, src⟩])
        hAlone).mp fun i hi => ?_
      rw [hCoversDest] at hi
      simpa using hAll i (by omega)
  · rintro ⟨hSrcIn, hDestIn⟩ i hi
    have hMiddle : Piece.Restore h (fun i => 8 ≤ i ∧ i < 40) [⟨8, src⟩, ⟨24, dest⟩] := by
      refine ⟨by simp [hSrcIn, hDestIn], fun i => ?_⟩
      simp only [List.mem_cons, List.not_mem_nil, or_false, exists_eq_or_imp, exists_eq_left,
        hCoversSrc, hCoversDest]
      omega
    have hRestore := (hStart.append hMiddle).append hTail
    have hRegion : (region i ∨ 8 ≤ i ∧ i < 40) ∨ region' i := by
      by_cases hIn : 8 ≤ i ∧ i < 40
      · exact Or.inl (Or.inr hIn)
      · rcases (hElse i).mpr ⟨hi, by omega⟩ with hFront | hBack
        · exact Or.inl (Or.inl hFront)
        · exact Or.inr hBack
    have hAt := hRestore.writeAll (m := buf) hRegion
    simpa using hAt

/-- The payload length in the header. -/
def ipLength (h : Nat → Byte) : Nat := (h 4).toNat * 256 + (h 5).toNat

theorem ofInt_of_mod {len : Int} {b : Byte} (hMod : len % 2 ^ 8 = b.toNat) :
    UInt8.ofInt len = b := by
  rw [UInt8.ofInt, hMod, Int.toNat_natCast, UInt8.ofNat_toNat]

theorem lenBytes_ipLength (h : Nat → Byte) : lenBytes (ipLength h) = [h 4, h 5] := by
  have hHigh := (h 4).toNat_lt
  have hLow := (h 5).toNat_lt
  rw [lenBytes, ipLength, ofInt_of_mod (b := h 4) (by omega), ofInt_of_mod (b := h 5) (by omega)]

/-- The length pieces, with that of a UDP header if there is one. -/
theorem restore_lenBytes (hUdplen : h 6 = uipProtoUdp → h 44 = h 4 ∧ h 45 = h 5) :
    Piece.Restore h (fun i => i = 4 ∨ i = 5 ∨ h 6 = uipProtoUdp ∧ (i = 44 ∨ i = 45))
      (⟨4, [h 4, h 5]⟩ :: if h 6 = uipProtoUdp then [⟨44, [h 4, h 5]⟩] else []) := by
  by_cases hUdp : h 6 = uipProtoUdp
  · simp only [hUdp, if_true, true_and]
    refine ⟨?_, fun i => ?_⟩
    · simp [hUdplen hUdp]
    · simp [Piece.Covers]
      omega
  · simp only [hUdp, if_false, false_and, or_false]
    refine ⟨?_, fun i => ?_⟩
    · simp
    · simp [Piece.Covers]
      omega

/-- The headers of a packet: version 6, and if UDP follows, its length is the payload length. -/
structure Header (h : Nat → Byte) : Prop where
  version : h 0 &&& 0xF0 = version6
  udplen : h 6 = uipProtoUdp → h 44 = h 4 ∧ h 45 = h 5

/-- What is written when all the stages have a result. -/
theorem headers_right_iff {tf proto ttl udp : List (Piece Byte)} {src dest : List Byte}
    (hHeader : Header h) (hTf : Piece.Restore h (· < 4) tf)
    (hProto : Piece.Restore h (fun i => i = 6 ∧ h 6 ≠ uipProtoUdp) proto)
    (hTtl : Piece.Restore h (· = 7) ttl)
    (hUdp : Piece.Restore h
      (fun i => h 6 = uipProtoUdp ∧ (i = 6 ∨ 40 ≤ i ∧ i < 44 ∨ 46 ≤ i ∧ i < 48)) udp)
    (hSrc : src.length = 16) (hDest : dest.length = 16) :
    let pieces := tf ++ proto ++ ttl ++ [⟨8, src⟩] ++ [⟨24, dest⟩] ++ udp
    let len := lenBytes (ipLength h)
    (∀ i < uipIphLen + if h 6 = uipProtoUdp then uipUdphLen else 0,
      Piece.writeAll buf (pieces ++ ⟨4, len⟩ ::
        if Piece.writeAll buf pieces 6 = uipProtoUdp then [⟨44, len⟩] else []) i = h i) ↔
      src = slice h 8 16 ∧ dest = slice h 24 16 := by
  have hStart := (hTf.append hProto).append hTtl
  have hProto6 : Piece.writeAll buf
      (tf ++ proto ++ ttl ++ [⟨8, src⟩] ++ [⟨24, dest⟩] ++ udp) 6 = h 6 := by
    rw [Piece.writeAll_append]
    by_cases hIs : h 6 = uipProtoUdp
    · exact hUdp.writeAll ⟨hIs, Or.inl rfl⟩
    · rw [Piece.writeAll_of_not_covers (hUdp.not_covers (by simp [hIs])),
        List.append_assoc, Piece.writeAll_append, Piece.writeAll_of_not_covers]
      · exact hStart.writeAll (Or.inl (Or.inr ⟨rfl, hIs⟩))
      · simp [Piece.Covers]
  have hTail := hUdp.append (restore_lenBytes hHeader.udplen)
  dsimp only
  rw [hProto6, lenBytes_ipLength, List.append_assoc]
  refine addresses_right_iff hStart hTail (Nat.le_add_right ..) hSrc hDest fun i => ?_
  by_cases hIs : h 6 = uipProtoUdp
  · simp only [hIs, if_true, true_and, uipIphLen, uipUdphLen, ne_eq, not_true, and_false,
      or_false]
    omega
  · simp only [hIs, if_false, false_and, uipIphLen, ne_eq, not_false_eq_true, and_true,
      or_false, false_or]
    omega

/-- A frame that carries the compressed header at `packetbuf_hdr_len`, and the length of the
packet: that of the frame, or the size in the header of a first fragment. -/
structure Carries (h : Nat → Byte) (hdr : CompressedHdr) (pkt : Nat → Byte)
    (hdrLen datalen ipLen : Nat) : Prop where
  bytes : slice pkt hdrLen hdr.bytes.length = hdr.bytes
  length : ipLen = 0 ∧
      datalen + hdr.uncompHdrLen = hdrLen + hdr.bytes.length + (uipIphLen + ipLength h) ∨
    ipLen = uipIphLen + ipLength h

theorem uncompHdrLen_eq : (compressHdrIphc contexts sender receiver h).uncompHdrLen =
    uipIphLen + if h 6 = uipProtoUdp then uipUdphLen else 0 := by
  unfold compressHdrIphc
  dsimp only
  split_ifs <;> rfl

theorem Carries.len_eq {hdrLen datalen ipLen : Nat}
    (hCarries : Carries h (compressHdrIphc contexts sender receiver h) pkt hdrLen datalen ipLen) :
    (if ipLen = 0 then
      (datalen : Int) - ↑(hdrLen + (compressHdrIphc contexts sender receiver h).bytes.length) +
        ↑(if h 6 = uipProtoUdp then uipUdphLen else 0)
      else (ipLen : Int) - uipIphLen) = ipLength h := by
  have hLength := hCarries.length
  rw [uncompHdrLen_eq] at hLength
  split_ifs at hLength ⊢ with hZero <;> simp only [uipIphLen, uipUdphLen] at hLength ⊢ <;> omega

/-- Uncompressing what the frame carries gives the headers back and ends behind it. -/
def RoundTrips (contexts : List AddrContext) (sender receiver : LinkAddr) (h pkt : Nat → Byte)
    (hdrLen datalen : Nat) (buf : Nat → Byte) (ipLen : Nat) : Prop :=
  let hdr := compressHdrIphc contexts sender receiver h
  let back := uncompressHdrIphc contexts sender receiver pkt hdrLen datalen buf ipLen
  back.hdrLen = hdrLen + hdr.bytes.length ∧ back.uncompHdrLen = hdr.uncompHdrLen ∧
    ∀ i < hdr.uncompHdrLen, Piece.writeAll buf back.pieces i = h i

/-- When the receiver can put back both addresses: the numbers lead to contexts with the same
prefixes, and a link-local source address has the zeros that the sender looks for in the
destination address. -/
def Restorable (contexts : List AddrContext) (h : Nat → Byte) : Prop :=
  SrcRestorable contexts h (contextNumbers contexts h >>> 4) ∧
    DestRestorable contexts h (contextNumbers contexts h &&& 0x0f)

theorem uncompressHdrIphc_compressHdrIphc {hdrLen datalen ipLen : Nat} (hHeader : Header h)
    (hCarries : Carries h (compressHdrIphc contexts sender receiver h) pkt hdrLen datalen ipLen) :
    RoundTrips contexts sender receiver h pkt hdrLen datalen buf ipLen ↔
      Restorable contexts h := by
  obtain ⟨⟨hEncoding0, hEncoding1⟩, hCid, hTf, hProto, hTtl, hSrc, hDest, hUdp, hEnd⟩ :=
    compressedHdr_stages hCarries.bytes
  obtain ⟨-, hFl, hTc, hNh, hHl⟩ := encoding0_reads h
  obtain ⟨hCidBit, hSac, hSam, hM, hDac, hDam⟩ := encoding1_reads contexts sender receiver h
  obtain ⟨hTfRestore, hTfEnd⟩ := uncompressTf_compressTf hHeader.version hFl hTc hTf
  obtain ⟨hProtoRestore, hProtoEnd⟩ := uncompressProto_compressProto hNh hProto
  obtain ⟨hTtlRestore, hTtlEnd⟩ := uncompressTtl_compressTtl hHl hTtl
  obtain ⟨hUdpRestore, hUdpEnd⟩ := uncompressUdp_compressUdp hNh hUdp
  have hPtr : (if encoding1 contexts sender receiver h &&& iphcCid ≠ 0 then 1 else 0) =
      (compressCid contexts h (contextNumbers contexts h)).inline.length := by
    rw [hCidBit]
    unfold compressCid
    split_ifs with hEither hBit
    · rfl
    · exact absurd (show iphcCid ≠ 0 by decide) hBit
    · rename_i hBit
      exact absurd rfl hBit
    · rfl
  have hNumbers (hHas : HasContext contexts (srcipaddr h) ∨ HasContext contexts (destipaddr h)) :
      encoding1 contexts sender receiver h &&& iphcCid ≠ 0 ∧
        pkt (hdrLen + 2) = contextNumbers contexts h := by
    have hIs : compressCid contexts h (contextNumbers contexts h) =
        { bits := iphcCid, inline := [contextNumbers contexts h] } :=
      hHas.elim compressCid_of_src compressCid_of_dest
    rw [hIs] at hCid hCidBit
    rw [hCidBit]
    exact ⟨show iphcCid ≠ 0 by decide, by simpa [slice_succ] using hCid⟩
  have hSrcYields := (uncompressSrc_compressSrc (pkt (hdrLen + 2)) hSac hSam
    (fun hHas => (hNumbers (Or.inl hHas)).1) hSrc).congr
      (srcRestorable_congr fun hHas => by rw [(hNumbers (Or.inl hHas)).2])
  have hDestYields := (uncompressDest_compressDest (pkt (hdrLen + 2)) hM hDac hDam
    (fun hHas => (hNumbers (Or.inr hHas)).1) hDest).congr
      (destRestorable_congr fun hHas => by rw [(hNumbers (Or.inr hHas)).2])
  have hLonger : hdrLen < hdrLen + (compressHdrIphc contexts sender receiver h).bytes.length := by
    omega
  unfold RoundTrips uncompressHdrIphc
  simp only [hEncoding0, hEncoding1, hPtr, hTfEnd, hProtoEnd, hTtlEnd]
  generalize uncompressSrc pkt _ _ _ _ _ = srcResult at hSrcYields ⊢
  rcases srcResult with _ | ⟨src, srcEnd⟩
  · refine iff_of_false (fun hTrip => ?_) fun hRight => hSrcYields hRight.1
    exact absurd hTrip.1 hLonger.ne
  obtain ⟨hSrcEnd, srcCells, rfl, hSrcLen, hSrcRight⟩ := hSrcYields
  simp only [hSrcEnd]
  generalize uncompressDest pkt _ _ _ _ _ = destResult at hDestYields ⊢
  rcases destResult with _ | ⟨dest, destEnd⟩
  · refine iff_of_false (fun hTrip => ?_) fun hRight => hDestYields hRight.2
    exact absurd hTrip.1 hLonger.ne
  obtain ⟨hDestEnd, destCells, rfl, hDestLen, hDestRight⟩ := hDestYields
  simp only [hDestEnd, hUdpEnd, hEnd]
  generalize (uncompressUdp pkt _ _).1 = udp at hUdpRestore ⊢
  generalize (uncompressTf pkt _ _).1 = tf at hTfRestore ⊢
  generalize (uncompressProto pkt _ _).1 = proto at hProtoRestore ⊢
  generalize (uncompressTtl pkt _ _).1 = ttl at hTtlRestore ⊢
  rw [hCarries.len_eq, uncompHdrLen_eq, true_and, Restorable, ← hSrcRight, ← hDestRight]
  refine (and_iff_right rfl).trans ?_
  exact headers_right_iff hHeader hTfRestore hProtoRestore hTtlRestore hUdpRestore hSrcLen hDestLen

/-- **When compressed headers come back.** Uncompressing what `compress_hdr_iphc` has made
gives the header of any packet byte for byte, and ends where the compressed header does,
exactly if both addresses can be put back. -/
theorem header_roundTrips_iff {hdrLen datalen ipLen : Nat} (hHeader : Header h)
    (hCarries : Carries h (compressHdrIphc contexts sender receiver h) pkt hdrLen datalen ipLen) :
    RoundTrips contexts sender receiver h pkt hdrLen datalen buf ipLen ↔ Restorable contexts h :=
  uncompressHdrIphc_compressHdrIphc hHeader hCarries

end Headers

/-- From fe80:0:0:1::1 to fd00::1, without a next header. -/
def strayLinklocal : Nat → Byte := fun i =>
  ([0x60, 0, 0, 0, 0, 0, 59, 64, 0xfe, 0x80, 0, 0, 0, 0, 0, 1, 0, 0, 0, 0, 0, 0, 0, 1,
    0xfd, 0, 0, 0, 0, 0, 0, 0, 0, 0, 0, 0, 0, 0, 0, 1] : List Byte).getD i 0

/-- A frame with nothing else. -/
def bareFrame (bytes : List Byte) : Nat → Byte := fun i => bytes.getD i 0

theorem header_roundTrips_one :
    Header strayLinklocal ∧
      Carries strayLinklocal (compressHdrIphc [] (fun _ => 0) (fun _ => 0) strayLinklocal)
        (bareFrame (compressHdrIphc [] (fun _ => 0) (fun _ => 0) strayLinklocal).bytes) 0 0 40 ∧
      (RoundTrips [] (fun _ => 0) (fun _ => 0) strayLinklocal
        (bareFrame (compressHdrIphc [] (fun _ => 0) (fun _ => 0) strayLinklocal).bytes) 0 0
        (fun _ => 0) 40 ↔ Restorable [] strayLinklocal) := by
  have hHeader : Header strayLinklocal := ⟨by decide, by decide⟩
  have hCarries : Carries strayLinklocal
      (compressHdrIphc [] (fun _ => 0) (fun _ => 0) strayLinklocal)
      (bareFrame (compressHdrIphc [] (fun _ => 0) (fun _ => 0) strayLinklocal).bytes) 0 0 40 :=
    ⟨by decide, Or.inr (by decide)⟩
  exact ⟨hHeader, hCarries, header_roundTrips_iff hHeader hCarries⟩

/-- The zeros in the prefix of the source address are looked for in that of the destination. -/
theorem header_roundTrips_fails :
    ¬ ∀ (contexts : List AddrContext) (sender receiver : LinkAddr) (h pkt buf : Nat → Byte)
      (hdrLen datalen ipLen : Nat), Header h → ¬ IsAddrMcast (srcipaddr h) →
        Carries h (compressHdrIphc contexts sender receiver h) pkt hdrLen datalen ipLen →
          RoundTrips contexts sender receiver h pkt hdrLen datalen buf ipLen := by
  intro hClaim
  have hTrip := hClaim [] (fun _ => 0) (fun _ => 0) strayLinklocal
    (bareFrame (compressHdrIphc [] (fun _ => 0) (fun _ => 0) strayLinklocal).bytes) (fun _ => 0)
    0 0 40 ⟨by decide, by decide⟩ (by decide) ⟨by decide, Or.inr (by decide)⟩
  exact absurd (hTrip.2.2 15 (by decide)) (by decide)

end Smarthome.Lowpan
