import Smarthome.Lowpan.Reassembly

/-! The bounds of the copies that the processing of frames makes. -/
namespace Smarthome.Lowpan

open Semantics

section HeaderLengths

/-! The lengths of the inline parts of a compressed header, from its encoding bytes. -/

variable (contexts : List AddrContext) (pkt : Nat → Byte) (ptr : Nat) (iphc0 iphc1 : Byte)

def tfInline : Nat :=
  if iphc0 &&& iphcFlC = 0 then (if iphc0 &&& iphcTcC = 0 then 4 else 3)
  else if iphc0 &&& iphcTcC = 0 then 1 else 0

def protoInline : Nat := if iphc0 &&& iphcNhC = 0 then 1 else 0

def ttlInline : Nat := if iphc0 &&& 0x03 ≠ 0 then 0 else 1

/-- An address, by its mode; in the mode 0 it may be whole. -/
def addrInline (tmp : Byte) (whole : Nat) : Nat :=
  if tmp = 0 then whole else if tmp = 1 then 8 else if tmp = 2 then 2 else 0

def mcastInline (tmp : Byte) : Nat :=
  if tmp = 0 then 16 else if tmp = 1 then 6 else if tmp = 2 then 4 else 1

def srcInline : Nat := addrInline (srcMode iphc1) (if iphc1 &&& iphcSac ≠ 0 then 0 else 16)

def destInline : Nat :=
  if iphc1 &&& iphcM ≠ 0 then
    if iphc1 &&& iphcDac ≠ 0 then 0 else mcastInline (destMode iphc1)
  else addrInline (destMode iphc1) (if iphc1 &&& iphcDac ≠ 0 then 0 else 16)

/-- The compressed IP header. -/
def iphcInline : Nat :=
  2 + (if iphc1 &&& iphcCid ≠ 0 then 1 else 0) + tfInline iphc0 + protoInline iphc0 +
    ttlInline iphc0 + srcInline iphc1 + destInline iphc1

def portsInline (nhc : Byte) : Nat :=
  if nhc &&& 0xF3 = 0xF0 then 5 else if nhc &&& 0xF3 = 0xF1 then 4
  else if nhc &&& 0xF3 = 0xF2 then 4 else 2

/-- The compressed UDP header. -/
def udpInline (nhc : Byte) : Nat :=
  portsInline nhc + if nhc &&& nhcUdpChecksumc = 0 then 2 else 0

/-- The contexts that the addresses need are there. -/
def KnowsSrc (sciDci : Byte) : Prop :=
  iphc1 &&& iphcSac ≠ 0 → srcMode iphc1 ≠ 0 →
    (addrContextLookupByNumber contexts
      (if iphc1 &&& iphcCid ≠ 0 then sciDci >>> 4 else 0)).isSome

def KnowsDest (sciDci : Byte) : Prop :=
  iphc1 &&& iphcM = 0 → iphc1 &&& iphcDac ≠ 0 →
    (addrContextLookupByNumber contexts
      (if iphc1 &&& iphcCid ≠ 0 then sciDci &&& 0x0f else 0)).isSome

instance (sciDci : Byte) : Decidable (KnowsSrc contexts iphc1 sciDci) :=
  inferInstanceAs (Decidable (_ → _))

instance (sciDci : Byte) : Decidable (KnowsDest contexts iphc1 sciDci) :=
  inferInstanceAs (Decidable (_ → _))

theorem uncompressTf_end : (uncompressTf pkt ptr iphc0).2 = ptr + tfInline iphc0 := by
  unfold uncompressTf tfInline
  split_ifs <;> rfl

theorem uncompressProto_end : (uncompressProto pkt ptr iphc0).2 = ptr + protoInline iphc0 := by
  unfold uncompressProto protoInline
  split_ifs <;> rfl

theorem uncompressTtl_end : (uncompressTtl pkt ptr iphc0).2 = ptr + ttlInline iphc0 := by
  unfold uncompressTtl ttlInline
  split_ifs <;> rfl

theorem uncompressAddr_ctxconf_end (addrPrefix : Nat → Byte) (tmp : Byte) (m : LinkAddr) :
    (uncompressAddr addrPrefix (uncCtxconf tmp) m pkt ptr).2 = ptr + addrInline tmp 0 := by
  unfold uncCtxconf addrInline
  split_ifs <;> rfl

theorem uncompressAddr_llconf_end (addrPrefix : Nat → Byte) (tmp : Byte) (m : LinkAddr) :
    (uncompressAddr addrPrefix (uncLlconf tmp) m pkt ptr).2 = ptr + addrInline tmp 16 := by
  unfold uncLlconf addrInline
  split_ifs <;> rfl

theorem uncompressMcast_end (tmp : Byte) :
    (uncompressMcast pkt ptr tmp).2 = ptr + mcastInline tmp := by
  by_cases h0 : tmp = 0
  · rw [h0]
    rfl
  by_cases h1 : tmp = 1
  · rw [h1]
    rfl
  by_cases h2 : tmp = 2
  · rw [h2]
    rfl
  · simp only [uncompressMcast, uncMxconf, mcastInline, h0, h1, h2, or_self, if_false]
    rfl

theorem length_uncompressAddr (addrPrefix : Nat → Byte) (conf : Byte) (m : LinkAddr) :
    (uncompressAddr addrPrefix conf m pkt ptr).1.length = 16 :=
  length_slice ..

theorem uncompressPorts_end : (uncompressPorts pkt ptr).2 = ptr + portsInline (pkt ptr) := by
  unfold uncompressPorts portsInline
  split_ifs <;> rfl

/-- A piece that an address makes. -/
def IsAddrPieces (offset last : Nat) (result : List (Piece Byte) × Nat) : Prop :=
  (∀ piece ∈ result.1, piece.offset = offset ∧ piece.cells.length = 16) ∧ result.2 = last

theorem isAddrPieces_atOffset {offset last : Nat} {addr : List Byte × Nat}
    (hLength : addr.1.length = 16) (hEnd : addr.2 = last) :
    IsAddrPieces offset last (atOffset offset addr) :=
  ⟨by simp [atOffset, hLength], hEnd⟩

theorem uncompressSrc_spec (sender : LinkAddr) (sciDci : Byte) :
    (¬ KnowsSrc contexts iphc1 sciDci ∧
        uncompressSrc pkt ptr iphc1 contexts sender sciDci = none) ∨
      KnowsSrc contexts iphc1 sciDci ∧
        ∃ result, uncompressSrc pkt ptr iphc1 contexts sender sciDci = some result ∧
          IsAddrPieces 8 (ptr + srcInline iphc1) result := by
  unfold uncompressSrc KnowsSrc srcInline
  by_cases hSac : iphc1 &&& iphcSac ≠ 0
  · by_cases hMode : srcMode iphc1 ≠ 0
    · simp only [hSac, hMode, not_false_eq_true, forall_true_left, ne_eq]
      cases hLookup : addrContextLookupByNumber contexts _ with
      | none => exact Or.inl ⟨by simp, rfl⟩
      | some context =>
          exact Or.inr ⟨rfl, _, rfl, isAddrPieces_atOffset (length_uncompressAddr ..)
            (uncompressAddr_ctxconf_end ..)⟩
    · rw [if_pos hSac, if_pos hSac, if_neg hMode]
      exact Or.inr ⟨fun _ hNot => absurd hNot hMode, _, rfl,
        isAddrPieces_atOffset (length_uncompressAddr ..) (uncompressAddr_ctxconf_end ..)⟩
  · rw [if_neg hSac, if_neg hSac]
    exact Or.inr ⟨fun hNot => absurd hNot hSac, _, rfl,
      isAddrPieces_atOffset (length_uncompressAddr ..) (uncompressAddr_llconf_end ..)⟩

theorem uncompressDest_spec (receiver : LinkAddr) (sciDci : Byte) :
    (¬ KnowsDest contexts iphc1 sciDci ∧
        uncompressDest pkt ptr iphc1 contexts receiver sciDci = none) ∨
      KnowsDest contexts iphc1 sciDci ∧
        ∃ result, uncompressDest pkt ptr iphc1 contexts receiver sciDci = some result ∧
          IsAddrPieces 24 (ptr + destInline iphc1) result := by
  unfold uncompressDest KnowsDest destInline
  by_cases hM : iphc1 &&& iphcM ≠ 0
  · rw [if_pos hM, if_pos hM]
    refine Or.inr ⟨fun hNot => absurd hNot hM, ?_⟩
    split_ifs
    · exact ⟨_, rfl, nofun, rfl⟩
    · exact ⟨_, rfl, isAddrPieces_atOffset (length_slice ..) (uncompressMcast_end ..)⟩
  · rw [if_neg hM, if_neg hM]
    by_cases hDac : iphc1 &&& iphcDac ≠ 0
    · simp only [not_not.mp hM, hDac, not_false_eq_true, forall_true_left, ne_eq]
      cases hLookup : addrContextLookupByNumber contexts _ with
      | none => exact Or.inl ⟨by simp, rfl⟩
      | some context =>
          exact Or.inr ⟨rfl, _, rfl, isAddrPieces_atOffset (length_uncompressAddr ..)
            (uncompressAddr_ctxconf_end ..)⟩
    · rw [if_neg hDac, if_neg hDac]
      exact Or.inr ⟨fun _ hNot => absurd hNot hDac, _, rfl,
        isAddrPieces_atOffset (length_uncompressAddr ..) (uncompressAddr_llconf_end ..)⟩

theorem uncompressUdp_spec :
    (uncompressUdp pkt ptr iphc0).2 = (if HasUdp pkt ptr iphc0 then
      (ptr + udpInline (pkt ptr), uipUdphLen) else (ptr, 0)) ∧
    ∀ piece ∈ (uncompressUdp pkt ptr iphc0).1, piece.offset + piece.cells.length ≤ 48 := by
  have hPorts : ∀ piece ∈ (uncompressPorts pkt ptr).1,
      piece.offset + piece.cells.length ≤ 48 := by
    unfold uncompressPorts
    split_ifs <;> simp
  unfold uncompressUdp
  by_cases hUdp : HasUdp pkt ptr iphc0
  · simp only [if_pos hUdp, uncompressPorts_end]
    unfold udpInline
    split_ifs
    · refine ⟨by rw [Nat.add_assoc], ?_⟩
      simp only [List.cons_append, List.forall_mem_cons, List.forall_mem_append,
        length_slice, List.length_singleton]
      exact ⟨by decide, hPorts, by decide, nofun⟩
    · refine ⟨rfl, ?_⟩
      simp only [List.append_nil, List.forall_mem_cons, List.length_singleton]
      exact ⟨by decide, hPorts⟩
  · simp [if_neg hUdp]

/-- `packetbuf_hdr_len` and `uncomp_hdr_len` after `uncompress_hdr_iphc`. -/
def iphcLengths (hdrLen : Nat) : Nat × Nat :=
  let iphc0 := pkt hdrLen
  let iphc1 := pkt (hdrLen + 1)
  let sciDci := pkt (hdrLen + 2)
  let last := hdrLen + iphcInline iphc0 iphc1
  if KnowsSrc contexts iphc1 sciDci ∧ KnowsDest contexts iphc1 sciDci then
    if HasUdp pkt last iphc0 then (last + udpInline (pkt last), uipIphLen + uipUdphLen)
    else (last, uipIphLen)
  else (hdrLen, 0)

theorem start_pieces : ∀ piece ∈ (uncompressTf pkt ptr iphc0).1 ++
    (uncompressProto pkt (ptr + tfInline iphc0) iphc0).1 ++
      (uncompressTtl pkt (ptr + tfInline iphc0 + protoInline iphc0) iphc0).1,
    piece.offset + piece.cells.length ≤ 48 := by
  have hTf : ∀ piece ∈ (uncompressTf pkt ptr iphc0).1,
      piece.offset + piece.cells.length ≤ 48 := by
    unfold uncompressTf
    split_ifs <;> simp
  have hProto (ptr : Nat) : ∀ piece ∈ (uncompressProto pkt ptr iphc0).1,
      piece.offset + piece.cells.length ≤ 48 := by
    unfold uncompressProto
    split_ifs <;> simp
  have hTtl (ptr : Nat) : ∀ piece ∈ (uncompressTtl pkt ptr iphc0).1,
      piece.offset + piece.cells.length ≤ 48 := by
    unfold uncompressTtl
    split_ifs <;> simp
  simp only [List.forall_mem_append]
  exact ⟨⟨hTf, hProto _⟩, hTtl _⟩

/-- What is written stays within the first 48 bytes. -/
theorem uncompressHdrIphc_spec (sender receiver : LinkAddr) (hdrLen datalen : Nat)
    (buf : Nat → Byte) (ipLen : Nat) :
    let hdr := uncompressHdrIphc contexts sender receiver pkt hdrLen datalen buf ipLen
    (hdr.hdrLen, hdr.uncompHdrLen) = iphcLengths contexts pkt hdrLen ∧
      ∀ piece ∈ hdr.pieces, piece.offset + piece.cells.length ≤ 48 := by
  have hStart := start_pieces pkt
    (hdrLen + 2 + if pkt (hdrLen + 1) &&& iphcCid ≠ 0 then 1 else 0) (pkt hdrLen)
  have hAddr {offset last : Nat} {result : List (Piece Byte) × Nat} (hOffset : offset ≤ 24)
      (hIs : IsAddrPieces offset last result) :
      ∀ piece ∈ result.1, piece.offset + piece.cells.length ≤ 48 := by
    intro piece hMem
    have hPiece := hIs.1 piece hMem
    omega
  unfold uncompressHdrIphc iphcLengths
  simp only [uncompressTf_end, uncompressProto_end, uncompressTtl_end]
  rcases uncompressSrc_spec contexts pkt (hdrLen + 2 +
    (if pkt (hdrLen + 1) &&& iphcCid ≠ 0 then 1 else 0) + tfInline (pkt hdrLen) +
      protoInline (pkt hdrLen) + ttlInline (pkt hdrLen)) (pkt (hdrLen + 1)) sender
        (pkt (hdrLen + 2)) with
    ⟨hUnknown, hIs⟩ | ⟨hKnowsSrc, src, hIs, hSrc⟩
  · simp only [hIs, hUnknown, false_and, if_false]
    exact ⟨trivial, hStart⟩
  simp only [hIs, hSrc.2]
  rcases uncompressDest_spec contexts pkt (hdrLen + 2 +
    (if pkt (hdrLen + 1) &&& iphcCid ≠ 0 then 1 else 0) + tfInline (pkt hdrLen) +
      protoInline (pkt hdrLen) + ttlInline (pkt hdrLen) + srcInline (pkt (hdrLen + 1)))
        (pkt (hdrLen + 1)) receiver (pkt (hdrLen + 2)) with
    ⟨hUnknown, hIs⟩ | ⟨hKnowsDest, dest, hIs, hDest⟩
  · simp only [hIs, hUnknown, and_false, if_false]
    exact ⟨trivial, List.forall_mem_append.mpr ⟨hStart, hAddr (by decide) hSrc⟩⟩
  simp only [hIs, hDest.2, hKnowsSrc, hKnowsDest, and_self, if_true]
  have hLast : hdrLen + 2 + (if pkt (hdrLen + 1) &&& iphcCid ≠ 0 then 1 else 0) +
      tfInline (pkt hdrLen) + protoInline (pkt hdrLen) + ttlInline (pkt hdrLen) +
        srcInline (pkt (hdrLen + 1)) + destInline (pkt (hdrLen + 1)) =
      hdrLen + iphcInline (pkt hdrLen) (pkt (hdrLen + 1)) := by
    simp only [iphcInline, Nat.add_assoc]
  rw [hLast]
  obtain ⟨hUdpEnd, hUdp⟩ := uncompressUdp_spec pkt
    (hdrLen + iphcInline (pkt hdrLen) (pkt (hdrLen + 1))) (pkt hdrLen)
  refine ⟨?_, ?_⟩
  · rw [hUdpEnd]
    split_ifs <;> rfl
  · simp only [List.forall_mem_append, List.forall_mem_cons]
    refine ⟨⟨⟨⟨?_, hAddr (by decide) hSrc⟩, hAddr (by decide) hDest⟩, hUdp⟩, by simp [lenBytes], ?_⟩
    · exact List.forall_mem_append.mp hStart |>.imp_left List.forall_mem_append.mp
    · split_ifs <;> simp [lenBytes]

/-- `packetbuf_hdr_len` and `uncomp_hdr_len` behind a header with a known dispatch. -/
def hdrLengths (hdrLen : Nat) : Option (Nat × Nat) :=
  if pkt hdrLen &&& 0xe0 = dispatchIphc then some (iphcLengths contexts pkt hdrLen)
  else if pkt hdrLen = dispatchIpv6 then
    some (hdrLen + sicslowpanIpv6HdrLen + uipIphLen, uipIphLen)
  else none

theorem hdrLengths_le {hdrLen : Nat} {lengths : Nat × Nat}
    (hSome : hdrLengths contexts pkt hdrLen = some lengths) : lengths.2 ≤ 48 := by
  unfold hdrLengths at hSome
  split_ifs at hSome
  · rw [← Option.some.inj hSome, iphcLengths]
    split_ifs <;> simp [uipIphLen, uipUdphLen]
  · rw [← Option.some.inj hSome]
    simp [uipIphLen]

theorem inputHdr_spec (frame : Frame) (hdrLen ipLen : Nat) (buffer : Nat → Byte) :
    (hdrLengths contexts frame.packetbuf hdrLen = none ∧
        inputHdr contexts frame hdrLen ipLen buffer = none) ∨
      ∃ hdr, hdrLengths contexts frame.packetbuf hdrLen = some (hdr.hdrLen, hdr.uncompHdrLen) ∧
        inputHdr contexts frame hdrLen ipLen buffer = some hdr ∧
          ∀ piece ∈ hdr.pieces, piece.offset + piece.cells.length ≤ 48 := by
  unfold hdrLengths inputHdr
  split_ifs
  · obtain ⟨hLengths, hPieces⟩ := uncompressHdrIphc_spec contexts frame.packetbuf frame.sender
      frame.receiver hdrLen frame.datalen buffer ipLen
    exact Or.inr ⟨_, congrArg some hLengths.symm, rfl, hPieces⟩
  · exact Or.inr ⟨_, rfl, rfl, by simp [uipIphLen]⟩
  · exact Or.inl ⟨rfl, rfl⟩

end HeaderLengths

/-- The size of a first fragment with its header uncompressed. -/
def expandedLen (contexts : List AddrContext) (frame : Frame) : Nat :=
  match hdrLengths contexts frame.packetbuf sicslowpanFrag1HdrLen with
  | some (hdrLen, uncompHdrLen) => uncompHdrLen + (frame.datalen - hdrLen)
  | none => 0

section Steps

variable {contexts : List AddrContext} {s t : State} {frame : Frame} {context : Context}

theorem copies_inside {target : Target} {pieces : List (Piece Byte)} :
    (∀ copy ∈ copies target pieces, copy.Inside) ↔
      ∀ piece ∈ pieces, piece.offset + piece.cells.length ≤ target.size := by
  simp only [copies, List.forall_mem_map, Copy.Inside]
  refine forall₂_congr fun piece _ => ?_
  omega

/-- The buffers in use belong to contexts in use, and no first fragment is too long for
`uip_buf`. -/
structure Sound (s : State) : Prop where
  inUse : ∀ slot, 0 < (s.fragBuf slot).len → 0 < (s.fragInfo (s.fragBuf slot).index).len
  firstFragLen : ∀ c, (s.fragInfo c).firstFragLen ≤ uipBufsize

theorem Sound.clearFragments (h : Sound s) (context : Context) :
    Sound (s.clearFragments context) where
  inUse slot hLen := by
    obtain ⟨hHolds, hNe⟩ := State.clearFragments_holds.mp
      (show (s.clearFragments context).Holds _ slot from ⟨hLen, rfl⟩)
    rw [State.clearFragments_fragInfo_of_ne hNe, ← hHolds.2]
    exact h.inUse slot hHolds.1
  firstFragLen c := by
    by_cases hEq : c = context
    · rw [hEq, State.clearFragments_fragInfo_self]
      exact h.firstFragLen context
    · rw [State.clearFragments_fragInfo_of_ne hEq]
      exact h.firstFragLen c

theorem Sound.clears (h : Sound s) (hClears : Clears s t) : Sound t := by
  induction hClears with
  | refl => exact h
  | clear context _ ih => exact ih.clearFragments context

/-- A context of the same state of use, or one that has no buffers. -/
theorem Sound.setInfo (h : Sound s) (context : Context) (info : FragInfo)
    (hLen : info.firstFragLen ≤ uipBufsize)
    (hUse : 0 < (s.fragInfo context).len → 0 < info.len) : Sound (s.setInfo context info) where
  inUse slot hSlot := by
    have hOld := h.inUse slot hSlot
    simp only [State.setInfo_fragInfo, State.setInfo_fragBuf, Function.update_apply]
    split_ifs with hEq
    · exact hUse (hEq ▸ hOld)
    · exact hOld
  firstFragLen c := by
    simp only [State.setInfo_fragInfo, Function.update_apply]
    split_ifs
    · exact hLen
    · exact h.firstFragLen c

theorem Sound.storeAt (h : Sound s) (frame : Frame) (slot : Slot) (offset : Nat)
    (hUse : 0 < (s.fragInfo context).len) : Sound (s.storeAt frame slot context offset) where
  inUse other hLen := by
    by_cases hEq : other = slot
    · rw [hEq]
      simpa [State.storeAt] using hUse
    · simp only [State.storeAt, Function.update_of_ne hEq] at hLen ⊢
      exact h.inUse other hLen
  firstFragLen := h.firstFragLen

theorem Sound.writeFirst {pieces : List (Piece Byte)} (h : Sound s) :
    Sound (s.writeFirst frame context pieces) := by
  have hSet := h.setInfo context { s.fragInfo context with
    firstFrag := Piece.writeAll (s.fragInfo context).firstFrag pieces } (h.firstFragLen context) id
  exact ⟨hSet.inUse, hSet.firstFragLen⟩

theorem Sound.finish (h : Sound s) : Sound (s.finish frame context) := by
  unfold State.finish
  split_ifs
  · have hClear := (h.setInfo context { s.fragInfo context with reassembledLen := frame.fragSize }
      (h.firstFragLen context) id).clearFragments context
    exact ⟨hClear.inUse, hClear.firstFragLen⟩
  · exact ⟨h.inUse, h.firstFragLen⟩

theorem Sound.opened (h : Sound t) (hFree : (t.fragInfo context).len = 0) (info : FragInfo)
    (hLen : info.firstFragLen ≤ uipBufsize) (received : Context → List Received) :
    Sound { t.setInfo context info with received := received } := by
  have hSet := h.setInfo context info hLen fun hUse => absurd hFree hUse.ne'
  exact ⟨hSet.inUse, hSet.firstFragLen⟩

/-- A context that was opened has no fragments yet. -/
theorem Sound.not_holds (h : Sound t) (hFree : (t.fragInfo context).len = 0) (slot : Slot) :
    ¬ t.Holds context slot := fun hHolds =>
  absurd (hHolds.2 ▸ hFree) (h.inUse slot hHolds.1).ne'

theorem inputPayload_cases (frame : Frame) (hdr : UncompressedHdr) :
    ((frame.datalen < hdr.hdrLen ∨
        uipBufsize < hdr.uncompHdrLen + (frame.datalen - hdr.hdrLen)) ∧
      inputPayload frame hdr = none) ∨
    hdr.hdrLen ≤ frame.datalen ∧ hdr.uncompHdrLen + (frame.datalen - hdr.hdrLen) ≤ uipBufsize ∧
      inputPayload frame hdr = some ⟨hdr.uncompHdrLen,
        slice frame.packetbuf hdr.hdrLen (frame.datalen - hdr.hdrLen)⟩ := by
  unfold inputPayload
  split_ifs with hShort hLong
  · exact Or.inl ⟨Or.inl hShort, rfl⟩
  · exact Or.inl ⟨Or.inr hLong, rfl⟩
  · exact Or.inr ⟨Nat.le_of_not_lt hShort, Nat.le_of_not_lt hLong, rfl⟩

/-- Nothing in one frame is copied beyond `uip_buf`. -/
theorem inputWhole_copied (contexts : List AddrContext) (s : State) (frame : Frame) : ∃ more, (inputWhole contexts s frame).copied = s.copied ++ more ∧
    ∀ copy ∈ more, copy.Inside := by
  unfold inputWhole
  rcases inputHdr_spec contexts frame 0 0 frame.uipBuf with ⟨-, hIs⟩ | ⟨hdr, -, hIs, hPieces⟩
  · rw [hIs]
    exact ⟨[], (List.append_nil _).symm, nofun⟩
  rw [hIs]
  have hHdr : ∀ copy ∈ copies .uipBuf hdr.pieces, copy.Inside :=
    copies_inside.mpr fun piece hMem => (hPieces piece hMem).trans (by decide)
  dsimp only
  rcases inputPayload_cases frame hdr with ⟨-, hIs⟩ | ⟨-, hSize, hIs⟩
  · rw [hIs]
    exact ⟨_, rfl, hHdr⟩
  · rw [hIs]
    refine ⟨_, List.append_assoc .., List.forall_mem_append.mpr ⟨hHdr, copies_inside.mpr ?_⟩⟩
    simpa only [List.mem_singleton, forall_eq, length_slice, Target.size_uipBuf] using hSize

/-- A first fragment is copied within `first_frag` exactly if it is not too long for it. -/
theorem inputFrag1_copied (contexts : List AddrContext) (s : State) (hDatalen : frame.datalen ≤ 128) :
    ∃ more, (inputFrag1 contexts s frame).copied = s.copied ++ more ∧
      ((∀ copy ∈ more, copy.Inside) ↔
        (s.HasFree frame → expandedLen contexts frame ≤ sicslowpanFirstFragmentSize)) := by
  obtain ⟨t, hClears, ⟨hNone, hIs⟩ | ⟨hFree, i, -, -, hIs⟩⟩ := openContext_spec s frame
  · refine ⟨[], ?_, by simp [hNone]⟩
    rw [inputFrag1, hIs, List.append_nil]
    exact hClears.copied_eq
  rw [inputFrag1, hIs, ← hClears.copied_eq]
  generalize hOpen : ({ t.setInfo i _ with received := _ } : State) = u
  have hCopied : t.copied = u.copied := by rw [← hOpen]; rfl
  rw [hCopied]
  dsimp only
  rcases inputHdr_spec contexts frame sicslowpanFrag1HdrLen frame.fragSize
    (u.fragInfo i).firstFrag with ⟨hLengths, hIs⟩ | ⟨hdr, hLengths, hIs, hPieces⟩
  · rw [hIs, expandedLen, hLengths]
    exact ⟨[], (List.append_nil _).symm, by simp⟩
  rw [hIs, expandedLen, hLengths]
  have hHdrLen := hdrLengths_le _ _ hLengths
  have hHdr : ∀ copy ∈ copies (.firstFrag i) hdr.pieces, copy.Inside :=
    copies_inside.mpr fun piece hMem => (hPieces piece hMem).trans (by simp)
  dsimp only at hHdrLen ⊢
  rcases inputPayload_cases frame hdr with ⟨hDropped, hIs⟩ | ⟨-, -, hIs⟩
  · rw [hIs]
    refine ⟨_, rfl, iff_of_true hHdr fun _ => ?_⟩
    simp only [uipBufsize, sicslowpanFirstFragmentSize] at hDropped ⊢
    omega
  · rw [hIs]
    refine ⟨copies (.firstFrag i) hdr.pieces ++ copies (.firstFrag i) [⟨hdr.uncompHdrLen,
      slice frame.packetbuf hdr.hdrLen (frame.datalen - hdr.hdrLen)⟩], ?_, ?_⟩
    · rw [← List.append_assoc]
      dsimp only
      split_ifs <;> rfl
    · rw [List.forall_mem_append, and_iff_right hHdr, copies_inside]
      simp [hFree]

theorem collected_inside (h : Sound s) :
    (∀ piece ∈ s.collected context, piece.offset + piece.cells.length ≤ uipBufsize) ↔
      ∀ slot, s.Holds context slot →
        8 * (s.fragBuf slot).offset + (s.fragBuf slot).len ≤ uipBufsize := by
  simp only [State.collected, List.forall_mem_cons, List.forall_mem_map, List.mem_filter,
    List.mem_finRange, true_and, decide_eq_true_eq, length_slice, Nat.zero_add]
  exact and_iff_right (h.firstFragLen context)

/-- A context is copied within `uip_buf` exactly if its fragments end there. -/
theorem finish_copied (h : Sound s) (frame : Frame) (context : Context) :
    ∃ more, (s.finish frame context).copied = s.copied ++ more ∧
      ((∀ copy ∈ more, copy.Inside) ↔ (0 < frame.fragSize → ∀ slot, s.Holds context slot →
        8 * (s.fragBuf slot).offset + (s.fragBuf slot).len ≤ uipBufsize)) := by
  unfold State.finish
  split_ifs with hSize
  · refine ⟨_, rfl, ?_⟩
    rw [copies_inside, Target.size_uipBuf, ← collected_inside h]
    exact ⟨fun hAll _ => hAll, fun hAll => hAll hSize⟩
  · exact ⟨[], (List.append_nil _).symm, by simp [hSize]⟩

/-- The frame is stored as the fragment that completes the context. -/
def Completes (s : State) (frame : Frame) (i : Context) : Prop :=
  sicslowpanFragnHdrLen < frame.datalen ∧
    8 * frame.fragOffset + (frame.datalen - sicslowpanFragnHdrLen) ≤ uipBufsize ∧
    0 < frame.fragSize ∧ frame.fragSize ≤
      ((s.fragInfo i).reassembledLen + (frame.datalen - sicslowpanFragnHdrLen)) % 65536

instance (s : State) (frame : Frame) (i : Context) : Decidable (Completes s frame i) :=
  inferInstanceAs (Decidable (_ ∧ _ ∧ _ ∧ _))

/-- A following fragment that is stored fits into its buffer, and if it completes the context,
the fragments before it end within `uip_buf`. -/
def FragnFits (s : State) (frame : Frame) : Prop :=
  frame.fragOffset ≠ 0 → ∀ i, s.findContext frame = some i → s.HasRoom frame i →
    (sicslowpanFragnHdrLen ≤ frame.datalen ∧
      frame.datalen ≤ sicslowpanFragnHdrLen + sicslowpanFragmentSize) ∧
    (Completes s frame i → ∀ slot, s.Holds i slot →
      8 * (s.fragBuf slot).offset + (s.fragBuf slot).len ≤ uipBufsize)

instance (s : State) (frame : Frame) : Decidable (FragnFits s frame) :=
  inferInstanceAs (Decidable (_ → ∀ _, _ → s.HasRoom frame _ → (_ ∧ _) ∧
    (Completes s frame _ → ∀ _, s.Holds _ _ → _)))

theorem inputFragn_copied_of_first (h : Sound s) (hOffset : frame.fragOffset = 0) :
    ∃ more, (inputFragn s frame).copied = s.copied ++ more ∧ ∀ copy ∈ more, copy.Inside := by
  unfold inputFragn State.addFragment
  rw [if_pos hOffset]
  obtain ⟨t, hClears, ⟨-, hIs⟩ | ⟨-, i, -, hInfo, hIs⟩⟩ := openContext_spec s frame
  · rw [hIs]
    exact ⟨[], by rw [List.append_nil]; exact hClears.copied_eq, nofun⟩
  have hFree : (t.fragInfo i).len = 0 := by rw [hInfo]
  have hSound := h.clears hClears
  have hOpened := hSound.opened hFree (openedInfo (t.fragInfo i) frame) (hSound.firstFragLen i)
    (Function.update t.received i [])
  obtain ⟨more, hMore, hInside⟩ := finish_copied hOpened frame i
  have hNone : ∀ copy ∈ more, copy.Inside :=
    hInside.mpr fun _ slot hHolds => absurd hHolds (hSound.not_holds hFree slot)
  rw [hIs]
  dsimp only
  split_ifs
  · exact ⟨[], by rw [List.append_nil]; exact hClears.copied_eq, nofun⟩
  · exact ⟨[], by rw [List.append_nil]; exact hClears.copied_eq, nofun⟩
  · refine ⟨more, ?_, hNone⟩
    rw [hMore, ← hClears.copied_eq]
    rfl
  · exact ⟨[], by rw [List.append_nil]; exact hClears.copied_eq, nofun⟩

theorem findContext_inUse {i : Context} (hFind : s.findContext frame = some i) :
    (s.fragInfo i).tag = frame.fragTag ∧ 0 < (s.fragInfo i).len ∧
      LinkaddrCmp (s.fragInfo i).sender frame.sender := by
  have hSome := List.find?_some hFind
  exact of_decide_eq_true hSome

theorem storedLen_of_le (hFrom : sicslowpanFragnHdrLen ≤ frame.datalen)
    (hTo : frame.datalen ≤ 128) : storedLen frame = frame.datalen - sicslowpanFragnHdrLen := by
  simp only [storedLen, sicslowpanFragnHdrLen] at hFrom ⊢
  omega

theorem storeAt_fragBuf_of_ne {slot other : Slot} {offset : Nat} (hNe : other ≠ slot) :
    (t.storeAt frame slot context offset).fragBuf other = t.fragBuf other :=
  Function.update_of_ne hNe ..

theorem storeAt_fragBuf_self {slot : Slot} {offset : Nat} :
    (t.storeAt frame slot context offset).fragBuf slot =
      { index := context, offset, len := storedLen frame
        data := Piece.write (t.fragBuf slot).data ⟨0, slice frame.packetbuf sicslowpanFragnHdrLen
          (frame.datalen - sicslowpanFragnHdrLen)⟩ } :=
  Function.update_self ..

/-- The buffers of the context after a fragment was stored for it. -/
theorem storeAt_holds {slot other : Slot} {offset : Nat} (hFree : (t.fragBuf slot).len = 0) :
    ((t.storeAt frame slot context offset).Holds context other ↔
      t.Holds context other ∨ other = slot ∧ 0 < storedLen frame) := by
  by_cases hEq : other = slot
  · rw [hEq]
    simp [State.Holds, State.storeAt, hFree, storedLen]
  · simp [State.Holds, State.storeAt, hEq]

section Stored

variable (frame) (offset : Nat) {slot : Slot} {P : FragBuf → Prop}

/-- Storing a fragment leaves the other buffers of its context as they were. -/
theorem exists_stored_iff (hSpares : Spares context s t) (hFree : (t.fragBuf slot).len = 0) :
    (∃ other, (t.storeAt frame slot context offset).Holds context other ∧
        P ((t.storeAt frame slot context offset).fragBuf other)) ↔
      (∃ other, s.Holds context other ∧ P (s.fragBuf other)) ∨
        0 < storedLen frame ∧ P ((t.storeAt frame slot context offset).fragBuf slot) := by
  constructor
  · rintro ⟨other, hHolds, hP⟩
    rcases (storeAt_holds hFree).mp hHolds with hOld | ⟨rfl, hLen⟩
    · have hNe : other ≠ slot := by
        rintro rfl
        exact absurd hFree hOld.1.ne'
      have hBefore := (hSpares.holds other).mp hOld
      rw [storeAt_fragBuf_of_ne hNe, hSpares.fragBuf other hBefore] at hP
      exact Or.inl ⟨other, hBefore, hP⟩
    · exact Or.inr ⟨hLen, hP⟩
  · rintro (⟨other, hBefore, hP⟩ | ⟨hLen, hP⟩)
    · have hNow := (hSpares.holds other).mpr hBefore
      have hNe : other ≠ slot := by
        rintro rfl
        exact absurd hFree hNow.1.ne'
      refine ⟨other, (storeAt_holds hFree).mpr (Or.inl hNow), ?_⟩
      rwa [storeAt_fragBuf_of_ne hNe, hSpares.fragBuf other hBefore]
    · exact ⟨slot, (storeAt_holds hFree).mpr (Or.inr ⟨rfl, hLen⟩), hP⟩

theorem forall_stored_iff (hSpares : Spares context s t) (hFree : (t.fragBuf slot).len = 0) :
    (∀ other, (t.storeAt frame slot context offset).Holds context other →
        P ((t.storeAt frame slot context offset).fragBuf other)) ↔
      (∀ other, s.Holds context other → P (s.fragBuf other)) ∧
        (0 < storedLen frame → P ((t.storeAt frame slot context offset).fragBuf slot)) := by
  have hNot := not_congr
    (exists_stored_iff frame offset (P := fun b => ¬ P b) hSpares hFree)
  simpa only [not_exists, not_and, not_or, not_not] using hNot

end Stored

/-- The copy of a following fragment to the buffer that it is stored in. -/
theorem storedCopy_inside_iff (frame : Frame) (slot : Slot) :
    (⟨.fragBuf slot, 0, (frame.datalen : Int) - sicslowpanFragnHdrLen⟩ : Copy).Inside ↔
      sicslowpanFragnHdrLen ≤ frame.datalen ∧
        frame.datalen ≤ sicslowpanFragnHdrLen + sicslowpanFragmentSize := by
  simp only [Copy.Inside, Target.size_fragBuf, sicslowpanFragnHdrLen, sicslowpanFragmentSize]
  omega

/-- What is asked of a following fragment that has a context and a buffer. -/
theorem fragnFits_iff {i : Context} (hOffset : frame.fragOffset ≠ 0)
    (hFind : s.findContext frame = some i) (hRoom : s.HasRoom frame i) (slot : Slot) :
    FragnFits s frame ↔
      (⟨.fragBuf slot, 0, (frame.datalen : Int) - sicslowpanFragnHdrLen⟩ : Copy).Inside ∧
        (Completes s frame i → ∀ slot, s.Holds i slot →
          8 * (s.fragBuf slot).offset + (s.fragBuf slot).len ≤ uipBufsize) := by
  have hOnly {P : Context → Prop} : (∀ j, s.findContext frame = some j → P j) ↔ P i := by
    simp [hFind]
  rw [FragnFits, forall_prop_of_true hOffset, hOnly, forall_prop_of_true hRoom,
    storedCopy_inside_iff]

/-- A fragment that is stored completes its context if the count says so, provided that it is
within the buffers. -/
theorem completes_iff {i : Context} (hDatalen : frame.datalen ≤ 128)
    (hLen : 0 < storedLen frame) (hFrom : sicslowpanFragnHdrLen ≤ frame.datalen)
    (hBeyond : 8 * frame.fragOffset + (frame.datalen - sicslowpanFragnHdrLen) ≤ uipBufsize) :
    Completes s frame i ↔ 0 < frame.fragSize ∧
      frame.fragSize ≤ ((s.fragInfo i).reassembledLen + storedLen frame) % 65536 := by
  have hStored := storedLen_of_le hFrom hDatalen
  have hPayload : 0 < frame.datalen - sicslowpanFragnHdrLen := hStored ▸ hLen
  rw [Completes, hStored, and_iff_right (Nat.lt_of_sub_pos hPayload), and_iff_right hBeyond]

theorem inputFragn_copied (h : Sound s) (hDatalen : frame.datalen ≤ 128) :
    ∃ more, (inputFragn s frame).copied = s.copied ++ more ∧
      ((∀ copy ∈ more, copy.Inside) ↔ FragnFits s frame) := by
  by_cases hOffset : frame.fragOffset = 0
  · obtain ⟨more, hMore, hInside⟩ := inputFragn_copied_of_first h hOffset
    exact ⟨more, hMore, iff_of_true hInside fun hNot => absurd hOffset hNot⟩
  unfold inputFragn
  rcases addFragment_spec s hOffset with ⟨hFind, hIs⟩ | ⟨i, hFind, t, hSpares, hCases⟩
  · rw [hIs]
    exact ⟨[], (List.append_nil _).symm, iff_of_true nofun fun _ i hSome =>
      nomatch hFind.symm.trans hSome⟩
  rcases hCases with ⟨hFull, hIs⟩ | ⟨hRoom, slot, hFree, hIs⟩
  · rw [hIs]
    refine ⟨[], ?_, iff_of_true nofun fun _ j hSome hRoom => absurd hRoom ?_⟩
    · rw [List.append_nil]
      exact hSpares.clears.copied_eq
    · obtain rfl := Option.some.inj (hFind.symm.trans hSome)
      exact hFull
  rw [fragnFits_iff hOffset hFind hRoom slot, hIs, ← hSpares.clears.copied_eq]
  have hNotComplete (u : State) (hCopied : u.copied = t.copied ++
      [⟨.fragBuf slot, 0, (frame.datalen : Int) - sicslowpanFragnHdrLen⟩])
      (hNot : ¬ Completes s frame i) :
      ∃ more, u.copied = t.copied ++ more ∧ ((∀ copy ∈ more, copy.Inside) ↔
        (⟨.fragBuf slot, 0, (frame.datalen : Int) - sicslowpanFragnHdrLen⟩ : Copy).Inside ∧
        (Completes s frame i → ∀ slot, s.Holds i slot →
          8 * (s.fragBuf slot).offset + (s.fragBuf slot).len ≤ uipBufsize)) :=
    ⟨_, hCopied, by simp only [List.mem_singleton, forall_eq, hNot, false_imp_iff, and_true]⟩
  by_cases hLen : 0 < storedLen frame
  · rw [if_pos hLen]
    dsimp only
    split_ifs with hShort hBeyond hDone
    · refine hNotComplete _ rfl fun hComplete => ?_
      exact absurd hComplete.1 (Nat.not_lt_of_lt hShort)
    · refine hNotComplete _ rfl fun hComplete => ?_
      exact absurd hComplete.2.1 (Nat.not_le_of_lt hBeyond)
    · have hUse : 0 < (t.fragInfo i).len := by
        rw [hSpares.fragInfo]
        exact (findContext_inUse hFind).2.1
      have hSound := (h.clears hSpares.clears).storeAt frame slot frame.fragOffset hUse
      have hBufs := forall_stored_iff frame frame.fragOffset
        (P := fun b => 8 * b.offset + b.len ≤ uipBufsize) hSpares hFree
      rw [storeAt_fragBuf_self] at hBufs
      generalize hAfter : t.storeAt frame slot i frame.fragOffset = u at hSound hDone hBufs ⊢
      obtain ⟨more, hMore, hInside⟩ := finish_copied (hSound.setInfo i { u.fragInfo i with
        reassembledLen := ((u.fragInfo i).reassembledLen + storedLen frame) % 65536 }
        (hSound.firstFragLen i) id) frame i
      refine ⟨[⟨.fragBuf slot, 0, (frame.datalen : Int) - sicslowpanFragnHdrLen⟩] ++ more,
        ?_, ?_⟩
      · rw [hMore, ← List.append_assoc, ← hAfter]
        rfl
      rw [List.forall_mem_append, hInside]
      simp only [List.mem_singleton, forall_eq]
      refine and_congr_right fun hFit => ?_
      have hFrom := ((storedCopy_inside_iff frame slot).mp hFit).1
      have hWithin := Nat.le_of_not_lt hBeyond
      rw [State.setInfo_fragInfo, Function.update_self, ← hAfter] at hDone
      have hCounted : frame.fragSize ≤
          ((s.fragInfo i).reassembledLen + storedLen frame) % 65536 := by
        rw [← hSpares.fragInfo]
        exact hDone
      have hNew : 8 * frame.fragOffset + storedLen frame ≤ uipBufsize := by
        rw [storedLen_of_le hFrom hDatalen]
        exact hWithin
      rw [completes_iff hDatalen hLen hFrom hWithin, and_iff_left hCounted]
      exact imp_congr_right fun _ => hBufs.trans (and_iff_left fun _ => hNew)
    · refine hNotComplete _ rfl fun hComplete => hDone ?_
      have hCounted := ((completes_iff hDatalen hLen (Nat.le_of_not_lt hShort)
        hComplete.2.1).mp hComplete).2
      rw [State.setInfo_fragInfo, Function.update_self]
      rw [← hSpares.fragInfo] at hCounted
      exact hCounted
  · rw [if_neg hLen]
    refine hNotComplete _ rfl fun hComplete => hLen ?_
    have hMore := hComplete.1
    rw [storedLen_of_le hMore.le hDatalen]
    exact Nat.sub_pos_of_lt hMore

theorem Sound.inputFrag1 (h : Sound s) : Sound (inputFrag1 contexts s frame) := by
  unfold Lowpan.inputFrag1
  obtain ⟨t, hClears, ⟨-, hIs⟩ | ⟨-, i, -, hInfo, hIs⟩⟩ := openContext_spec s frame
  · rw [hIs]
    exact h.clears hClears
  have hFree : (t.fragInfo i).len = 0 := by rw [hInfo]
  have hSound := h.clears hClears
  have hOpened := hSound.opened hFree (openedInfo (t.fragInfo i) frame) (hSound.firstFragLen i)
    (Function.update t.received i [])
  rw [hIs]
  dsimp only
  split
  · exact hOpened
  · split
    · exact hOpened.writeFirst
    · rename_i hdr _ _ payload hPayload
      rcases inputPayload_cases frame hdr with ⟨-, hNone⟩ | ⟨-, hSize, hSome⟩
      · exact nomatch hNone.symm.trans hPayload
      obtain rfl := Option.some.inj (hSome.symm.trans hPayload)
      split_ifs
      · refine (Sound.writeFirst (Sound.writeFirst hOpened)).setInfo i _ ?_ id
        simpa only [length_slice] using hSize
      · exact (Sound.writeFirst (Sound.writeFirst hOpened))

theorem Sound.inputFragn (h : Sound s) : Sound (inputFragn s frame) := by
  have hAdd : Sound (s.addFragment frame).1 := by
    by_cases hOffset : frame.fragOffset = 0
    · rw [State.addFragment, if_pos hOffset]
      obtain ⟨t, hClears, ⟨-, hIs⟩ | ⟨-, i, -, hInfo, hIs⟩⟩ := openContext_spec s frame
      · rw [hIs]
        exact h.clears hClears
      · have hFree : (t.fragInfo i).len = 0 := by rw [hInfo]
        have hSound := h.clears hClears
        rw [hIs]
        exact hSound.opened hFree (openedInfo (t.fragInfo i) frame) (hSound.firstFragLen i)
          (Function.update t.received i [])
    · rcases addFragment_spec s hOffset with ⟨-, hIs⟩ |
        ⟨i, hFind, t, hSpares, ⟨-, hIs⟩ | ⟨-, slot, -, hIs⟩⟩
      · rw [hIs]
        exact h
      · rw [hIs]
        exact h.clears hSpares.clears
      · have hUse : 0 < (t.fragInfo i).len := by
          rw [hSpares.fragInfo]
          exact (findContext_inUse hFind).2.1
        have hStored := (h.clears hSpares.clears).storeAt frame slot frame.fragOffset hUse
        rw [hIs]
        split_ifs
        · exact hStored.setInfo i _ (hStored.firstFragLen i) id
        · exact hStored
  unfold Lowpan.inputFragn
  split
  · rename_i t hIs
    rw [hIs] at hAdd
    exact hAdd
  · rename_i t i hIs
    rw [hIs] at hAdd
    split_ifs
    · exact hAdd
    · exact hAdd
    · exact hAdd.finish
    · exact hAdd

theorem Sound.input (h : Sound s) : Sound (input contexts s frame) := by
  unfold Lowpan.input
  split_ifs
  · exact h.inputFrag1
  · exact h.inputFragn
  · unfold inputWhole
    split
    · exact h
    · dsimp only
      split <;> exact ⟨h.inUse, h.firstFragLen⟩

/-- A first fragment that finds a context fits into `first_frag` with its header uncompressed,
and a following one fits into its buffer and leaves none to be copied beyond `uip_buf`. -/
def FrameFits (contexts : List AddrContext) (s : State) (frame : Frame) : Prop :=
  (frame.IsFrag1 → s.HasFree frame →
    expandedLen contexts frame ≤ sicslowpanFirstFragmentSize) ∧
  (frame.IsFragn → FragnFits s frame)

instance (contexts : List AddrContext) (s : State) (frame : Frame) :
    Decidable (FrameFits contexts s frame) :=
  inferInstanceAs (Decidable ((_ → _ → _) ∧ (_ → _)))

theorem input_copied (contexts : List AddrContext) (h : Sound s) (hDatalen : frame.datalen ≤ 128) :
    ∃ more, (input contexts s frame).copied = s.copied ++ more ∧
      ((∀ copy ∈ more, copy.Inside) ↔ FrameFits contexts s frame) := by
  have hApart : frame.IsFrag1 → ¬ frame.IsFragn := fun hFrag1 hFragn =>
    absurd (hFrag1.symm.trans hFragn) (by decide)
  unfold input FrameFits
  split_ifs with hFrag1 hFragn
  · obtain ⟨more, hMore, hInside⟩ := inputFrag1_copied contexts s hDatalen
    exact ⟨more, hMore, by simp [hInside, hFrag1, hApart hFrag1]⟩
  · obtain ⟨more, hMore, hInside⟩ := inputFragn_copied h hDatalen
    exact ⟨more, hMore, by simp [hInside, hFrag1, hFragn]⟩
  · obtain ⟨more, hMore, hInside⟩ := inputWhole_copied contexts s frame
    exact ⟨more, hMore, iff_of_true hInside
      ⟨fun hIs => absurd hIs hFrag1, fun hIs => absurd hIs hFragn⟩⟩

end Steps

theorem Sound.init : Sound State.init := ⟨nofun, fun _ => Nat.zero_le _⟩

/-- All copies so far are inside their targets. -/
def CopiesInside (s : State) : Prop := ∀ copy ∈ s.copied, copy.Inside

/-- **When reassembly stays inside its buffers.** In every sequence of frames of up to 128
bytes all copies lie inside their targets exactly if each frame fits in its turn. -/
theorem copies_inside_iff (contexts : List AddrContext) (frames : List Frame)
    (hDatalen : ∀ frame ∈ frames, frame.datalen ≤ 128) :
    Throughout (receive contexts) CopiesInside State.init frames ↔
      Along (receive contexts) (FrameFits contexts) State.init frames := by
  refine throughout_iff (fun s => Sound s ∧ CopiesInside s) CopiesInside (fun s hs => hs.2) ?_ ?_ frames
    ⟨Sound.init, nofun⟩ (Along.of_labels hDatalen State.init)
  · rintro s frame ⟨hSound, hInside⟩ hFit hAllowed t hStep
    obtain rfl := Option.some.inj hStep
    obtain ⟨more, hMore, hIff⟩ := input_copied contexts hSound hFit
    refine ⟨hSound.input, ?_⟩
    rw [CopiesInside, hMore]
    exact List.forall_mem_append.mpr ⟨hInside, hIff.mpr hAllowed⟩
  · rintro s frame ⟨hSound, -⟩ hFit hNot
    obtain ⟨more, hMore, hIff⟩ := input_copied contexts hSound hFit
    refine ⟨_, rfl, fun hGood => hNot (hIff.mp ?_)⟩
    rw [CopiesInside, hMore] at hGood
    exact (List.forall_mem_append.mp hGood).2

/-- A frame from the address 0, with the bytes of a list. -/
def frameOf (bytes : List Byte) (datalen : Nat) : Frame where
  sender _ := 0
  receiver _ := 0
  packetbuf i := bytes.getD i 0
  datalen := datalen
  uipBuf _ := 0
  expired _ := false

theorem copies_inside_one :
    (∀ frame ∈ [frameOf [0xc1, 0, 0, 7, 0x41] 60], frame.datalen ≤ 128) ∧
      (Throughout (receive []) CopiesInside State.init [frameOf [0xc1, 0, 0, 7, 0x41] 60] ↔
        Along (receive []) (FrameFits []) State.init [frameOf [0xc1, 0, 0, 7, 0x41] 60]) :=
  ⟨by decide, copies_inside_iff [] [frameOf [0xc1, 0, 0, 7, 0x41] 60] (by decide)⟩

/-- A following fragment of 111 bytes, one more than its buffer has. -/
theorem copies_inside_fails : ¬ ∀ (contexts : List AddrContext) (frames : List Frame),
    (∀ frame ∈ frames, frame.datalen ≤ 128) →
      Throughout (receive contexts) CopiesInside State.init frames := by
  intro hClaim
  have hAll := hClaim [] [frameOf [0xc1, 0, 0, 7, 0x41] 60, frameOf [0xe1, 0, 0, 7, 8] 116]
    (by decide)
  have hCopy := hAll.last rfl ⟨.fragBuf 0, 0, 111⟩ (List.mem_of_getElem? (i := 2) rfl)
  exact absurd hCopy (by decide)

end Smarthome.Lowpan
