import Mathlib.Data.Fintype.Card
import Smarthome.Lowpan.Copies
import Smarthome.Lowpan.IphcRoundTrip
import Smarthome.Lowpan.Output

/-! What `output` sends of a UDP packet, `input` puts together again. The frames of a packet
leave the receiver with more and more of its bytes, until all of them are there. -/
namespace Smarthome.Lowpan

open Semantics

/-- The prefix fd00::/64. -/
def IsAddrDefaultPrefix (a : IpAddr) : Prop := a 0 = 0xfd ∧ a 1 = 0 ∧ MiddleZero a

/-- The prefix fe80::/64. -/
def IsAddrLocalPrefix (a : IpAddr) : Prop := IsAddrLinklocal a ∧ MiddleZero a

instance (a : IpAddr) : Decidable (MiddleZero a) := inferInstanceAs (Decidable (_ ∧ _))
instance (a : IpAddr) : Decidable (IsAddrDefaultPrefix a) := inferInstanceAs (Decidable (_ ∧ _))
instance (a : IpAddr) : Decidable (IsAddrLocalPrefix a) := inferInstanceAs (Decidable (_ ∧ _))

/-- A UDP packet in `uip_buf`, from an address of the network and to one or to a group. -/
structure UdpPacket (buf : Nat → Byte) (uipLen : Nat) : Prop where
  version : buf 0 &&& 0xF0 = version6
  proto : buf 6 = uipProtoUdp
  length : uipIphLen + ipLength buf = uipLen
  udplen : buf 44 = buf 4 ∧ buf 45 = buf 5
  size : uipIphLen + uipUdphLen ≤ uipLen ∧ uipLen ≤ uipBufsize
  src : IsAddrDefaultPrefix (srcipaddr buf) ∨ IsAddrLocalPrefix (srcipaddr buf)
  dest : IsAddrDefaultPrefix (destipaddr buf) ∨ IsAddrLocalPrefix (destipaddr buf) ∨
    IsAddrMcast (destipaddr buf)

/-- The receiver has the frame with these bytes in `packetbuf`. -/
structure Arrives (sender receiver : LinkAddr) (bytes : List Byte) (frame : Frame) : Prop where
  sender : frame.sender = sender
  receiver : frame.receiver = receiver
  datalen : frame.datalen = bytes.length
  bytes : slice frame.packetbuf 0 bytes.length = bytes

section Headers

variable {sender receiver : LinkAddr} {buf : Nat → Byte} {uipLen : Nat} {a : IpAddr}

theorem lookupByPrefix_of_default (hPrefix : IsAddrDefaultPrefix a) :
    addrContextLookupByPrefix addrContexts a = addrContexts.head? := by
  obtain ⟨h0, h1, ⟨h2, h3⟩, ⟨h4, h5⟩, h6, h7⟩ := hPrefix
  have hSame : PrefixCmp (fun i => if i = 0 then 0xfd else 0) a := by
    intro i hi
    interval_cases i <;> simp_all
  simp [addrContextLookupByPrefix, addrContexts, hSame]

theorem hasContext_iff : HasContext addrContexts a ↔ IsAddrDefaultPrefix a := by
  refine ⟨fun hHas => ?_, fun hPrefix => ?_⟩
  · by_contra hNot
    refine hHas (List.find?_eq_none.mpr fun context hMem => ?_)
    obtain rfl := List.mem_singleton.mp hMem
    simp only [true_and, decide_eq_true_eq]
    intro hSame
    refine hNot ⟨(hSame 0 (by decide)).symm, (hSame 1 (by decide)).symm, ?_⟩
    exact ⟨⟨(hSame 2 (by decide)).symm, (hSame 3 (by decide)).symm⟩,
      ⟨(hSame 4 (by decide)).symm, (hSame 5 (by decide)).symm⟩,
      ⟨(hSame 6 (by decide)).symm, (hSame 7 (by decide)).symm⟩⟩
  · rw [HasContext, lookupByPrefix_of_default hPrefix]
    exact Option.some_ne_none _

/-- The one context has the number 0. -/
theorem contextNumbers_eq_zero : contextNumbers addrContexts buf = 0 := by
  have hNumber (a : IpAddr) : contextNumber addrContexts a = 0 := by
    unfold contextNumber
    split
    · rename_i context hFound
      obtain rfl := List.mem_singleton.mp (List.mem_of_find?_eq_some hFound)
      rfl
    · rfl
  simp [contextNumbers, hNumber]

theorem numberFinds_zero (hHas : HasContext addrContexts a) : NumberFinds addrContexts 0 a := by
  obtain ⟨context, hFound⟩ := Option.ne_none_iff_exists'.mp hHas
  have hIs := List.find?_some hFound
  obtain rfl := List.mem_singleton.mp (List.mem_of_find?_eq_some hFound)
  exact ⟨_, rfl, (of_decide_eq_true hIs).2⟩

/-- The receiver can put back both addresses. -/
theorem UdpPacket.restorable (h : UdpPacket buf uipLen) : Restorable addrContexts buf := by
  rw [Restorable, contextNumbers_eq_zero]
  refine ⟨⟨fun _ => numberFinds_zero, fun hNot _ _ => ?_⟩, fun _ => numberFinds_zero⟩
  rcases h.src with hDefault | hLocal
  · exact absurd (hasContext_iff.mpr hDefault) hNot
  · exact hLocal.2

/-- Uncompressing gives the headers back and ends behind them. -/
def Uncompresses (buf : Nat → Byte) (hdr : CompressedHdr) (frame : Frame) (hdrLen ipLen : Nat) :
    Prop :=
  ∀ buffer, ∃ back, inputHdr addrContexts frame hdrLen ipLen buffer = some back ∧
    back.hdrLen = hdrLen + hdr.bytes.length ∧ back.uncompHdrLen = hdr.uncompHdrLen ∧
    ∀ i < hdr.uncompHdrLen, Piece.writeAll buffer back.pieces i = buf i

/-- The headers and the payload behind them, written one after the other. -/
theorem Uncompresses.payload {hdr : CompressedHdr} {frame : Frame} {hdrLen ipLen len : Nat}
    (h : Uncompresses buf hdr frame hdrLen ipLen)
    (hDatalen : frame.datalen = hdrLen + hdr.bytes.length + len)
    (hPayload : slice frame.packetbuf (hdrLen + hdr.bytes.length) len =
      slice buf hdr.uncompHdrLen len)
    (hFits : hdr.uncompHdrLen + len ≤ uipBufsize) (buffer : Nat → Byte) :
    ∃ back, inputHdr addrContexts frame hdrLen ipLen buffer = some back ∧
      inputPayload frame back = some ⟨hdr.uncompHdrLen, slice buf hdr.uncompHdrLen len⟩ ∧
      ∀ i < hdr.uncompHdrLen + len, Piece.writeAll buffer
        (back.pieces ++ [⟨hdr.uncompHdrLen, slice buf hdr.uncompHdrLen len⟩]) i = buf i := by
  obtain ⟨back, hBack, hHdrLen, hUncompHdrLen, hHeaders⟩ := h buffer
  refine ⟨back, hBack, ?_, fun i hi => ?_⟩
  · rw [inputPayload, hUncompHdrLen, hHdrLen, hDatalen, Nat.add_sub_cancel_left, hPayload,
      if_neg (Nat.not_lt_of_le (Nat.le_add_right ..)), if_neg (Nat.not_lt_of_le hFits)]
  · rw [Piece.writeAll_append]
    by_cases hIn : i < hdr.uncompHdrLen
    · rw [Piece.writeAll_of_not_covers, hHeaders i hIn]
      simp only [List.mem_singleton, forall_eq, Piece.Covers]
      omega
    · exact (Piece.Restore.of_slice rfl).writeAll ⟨Nat.le_of_not_lt hIn, hi⟩

theorem uncompresses_ipv6 {frame : Frame} {hdrLen ipLen : Nat}
    (hBytes : slice frame.packetbuf hdrLen (compressHdrIpv6 buf).bytes.length =
      (compressHdrIpv6 buf).bytes) :
    Uncompresses buf (compressHdrIpv6 buf) frame hdrLen ipLen := by
  intro buffer
  have hBytes : frame.packetbuf hdrLen = dispatchIpv6 ∧
      slice frame.packetbuf (hdrLen + 1) uipIphLen = slice buf 0 uipIphLen := by
    simpa [compressHdrIpv6, slice_succ frame.packetbuf hdrLen uipIphLen] using hBytes
  rw [inputHdr, hBytes.1, if_neg (by decide), if_pos rfl]
  refine ⟨_, rfl, by simp [compressHdrIpv6, uipIphLen], rfl, fun i hi => ?_⟩
  rw [hBytes.2]
  refine Piece.writeAll_within (h := buf) ?_ ⟨_, List.mem_singleton_self _, Nat.zero_le i, ?_⟩
  · simp [Piece.Within]
  · simpa [compressHdrIpv6] using hi

theorem uncompresses_iphc (h : UdpPacket buf uipLen) {frame : Frame} {hdrLen ipLen : Nat}
    (hSender : frame.sender = sender) (hReceiver : frame.receiver = receiver)
    (hBytes : slice frame.packetbuf hdrLen
      (compressHdrIphc addrContexts sender receiver buf).bytes.length =
        (compressHdrIphc addrContexts sender receiver buf).bytes)
    (hLength : ipLen = 0 ∧
        frame.datalen + (compressHdrIphc addrContexts sender receiver buf).uncompHdrLen =
          hdrLen + (compressHdrIphc addrContexts sender receiver buf).bytes.length + uipLen ∨
      ipLen = uipLen) :
    Uncompresses buf (compressHdrIphc addrContexts sender receiver buf) frame hdrLen ipLen := by
  intro buffer
  have hDispatch : frame.packetbuf hdrLen &&& 0xe0 = dispatchIphc := by
    rw [(compressedHdr_stages hBytes).1.1]
    exact (encoding0_reads buf).1
  rw [inputHdr, if_pos hDispatch, hSender, hReceiver]
  refine ⟨_, rfl, ?_⟩
  refine (uncompressHdrIphc_compressHdrIphc ⟨h.version, fun _ => h.udplen⟩ ⟨hBytes, ?_⟩).mpr
    h.restorable
  rw [h.length]
  exact hLength

/-- The header that `output` makes is undone, in a frame of its own or in a first fragment. -/
theorem uncompresses_outputHdr (h : UdpPacket buf uipLen) {frame : Frame} {hdrLen ipLen : Nat}
    (hSender : frame.sender = sender) (hReceiver : frame.receiver = receiver)
    (hBytes : slice frame.packetbuf hdrLen
      (outputHdr buf uipLen addrContexts sender receiver).bytes.length =
        (outputHdr buf uipLen addrContexts sender receiver).bytes)
    (hLength : ipLen = 0 ∧
        frame.datalen + (outputHdr buf uipLen addrContexts sender receiver).uncompHdrLen =
          hdrLen + (outputHdr buf uipLen addrContexts sender receiver).bytes.length + uipLen ∨
      ipLen = uipLen) :
    Uncompresses buf (outputHdr buf uipLen addrContexts sender receiver) frame hdrLen ipLen := by
  unfold outputHdr at hBytes hLength ⊢
  split_ifs at hBytes hLength ⊢
  · exact uncompresses_iphc h hSender hReceiver hBytes hLength
  · exact uncompresses_ipv6 hBytes

/-- The dispatch of a header is that of no fragment. -/
theorem outputHdr_dispatch (sender receiver : LinkAddr) (buf : Nat → Byte) (uipLen : Nat) :
    ∃ dispatch rest, (outputHdr buf uipLen addrContexts sender receiver).bytes = dispatch :: rest ∧
      dispatch &&& 0xf8 ≠ dispatchFrag1 ∧ dispatch &&& 0xf8 ≠ dispatchFragn := by
  unfold outputHdr
  split_ifs
  · refine ⟨encoding0 buf, _, by
      simp only [compressHdrIphc, List.cons_append, List.nil_append, encoding0]; rfl, ?_⟩
    have hIphc : ∀ b : Byte, b &&& 0xe0 = dispatchIphc →
        b &&& 0xf8 ≠ dispatchFrag1 ∧ b &&& 0xf8 ≠ dispatchFragn := by
      refine byte_forall ?_
      decide +kernel
    exact hIphc _ (encoding0_reads buf).1
  · exact ⟨dispatchIpv6, _, rfl, by decide, by decide⟩

theorem outputHdr_uncompHdrLen (h : UdpPacket buf uipLen) (sender receiver : LinkAddr) :
    (outputHdr buf uipLen addrContexts sender receiver).uncompHdrLen ∈
      [uipIphLen, uipIphLen + uipUdphLen] := by
  unfold outputHdr
  split_ifs
  · rw [uncompHdrLen_eq, if_pos h.proto]
    simp
  · simp [compressHdrIpv6]

theorem length_compressAddr64_le (bitpos : Byte) (a : IpAddr) (m : LinkAddr) :
    (compressAddr64 bitpos a m).inline.length ≤ 8 := by
  unfold compressAddr64
  split_ifs <;> simp

theorem length_compressSrc_le (contexts : List AddrContext) (sender : LinkAddr)
    (buf : Nat → Byte) : (compressSrc contexts sender buf).inline.length ≤ 16 := by
  have hIid := length_compressAddr64_le iphcSamBit (srcipaddr buf) sender
  unfold compressSrc
  by_cases hUnspecified : IsAddrUnspecified (srcipaddr buf)
  · simp [if_pos hUnspecified]
  · rw [if_neg hUnspecified]
    split
    · exact hIid.trans (by decide)
    · split_ifs
      · exact hIid.trans (by decide)
      · simp

theorem length_compressDest_le (contexts : List AddrContext) (receiver : LinkAddr)
    (buf : Nat → Byte) : (compressDest contexts receiver buf).inline.length ≤ 16 := by
  have hIid := length_compressAddr64_le iphcDamBit (destipaddr buf) receiver
  unfold compressDest
  dsimp only
  by_cases hMcast : IsAddrMcast (destipaddr buf)
  · rw [if_pos hMcast]
    unfold compressMcast
    split_ifs <;> simp
  · rw [if_neg hMcast]
    split
    · exact hIid.trans (by decide)
    · split_ifs
      · exact hIid.trans (by decide)
      · simp

/-- A compressed header leaves room for payload in every frame. -/
theorem length_outputHdr_le :
    (outputHdr buf uipLen addrContexts sender receiver).bytes.length ≤ 48 := by
  have hTf : (compressTf buf).inline.length ≤ 4 := by
    unfold compressTf
    split_ifs <;> simp
  have hProto : (compressProto buf).inline.length ≤ 1 := by
    unfold compressProto
    split_ifs <;> simp
  have hTtl : (compressTtl buf).inline.length ≤ 1 := by
    unfold compressTtl
    split_ifs <;> simp
  have hUdp : (compressUdp buf).length ≤ 7 := by
    unfold compressUdp compressPorts
    split_ifs <;> simp
  have hCid (sciDci : Byte) : (compressCid addrContexts buf sciDci).inline.length ≤ 1 := by
    unfold compressCid
    split_ifs <;> simp
  have hSrc := length_compressSrc_le addrContexts sender buf
  have hDest := length_compressDest_le addrContexts receiver buf
  unfold outputHdr
  split_ifs
  · have hNumbers := hCid ((compressSrc addrContexts sender buf).sciDci |||
      (compressDest addrContexts receiver buf).sciDci)
    simp only [compressHdrIphc, List.length_append, List.length_cons, List.length_nil]
    omega
  · simp [compressHdrIpv6, uipIphLen]

end Headers

section Fragments

variable {sender receiver : LinkAddr} {buf : Nat → Byte} {uipLen : Nat} {fragTag : UInt16}
  {s t : State} {frame : Frame} {i : Context}

/-- The fields of a fragment that `output` has made, and what follows them. -/
theorem fragment_reads {dispatch : Byte} {bytes rest : List Byte}
    (hDispatch : dispatch ∈ [dispatchFrag1, dispatchFragn]) (hUipLen : uipLen < 2048)
    (hIs : bytes = fragDispatchSize dispatch uipLen ++ fragTagBytes fragTag ++ rest)
    (hBytes : slice frame.packetbuf 0 bytes.length = bytes) :
    frame.packetbuf 0 &&& 0xf8 = dispatch ∧ frame.fragSize = uipLen ∧
      frame.fragTag = fragTag.toNat ∧ slice frame.packetbuf 4 rest.length = rest := by
  rw [hIs, slice_append_eq_iff] at hBytes
  obtain ⟨hFields, hRest⟩ := hBytes
  simp only [fragDispatchSize, fragTagBytes, List.cons_append, List.nil_append, List.length_cons,
    List.length_nil, slice_succ, slice_zero, List.cons.injEq, and_true, Nat.reduceAdd] at hFields
  obtain ⟨h0, h1, h2, h3⟩ := hFields
  have hHigh : ∀ k < 8, ∀ d ∈ [dispatchFrag1, dispatchFragn],
      (d ||| UInt8.ofNat k) &&& 0xf8 = d ∧ (d ||| UInt8.ofNat k).toNat % 8 = k := by
    decide +kernel
  obtain ⟨hIsDispatch, hSize⟩ := hHigh (uipLen / 256) (by omega) dispatch hDispatch
  have hTag := fragTag.toNat_lt
  refine ⟨?_, ?_, ?_, hRest⟩
  · rw [h0]
    exact hIsDispatch
  · rw [Frame.fragSize, get16, h0, h1]
    generalize (dispatch ||| UInt8.ofNat (uipLen / 256)).toNat = high at hSize
    rw [UInt8.toNat_ofNat']
    omega
  · rw [Frame.fragTag, get16, h2, h3, UInt8.toNat_ofNat', UInt8.toNat_ofNat']
    omega

/-- The buffers in use. -/
def State.usedBufs (s : State) : Finset Slot :=
  Finset.univ.filter fun slot => 0 < (s.fragBuf slot).len

/-- The receiver has the first bytes of the packet, and nothing of another one. -/
structure Collecting (sender : LinkAddr) (fragTag : UInt16) (buf : Nat → Byte) (uipLen : Nat)
    (s : State) (i : Context) (done stored : Nat) : Prop where
  others : ∀ c, c ≠ i → (s.fragInfo c).len = 0
  len : (s.fragInfo i).len = uipLen
  tag : (s.fragInfo i).tag = fragTag.toNat
  sender : (s.fragInfo i).sender = sender
  reassembledLen : (s.fragInfo i).reassembledLen = done
  restore : Piece.Restore buf (· < done) (s.collected i)
  used : s.usedBufs.card ≤ stored

theorem mem_collected {piece : Piece Byte} : piece ∈ s.collected i ↔
    piece = ⟨0, slice (s.fragInfo i).firstFrag 0 (s.fragInfo i).firstFragLen⟩ ∨
      ∃ slot, s.Holds i slot ∧ piece = ⟨8 * (s.fragBuf slot).offset,
        slice (s.fragBuf slot).data 0 (s.fragBuf slot).len⟩ := by
  simp [State.collected, eq_comm]

theorem Clears.free (h : Clears s t) {c : Context} (hFree : (s.fragInfo c).len = 0) :
    (t.fragInfo c).len = 0 := by
  induction h with
  | refl => exact hFree
  | @clear t context _ ih =>
      by_cases hEq : c = context
      · rw [hEq, State.clearFragments_fragInfo_self]
      · rw [State.clearFragments_fragInfo_of_ne hEq]
        exact ih

theorem Clears.usedBufs (h : Clears s t) : t.usedBufs ⊆ s.usedBufs := by
  induction h with
  | refl => exact Finset.Subset.refl _
  | @clear t context _ ih =>
      intro slot hMem
      apply ih
      simp only [State.usedBufs, Finset.mem_filter, Finset.mem_univ, true_and] at hMem ⊢
      by_cases hHolds : t.Holds context slot
      · exact hHolds.1
      · rwa [State.clearFragments_fragBuf_of_not_holds hHolds] at hMem

/-- While there are fewer fragments than buffers, one is free. -/
theorem exists_free_of_card (hUsed : s.usedBufs.card < sicslowpanFragmentBuffers) :
    ∃ slot, (s.fragBuf slot).len = 0 := by
  by_contra hNone
  have hAll : s.usedBufs = Finset.univ := by
    refine Finset.eq_univ_iff_forall.mpr fun slot => ?_
    simp only [State.usedBufs, Finset.mem_filter, Finset.mem_univ, true_and]
    exact Nat.pos_of_ne_zero fun hZero => hNone ⟨slot, hZero⟩
  rw [hAll, Finset.card_univ, Fintype.card_fin] at hUsed
  exact absurd hUsed (Nat.lt_irrefl _)

/-- The one context in use is that of the fragments with its tag. -/
theorem Collecting.findContext {done stored : Nat}
    (h : Collecting sender fragTag buf uipLen s i done stored) (hUipLen : 0 < uipLen)
    (hSender : frame.sender = sender) (hTag : frame.fragTag = fragTag.toNat) :
    s.findContext frame = some i := by
  cases hFind : s.findContext frame with
  | none =>
      have hNot := List.find?_eq_none.mp hFind i (List.mem_finRange i)
      refine absurd (decide_eq_true ?_) hNot
      rw [h.tag, h.len, h.sender, hTag, hSender]
      exact ⟨rfl, hUipLen, fun _ _ => rfl⟩
  | some j =>
      by_contra hNe
      have hFree := h.others j fun hEq => hNe (congrArg some hEq)
      exact absurd hFree (findContext_inUse hFind).2.1.ne'

/-- A following fragment is added to what is there. -/
theorem Collecting.addFragment {done stored len : Nat}
    (h : Collecting sender fragTag buf uipLen s i done stored)
    (hSender : frame.sender = sender) (hTag : frame.fragTag = fragTag.toNat)
    (hOffset : 8 * frame.fragOffset = done) (hDone : 0 < done)
    (hStored : stored < sicslowpanFragmentBuffers)
    (hDatalen : frame.datalen = sicslowpanFragnHdrLen + len) (hLen : 0 < len ∧ len ≤ 110)
    (hData : slice frame.packetbuf sicslowpanFragnHdrLen len = slice buf done len)
    (hEnd : done + len ≤ uipLen) (hUipLen : uipLen ≤ uipBufsize) :
    ∃ u, s.addFragment frame = (u, some i) ∧ u.passed = s.passed ∧
      Collecting sender fragTag buf uipLen u i (done + len) (stored + 1) := by
  have hFind := h.findContext (by omega) hSender hTag
  have hStoredLen : storedLen frame = len := by
    rw [storedLen_of_le (by omega) (by simp only [sicslowpanFragnHdrLen] at hDatalen; omega),
      hDatalen, Nat.add_sub_cancel_left]
  have hNonzero : frame.fragOffset ≠ 0 := by omega
  rcases addFragment_spec s hNonzero with ⟨hNone, -⟩ | ⟨j, hSome, t, hSpares, hCases⟩
  · exact absurd (hFind.symm.trans hNone) (Option.some_ne_none i)
  obtain rfl : i = j := Option.some.inj (hFind.symm.trans hSome)
  rcases hCases with ⟨hFull, -⟩ | ⟨-, slot, hFree, hIs⟩
  · exact absurd (Or.inl (exists_free_of_card (h.used.trans_lt hStored))) hFull
  rw [hStoredLen] at hIs
  dsimp only at hIs
  rw [if_pos hLen.1] at hIs
  refine ⟨_, hIs, hSpares.clears.passed_eq, ?_⟩
  generalize hAfter : (t.storeAt frame slot i frame.fragOffset).setInfo i _ = u
  have hInfo : u.fragInfo i = { s.fragInfo i with reassembledLen := done + len } := by
    have hSum : (done + len) % 65536 = done + len :=
      Nat.mod_eq_of_lt (hEnd.trans_lt (hUipLen.trans_lt (by decide)))
    rw [← hSum, ← h.reassembledLen, ← hSpares.fragInfo, ← hAfter]
    exact Function.update_self ..
  have hPiece : slice (Piece.write (t.fragBuf slot).data
      ⟨0, slice frame.packetbuf sicslowpanFragnHdrLen len⟩) 0 len =
        slice frame.packetbuf sicslowpanFragnHdrLen len := by
    refine slice_congr fun j hj => ?_
    simp [Piece.write, hj]
  have hBufs (piece : Piece Byte) : (∃ other, u.Holds i other ∧
      piece = ⟨8 * (u.fragBuf other).offset, slice (u.fragBuf other).data 0 (u.fragBuf other).len⟩) ↔
        (∃ other, s.Holds i other ∧ piece =
          ⟨8 * (s.fragBuf other).offset, slice (s.fragBuf other).data 0 (s.fragBuf other).len⟩) ∨
        piece = ⟨done, slice frame.packetbuf sicslowpanFragnHdrLen len⟩ := by
    have hStored := exists_stored_iff frame frame.fragOffset
      (P := fun b => piece = ⟨8 * b.offset, slice b.data 0 b.len⟩) hSpares hFree
    rw [storeAt_fragBuf_self, hStoredLen, hDatalen, Nat.add_sub_cancel_left, hPiece, hOffset,
      and_iff_right hLen.1] at hStored
    rw [← hAfter]
    exact hStored
  have hOther (other : Slot) (hNe : other ≠ slot) : u.fragBuf other = t.fragBuf other := by
    rw [← hAfter]
    exact storeAt_fragBuf_of_ne hNe
  refine ⟨fun c hNe => ?_, ?_, ?_, ?_, ?_, ?_, ?_⟩
  · rw [← hAfter, State.setInfo_fragInfo, Function.update_of_ne hNe]
    exact hSpares.clears.free (h.others c hNe)
  · rw [hInfo]
    exact h.len
  · rw [hInfo]
    exact h.tag
  · rw [hInfo]
    exact h.sender
  · rw [hInfo]
  · have hNew : Piece.Restore buf (fun j => done ≤ j ∧ j < done + len)
        [⟨done, slice frame.packetbuf sicslowpanFragnHdrLen len⟩] := Piece.Restore.of_slice hData
    refine ((h.restore.append hNew).of_mem_iff fun piece => ?_).congr fun j => by omega
    rw [List.mem_append, mem_collected, mem_collected, hInfo, or_assoc, List.mem_singleton, hBufs]
  · have hSub : u.usedBufs ⊆ insert slot s.usedBufs := by
      intro other hMem
      by_cases hEq : other = slot
      · rw [hEq]
        exact Finset.mem_insert_self ..
      · refine Finset.mem_insert_of_mem (hSpares.clears.usedBufs ?_)
        simpa only [State.usedBufs, Finset.mem_filter, hOther other hEq] using hMem
    have hInsert := Finset.card_insert_le slot s.usedBufs
    have hCard := Finset.card_le_card hSub
    have hUsed := h.used
    omega

theorem fragn_reads {done len : Nat}
    (hArrives : Arrives sender receiver (fragn fragTag buf uipLen done len) frame)
    (hUipLen : uipLen ≤ uipBufsize) (hDone : done ≤ uipLen) (hAligned : done % 8 = 0) :
    frame.IsFragn ∧ frame.fragSize = uipLen ∧ frame.fragTag = fragTag.toNat ∧
      8 * frame.fragOffset = done ∧ frame.datalen = sicslowpanFragnHdrLen + len ∧
      slice frame.packetbuf sicslowpanFragnHdrLen len = slice buf done len := by
  simp only [uipBufsize] at hUipLen
  have hIs : fragn fragTag buf uipLen done len = fragDispatchSize dispatchFragn uipLen ++
      fragTagBytes fragTag ++ (UInt8.ofNat (done / 8) :: slice buf done len) := by
    simp only [fragn, List.append_assoc, List.singleton_append]
  obtain ⟨hDispatch, hSize, hTag, hRest⟩ :=
    fragment_reads (by decide) (by omega) hIs hArrives.bytes
  rw [List.length_cons, length_slice, slice_succ, List.cons.injEq] at hRest
  have hOffset : 8 * frame.fragOffset = done := by
    rw [Frame.fragOffset, hRest.1, UInt8.toNat_ofNat']
    omega
  refine ⟨hDispatch, hSize, hTag, hOffset, ?_, hRest.2⟩
  rw [hArrives.datalen]
  simp [fragn, fragDispatchSize, fragTagBytes, sicslowpanFragnHdrLen]
  omega

/-- `tcpip_input` is called once, with the packet in `uip_buf`. -/
def Delivers (buf : Nat → Byte) (uipLen : Nat) (s t : State) : Prop :=
  ∃ packet, t.passed = s.passed ++ [packet] ∧ packet.uipLen = uipLen ∧
    ∀ i < uipLen, packet.uipBuf i = buf i

/-- A following fragment adds its bytes, and the last of them delivers the packet. -/
theorem Collecting.input {done stored len : Nat}
    (h : Collecting sender fragTag buf uipLen s i done stored)
    (hArrives : Arrives sender receiver (fragn fragTag buf uipLen done len) frame)
    (hDone : 0 < done) (hAligned : done % 8 = 0) (hStored : stored < sicslowpanFragmentBuffers)
    (hLen : 0 < len ∧ len ≤ 110) (hEnd : done + len ≤ uipLen) (hUipLen : uipLen ≤ uipBufsize) :
    (done + len < uipLen → (Lowpan.input addrContexts s frame).passed = s.passed ∧
      Collecting sender fragTag buf uipLen (Lowpan.input addrContexts s frame) i (done + len)
        (stored + 1)) ∧
    (done + len = uipLen → Delivers buf uipLen s (Lowpan.input addrContexts s frame)) := by
  obtain ⟨hFragn, hSize, hTag, hOffset, hDatalen, hData⟩ :=
    fragn_reads hArrives hUipLen (by omega) hAligned
  have hNotFrag1 : ¬ frame.IsFrag1 := fun hFrag1 => absurd (hFrag1.symm.trans hFragn) (by decide)
  obtain ⟨u, hAdd, hPassed, hNow⟩ := h.addFragment hArrives.sender hTag hOffset hDone hStored
    hDatalen hLen hData hEnd hUipLen
  rw [Lowpan.input, if_neg hNotFrag1, if_pos hFragn, inputFragn, hAdd]
  dsimp only
  rw [if_neg (by omega), if_neg (by rw [hOffset, hDatalen, Nat.add_sub_cancel_left]; omega), hSize,
    hNow.reassembledLen]
  constructor
  · intro hMore
    rw [if_neg (Nat.not_le_of_lt hMore)]
    exact ⟨hPassed, hNow⟩
  · intro hAll
    rw [if_pos hAll.ge, State.finish, if_pos (by omega)]
    refine ⟨_, congrArg (· ++ _) hPassed, hSize, fun j hj => ?_⟩
    exact hNow.restore.writeAll (by omega)

/-- The rest of the packet, from any point of it. -/
theorem followingFragments_delivers {sends : Sends} {len : Nat}
    (hQueuebuf : ∀ k, sends.queuebufNew k = true) (hTx : ∀ k, sends.txError k = false)
    (hAlignedLen : len % 8 = 0) (hLen : 96 ≤ len ∧ len ≤ 110) (hUipLen : uipLen ≤ uipBufsize)
    (fuel number : Nat) {done stored : Nat}
    (h : Collecting sender fragTag buf uipLen s i done stored) (hDone : 0 < done)
    (hAligned : done % 8 = 0) (hMore : done < uipLen) (hFuel : uipLen - done ≤ fuel)
    (hRoom : 96 * stored + (uipLen - done) ≤ 96 * sicslowpanFragmentBuffers) {frames : List Frame}
    (hArrive : List.Forall₂ (Arrives sender receiver)
      (followingFragments sends fragTag buf uipLen len fuel number done) frames) :
    ∃ t, runAll (receive addrContexts) s frames = some t ∧ Delivers buf uipLen s t := by
  induction fuel generalizing number done stored s frames with
  | zero => omega
  | succ fuel ih =>
      simp only [sicslowpanFragmentBuffers] at hRoom
      have hStored : stored < sicslowpanFragmentBuffers := by
        simp only [sicslowpanFragmentBuffers]
        omega
      rw [followingFragments, if_pos hMore, hQueuebuf, hTx] at hArrive
      dsimp only at hArrive
      rw [if_neg (by decide), if_neg (by decide),
        List.forall₂_cons_left_iff] at hArrive
      obtain ⟨frame, rest, hFrame, hRest, rfl⟩ := hArrive
      by_cases hLast : uipLen - done ≤ len
      · rw [Nat.min_eq_right hLast] at hFrame hRest
        have hEnd : done + (uipLen - done) = uipLen := by omega
        have hNone :
            followingFragments sends fragTag buf uipLen len fuel (number + 1) uipLen = [] := by
          cases fuel with
          | zero => rfl
          | succ fuel => rw [followingFragments, if_neg (Nat.lt_irrefl _)]
        rw [hEnd, hNone, List.forall₂_nil_left_iff] at hRest
        subst hRest
        refine ⟨_, rfl, ?_⟩
        exact (h.input hFrame hDone hAligned hStored (by omega) hEnd.le hUipLen).2 hEnd
      · rw [Nat.min_eq_left (by omega)] at hFrame hRest
        obtain ⟨hPassed, hNow⟩ := (h.input hFrame hDone hAligned hStored (by omega) (by omega)
          hUipLen).1 (by omega)
        obtain ⟨t, hRun, packet, hDelivered, hIs⟩ := ih (number + 1) hNow (by omega) (by omega)
          (by omega) (by omega) (by simp only [sicslowpanFragmentBuffers]; omega) hRest
        exact ⟨t, hRun, packet, hPassed ▸ hDelivered, hIs⟩

/-- A receiver without a reassembly in progress opens a context. -/
theorem openContext_of_idle (hSound : Sound s) (hIdle : ∀ c, (s.fragInfo c).len = 0)
    (frame : Frame) :
    ∃ u i, s.openContext frame = (u, some i) ∧ u.passed = s.passed ∧ u.usedBufs = ∅ ∧
      u.fragInfo i = openedInfo (s.fragInfo i) frame ∧ ∀ c, c ≠ i → (u.fragInfo c).len = 0 := by
  obtain ⟨t, hClears, ⟨hNone, -⟩ | ⟨-, i, -, hInfo, hOpen⟩⟩ := openContext_spec s frame
  · exact absurd ⟨0, Or.inl (hIdle 0)⟩ hNone
  refine ⟨_, i, hOpen, hClears.passed_eq, ?_, ?_, fun c hNe => ?_⟩
  · refine Finset.subset_empty.mp fun slot hMem => ?_
    have hBefore := hClears.usedBufs hMem
    simp only [State.usedBufs, Finset.mem_filter, Finset.mem_univ, true_and] at hBefore
    exact absurd (hIdle _) (hSound.inUse slot hBefore).ne'
  · rw [State.setInfo_fragInfo, Function.update_self, hInfo]
    rfl
  · rw [State.setInfo_fragInfo, Function.update_of_ne hNe]
    exact hClears.free (hIdle c)

/-- The first fragment opens a context and leaves in it all that it brings. -/
theorem inputFrag1_collects {hdr : CompressedHdr} {len : Nat} {bytes : List Byte}
    (hSound : Sound s) (hIdle : ∀ c, (s.fragInfo c).len = 0)
    (hIs : bytes = fragDispatchSize dispatchFrag1 uipLen ++ fragTagBytes fragTag ++
      (hdr.bytes ++ slice buf hdr.uncompHdrLen len))
    (hArrives : Arrives sender receiver bytes frame)
    (hUncompresses : Uncompresses buf hdr frame sicslowpanFrag1HdrLen uipLen)
    (hLess : hdr.uncompHdrLen + len < uipLen) (hUipLen : uipLen ≤ uipBufsize) :
    (input addrContexts s frame).passed = s.passed ∧ ∃ i,
      Collecting sender fragTag buf uipLen (input addrContexts s frame) i
        (hdr.uncompHdrLen + len) 0 := by
  simp only [uipBufsize] at hUipLen
  obtain ⟨hFrag1, hSize, hTag, hRest⟩ :=
    fragment_reads (by decide) (by omega) hIs hArrives.bytes
  have hPayload : slice frame.packetbuf (4 + hdr.bytes.length) len =
      slice buf hdr.uncompHdrLen len := by
    have hBack := (slice_append_eq_iff.mp hRest).2
    rwa [length_slice] at hBack
  have hDatalen : frame.datalen = 4 + hdr.bytes.length + len := by
    rw [hArrives.datalen, hIs]
    simp [fragDispatchSize, fragTagBytes]
    omega
  obtain ⟨u, i, hOpen, hPassed, hUsed, hInfo, hOthers⟩ := openContext_of_idle hSound hIdle frame
  obtain ⟨back, hBack, hPayloadIs, hFirst⟩ := hUncompresses.payload hDatalen hPayload
    (hLess.le.trans hUipLen) (u.fragInfo i).firstFrag
  rw [input, if_pos (show frame.IsFrag1 from hFrag1), inputFrag1, hOpen, hSize]
  dsimp only
  rw [hBack]
  dsimp only
  rw [hPayloadIs]
  dsimp only
  rw [if_pos (Nat.zero_lt_of_lt hLess), length_slice]
  refine ⟨hPassed, i, ?_⟩
  generalize hDone : State.setInfo _ i _ = done
  have hFragBuf : done.fragBuf = u.fragBuf := by
    rw [← hDone]
    rfl
  have hDoneInfo : done.fragInfo i = { u.fragInfo i with
      reassembledLen := hdr.uncompHdrLen + len, firstFragLen := hdr.uncompHdrLen + len
      firstFrag := Piece.writeAll (u.fragInfo i).firstFrag
        (back.pieces ++ [⟨hdr.uncompHdrLen, slice buf hdr.uncompHdrLen len⟩]) } := by
    rw [← hDone, Piece.writeAll_append]
    simp [State.writeFirst]
  have hNotHolds (slot : Slot) : ¬ done.Holds i slot := by
    intro hHolds
    have hMem : slot ∈ u.usedBufs := by
      simpa [State.usedBufs, ← hFragBuf] using hHolds.1
    rw [hUsed] at hMem
    exact absurd hMem (Finset.notMem_empty slot)
  refine ⟨fun c hNe => ?_, ?_, ?_, ?_, ?_, ?_, ?_⟩
  · rw [← hDone]
    simpa [State.writeFirst, hNe] using hOthers c hNe
  · rw [hDoneInfo, hInfo]
    exact hSize
  · rw [hDoneInfo, hInfo]
    exact hTag
  · rw [hDoneInfo, hInfo]
    exact hArrives.sender
  · rw [hDoneInfo]
  · have hAll : slice (done.fragInfo i).firstFrag 0 (done.fragInfo i).firstFragLen =
        slice buf 0 (hdr.uncompHdrLen + len) := by
      rw [hDoneInfo]
      refine slice_congr fun j hj => ?_
      rw [Nat.zero_add]
      exact hFirst j hj
    refine ((Piece.Restore.of_slice hAll).of_mem_iff fun piece => ?_).congr fun j => by omega
    rw [mem_collected, List.mem_singleton]
    exact or_iff_left fun hStored => hStored.elim fun slot hHas => hNotHolds slot hHas.1
  · have hSame : done.usedBufs = u.usedBufs := by rw [State.usedBufs, hFragBuf, State.usedBufs]
    rw [hSame, hUsed, Finset.card_empty]

end Fragments

section Packets

variable {sender receiver : LinkAddr} {buf : Nat → Byte} {uipLen : Nat} {fragTag : UInt16}
  {sends : Sends} {s : State}

/-- A packet in one frame. -/
theorem input_whole_delivers (h : UdpPacket buf uipLen) {hdr : CompressedHdr} {frame : Frame}
    (hHdr : hdr = outputHdr buf uipLen addrContexts sender receiver)
    (hArrives : Arrives sender receiver
      (hdr.bytes ++ slice buf hdr.uncompHdrLen (uipLen - hdr.uncompHdrLen)) frame) :
    Delivers buf uipLen s (input addrContexts s frame) := by
  have hSize := h.size
  have hUncompHdrLen : hdr.uncompHdrLen ≤ uipLen := by
    have hEither := outputHdr_uncompHdrLen h sender receiver
    rw [← hHdr] at hEither
    simp only [uipIphLen, uipUdphLen, List.mem_cons, List.not_mem_nil, or_false] at hEither hSize
    omega
  obtain ⟨hBytes, hPayload⟩ := slice_append_eq_iff.mp hArrives.bytes
  rw [length_slice, Nat.zero_add] at hPayload
  have hDatalen : frame.datalen = hdr.bytes.length + (uipLen - hdr.uncompHdrLen) := by
    rw [hArrives.datalen, List.length_append, length_slice]
  obtain ⟨dispatch, rest, hDispatch, hNotFrag1, hNotFragn⟩ :=
    outputHdr_dispatch sender receiver buf uipLen
  have hFirst : frame.packetbuf 0 = dispatch := by
    rw [hHdr, hDispatch, List.length_cons, slice_succ, List.cons.injEq] at hBytes
    exact hBytes.1
  have hUncompresses : Uncompresses buf hdr frame 0 0 := by
    rw [hHdr] at hBytes hDatalen hUncompHdrLen ⊢
    refine uncompresses_outputHdr h hArrives.sender hArrives.receiver hBytes (Or.inl ⟨rfl, ?_⟩)
    omega
  have hWhole := Nat.add_sub_of_le hUncompHdrLen
  obtain ⟨back, hBack, hPayloadIs, hAll⟩ := hUncompresses.payload
    (by rw [hDatalen, Nat.zero_add]) (by rwa [Nat.zero_add]) (by rw [hWhole]; exact hSize.2)
    frame.uipBuf
  rw [← hFirst] at hNotFrag1 hNotFragn
  rw [input, if_neg (show ¬ frame.IsFrag1 from hNotFrag1),
    if_neg (show ¬ frame.IsFragn from hNotFragn), inputWhole, hBack]
  dsimp only
  rw [hPayloadIs]
  refine ⟨_, rfl, ?_, fun j hj => ?_⟩
  · rw [length_slice]
    exact hWhole
  · exact hAll j (by rwa [hWhole])

theorem alignedLen_spec {len : Int} (hLen : 0 ≤ len) :
    alignedLen len % 8 = 0 ∧ (alignedLen len : Int) ≤ len ∧ len < alignedLen len + 8 := by
  unfold alignedLen
  omega

/-- A packet in fragments. -/
theorem fragments_delivers (h : UdpPacket buf uipLen) {hdr : CompressedHdr} {maxPayload : Int}
    (hHdr : hdr = outputHdr buf uipLen addrContexts sender receiver)
    (hQueuebuf : ∀ k, sends.queuebufNew k = true) (hTx : ∀ k, sends.txError k = false)
    (hMax : 104 ≤ maxPayload ∧ maxPayload ≤ 110)
    (hLonger : (uipLen : Int) - hdr.uncompHdrLen > maxPayload - hdr.bytes.length)
    (hSound : Sound s) (hIdle : ∀ c, (s.fragInfo c).len = 0) {frames : List Frame}
    (hArrive : List.Forall₂ (Arrives sender receiver)
      (fragments sends fragTag buf uipLen hdr maxPayload) frames) :
    ∃ t, runAll (receive addrContexts) s frames = some t ∧ Delivers buf uipLen s t := by
  have hSize := h.size
  have hBytesLen : hdr.bytes.length ≤ 48 := by
    rw [hHdr]
    exact length_outputHdr_le
  have hUncompHdrLen := outputHdr_uncompHdrLen h sender receiver
  rw [← hHdr] at hUncompHdrLen
  simp only [uipIphLen, uipUdphLen, uipBufsize, List.mem_cons, List.not_mem_nil, or_false]
    at hUncompHdrLen hSize
  rw [fragments, hQueuebuf, hTx] at hArrive
  have hRoom : 0 ≤ maxPayload - (hdr.bytes.length + sicslowpanFrag1HdrLen : Nat) ∧
      0 ≤ maxPayload - sicslowpanFragnHdrLen := by
    simp only [sicslowpanFrag1HdrLen, sicslowpanFragnHdrLen]
    omega
  obtain ⟨hFirstAligned, hFirstLe, -⟩ := alignedLen_spec hRoom.1
  obtain ⟨hNextAligned, hNextLe, hNextGe⟩ := alignedLen_spec hRoom.2
  generalize alignedLen (maxPayload - (hdr.bytes.length + sicslowpanFrag1HdrLen : Nat)) = len
    at hArrive hFirstAligned hFirstLe
  generalize alignedLen (maxPayload - sicslowpanFragnHdrLen) = next
    at hArrive hNextAligned hNextLe hNextGe
  simp only [sicslowpanFrag1HdrLen, sicslowpanFragnHdrLen] at hFirstLe hNextLe hNextGe
  rw [if_neg (by decide), if_neg (by decide), List.forall₂_cons_left_iff,
    Nat.add_comm len hdr.uncompHdrLen] at hArrive
  obtain ⟨frame, rest, hFrame, hRest, rfl⟩ := hArrive
  rw [List.append_assoc (fragDispatchSize dispatchFrag1 uipLen ++ fragTagBytes fragTag)] at hFrame
  have hUncompresses : Uncompresses buf hdr frame sicslowpanFrag1HdrLen uipLen := by
    obtain ⟨-, -, -, hBytes⟩ := fragment_reads (by decide) (by omega) rfl hFrame.bytes
    have hHdrBytes := (slice_append_eq_iff.mp hBytes).1
    rw [hHdr] at hHdrBytes ⊢
    exact uncompresses_outputHdr h hFrame.sender hFrame.receiver hHdrBytes (Or.inr rfl)
  obtain ⟨hPassed, i, hCollecting⟩ := inputFrag1_collects hSound hIdle rfl hFrame hUncompresses
    (by omega) (by simp only [uipBufsize]; omega)
  obtain ⟨t, hRun, packet, hDelivered, hIs⟩ := followingFragments_delivers hQueuebuf hTx
    hNextAligned (by omega) (by simp only [uipBufsize]; omega) uipLen 1 hCollecting (by omega)
    (by omega) (by omega) (by omega) (by simp only [sicslowpanFragmentBuffers]; omega) hRest
  exact ⟨t, hRun, packet, hPassed ▸ hDelivered, hIs⟩

end Packets

/-- **UDP packets come through.** If all sends succeed, a receiver with no reassembly in
progress gets the frames of a packet in order and calls `tcpip_input` once, with the same
bytes. No packet needs more fragments than there are buffers. -/
theorem transport_roundTrips (sender receiver : LinkAddr) (buf : Nat → Byte) (uipLen : Nat)
    (sends : Sends) (fragTag : UInt16) (framerHdrlen : Nat) (s : State) (frames : List Frame)
    (hReached : Reaches (receive addrContexts) (fun _ _ => True) State.init s)
    (hIdle : ∀ c, (s.fragInfo c).len = 0) (hPacket : UdpPacket buf uipLen)
    (hFramerHdrlen : 15 ≤ framerHdrlen ∧ framerHdrlen ≤ 21)
    (hSends : sends.Succeed (estimatedFragments uipLen (macMaxPayload - framerHdrlen)))
    (hArrive : List.Forall₂ (Arrives sender receiver)
      (output sends fragTag buf uipLen addrContexts sender receiver framerHdrlen) frames) :
    ∃ t, runAll (receive addrContexts) s frames = some t ∧ Delivers buf uipLen s t := by
  have hSound : Sound s := hReached.invariant Sound Sound.init fun u frame t hBefore _ hStep => by
    obtain rfl := Option.some.inj hStep
    exact hBefore.input
  unfold output at hArrive
  dsimp only at hArrive
  split_ifs at hArrive with hLonger hFew
  · exact absurd hSends.numfree (Int.not_le.mpr hFew)
  · refine fragments_delivers hPacket rfl hSends.queuebufNew hSends.txError ?_ hLonger hSound hIdle
      hArrive
    simp only [macMaxPayload]
    omega
  · rw [List.forall₂_cons_left_iff] at hArrive
    obtain ⟨frame, rest, hFrame, hRest, rfl⟩ := hArrive
    rw [List.forall₂_nil_left_iff] at hRest
    subst hRest
    exact ⟨_, rfl, input_whole_delivers hPacket rfl hFrame⟩

/-- Buffers for all frames, and no errors. -/
def allSent : Sends where
  numfree := 8
  queuebufNew _ := true
  txError _ := false

/-- From fe80::1 to ff02::1, with 152 bytes of payload. -/
def sampleUdp : Nat → Byte := fun i =>
  ([0x60, 0, 0, 0, 0, 160, 17, 64, 0xfe, 0x80, 0, 0, 0, 0, 0, 0, 0, 0, 0, 0, 0, 0, 0, 1,
    0xff, 2, 0, 0, 0, 0, 0, 0, 0, 0, 0, 0, 0, 0, 0, 1, 0x10, 1, 0x10, 2, 0, 160] :
      List Byte).getD i 7

theorem arrives_frameOf (bytes : List Byte) :
    Arrives (fun _ => 0) (fun _ => 0) bytes (frameOf bytes bytes.length) where
  sender := rfl
  receiver := rfl
  datalen := rfl
  bytes := by
    refine List.ext_getElem (length_slice ..) fun i _ hi => ?_
    simp [frameOf, hi]

theorem transport_roundTrips_sample : ∃ t, runAll (receive addrContexts) State.init
    ((output allSent 5 sampleUdp 200 addrContexts (fun _ => 0) (fun _ => 0) 21).map
      fun bytes => frameOf bytes bytes.length) = some t ∧
    Delivers sampleUdp 200 State.init t :=
  transport_roundTrips (fun _ => 0) (fun _ => 0) sampleUdp 200 allSent 5 21 State.init _
    Reaches.start (fun _ => rfl)
    ⟨by decide, by decide, by decide, by decide, by decide, by decide, by decide⟩ (by decide)
    ⟨by decide, fun _ => rfl, fun _ => rfl⟩
    (List.forall₂_map_right_iff.mpr
      (List.forall₂_same.mpr fun bytes _ => arrives_frameOf bytes))

end Smarthome.Lowpan
