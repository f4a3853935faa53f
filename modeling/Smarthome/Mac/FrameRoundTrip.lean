import Mathlib.Data.Fin.VecNotation
import Mathlib.Tactic.FinCases
import Mathlib.Tactic.IntervalCases
import Smarthome.Mac.Frame

/-! What `frame802154_create` writes, `frame802154_parse` reads. -/
namespace Smarthome.Mac

open Csma Semantics

/-- What the two bytes have room for. -/
def Fcf.masked (fcf : Fcf) : Fcf where
  frameType := fcf.frameType &&& 7
  securityEnabled := fcf.securityEnabled &&& 1
  framePending := fcf.framePending &&& 1
  ackRequired := fcf.ackRequired &&& 1
  panidCompression := fcf.panidCompression &&& 1
  sequenceNumberSuppression := fcf.sequenceNumberSuppression &&& 1
  ieListPresent := fcf.ieListPresent &&& 1
  destAddrMode := fcf.destAddrMode &&& 3
  frameVersion := fcf.frameVersion &&& 3
  srcAddrMode := fcf.srcAddrMode &&& 3

/-- An address of a mode: none, short or long, with zeros behind its bytes. -/
structure IsAddr (mode : UInt8) (addr : Linkaddr) : Prop where
  known : mode = 0 ∨ mode = frame802154Shortaddrmode ∨ mode = frame802154Longaddrmode
  zeros : ∀ i : Fin 8, addrLen mode ≤ i → addr i = 0

/-- A frame that can be written: nothing is in it that has no field of the header. -/
structure Frame802154.WellFormed (p : Frame802154) : Prop where
  fcf : p.fcf.masked = p.fcf
  destAddr : IsAddr p.fcf.destAddrMode p.destAddr
  srcAddr : IsAddr p.fcf.srcAddrMode p.srcAddr
  destPanid : (hasPanid (compressPanid p).fcf).2 = true → p.fcf.destAddrMode ≠ 0
  destPid : (hasPanid (compressPanid p).fcf).2 = false →
    p.destPid = if (hasPanid (compressPanid p).fcf).1 = true then p.srcPid else 0
  srcPid : (hasPanid (compressPanid p).fcf).1 = false →
    p.srcPid = if p.fcf.srcAddrMode ≠ 0 then p.destPid else 0

section Fields

variable {data : Nat → Byte} {p : Nat}

/-- The masks take each field out of the two bytes again. -/
theorem parseFcf_of_fcfBytes {fcf : Fcf} (h : slice data 0 2 = fcfBytes fcf) :
    parseFcf (data 0) (data 1) = fcf.masked := by
  obtain ⟨hFirst, hTail⟩ := List.cons.inj h
  have hSecond := List.head_eq_of_cons_eq hTail
  simp only [Nat.zero_add] at hFirst hSecond
  rw [hFirst, hSecond, parseFcf, Fcf.masked, Fcf.mk.injEq]
  refine ⟨?_, ?_, ?_, ?_, ?_, ?_, ?_, ?_, ?_, ?_⟩ <;>
  · apply UInt8.eq_of_toBitVec_eq
    apply BitVec.eq_of_getLsbD_eq
    intro i hi
    interval_cases i <;> simp

theorem parsePid_of_pidBytes {pid : UInt16} (h : slice data p 2 = pidBytes 2 pid) :
    parsePid data p = pid := by
  obtain ⟨hFirst, hTail⟩ := List.cons.inj h
  have hSecond := List.head_eq_of_cons_eq hTail
  simp only [Nat.add_zero] at hFirst hSecond
  rw [parsePid, hFirst, hSecond]
  apply UInt16.toNat_inj.mp
  have hLt := pid.toNat_lt
  have hMask (n : Nat) : n &&& 255 = n % 256 := Nat.and_two_pow_sub_one_eq_mod n 8
  simp only [UInt16.toNat_add, UInt16.toNat_shiftLeft, UInt8.toNat_toUInt16, UInt16.toNat_toUInt8,
    UInt16.toNat_and, UInt16.toNat_shiftRight, UInt16.reduceToNat, hMask,
    Nat.shiftRight_eq_div_pow, Nat.shiftLeft_eq, Nat.reduceMod, Nat.reducePow]
  omega

/-- The loop writes an address backwards, and so it is read. -/
theorem parseAddr_of_addrBytes {mode : UInt8} {addr : Linkaddr} (hAddr : IsAddr mode addr)
    (hMode : mode ≠ 0) (h : slice data p (addrLen mode) = addrBytes (addrLen mode) addr)
    (old : Linkaddr) : parseAddr data mode old p = (addr, p + addrLen mode) := by
  rcases hAddr.known with rfl | rfl | rfl
  · exact absurd rfl hMode
  · have hBytes : [data p, data (p + 1)] = [addr 1, addr 0] := h
    simp only [List.cons.injEq, and_true] at hBytes
    have hZeros := hAddr.zeros
    refine Prod.ext (funext fun c => ?_) rfl
    simp only [parseAddr, if_true, hBytes]
    fin_cases c
    · rfl
    · rfl
    all_goals exact (hZeros _ (by decide)).symm
  · have hBytes : slice data p 8 =
        [addr 7, addr 6, addr 5, addr 4, addr 3, addr 2, addr 1, addr 0] := h
    refine Prod.ext (funext fun c => ?_) rfl
    have hAt := congrArg (fun bytes => bytes[7 - c.val]?) hBytes
    fin_cases c <;> exact Option.some.inj hAt

end Fields

section Lengths

variable (q : Frame802154)

@[simp] theorem length_fcfBytes (fcf : Fcf) : (fcfBytes fcf).length = 2 := rfl

@[simp] theorem length_seqBytes :
    (if (fieldLen q).seqnoLen = 1 then [q.seq] else []).length = (fieldLen q).seqnoLen := by
  unfold fieldLen
  split_ifs <;> first | rfl | contradiction

theorem length_pidBytes (hasPid : Bool) (pid : UInt16) :
    (pidBytes (if hasPid = true then 2 else 0) pid).length = if hasPid = true then 2 else 0 := by
  cases hasPid <;> rfl

@[simp] theorem length_destPidBytes (pid : UInt16) :
    (pidBytes (fieldLen q).destPidLen pid).length = (fieldLen q).destPidLen := length_pidBytes ..

@[simp] theorem length_srcPidBytes (pid : UInt16) :
    (pidBytes (fieldLen q).srcPidLen pid).length = (fieldLen q).srcPidLen := length_pidBytes ..

theorem length_addrBytes (mode : UInt8) (addr : Linkaddr) :
    (addrBytes (addrLen mode) addr).length = addrLen mode := by
  unfold addrBytes addrLen
  split_ifs <;> simp

@[simp] theorem length_destAddrBytes (addr : Linkaddr) :
    (addrBytes (fieldLen q).destAddrLen addr).length = (fieldLen q).destAddrLen :=
  length_addrBytes ..

@[simp] theorem length_srcAddrBytes (addr : Linkaddr) :
    (addrBytes (fieldLen q).srcAddrLen addr).length = (fieldLen q).srcAddrLen :=
  length_addrBytes ..

/-- The fields take as much room as `frame802154_hdrlen` says. -/
theorem length_frame802154Create (p : Frame802154) :
    (frame802154Create p).length = frame802154Hdrlen p := by
  simp [frame802154Create, frame802154Hdrlen, Nat.add_assoc]

end Lengths

section Header

variable {data : Nat → Byte} {pf q : Frame802154} {n : Nat}

theorem addrLen_zero : addrLen 0 = 0 := rfl

theorem IsAddr.eq_null {addr : Linkaddr} (hAddr : IsAddr 0 addr) : addr = linkaddrNull :=
  funext fun i => hAddr.zeros i (Nat.zero_le _)

theorem parseSeq_of_bytes (hFcf : pf.fcf = q.fcf)
    (hMasked : q.fcf.sequenceNumberSuppression &&& 1 = q.fcf.sequenceNumberSuppression)
    (hSeq : slice data n (fieldLen q).seqnoLen =
      if (fieldLen q).seqnoLen = 1 then [q.seq] else []) :
    parseSeq data pf n =
      ({ pf with seq := if q.fcf.sequenceNumberSuppression = 0 then q.seq else pf.seq },
        n + (fieldLen q).seqnoLen) := by
  simp only [fieldLen, hMasked] at hSeq ⊢
  rw [parseSeq]
  simp only [hFcf]
  split_ifs with hSuppressed
  · rw [if_pos hSuppressed] at hSeq
    have hByte : data n = q.seq := List.head_eq_of_cons_eq hSeq
    rw [hByte]
  · rw [← hFcf]
    rfl

theorem parseDest_of_bytes (hFcf : pf.fcf = q.fcf) (hAddr : IsAddr q.fcf.destAddrMode q.destAddr)
    (hMasked : q.fcf.destAddrMode &&& 3 = q.fcf.destAddrMode)
    (hPanid : (hasPanid q.fcf).2 = true → q.fcf.destAddrMode ≠ 0)
    (hPid : slice data n (fieldLen q).destPidLen = pidBytes (fieldLen q).destPidLen q.destPid)
    (hBytes : slice data (n + (fieldLen q).destPidLen) (fieldLen q).destAddrLen =
      addrBytes (fieldLen q).destAddrLen q.destAddr) :
    parseDest data pf n =
      ({ pf with
        destAddr := q.destAddr
        destPid := if (hasPanid q.fcf).2 = true then q.destPid else 0 },
        n + (fieldLen q).destPidLen + (fieldLen q).destAddrLen) := by
  simp only [fieldLen, hMasked] at hPid hBytes ⊢
  rw [parseDest, hFcf]
  by_cases hMode : q.fcf.destAddrMode = 0
  · have hNone : (hasPanid q.fcf).2 = false := by
      by_contra hHas
      exact hPanid (Bool.of_not_eq_false hHas) hMode
    rw [hMode] at hAddr
    simp [hMode, hNone, hAddr.eq_null, addrLen_zero]
  · have hNext : (if (hasPanid q.fcf).2 = true then n + 2 else n) =
        n + if (hasPanid q.fcf).2 = true then 2 else 0 := by
      split_ifs <;> rfl
    simp only [hMode, ne_eq, not_false_eq_true, if_true, hNext,
      parseAddr_of_addrBytes hAddr hMode hBytes]
    split_ifs with hHas
    · rw [if_pos hHas] at hPid
      rw [parsePid_of_pidBytes hPid]
    · rfl

theorem parseSrc_of_bytes (hFcf : pf.fcf = q.fcf) (hAddr : IsAddr q.fcf.srcAddrMode q.srcAddr)
    (hMasked : q.fcf.srcAddrMode &&& 3 = q.fcf.srcAddrMode)
    (hPanid : (hasPanid q.fcf).1 = true → q.fcf.srcAddrMode ≠ 0)
    (hPid : slice data n (fieldLen q).srcPidLen = pidBytes (fieldLen q).srcPidLen q.srcPid)
    (hBytes : slice data (n + (fieldLen q).srcPidLen) (fieldLen q).srcAddrLen =
      addrBytes (fieldLen q).srcAddrLen q.srcAddr) :
    parseSrc data pf n =
      ({ pf with
        srcAddr := q.srcAddr
        srcPid :=
          if (hasPanid q.fcf).1 = true then q.srcPid
          else if q.fcf.srcAddrMode ≠ 0 then pf.destPid else 0
        destPid :=
          if (hasPanid q.fcf).1 = true ∧ (hasPanid q.fcf).2 = false then q.srcPid
          else pf.destPid },
        n + (fieldLen q).srcPidLen + (fieldLen q).srcAddrLen) := by
  simp only [fieldLen, hMasked] at hPid hBytes ⊢
  rw [parseSrc, hFcf]
  by_cases hMode : q.fcf.srcAddrMode = 0
  · have hNone : (hasPanid q.fcf).1 = false := by
      by_contra hHas
      exact hPanid (Bool.of_not_eq_false hHas) hMode
    rw [hMode] at hAddr
    simp [hMode, hNone, hAddr.eq_null, addrLen_zero]
  · have hNext : (if (hasPanid q.fcf).1 = true then n + 2 else n) =
        n + if (hasPanid q.fcf).1 = true then 2 else 0 := by
      split_ifs <;> rfl
    simp only [hMode, ne_eq, not_false_eq_true, if_true, hNext,
      parseAddr_of_addrBytes hAddr hMode hBytes]
    by_cases hHas : (hasPanid q.fcf).1 = true
    · rw [if_pos hHas] at hPid
      simp only [hHas, if_true, true_and, parsePid_of_pidBytes hPid]
    · simp only [hHas, if_false, false_and, Bool.false_eq_true]

theorem frame802154Parse_of_parts {len first second c : Nat} {seqRead destRead srcRead : Frame802154}
    (hTwo : 2 ≤ len)
    (hSeq : parseSeq data { pf with fcf := parseFcf (data 0) (data 1) } 2 = (seqRead, first))
    (hDest : parseDest data seqRead first = (destRead, second))
    (hSrc : parseSrc data destRead second = (srcRead, c)) (hEnd : c ≤ len) :
    frame802154Parse data len pf =
      some (c, { srcRead with payload := slice data c (len - c) }) := by
  rw [frame802154Parse, if_neg (Nat.not_lt.mpr hTwo), hSeq]
  simp only [hDest, hSrc]
  rw [if_neg (Nat.not_lt.mpr hEnd)]

theorem srcAddrMode_of_hasPanid {fcf : Fcf} (h : (hasPanid fcf).1 = true) : fcf.srcAddrMode ≠ 0 := by
  intro hZero
  unfold hasPanid at h
  rw [hZero] at h
  split_ifs at h <;> simp at h

end Header

section Compression

variable (p : Frame802154)

/-- Only the bit is changed. -/
theorem compressPanid_eq : ∃ bit : UInt8,
    compressPanid p = { p with fcf := { p.fcf with panidCompression := bit } } ∧
      (p.fcf.masked = p.fcf → bit &&& 1 = bit) := by
  unfold compressPanid
  split_ifs
  · exact ⟨1, rfl, fun _ => rfl⟩
  · exact ⟨0, rfl, fun _ => rfl⟩
  · exact ⟨p.fcf.panidCompression, rfl, fun h => congrArg Fcf.panidCompression h⟩

theorem masked_compressPanid (h : p.fcf.masked = p.fcf) :
    (compressPanid p).fcf.masked = (compressPanid p).fcf := by
  obtain ⟨bit, hSame, hBit⟩ := compressPanid_eq p
  obtain ⟨hType, hSecurity, hPending, hAck, -, hSuppression, hIe, hDest, hVersion, hSrc⟩ :=
    Fcf.ext_iff.mp h
  rw [hSame]
  exact Fcf.ext hType hSecurity hPending hAck (hBit h) hSuppression hIe hDest hVersion hSrc

end Compression

/-- The identifiers that have no field are taken from the other ones. -/
theorem Frame802154.WellFormed.pids {p : Frame802154} (h : p.WellFormed) :
    (if (hasPanid (compressPanid p).fcf).1 = true ∧ (hasPanid (compressPanid p).fcf).2 = false
      then p.srcPid
      else if (hasPanid (compressPanid p).fcf).2 = true then p.destPid else 0) = p.destPid ∧
    (if (hasPanid (compressPanid p).fcf).1 = true then p.srcPid
      else if p.fcf.srcAddrMode ≠ 0 then
        if (hasPanid (compressPanid p).fcf).2 = true then p.destPid else 0
      else 0) = p.srcPid := by
  have hDest := h.destPid
  have hSrc := h.srcPid
  by_cases hHasSrc : (hasPanid (compressPanid p).fcf).1 = true <;>
    by_cases hHasDest : (hasPanid (compressPanid p).fcf).2 = true
  · simp only [hHasSrc, hHasDest, if_true, and_false, Bool.true_eq_false, if_false, and_self]
  · rw [Bool.not_eq_true] at hHasDest
    simp only [hHasSrc, hHasDest, if_true, and_self, and_true, true_implies] at hDest ⊢
    exact hDest.symm
  · rw [Bool.not_eq_true] at hHasSrc
    simp only [hHasSrc, hHasDest, if_true, Bool.false_eq_true, if_false, false_and,
      true_implies, true_and] at hSrc ⊢
    exact hSrc.symm
  · rw [Bool.not_eq_true] at hHasSrc hHasDest
    simp only [hHasSrc, hHasDest, Bool.false_eq_true, if_false, false_and, true_implies] at hDest hSrc ⊢
    rw [hDest, ite_self] at hSrc
    rw [hDest, hSrc, ite_self]
    exact ⟨rfl, rfl⟩

/-- A frame is read as it was written, but for the compression bit, which is chosen when it is
written, and for a sequence number that was suppressed. -/
theorem frame802154Parse_create {p : Frame802154} (h : p.WellFormed) {data : Nat → Byte} {len : Nat}
    (hData : slice data 0 len = frame802154Create p ++ p.payload) (pf : Frame802154) :
    frame802154Parse data len pf =
      some (frame802154Hdrlen p, { compressPanid p with
        seq := if p.fcf.sequenceNumberSuppression = 0 then p.seq else pf.seq }) := by
  obtain ⟨bit, hSame, -⟩ := compressPanid_eq p
  have hLen : len = frame802154Hdrlen p + p.payload.length := by
    rw [← length_frame802154Create, ← List.length_append, ← hData, length_slice]
  have hAll : slice data 0 (frame802154Create p ++ p.payload).length =
      frame802154Create p ++ p.payload := by
    rw [← hData, length_slice]
  simp only [frame802154Create, slice_append_eq_iff] at hAll
  simp only [Nat.zero_add, List.length_append, length_fcfBytes, length_seqBytes,
    length_destPidBytes, length_srcPidBytes, length_destAddrBytes, length_srcAddrBytes] at hAll
  obtain ⟨⟨⟨⟨⟨⟨hFcf, hSeq⟩, hDestPid⟩, hDestAddr⟩, hSrcPid⟩, hSrcAddr⟩, hPayload⟩ := hAll
  have hMasked := masked_compressPanid p h.fcf
  have hSuppression := congrArg Fcf.sequenceNumberSuppression hMasked
  have hDestMode := congrArg Fcf.destAddrMode hMasked
  have hSrcMode := congrArg Fcf.srcAddrMode hMasked
  have hDest : IsAddr (compressPanid p).fcf.destAddrMode (compressPanid p).destAddr := by
    rw [hSame]
    exact h.destAddr
  have hSrc : IsAddr (compressPanid p).fcf.srcAddrMode (compressPanid p).srcAddr := by
    rw [hSame]
    exact h.srcAddr
  have hPanid : (hasPanid (compressPanid p).fcf).2 = true →
      (compressPanid p).fcf.destAddrMode ≠ 0 := by
    intro hHas
    have hMode := h.destPanid hHas
    rw [hSame]
    exact hMode
  have hParsed : parseFcf (data 0) (data 1) = (compressPanid p).fcf :=
    (parseFcf_of_fcfBytes hFcf).trans hMasked
  have hTwo : 2 ≤ len := by
    rw [hLen, frame802154Hdrlen]
    omega
  have hSeqRead (read : Frame802154) (hRead : read.fcf = (compressPanid p).fcf) :=
    parseSeq_of_bytes hRead hSuppression hSeq
  have hDestRead (read : Frame802154) (hRead : read.fcf = (compressPanid p).fcf) :=
    parseDest_of_bytes hRead hDest hDestMode hPanid hDestPid hDestAddr
  have hSrcRead (read : Frame802154) (hRead : read.fcf = (compressPanid p).fcf) :=
    parseSrc_of_bytes hRead hSrc hSrcMode srcAddrMode_of_hasPanid hSrcPid hSrcAddr
  obtain ⟨hDestEq, hSrcEq⟩ := h.pids
  have hRest : len - frame802154Hdrlen p = p.payload.length := by omega
  refine (frame802154Parse_of_parts hTwo (hSeqRead _ hParsed) (hDestRead _ hParsed)
    (hSrcRead _ hParsed) (by rw [hLen]; exact Nat.le_add_right _ _)).trans ?_
  refine congrArg some (Prod.ext rfl (Frame802154.ext rfl rfl hParsed ?_ ?_ ?_ ?_))
  · rw [hSame]
  · rw [hSame] at hDestEq ⊢
    exact hDestEq
  · rw [hSame] at hSrcEq ⊢
    exact hSrcEq
  · rw [← hRest] at hPayload
    exact hPayload.trans (by rw [hSame])

/-- A frame between two nodes of one network. -/
def unicast : Frame802154 where
  destAddr := ![0, 0x12, 0x4B, 0, 1, 2, 3, 4]
  srcAddr := ![0, 0x12, 0x4B, 0, 5, 6, 7, 8]
  fcf := ⟨frame802154Dataframe, 0, 0, 1, 0, 0, 0, 3, 1, 3⟩
  seq := 7
  destPid := 0xAABB
  srcPid := 0xAABB
  payload := [0x41, 0x42]

theorem wellFormed_unicast : unicast.WellFormed where
  fcf := rfl
  destAddr := ⟨Or.inr (Or.inr rfl), by decide⟩
  srcAddr := ⟨Or.inr (Or.inr rfl), by decide⟩
  destPanid _ := by decide
  destPid h := absurd h (by decide)
  srcPid _ := rfl

theorem frame802154Parse_create_unicast :
    frame802154Parse (fun i => (frame802154Create unicast ++ unicast.payload).getD i 0) 23 unicast =
      some (21, { unicast with fcf := { unicast.fcf with panidCompression := 1 } }) :=
  frame802154Parse_create wellFormed_unicast (by decide) unicast

end Smarthome.Mac
