import Smarthome.Lowpan.Copies

/-! Where the bytes of a reassembled packet come from. -/
namespace Smarthome.Lowpan

open Semantics

/-- Every byte of a reassembled packet came with a fragment of its session, at the place that
the fragment declared. -/
def Passed.Whole (packet : Passed) : Prop :=
  ∀ session, packet.session = some session → ∀ i < packet.uipLen,
    ∃ part ∈ session.received, LinkaddrCmp session.sender part.sender ∧
      part.tag = session.tag ∧ part.piece.Gives i (packet.uipBuf i)

/-- A whole packet has no byte that did not come. -/
theorem Passed.Whole.covered {packet : Passed} (hWhole : packet.Whole) :
    ∀ session ∈ packet.session, ∀ i < packet.uipLen,
      ∃ part ∈ session.received, part.piece.Covers i := by
  intro session hIs i hi
  obtain ⟨part, hMem, -, -, hGives⟩ := hWhole session hIs i hi
  exact ⟨part, hMem, hGives.covers⟩

/-- All packets passed on so far are whole. -/
def PassesWhole (s : State) : Prop := ∀ packet ∈ s.passed, packet.Whole

/-- The first fragment has written the byte of `first_frag`. -/
def State.FirstWrote (s : State) (context : Context) (i : Nat) : Prop :=
  ∃ part ∈ s.received context, part.first = true ∧ part.piece.Covers i

/-- A fragment in the buffers has the byte. -/
def State.StoredHas (s : State) (context : Context) (i : Nat) : Prop :=
  ∃ slot, s.Holds context slot ∧ 8 * (s.fragBuf slot).offset ≤ i ∧
    i < 8 * (s.fragBuf slot).offset + (s.fragBuf slot).len

/-- The bytes that are collected for a context. -/
def State.Has (s : State) (context : Context) (i : Nat) : Prop :=
  s.StoredHas context i ∨ i < (s.fragInfo context).firstFragLen ∧ s.FirstWrote context i

instance (s : State) (context : Context) (i : Nat) : Decidable (s.Has context i) :=
  inferInstanceAs (Decidable ((∃ _, s.Holds context _ ∧ _ ∧ _) ∨
    _ ∧ ∃ part ∈ s.received context, part.first = true ∧ part.piece.Covers i))

/-- The buffers hold what their sessions have received. -/
structure Holding (s : State) : Prop where
  sound : Sound s
  belongs : ∀ c, ∀ part ∈ s.received c,
    LinkaddrCmp (s.fragInfo c).sender part.sender ∧ part.tag = (s.fragInfo c).tag
  stored : ∀ slot, 0 < (s.fragBuf slot).len → ∃ part ∈ s.received (s.fragBuf slot).index,
    part.piece = ⟨8 * (s.fragBuf slot).offset, slice (s.fragBuf slot).data 0 (s.fragBuf slot).len⟩
  first : ∀ c i, s.FirstWrote c i →
    ∃ part ∈ s.received c, part.piece.Gives i ((s.fragInfo c).firstFrag i)

section Steps

variable {contexts : List AddrContext} {s t : State} {frame : Frame} {context : Context}

/-- What is collected for a context comes from its session. -/
theorem Holding.collected (h : Holding s) {i : Nat} (hHas : s.Has context i) (m : Nat → Byte) :
    ∃ part ∈ s.received context,
      part.piece.Gives i (Piece.writeAll m (s.collected context) i) := by
  rw [State.collected, Piece.writeAll_cons]
  generalize hSlots : ((List.finRange sicslowpanFragmentBuffers).filter fun slot =>
    s.Holds context slot).map _ = pieces
  have hPieces (piece : Piece Byte) : piece ∈ pieces ↔ ∃ slot, s.Holds context slot ∧ piece =
      ⟨8 * (s.fragBuf slot).offset, slice (s.fragBuf slot).data 0 (s.fragBuf slot).len⟩ := by
    simp [← hSlots, eq_comm]
  by_cases hCovers : ∃ piece ∈ pieces, piece.Covers i
  · obtain ⟨piece, hMem, hGives⟩ := Piece.gives_of_covers hCovers
    obtain ⟨slot, hHolds, rfl⟩ := (hPieces piece).mp hMem
    obtain ⟨part, hPart, hIs⟩ := h.stored slot hHolds.1
    refine ⟨part, hHolds.2 ▸ hPart, ?_⟩
    rw [hIs]
    exact hGives
  · have hNot : ¬ s.StoredHas context i := by
      rintro ⟨slot, hHolds, hFrom, hTo⟩
      refine hCovers ⟨_, (hPieces _).mpr ⟨slot, hHolds, rfl⟩, hFrom, ?_⟩
      rwa [length_slice]
    obtain ⟨hLess, hWrote⟩ := hHas.resolve_left hNot
    obtain ⟨part, hPart, hGives⟩ := h.first context i hWrote
    refine ⟨part, hPart, ?_⟩
    rw [Piece.writeAll_of_not_covers (fun piece hMem hIs => hCovers ⟨piece, hMem, hIs⟩)]
    have hIs : Piece.write m ⟨0, slice (s.fragInfo context).firstFrag 0
        (s.fragInfo context).firstFragLen⟩ i = (s.fragInfo context).firstFrag i := by
      simp [Piece.write, hLess]
    rw [hIs]
    exact hGives

/-- A step that receives nothing and only frees buffers. -/
theorem Holding.of_frees (h : Holding s) (hSound : Sound t) (hReceived : t.received = s.received)
    (hInfo : ∀ c, (t.fragInfo c).sender = (s.fragInfo c).sender ∧
      (t.fragInfo c).tag = (s.fragInfo c).tag ∧ (t.fragInfo c).firstFrag = (s.fragInfo c).firstFrag)
    (hSlots : ∀ slot, 0 < (t.fragBuf slot).len → t.fragBuf slot = s.fragBuf slot) :
    Holding t where
  sound := hSound
  belongs c := by
    rw [hReceived, (hInfo c).1, (hInfo c).2.1]
    exact h.belongs c
  stored slot hLen := by
    have hSame := hSlots slot hLen
    rw [hSame] at hLen ⊢
    rw [hReceived]
    exact h.stored slot hLen
  first c i hWrote := by
    rw [(hInfo c).2.2, hReceived]
    rw [State.FirstWrote, hReceived] at hWrote
    exact h.first c i hWrote

theorem Holding.clearFragments (h : Holding s) (context : Context) :
    Holding (s.clearFragments context) := by
  refine h.of_frees (h.sound.clearFragments context) rfl (fun c => ?_) fun slot hLen => ?_
  · by_cases hEq : c = context
    · rw [hEq, State.clearFragments_fragInfo_self]
      exact ⟨rfl, rfl, rfl⟩
    · rw [State.clearFragments_fragInfo_of_ne hEq]
      exact ⟨rfl, rfl, rfl⟩
  · refine State.clearFragments_fragBuf_of_not_holds fun hHolds => ?_
    exact absurd (State.clearFragments_fragBuf_len_of_holds hHolds) hLen.ne'

theorem Holding.clears (h : Holding s) (hClears : Clears s t) : Holding t := by
  induction hClears with
  | refl => exact h
  | clear context _ ih => exact ih.clearFragments context

/-- New counts of a context that stays in use. -/
theorem Holding.setCounts (h : Holding s) (context : Context) (reassembledLen firstFragLen : Nat)
    (hLen : firstFragLen ≤ uipBufsize) :
    Holding (s.setInfo context { s.fragInfo context with reassembledLen, firstFragLen }) := by
  refine h.of_frees (h.sound.setInfo context _ hLen id) rfl (fun c => ?_) fun slot _ => rfl
  rw [State.setInfo_fragInfo, Function.update_apply]
  split_ifs with hEq
  · rw [hEq]
    exact ⟨rfl, rfl, rfl⟩
  · exact ⟨rfl, rfl, rfl⟩

theorem Holding.opened (frame : Frame) (context : Context) (h : Holding t) (hFree : (t.fragInfo context).len = 0) :
    Holding { t.setInfo context (openedInfo (t.fragInfo context) frame) with
      received := Function.update t.received context [] } where
  sound := h.sound.opened hFree (openedInfo (t.fragInfo context) frame)
    (h.sound.firstFragLen context) (Function.update t.received context [])
  belongs c part := by
    by_cases hEq : c = context
    · rw [hEq]
      simp
    · simpa [hEq] using h.belongs c part
  stored slot hLen := by
    have hNe : (t.fragBuf slot).index ≠ context := fun hEq =>
      h.sound.not_holds hFree slot ⟨hLen, hEq⟩
    simpa [hNe] using h.stored slot hLen
  first c i := by
    by_cases hEq : c = context
    · rw [hEq]
      simp [State.FirstWrote]
    · simpa [State.FirstWrote, hEq] using h.first c i

/-- What a stored fragment is recorded as. -/
def receivedFragn (frame : Frame) (offset : Nat) : Received :=
  ⟨frame.sender, frame.fragTag, false, ⟨8 * offset, slice frame.packetbuf sicslowpanFragnHdrLen
    (frame.datalen - sicslowpanFragnHdrLen)⟩⟩

theorem storeAt_received {slot : Slot} {offset : Nat} :
    (t.storeAt frame slot context offset).received = Function.update t.received context
      (t.received context ++ [receivedFragn frame offset]) := rfl

/-- A fragment is stored for the context of its sender and tag. -/
theorem Holding.storeAt {slot : Slot} {offset : Nat} (h : Holding t)
    (hSound : Sound (t.storeAt frame slot context offset))
    (hSender : LinkaddrCmp (t.fragInfo context).sender frame.sender)
    (hTag : (t.fragInfo context).tag = frame.fragTag)
    (hLen : storedLen frame = frame.datalen - sicslowpanFragnHdrLen) :
    Holding (t.storeAt frame slot context offset) := by
  have hOld (c : Context) {part : Received} (hMem : part ∈ t.received c) :
      part ∈ (t.storeAt frame slot context offset).received c := by
    rw [storeAt_received, Function.update_apply]
    split_ifs with hEq
    · exact List.mem_append_left _ (hEq ▸ hMem)
    · exact hMem
  have hNew {c : Context} {part : Received}
      (hMem : part ∈ (t.storeAt frame slot context offset).received c) :
      part ∈ t.received c ∨ c = context ∧ part = receivedFragn frame offset := by
    rw [storeAt_received, Function.update_apply] at hMem
    split_ifs at hMem with hEq
    · rw [hEq]
      simpa using hMem
    · exact Or.inl hMem
  refine ⟨hSound, fun c part hMem => ?_, fun other hUsed => ?_, fun c i hWrote => ?_⟩
  · rcases hNew hMem with hIn | ⟨rfl, rfl⟩
    · exact h.belongs c part hIn
    · exact ⟨hSender, hTag.symm⟩
  · by_cases hEq : other = slot
    · rw [hEq, storeAt_fragBuf_self]
      refine ⟨receivedFragn frame offset, ?_, ?_⟩
      · simp [storeAt_received]
      · simp only [receivedFragn, Piece.mk.injEq, true_and, hLen]
        refine slice_congr fun k hk => ?_
        simp [Piece.write, hk]
    · rw [storeAt_fragBuf_of_ne hEq] at hUsed ⊢
      obtain ⟨part, hMem, hIs⟩ := h.stored other hUsed
      exact ⟨part, hOld _ hMem, hIs⟩
  · obtain ⟨part, hMem, hFirst, hCovers⟩ := hWrote
    rcases hNew hMem with hIn | ⟨-, rfl⟩
    · obtain ⟨giver, hGiver, hGives⟩ := h.first c i ⟨part, hIn, hFirst, hCovers⟩
      exact ⟨giver, hOld c hGiver, hGives⟩
    · exact absurd hFirst Bool.false_ne_true

theorem writeFirst_received {pieces : List (Piece Byte)} :
    (s.writeFirst frame context pieces).received = Function.update s.received context
      (s.received context ++ pieces.map fun piece =>
        ⟨frame.sender, frame.fragTag, true, piece⟩) := rfl

/-- Pieces of the first fragment are written for the context of its sender and tag. -/
theorem Holding.writeFirst (pieces : List (Piece Byte)) (h : Holding s)
    (hSender : LinkaddrCmp (s.fragInfo context).sender frame.sender)
    (hTag : (s.fragInfo context).tag = frame.fragTag) :
    Holding (s.writeFirst frame context pieces) := by
  have hInfo (c : Context) : ((s.writeFirst frame context pieces).fragInfo c).sender =
        (s.fragInfo c).sender ∧
      ((s.writeFirst frame context pieces).fragInfo c).tag = (s.fragInfo c).tag := by
    simp only [State.writeFirst, State.setInfo_fragInfo, Function.update_apply]
    split_ifs with hEq
    · rw [hEq]
      exact ⟨rfl, rfl⟩
    · exact ⟨rfl, rfl⟩
  have hOld (c : Context) {part : Received} (hMem : part ∈ s.received c) :
      part ∈ (s.writeFirst frame context pieces).received c := by
    rw [writeFirst_received, Function.update_apply]
    split_ifs with hEq
    · exact List.mem_append_left _ (hEq ▸ hMem)
    · exact hMem
  refine ⟨h.sound.writeFirst, fun c part hMem => ?_, fun slot hUsed => ?_, fun c i hWrote => ?_⟩
  · rw [(hInfo c).1, (hInfo c).2]
    rw [writeFirst_received, Function.update_apply] at hMem
    split_ifs at hMem with hEq
    · rw [hEq]
      rcases List.mem_append.mp hMem with hIn | hIn
      · exact h.belongs context part hIn
      · obtain ⟨piece, -, rfl⟩ := List.mem_map.mp hIn
        exact ⟨hSender, hTag.symm⟩
    · exact h.belongs c part hMem
  · obtain ⟨part, hMem, hIs⟩ := h.stored slot hUsed
    exact ⟨part, hOld _ hMem, hIs⟩
  · by_cases hEq : c = context
    · subst hEq
      have hFrag : ((s.writeFirst frame c pieces).fragInfo c).firstFrag =
          Piece.writeAll (s.fragInfo c).firstFrag pieces := by
        simp [State.writeFirst]
      rw [hFrag]
      by_cases hCovers : ∃ piece ∈ pieces, piece.Covers i
      · obtain ⟨piece, hMem, hGives⟩ := Piece.gives_of_covers hCovers
        refine ⟨⟨frame.sender, frame.fragTag, true, piece⟩, ?_, hGives⟩
        rw [writeFirst_received, Function.update_self]
        exact List.mem_append_right _ (List.mem_map_of_mem hMem)
      · obtain ⟨part, hMem, hFirst, hIs⟩ := hWrote
        rw [writeFirst_received, Function.update_self] at hMem
        rw [Piece.writeAll_of_not_covers fun piece hIn hIs => hCovers ⟨piece, hIn, hIs⟩]
        rcases List.mem_append.mp hMem with hIn | hIn
        · obtain ⟨giver, hGiver, hGives⟩ := h.first c i ⟨part, hIn, hFirst, hIs⟩
          exact ⟨giver, hOld c hGiver, hGives⟩
        · obtain ⟨piece, hPiece, rfl⟩ := List.mem_map.mp hIn
          exact absurd ⟨piece, hPiece, hIs⟩ hCovers
    · have hSame : (s.writeFirst frame context pieces).fragInfo c = s.fragInfo c := by
        simp [State.writeFirst, hEq]
      have hReceived : (s.writeFirst frame context pieces).received c = s.received c := by
        simp [writeFirst_received, hEq]
      rw [hSame, hReceived]
      rw [State.FirstWrote, hReceived] at hWrote
      exact h.first c i hWrote

theorem Holding.finish (h : Holding s) : Holding (s.finish frame context) := by
  have hSound : Sound (s.finish frame context) := h.sound.finish
  unfold State.finish at hSound ⊢
  split_ifs at hSound ⊢
  · have hClear := (h.setCounts context frame.fragSize (s.fragInfo context).firstFragLen
      (h.sound.firstFragLen context)).clearFragments context
    exact ⟨hSound, hClear.belongs, hClear.stored, hClear.first⟩
  · exact ⟨hSound, h.belongs, h.stored, h.first⟩

/-- A packet is whole if all its bytes are collected. -/
theorem PassesWhole.finish (hWhole : PassesWhole s) (h : Holding s)
    (hHas : ∀ i < frame.fragSize, s.Has context i) : PassesWhole (s.finish frame context) := by
  unfold State.finish
  split_ifs with hSize
  · refine List.forall_mem_append.mpr ⟨hWhole, List.forall_mem_singleton.mpr ?_⟩
    intro session hIs i hi
    obtain rfl := Option.some.inj hIs
    obtain ⟨part, hMem, hGives⟩ := h.collected (hHas i hi) frame.uipBuf
    obtain ⟨hSender, hTag⟩ := h.belongs context part hMem
    exact ⟨part, hMem, hSender, hTag, hGives⟩
  · refine List.forall_mem_append.mpr ⟨hWhole, List.forall_mem_singleton.mpr ?_⟩
    intro session _ i hi
    exact absurd hi (Nat.not_lt_zero i)

theorem PassesWhole.of_eq (hWhole : PassesWhole s) (hPassed : t.passed = s.passed) :
    PassesWhole t := by
  rw [PassesWhole, hPassed]
  exact hWhole

theorem Clears.received_eq (h : Clears s t) : t.received = s.received := by
  induction h with
  | refl => rfl
  | clear context _ ih => exact ih

/-- What was collected before a fragment was stored is collected after it, and the fragment. -/
theorem has_of_stored {slot : Slot} {offset : Nat} {info : FragInfo}
    (hSpares : Spares context s t) (hFree : (t.fragBuf slot).len = 0)
    (hLen : storedLen frame = frame.datalen - sicslowpanFragnHdrLen)
    (hInfo : info.firstFragLen = (s.fragInfo context).firstFragLen) {i : Nat}
    (hHas : s.Has context i ∨ (receivedFragn frame offset).piece.Covers i) :
    ((t.storeAt frame slot context offset).setInfo context info).Has context i := by
  have hStored := exists_stored_iff frame offset
    (P := fun b => 8 * b.offset ≤ i ∧ i < 8 * b.offset + b.len) hSpares hFree
  rw [storeAt_fragBuf_self] at hStored
  rcases hHas with (hBefore | ⟨hLess, part, hMem, hFirst, hCovers⟩) | ⟨hFrom, hTo⟩
  · exact Or.inl (hStored.mpr (Or.inl hBefore))
  · refine Or.inr ⟨?_, part, ?_, hFirst, hCovers⟩
    · rw [State.setInfo_fragInfo, Function.update_self, hInfo]
      exact hLess
    · rw [State.setInfo_received, storeAt_received, Function.update_self,
        hSpares.clears.received_eq]
      exact List.mem_append_left _ hMem
  · rw [receivedFragn, length_slice, ← hLen] at hTo
    dsimp only [receivedFragn] at hFrom hTo
    exact Or.inl (hStored.mpr (Or.inr ⟨by omega, hFrom, hTo⟩))

/-- A following fragment with the offset 0 finds in the context that it opens a count of bytes
that is enough for its packet. -/
def CompletesOpened (s : State) (frame : Frame) (i : Context) : Prop :=
  sicslowpanFragnHdrLen ≤ frame.datalen ∧ frame.datalen - sicslowpanFragnHdrLen ≤ uipBufsize ∧
    frame.fragSize ≤ (s.fragInfo i).reassembledLen

instance (s : State) (frame : Frame) (i : Context) : Decidable (CompletesOpened s frame i) :=
  inferInstanceAs (Decidable (_ ∧ _ ∧ _))

/-- All bytes of the packet are collected, with those of the frame. -/
def Covered (s : State) (frame : Frame) (i : Context) : Prop :=
  ∀ j < frame.fragSize, s.Has i j ∨ (receivedFragn frame frame.fragOffset).piece.Covers j

instance (s : State) (frame : Frame) (i : Context) : Decidable (Covered s frame i) :=
  inferInstanceAs (Decidable (∀ _ < _, _ ∨ _))

/-- If the frame completes a packet, all bytes of the packet are there. -/
def PacketCovered (s : State) (frame : Frame) : Prop :=
  frame.IsFragn →
    (frame.fragOffset = 0 → 0 < frame.fragSize → ∀ i, s.FirstFree frame i →
      ¬ CompletesOpened s frame i) ∧
    (frame.fragOffset ≠ 0 → ∀ i, s.findContext frame = some i → s.HasRoom frame i →
      Completes s frame i → Covered s frame i)

instance (s : State) (frame : Frame) : Decidable (PacketCovered s frame) :=
  inferInstanceAs (Decidable (_ → (_ → _ → ∀ _, s.FirstFree frame _ → ¬ _) ∧
    (_ → ∀ _, _ → s.HasRoom frame _ → _ → _)))

theorem Holding.inputFrag1 (h : Holding s) : Holding (inputFrag1 contexts s frame) := by
  unfold Lowpan.inputFrag1
  obtain ⟨t, hClears, ⟨-, hIs⟩ | ⟨-, i, -, hInfo, hIs⟩⟩ := openContext_spec s frame
  · rw [hIs]
    exact h.clears hClears
  have hOpened := (h.clears hClears).opened frame i (by rw [hInfo])
  rw [hIs]
  generalize hOpen : ({ t.setInfo i _ with received := _ } : State) = u at hOpened ⊢
  have hSender : LinkaddrCmp (u.fragInfo i).sender frame.sender := by
    simp [← hOpen, openedInfo, LinkaddrCmp]
  have hTag : (u.fragInfo i).tag = frame.fragTag := by simp [← hOpen, openedInfo]
  have hSenderAfter (pieces : List (Piece Byte)) :
      LinkaddrCmp ((u.writeFirst frame i pieces).fragInfo i).sender frame.sender := by
    simpa [State.writeFirst] using hSender
  have hTagAfter (pieces : List (Piece Byte)) :
      ((u.writeFirst frame i pieces).fragInfo i).tag = frame.fragTag := by
    simpa [State.writeFirst] using hTag
  dsimp only
  split
  · exact hOpened
  · rename_i hdr _
    have hHdr := hOpened.writeFirst hdr.pieces hSender hTag
    split
    · exact hHdr
    · rename_i payload hPayload
      have hBoth := hHdr.writeFirst [payload] (hSenderAfter hdr.pieces) (hTagAfter hdr.pieces)
      rcases inputPayload_cases frame hdr with ⟨-, hNone⟩ | ⟨-, hSize, hSome⟩
      · exact absurd (hNone.symm.trans hPayload) (Option.some_ne_none _).symm
      obtain rfl := Option.some.inj (hSome.symm.trans hPayload)
      split_ifs
      · exact hBoth.setCounts i _ _ (by simpa only [length_slice] using hSize)
      · exact hBoth

theorem inputFrag1_passed : (inputFrag1 contexts s frame).passed = s.passed := by
  unfold inputFrag1
  obtain ⟨t, hClears, ⟨-, hIs⟩ | ⟨-, i, -, -, hIs⟩⟩ := openContext_spec s frame
  · rw [hIs]
    exact hClears.passed_eq
  · rw [hIs, ← hClears.passed_eq]
    dsimp only
    split
    · rfl
    · split
      · rfl
      · split_ifs <;> rfl

theorem inputWhole_passes (h : Holding s) (hWhole : PassesWhole s) :
    Holding (inputWhole contexts s frame) ∧ PassesWhole (inputWhole contexts s frame) := by
  have hKeep (copied : List Copy) (passed : List Passed) :
      Holding { s with copied := copied, passed := passed } :=
    ⟨⟨h.sound.inUse, h.sound.firstFragLen⟩, h.belongs, h.stored, h.first⟩
  unfold inputWhole
  split
  · exact ⟨h, hWhole⟩
  · dsimp only
    split
    · exact ⟨hKeep _ _, hWhole⟩
    · refine ⟨hKeep _ _, List.forall_mem_append.mpr ⟨hWhole, List.forall_mem_singleton.mpr ?_⟩⟩
      intro session hIs
      exact absurd hIs.symm (Option.some_ne_none session)

/-- A fragment with the offset 0 that completes nothing. -/
theorem inputFragn_passes_of_first (h : Holding s) (hWhole : PassesWhole s)
    (hOffset : frame.fragOffset = 0)
    (hNot : 0 < frame.fragSize → ∀ i, s.FirstFree frame i → ¬ CompletesOpened s frame i) :
    Holding (inputFragn s frame) ∧ PassesWhole (inputFragn s frame) := by
  unfold inputFragn State.addFragment
  rw [if_pos hOffset]
  obtain ⟨t, hClears, ⟨-, hIs⟩ | ⟨-, i, hFirst, hInfo, hIs⟩⟩ := openContext_spec s frame
  · rw [hIs]
    exact ⟨h.clears hClears, hWhole.of_eq hClears.passed_eq⟩
  have hOpened := (h.clears hClears).opened frame i (by rw [hInfo])
  have hSame := hWhole.of_eq (t := { t.setInfo i (openedInfo (t.fragInfo i) frame) with
    received := Function.update t.received i [] }) hClears.passed_eq
  rw [hIs]
  dsimp only
  split_ifs with hShort hBeyond hDone
  · exact ⟨hOpened, hSame⟩
  · exact ⟨hOpened, hSame⟩
  · refine ⟨hOpened.finish, hSame.finish hOpened fun j hj => ?_⟩
    rw [hOffset] at hBeyond
    refine absurd ?_ (hNot (Nat.zero_lt_of_lt hj) i hFirst)
    refine ⟨Nat.le_of_not_lt hShort, by omega, ?_⟩
    rw [State.setInfo_fragInfo, Function.update_self, hInfo] at hDone
    exact hDone
  · exact ⟨hOpened, hSame⟩

/-- A fragment that completes a packet only if all of its bytes are there. -/
theorem inputFragn_passes_of_following (h : Holding s) (hWhole : PassesWhole s)
    (hOffset : frame.fragOffset ≠ 0) (hFits : FragnFits s frame)
    (hCovered : ∀ i, s.findContext frame = some i → s.HasRoom frame i →
      Completes s frame i → Covered s frame i) :
    Holding (inputFragn s frame) ∧ PassesWhole (inputFragn s frame) := by
  unfold inputFragn
  rcases addFragment_spec s hOffset with ⟨-, hIs⟩ |
    ⟨i, hFind, t, hSpares, ⟨-, hIs⟩ | ⟨hRoom, slot, hFree, hIs⟩⟩
  · rw [hIs]
    exact ⟨h, hWhole⟩
  · rw [hIs]
    exact ⟨h.clears hSpares.clears, hWhole.of_eq hSpares.clears.passed_eq⟩
  obtain ⟨hTag, hUse, hSender⟩ := findContext_inUse hFind
  obtain ⟨⟨hFrom, hTo⟩, -⟩ := hFits hOffset i hFind hRoom
  have hLen : storedLen frame = frame.datalen - sicslowpanFragnHdrLen :=
    storedLen_of_le hFrom (hTo.trans (by decide))
  rw [← hSpares.fragInfo] at hTag hUse hSender
  have hBefore := h.clears hSpares.clears
  have hStored := hBefore.storeAt (hBefore.sound.storeAt frame slot frame.fragOffset hUse)
    hSender hTag hLen
  have hSame := hWhole.of_eq (t := t.storeAt frame slot i frame.fragOffset)
    hSpares.clears.passed_eq
  rw [hIs]
  by_cases hPositive : 0 < storedLen frame
  · rw [if_pos hPositive]
    have hAdded := hStored.setCounts i
      ((((t.storeAt frame slot i frame.fragOffset).fragInfo i).reassembledLen +
        storedLen frame) % 65536) _ (hStored.sound.firstFragLen i)
    dsimp only
    split_ifs with hShort hBeyond hDone
    · exact ⟨hAdded, hSame⟩
    · exact ⟨hAdded, hSame⟩
    · refine ⟨hAdded.finish, PassesWhole.finish hSame hAdded fun j hj => ?_⟩
      have hComplete : Completes s frame i := by
        refine ⟨Nat.lt_of_sub_pos (hLen ▸ hPositive), Nat.le_of_not_lt hBeyond,
          Nat.zero_lt_of_lt hj, ?_⟩
        rw [State.setInfo_fragInfo, Function.update_self, hLen] at hDone
        rw [← hSpares.fragInfo]
        exact hDone
      have hFirstLen : (t.fragInfo i).firstFragLen = (s.fragInfo i).firstFragLen := by
        rw [hSpares.fragInfo]
      refine has_of_stored hSpares hFree hLen ?_ (hCovered i hFind hRoom hComplete j hj)
      exact hFirstLen
    · exact ⟨hAdded, hSame⟩
  · rw [if_neg hPositive]
    dsimp only
    exact ⟨hStored, hSame⟩

theorem input_passes (h : Holding s) (hWhole : PassesWhole s)
    (hFits : FrameFits contexts s frame) (hCovered : PacketCovered s frame) :
    Holding (input contexts s frame) ∧ PassesWhole (input contexts s frame) := by
  unfold input
  split_ifs with hFrag1 hFragn
  · exact ⟨h.inputFrag1, hWhole.of_eq inputFrag1_passed⟩
  · obtain ⟨hFirst, hFollowing⟩ := hCovered hFragn
    by_cases hOffset : frame.fragOffset = 0
    · exact inputFragn_passes_of_first h hWhole hOffset (hFirst hOffset)
    · exact inputFragn_passes_of_following h hWhole hOffset (hFits.2 hFragn) (hFollowing hOffset)
  · exact inputWhole_passes h hWhole

end Steps

theorem Holding.init : Holding State.init where
  sound := Sound.init
  belongs _ := nofun
  stored _ hLen := nomatch hLen
  first _ _ hWrote := by simp [State.FirstWrote, State.init] at hWrote

/-- **When reassembly delivers only whole packets.** If each frame fits into the buffers and
completes a packet only when all of its bytes are collected, every packet is passed on whole. -/
theorem passes_whole_of_covered (contexts : List AddrContext) (frames : List Frame)
    (hAlong : Along (receive contexts) (fun s frame =>
      FrameFits contexts s frame ∧ PacketCovered s frame) State.init frames) :
    Throughout (receive contexts) PassesWhole State.init frames := by
  refine Throughout.of_along (fun s => Holding s ∧ PassesWhole s) (fun s hs => hs.2) ?_
    ⟨Holding.init, nofun⟩ hAlong
  rintro s frame t ⟨hHolding, hWhole⟩ ⟨hFits, hCovered⟩ hStep
  obtain rfl := Option.some.inj hStep
  exact input_passes hHolding hWhole hFits hCovered

/-- A packet of 41 bytes in a first fragment of 40 and a following one. -/
theorem passes_whole_of_covered_one : Throughout (receive []) PassesWhole State.init
    [frameOf [0xc0, 41, 0, 7, 0x41] 45, frameOf [0xe0, 41, 0, 7, 5] 6] :=
  passes_whole_of_covered [] [frameOf [0xc0, 41, 0, 7, 0x41] 45, frameOf [0xe0, 41, 0, 7, 5] 6]
    (by decide +kernel)

/-- The second byte is counted twice, and the packet of 42 bytes is passed on without its
last byte. -/
theorem passes_whole_fails : ¬ ∀ (contexts : List AddrContext) (frames : List Frame),
    Throughout (receive contexts) PassesWhole State.init frames := by
  intro hClaim
  have hAll := hClaim [] [frameOf [0xc0, 42, 0, 7, 0x41] 45, frameOf [0xe0, 42, 0, 7, 5] 6,
    frameOf [0xe0, 42, 0, 7, 5] 6]
  have hCovered := fun packet hMem => (hAll.last rfl packet hMem).covered
  exact absurd hCovered (by decide +kernel)

end Smarthome.Lowpan
