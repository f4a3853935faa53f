import Mathlib.Data.List.FinRange
import Mathlib.Logic.Function.Basic
import Smarthome.Lowpan.Iphc
import Smarthome.Semantics.Runs

/-! `sicslowpan.c`: the processing of received frames. A packet in one frame is uncompressed
into `uip_buf`; a fragmented one is collected in a reassembly context, whose first fragment is
uncompressed into `first_frag` and whose following fragments wait in `frag_buf`. -/
namespace Smarthome.Lowpan

open Semantics

/-- `sizeof(uip_buf)`. -/
abbrev uipBufsize : Nat := 900

abbrev sicslowpanReassContexts : Nat := 2
abbrev sicslowpanFragmentBuffers : Nat := 12
abbrev sicslowpanFragmentSize : Nat := 110
abbrev sicslowpanFirstFragmentSize : Nat := 148

abbrev sicslowpanFrag1HdrLen : Nat := 4
abbrev sicslowpanFragnHdrLen : Nat := 5
abbrev sicslowpanIpv6HdrLen : Nat := 1

abbrev dispatchIpv6 : Byte := 0x41
abbrev dispatchFrag1 : Byte := 0xc0
abbrev dispatchFragn : Byte := 0xe0

abbrev Context := Fin sicslowpanReassContexts
abbrev Slot := Fin sicslowpanFragmentBuffers

/-- `linkaddr_cmp`. -/
def LinkaddrCmp (a b : LinkAddr) : Prop := ∀ i < 8, a i = b i

instance (a b : LinkAddr) : Decidable (LinkaddrCmp a b) :=
  inferInstanceAs (Decidable (∀ i < 8, a i = b i))

/-- `struct sicslowpan_frag_info`; the context is free if `len` is 0. -/
structure FragInfo where
  sender : LinkAddr
  tag : Nat
  len : Nat
  reassembledLen : Nat
  firstFragLen : Nat
  firstFrag : Nat → Byte

/-- `struct sicslowpan_frag_buf`; the buffer is free if `len` is 0. -/
structure FragBuf where
  index : Context
  offset : Nat
  len : Nat
  data : Nat → Byte

/-- A buffer that the processing of frames copies into. -/
inductive Target where
  | fragBuf (slot : Slot)
  | firstFrag (context : Context)
  | uipBuf

def Target.size : Target → Nat
  | .fragBuf _ => sicslowpanFragmentSize
  | .firstFrag _ => sicslowpanFirstFragmentSize
  | .uipBuf => uipBufsize

@[simp] theorem Target.size_fragBuf (slot : Slot) : (Target.fragBuf slot).size = 110 := rfl

@[simp] theorem Target.size_firstFrag (context : Context) :
    (Target.firstFrag context).size = 148 := rfl

@[simp] theorem Target.size_uipBuf : Target.uipBuf.size = 900 := rfl

/-- A copy that was made. -/
structure Copy where
  target : Target
  offset : Nat
  length : Int

def Copy.Inside (copy : Copy) : Prop :=
  0 ≤ copy.length ∧ copy.offset + copy.length ≤ copy.target.size

instance (copy : Copy) : Decidable copy.Inside := inferInstanceAs (Decidable (_ ∧ _))

/-- Bytes of a packet that came with a fragment, at the place that it declared. -/
structure Received where
  sender : LinkAddr
  tag : Nat
  first : Bool
  piece : Piece Byte

/-- A reassembly, from the opening of its context on. -/
structure Session where
  sender : LinkAddr
  tag : Nat
  received : List Received

/-- What is in `uip_buf` when `tcpip_input` is called; a reassembled packet has a session. -/
structure Passed where
  uipBuf : Nat → Byte
  uipLen : Nat
  session : Option Session

/-- The reassembly buffers. The last three fields are not in the program: what each context has
received since it was opened, the copies made and the packets passed on. -/
structure State where
  fragInfo : Context → FragInfo
  fragBuf : Slot → FragBuf
  received : Context → List Received
  copied : List Copy
  passed : List Passed

/-- A frame in `packetbuf`, what `uip_buf` holds and whose timers have expired when it comes. -/
structure Frame where
  sender : LinkAddr
  receiver : LinkAddr
  packetbuf : Nat → Byte
  datalen : Nat
  uipBuf : Nat → Byte
  expired : Context → Bool

/-- `GET16`. -/
def get16 (ptr : Nat → Byte) (index : Nat) : Nat :=
  (ptr index).toNat * 256 + (ptr (index + 1)).toNat

namespace Frame

variable (frame : Frame)

/-- The dispatch of a first and of a following fragment. -/
def IsFrag1 : Prop := frame.packetbuf 0 &&& 0xf8 = dispatchFrag1

def IsFragn : Prop := frame.packetbuf 0 &&& 0xf8 = dispatchFragn

instance : Decidable frame.IsFrag1 := inferInstanceAs (Decidable (_ = _))
instance : Decidable frame.IsFragn := inferInstanceAs (Decidable (_ = _))

def fragSize : Nat := get16 frame.packetbuf 0 % 2048

def fragTag : Nat := get16 frame.packetbuf 2

def fragOffset : Nat := (frame.packetbuf 4).toNat

end Frame

/-- The header of a frame in the context that it opens. -/
def openedInfo (info : FragInfo) (frame : Frame) : FragInfo :=
  { info with len := frame.fragSize, tag := frame.fragTag, sender := frame.sender }

namespace State

variable (s : State) (frame : Frame)

def session (context : Context) : Session where
  sender := (s.fragInfo context).sender
  tag := (s.fragInfo context).tag
  received := s.received context

def setInfo (context : Context) (info : FragInfo) : State :=
  { s with fragInfo := Function.update s.fragInfo context info }

/-- The buffer holds a fragment of the context. -/
def Holds (context : Context) (slot : Slot) : Prop :=
  0 < (s.fragBuf slot).len ∧ (s.fragBuf slot).index = context

instance (context : Context) (slot : Slot) : Decidable (s.Holds context slot) :=
  inferInstanceAs (Decidable (_ ∧ _))

/-- `clear_fragments`. -/
def clearFragments (context : Context) : State :=
  { s with
    fragInfo := Function.update s.fragInfo context { s.fragInfo context with len := 0 }
    fragBuf := fun slot =>
      if s.Holds context slot then { s.fragBuf slot with len := 0 } else s.fragBuf slot }

/-- The result of `clear_fragments`. -/
def clearCount (context : Context) : Nat :=
  (List.finRange sicslowpanFragmentBuffers).countP fun slot => s.Holds context slot

/-- The context is in use and its timer has expired. -/
def Overdue (context : Context) : Prop :=
  0 < (s.fragInfo context).len ∧ frame.expired context = true

instance (context : Context) : Decidable (s.Overdue frame context) :=
  inferInstanceAs (Decidable (_ ∧ _))

/-- `timeout_fragments`. -/
def timeoutFragments (notContext : Context) : State × Nat :=
  (List.finRange sicslowpanReassContexts).foldl (fun done i =>
    if i ≠ notContext ∧ done.1.Overdue frame i then
      (done.1.clearFragments i, done.2 + done.1.clearCount i)
    else done) (s, 0)

/-- What `store_fragment` copies, and what goes into the 8-bit field `len`. -/
def storeAt (slot : Slot) (index : Context) (offset : Nat) : State :=
  let length : Int := frame.datalen - sicslowpanFragnHdrLen
  let len := (length % 256).toNat
  let payload := slice frame.packetbuf sicslowpanFragnHdrLen
    (frame.datalen - sicslowpanFragnHdrLen)
  let data := Piece.write (s.fragBuf slot).data ⟨0, payload⟩
  let received : Received := ⟨frame.sender, frame.fragTag, false, ⟨8 * offset, payload⟩⟩
  { s with
    fragBuf := Function.update s.fragBuf slot { index, offset, len, data }
    received := Function.update s.received index (s.received index ++ [received])
    copied := s.copied ++ [⟨.fragBuf slot, 0, length⟩] }

/-- `store_fragment`, with the length that it returns, or nothing for its failure. -/
def storeFragment (index : Context) (offset : Nat) : State × Option Nat :=
  match (List.finRange sicslowpanFragmentBuffers).find? fun slot => (s.fragBuf slot).len = 0 with
  | none => (s, none)
  | some slot =>
      let s := s.storeAt frame slot index offset
      (s, some (s.fragBuf slot).len)

/-- One turn of the loop of `add_fragment` that looks for a free context. -/
def seekFree (found : State × Option Context) (i : Context) : State × Option Context :=
  let s := if found.1.Overdue frame i then found.1.clearFragments i else found.1
  (s, if found.2 = none ∧ (s.fragInfo i).len = 0 then some i else found.2)

/-- `add_fragment` for the offset 0. -/
def openContext : State × Option Context :=
  let found := (List.finRange sicslowpanReassContexts).foldl (seekFree frame) (s, none)
  match found.2 with
  | none => found
  | some i =>
      let s := found.1
      ({ s.setInfo i (openedInfo (s.fragInfo i) frame) with
          received := Function.update s.received i [] }, some i)

/-- The context of a following fragment. -/
def findContext : Option Context :=
  (List.finRange sicslowpanReassContexts).find? fun i =>
    (s.fragInfo i).tag = frame.fragTag ∧ 0 < (s.fragInfo i).len ∧
      LinkaddrCmp (s.fragInfo i).sender frame.sender

/-- `store_fragment`, and once more if there was no room and a timeout makes some. -/
def storeOrTimeout (i : Context) : State × Option Nat :=
  let stored := s.storeFragment frame i frame.fragOffset
  match stored.2 with
  | some _ => stored
  | none =>
      let timedOut := s.timeoutFragments frame i
      if 0 < timedOut.2 then timedOut.1.storeFragment frame i frame.fragOffset
      else (timedOut.1, none)

/-- `add_fragment` for the offset of the frame. -/
def addFragment : State × Option Context :=
  if frame.fragOffset = 0 then s.openContext frame
  else match s.findContext frame with
    | none => (s, none)
    | some i =>
        let stored := s.storeOrTimeout frame i
        let s := stored.1
        let len := stored.2.getD 0
        if 0 < len then
          let info := s.fragInfo i
          (s.setInfo i { info with reassembledLen := (info.reassembledLen + len) % 65536 }, some i)
        else (s, none)

/-- What `copy_frags2uip` copies. -/
def collected (context : Context) : List (Piece Byte) :=
  let info := s.fragInfo context
  let slots := (List.finRange sicslowpanFragmentBuffers).filter fun slot => s.Holds context slot
  ⟨0, slice info.firstFrag 0 info.firstFragLen⟩ :: slots.map fun slot =>
    ⟨8 * (s.fragBuf slot).offset, slice (s.fragBuf slot).data 0 (s.fragBuf slot).len⟩

end State

/-- The copies of pieces into a buffer. -/
def copies (target : Target) (pieces : List (Piece Byte)) : List Copy :=
  pieces.map fun piece => ⟨target, piece.offset, piece.cells.length⟩

variable (contexts : List AddrContext) (s : State) (frame : Frame)

/-- The dispatch of an IP header at `packetbuf_hdr_len`; there is none that is not known. -/
def inputHdr (hdrLen ipLen : Nat) (buffer : Nat → Byte) : Option UncompressedHdr :=
  if frame.packetbuf hdrLen &&& 0xe0 = dispatchIphc then
    some (uncompressHdrIphc contexts frame.sender frame.receiver frame.packetbuf hdrLen
      frame.datalen buffer ipLen)
  else if frame.packetbuf hdrLen = dispatchIpv6 then
    let hdr := slice frame.packetbuf (hdrLen + sicslowpanIpv6HdrLen) uipIphLen
    some { pieces := [⟨0, hdr⟩]
           hdrLen := hdrLen + sicslowpanIpv6HdrLen + uipIphLen
           uncompHdrLen := uipIphLen }
  else none

/-- The payload behind the header, if the frame is not too short for it and it does not go
beyond `uip_buf`. -/
def inputPayload (hdr : UncompressedHdr) : Option (Piece Byte) :=
  if frame.datalen < hdr.hdrLen then none
  else if uipBufsize < hdr.uncompHdrLen + (frame.datalen - hdr.hdrLen) then none
  else some ⟨hdr.uncompHdrLen, slice frame.packetbuf hdr.hdrLen (frame.datalen - hdr.hdrLen)⟩

/-- Pieces of the first fragment go to `first_frag`. -/
def State.writeFirst (context : Context) (pieces : List (Piece Byte)) : State :=
  let info := s.fragInfo context
  let received : List Received :=
    pieces.map fun piece => ⟨frame.sender, frame.fragTag, true, piece⟩
  { s.setInfo context { info with firstFrag := Piece.writeAll info.firstFrag pieces } with
    received := Function.update s.received context (s.received context ++ received)
    copied := s.copied ++ copies (.firstFrag context) pieces }

/-- `input` for a first fragment. -/
def inputFrag1 : State :=
  match s.openContext frame with
  | (s, none) => s
  | (s, some context) =>
      match inputHdr contexts frame sicslowpanFrag1HdrLen frame.fragSize
          (s.fragInfo context).firstFrag with
      | none => s
      | some hdr =>
          let s := s.writeFirst frame context hdr.pieces
          match inputPayload frame hdr with
          | none => s
          | some payload =>
              let s := s.writeFirst frame context [payload]
              if 0 < frame.fragSize then
                let len := payload.offset + payload.cells.length
                s.setInfo context
                  { s.fragInfo context with reassembledLen := len, firstFragLen := len }
              else s

/-- `copy_frags2uip` and the call of `tcpip_input`, for the context that a frame has completed. -/
def State.finish (context : Context) : State :=
  if 0 < frame.fragSize then
    let pieces := s.collected context
    let done := (s.setInfo context { s.fragInfo context with
      reassembledLen := frame.fragSize }).clearFragments context
    { done with
      copied := s.copied ++ copies .uipBuf pieces
      passed := s.passed ++
        [⟨Piece.writeAll frame.uipBuf pieces, frame.fragSize, some (s.session context)⟩] }
  else { s with passed := s.passed ++ [⟨frame.uipBuf, 0, some (s.session context)⟩] }

/-- `input` for a following fragment. Its size is checked after it was stored. -/
def inputFragn : State :=
  match s.addFragment frame with
  | (s, none) => s
  | (s, some context) =>
      if frame.datalen < sicslowpanFragnHdrLen then s
      else if uipBufsize < 8 * frame.fragOffset + (frame.datalen - sicslowpanFragnHdrLen) then s
      else if frame.fragSize ≤ (s.fragInfo context).reassembledLen then s.finish frame context
      else s

/-- `input` for a packet in one frame. -/
def inputWhole : State :=
  match inputHdr contexts frame 0 0 frame.uipBuf with
  | none => s
  | some hdr =>
      let s := { s with copied := s.copied ++ copies .uipBuf hdr.pieces }
      match inputPayload frame hdr with
      | none => s
      | some payload =>
          { s with
            copied := s.copied ++ copies .uipBuf [payload]
            passed := s.passed ++
              [⟨Piece.writeAll frame.uipBuf (hdr.pieces ++ [payload]),
                payload.offset + payload.cells.length, none⟩] }

/-- `input`. -/
def input : State :=
  if frame.IsFrag1 then inputFrag1 contexts s frame
  else if frame.IsFragn then inputFragn s frame
  else inputWhole contexts s frame

/-- `input` as the step of a machine; a frame is always taken. -/
def receive (contexts : List AddrContext) (s : State) (frame : Frame) : Option State :=
  some (input contexts s frame)

/-- After a reset the buffers are zero. -/
def State.init : State where
  fragInfo _ := { sender := fun _ => 0, tag := 0, len := 0, reassembledLen := 0,
                  firstFragLen := 0, firstFrag := fun _ => 0 }
  fragBuf _ := { index := 0, offset := 0, len := 0, data := fun _ => 0 }
  received _ := []
  copied := []
  passed := []

section Operations

variable {s t : State} {frame : Frame} {context c : Context} {slot : Slot}

namespace State

@[simp] theorem setInfo_fragInfo (info : FragInfo) :
    (s.setInfo context info).fragInfo = Function.update s.fragInfo context info := rfl

@[simp] theorem setInfo_fragBuf (info : FragInfo) :
    (s.setInfo context info).fragBuf = s.fragBuf := rfl

@[simp] theorem setInfo_received (info : FragInfo) :
    (s.setInfo context info).received = s.received := rfl

@[simp] theorem setInfo_copied (info : FragInfo) :
    (s.setInfo context info).copied = s.copied := rfl

@[simp] theorem setInfo_passed (info : FragInfo) :
    (s.setInfo context info).passed = s.passed := rfl

@[simp] theorem clearFragments_received : (s.clearFragments context).received = s.received := rfl

@[simp] theorem clearFragments_copied : (s.clearFragments context).copied = s.copied := rfl

@[simp] theorem clearFragments_passed : (s.clearFragments context).passed = s.passed := rfl

theorem clearFragments_fragInfo_self :
    (s.clearFragments context).fragInfo context = { s.fragInfo context with len := 0 } :=
  Function.update_self ..

theorem clearFragments_fragInfo_of_ne (hNe : c ≠ context) :
    (s.clearFragments context).fragInfo c = s.fragInfo c :=
  Function.update_of_ne hNe ..

theorem clearFragments_fragBuf_of_not_holds (hNot : ¬ s.Holds context slot) :
    (s.clearFragments context).fragBuf slot = s.fragBuf slot :=
  if_neg hNot

theorem clearFragments_fragBuf_len_of_holds (hHolds : s.Holds context slot) :
    ((s.clearFragments context).fragBuf slot).len = 0 := by
  simp only [clearFragments, if_pos hHolds]

/-- The buffers that a clearing leaves in use belong to other contexts. -/
theorem clearFragments_holds : (s.clearFragments context).Holds c slot ↔
    s.Holds c slot ∧ c ≠ context := by
  by_cases hHolds : s.Holds context slot
  · have hLen := clearFragments_fragBuf_len_of_holds hHolds
    refine iff_of_false (fun hHolds' => absurd hLen hHolds'.1.ne') ?_
    rintro ⟨hHolds', hNe⟩
    exact hNe (hHolds'.2.symm.trans hHolds.2)
  · rw [Holds, Holds, clearFragments_fragBuf_of_not_holds hHolds]
    refine (and_iff_left_of_imp fun hHolds' hEq => hHolds ?_).symm
    exact hEq ▸ hHolds'

end State

/-- The context is cleared a number of times, others too. -/
inductive Clears (s : State) : State → Prop where
  | refl : Clears s s
  | clear {t : State} (context : Context) : Clears s t → Clears s (t.clearFragments context)

theorem Clears.copied_eq (h : Clears s t) : t.copied = s.copied := by
  induction h with
  | refl => rfl
  | clear context _ ih => exact ih

theorem Clears.passed_eq (h : Clears s t) : t.passed = s.passed := by
  induction h with
  | refl => rfl
  | clear context _ ih => exact ih

theorem clears_if {i : Context} (h : Clears s t) :
    Clears s (if t.Overdue frame i then t.clearFragments i else t) := by
  split_ifs
  · exact h.clear i
  · exact h

theorem len_clear_if_self {i : Context} :
    ((if t.Overdue frame i then t.clearFragments i else t).fragInfo i).len = 0 ↔
      (t.fragInfo i).len = 0 ∨ frame.expired i = true := by
  by_cases hOverdue : t.Overdue frame i
  · rw [if_pos hOverdue, State.clearFragments_fragInfo_self]
    exact iff_of_true rfl (Or.inr hOverdue.2)
  · rw [if_neg hOverdue]
    refine (or_iff_left_of_imp fun hExpired => ?_).symm
    by_contra hNonzero
    exact hOverdue ⟨Nat.pos_of_ne_zero hNonzero, hExpired⟩

theorem clear_if_of_ne {i j : Context} (hNe : j ≠ i) :
    (if t.Overdue frame i then t.clearFragments i else t).fragInfo j = t.fragInfo j := by
  split_ifs
  · exact State.clearFragments_fragInfo_of_ne hNe
  · rfl

/-- There is one other context that may time out. -/
theorem timeoutFragments_eq (i : Context) : s.timeoutFragments frame i =
    if s.Overdue frame (i + 1) then (s.clearFragments (i + 1), s.clearCount (i + 1)) else (s, 0) := by
  have hContexts : List.finRange sicslowpanReassContexts = [0, 1] := rfl
  rw [State.timeoutFragments, hContexts]
  match i with
  | 0 => simp
  | 1 => simp

theorem clearCount_pos_iff : 0 < s.clearCount context ↔ ∃ slot, s.Holds context slot := by
  simp [State.clearCount, List.countP_pos_iff]

/-- The frame finds a free context, or one that it frees. -/
def State.HasFree (s : State) (frame : Frame) : Prop :=
  ∃ c, (s.fragInfo c).len = 0 ∨ frame.expired c = true

instance (s : State) (frame : Frame) : Decidable (s.HasFree frame) :=
  inferInstanceAs (Decidable (∃ _, _ ∨ _))

/-- The first context that is free, or that the frame frees. -/
def State.FirstFree (s : State) (frame : Frame) (i : Context) : Prop :=
  ((s.fragInfo i).len = 0 ∨ frame.expired i = true) ∧
    ∀ c < i, ¬ ((s.fragInfo c).len = 0 ∨ frame.expired c = true)

instance (s : State) (frame : Frame) (i : Context) : Decidable (s.FirstFree frame i) :=
  inferInstanceAs (Decidable (_ ∧ ∀ _ < i, ¬ (_ ∨ _)))

/-- The search for a free context clears some and finds one if there is one. -/
theorem seekFree_spec (s : State) (frame : Frame) :
    let found := (List.finRange sicslowpanReassContexts).foldl (State.seekFree frame) (s, none)
    Clears s found.1 ∧ (found.2 = none ↔ ¬ s.HasFree frame) ∧
      ∀ i, found.2 = some i → found.1.fragInfo i = { s.fragInfo i with len := 0 } ∧
        s.FirstFree frame i := by
  have hContexts : List.finRange sicslowpanReassContexts = [0, 1] := rfl
  rw [hContexts]
  simp only [List.foldl_cons, List.foldl_nil, State.seekFree, true_and]
  generalize hFirst : (if s.Overdue frame 0 then s.clearFragments 0 else s) = t
  have hZero {i : Context} {u : State} (hLen : ((if u.Overdue frame i then u.clearFragments i
      else u).fragInfo i).len = 0) : (if u.Overdue frame i then u.clearFragments i
        else u).fragInfo i = { u.fragInfo i with len := 0 } := by
    split_ifs at hLen ⊢
    · exact State.clearFragments_fragInfo_self
    · rw [← hLen]
  have hLen0 : (t.fragInfo 0).len = 0 ↔ (s.fragInfo 0).len = 0 ∨ frame.expired 0 = true := by
    rw [← hFirst]
    exact len_clear_if_self
  have hInfo1 : t.fragInfo 1 = s.fragInfo 1 := by
    rw [← hFirst]
    exact clear_if_of_ne (by decide)
  have hZero0 : (t.fragInfo 0).len = 0 → t.fragInfo 0 = { s.fragInfo 0 with len := 0 } := by
    rw [← hFirst]
    exact hZero
  generalize hSecond : (if t.Overdue frame 1 then t.clearFragments 1 else t) = u
  have hLen1 : (u.fragInfo 1).len = 0 ↔ (s.fragInfo 1).len = 0 ∨ frame.expired 1 = true := by
    rw [← hSecond, ← hInfo1]
    exact len_clear_if_self
  have hInfo0 : u.fragInfo 0 = t.fragInfo 0 := by
    rw [← hSecond]
    exact clear_if_of_ne (by decide)
  have hZero1 : (u.fragInfo 1).len = 0 → u.fragInfo 1 = { s.fragInfo 1 with len := 0 } := by
    rw [← hSecond, ← hInfo1]
    exact hZero
  refine ⟨?_, ?_, fun i => ?_⟩
  · rw [← hSecond, ← hFirst]
    exact clears_if (clears_if .refl)
  · rw [State.HasFree, Fin.exists_fin_two, ← hLen0, ← hLen1]
    split_ifs <;> simp_all
  · intro hFound
    by_cases hFree0 : (t.fragInfo 0).len = 0
    · obtain rfl : 0 = i := by simpa [hFree0] using hFound
      exact ⟨hInfo0.trans (hZero0 hFree0), hLen0.mp hFree0, nofun⟩
    · obtain ⟨hFree1, rfl⟩ : (u.fragInfo 1).len = 0 ∧ 1 = i := by simpa [hFree0] using hFound
      refine ⟨hZero1 hFree1, hLen1.mp hFree1, fun c hc => ?_⟩
      obtain rfl : c = 0 := Fin.eq_of_val_eq (Nat.lt_one_iff.mp hc)
      exact hLen0.not.mp hFree0

/-- What opening a context gives. -/
theorem openContext_spec (s : State) (frame : Frame) :
    ∃ t, Clears s t ∧
      ((¬ s.HasFree frame ∧ s.openContext frame = (t, none)) ∨
        s.HasFree frame ∧ ∃ i, s.FirstFree frame i ∧
          t.fragInfo i = { s.fragInfo i with len := 0 } ∧ s.openContext frame =
          ({ t.setInfo i (openedInfo (t.fragInfo i) frame) with
            received := Function.update t.received i [] }, some i)) := by
  obtain ⟨hClears, hNone, hSome⟩ := seekFree_spec s frame
  unfold State.openContext
  generalize (List.finRange sicslowpanReassContexts).foldl (State.seekFree frame) (s, none) = found
    at hClears hNone hSome ⊢
  obtain ⟨t, found⟩ := found
  refine ⟨t, hClears, ?_⟩
  cases found with
  | none => exact Or.inl ⟨hNone.mp rfl, rfl⟩
  | some i =>
      obtain ⟨hInfo, hFirst⟩ := hSome i rfl
      exact Or.inr ⟨by simpa using hNone, i, hFirst, hInfo, rfl⟩

/-- There is a free buffer, or a timeout of the other context frees one. -/
def State.HasRoom (s : State) (frame : Frame) (i : Context) : Prop :=
  (∃ slot, (s.fragBuf slot).len = 0) ∨ s.Overdue frame (i + 1) ∧ ∃ slot, s.Holds (i + 1) slot

instance (s : State) (frame : Frame) (i : Context) : Decidable (s.HasRoom frame i) :=
  inferInstanceAs (Decidable ((∃ _, _) ∨ _ ∧ ∃ _, s.Holds _ _))

/-- What goes into the field `len` of a stored fragment. -/
def storedLen (frame : Frame) : Nat :=
  (((frame.datalen : Int) - sicslowpanFragnHdrLen) % 256).toNat

theorem storeFragment_none {offset : Nat} (hFull : ∀ slot, (s.fragBuf slot).len ≠ 0) :
    s.storeFragment frame context offset = (s, none) := by
  have hFind : (List.finRange sicslowpanFragmentBuffers).find?
      (fun slot => decide ((s.fragBuf slot).len = 0)) = none := by
    simpa [List.find?_eq_none] using hFull
  rw [State.storeFragment, hFind]

theorem storeFragment_some (frame : Frame) (context : Context) (offset : Nat) (hFree : ∃ slot, (s.fragBuf slot).len = 0) :
    ∃ slot, (s.fragBuf slot).len = 0 ∧ s.storeFragment frame context offset =
      (s.storeAt frame slot context offset, some (storedLen frame)) := by
  cases hFind : (List.finRange sicslowpanFragmentBuffers).find?
      (fun slot => decide ((s.fragBuf slot).len = 0)) with
  | none =>
      obtain ⟨slot, hZero⟩ := hFree
      rw [List.find?_eq_none] at hFind
      exact absurd (decide_eq_true hZero) (hFind slot (List.mem_finRange slot))
  | some slot =>
      have hZero := List.find?_some hFind
      refine ⟨slot, of_decide_eq_true hZero, ?_⟩
      rw [State.storeFragment, hFind]
      simp [State.storeAt, storedLen]

/-- A fragment is stored exactly if there is room for it, after a timeout or at once. -/
theorem storeOrTimeout_spec (s : State) (frame : Frame) (i : Context) :
    ∃ t, (t = s ∨ t = s.clearFragments (i + 1)) ∧
      (¬ s.HasRoom frame i ∧ s.storeOrTimeout frame i = (t, none) ∨
        s.HasRoom frame i ∧ ∃ slot, (t.fragBuf slot).len = 0 ∧ s.storeOrTimeout frame i =
          (t.storeAt frame slot i frame.fragOffset, some (storedLen frame))) := by
  unfold State.storeOrTimeout
  by_cases hFree : ∃ slot, (s.fragBuf slot).len = 0
  · obtain ⟨slot, hZero, hStore⟩ := storeFragment_some frame i frame.fragOffset hFree
    rw [hStore]
    exact ⟨s, Or.inl rfl, Or.inr ⟨Or.inl hFree, slot, hZero, rfl⟩⟩
  · rw [storeFragment_none (not_exists.mp hFree)]
    dsimp only
    rw [timeoutFragments_eq]
    by_cases hOverdue : s.Overdue frame (i + 1)
    · rw [if_pos hOverdue]
      dsimp only
      by_cases hHolds : ∃ slot, s.Holds (i + 1) slot
      · have hFreed : ∃ slot, ((s.clearFragments (i + 1)).fragBuf slot).len = 0 :=
          hHolds.imp fun slot => State.clearFragments_fragBuf_len_of_holds
        obtain ⟨slot, hZero, hStore⟩ := storeFragment_some frame i frame.fragOffset
          hFreed
        rw [if_pos (clearCount_pos_iff.mpr hHolds), hStore]
        exact ⟨_, Or.inr rfl, Or.inr ⟨Or.inr ⟨hOverdue, hHolds⟩, slot, hZero, rfl⟩⟩
      · rw [if_neg (clearCount_pos_iff.not.mpr hHolds)]
        refine ⟨_, Or.inr rfl, Or.inl ⟨?_, rfl⟩⟩
        rintro (hRoom | ⟨-, hRoom⟩)
        · exact hFree hRoom
        · exact hHolds hRoom
    · rw [if_neg hOverdue, if_neg (Nat.lt_irrefl 0)]
      refine ⟨s, Or.inl rfl, Or.inl ⟨?_, rfl⟩⟩
      rintro (hRoom | ⟨hRoom, -⟩)
      · exact hFree hRoom
      · exact hOverdue hRoom

/-- A timeout of the other context leaves this one alone. -/
structure Spares (i : Context) (s t : State) : Prop where
  clears : Clears s t
  fragInfo : t.fragInfo i = s.fragInfo i
  holds : ∀ slot, t.Holds i slot ↔ s.Holds i slot
  fragBuf : ∀ slot, s.Holds i slot → t.fragBuf slot = s.fragBuf slot

theorem spares_of_timeout {i : Context} (h : t = s ∨ t = s.clearFragments (i + 1)) :
    Spares i s t := by
  have hOther : i ≠ i + 1 := by
    match i with
    | 0 => decide
    | 1 => decide
  rcases h with rfl | rfl
  · exact ⟨.refl, rfl, fun _ => Iff.rfl, fun _ _ => rfl⟩
  · refine ⟨Clears.refl.clear _, State.clearFragments_fragInfo_of_ne hOther,
      fun slot => State.clearFragments_holds.trans (and_iff_left hOther), fun slot hHolds => ?_⟩
    refine State.clearFragments_fragBuf_of_not_holds fun hHolds' => hOther ?_
    exact hHolds.2.symm.trans hHolds'.2

/-- What a following fragment does to the contexts. -/
theorem addFragment_spec (s : State) {frame : Frame} (hOffset : frame.fragOffset ≠ 0) :
    (s.findContext frame = none ∧ s.addFragment frame = (s, none)) ∨
      ∃ i, s.findContext frame = some i ∧ ∃ t, Spares i s t ∧
        (¬ s.HasRoom frame i ∧ s.addFragment frame = (t, none) ∨
          s.HasRoom frame i ∧ ∃ slot, (t.fragBuf slot).len = 0 ∧
            let u := t.storeAt frame slot i frame.fragOffset
            s.addFragment frame = if 0 < storedLen frame then
              (u.setInfo i { u.fragInfo i with
                reassembledLen := ((u.fragInfo i).reassembledLen + storedLen frame) % 65536 },
                some i)
            else (u, none)) := by
  unfold State.addFragment
  rw [if_neg hOffset]
  cases hFind : s.findContext frame with
  | none => exact Or.inl ⟨rfl, rfl⟩
  | some i =>
      obtain ⟨t, hClear, ⟨hFull, hIs⟩ | ⟨hRoom, slot, hFree, hIs⟩⟩ := storeOrTimeout_spec s frame i
      · refine Or.inr ⟨i, rfl, t, spares_of_timeout hClear, Or.inl ⟨hFull, ?_⟩⟩
        simp only [hIs, Option.getD_none, Nat.lt_irrefl, if_false]
      · refine Or.inr ⟨i, rfl, t, spares_of_timeout hClear, Or.inr ⟨hRoom, slot, hFree, ?_⟩⟩
        simp only [hIs, Option.getD_some]

end Operations

end Smarthome.Lowpan
