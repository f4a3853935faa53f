import Smarthome.Csma.Numbers
import Smarthome.Mac.Link

/-! From the queues of `csma.c` on one node to `packet_input` on another. Frames may be lost on
the way, and those of other nodes come in between. -/
namespace Smarthome.Mac

open Csma Semantics

section Attempts

variable {c : Config}

/-- The frames that were sent to an address, with the numbers of their packets. -/
def attemptsTo (s : State c) (addr : Linkaddr) : List (Nat × Csma.Packetbuf) :=
  s.history.filterMap fun
    | .attempt packet frame => if frame.receiver = addr then some (packet, frame) else none
    | .outcome _ _ => none

variable {s : State c} {addr : Linkaddr} {packet : Nat} {frame : Csma.Packetbuf}

theorem mem_attemptsTo : (packet, frame) ∈ attemptsTo s addr ↔
    .attempt packet frame ∈ s.history ∧ frame.receiver = addr := by
  rw [attemptsTo, List.mem_filterMap]
  constructor
  · rintro ⟨entry, hMem, hEntry⟩
    cases entry with
    | attempt other sent =>
        dsimp only at hEntry
        split at hEntry
        · obtain ⟨rfl, rfl⟩ := Prod.mk.inj (Option.some.inj hEntry)
          exact ⟨hMem, ‹_›⟩
        · cases hEntry
    | outcome other report => cases hEntry
  · rintro ⟨hMem, hReceiver⟩
    exact ⟨_, hMem, if_pos hReceiver⟩

/-- An earlier packet for the same receiver is not sent any more. -/
theorem le_of_attempts {seqno : UInt16} (hInv : Inv s) (h : Labelled seqno s) {later : Nat}
    {next : Csma.Packetbuf} (hReceiver : frame.receiver = next.receiver) {i j : Nat}
    (hi : s.history[i]? = some (.attempt packet frame))
    (hj : s.history[j]? = some (.attempt later next)) (hOrder : i < j) : packet ≤ later := by
  have hPrefix {i : Nat} {entry : Entry Csma.Packetbuf Report} (hAt : s.history[i]? = some entry) :
      s.history.take i ++ [entry] <+: s.history := by
    have hTake : s.history.take i ++ [entry] = s.history.take (i + 1) := by
      rw [List.take_add_one, hAt, Option.toList_some]
    rw [hTake]
    exact List.take_prefix _ _
  by_contra hLess
  obtain ⟨request, hGiven, hTo, -⟩ := hInv.faithful _ (List.mem_of_getElem? hi)
  obtain ⟨request', hGiven', hTo', -⟩ := hInv.faithful _ (List.mem_of_getElem? hj)
  have hSame : s.requests[later]?.map Request.receiver =
      s.requests[packet]?.map Request.receiver := by
    rw [hGiven, hGiven', Option.map_some, Option.map_some, ← hTo, ← hTo', hReceiver]
  have hDone : outcomes (s.history.take i) later ≠ 0 :=
    hInv.inOrder.ordered _ packet frame (hPrefix hi) later (Nat.lt_of_not_le hLess) hSame
  have hOpen : outcomes (s.history.take j) later = 0 := h.unfinished _ later next (hPrefix hj)
  have hMore : outcomes (s.history.take i) later ≤ outcomes (s.history.take j) later :=
    (List.take_sublist_take_left (Nat.le_of_lt hOrder)).countP_le
  omega

theorem sorted_attemptsTo {seqno : UInt16} (hInv : Inv s) (h : Labelled seqno s) :
    (attemptsTo s addr).Pairwise fun x y => x.1 ≤ y.1 := by
  rw [attemptsTo, List.pairwise_filterMap, List.pairwise_iff_getElem]
  intro i j hi hj hOrder x hx y hy
  have hFirst : s.history[i]? = some s.history[i] := List.getElem?_eq_getElem hi
  have hSecond : s.history[j]? = some s.history[j] := List.getElem?_eq_getElem hj
  cases hAt : s.history[i] with
  | outcome other report =>
      rw [hAt] at hx
      cases hx
  | attempt packet frame =>
      cases hNext : s.history[j] with
      | outcome other report =>
          rw [hNext] at hy
          cases hy
      | attempt later next =>
          rw [hAt, Option.ite_none_right_eq_some] at hx
          rw [hNext, Option.ite_none_right_eq_some] at hy
          obtain ⟨hTo, hx⟩ := hx
          obtain ⟨hTo', hy⟩ := hy
          obtain rfl := Option.some.inj hx
          obtain rfl := Option.some.inj hy
          exact le_of_attempts hInv h (hTo.trans hTo'.symm) (hAt ▸ hFirst) (hNext ▸ hSecond) hOrder

end Attempts

section Heard

/-- A frame that is heard, with the number of its packet. -/
structure Heard where
  packet : Nat
  frame : Csma.Packetbuf
  reception : Reception

/-- A packet as `nullsec.c` has given it to `csma.c`. -/
def dataFrame (frame : Csma.Packetbuf) : Packetbuf := { frame with frameType := 1, pending := 0 }

/-- What the framer of the receiver makes of it. -/
def Heard.arrival (f : Framer) (h : Heard) : Packetbuf × Reception :=
  (f.received (dataFrame h.frame), h.reception)

def Heard.delivery (f : Framer) (h : Heard) : Delivery :=
  ⟨f.received (dataFrame h.frame), h.reception.registeredAt⟩

/-- Two frames of one packet come within 20 seconds. -/
def Prompt (x y : Heard) : Prop :=
  x.packet = y.packet → y.reception.checkedAt - x.reception.registeredAt ≤ seqnoMaxAge

/-- Two packets after each other do not have the same number in their frames. -/
def Distinct (seqno : UInt16) (x y : Heard) : Prop :=
  x.packet ≠ y.packet → (seqnoOf seqno x.packet).toUInt8 ≠ (seqnoOf seqno y.packet).toUInt8

variable {f : Framer} {seqno : UInt16}

/-- A frame has the last eight bits of the number of its packet. -/
def Heard.Labelled (seqno : UInt16) (h : Heard) : Prop := h.frame.macSeqno = seqnoOf seqno h.packet

theorem isCopy_iff {last h : Heard} (hLast : last.Labelled seqno) (hHere : h.Labelled seqno) :
    IsCopy (h.arrival f).1 h.reception (last.delivery f) ↔
      (seqnoOf seqno last.packet).toUInt8 = (seqnoOf seqno h.packet).toUInt8 ∧
        h.reception.checkedAt - last.reception.registeredAt ≤ seqnoMaxAge := by
  have hNumber : (h.arrival f).1.macSeqno = (seqnoOf seqno h.packet).toUInt8.toUInt16 := by
    rw [← hHere]
    rfl
  have hKept : (last.delivery f).seqno.seqno = (seqnoOf seqno last.packet).toUInt8 := by
    rw [← hLast]
    exact UInt8.toUInt8_toUInt16 _
  rw [IsCopy, hNumber, hKept, UInt8.toUInt16_inj, eq_comm]
  rfl

/-- Of the frames after the first one of a packet, those that begin another packet are kept. -/
theorem firstCopies_heard {last : Heard} {rest : List Heard}
    (hLabelled : ∀ h ∈ last :: rest, h.Labelled seqno)
    (hSorted : (last :: rest).Pairwise fun x y => x.packet ≤ y.packet)
    (hPrompt : (last :: rest).Pairwise Prompt)
    (hDistinct : (last :: rest).IsChain (Distinct seqno)) :
    ∃ kept, kept.Sublist rest ∧ (last :: kept).Pairwise (fun x y => x.packet < y.packet) ∧
      (∀ h ∈ rest, ∃ k ∈ last :: kept, k.packet = h.packet) ∧
      firstCopies (some (last.delivery f)) (rest.map (Heard.arrival f)) =
        kept.map (Heard.delivery f) := by
  induction rest generalizing last with
  | nil => exact ⟨[], List.Sublist.refl _, List.pairwise_singleton _ _, nofun, rfl⟩
  | cons h rest ih =>
      obtain ⟨hLast, hAll⟩ := List.forall_mem_cons.mp hLabelled
      obtain ⟨hHere, hRest⟩ := List.forall_mem_cons.mp hAll
      obtain ⟨hLe, hTail⟩ := List.pairwise_cons.mp hSorted
      obtain ⟨hSoon, hLater⟩ := List.pairwise_cons.mp hPrompt
      have hCopy := isCopy_iff (f := f) hLast hHere
      rw [List.map_cons]
      by_cases hSame : last.packet = h.packet
      · have hSkip : ∃ d ∈ some (last.delivery f), IsCopy (h.arrival f).1 h.reception d :=
          ⟨_, rfl, hCopy.mpr ⟨by rw [hSame], hSoon h (List.mem_cons_self ..) hSame⟩⟩
        have hChain : (last :: rest).IsChain (Distinct seqno) := by
          cases rest with
          | nil => exact List.isChain_singleton last
          | cons x rest =>
              obtain ⟨hNext, hOthers⟩ := List.isChain_cons_cons.mp hDistinct.tail
              refine List.isChain_cons_cons.mpr ⟨?_, hOthers⟩
              rw [Distinct, hSame]
              exact hNext
        obtain ⟨kept, hSub, hLess, hEach, hKept⟩ := ih
          (List.forall_mem_cons.mpr ⟨hLast, hRest⟩)
          (List.pairwise_cons.mpr ⟨fun x hx => hLe x (List.mem_cons_of_mem h hx), hTail.of_cons⟩)
          (List.pairwise_cons.mpr ⟨fun x hx => hSoon x (List.mem_cons_of_mem h hx), hLater.of_cons⟩)
          hChain
        refine ⟨kept, hSub.cons h, hLess, ?_, ?_⟩
        · intro x hx
          rcases List.mem_cons.mp hx with rfl | hOld
          · exact ⟨last, List.mem_cons_self .., hSame⟩
          · exact hEach x hOld
        · exact (if_pos hSkip).trans hKept
      · have hNew : ¬ ∃ d ∈ some (last.delivery f), IsCopy (h.arrival f).1 h.reception d := by
          rintro ⟨d, hd, hIs⟩
          obtain rfl := Option.some.inj hd
          exact hDistinct.rel hSame (hCopy.mp hIs).1
        obtain ⟨kept, hSub, hLess, hEach, hKept⟩ := ih hAll hTail hLater hDistinct.tail
        refine ⟨h :: kept, hSub.cons_cons h, ?_, ?_, ?_⟩
        · have hBelow : last.packet < h.packet :=
            Nat.lt_of_le_of_ne (hLe h (List.mem_cons_self ..)) hSame
          refine List.pairwise_cons.mpr ⟨fun x hx => ?_, hLess⟩
          rcases List.mem_cons.mp hx with rfl | hOld
          · exact hBelow
          · exact Nat.lt_trans hBelow ((List.pairwise_cons.mp hLess).1 x hOld)
        · intro x hx
          rcases List.mem_cons.mp hx with rfl | hOld
          · exact ⟨x, List.mem_cons_of_mem last (List.mem_cons_self ..), rfl⟩
          · obtain ⟨k, hk, hPacket⟩ := hEach x hOld
            exact ⟨k, List.mem_cons_of_mem last hk, hPacket⟩
        · exact (if_neg hNew).trans (congrArg _ hKept)

end Heard

section Channel

variable {c : Config} {s : State c} {f g : Framer} {receptions : List Reception} {heard : List Heard}

/-- The way from a node to another in the same network. Of the frames that were sent to the
receiver some are heard, in their order, and nothing else from the sender. -/
structure Channel (s : State c) (f g : Framer) (receptions : List Reception) (heard : List Heard) :
    Prop where
  sender : f.linkaddrNodeAddr = c.linkaddrNodeAddr
  network : f.macPanId = g.macPanId
  associated : f.macPanId ≠ 0xffff
  receiver : g.linkaddrNodeAddr ≠ linkaddrBroadcast
  sent : (heard.map fun h => (h.packet, h.frame)).Sublist (attemptsTo s g.linkaddrNodeAddr)
  carried : ∀ h ∈ heard, f.Carries (dataFrame h.frame) h.reception
  alone : (g.arrivals f.linkaddrNodeAddr receptions).map Prod.snd = heard.map Heard.reception

theorem Channel.mem (h : Channel s f g receptions heard) {x : Heard} (hx : x ∈ heard) :
    .attempt x.packet x.frame ∈ s.history ∧ x.frame.receiver = g.linkaddrNodeAddr :=
  mem_attemptsTo.mp (h.sent.subset (List.mem_map_of_mem hx))

theorem Channel.arrivals (h : Channel s f g receptions heard) {seqno : UInt16}
    (hLabelled : Labelled seqno s) :
    g.arrivals f.linkaddrNodeAddr receptions = heard.map (Heard.arrival f) := by
  have hAccepted : ∀ x ∈ g.arrivals f.linkaddrNodeAddr receptions, g.accepted x.2 = some x.1 := by
    intro x hx
    obtain ⟨r, -, hArrival⟩ := List.mem_filterMap.mp hx
    obtain ⟨packetbuf, hFilter, rfl⟩ := Option.map_eq_some_iff.mp hArrival
    exact (Option.filter_eq_some_iff.mp hFilter).1
  have hHeard : ∀ x ∈ heard, g.accepted x.reception = some (f.received (dataFrame x.frame)) := by
    intro x hx
    obtain ⟨hMem, hReceiver⟩ := h.mem hx
    obtain ⟨-, hAck⟩ := hLabelled.attempts _ _ hMem
    have hHere : (dataFrame x.frame).receiver = g.linkaddrNodeAddr := hReceiver
    rw [Framer.accepted_of_carries ⟨rfl, Or.inl rfl, Or.inr hAck⟩ h.associated
      (hHere ▸ h.receiver) (h.carried x hx)]
    exact if_pos ⟨h.network, Or.inl hHere⟩
  have hPairs : (g.arrivals f.linkaddrNodeAddr receptions).map (fun x => (some x.1, x.2)) =
      (heard.map (Heard.arrival f)).map fun x => (some x.1, x.2) := by
    calc (g.arrivals f.linkaddrNodeAddr receptions).map (fun x => (some x.1, x.2))
        = ((g.arrivals f.linkaddrNodeAddr receptions).map Prod.snd).map
            fun r => (g.accepted r, r) := by
          rw [List.map_map]
          exact List.map_congr_left fun x hx => by simp [hAccepted x hx]
      _ = (heard.map Heard.reception).map fun r => (g.accepted r, r) := by rw [h.alone]
      _ = (heard.map (Heard.arrival f)).map fun x => (some x.1, x.2) := by
          rw [List.map_map, List.map_map]
          exact List.map_congr_left fun x hx => by simp [hHeard x hx, Heard.arrival]
  refine List.map_injective_iff.mpr (fun x y hSame => ?_) hPairs
  obtain ⟨hFirst, hSecond⟩ := Prod.mk.inj hSame
  exact Prod.ext (Option.some.inj hFirst) hSecond

open Nullrdc (lamp button press pressFrame hears carries_press accepted_press arrivals_press)

def buttonConfig : Config := { sampleConfig with linkaddrNodeAddr := button.linkaddrNodeAddr }

/-- The button sends the frame twice, as it gets no acknowledgement for the first one. -/
def presses : List (Event buttonConfig) :=
  [.sendPacket 0 ⟨press.toPacketbuf, 5, 6⟩, .expire ⟨0, by decide⟩,
    .sendListTurn (sampleAnswers [2, 0, 9]), .expire ⟨0, by decide⟩,
    .sendListTurn (sampleAnswers [2, 0, 7])]

theorem along_presses : Along (step buttonConfig) (Possible buttonConfig)
    (State.init buttonConfig 7 0) presses := by decide

def pressHeard (time : UInt32) : Heard := ⟨0, press.toPacketbuf, hears pressFrame time⟩

theorem sent_presses : ∃ s, runAll (step buttonConfig) (State.init buttonConfig 7 0) presses = some s ∧
    attemptsTo s lamp.linkaddrNodeAddr = [(0, press.toPacketbuf), (0, press.toPacketbuf)] ∧
    s.requests = [⟨press.toPacketbuf, 5, 6⟩] := ⟨_, rfl, rfl, rfl⟩

end Channel

end Smarthome.Mac
