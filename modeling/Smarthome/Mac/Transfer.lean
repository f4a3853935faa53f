import Smarthome.Mac.Duplicates
import Smarthome.Mac.FrameRoundTrip

/-! A frame on its way from one node to another: what `create` puts into it comes out of
`packet_input` at the nodes that it is for. -/
namespace Smarthome.Mac

open Csma Semantics

/-- What the layers above have put into the packet buffer before it is sent. -/
structure Packetbuf.Outgoing (packetbuf : Packetbuf) : Prop where
  frameType : packetbuf.frameType = 1
  pending : packetbuf.pending = 0 ∨ packetbuf.pending = 1
  macAck : packetbuf.macAck = 0 ∨ packetbuf.macAck = 1

/-- The address of all nodes in the long form, which the framer does not use itself. -/
def linkaddrBroadcast : Linkaddr := fun _ => 0xff

namespace Framer

variable {f g : Framer} {packetbuf : Packetbuf}

section Create

theorem hasPanid_params (f : Framer) (packetbuf : Packetbuf)
    (hType : packetbuf.frameType = 1) :
    hasPanid (compressPanid (f.params packetbuf)).fcf = (false, true) := by
  cases hCast : packetbuf.holdsBroadcast <;>
    simp [compressPanid, params, hasPanid, hCast, hType, frame802154Version,
      frame802154Ieee802154e2012] <;> decide

theorem wellFormed_params (h : packetbuf.Outgoing) : (f.params packetbuf).WellFormed where
  fcf := by
    obtain ⟨hType, hPending, hAck⟩ := h
    rcases hPending with hPending | hPending <;> rcases hAck with hAck | hAck <;>
      cases hCast : packetbuf.holdsBroadcast <;>
      simp only [Fcf.masked, params, hType, hPending, hAck, hCast] <;> rfl
  destAddr := by
    cases hCast : packetbuf.holdsBroadcast with
    | false =>
        simp only [params, hCast, Bool.false_eq_true, if_false]
        exact ⟨Or.inr (Or.inr rfl), fun i hi => absurd i.isLt (Nat.not_lt.mpr hi)⟩
    | true =>
        simp only [params, hCast, if_true]
        exact ⟨Or.inr (Or.inl rfl), by decide⟩
  srcAddr := ⟨Or.inr (Or.inr rfl), fun i hi => absurd i.isLt (Nat.not_lt.mpr hi)⟩
  destPanid _ := by
    cases hCast : packetbuf.holdsBroadcast <;> simp only [params, hCast] <;> decide
  destPid hNone := by
    rw [hasPanid_params f packetbuf h.frameType] at hNone
    cases hNone
  srcPid _ := rfl

theorem setSeqno_eq (f : Framer) (packetbuf : Packetbuf) : ∃ macDsn macSeqno,
    f.setSeqno packetbuf = ({ f with macDsn }, { packetbuf with macSeqno }) := by
  unfold setSeqno
  split_ifs
  · exact ⟨f.macDsn, packetbuf.macSeqno, rfl⟩
  · exact ⟨_, _, rfl⟩
  · exact ⟨_, _, rfl⟩

/-- The frame that `create` makes of a packet that has its number. -/
theorem create_some {f' : Framer} {sent : Packetbuf} {frame : List Byte}
    (h : f.create packetbuf = (f', sent, some frame)) :
    f.macPanId ≠ 0xffff ∧ frame = frame802154Create (f.params sent) ++ sent.data ∧
      sent = { packetbuf with macSeqno := sent.macSeqno } := by
  obtain ⟨macDsn, macSeqno, hSet⟩ := setSeqno_eq f packetbuf
  unfold create at h
  rw [hSet] at h
  split at h
  · cases h
  · next hPan =>
      dsimp only at h
      split at h
      · cases h
      · simp only [Prod.mk.injEq, Option.some.injEq] at h
        obtain ⟨-, rfl, rfl⟩ := h
        exact ⟨hPan, rfl, rfl⟩

/-- Both identifiers are those of the network, so only one is sent. -/
theorem compressPanid_params (f : Framer) (packetbuf : Packetbuf) :
    compressPanid (f.params packetbuf) =
      { f.params packetbuf with fcf := { (f.params packetbuf).fcf with panidCompression := 1 } } := by
  cases hCast : packetbuf.holdsBroadcast <;>
    simp [compressPanid, params, hCast, frame802154Version, frame802154Ieee802154e2012] <;> decide

end Create

/-- The packet as another node reads it. -/
def received (f : Framer) (sent : Packetbuf) : Packetbuf where
  data := sent.data
  macSeqno := sent.macSeqno.toUInt8.toUInt16
  maxMacTransmissions := 0
  macAck := 0
  sender := f.linkaddrNodeAddr
  receiver := if sent.receiver = linkaddrBroadcast then linkaddrNull else sent.receiver
  frameType := 1
  pending := sent.pending

section Parse

variable {sent : Packetbuf} {data : Nat → Byte} {len : Nat}

theorem isBroadcastAddr_long (addr : Linkaddr) :
    frame802154IsBroadcastAddr frame802154Longaddrmode addr = true ↔ addr = linkaddrBroadcast := by
  unfold frame802154IsBroadcastAddr
  rw [if_neg (by decide), List.all_eq_true]
  constructor
  · intro hAll
    funext i
    have hMem : addr i ∈ (List.ofFn addr).take 8 := by
      rw [List.take_of_length_le (by simp)]
      exact List.mem_ofFn.mpr ⟨i, rfl⟩
    exact of_decide_eq_true (hAll _ hMem)
  · rintro rfl x hx
    obtain ⟨i, rfl⟩ := List.mem_ofFn.mp (List.mem_of_mem_take hx)
    exact decide_eq_true rfl

theorem frame802154Parse_params (h : sent.Outgoing)
    (hData : slice data 0 len = frame802154Create (f.params sent) ++ sent.data)
    (frame : Frame802154) :
    frame802154Parse data len frame =
      some (frame802154Hdrlen (f.params sent),
        { f.params sent with fcf := { (f.params sent).fcf with panidCompression := 1 } }) := by
  rw [← compressPanid_params]
  exact frame802154Parse_create (wellFormed_params h) hData frame

/-- What comes out is what was put in, in the same network. -/
theorem parse_params (h : sent.Outgoing)
    (hData : slice data 0 len = frame802154Create (f.params sent) ++ sent.data)
    (hPan : f.macPanId ≠ 0xffff) (frame : Frame802154) :
    g.parse data len frame =
      if f.macPanId = g.macPanId then some (f.received sent) else none := by
  have hLength : len = frame802154Hdrlen (f.params sent) + sent.data.length := by
    rw [← length_frame802154Create, ← List.length_append, ← hData, length_slice]
  have hRest : slice data (frame802154Hdrlen (f.params sent))
      (len - frame802154Hdrlen (f.params sent)) = sent.data := by
    have hAll : slice data 0 (frame802154Create (f.params sent) ++ sent.data).length =
        frame802154Create (f.params sent) ++ sent.data := by
      rw [← hData, length_slice]
    have hBack := (slice_append_eq_iff.mp hAll).2
    rw [Nat.zero_add, length_frame802154Create] at hBack
    rw [hLength, Nat.add_sub_cancel_left]
    exact hBack
  have hMode : (f.params sent).fcf.destAddrMode ≠ 0 := by
    cases hCast : sent.holdsBroadcast <;> simp only [params, hCast] <;> decide
  have hReceiver : (if frame802154IsBroadcastAddr (f.params sent).fcf.destAddrMode
      (f.params sent).destAddr = false then (f.params sent).destAddr else linkaddrNull) =
      (f.received sent).receiver := by
    cases hCast : sent.holdsBroadcast with
    | true =>
        have hNull : sent.receiver = linkaddrNull := of_decide_eq_true hCast
        have hOther : linkaddrNull ≠ linkaddrBroadcast := by decide
        simp only [params, hCast, if_true, received, hNull, if_neg hOther]
        decide
    | false =>
        simp only [params, hCast, Bool.false_eq_true, if_false, received]
        by_cases hAll : sent.receiver = linkaddrBroadcast
        · rw [if_pos hAll, (isBroadcastAddr_long _).mpr hAll]
          rfl
        · rw [if_neg hAll, if_pos (Bool.eq_false_iff.mpr fun h => hAll ((isBroadcastAddr_long _).mp h))]
  have hShort : ¬ len < frame802154Hdrlen (f.params sent) := by omega
  have hPid : (f.params sent).destPid = f.macPanId := rfl
  rw [parse, frame802154Parse_params h hData]
  simp only [Option.bind_some, if_neg hShort, hRest, ne_eq, hMode, not_false_eq_true, true_and, hPid,
    hReceiver]
  by_cases hSame : f.macPanId = g.macPanId
  · rw [if_neg (fun hOther => hOther.1 hSame), if_pos hSame]
    have hType : (f.params sent).fcf.frameType.toUInt16 = 1 := by
      simp only [params, h.frameType]
      rfl
    have hPending : (f.params sent).fcf.framePending.toUInt16 = sent.pending := by
      simp only [params]
      rcases h.pending with hPending | hPending <;> rw [hPending] <;> rfl
    rw [hType, hPending]
    rfl
  · rw [if_pos ⟨hSame, hPan⟩, if_neg hSame]

end Parse

section Input

variable {sent : Packetbuf} {r : Reception}

/-- The frame of a packet is what the radio has received. -/
def Carries (f : Framer) (sent : Packetbuf) (r : Reception) : Prop :=
  slice r.data 0 r.datalen = frame802154Create (f.params sent) ++ sent.data

/-- The nodes of the network that the receiver of a packet names. -/
def IsFor (f : Framer) (sent : Packetbuf) (g : Framer) : Prop :=
  f.macPanId = g.macPanId ∧ (sent.receiver = g.linkaddrNodeAddr ∨ sent.receiver = linkaddrNull)

instance (f : Framer) (sent : Packetbuf) (g : Framer) : Decidable (IsFor f sent g) :=
  inferInstanceAs (Decidable (_ ∧ _))

theorem ackLen_lt_hdrlen (f : Framer) (sent : Packetbuf) : ackLen < frame802154Hdrlen (f.params sent) := by
  rw [frame802154Hdrlen, compressPanid_params]
  have hSrc : (fieldLen { f.params sent with
      fcf := { (f.params sent).fcf with panidCompression := 1 } }).srcAddrLen = 8 := by
    simp only [fieldLen, params]
    decide
  rw [hSrc]
  change 3 < _
  omega

/-- A packet with a receiver in the usual form passes the address filter of the nodes that it is
for, and of no others. -/
theorem accepted_of_carries (h : sent.Outgoing) (hPan : f.macPanId ≠ 0xffff)
    (hReceiver : sent.receiver ≠ linkaddrBroadcast) (hCarries : f.Carries sent r) :
    g.accepted r = if f.IsFor sent g then some (f.received sent) else none := by
  have hLength : r.datalen = frame802154Hdrlen (f.params sent) + sent.data.length := by
    rw [← length_frame802154Create, ← List.length_append, ← hCarries, length_slice]
  have hLong := ackLen_lt_hdrlen f sent
  have hSame : (f.received sent).receiver = sent.receiver := if_neg hReceiver
  rw [accepted, if_neg (by omega), parse_params h hCarries hPan]
  by_cases hNet : f.macPanId = g.macPanId
  · simp only [hNet, if_true, IsFor, true_and, Option.filter_some, Packetbuf.holdsBroadcast, hSame,
      decide_eq_true_eq]
  · rw [if_neg hNet, if_neg fun hFor => hNet hFor.1]
    rfl

/-- The addressee acknowledges a packet with its number, if it is to be acknowledged. -/
theorem ackdata_of_carries (h : sent.Outgoing) (hCarries : f.Carries sent r) :
    g.ackdata r =
      if sent.macAck = 1 ∧ sent.receiver = g.linkaddrNodeAddr ∧ sent.receiver ≠ linkaddrNull then
        some [frame802154Ackframe, 0, sent.macSeqno.toUInt8]
      else none := by
  rw [ackdata, frame802154Parse_params h hCarries]
  have hType : (f.params sent).fcf.frameType = frame802154Dataframe := by
    simp only [params, h.frameType]
    rfl
  simp only [hType, true_and]
  cases hCast : sent.holdsBroadcast with
  | true =>
      have hNull : sent.receiver = linkaddrNull := of_decide_eq_true hCast
      simp [params, hCast, hNull]
  | false =>
      have hNull : sent.receiver ≠ linkaddrNull := of_decide_eq_false hCast
      have hAck : sent.macAck.toUInt8 ≠ 0 ↔ sent.macAck = 1 := by
        rcases h.macAck with hAck | hAck <;> rw [hAck] <;> decide
      simp [params, hCast, hNull, hAck]

end Input

end Framer

namespace Nullrdc

open Framer

variable {f : Framer} {sent : Packetbuf} {r : Reception}

def lamp : Framer := ⟨0xAABB, ![0, 0x12, 0x4B, 0, 1, 2, 3, 4], 1⟩

def button : Framer := ⟨0xAABB, ![0, 0x12, 0x4B, 0, 5, 6, 7, 8], 1⟩

/-- A packet of the button to the lamp. -/
def press : Packetbuf :=
  ⟨⟨[0x7e, 0x33], 7, 0, 1, button.linkaddrNodeAddr, lamp.linkaddrNodeAddr⟩, 1, 0⟩

def pressFrame : List Byte := frame802154Create (button.params press) ++ press.data

/-- The frame is read when the clock shows the time. -/
def hears (frame : List Byte) (time : UInt32) : Reception :=
  ⟨fun i => frame.getD i 0, frame.length, unicast, unicast, time, time⟩

theorem create_press : button.create press = (button, press, some pressFrame) := rfl

end Nullrdc

end Smarthome.Mac
