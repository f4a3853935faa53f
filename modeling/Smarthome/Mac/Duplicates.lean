import Smarthome.Mac.Nullrdc
import Smarthome.Semantics.Latest

/-! What `received_seqnos` has in it, and which packets are dropped as copies. -/
namespace Smarthome.Mac

open Csma Semantics

section Register

variable {packetbuf : Packetbuf} {now : UInt32} {receivedSeqnos : List Seqno}

/-- The entries above `j` move down by one, and the first one is written over. -/
theorem set_moveDown (new : Seqno) {j : Nat} (hj : j < receivedSeqnos.length) :
    (moveDown receivedSeqnos j).set 0 new = new :: receivedSeqnos.eraseIdx j := by
  induction j generalizing receivedSeqnos with
  | zero =>
      cases receivedSeqnos with
      | nil => cases hj
      | cons received rest => rfl
  | succ j ih =>
      rw [moveDown, ih (by rw [List.length_set]; omega)]
      congr 1
      apply List.ext_getElem?
      intro i
      have hCopied : receivedSeqnos[j]? = some (receivedSeqnos.getD j Seqno.zero) := by
        rw [List.getD_eq_getElem?_getD, List.getElem?_eq_getElem (by omega), Option.getD_some]
      rw [List.getElem?_eraseIdx, List.getElem?_eraseIdx]
      rcases Nat.lt_trichotomy i j with hBefore | rfl | hAfter
      · rw [if_pos hBefore, if_pos (by omega), List.getElem?_set_ne (by omega)]
      · rw [if_neg (Nat.lt_irrefl i), if_pos (Nat.lt_succ_self i), List.getElem?_set_self hj, hCopied]
      · rw [if_neg (by omega), if_neg (by omega), List.getElem?_set_ne (by omega)]

theorem locate_add (i : Nat) : locate packetbuf i receivedSeqnos =
    i + locate packetbuf 0 receivedSeqnos := by
  induction receivedSeqnos generalizing i with
  | nil => rfl
  | cons received rest ih =>
      simp only [locate]
      split_ifs
      · rw [Nat.zero_add]
      · rw [ih (i + 1), ih (0 + 1)]
        omega

theorem locate_le : locate packetbuf 0 receivedSeqnos ≤ receivedSeqnos.length := by
  induction receivedSeqnos with
  | nil => exact Nat.le_refl _
  | cons received rest ih =>
      rw [locate, List.length_cons]
      split_ifs
      · omega
      · rw [locate_add]
        omega

theorem locate_pos (h : receivedSeqnos ≠ []) : 0 < locate packetbuf 0 receivedSeqnos := by
  cases receivedSeqnos with
  | nil => exact absurd rfl h
  | cons received rest =>
      rw [locate]
      split_ifs
      · exact Nat.one_pos
      · rw [locate_add]
        omega

/-- What goes out is the entry of the sender, or else the last one. -/
theorem eraseIdx_locate : receivedSeqnos.eraseIdx (locate packetbuf 0 receivedSeqnos - 1) =
    (receivedSeqnos.eraseP fun received => received.sender = packetbuf.sender).take
      (receivedSeqnos.length - 1) := by
  induction receivedSeqnos with
  | nil => rfl
  | cons received rest ih =>
      rw [locate, List.eraseP_cons]
      by_cases hSender : packetbuf.sender = received.sender
      · simp [hSender]
      · rw [if_neg hSender, locate_add]
        simp only [Ne.symm hSender, decide_false, cond_false, List.length_cons, Nat.add_sub_cancel]
        cases rest with
        | nil => rfl
        | cons next others =>
            have hPos : 0 < locate packetbuf 0 (next :: others) := locate_pos (List.cons_ne_nil _ _)
            obtain ⟨k, hk⟩ := Nat.exists_eq_succ_of_ne_zero (Nat.ne_of_gt hPos)
            rw [hk] at ih ⊢
            have hIndex : 0 + 1 + (k + 1) - 1 = k + 1 := by omega
            rw [hIndex, List.eraseIdx_cons_succ, List.length_cons, List.take_succ_cons]
            rw [Nat.succ_sub_one, List.length_cons, Nat.add_sub_cancel] at ih
            rw [ih]

theorem macSequenceRegisterSeqno_eq (h : receivedSeqnos ≠ []) :
    macSequenceRegisterSeqno packetbuf now receivedSeqnos =
      ⟨packetbuf.sender, now, packetbuf.macSeqno.toUInt8⟩ ::
        (receivedSeqnos.eraseP fun received => received.sender = packetbuf.sender).take
          (receivedSeqnos.length - 1) := by
  have hPos : 0 < receivedSeqnos.length := List.length_pos_iff.mpr h
  have hLe : locate packetbuf 0 receivedSeqnos ≤ receivedSeqnos.length := locate_le
  rw [macSequenceRegisterSeqno, set_moveDown _ (by omega), eraseIdx_locate]

/-- The loop looks at the first entry of the sender only. -/
theorem macSequenceIsDuplicate_eq : macSequenceIsDuplicate packetbuf now receivedSeqnos =
    (receivedSeqnos.find? fun received => received.sender = packetbuf.sender).any fun received =>
      packetbuf.macSeqno = received.seqno.toUInt16 ∧ now - received.timestamp ≤ seqnoMaxAge := by
  induction receivedSeqnos with
  | nil => rfl
  | cons received rest ih =>
      rw [macSequenceIsDuplicate, List.find?_cons]
      by_cases hSender : packetbuf.sender = received.sender
      · simp [hSender]
      · rw [if_neg hSender, ih]
        simp [Ne.symm hSender]

end Register

/-- What is registered for a packet. -/
def Delivery.seqno (d : Delivery) : Seqno :=
  ⟨d.packetbuf.sender, d.registeredAt, d.packetbuf.macSeqno.toUInt8⟩

namespace Nullrdc

/-- All that was ever registered, newest first, after the entry that is there from the start. -/
def history (s : Nullrdc) : List Seqno := s.delivered.map Delivery.seqno ++ [Seqno.zero]

/-- The table has the newest entries of the senders that were heard last. -/
def Remembers (s : Nullrdc) : Prop :=
  s.receivedSeqnos =
    (latest Seqno.sender s.history ++ List.replicate maxSeqnos Seqno.zero).take maxSeqnos

variable {s : Nullrdc} {r : Reception} {packetbuf : Packetbuf}

theorem zero_mem (s : Nullrdc) : ∀ x ∈ List.replicate maxSeqnos Seqno.zero,
    x.sender ∈ s.history.map Seqno.sender := by
  intro x hx
  obtain rfl := List.eq_of_mem_replicate hx
  exact List.mem_map_of_mem (List.mem_append_right _ (List.mem_singleton_self _))

theorem Remembers.length (h : s.Remembers) : s.receivedSeqnos.length = maxSeqnos := by
  rw [h, List.length_take, List.length_append, List.length_replicate]
  omega

theorem packetInput_of_none (hNone : s.framer.accepted r = none) : s.packetInput r = s := by
  rw [packetInput, hNone]

theorem packetInput_of_duplicate (hAccepted : s.framer.accepted r = some packetbuf)
    (hDuplicate : s.isDuplicate r packetbuf = true) :
    s.packetInput r = { s with acks := (s.framer.ackdata r).toList ++ s.acks } := by
  rw [packetInput, hAccepted]
  simp only [hDuplicate, if_true]

theorem packetInput_of_new (hAccepted : s.framer.accepted r = some packetbuf)
    (hNew : s.isDuplicate r packetbuf = false) :
    s.packetInput r =
      { s with
        receivedSeqnos := macSequenceRegisterSeqno packetbuf r.registeredAt s.receivedSeqnos
        delivered := ⟨packetbuf, r.registeredAt⟩ :: s.delivered
        acks := (s.framer.ackdata r).toList ++ s.acks } := by
  rw [packetInput, hAccepted]
  simp only [hNew, Bool.false_eq_true, if_false]

@[simp] theorem framer_packetInput (s : Nullrdc) (r : Reception) :
    (s.packetInput r).framer = s.framer := by
  unfold packetInput
  split
  · rfl
  · split_ifs <;> rfl

@[simp] theorem framer_run (s : Nullrdc) (receptions : List Reception) :
    (s.run receptions).framer = s.framer := by
  induction receptions generalizing s with
  | nil => rfl
  | cons r receptions ih => exact (ih (s.packetInput r)).trans (framer_packetInput s r)

theorem remembers_boot (framer : Framer) : (boot framer).Remembers := rfl

theorem Remembers.packetInput (h : s.Remembers) (r : Reception) : (s.packetInput r).Remembers := by
  cases hAccepted : s.framer.accepted r with
  | none =>
      rw [packetInput_of_none hAccepted]
      exact h
  | some packetbuf =>
      cases hDuplicate : s.isDuplicate r packetbuf with
      | true =>
          rw [packetInput_of_duplicate hAccepted hDuplicate]
          exact h
      | false =>
          have hTable : s.receivedSeqnos ≠ [] := List.ne_nil_of_length_eq_add_one h.length
          rw [packetInput_of_new hAccepted hDuplicate]
          unfold Remembers
          dsimp only [history]
          rw [macSequenceRegisterSeqno_eq hTable, h.length, h]
          exact take_latest_cons s.zero_mem _ 15

theorem Remembers.run {receptions : List Reception} (h : s.Remembers) :
    (s.run receptions).Remembers := by
  induction receptions generalizing s with
  | nil => exact h
  | cons r receptions ih => exact ih (h.packetInput r)

/-- A packet is taken for a copy if the last packet of its sender is remembered, has the same
number and is not too old. -/
theorem Remembers.isDuplicate_iff (h : s.Remembers) : s.isDuplicate r packetbuf = true ↔
    ∃ newer last older, s.history = newer ++ last :: older ∧ last.sender = packetbuf.sender ∧
      packetbuf.sender ∉ newer.map Seqno.sender ∧
      (newer.map Seqno.sender).toFinset.card < maxSeqnos ∧
      packetbuf.macSeqno = last.seqno.toUInt16 ∧ r.checkedAt - last.timestamp ≤ seqnoMaxAge := by
  rw [isDuplicate, macSequenceIsDuplicate_eq, h, find?_take_append_pad s.zero_mem]
  rw [Option.any_eq_true]
  constructor
  · rintro ⟨last, hFind, hCopy⟩
    obtain ⟨newer, older, hHistory, hSender, hNewer, hRoom⟩ := find?_latest_iff.mp hFind
    rw [decide_eq_true_iff] at hCopy
    exact ⟨newer, last, older, hHistory, hSender, hNewer, hRoom, hCopy⟩
  · rintro ⟨newer, last, older, hHistory, hSender, hNewer, hRoom, hCopy⟩
    exact ⟨last, find?_latest_iff.mpr ⟨newer, older, hHistory, hSender, hNewer, hRoom⟩,
      decide_eq_true hCopy⟩

end Nullrdc

end Smarthome.Mac
