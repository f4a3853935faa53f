import Smarthome.Mac.Transfer

/-! With few senders around, the table is as good as a memory for each sender alone, and a packet
that is sent several times is delivered once. -/
namespace Smarthome.Mac

open Csma Semantics

namespace Nullrdc

variable {r : Reception} {packetbuf : Packetbuf}

/-- **Which packets are dropped.** Whatever frames have come since the start, a packet that
passes the address filter is dropped if and only if the last packet that was kept of its sender
had the same number at most 20 seconds ago and fewer than 16 other senders have been heard since. -/
theorem dropped_iff (framer : Framer) (receptions : List Reception)
    (hAccepted : framer.accepted r = some packetbuf) :
    (((boot framer).run receptions).packetInput r).delivered =
        ((boot framer).run receptions).delivered ↔
      ∃ newer last older, ((boot framer).run receptions).history = newer ++ last :: older ∧
        last.sender = packetbuf.sender ∧ packetbuf.sender ∉ newer.map Seqno.sender ∧
        (newer.map Seqno.sender).toFinset.card < maxSeqnos ∧
        packetbuf.macSeqno = last.seqno.toUInt16 ∧
        r.checkedAt - last.timestamp ≤ seqnoMaxAge := by
  have hTable : ((boot framer).run receptions).Remembers := (remembers_boot framer).run
  have hHere : ((boot framer).run receptions).framer.accepted r = some packetbuf := by
    rw [framer_run]
    exact hAccepted
  rw [← hTable.isDuplicate_iff]
  cases hDuplicate : ((boot framer).run receptions).isDuplicate r packetbuf with
  | true =>
      rw [packetInput_of_duplicate hHere hDuplicate]
      exact ⟨fun _ => rfl, fun _ => rfl⟩
  | false =>
      rw [packetInput_of_new hHere hDuplicate]
      exact ⟨fun hSame => absurd hSame (List.cons_ne_self _ _), nofun⟩

theorem carries_press (time : UInt32) : button.Carries press (hears pressFrame time) := by
  change slice (fun i => pressFrame.getD i 0) 0 pressFrame.length = pressFrame
  decide

theorem accepted_press (time : UInt32) :
    lamp.accepted (hears pressFrame time) = some (button.received press) := by
  rw [Framer.accepted_of_carries ⟨rfl, Or.inl rfl, Or.inr rfl⟩ (by decide) (by decide)
    (carries_press time)]
  exact if_pos (by decide)

theorem delivered_press :
    ((boot lamp).run [hears pressFrame 9]).delivered = [⟨button.received press, 9⟩] := by
  have hNew : (boot lamp).isDuplicate (hears pressFrame 9) (button.received press) = false := by
    decide
  exact congrArg Nullrdc.delivered (packetInput_of_new (accepted_press 9) hNew)

/-- The lamp has heard the frame three seconds before. -/
theorem dropped_iff_press :
    (((boot lamp).run [hears pressFrame 9]).packetInput (hears pressFrame 393)).delivered =
      ((boot lamp).run [hears pressFrame 9]).delivered := by
  refine (dropped_iff lamp [hears pressFrame 9] (accepted_press 393)).mpr
    ⟨[], ⟨button.linkaddrNodeAddr, 9, 7⟩, [Seqno.zero], ?_, rfl, nofun, by decide, rfl, by decide⟩
  rw [history, delivered_press]
  rfl

end Nullrdc

section Alone

variable {a : Linkaddr}

/-- Whether an arrival is taken for a copy of the last packet of its sender. -/
def IsCopy (packetbuf : Packetbuf) (r : Reception) (last : Delivery) : Prop :=
  packetbuf.macSeqno = last.seqno.seqno.toUInt16 ∧
    r.checkedAt - last.registeredAt ≤ seqnoMaxAge

instance (packetbuf : Packetbuf) (r : Reception) (last : Delivery) :
    Decidable (IsCopy packetbuf r last) :=
  inferInstanceAs (Decidable (_ ∧ _))

/-- What a receiver delivers that remembers the last packet of one sender, the arrivals of which
it gets in the order of time. -/
def firstCopies (last : Option Delivery) : List (Packetbuf × Reception) → List Delivery
  | [] => []
  | (packetbuf, r) :: arrivals =>
      if ∃ d ∈ last, IsCopy packetbuf r d then firstCopies last arrivals
      else
        ⟨packetbuf, r.registeredAt⟩ :: firstCopies (some ⟨packetbuf, r.registeredAt⟩) arrivals

theorem firstCopies_append (last : Option Delivery) (before after : List (Packetbuf × Reception)) :
    firstCopies last (before ++ after) = firstCopies last before ++
      firstCopies ((firstCopies last before).getLast?.or last) after := by
  induction before generalizing last with
  | nil => rfl
  | cons arrival before ih =>
      obtain ⟨packetbuf, r⟩ := arrival
      simp only [List.cons_append, firstCopies]
      split_ifs
      · exact ih last
      · rw [ih, List.cons_append, List.getLast?_cons]
        cases (firstCopies (some ⟨packetbuf, r.registeredAt⟩) before).getLast? <;> rfl

def Delivery.isFrom (a : Linkaddr) (d : Delivery) : Bool := d.packetbuf.sender = a

/-- The packets of a sender that pass the address filter. -/
def Framer.arrivals (f : Framer) (a : Linkaddr) (receptions : List Reception) :
    List (Packetbuf × Reception) :=
  receptions.filterMap fun r =>
    ((f.accepted r).filter fun packetbuf => packetbuf.sender = a).map fun packetbuf => (packetbuf, r)

namespace Nullrdc

variable {s : Nullrdc} {r : Reception} {packetbuf : Packetbuf}

/-- The packets of a sender that were delivered, newest first. -/
def deliveredFrom (s : Nullrdc) (a : Linkaddr) : List Delivery :=
  s.delivered.filter (Delivery.isFrom a)

/-- The senders that were heard since the last packet of one of them leave room for it. -/
theorem Remembers.isDuplicate_of_few (h : s.Remembers) {senders : Finset Linkaddr}
    (hCard : senders.card ≤ maxSeqnos)
    (hSenders : ∀ d ∈ s.delivered, d.packetbuf.sender ∈ senders)
    (hSender : packetbuf.sender ≠ linkaddrNull) :
    s.isDuplicate r packetbuf = true ↔
      ∃ last ∈ (s.deliveredFrom packetbuf.sender).head?, IsCopy packetbuf r last := by
  rw [h.isDuplicate_iff, deliveredFrom, List.head?_filter]
  constructor
  · rintro ⟨newer, last, older, hHistory, hSame, hNewer, -, hCopy⟩
    have hZero : older ≠ [] := by
      rintro rfl
      obtain ⟨-, hLast⟩ := List.append_inj' hHistory rfl
      obtain ⟨rfl, -⟩ := List.cons.inj hLast
      exact hSender hSame.symm
    obtain ⟨before, zero, rfl⟩ := List.eq_nil_or_concat older |>.resolve_left hZero
    have hDelivered : s.delivered.map Delivery.seqno = newer ++ last :: before := by
      rw [history, List.concat_eq_append, ← List.cons_append, ← List.append_assoc] at hHistory
      exact (List.append_inj' hHistory rfl).1
    obtain ⟨newest, others, hSplit, rfl, hOthers⟩ := List.map_eq_append_iff.mp hDelivered
    obtain ⟨d, oldest, rfl, rfl, -⟩ := List.map_eq_cons_iff.mp hOthers
    refine ⟨d, ?_, hCopy⟩
    rw [Option.mem_def, List.find?_eq_some_iff_append]
    refine ⟨decide_eq_true hSame, newest, oldest, hSplit, fun x hx => ?_⟩
    rw [Bool.not_eq_true', Delivery.isFrom, decide_eq_false_iff_not]
    intro hFrom
    exact hNewer (List.mem_map.mpr ⟨x.seqno, List.mem_map_of_mem hx, hFrom⟩)
  · rintro ⟨last, hLast, hCopy⟩
    rw [Option.mem_def, List.find?_eq_some_iff_append] at hLast
    obtain ⟨hFrom, newest, oldest, hSplit, hOthers⟩ := hLast
    have hSame : last.packetbuf.sender = packetbuf.sender := of_decide_eq_true hFrom
    have hNewer : packetbuf.sender ∉ (newest.map Delivery.seqno).map Seqno.sender := by
      intro hMem
      obtain ⟨x, hx, hKey⟩ := List.mem_map.mp hMem
      obtain ⟨d, hd, rfl⟩ := List.mem_map.mp hx
      have hNot := hOthers d hd
      rw [Bool.not_eq_true', Delivery.isFrom, decide_eq_false_iff_not] at hNot
      exact hNot hKey
    refine ⟨newest.map Delivery.seqno, last.seqno, oldest.map Delivery.seqno ++ [Seqno.zero], ?_,
      hSame, hNewer, ?_, hCopy⟩
    · rw [history, hSplit, List.map_append, List.map_cons, List.append_assoc, List.cons_append]
    · have hIn : packetbuf.sender ∈ senders := by
        rw [← hSame]
        exact hSenders last (by rw [hSplit]; exact List.mem_append_right _ (List.mem_cons_self ..))
      have hSubset : ((newest.map Delivery.seqno).map Seqno.sender).toFinset ⊆
          senders.erase packetbuf.sender := by
        intro k hk
        rw [List.mem_toFinset] at hk
        refine Finset.mem_erase.mpr ⟨fun hSelf => hNewer (hSelf ▸ hk), ?_⟩
        obtain ⟨x, hx, rfl⟩ := List.mem_map.mp hk
        obtain ⟨d, hd, rfl⟩ := List.mem_map.mp hx
        exact hSenders d (by rw [hSplit]; exact List.mem_append_left _ hd)
      have hLe := Finset.card_le_card hSubset
      have hLess := Finset.card_erase_lt_of_mem hIn
      omega

theorem deliveredFrom_packetInput (hTable : s.Remembers) {senders : Finset Linkaddr}
    (hCard : senders.card ≤ maxSeqnos) (hSenders : ∀ d ∈ s.delivered, d.packetbuf.sender ∈ senders)
    (hSender : a ≠ linkaddrNull) (r : Reception) :
    (s.packetInput r).deliveredFrom a =
      (firstCopies (s.deliveredFrom a).head? (s.framer.arrivals a [r])).reverse ++
        s.deliveredFrom a := by
  cases hAccepted : s.framer.accepted r with
  | none => simp [packetInput_of_none hAccepted, Framer.arrivals, hAccepted, firstCopies]
  | some packetbuf =>
      by_cases hFrom : packetbuf.sender = a
      · have hArrivals : s.framer.arrivals a [r] = [(packetbuf, r)] := by
          simp [Framer.arrivals, hAccepted, hFrom]
        subst hFrom
        have hIff := hTable.isDuplicate_of_few (r := r) hCard hSenders hSender
        rw [hArrivals, firstCopies]
        split_ifs with hCopy
        · rw [packetInput_of_duplicate hAccepted (hIff.mpr hCopy)]
          rfl
        · have hNew := Bool.eq_false_iff.mpr fun hDuplicate => hCopy (hIff.mp hDuplicate)
          rw [packetInput_of_new hAccepted hNew]
          simp [deliveredFrom, Delivery.isFrom, firstCopies]
      · have hArrivals : s.framer.arrivals a [r] = [] := by
          simp [Framer.arrivals, hAccepted, hFrom]
        rw [hArrivals, firstCopies, List.reverse_nil, List.nil_append]
        cases hDuplicate : s.isDuplicate r packetbuf with
        | true =>
            rw [packetInput_of_duplicate hAccepted hDuplicate]
            rfl
        | false =>
            rw [packetInput_of_new hAccepted hDuplicate]
            simp [deliveredFrom, Delivery.isFrom, hFrom]

theorem mem_delivered_packetInput {d : Delivery} (hMem : d ∈ (s.packetInput r).delivered) :
    d ∈ s.delivered ∨ ∃ packetbuf ∈ s.framer.accepted r, d.packetbuf = packetbuf := by
  cases hAccepted : s.framer.accepted r with
  | none =>
      rw [packetInput_of_none hAccepted] at hMem
      exact Or.inl hMem
  | some packetbuf =>
      cases hDuplicate : s.isDuplicate r packetbuf with
      | true =>
          rw [packetInput_of_duplicate hAccepted hDuplicate] at hMem
          exact Or.inl hMem
      | false =>
          rw [packetInput_of_new hAccepted hDuplicate] at hMem
          rcases List.mem_cons.mp hMem with rfl | hOld
          · exact Or.inr ⟨packetbuf, rfl, rfl⟩
          · exact Or.inl hOld

/-- Of each sender, the table knows as much as a memory for it alone. -/
theorem deliveredFrom_run (hTable : s.Remembers) {senders : Finset Linkaddr}
    (hCard : senders.card ≤ maxSeqnos) {receptions : List Reception}
    (hDelivered : ∀ d ∈ s.delivered, d.packetbuf.sender ∈ senders)
    (hSenders : ∀ r ∈ receptions, ∀ packetbuf ∈ s.framer.accepted r, packetbuf.sender ∈ senders)
    (hSender : a ≠ linkaddrNull) :
    (s.run receptions).deliveredFrom a =
      (firstCopies (s.deliveredFrom a).head? (s.framer.arrivals a receptions)).reverse ++
        s.deliveredFrom a := by
  induction receptions generalizing s with
  | nil => rfl
  | cons r receptions ih =>
      have hStep := deliveredFrom_packetInput hTable hCard hDelivered hSender r
      have hHead : ((s.packetInput r).deliveredFrom a).head? =
          (firstCopies (s.deliveredFrom a).head? (s.framer.arrivals a [r])).getLast?.or
            (s.deliveredFrom a).head? := by
        rw [hStep, List.head?_append, List.head?_reverse]
      have hArrivals : s.framer.arrivals a (r :: receptions) =
          s.framer.arrivals a [r] ++ s.framer.arrivals a receptions := by
        rw [← List.singleton_append, Framer.arrivals, List.filterMap_append]
        rfl
      have hRest := ih (s := s.packetInput r) (hTable.packetInput r) ?_ ?_
      · rw [run, List.foldl_cons, ← run, hRest, framer_packetInput, hHead, hArrivals,
          firstCopies_append, List.reverse_append, List.append_assoc, ← hStep]
      · intro d hMem
        rcases mem_delivered_packetInput hMem with hOld | ⟨packetbuf, hAccepted, rfl⟩
        · exact hDelivered d hOld
        · exact hSenders r (List.mem_cons_self ..) _ hAccepted
      · intro r' hr' packetbuf hAccepted
        rw [framer_packetInput] at hAccepted
        exact hSenders r' (List.mem_cons_of_mem r hr') packetbuf hAccepted

end Nullrdc

end Alone

section Bursts

/-- A packet, when it came first, and its copies. -/
structure Burst where
  packetbuf : Packetbuf
  first : Reception
  copies : List Reception

def Burst.arrivals (b : Burst) : List (Packetbuf × Reception) :=
  (b.first :: b.copies).map fun r => (b.packetbuf, r)

/-- The packet has a number of one byte, and each copy comes within 20 seconds. -/
structure Burst.Timely (b : Burst) : Prop where
  numbered : b.packetbuf.macSeqno.toUInt8.toUInt16 = b.packetbuf.macSeqno
  copies : ∀ r ∈ b.copies, r.checkedAt - b.first.registeredAt ≤ seqnoMaxAge

/-- Two packets after each other have different numbers. -/
def Differ (b next : Burst) : Prop := next.packetbuf.macSeqno ≠ b.packetbuf.macSeqno

def Burst.delivery (b : Burst) : Delivery := ⟨b.packetbuf, b.first.registeredAt⟩

theorem firstCopies_copies {b : Burst} (h : b.Timely) (copies : List Reception)
    (hCopies : ∀ r ∈ copies, r ∈ b.copies) (arrivals : List (Packetbuf × Reception)) :
    firstCopies (some b.delivery) (copies.map (fun r => (b.packetbuf, r)) ++ arrivals) =
      firstCopies (some b.delivery) arrivals := by
  induction copies with
  | nil => rfl
  | cons r copies ih =>
      rw [List.forall_mem_cons] at hCopies
      have hCopy : ∃ d ∈ some b.delivery, IsCopy b.packetbuf r d :=
        ⟨b.delivery, rfl, h.numbered.symm, h.copies r hCopies.1⟩
      rw [List.map_cons, List.cons_append, firstCopies, if_pos hCopy]
      exact ih hCopies.2

theorem firstCopies_bursts {bursts : List Burst} (hTimely : ∀ b ∈ bursts, b.Timely)
    (hChain : bursts.IsChain Differ) {last : Option Delivery}
    (hFirst : ∀ b ∈ bursts.head?, ∀ d ∈ last, ¬ IsCopy b.packetbuf b.first d) :
    firstCopies last (bursts.flatMap Burst.arrivals) = bursts.map Burst.delivery := by
  induction bursts generalizing last with
  | nil => rfl
  | cons b bursts ih =>
      rw [List.forall_mem_cons] at hTimely
      have hNew : ¬ ∃ d ∈ last, IsCopy b.packetbuf b.first d := by
        rintro ⟨d, hd, hCopy⟩
        exact hFirst b rfl d hd hCopy
      have hBurst := firstCopies_copies hTimely.1 b.copies (fun _ hMem => hMem)
        (bursts.flatMap Burst.arrivals)
      rw [List.flatMap_cons, Burst.arrivals, List.map_cons, List.cons_append, firstCopies,
        if_neg hNew, List.map_cons]
      refine congrArg _ (hBurst.trans (ih hTimely.2 hChain.tail ?_))
      intro next hNext d hd hCopy
      obtain rfl := Option.some.inj hd
      obtain ⟨rest, rfl⟩ := List.head?_eq_some_iff.mp hNext
      have hDiffer : Differ b next := hChain.rel
      exact hDiffer (hCopy.1.trans hTimely.1.numbered)

/-- **Each packet once.** If at most 16 senders are heard, then whatever comes in between from the
others, the packets of each sender are delivered once each and in their order, however often each
of them comes within 20 seconds, as long as no two in a row have the same number. -/
theorem Nullrdc.delivered_once (framer : Framer) {receptions : List Reception} {a : Linkaddr}
    (hSender : a ≠ linkaddrNull) {senders : Finset Linkaddr} (hCard : senders.card ≤ maxSeqnos)
    (hSenders : ∀ r ∈ receptions, ∀ packetbuf ∈ framer.accepted r, packetbuf.sender ∈ senders)
    {bursts : List Burst} (hArrivals : framer.arrivals a receptions = bursts.flatMap Burst.arrivals)
    (hTimely : ∀ b ∈ bursts, b.Timely) (hChain : bursts.IsChain Differ) :
    (((boot framer).run receptions).deliveredFrom a).reverse = bursts.map Burst.delivery := by
  have hRun : ((boot framer).run receptions).deliveredFrom a =
      (firstCopies none (framer.arrivals a receptions)).reverse ++ [] :=
    deliveredFrom_run (remembers_boot framer) hCard nofun hSenders hSender
  have hBursts : firstCopies none (bursts.flatMap Burst.arrivals) = bursts.map Burst.delivery := by
    apply firstCopies_bursts hTimely hChain
    intro _ _ d hNone
    cases hNone
  rw [hRun, hArrivals, hBursts, List.append_nil, List.reverse_reverse]

theorem Nullrdc.arrivals_press (times : List UInt32) :
    lamp.arrivals button.linkaddrNodeAddr (times.map (hears pressFrame)) =
      times.map fun time => (button.received press, hears pressFrame time) := by
  induction times with
  | nil => rfl
  | cons time times ih =>
      rw [List.map_cons, Framer.arrivals, List.filterMap_cons, accepted_press, List.map_cons,
        ← ih]
      rfl

/-- The frame is heard twice. -/
theorem Nullrdc.delivered_once_press :
    (((boot lamp).run [hears pressFrame 9, hears pressFrame 100]).deliveredFrom
      button.linkaddrNodeAddr).reverse = [⟨button.received press, 9⟩] := by
  have hSenders : ∀ r ∈ [hears pressFrame 9, hears pressFrame 100],
      ∀ packetbuf ∈ lamp.accepted r, packetbuf.sender ∈ ({button.linkaddrNodeAddr} : Finset _) := by
    simp [accepted_press, Framer.received]
  have hTimely : ∀ b ∈ [(⟨button.received press, hears pressFrame 9, [hears pressFrame 100]⟩ : Burst)],
      b.Timely := by
    intro b hb
    obtain rfl := List.mem_singleton.mp hb
    exact ⟨rfl, by simp; decide⟩
  exact delivered_once lamp (by decide) (by decide) hSenders (arrivals_press [9, 100]) hTimely
    (List.isChain_singleton _)

end Bursts

end Smarthome.Mac
