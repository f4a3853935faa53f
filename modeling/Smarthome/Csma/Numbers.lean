import Smarthome.Csma.Outcomes

/-! The sequence numbers of `csma.c`. Each packet keeps the number that it got in its call of
`send_packet`, and is not sent any more once it has its outcome. -/
namespace Smarthome.Csma

open Contiki Semantics

section Numbers

variable (seqno : UInt16)

/-- The variable `seqno` after so many calls of `send_packet`. -/
def seqnoAfter : Nat → UInt16
  | 0 => seqno
  | calls + 1 => (if seqnoAfter calls = 0 then 1 else seqnoAfter calls) + 1

/-- The sequence number of the packet of a call. -/
def seqnoOf (packet : Nat) : UInt16 :=
  if seqnoAfter seqno packet = 0 then 1 else seqnoAfter seqno packet

end Numbers

variable {c : Config}

/-- The numbers of the packets that wait and of those that were sent. -/
structure Labelled (seqno : UInt16) (s : State c) : Prop where
  counter : s.seqno = seqnoAfter seqno s.requests.length
  waiting : ∀ q ∈ s.packetMemb, s.queuebufSeqno q = some (seqnoOf seqno (s.number q))
  attempts : ∀ packet frame, .attempt packet frame ∈ s.history →
    frame.macSeqno = seqnoOf seqno packet ∧ frame.macAck = 1
  unfinished : ∀ before packet frame, before ++ [.attempt packet frame] <+: s.history →
    outcomes before packet = 0

/-- What the result of a transmission leaves alone. -/
structure Aside (s t : State c) : Prop where
  seqno : t.seqno = s.seqno
  requests : t.requests = s.requests
  packets : t.packetMemb ⊆ s.packetMemb
  number : t.number = s.number
  label : t.queuebufSeqno = s.queuebufSeqno
  history : t.history = s.history ∨
    ∃ packet report, t.history = s.history ++ [.outcome packet report]

section PacketSent

variable {s t : State c} {n : Fin c.maxNeighborQueues} {q : Fin c.maxQueuedPackets}
  {m : Fin c.maxMetadata} {seqno : UInt16} (random : UInt16)

theorem Labelled.aside (h : Labelled seqno s) (hAside : Aside s t) : Labelled seqno t where
  counter := by rw [hAside.seqno, hAside.requests, h.counter]
  waiting q hq := by
    rw [hAside.label, hAside.number]
    exact h.waiting q (hAside.packets hq)
  attempts packet frame hMem := by
    rcases hAside.history with hSame | ⟨other, report, hMore⟩
    · exact h.attempts packet frame (hSame ▸ hMem)
    · rw [hMore] at hMem
      exact h.attempts packet frame (by simpa using hMem)
  unfinished before packet frame hPrefix := by
    rcases hAside.history with hSame | ⟨other, report, hMore⟩
    · exact h.unfinished before packet frame (hSame ▸ hPrefix)
    · rw [hMore] at hPrefix
      exact h.unfinished before packet frame (Service.InOrder.of_prefix_outcome hPrefix)

theorem Aside.refl (s : State c) : Aside s s :=
  ⟨rfl, rfl, Finset.Subset.refl _, rfl, rfl, Or.inl rfl⟩

theorem aside_freePacket (hFree : s.freePacket random n q = some t) :
    Aside s t ∧ t.history = s.history := by
  rw [State.freePacket, Option.bind_eq_bind, Option.bind_eq_some_iff] at hFree
  obtain ⟨⟨list, next⟩, -, hRest⟩ := hFree
  dsimp only at hRest
  split at hRest
  · obtain rfl := Option.some.inj hRest
    exact ⟨⟨rfl, rfl, Finset.erase_subset _ _, rfl, rfl, Or.inl rfl⟩, rfl⟩
  · obtain rfl := Option.some.inj hRest
    exact ⟨⟨rfl, rfl, Finset.erase_subset _ _, rfl, rfl, Or.inl rfl⟩, rfl⟩

theorem aside_txDone {status : MacTx} (hDone : s.txDone random status q m n = some t) :
    Aside s t := by
  rw [State.txDone, Option.bind_eq_bind, Option.bind_eq_some_iff] at hDone
  obtain ⟨freed, hFree, hReport⟩ := hDone
  obtain rfl := Option.some.inj hReport
  obtain ⟨hAside, hHistory⟩ := aside_freePacket random hFree
  exact ⟨hAside.seqno, hAside.requests, hAside.packets, hAside.number, hAside.label,
    Or.inr ⟨_, _, congrArg (· ++ _) hHistory⟩⟩

/-- The buffer of a packet gets the number that it has. -/
theorem label_updateAttr (hFound : s.queuebufSeqno q = some s.packetbuf.macSeqno) :
    (s.queuebufUpdateAttrFromPacketbuf (s.buf q)).queuebufSeqno = s.queuebufSeqno := by
  rw [State.queuebufSeqno, Option.map_eq_some_iff] at hFound
  obtain ⟨b, hBuf, hSeqno⟩ := hFound
  rw [hBuf]
  funext p
  simp only [State.queuebufSeqno, State.queuebufUpdateAttrFromPacketbuf]
  congr 1
  funext other
  by_cases hSame : other = b
  · rw [hSame, Function.update_self, hSeqno]
  · rw [Function.update_of_ne hSame]

theorem aside_rexmit (hFound : s.queuebufSeqno q = some s.packetbuf.macSeqno) :
    Aside s (s.rexmit random q n) := by
  have hLabel : (s.rexmit random q n).queuebufSeqno = s.queuebufSeqno :=
    label_updateAttr (s := s.scheduleTransmission random n) hFound
  obtain ⟨queuebuf, hUpdate⟩ := updateAttr_eq (s.scheduleTransmission random n) (s.buf q)
  have hEq : s.rexmit random q n = { s.scheduleTransmission random n with queuebuf } := hUpdate
  refine ⟨?_, ?_, ?_, ?_, hLabel, Or.inl ?_⟩ <;> rw [hEq] <;> rfl

theorem Aside.of_counters {transmissions collisions : Fin c.maxNeighborQueues → UInt8}
    (h : Aside { s with transmissions, collisions } t) : Aside s t :=
  ⟨h.seqno, h.requests, h.packets, h.number, h.label, h.history⟩

theorem aside_txDoneOrRexmit {status : MacTx}
    {transmissions collisions : Fin c.maxNeighborQueues → UInt8}
    (hFound : s.queuebufSeqno q = some s.packetbuf.macSeqno)
    (hSent : { s with transmissions, collisions }.txDoneOrRexmit random status q m n = some t) :
    Aside s t := by
  rw [State.txDoneOrRexmit] at hSent
  split at hSent
  · exact (aside_txDone random hSent).of_counters
  · obtain rfl := Option.some.inj hSent
    have hHere : ({ s with transmissions, collisions } : State c).queuebufSeqno q =
        some s.packetbuf.macSeqno := hFound
    exact (aside_rexmit random hHere).of_counters

/-- Whatever the result is, the packets keep their numbers. -/
theorem aside_packetSent {status : MacTx} {numTransmissions : UInt8}
    (hFirst : s.queuedPacketList n = some q)
    (hFound : s.queuebufSeqno q = some s.packetbuf.macSeqno)
    (hSent : s.packetSent random n status numTransmissions = some t) : Aside s t := by
  have hFuel : 0 < Fintype.card (Fin c.maxQueuedPackets) := Fintype.card_pos_iff.mpr ⟨q⟩
  have hFind : findLinks s.next (fun p => s.queuebufSeqno p = some s.packetbuf.macSeqno)
      (Fintype.card (Fin c.maxQueuedPackets)) (some q) = some (some q) :=
    findLinks_first (by simpa using hFound) hFuel
  rw [State.packetSent, hFirst, hFind] at hSent
  simp only [Option.bind_eq_bind, Option.bind_some] at hSent
  cases hPtr : s.ptr q with
  | none =>
      simp only [hPtr] at hSent
      obtain rfl := Option.some.inj hSent
      exact Aside.refl s
  | some m =>
      simp only [hPtr] at hSent
      cases status with
      | ok => exact (aside_txDone random hSent).of_counters
      | noack => exact aside_txDoneOrRexmit random hFound hSent
      | collision =>
          simp only [State.collision] at hSent
          split at hSent
          · exact aside_txDoneOrRexmit random hFound hSent
          · have hSame : ({ s with transmissions := s.transmissions
                                   collisions := Function.update s.collisions n
                                     (s.collisions n + numTransmissions) } : State c).txDoneOrRexmit
                random .collision q m n = some t := hSent
            exact aside_txDoneOrRexmit random hFound hSame
      | deferred =>
          obtain rfl := Option.some.inj hSent
          exact Aside.refl s
      | err => exact aside_txDone random hSent
      | errFatal => exact aside_txDone random hSent

end PacketSent

section Steps

variable {s t : State c} {n : Fin c.maxNeighborQueues} {q : Fin c.maxQueuedPackets}
  {seqno : UInt16}

theorem outcomes_of_first (h : Inv s) (hn : n ∈ s.neighborList)
    (hFirst : s.queuedPacketList n = some q) : outcomes s.history (s.number q) = 0 := by
  obtain ⟨line, hLine⟩ := waiting_of_first h.tidy hn hFirst
  have hWaits : s.number q ∈ s.waiting (s.addr n) := by
    rw [hLine]
    exact List.mem_cons_self ..
  exact h.inOrder.outcomes_eq_zero hWaits

/-- What `send_one_packet` makes of the packet buffer. -/
def acked (c : Config) (packetbuf : Packetbuf) : Packetbuf :=
  { packetbuf with sender := c.linkaddrNodeAddr, macAck := 1 }

theorem sendOnePacket_acked (a : Answers) (packet : Nat) (h : s.packetbuf.macSeqno ≠ 0) :
    ∃ history, ∃ ret : MacTx,
      (history = s.history ∨ history = s.history ++ [.attempt packet (acked c s.packetbuf)]) ∧
      s.sendOnePacket a packet n =
        ({ s with packetbuf := acked c s.packetbuf, history }.packetSent a.random n ret 1).map
          fun t => (t, decide (ret = MacTx.ok)) := by
  obtain ⟨created, hCreate⟩ :=
    framerCreate_of_seqno (s := { s with packetbuf := acked c s.packetbuf }) a h
  rw [State.sendOnePacket, ← acked, hCreate]
  simp only [Option.bind_eq_bind, Option.map_eq_bind]
  split
  · exact ⟨_, _, Or.inr rfl, rfl⟩
  · exact ⟨s.history, _, Or.inl rfl, rfl⟩

/-- A packet that has no outcome yet is sent with its number. -/
theorem Labelled.attempted (h : Labelled seqno s) (hNone : outcomes s.history (s.number q) = 0)
    {packetbuf : Packetbuf} (hSeqno : packetbuf.macSeqno = seqnoOf seqno (s.number q))
    (hAck : packetbuf.macAck = 1) {history : List (Entry Packetbuf Report)}
    (hHistory : history = s.history ∨ history = s.history ++ [.attempt (s.number q) packetbuf]) :
    Labelled seqno { s with packetbuf, history } where
  counter := h.counter
  waiting := h.waiting
  attempts packet frame hMem := by
    rcases hHistory with rfl | rfl
    · exact h.attempts packet frame hMem
    · rcases List.mem_append.mp hMem with hOld | hNew
      · exact h.attempts packet frame hOld
      · obtain ⟨rfl, rfl⟩ : packet = s.number q ∧ frame = packetbuf := by simpa using hNew
        exact ⟨hSeqno, hAck⟩
  unfinished before packet frame hPrefix := by
    rcases hHistory with rfl | rfl
    · exact h.unfinished before packet frame hPrefix
    · rcases List.prefix_concat_iff.mp hPrefix with hNew | hOld
      · obtain ⟨rfl, hEntry⟩ := List.append_inj' hNew rfl
        obtain ⟨rfl, -⟩ : packet = s.number q ∧ frame = packetbuf := by simpa using hEntry
        exact hNone
      · exact h.unfinished before packet frame hOld

theorem Labelled.sendListTurn (h : Labelled seqno s) (hInv : Inv s) (a : Answers)
    (hStep : s.sendListTurn a = some t) : Labelled seqno t := by
  rw [State.sendListTurn] at hStep
  cases hWalk : s.sendList with
  | none =>
      simp only [hWalk] at hStep
      obtain rfl := Option.some.inj hStep
      exact h
  | some first =>
      obtain ⟨n, q⟩ := first
      obtain ⟨hn, hFirst⟩ := hInv.walk n q hWalk
      have hList := hInv.tidy.lists n hn
      rw [hFirst] at hList
      obtain ⟨rest, hQueue, -⟩ := IsList.some_iff.mp hList
      have hMem : q ∈ s.packetMemb := (hInv.tidy.packets q).mpr ⟨n, hn, by simp [hQueue]⟩
      obtain ⟨request, hCarries⟩ := hInv.tidy.carries q hMem
      obtain ⟨b, -, hBuf⟩ := (hInv.tidy.exists_blocks hMem).2
      have hLabel : (s.queuebuf b).macSeqno = seqnoOf seqno (s.number q) := by
        have hWaits := h.waiting q hMem
        rw [State.queuebufSeqno, hBuf] at hWaits
        exact Option.some.inj hWaits
      have hLoad : s.queuebufToPacketbuf (s.buf q) = { s with packetbuf := s.queuebuf b } := by
        rw [hBuf]
        rfl
      obtain ⟨history, ret, hHistory, hSend⟩ :=
        sendOnePacket_acked (s := { s with packetbuf := s.queuebuf b }) (n := n) a (s.number q)
          (hCarries.seqno b hBuf)
      rw [hWalk] at hStep
      dsimp only at hStep
      rw [hLoad, hSend, Option.bind_eq_bind, Option.bind_eq_some_iff] at hStep
      obtain ⟨_, hReturned, hEnd⟩ := hStep
      obtain ⟨sent, hSent, rfl⟩ := Option.map_eq_some_iff.mp hReturned
      obtain rfl := Option.some.inj hEnd
      have hSeqno : (acked c (s.queuebuf b)).macSeqno = seqnoOf seqno (s.number q) := hLabel
      have hAttempted : Labelled seqno { s with packetbuf := acked c (s.queuebuf b), history } :=
        h.attempted (outcomes_of_first hInv hn hFirst) hSeqno rfl hHistory
      have hFound : ({ s with packetbuf := acked c (s.queuebuf b), history } :
          State c).queuebufSeqno q = some (acked c (s.queuebuf b)).macSeqno :=
        congrArg (Option.map _) hBuf
      have hAfter := hAttempted.aside (aside_packetSent a.random hFirst hFound hSent)
      exact ⟨hAfter.counter, hAfter.waiting, hAfter.attempts, hAfter.unfinished⟩

/-- The state in which a call of `send_packet` looks for the queue. -/
def State.numbered (s : State c) (request : Request) : State c :=
  { s with
    requests := s.requests ++ [request]
    packetbuf := { request.packetbuf with macSeqno := if s.seqno = 0 then 1 else s.seqno }
    seqno := (if s.seqno = 0 then 1 else s.seqno) + 1 }

theorem Labelled.numbered (h : Labelled seqno s) (request : Request) :
    Labelled seqno (s.numbered request) where
  counter := by
    simp only [State.numbered, List.length_append, List.length_singleton, seqnoAfter, h.counter]
  waiting := h.waiting
  attempts := h.attempts
  unfinished := h.unfinished

theorem macSeqno_numbered (h : Labelled seqno s) (request : Request) :
    (s.numbered request).packetbuf.macSeqno = seqnoOf seqno s.requests.length := by
  simp only [State.numbered, seqnoOf, h.counter]

theorem Labelled.refused (h : Labelled seqno s) (packet : Nat) (report : Report) :
    Labelled seqno (s.macCallSentCallback packet report) :=
  h.aside ⟨rfl, rfl, Finset.Subset.refl _, rfl, rfl, Or.inr ⟨packet, report, rfl⟩⟩

/-- The new packet has the number of its call, and the others keep theirs. -/
theorem Labelled.appended (h : Labelled seqno s) {fresh : Option (Fin c.maxNeighborQueues)}
    (hTidy : Tidy fresh s) {b : Fin c.queuebufNum} {m : Fin c.maxMetadata} (hq : q ∉ s.packetMemb)
    (hm : m ∉ s.metadataMemb) (hb : b ∉ s.bufmem) {metadata : QbufMetadata}
    (hSeqno : s.packetbuf.macSeqno = seqnoOf seqno metadata.packet)
    (list : Option (Fin c.maxQueuedPackets))
    (next : Fin c.maxQueuedPackets → Option (Fin c.maxQueuedPackets)) :
    Labelled seqno ((s.allocated q m b).appended n m metadata list next) where
  counter := h.counter
  waiting p hp := by
    rcases Finset.mem_insert.mp hp with rfl | hOld
    · rw [Tidy.number_appended]
      simp only [State.queuebufSeqno, State.appended, State.allocated, Function.update_self,
        Option.map_some, hSeqno]
    · obtain ⟨request, hCarries⟩ := hTidy.carries p hOld
      have hNumber : ((s.allocated q m b).appended n m metadata list next).number p = s.number p :=
        (hTidy.carries_appended hq hm hb hOld hCarries).1
      obtain ⟨b', hb', hBuf⟩ := (hTidy.exists_blocks hOld).2
      have hNe : b' ≠ b := ne_of_mem_of_not_mem (Finset.mem_sdiff.mp hb').1 hb
      have hWaits := h.waiting p hOld
      rw [hNumber, ← hWaits]
      simp only [State.queuebufSeqno, State.appended, State.allocated,
        Function.update_of_ne (ne_of_mem_of_not_mem hOld hq), hBuf, Option.map_some,
        Function.update_of_ne hNe]
  attempts := h.attempts
  unfinished := h.unfinished

theorem Labelled.schedule (h : Labelled seqno s) (random : UInt16) (n : Fin c.maxNeighborQueues) :
    Labelled seqno (s.scheduleTransmission random n) :=
  ⟨h.counter, h.waiting, h.attempts, h.unfinished⟩

/-- What is stored for packets that are not there does not matter. -/
theorem Labelled.overwrite (h : Labelled seqno s) {ptr buf}
    (hPtr : ∀ p ∈ s.packetMemb, ptr p = s.ptr p) (hBuf : ∀ p ∈ s.packetMemb, buf p = s.buf p) :
    Labelled seqno { s with ptr, buf } where
  counter := h.counter
  waiting p hp := by
    have hWaits := h.waiting p hp
    simp only [State.queuebufSeqno, State.number] at hWaits ⊢
    rw [hPtr p hp, hBuf p hp]
    exact hWaits
  attempts := h.attempts
  unfinished := h.unfinished

theorem Labelled.releaseNeighbor (h : Labelled seqno s) (hStep : s.releaseNeighbor n = some t) :
    Labelled seqno t := by
  simp only [State.releaseNeighbor, Option.bind_eq_bind, Option.bind_eq_some_iff] at hStep
  obtain ⟨length, -, hRest⟩ := hStep
  split at hRest
  · obtain rfl := Option.some.inj hRest
    exact ⟨h.counter, h.waiting, h.attempts, h.unfinished⟩
  · obtain rfl := Option.some.inj hRest
    exact h

theorem Labelled.queuePacket (h : Labelled seqno s) {fresh : Option (Fin c.maxNeighborQueues)}
    (hTidy : Tidy fresh s) {random : UInt16} {packet : Nat} {request : Request}
    (hSeqno : s.packetbuf.macSeqno = seqnoOf seqno packet)
    (hStep : s.queuePacket random packet request n = some t) : Labelled seqno t := by
  simp only [State.queuePacket, Option.bind_eq_bind, Option.bind_eq_some_iff] at hStep
  obtain ⟨length, -, hRest⟩ := hStep
  split at hRest
  · rcases Tidy.allocPacket_cases s with ⟨q, hq, m, hm, b, hb, hAlloc⟩ | ⟨ptr, buf, hPtr, hBuf, hAlloc⟩
    · rw [hAlloc] at hRest
      simp only [State.enqueue, Option.bind_eq_bind, Option.bind_eq_some_iff] at hRest
      obtain ⟨⟨list, next⟩, -, hDone⟩ := hRest
      obtain rfl := Option.some.inj hDone
      have hAppended (maxTransmissions : UInt8) : Labelled seqno ((s.allocated q m b).appended n m
          ⟨request.sent, request.ptr, maxTransmissions, packet⟩ list next) :=
        h.appended hTidy hq hm hb hSeqno list next
      split
      · exact (hAppended _).schedule random n
      · exact hAppended _
    · rw [hAlloc] at hRest
      simp only [Option.bind_eq_some_iff] at hRest
      obtain ⟨released, hRelease, hDone⟩ := hRest
      obtain rfl := Option.some.inj hDone
      exact ((h.overwrite hPtr hBuf).releaseNeighbor hRelease).refused packet _
  · obtain rfl := Option.some.inj hRest
    exact h.refused packet _

theorem sendPacket_of_queue {random : UInt16} {request : Request} {s' : State c}
    (hQueue : (s.numbered request).neighborQueue request.receiver = (s', some n)) :
    s.sendPacket random request = s'.queuePacket random s.requests.length request n := by
  rw [State.numbered] at hQueue
  simp only [State.sendPacket]
  rw [hQueue]

theorem sendPacket_of_none {random : UInt16} {request : Request} {s' : State c}
    (hQueue : (s.numbered request).neighborQueue request.receiver = (s', none)) :
    s.sendPacket random request =
      some (s'.macCallSentCallback s.requests.length ⟨request.sent, request.ptr, .err, 1⟩) := by
  rw [State.numbered] at hQueue
  simp only [State.sendPacket]
  rw [hQueue]

theorem Labelled.sendPacket (h : Labelled seqno s) (hInv : Inv s) {random : UInt16}
    {request : Request} (hStep : s.sendPacket random request = some t) : Labelled seqno t := by
  have hNumbered := h.numbered request
  have hSeqno := macSeqno_numbered h request
  have hTidy : Tidy none (s.numbered request) :=
    (hInv.tidy.submit request).untouched _ s.macDsn _ s.transmissions s.collisions s.sendList
      s.history
  cases hFind : (s.numbered request).neighborQueueFromAddr request.receiver with
  | some n =>
      have hQueue : (s.numbered request).neighborQueue request.receiver =
          (s.numbered request, some n) := by
        rw [State.neighborQueue, hFind]
      rw [sendPacket_of_queue hQueue] at hStep
      exact hNumbered.queuePacket hTidy hSeqno hStep
  | none =>
      cases hAlloc : (s.numbered request).neighborMemb.alloc with
      | none =>
          have hQueue : (s.numbered request).neighborQueue request.receiver =
              (s.numbered request, none) := by
            rw [State.neighborQueue, hFind]
            dsimp only
            rw [hAlloc]
          rw [sendPacket_of_none hQueue] at hStep
          obtain rfl := Option.some.inj hStep
          exact hNumbered.refused _ _
      | some n =>
          have hQueue : (s.numbered request).neighborQueue request.receiver =
              ((s.numbered request).addNeighbor n request.receiver, some n) := by
            rw [State.neighborQueue, hFind]
            dsimp only
            rw [hAlloc]
          rw [sendPacket_of_queue hQueue] at hStep
          have hNew : ∀ m ∈ (s.numbered request).neighborList,
              (s.numbered request).addr m ≠ request.receiver := by
            intro m hm
            simpa using List.find?_eq_none.mp hFind m hm
          have hAdded : Labelled seqno ((s.numbered request).addNeighbor n request.receiver) :=
            ⟨hNumbered.counter, hNumbered.waiting, hNumbered.attempts, hNumbered.unfinished⟩
          exact hAdded.queuePacket
            (hTidy.addNeighbor (BlockPool.not_mem_of_alloc hAlloc) hNew) hSeqno hStep

/-- Other code takes a queue buffer that no packet has. -/
theorem Labelled.lent (h : Labelled seqno s) (hTidy : Tidy none s) (contents : Packetbuf)
    {b : Fin c.queuebufNum} (hb : b ∉ s.bufmem) :
    Labelled seqno { s with
      packetbuf := contents
      bufmem := insert b s.bufmem
      queuebuf := Function.update s.queuebuf b contents
      others := insert b s.others } where
  counter := h.counter
  waiting p hp := by
    obtain ⟨b', hb', hBuf⟩ := (hTidy.exists_blocks hp).2
    have hNe : b' ≠ b := ne_of_mem_of_not_mem (Finset.mem_sdiff.mp hb').1 hb
    have hWaits := h.waiting p hp
    simp only [State.queuebufSeqno, hBuf, Option.map_some, Function.update_of_ne hNe,
      State.number] at hWaits ⊢
    exact hWaits
  attempts := h.attempts
  unfinished := h.unfinished

theorem Labelled.step (h : Labelled seqno s) (hInv : Inv s) {event : Event c}
    (hStep : step c s event = some t) : Labelled seqno t := by
  cases event with
  | sendPacket random request => exact h.sendPacket hInv hStep
  | expire n =>
      obtain rfl := Option.some.inj hStep
      exact ⟨h.counter, h.waiting, h.attempts, h.unfinished⟩
  | sendListTurn a => exact h.sendListTurn hInv a hStep
  | queuebufNew contents =>
      cases hAlloc : s.bufmem.alloc with
      | none =>
          simp only [Csma.step, State.queuebufNewFromPacketbuf, hAlloc] at hStep
          obtain rfl := Option.some.inj hStep
          exact ⟨h.counter, h.waiting, h.attempts, h.unfinished⟩
      | some b =>
          simp only [Csma.step, State.queuebufNewFromPacketbuf, hAlloc] at hStep
          obtain rfl := Option.some.inj hStep
          exact h.lent hInv.tidy contents (BlockPool.not_mem_of_alloc hAlloc)
  | queuebufFree b =>
      obtain rfl := Option.some.inj hStep
      exact ⟨h.counter, h.waiting, h.attempts, h.unfinished⟩

theorem labelled_of_run {macDsn : UInt8}
    (run : Reaches (step c) (Possible c) (State.init c seqno macDsn) s) :
    Inv s ∧ Labelled seqno s := by
  refine run.invariant (fun s => Inv s ∧ Labelled seqno s) ⟨Inv.init seqno macDsn, ?_⟩ ?_
  · exact ⟨rfl, fun q hq => absurd hq (Finset.notMem_empty q), nofun, by simp [State.init]⟩
  · intro u event t hBefore hPossible hStep
    obtain ⟨t', hStep', hAfter⟩ := hBefore.1.step hPossible
    obtain rfl := Option.some.inj (hStep.symm.trans hStep')
    exact ⟨hAfter, hBefore.2.step hBefore.1 hStep⟩

end Steps

end Smarthome.Csma
