import Smarthome.Csma.Queues

/-! What the result of a transmission does. The queues of `csma.c` are a service with one
line for each address, and the packet that has been transmitted is the first of its line. -/
namespace Smarthome.Csma

open Contiki Semantics

variable {c : Config}

/-- The packets as jobs that wait for their receivers. -/
def State.service (s : State c) : Service Request Linkaddr Packetbuf Report :=
  ⟨s.requests, s.waiting, s.history⟩

section Waiting

variable {s t : State c} {n : Fin c.maxNeighborQueues} {addr : Linkaddr} {line : List Nat}

/-- A line is read off the queue of its neighbor, if there is one. -/
theorem waiting_eq
    (hSome : ∀ n ∈ s.neighborList, s.addr n = addr → (s.queue n).map s.number = line)
    (hNone : (∀ n ∈ s.neighborList, s.addr n ≠ addr) → line = []) : s.waiting addr = line := by
  rw [State.waiting]
  cases hFind : s.neighborQueueFromAddr addr with
  | none =>
      refine (hNone fun n hn => ?_).symm
      simpa using List.find?_eq_none.mp hFind n hn
  | some n => exact hSome n (List.mem_of_find?_eq_some hFind) (by simpa using List.find?_some hFind)

theorem waiting_of_mem {fresh : Option (Fin c.maxNeighborQueues)} (h : Tidy fresh s)
    (hn : n ∈ s.neighborList) : s.waiting (s.addr n) = (s.queue n).map s.number := by
  refine waiting_eq (fun m hm hSame => ?_) (fun hNone => absurd rfl (hNone n hn))
  rw [h.addrs m hm n hn hSame]

theorem waiting_of_none (h : ∀ n ∈ s.neighborList, s.addr n ≠ addr) : s.waiting addr = [] :=
  waiting_eq (fun n hn hSame => absurd hSame (h n hn)) fun _ => rfl

end Waiting

section FreePacket

variable {s : State c} {n : Fin c.maxNeighborQueues} {q : Fin c.maxQueuedPackets}
  {rest : List (Fin c.maxQueuedPackets)} (random : UInt16)

theorem freePacket_more (hHead : s.queuedPacketList n = some q) (hNext : s.next q ≠ none) :
    s.freePacket random n q = some
      ({ s.takeFirst n q with
        transmissions := Function.update s.transmissions n 0
        collisions := Function.update s.collisions n csmaMinBe }.scheduleTransmission random n) := by
  have hList : Function.update s.queuedPacketList n (s.next q) n ≠ none := by
    rwa [Function.update_self]
  simp only [State.freePacket, hHead, listRemove_first, Option.bind_eq_bind, Option.bind_some]
  rw [if_pos hList]
  rfl

theorem freePacket_last (hHead : s.queuedPacketList n = some q) (hNext : s.next q = none) :
    s.freePacket random n q = some { s.takeFirst n q with
      transmitTimer := Function.update s.transmitTimer n none
      neighborList := s.neighborList.erase n
      neighborMemb := s.neighborMemb.erase n } := by
  have hList : ¬ Function.update s.queuedPacketList n (s.next q) n ≠ none := by
    rwa [Function.update_self, not_not]
  simp only [State.freePacket, hHead, listRemove_first, Option.bind_eq_bind, Option.bind_some]
  rw [if_neg hList]
  rfl

/-- The first packet of a neighbor has left the queue. -/
structure Freed (s t : State c) (n : Fin c.maxNeighborQueues) (q : Fin c.maxQueuedPackets) :
    Prop where
  tidy : Tidy none t
  waiting : t.waiting = Function.update s.waiting (s.addr n) (s.waiting (s.addr n)).tail
  requests : t.requests = s.requests
  history : t.history = s.history
  timers : ∀ k ∈ t.neighborList,
    t.transmitTimer k ≠ none ∨ k ≠ n ∧ k ∈ s.neighborList ∧ t.transmitTimer k = s.transmitTimer k
  next : ∀ p, s.next q = some p → n ∈ t.neighborList ∧ t.queuedPacketList n = some p

/-- The line of a neighbor whose first packet has been taken. -/
theorem waiting_freed {t : State c} (h : Tidy none s) (hn : n ∈ s.neighborList)
    (hQueue : s.queue n = q :: rest) (hAddr : t.addr = s.addr) (hNumber : t.number = s.number)
    (hMem : ∀ k ∈ t.neighborList, k ∈ s.neighborList)
    (hKept : ∀ k ∈ s.neighborList, k ∈ t.neighborList ∨ k = n ∧ rest = [])
    (hQueues : ∀ k ∈ t.neighborList, t.queue k = if k = n then rest else s.queue k) :
    t.waiting = Function.update s.waiting (s.addr n) (s.waiting (s.addr n)).tail := by
  funext addr
  refine waiting_eq (fun k hk hSame => ?_) fun hNone => ?_
  · rw [hQueues k hk, hNumber]
    rw [hAddr] at hSame
    by_cases hEq : k = n
    · rw [if_pos hEq, ← hSame, hEq, Function.update_self, waiting_of_mem h hn, hQueue,
        List.map_cons, List.tail_cons]
    · have hNe : addr ≠ s.addr n := by
        rw [← hSame]
        exact fun hAddrs => hEq (h.addrs k (hMem k hk) n hn hAddrs)
      rw [if_neg hEq, Function.update_of_ne hNe, ← hSame, waiting_of_mem h (hMem k hk)]
  · rw [hAddr] at hNone
    by_cases hEq : addr = s.addr n
    · have hRest : rest = [] :=
        (hKept n hn).elim (fun hMem => absurd hEq.symm (hNone n hMem)) fun hLast => hLast.2
      rw [hEq, Function.update_self, waiting_of_mem h hn, hQueue, hRest, List.map_cons,
        List.tail_cons, List.map_nil]
    · rw [Function.update_of_ne hEq]
      refine waiting_of_none fun k hk hSame => ?_
      rcases hKept k hk with hIn | ⟨rfl, -⟩
      · exact hNone k hIn hSame
      · exact hEq hSame.symm

theorem freePacket_spec (h : Tidy none s) (hn : n ∈ s.neighborList)
    (hHead : s.queuedPacketList n = some q) :
    ∃ t, s.freePacket random n q = some t ∧ Freed s t n q := by
  have hList := h.lists n hn
  rw [hHead] at hList
  obtain ⟨rest, hQueue, hRest⟩ := IsList.some_iff.mp hList
  have hTidy := h.takeFirst_tidy hn hQueue
  have hQueues (k : Fin c.maxNeighborQueues) (hk : k ∈ s.neighborList) :
      (s.takeFirst n q).queue k = if k = n then rest else s.queue k :=
    h.queue_takeFirst hn hQueue hk
  cases hNext : s.next q with
  | none =>
      refine ⟨_, freePacket_last random hHead hNext, ?_⟩
      rw [hNext, IsList.none_iff] at hRest
      have hEmpty : (s.takeFirst n q).queue n = [] := by
        rw [hQueues n hn, if_pos rfl, hRest]
      have hMem {k : Fin c.maxNeighborQueues} : k ∈ s.neighborList.erase n ↔
          k ≠ n ∧ k ∈ s.neighborList := h.nodup.mem_erase_iff
      refine ⟨(hTidy.setTimer hn none).dropNeighbor hEmpty (Function.update_self ..), ?_, rfl, rfl,
        fun k hk => ?_, fun p hp => ?_⟩
      · refine waiting_freed h hn hQueue rfl rfl (fun k hk => (hMem.mp hk).2) (fun k hk => ?_)
          fun k hk => hQueues k (hMem.mp hk).2
        by_cases hEq : k = n
        · exact Or.inr ⟨hEq, hRest⟩
        · exact Or.inl (hMem.mpr ⟨hEq, hk⟩)
      · obtain ⟨hNe, hOld⟩ := hMem.mp hk
        exact Or.inr ⟨hNe, hOld, Function.update_of_ne hNe _ _⟩
      · rw [hNext] at hp
        cases hp
  | some p =>
      have hMore : s.next q ≠ none := by simp [hNext]
      refine ⟨_, freePacket_more random hHead hMore, ?_⟩
      rw [hNext] at hRest
      obtain ⟨rest', rfl, -⟩ := IsList.some_iff.mp hRest
      have hFull : (s.takeFirst n q).queue n ≠ [] := by
        rw [hQueues n hn, if_pos rfl]
        exact List.cons_ne_nil _ _
      refine ⟨((hTidy.settle hFull).untouched _ _ _ _ _ _ _).schedule hn random, ?_, rfl, rfl,
        fun k hk => ?_, fun p' hp' => ⟨hn, ?_⟩⟩
      · exact waiting_freed h hn hQueue rfl rfl (fun k hk => hk) (fun k hk => Or.inl hk) hQueues
      · by_cases hEq : k = n
        · refine Or.inl ?_
          dsimp only [State.scheduleTransmission]
          rw [hEq, Function.update_self]
          exact Option.some_ne_none _
        · exact Or.inr ⟨hEq, hk, Function.update_of_ne hEq _ _⟩
      · exact (Function.update_self ..).trans hp'

end FreePacket

/-- What is sent and what is reported for a packet is what was given for it. -/
def Faithful (requests : List Request) : Entry Packetbuf Report → Prop
  | .attempt packet frame => ∃ request, requests[packet]? = some request ∧
      frame.receiver = request.receiver ∧ frame.data = request.packetbuf.data
  | .outcome packet report => ∃ request, requests[packet]? = some request ∧
      report.sent = request.sent ∧ report.ptr = request.ptr

section PacketSent

variable {s t : State c} {n : Fin c.maxNeighborQueues} {q : Fin c.maxQueuedPackets}
  {m : Fin c.maxMetadata} {request : Request} (random : UInt16)

/-- The first packet of a neighbor stays, or leaves with its outcome. -/
structure Turn (s t : State c) (n : Fin c.maxNeighborQueues) (q : Fin c.maxQueuedPackets) :
    Prop where
  tidy : Tidy none t
  service : t.service = s.service ∨
    ∃ report, Faithful s.requests (.outcome (s.number q) report) ∧
      t.service = s.service.finish (s.addr n) (s.number q) report
  timers : ∀ k ∈ t.neighborList,
    t.transmitTimer k ≠ none ∨ k ≠ n ∧ k ∈ s.neighborList ∧ t.transmitTimer k = s.transmitTimer k

/-- The packet that is being sent, as it stands in the queue and in the packet buffer. -/
structure Sending (s : State c) (n : Fin c.maxNeighborQueues) (q : Fin c.maxQueuedPackets)
    (request : Request) : Prop where
  listed : n ∈ s.neighborList
  first : s.queuedPacketList n = some q
  carries : Carries s q request
  found : s.queuebufSeqno q = some s.packetbuf.macSeqno
  seqno : s.packetbuf.macSeqno ≠ 0
  receiver : s.packetbuf.receiver = request.receiver

theorem Sending.mem (h : Sending s n q request) (hTidy : Tidy none s) : q ∈ s.packetMemb := by
  have hList := hTidy.lists n h.listed
  rw [h.first] at hList
  obtain ⟨rest, hQueue, -⟩ := IsList.some_iff.mp hList
  exact (hTidy.packets q).mpr ⟨n, h.listed, by simp [hQueue]⟩

theorem txDone_spec (hTidy : Tidy none s) (h : Sending s n q request) (hPtr : s.ptr q = some m)
    (status : MacTx) :
    ∃ t, s.txDone random status q m n = some t ∧ Turn s t n q ∧
      ∀ p, s.next q = some p → n ∈ t.neighborList ∧ t.queuedPacketList n = some p := by
  obtain ⟨t, hFree, hFreed⟩ := freePacket_spec random hTidy h.listed h.first
  have hNumber : s.number q = (s.metadata m).packet := by rw [State.number, hPtr, Option.elim_some]
  obtain ⟨report, hReport⟩ : ∃ report : Report, report =
    ⟨(s.metadata m).sent, (s.metadata m).cptr, status, (t.transmissions n).toNat⟩ := ⟨_, rfl⟩
  have hDone : s.txDone random status q m n = some (t.macCallSentCallback (s.number q) report) := by
    simp only [State.txDone, hFree, Option.bind_eq_bind, Option.bind_some]
    rw [hNumber, hReport]
  have hFaithful : Faithful s.requests (.outcome (s.number q) report) := by
    rw [hReport]
    exact ⟨request, h.carries.given, h.carries.metadata m hPtr⟩
  have hService : (t.macCallSentCallback (s.number q) report).service =
      s.service.finish (s.addr n) (s.number q) report := by
    show (⟨t.requests, t.waiting, t.history ++ [.outcome (s.number q) report]⟩ : Service ..) = _
    rw [hFreed.requests, hFreed.waiting, hFreed.history]
    rfl
  exact ⟨_, hDone, ⟨hFreed.tidy.untouched _ _ _ _ _ _ _, Or.inr ⟨report, hFaithful, hService⟩,
    hFreed.timers⟩, hFreed.next⟩

theorem updateAttr_eq (s : State c) (b : Option (Fin c.queuebufNum)) :
    ∃ queuebuf, s.queuebufUpdateAttrFromPacketbuf b = { s with queuebuf } := by
  cases b with
  | none => exact ⟨s.queuebuf, rfl⟩
  | some b => exact ⟨_, rfl⟩

theorem rexmit_spec (hTidy : Tidy none s) (h : Sending s n q request) :
    Turn s (s.rexmit random q n) n q := by
  have hScheduled := hTidy.schedule h.listed random
  have hCarries : Carries (s.scheduleTransmission random n) q request :=
    ⟨h.carries.given, h.carries.metadata, h.carries.seqno, h.carries.buffer⟩
  have hUpdated := hScheduled.updateAttr (h.mem hTidy) hCarries h.seqno h.receiver
  obtain ⟨queuebuf, hUpdate⟩ := updateAttr_eq (s.scheduleTransmission random n) (s.buf q)
  have hEq : s.rexmit random q n = { s.scheduleTransmission random n with queuebuf } := hUpdate
  refine ⟨hUpdated, Or.inl ?_, fun k hk => ?_⟩
  · rw [hEq]
    rfl
  · rw [hEq] at hk ⊢
    by_cases hSame : k = n
    · refine Or.inl ?_
      dsimp only [State.scheduleTransmission]
      rw [hSame, Function.update_self]
      exact Option.some_ne_none _
    · exact Or.inr ⟨hSame, hk, Function.update_of_ne hSame _ _⟩

/-- The counters do not matter for what a turn does. -/
theorem Turn.of_counters {transmissions collisions : Fin c.maxNeighborQueues → UInt8}
    (h : Turn { s with transmissions, collisions } t n q) : Turn s t n q :=
  ⟨h.tidy, h.service, h.timers⟩

theorem Sending.counters (h : Sending s n q request)
    (transmissions collisions : Fin c.maxNeighborQueues → UInt8) :
    Sending { s with transmissions, collisions } n q request :=
  ⟨h.listed, h.first, ⟨h.carries.given, h.carries.metadata, h.carries.seqno, h.carries.buffer⟩,
    h.found, h.seqno, h.receiver⟩

theorem txDoneOrRexmit_spec (hTidy : Tidy none s) (h : Sending s n q request)
    (hPtr : s.ptr q = some m) (status : MacTx)
    (transmissions collisions : Fin c.maxNeighborQueues → UInt8) :
    ∃ t, { s with transmissions, collisions }.txDoneOrRexmit random status q m n = some t ∧
      Turn s t n q := by
  have hTidy' := hTidy.untouched s.seqno s.macDsn s.packetbuf transmissions collisions s.sendList
    s.history
  have h' := h.counters transmissions collisions
  rw [State.txDoneOrRexmit]
  split
  · obtain ⟨t, hDone, hTurn, -⟩ := txDone_spec random hTidy' h' hPtr status
    exact ⟨t, hDone, hTurn.of_counters⟩
  · exact ⟨_, rfl, (rexmit_spec random hTidy' h').of_counters⟩

/-- The result of a transmission is taken for the first packet, which was transmitted. -/
theorem packetSent_spec (hTidy : Tidy none s) (h : Sending s n q request) {status : MacTx}
    (hStatus : status ≠ .deferred) (numTransmissions : UInt8) :
    ∃ t, s.packetSent random n status numTransmissions = some t ∧ Turn s t n q ∧
      (status = .ok → ∀ p, s.next q = some p →
        n ∈ t.neighborList ∧ t.queuedPacketList n = some p) := by
  have hMem := h.mem hTidy
  obtain ⟨m, -, hPtr⟩ := (hTidy.exists_blocks hMem).1
  have hFuel : 0 < Fintype.card (Fin c.maxQueuedPackets) := Fintype.card_pos_iff.mpr ⟨q⟩
  have hFind : findLinks s.next (fun p => s.queuebufSeqno p = some s.packetbuf.macSeqno)
      (Fintype.card (Fin c.maxQueuedPackets)) (some q) = some (some q) :=
    findLinks_first (by simpa using h.found) hFuel
  rw [State.packetSent, h.first, hFind]
  simp only [Option.bind_eq_bind, Option.bind_some, hPtr]
  cases status with
  | ok =>
      have hTidy' := hTidy.untouched s.seqno s.macDsn s.packetbuf
        (Function.update s.transmissions n (s.transmissions n + numTransmissions))
        (Function.update s.collisions n csmaMinBe) s.sendList s.history
      obtain ⟨t, hDone, hTurn, hNext⟩ := txDone_spec random hTidy' (h.counters _ _) hPtr .ok
      exact ⟨t, hDone, hTurn.of_counters, fun _ => hNext⟩
  | noack =>
      obtain ⟨t, hDone, hTurn⟩ := txDoneOrRexmit_spec random hTidy h hPtr .noack
        (Function.update s.transmissions n (s.transmissions n + numTransmissions))
        (Function.update s.collisions n csmaMinBe)
      exact ⟨t, hDone, hTurn, fun hOk => by cases hOk⟩
  | collision =>
      obtain ⟨transmissions, collisions, hEq⟩ : ∃ transmissions collisions,
          s.collision random q m n numTransmissions =
            { s with transmissions, collisions }.txDoneOrRexmit random .collision q m n := by
        rw [State.collision]
        dsimp only
        split
        · exact ⟨_, _, rfl⟩
        · exact ⟨s.transmissions, _, rfl⟩
      obtain ⟨t, hDone, hTurn⟩ := txDoneOrRexmit_spec random hTidy h hPtr .collision
        transmissions collisions
      exact ⟨t, hEq.trans hDone, hTurn, fun hOk => by cases hOk⟩
  | deferred => exact absurd rfl hStatus
  | err =>
      obtain ⟨t, hDone, hTurn, -⟩ := txDone_spec random hTidy h hPtr .err
      exact ⟨t, hDone, hTurn, fun hOk => by cases hOk⟩
  | errFatal =>
      obtain ⟨t, hDone, hTurn, -⟩ := txDone_spec random hTidy h hPtr .errFatal
      exact ⟨t, hDone, hTurn, fun hOk => by cases hOk⟩

end PacketSent

/-- What holds between two events. Each neighbor has its timer set or is being served. -/
structure Inv (s : State c) : Prop where
  tidy : Tidy none s
  inOrder : s.service.InOrder Request.receiver
  faithful : ∀ entry ∈ s.history, Faithful s.requests entry
  walk : ∀ n q, s.sendList = some (n, q) → n ∈ s.neighborList ∧ s.queuedPacketList n = some q
  scheduled : ∀ n ∈ s.neighborList, s.transmitTimer n ≠ none ∨ ∃ q, s.sendList = some (n, q)

section Turns

variable {s : State c} {n : Fin c.maxNeighborQueues} {q : Fin c.maxQueuedPackets}

/-- The number of the first packet is the first of its line. -/
theorem waiting_of_first (h : Tidy none s) (hn : n ∈ s.neighborList)
    (hFirst : s.queuedPacketList n = some q) :
    ∃ line, s.waiting (s.addr n) = s.number q :: line := by
  have hList := h.lists n hn
  rw [hFirst] at hList
  obtain ⟨rest, hQueue, -⟩ := IsList.some_iff.mp hList
  exact ⟨rest.map s.number, by rw [waiting_of_mem h hn, hQueue, List.map_cons]⟩

theorem Answers.ret_ne_deferred (a : Answers) (isBroadcast : Bool) (dsn : Byte) :
    a.ret isBroadcast dsn ≠ .deferred := by
  rw [Answers.ret]
  split
  · split
    · split_ifs <;> simp
    · simp
    · simp
  · simp

/-- A sequence number that is set is not changed. -/
theorem framerCreate_of_seqno (a : Answers) (h : s.packetbuf.macSeqno ≠ 0) :
    ∃ created, s.framerCreate a = (s, created) := by
  rw [State.framerCreate]
  split
  · exact ⟨false, rfl⟩
  · exact ⟨a.hdralloc, rfl⟩

/-- Before the result comes in, `send_one_packet` changes the packet buffer and may transmit. -/
theorem sendOnePacket_cases (a : Answers) (packet : Nat) (h : s.packetbuf.macSeqno ≠ 0) :
    ∃ packetbuf : Packetbuf, ∃ history, ∃ ret : MacTx,
      packetbuf.macSeqno = s.packetbuf.macSeqno ∧ packetbuf.receiver = s.packetbuf.receiver ∧
      packetbuf.data = s.packetbuf.data ∧
      (history = s.history ∨ history = s.history ++ [.attempt packet packetbuf]) ∧
      ret ≠ .deferred ∧
      s.sendOnePacket a packet n = ({ s with packetbuf, history }.packetSent a.random n ret 1).map
        fun t => (t, decide (ret = MacTx.ok)) := by
  obtain ⟨packetbuf, hPacketbuf⟩ : ∃ packetbuf : Packetbuf, packetbuf =
    { s.packetbuf with sender := c.linkaddrNodeAddr, macAck := 1 } := ⟨_, rfl⟩
  have hSeqno : packetbuf.macSeqno = s.packetbuf.macSeqno := by rw [hPacketbuf]
  have hReceiver : packetbuf.receiver = s.packetbuf.receiver := by rw [hPacketbuf]
  have hData : packetbuf.data = s.packetbuf.data := by rw [hPacketbuf]
  have hSet : ({ s with packetbuf } : State c).packetbuf.macSeqno ≠ 0 := hSeqno ▸ h
  obtain ⟨created, hCreate⟩ := framerCreate_of_seqno a hSet
  obtain ⟨ret, hRet⟩ : ∃ ret : MacTx, ret = if created = true then
    a.ret (decide (packetbuf.receiver = linkaddrNull)) packetbuf.macSeqno.toUInt8
    else .errFatal := ⟨_, rfl⟩
  have hStatus : ret ≠ .deferred := by
    rw [hRet]
    split
    · exact Answers.ret_ne_deferred a _ _
    · simp
  have hSend : s.sendOnePacket a packet n =
      ((if (created && a.transmits (decide (packetbuf.receiver = linkaddrNull))) = true then
        { s with packetbuf, history := s.history ++ [.attempt packet packetbuf] }
        else { s with packetbuf } : State c).packetSent a.random n ret 1).map
          fun t => (t, decide (ret = MacTx.ok)) := by
    rw [State.sendOnePacket, ← hPacketbuf, hCreate]
    dsimp only
    rw [← hRet]
    simp only [Option.bind_eq_bind, Option.map_eq_bind]
    rfl
  cases hTransmit : created && a.transmits (decide (packetbuf.receiver = linkaddrNull)) with
  | true =>
      rw [hTransmit, if_pos rfl] at hSend
      exact ⟨packetbuf, _, ret, hSeqno, hReceiver, hData, Or.inr rfl, hStatus, hSend⟩
  | false =>
      rw [hTransmit, if_neg Bool.false_ne_true] at hSend
      exact ⟨packetbuf, s.history, ret, hSeqno, hReceiver, hData, Or.inl rfl, hStatus, hSend⟩

/-- A transmission is recorded for the first packet of its neighbor. -/
theorem Inv.attempted (h : Inv s) (hn : n ∈ s.neighborList)
    (hFirst : s.queuedPacketList n = some q) {request : Request} (hCarries : Carries s q request)
    {packetbuf : Packetbuf} (hReceiver : packetbuf.receiver = request.receiver)
    (hData : packetbuf.data = request.packetbuf.data) {history : List (Entry Packetbuf Report)}
    (hHistory : history = s.history ∨ history = s.history ++ [.attempt (s.number q) packetbuf]) :
    Service.InOrder Request.receiver (⟨s.requests, s.waiting, history⟩ : Service ..) ∧
      ∀ entry ∈ history, Faithful s.requests entry := by
  rcases hHistory with rfl | rfl
  · exact ⟨h.inOrder, h.faithful⟩
  · obtain ⟨line, hLine⟩ := waiting_of_first h.tidy hn hFirst
    refine ⟨h.inOrder.attempt hLine packetbuf, fun entry hEntry => ?_⟩
    rcases List.mem_append.mp hEntry with hOld | hNew
    · exact h.faithful entry hOld
    · rw [List.mem_singleton.mp hNew]
      exact ⟨request, hCarries.given, hReceiver, hData⟩

/-- The line stays in order when its first packet stays or leaves with an outcome. -/
theorem Turn.inOrder {t : State c} (h : Turn s t n q) {line : List Nat}
    (hLine : s.waiting (s.addr n) = s.number q :: line)
    (hInOrder : s.service.InOrder Request.receiver)
    (hFaithful : ∀ entry ∈ s.history, Faithful s.requests entry) :
    t.service.InOrder Request.receiver ∧ ∀ entry ∈ t.history, Faithful t.requests entry := by
  rcases h.service with hSame | ⟨report, hReport, hDone⟩
  · have hRequests : t.requests = s.requests := congrArg Service.submitted hSame
    have hHistory : t.history = s.history := congrArg Service.history hSame
    rw [hSame, hRequests, hHistory]
    exact ⟨hInOrder, hFaithful⟩
  · have hRequests : t.requests = s.requests := congrArg Service.submitted hDone
    have hHistory : t.history = s.history ++ [.outcome (s.number q) report] :=
      congrArg Service.history hDone
    rw [hDone, hRequests, hHistory]
    refine ⟨hInOrder.finish hLine report, fun entry hEntry => ?_⟩
    rcases List.mem_append.mp hEntry with hOld | hNew
    · exact hFaithful entry hOld
    · rw [List.mem_singleton.mp hNew]
      exact hReport

/-- One turn of `send_list`. -/
theorem Inv.sendListTurn (h : Inv s) (hWalk : s.sendList = some (n, q)) (a : Answers) :
    ∃ t, s.sendListTurn a = some t ∧ Inv t := by
  obtain ⟨hn, hFirst⟩ := h.walk n q hWalk
  have hList := h.tidy.lists n hn
  rw [hFirst] at hList
  obtain ⟨rest, hQueue, -⟩ := IsList.some_iff.mp hList
  have hMem : q ∈ s.packetMemb := (h.tidy.packets q).mpr ⟨n, hn, by simp [hQueue]⟩
  obtain ⟨request, hCarries⟩ := h.tidy.carries q hMem
  obtain ⟨b, -, hBuf⟩ := (h.tidy.exists_blocks hMem).2
  have hLoaded : ({ s with packetbuf := s.queuebuf b } : State c).packetbuf.macSeqno ≠ 0 :=
    hCarries.seqno b hBuf
  obtain ⟨packetbuf, history, ret, hSeqno, hReceiver, hData, hHistory, hRet, hSend⟩ :=
    sendOnePacket_cases (n := n) a (s.number q) hLoaded
  have hReceiver' : packetbuf.receiver = request.receiver :=
    hReceiver.trans (hCarries.buffer b hBuf).1
  have hData' : packetbuf.data = request.packetbuf.data := hData.trans (hCarries.buffer b hBuf).2
  have hTidy := h.tidy.untouched s.seqno s.macDsn packetbuf s.transmissions s.collisions s.sendList
    history
  have hSending : Sending { s with packetbuf, history } n q request := by
    refine ⟨hn, hFirst, ⟨hCarries.given, hCarries.metadata, hCarries.seqno, hCarries.buffer⟩, ?_,
      ?_, hReceiver'⟩
    · dsimp only [State.queuebufSeqno]
      rw [hBuf, Option.map_some, hSeqno]
    · dsimp only
      rw [hSeqno]
      exact hLoaded
  obtain ⟨hInOrder, hFaithful⟩ := h.attempted hn hFirst hCarries hReceiver' hData' hHistory
  obtain ⟨line, hLine⟩ := waiting_of_first h.tidy hn hFirst
  obtain ⟨t, hSent, hTurn, hNext⟩ := packetSent_spec a.random hTidy hSending hRet 1
  obtain ⟨hInOrder', hFaithful'⟩ := hTurn.inOrder hLine hInOrder hFaithful
  have hStep : s.sendListTurn a = some { t with
      sendList := if decide (ret = MacTx.ok) = true then (s.next q).map fun p => (n, p) else none }
      := by
    have hLoad : s.queuebufToPacketbuf (s.buf q) = { s with packetbuf := s.queuebuf b } := by
      rw [hBuf]
      rfl
    rw [State.sendListTurn, hWalk]
    dsimp only
    rw [hLoad, hSend, hSent]
    rfl
  refine ⟨_, hStep, hTurn.tidy.untouched _ _ _ _ _ _ _, hInOrder', hFaithful',
    fun k p hNow => ?_, fun k hk => ?_⟩
  · dsimp only at hNow
    split at hNow
    · rename_i hOk
      obtain ⟨p', hp', hEq⟩ := Option.map_eq_some_iff.mp hNow
      obtain ⟨rfl, rfl⟩ := Prod.mk.inj hEq
      exact hNext (of_decide_eq_true hOk) p' hp'
    · cases hNow
  · refine Or.inl ?_
    rcases hTurn.timers k hk with hSet | ⟨hNe, hOld, hSame⟩
    · exact hSet
    · rcases h.scheduled k hOld with hTimer | ⟨p, hOther⟩
      · dsimp only at hSame ⊢
        rw [hSame]
        exact hTimer
      · rw [hWalk] at hOther
        obtain ⟨rfl, -⟩ := Prod.mk.inj (Option.some.inj hOther)
        exact absurd rfl hNe

end Turns

end Smarthome.Csma
