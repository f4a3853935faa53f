import Smarthome.Csma.Transmissions

/-! Every packet that `csma.c` is given has one outcome, and no packet overtakes another on
the way to the same neighbor. -/
namespace Smarthome.Csma

open Contiki Semantics

variable {c : Config}

section Lines

variable {s t : State c} {fresh fresh' : Option (Fin c.maxNeighborQueues)}

/-- Entries without packets do not matter for the lines. -/
theorem waiting_congr (hs : Tidy fresh s) (ht : Tidy fresh' t)
    (hOld : ∀ k ∈ s.neighborList, s.queue k ≠ [] → k ∈ t.neighborList)
    (hNew : ∀ k ∈ t.neighborList, t.queue k ≠ [] → k ∈ s.neighborList)
    (hSame : ∀ k ∈ s.neighborList, k ∈ t.neighborList →
      t.addr k = s.addr k ∧ (t.queue k).map t.number = (s.queue k).map s.number) :
    t.waiting = s.waiting := by
  funext addr
  by_cases hLine : ∃ k ∈ s.neighborList, s.addr k = addr ∧ s.queue k ≠ []
  · obtain ⟨k, hk, rfl, hQueue⟩ := hLine
    have hk' := hOld k hk hQueue
    obtain ⟨hAddr, hNumbers⟩ := hSame k hk hk'
    rw [waiting_of_mem hs hk, ← hAddr, waiting_of_mem ht hk', hNumbers]
  · have hEmpty : s.waiting addr = [] := by
      refine waiting_eq (fun k hk hAddr => ?_) fun _ => rfl
      by_contra hNot
      refine hLine ⟨k, hk, hAddr, fun hQueue => hNot ?_⟩
      rw [hQueue, List.map_nil]
    rw [hEmpty]
    refine waiting_eq (fun k hk hAddr => ?_) fun _ => rfl
    by_contra hNot
    have hQueue : t.queue k ≠ [] := fun hQueue => hNot (by rw [hQueue, List.map_nil])
    have hk' := hNew k hk hQueue
    obtain ⟨hAddr', hNumbers⟩ := hSame k hk' hk
    refine hLine ⟨k, hk', hAddr'.symm.trans hAddr, fun hNone => hNot ?_⟩
    rw [hNumbers, hNone, List.map_nil]

end Lines

/-- What a call of `send_packet` leaves alone: queues that have packets keep their first one,
and timers that are set stay set. -/
structure Kept (s t : State c) : Prop where
  sendList : t.sendList = s.sendList
  first : ∀ k ∈ s.neighborList, s.queue k ≠ [] →
    k ∈ t.neighborList ∧ t.queuedPacketList k = s.queuedPacketList k
  timers : ∀ k ∈ t.neighborList, t.transmitTimer k ≠ none ∨
    k ∈ s.neighborList ∧ s.queue k ≠ [] ∧ t.transmitTimer k = s.transmitTimer k

section QueuePacket

variable {s : State c} {n : Fin c.maxNeighborQueues} {request : Request} {packet : Nat}
  (random : UInt16)

/-- A packet that is refused leaves the queues as they were, without an entry that has none. -/
theorem releaseNeighbor_spec (h : Tidy (some n) s) (hn : n ∈ s.neighborList)
    (hTimer : s.queue n = [] → s.transmitTimer n = none) :
    ∃ t, s.releaseNeighbor n = some t ∧ Tidy none t ∧ t.waiting = s.waiting ∧
      t.requests = s.requests ∧ t.history = s.history ∧ Kept s t := by
  have hLength := listLength_eq (h.lists n hn)
  by_cases hQueue : s.queue n = []
  · have hTidy := h.dropNeighbor hQueue (hTimer hQueue)
    have hMem {k : Fin c.maxNeighborQueues} : k ∈ s.neighborList.erase n ↔
        k ≠ n ∧ k ∈ s.neighborList := h.nodup.mem_erase_iff
    have hStep : s.releaseNeighbor n = some { s with
        neighborList := s.neighborList.erase n
        neighborMemb := s.neighborMemb.erase n } := by
      simp only [State.releaseNeighbor, hLength, hQueue, Option.bind_eq_bind, Option.bind_some]
      rfl
    refine ⟨_, hStep, hTidy, ?_, rfl, rfl, rfl, fun k hk hFull => ⟨hMem.mpr ⟨?_, hk⟩, rfl⟩,
      fun k hk => ?_⟩
    · refine waiting_congr h hTidy (fun k hk hFull => hMem.mpr ⟨?_, hk⟩)
        (fun k hk _ => (hMem.mp hk).2) fun k _ _ => ⟨rfl, rfl⟩
      rintro rfl
      exact hFull hQueue
    · rintro rfl
      exact hFull hQueue
    · obtain ⟨hNe, hOld⟩ := hMem.mp hk
      refine Or.inr ⟨hOld, fun hEmpty => ?_, rfl⟩
      exact hNe (Option.some.inj (h.nonempty k hOld hEmpty))
  · have hStep : s.releaseNeighbor n = some s := by
      have hPos : (s.queue n).length ≠ 0 := fun hZero => hQueue (List.eq_nil_of_length_eq_zero hZero)
      simp only [State.releaseNeighbor, hLength, Option.bind_eq_bind, Option.bind_some]
      rw [if_neg hPos]
    have hTidy := h.settle hQueue
    refine ⟨s, hStep, hTidy, rfl, rfl, rfl, rfl, fun k hk _ => ⟨hk, rfl⟩, fun k hk => ?_⟩
    have hFull : s.queue k ≠ [] := by
      intro hEmpty
      cases hTidy.nonempty k hk hEmpty
    exact Or.inr ⟨hk, hFull, rfl⟩

/-- Blocks that are not in use do not matter for the lines. -/
theorem waiting_overwrite (h : Tidy (some n) s)
    {ptr : Fin c.maxQueuedPackets → Option (Fin c.maxMetadata)}
    {buf : Fin c.maxQueuedPackets → Option (Fin c.queuebufNum)}
    (hPtr : ∀ p ∈ s.packetMemb, ptr p = s.ptr p) (hBuf : ∀ p ∈ s.packetMemb, buf p = s.buf p) :
    ({ s with ptr, buf } : State c).waiting = s.waiting := by
  refine waiting_congr h (h.overwrite hPtr hBuf) (fun _ hk _ => hk) (fun _ hk _ => hk)
    fun k hk _ => ⟨rfl, List.map_congr_left fun p hp => ?_⟩
  dsimp only [State.number]
  rw [hPtr p ((h.packets p).mpr ⟨k, hk, hp⟩)]

/-- The packet that a call has brought is in the packet buffer. -/
structure Brought (s : State c) (packet : Nat) (request : Request) : Prop where
  given : s.requests[packet]? = some request
  seqno : s.packetbuf.macSeqno ≠ 0
  receiver : s.packetbuf.receiver = request.receiver
  data : s.packetbuf.data = request.packetbuf.data

section Append

variable {q : Fin c.maxQueuedPackets} {m : Fin c.maxMetadata} {b : Fin c.queuebufNum}
  {metadata : QbufMetadata} {list : Option (Fin c.maxQueuedPackets)}
  {next : Fin c.maxQueuedPackets → Option (Fin c.maxQueuedPackets)}

/-- The new packet is the last of the line of its neighbor. -/
theorem waiting_appended (metadata : QbufMetadata) (h : Tidy (some n) s) (hn : n ∈ s.neighborList)
    (hq : q ∉ s.packetMemb) (hm : m ∉ s.metadataMemb) (hb : b ∉ s.bufmem)
    (hList : IsList next list (s.queue n ++ [q]))
    (hOther : ∀ p ∉ q :: s.queue n, next p = s.next p) :
    ((s.allocated q m b).appended n m metadata list next).waiting =
      Function.update s.waiting (s.addr n) (s.waiting (s.addr n) ++ [metadata.packet]) := by
  have hNumbers {k : Fin c.maxNeighborQueues} (hk : k ∈ s.neighborList) :
      (s.queue k).map ((s.allocated q m b).appended n m metadata list next).number =
        (s.queue k).map s.number := by
    refine List.map_congr_left fun p hp => ?_
    have hUsed : p ∈ s.packetMemb := (h.packets p).mpr ⟨k, hk, hp⟩
    obtain ⟨old, hCarries⟩ := h.carries p hUsed
    exact (h.carries_appended hq hm hb hUsed hCarries).1
  funext addr
  refine waiting_eq (fun k hk hAddr => ?_) fun hNone => ?_
  · obtain rfl : s.addr k = addr := hAddr
    rw [h.queue_appended hn hq hList hOther hk]
    by_cases hSame : k = n
    · rw [if_pos hSame, hSame, Function.update_self, waiting_of_mem h hn, List.map_append,
        hNumbers hn, List.map_singleton, Tidy.number_appended]
    · have hNe : s.addr k ≠ s.addr n := fun hAddrs => hSame (h.addrs k hk n hn hAddrs)
      rw [if_neg hSame, Function.update_of_ne hNe, waiting_of_mem h hk, hNumbers hk]
  · have hNe : addr ≠ s.addr n := fun hAddr => hNone n hn hAddr.symm
    rw [Function.update_of_ne hNe]
    exact waiting_of_none hNone

/-- The new packet is the first only of a queue that has been empty. -/
theorem first_appended (h : Tidy (some n) s) (hn : n ∈ s.neighborList) (hq : q ∉ s.packetMemb)
    (hList : IsList next list (s.queue n ++ [q])) :
    list = some q ∧ s.queue n = [] ∨
      list ≠ some q ∧ s.queue n ≠ [] ∧ list = s.queuedPacketList n := by
  have hOld := h.lists n hn
  cases hQueue : s.queue n with
  | nil =>
      rw [hQueue] at hList
      exact Or.inl ⟨hList.1, rfl⟩
  | cons p rest =>
      rw [hQueue] at hList hOld
      have hNe : p ≠ q := by
        rintro rfl
        exact h.notMem_queue hq hn (by simp [hQueue])
      have hFirst : list = some p := hList.1
      refine Or.inr ⟨?_, List.cons_ne_nil _ _, hFirst.trans hOld.1.symm⟩
      rw [hFirst]
      exact fun hSame => hNe (Option.some.inj hSame)

end Append

theorem enqueue_spec (h : Tidy (some n) s) (hn : n ∈ s.neighborList)
    (hBrought : Brought s packet request) {q : Fin c.maxQueuedPackets} {m : Fin c.maxMetadata}
    {b : Fin c.queuebufNum} (hq : q ∉ s.packetMemb) (hm : m ∉ s.metadataMemb)
    (hb : b ∉ s.bufmem) :
    ∃ t, (s.allocated q m b).enqueue random packet request.sent request.ptr n q m = some t ∧
      Tidy none t ∧ t.waiting = Function.update s.waiting (s.addr n)
        (s.waiting (s.addr n) ++ [packet]) ∧
      t.requests = s.requests ∧ t.history = s.history ∧ Kept s t := by
  obtain ⟨list, next, hAdd, hList, hOther⟩ := listAdd_eq (h.lists n hn) (h.notMem_queue hq hn)
  obtain ⟨metadata, hMetadata⟩ : ∃ metadata : QbufMetadata, metadata = ⟨request.sent, request.ptr,
    if s.packetbuf.maxMacTransmissions = 0 then csmaMaxMaxFrameRetries + 1
    else s.packetbuf.maxMacTransmissions.toUInt8, packet⟩ := ⟨_, rfl⟩
  have hNew : Carries ((s.allocated q m b).appended n m metadata list next) q request := by
    refine Tidy.carries_new ?_ ?_ ?_ hBrought.seqno hBrought.receiver hBrought.data
    · rw [hMetadata]
      exact hBrought.given
    · rw [hMetadata]
    · rw [hMetadata]
  have hTidy := h.appended hn hq hm hb hList hOther hNew
  have hWaiting := waiting_appended metadata h hn hq hm hb hList hOther
  rw [hMetadata] at hWaiting hTidy
  have hStep : (s.allocated q m b).enqueue random packet request.sent request.ptr n q m = some
      (if list = some q then
        ((s.allocated q m b).appended n m metadata list next).scheduleTransmission random n
      else (s.allocated q m b).appended n m metadata list next) := by
    have hAdd' : listAdd (s.allocated q m b).next ((s.allocated q m b).queuedPacketList n) q =
        some (list, next) := hAdd
    simp only [State.enqueue, hAdd', Option.bind_eq_bind, Option.bind_some, hMetadata]
    rw [Function.update_self]
    rfl
  rw [hStep, hMetadata]
  rcases first_appended h hn hq hList with ⟨hFirst, hEmpty⟩ | ⟨hNot, hFull, hSame⟩
  · rw [if_pos hFirst]
    refine ⟨_, rfl, hTidy.schedule hn random, hWaiting, rfl, rfl, rfl, fun k hk hQueue =>
      ⟨hk, ?_⟩, fun k hk => ?_⟩
    · refine Function.update_of_ne ?_ _ _
      rintro rfl
      exact hQueue hEmpty
    · by_cases hSame : k = n
      · refine Or.inl ?_
        dsimp only [State.scheduleTransmission]
        rw [hSame, Function.update_self]
        exact Option.some_ne_none _
      · refine Or.inr ⟨hk, fun hNone => ?_, Function.update_of_ne hSame _ _⟩
        exact hSame (Option.some.inj (h.nonempty k hk hNone))
  · rw [if_neg hNot]
    refine ⟨_, rfl, hTidy, hWaiting, rfl, rfl, rfl, fun k hk _ => ⟨hk, ?_⟩, fun k hk =>
      Or.inr ⟨hk, fun hNone => ?_, rfl⟩⟩
    · dsimp only [State.appended, State.allocated]
      rw [hSame, Function.update_eq_self]
    · obtain rfl := Option.some.inj (h.nonempty k hk hNone)
      exact hFull hNone

/-- What a call does for its packet, which is refused or waits behind the others. -/
structure Handled (s t : State c) (n : Fin c.maxNeighborQueues) (packet : Nat)
    (request : Request) : Prop where
  tidy : Tidy none t
  requests : t.requests = s.requests
  kept : Kept s t
  done : t.waiting = s.waiting ∧
      t.history = s.history ++ [.outcome packet ⟨request.sent, request.ptr, .err, 1⟩] ∨
    t.waiting = Function.update s.waiting (s.addr n) (s.waiting (s.addr n) ++ [packet]) ∧
      t.history = s.history

theorem queuePacket_spec (h : Tidy (some n) s) (hn : n ∈ s.neighborList)
    (hTimer : s.queue n = [] → s.transmitTimer n = none) (hBrought : Brought s packet request) :
    ∃ t, s.queuePacket random packet request n = some t ∧ Handled s t n packet request := by
  have hLength := listLength_eq (h.lists n hn)
  simp only [State.queuePacket, hLength, Option.bind_eq_bind, Option.bind_some]
  by_cases hRoom : (s.queue n).length < c.maxPacketPerNeighbor
  · rw [if_pos hRoom]
    rcases Tidy.allocPacket_cases s with ⟨q, hq, m, hm, b, hb, hAlloc⟩ | ⟨ptr, buf, hPtr, hBuf, hAlloc⟩
    · obtain ⟨t, hStep, hTidy, hWaiting, hRequests, hHistory, hKept⟩ :=
        enqueue_spec random h hn hBrought hq hm hb
      rw [hAlloc]
      exact ⟨t, hStep, hTidy, hRequests, hKept, Or.inr ⟨hWaiting, hHistory⟩⟩
    · obtain ⟨t, hStep, hTidy, hWaiting, hRequests, hHistory, hKept⟩ :=
        releaseNeighbor_spec (h.overwrite hPtr hBuf) hn hTimer
      rw [hAlloc]
      dsimp only
      rw [hStep]
      refine ⟨_, rfl, hTidy.untouched _ _ _ _ _ _ _, hRequests,
        ⟨hKept.sendList, hKept.first, hKept.timers⟩, Or.inl ⟨?_, ?_⟩⟩
      · exact hWaiting.trans (waiting_overwrite h hPtr hBuf)
      · exact congrArg (· ++ _) hHistory
  · rw [if_neg hRoom]
    have hFull : s.queue n ≠ [] := by
      intro hEmpty
      rw [hEmpty] at hRoom
      exact hRoom c.maxPacketPerNeighbor_pos
    have hTidy := h.settle hFull
    refine ⟨_, rfl, hTidy.untouched _ _ _ _ _ _ _, rfl, ⟨rfl, fun k hk _ => ⟨hk, rfl⟩,
      fun k hk => Or.inr ⟨hk, fun hEmpty => ?_, rfl⟩⟩, Or.inl ⟨rfl, rfl⟩⟩
    cases hTidy.nonempty k hk hEmpty

end QueuePacket

section SendPacket

variable {s : State c} {n : Fin c.maxNeighborQueues}

/-- A new entry does not matter for the lines. -/
theorem waiting_addNeighbor (h : Tidy none s) (hFree : n ∉ s.neighborMemb) {addr : Linkaddr}
    (hNew : ∀ m ∈ s.neighborList, s.addr m ≠ addr) :
    (s.addNeighbor n addr).waiting = s.waiting := by
  refine waiting_congr h (h.addNeighbor hFree hNew)
    (fun k hk _ => (h.mem_addNeighbor hFree).mpr (Or.inl hk)) (fun k hk hFull => ?_)
    fun k hk _ => ⟨Function.update_of_ne (h.ne_of_listed hFree hk) _ _, ?_⟩
  · refine ((h.mem_addNeighbor hFree).mp hk).resolve_right fun hSame => hFull ?_
    rw [Tidy.queue_addNeighbor, if_pos hSame]
  · rw [Tidy.queue_addNeighbor, if_neg (h.ne_of_listed hFree hk)]
    rfl

/-- What is kept behind a new entry has been kept. -/
theorem Kept.of_addNeighbor {t : State c} (h : Tidy none s) (hFree : n ∉ s.neighborMemb)
    {addr : Linkaddr} (hKept : Kept (s.addNeighbor n addr) t) : Kept s t := by
  have hQueue {k : Fin c.maxNeighborQueues} (hk : k ∈ s.neighborList) :
      (s.addNeighbor n addr).queue k = s.queue k := by
    rw [Tidy.queue_addNeighbor, if_neg (h.ne_of_listed hFree hk)]
  refine ⟨hKept.sendList, fun k hk hFull => ?_, fun k hk => ?_⟩
  · obtain ⟨hListed, hFirst⟩ := hKept.first k ((h.mem_addNeighbor hFree).mpr (Or.inl hk))
      (by rwa [hQueue hk])
    exact ⟨hListed, hFirst.trans (Function.update_of_ne (h.ne_of_listed hFree hk) _ _)⟩
  · rcases hKept.timers k hk with hSet | ⟨hListed, hFull, hSame⟩
    · exact Or.inl hSet
    · rcases (h.mem_addNeighbor hFree).mp hListed with hOld | rfl
      · rw [hQueue hOld] at hFull
        exact Or.inr ⟨hOld, hFull, hSame⟩
      · rw [Tidy.queue_addNeighbor, if_pos rfl] at hFull
        exact absurd rfl hFull

/-- The packet of a call is refused or is the last of the line of its receiver. -/
theorem queued_spec (random : UInt16) (h : Tidy none s) (packet : Nat) {request : Request}
    (hBrought : Brought s packet request) :
    ∃ t, (match s.neighborQueue request.receiver with
        | (s, some n) => s.queuePacket random packet request n
        | (s, none) =>
            some (s.macCallSentCallback packet ⟨request.sent, request.ptr, .err, 1⟩)) = some t ∧
      Tidy none t ∧ t.requests = s.requests ∧ Kept s t ∧
      (t.waiting = s.waiting ∧
          t.history = s.history ++ [.outcome packet ⟨request.sent, request.ptr, .err, 1⟩] ∨
        t.waiting = Function.update s.waiting request.receiver
          (s.waiting request.receiver ++ [packet]) ∧ t.history = s.history) := by
  rw [State.neighborQueue]
  cases hFind : s.neighborQueueFromAddr request.receiver with
  | some n =>
      have hn : n ∈ s.neighborList := List.mem_of_find?_eq_some hFind
      have hAddr : s.addr n = request.receiver := by simpa using List.find?_some hFind
      have hTimer : s.queue n = [] → s.transmitTimer n = none := by
        intro hEmpty
        cases h.nonempty n hn hEmpty
      obtain ⟨t, hStep, hDone⟩ := queuePacket_spec random h.weaken hn hTimer hBrought
      have hResult := hDone.done
      rw [hAddr] at hResult
      exact ⟨t, hStep, hDone.tidy, hDone.requests, hDone.kept, hResult⟩
  | none =>
      have hNew : ∀ m ∈ s.neighborList, s.addr m ≠ request.receiver := by
        intro m hm
        simpa using List.find?_eq_none.mp hFind m hm
      cases hAlloc : s.neighborMemb.alloc with
      | none =>
          refine ⟨_, rfl, h.untouched _ _ _ _ _ _ _, rfl, ⟨rfl, fun k hk _ => ⟨hk, rfl⟩,
            fun k hk => Or.inr ⟨hk, fun hEmpty => ?_, rfl⟩⟩, Or.inl ⟨rfl, rfl⟩⟩
          cases h.nonempty k hk hEmpty
      | some n =>
          have hFree := BlockPool.not_mem_of_alloc hAlloc
          have hAddr : (s.addNeighbor n request.receiver).addr n = request.receiver :=
            Function.update_self ..
          have hTimer : (s.addNeighbor n request.receiver).transmitTimer n = none := by
            by_contra hSet
            exact hFree ((h.neighbors n).mpr (h.timers n hSet))
          have hBrought' : Brought (s.addNeighbor n request.receiver) packet request :=
            ⟨hBrought.given, hBrought.seqno, hBrought.receiver, hBrought.data⟩
          obtain ⟨t, hStep, hDone⟩ := queuePacket_spec random (h.addNeighbor hFree hNew)
            ((h.mem_addNeighbor hFree).mpr (Or.inr rfl)) (fun _ => hTimer) hBrought'
          have hResult := hDone.done
          rw [hAddr, waiting_addNeighbor h hFree hNew] at hResult
          exact ⟨t, hStep, hDone.tidy, hDone.requests, hDone.kept.of_addNeighbor h hFree, hResult⟩

theorem Faithful.append {requests : List Request} {entry : Entry Packetbuf Report}
    (h : Faithful requests entry) (request : Request) : Faithful (requests ++ [request]) entry := by
  have hOld {packet : Nat} {given : Request} (hGiven : requests[packet]? = some given) :
      (requests ++ [request])[packet]? = some given := by
    have hLess := (List.getElem?_eq_some_iff.mp hGiven).1
    rwa [List.getElem?_append_left hLess]
  cases entry with
  | attempt packet frame =>
      obtain ⟨given, hGiven, hRest⟩ := h
      exact ⟨given, hOld hGiven, hRest⟩
  | outcome packet report =>
      obtain ⟨given, hGiven, hRest⟩ := h
      exact ⟨given, hOld hGiven, hRest⟩

/-- The walk of `send_list` and the timers are as before, apart from timers that are set. -/
theorem Inv.of_kept {t : State c} (h : Inv s) (hKept : Kept s t) :
    (∀ n q, t.sendList = some (n, q) → n ∈ t.neighborList ∧ t.queuedPacketList n = some q) ∧
      ∀ n ∈ t.neighborList, t.transmitTimer n ≠ none ∨ ∃ q, t.sendList = some (n, q) := by
  refine ⟨fun n q hWalk => ?_, fun n hn => ?_⟩
  · rw [hKept.sendList] at hWalk
    obtain ⟨hn, hFirst⟩ := h.walk n q hWalk
    have hFull : s.queue n ≠ [] := by
      intro hEmpty
      cases h.tidy.nonempty n hn hEmpty
    obtain ⟨hListed, hSame⟩ := hKept.first n hn hFull
    exact ⟨hListed, hSame.trans hFirst⟩
  · rw [hKept.sendList]
    rcases hKept.timers n hn with hSet | ⟨hOld, -, hSame⟩
    · exact Or.inl hSet
    · rw [hSame]
      exact h.scheduled n hOld

/-- One call of `send_packet`. -/
theorem Inv.sendPacket (h : Inv s) (random : UInt16) (request : Request) :
    ∃ t, s.sendPacket random request = some t ∧ Inv t := by
  have hSeqno : (if s.seqno = 0 then 1 else s.seqno) ≠ 0 := by
    split
    · decide
    · assumption
  have hTidy := (h.tidy.submit request).untouched ((if s.seqno = 0 then 1 else s.seqno) + 1)
    s.macDsn { request.packetbuf with macSeqno := if s.seqno = 0 then 1 else s.seqno }
    s.transmissions s.collisions s.sendList s.history
  obtain ⟨t, hStep, hTidy', hRequests, hKept, hDone⟩ := queued_spec random hTidy
    s.requests.length ⟨List.getElem?_concat_length, hSeqno, rfl, rfl⟩
  have hKept' : Kept s t := ⟨hKept.sendList, hKept.first, hKept.timers⟩
  obtain ⟨hWalk, hScheduled⟩ := h.of_kept hKept'
  refine ⟨t, hStep, hTidy', ?_, ?_, hWalk, hScheduled⟩
  · rcases hDone with ⟨hWaiting, hHistory⟩ | ⟨hWaiting, hHistory⟩
    · have hService : t.service = s.service.refuse request ⟨request.sent, request.ptr, .err, 1⟩ := by
        rw [State.service, hRequests, hWaiting, hHistory]
        rfl
      rw [hService]
      exact h.inOrder.refuse request _
    · have hService : t.service = s.service.enlist Request.receiver request := by
        rw [State.service, hRequests, hWaiting, hHistory]
        rfl
      rw [hService]
      exact h.inOrder.enlist request
  · rw [hRequests]
    intro entry hEntry
    have hCases : entry ∈ s.history ∨
        entry = .outcome s.requests.length ⟨request.sent, request.ptr, .err, 1⟩ := by
      rcases hDone with ⟨-, hHistory⟩ | ⟨-, hHistory⟩
      · rw [hHistory, List.mem_append, List.mem_singleton] at hEntry
        exact hEntry
      · rw [hHistory] at hEntry
        exact Or.inl hEntry
    rcases hCases with hOld | rfl
    · exact (h.faithful entry hOld).append request
    · exact ⟨request, List.getElem?_concat_length, rfl, rfl⟩

end SendPacket

section Steps

variable {s t : State c}

theorem Inv.init (seqno : UInt16) (macDsn : UInt8) : Inv (State.init c seqno macDsn) where
  tidy := Tidy.init seqno macDsn
  inOrder := Service.InOrder.empty
  faithful entry hEntry := by cases hEntry
  walk n q hWalk := by cases hWalk
  scheduled n hn := by cases hn

/-- The timer of a neighbor expires. -/
theorem Inv.transmitPacketList (h : Inv s) {n : Fin c.maxNeighborQueues}
    (hIdle : s.sendList = none) (hTimer : s.transmitTimer n ≠ none) :
    Inv (s.transmitPacketList n) := by
  have hn := h.tidy.timers n hTimer
  refine ⟨(h.tidy.setTimer hn none).untouched _ _ _ _ _ _ _, h.inOrder, h.faithful,
    fun k q hWalk => ?_, fun k hk => ?_⟩
  · obtain ⟨q', hFirst, hEq⟩ := Option.map_eq_some_iff.mp hWalk
    obtain ⟨rfl, rfl⟩ := Prod.mk.inj hEq
    exact ⟨hn, hFirst⟩
  · by_cases hSame : k = n
    · have hFirst : s.queuedPacketList n ≠ none := by
        intro hNone
        have hList := h.tidy.lists n hn
        rw [hNone, IsList.none_iff] at hList
        cases h.tidy.nonempty n hn hList
      obtain ⟨q, hq⟩ := Option.ne_none_iff_exists'.mp hFirst
      refine Or.inr ⟨q, ?_⟩
      dsimp only [State.transmitPacketList]
      rw [hq, hSame, Option.map_some]
    · refine Or.inl ?_
      dsimp only [State.transmitPacketList]
      rw [Function.update_of_ne hSame]
      rcases h.scheduled k hk with hSet | ⟨q, hWalk⟩
      · exact hSet
      · rw [hIdle] at hWalk
        cases hWalk

/-- Every event that is possible has an end, after which all holds as before. -/
theorem Inv.step (h : Inv s) {event : Event c} (hPossible : Possible c s event) :
    ∃ t, step c s event = some t ∧ Inv t := by
  cases event with
  | sendPacket random request => exact h.sendPacket random request
  | expire n => exact ⟨_, rfl, h.transmitPacketList hPossible.1 hPossible.2⟩
  | sendListTurn a =>
      obtain ⟨⟨n, q⟩, hWalk⟩ := Option.ne_none_iff_exists'.mp hPossible
      exact h.sendListTurn hWalk a
  | queuebufNew contents =>
      cases hAlloc : s.bufmem.alloc with
      | none =>
          refine ⟨{ s with packetbuf := contents }, ?_, h.tidy.untouched _ _ _ _ _ _ _, h.inOrder,
            h.faithful, h.walk, h.scheduled⟩
          simp only [Csma.step, State.queuebufNewFromPacketbuf, hAlloc]
      | some b =>
          have hb := BlockPool.not_mem_of_alloc hAlloc
          have hLent := (h.tidy.untouched s.seqno s.macDsn contents s.transmissions s.collisions
            s.sendList s.history).lend hb contents
          refine ⟨_, ?_, hLent, h.inOrder, h.faithful, h.walk, h.scheduled⟩
          simp only [Csma.step, State.queuebufNewFromPacketbuf, hAlloc]
  | queuebufFree b =>
      exact ⟨_, rfl, h.tidy.giveBack hPossible, h.inOrder, h.faithful, h.walk, h.scheduled⟩

end Steps

/-- Every packet has one outcome at most, and has it when nothing waits for its receiver any
more; nothing overtakes; and the packets of the queues are those that blocks and queue buffers
are held for. -/
structure Accounted (s : State c) : Prop where
  once : ∀ packet, outcomes s.history packet ≤ 1
  finished : ∀ packet request, s.requests[packet]? = some request →
    s.waiting request.receiver = [] → outcomes s.history packet = 1
  unfinished : ∀ packet request, s.requests[packet]? = some request →
    packet ∈ s.waiting request.receiver → outcomes s.history packet = 0
  ordered : ∀ before packet frame, before ++ [.attempt packet frame] <+: s.history →
    ∀ earlier < packet,
      s.requests[earlier]?.map Request.receiver = s.requests[packet]?.map Request.receiver →
      ∃ report, .outcome earlier report ∈ before
  faithful : ∀ entry ∈ s.history, Faithful s.requests entry
  ends : ∀ n ∈ s.neighborList, IsList s.next (s.queuedPacketList n) (s.queue n)
  nonempty : ∀ n ∈ s.neighborList, s.queue n ≠ []
  nodup : s.queued.Nodup
  packets : ∀ q, q ∈ s.packetMemb ↔ q ∈ s.queued
  metadata : Assigned s.packetMemb s.ptr s.metadataMemb
  buffers : Assigned s.packetMemb s.buf s.buffers

theorem Inv.accounted {s : State c} (h : Inv s) : Accounted s where
  once := h.inOrder.outcomes_le_one
  finished packet request hGiven hEmpty := by
    have hNot : packet ∉ s.waiting request.receiver := by
      rw [hEmpty]
      exact List.not_mem_nil
    exact h.inOrder.outcomes_eq_one hGiven hNot
  unfinished packet request _ hWaits := h.inOrder.outcomes_eq_zero hWaits
  ordered before packet frame hPrefix earlier hLess hSame :=
    exists_of_outcomes (h.inOrder.ordered before packet frame hPrefix earlier hLess hSame)
  faithful := h.faithful
  ends := h.tidy.lists
  nonempty n hn hEmpty := by cases h.tidy.nonempty n hn hEmpty
  nodup := by
    refine List.nodup_flatMap.mpr ⟨fun n hn => (h.tidy.lists n hn).nodup, ?_⟩
    refine h.tidy.nodup.imp_of_mem fun hn hm hNe => ?_
    exact fun q hq hq' => hNe (h.tidy.apart _ hn _ hm q hq hq')
  packets q := by rw [h.tidy.packets q, State.queued, List.mem_flatMap]
  metadata := h.tidy.metadata
  buffers := h.tidy.buffers

/-- **Every packet has one outcome.** Whatever is sent to whom, whichever allocations fail,
whenever timers expire and whatever the radio answers, packets, blocks and queue buffers stay
in step, the queues are served in order, and each callback is called once. Every call ends. -/
theorem packets_accounted (c : Config) (seqno : UInt16) (macDsn : UInt8) {s : State c}
    (run : Reaches (step c) (Possible c) (State.init c seqno macDsn) s) :
    Accounted s ∧ ∀ event, Possible c s event → ∃ t, step c s event = some t := by
  have hInv : Inv s := by
    refine run.invariant Inv (Inv.init seqno macDsn) fun u event t hBefore hPossible hStep => ?_
    obtain ⟨t', hStep', hAfter⟩ := hBefore.step hPossible
    obtain rfl := Option.some.inj (hStep.symm.trans hStep')
    exact hAfter
  refine ⟨hInv.accounted, fun event hPossible => ?_⟩
  obtain ⟨t, hStep, -⟩ := hInv.step hPossible
  exact ⟨t, hStep⟩

def sampleConfig : Config := ⟨2, 8, 8, 8, 8, fun _ => 1, by decide⟩

def sampleRequest (data : List Byte) : Request := ⟨⟨data, 0, 0, 0, fun _ => 0, fun _ => 2⟩, 5, 6⟩

/-- A transmission without interference, with what is received as its acknowledgement. -/
def sampleAnswers (ackbuf : List Byte) : Answers where
  panId := 0xaabb
  hdralloc := true
  receivingPacket := false
  pendingPacket := false
  transmit := .ok
  receivingAck := true
  pendingAck := true
  channelClear := true
  ackPending := true
  ackbuf := ackbuf
  random := 0

/-- Two packets for one neighbor, of which the first is acknowledged. -/
def sampleEvents : List (Event sampleConfig) :=
  [.sendPacket 0 (sampleRequest [1]), .sendPacket 0 (sampleRequest [2]), .expire ⟨0, by decide⟩,
    .sendListTurn (sampleAnswers [2, 0, 9])]

/-- The second packet is left. -/
theorem packets_accounted_sample : ∃ s,
    runAll (step sampleConfig) (State.init sampleConfig 9 0) sampleEvents = some s ∧
      s.waiting (fun _ => 2) = [1] ∧ Accounted s := by
  have hAlong : Along (step sampleConfig) (Possible sampleConfig) (State.init sampleConfig 9 0)
      sampleEvents := by decide
  refine ⟨_, rfl, ?_, (packets_accounted sampleConfig 9 0 (Reaches.of_along hAlong rfl)).1⟩
  decide

end Smarthome.Csma
