import Smarthome.Csma.Driver

/-! The queues of `csma.c` and the pools behind them: each packet of a queue has a packet
block, a metadata block and a queue buffer of its own, and there are no others. -/
namespace Smarthome.Csma

open Contiki Semantics

variable {c : Config}

namespace State

variable (s : State c)

/-- The packets that are queued for a neighbor. -/
def queue (n : Fin c.maxNeighborQueues) : List (Fin c.maxQueuedPackets) :=
  nodesFrom s.next (Fintype.card (Fin c.maxQueuedPackets)) (s.queuedPacketList n)

/-- All queues, one after another. -/
def queued : List (Fin c.maxQueuedPackets) := s.neighborList.flatMap s.queue

/-- The numbers of the packets that wait for an address. -/
def waiting (addr : Linkaddr) : List Nat :=
  ((s.neighborQueueFromAddr addr).elim [] s.queue).map s.number

/-- The queue buffers that are held for packets. -/
def buffers : Finset (Fin c.queuebufNum) := s.bufmem \ s.others

/-- A queue ends, whatever the blocks of other queues are linked to. -/
theorem queue_eq {n : Fin c.maxNeighborQueues} {xs : List (Fin c.maxQueuedPackets)}
    (h : IsList s.next (s.queuedPacketList n) xs) : s.queue n = xs :=
  nodesFrom_eq h h.length_le

/-- What `free_packet` does first with the first packet of a queue. -/
def takeFirst (n : Fin c.maxNeighborQueues) (q : Fin c.maxQueuedPackets) : State c :=
  { s with
    queuedPacketList := Function.update s.queuedPacketList n (s.next q)
    next := Function.update s.next q none
    bufmem := s.bufmem.free (s.buf q)
    metadataMemb := s.metadataMemb.free (s.ptr q)
    packetMemb := s.packetMemb.erase q }

/-- What `send_packet` has allocated for a packet. -/
def allocated (q : Fin c.maxQueuedPackets) (m : Fin c.maxMetadata) (b : Fin c.queuebufNum) :
    State c :=
  { s with
    packetMemb := insert q s.packetMemb
    ptr := Function.update s.ptr q (some m)
    metadataMemb := insert m s.metadataMemb
    bufmem := insert b s.bufmem
    queuebuf := Function.update s.queuebuf b s.packetbuf
    buf := Function.update s.buf q (some b) }

/-- The packet is initialized and at the end of a queue. -/
def appended (n : Fin c.maxNeighborQueues) (m : Fin c.maxMetadata) (metadata : QbufMetadata)
    (list : Option (Fin c.maxQueuedPackets))
    (next : Fin c.maxQueuedPackets → Option (Fin c.maxQueuedPackets)) : State c :=
  { s with
    metadata := Function.update s.metadata m metadata
    queuedPacketList := Function.update s.queuedPacketList n list
    next := next }

end State

/-- A packet carries what a call of `send_packet` has given. -/
structure Carries (s : State c) (q : Fin c.maxQueuedPackets) (request : Request) : Prop where
  given : s.requests[s.number q]? = some request
  metadata : ∀ m, s.ptr q = some m →
    (s.metadata m).sent = request.sent ∧ (s.metadata m).cptr = request.ptr
  seqno : ∀ b, s.buf q = some b → (s.queuebuf b).macSeqno ≠ 0
  buffer : ∀ b, s.buf q = some b → (s.queuebuf b).receiver = request.receiver ∧
    (s.queuebuf b).data = request.packetbuf.data

/-- The memory between two calls. In the middle of one, one queue may be empty. -/
structure Tidy (fresh : Option (Fin c.maxNeighborQueues)) (s : State c) : Prop where
  nodup : s.neighborList.Nodup
  neighbors : ∀ n, n ∈ s.neighborMemb ↔ n ∈ s.neighborList
  addrs : ∀ n ∈ s.neighborList, ∀ m ∈ s.neighborList, s.addr n = s.addr m → n = m
  lists : ∀ n ∈ s.neighborList, IsList s.next (s.queuedPacketList n) (s.queue n)
  nonempty : ∀ n ∈ s.neighborList, s.queue n = [] → some n = fresh
  apart : ∀ n ∈ s.neighborList, ∀ m ∈ s.neighborList, ∀ q ∈ s.queue n, q ∈ s.queue m → n = m
  packets : ∀ q, q ∈ s.packetMemb ↔ ∃ n ∈ s.neighborList, q ∈ s.queue n
  metadata : Assigned s.packetMemb s.ptr s.metadataMemb
  buffers : Assigned s.packetMemb s.buf s.buffers
  others : s.others ⊆ s.bufmem
  timers : ∀ n, s.transmitTimer n ≠ none → n ∈ s.neighborList
  carries : ∀ q ∈ s.packetMemb, ∃ request, Carries s q request

namespace Tidy

variable {fresh : Option (Fin c.maxNeighborQueues)} {s : State c} {n : Fin c.maxNeighborQueues}
  {q : Fin c.maxQueuedPackets} {rest : List (Fin c.maxQueuedPackets)}

theorem init (seqno : UInt16) (macDsn : UInt8) : Tidy none (State.init c seqno macDsn) where
  nodup := List.nodup_nil
  neighbors n := by simp [State.init]
  addrs n hn := by cases hn
  lists n hn := by cases hn
  nonempty n hn := by cases hn
  apart n hn := by cases hn
  packets q := by simp [State.init]
  metadata := Assigned.empty
  buffers := Assigned.empty
  others := Finset.Subset.refl _
  timers n hn := absurd rfl hn
  carries q hq := by simp [State.init] at hq

/-- The counters, the packet buffer, the walk of `send_list` and the history do not matter. -/
theorem untouched (h : Tidy fresh s) (seqno : UInt16) (macDsn : UInt8) (packetbuf : Packetbuf)
    (transmissions collisions : Fin c.maxNeighborQueues → UInt8)
    (sendList : Option (Fin c.maxNeighborQueues × Fin c.maxQueuedPackets))
    (history : List (Entry Packetbuf Report)) :
    Tidy fresh { s with seqno, macDsn, packetbuf, transmissions, collisions, sendList, history } :=
  ⟨h.nodup, h.neighbors, h.addrs, h.lists, h.nonempty, h.apart, h.packets, h.metadata, h.buffers,
    h.others, h.timers, fun q hq => (h.carries q hq).imp fun _ hCarries =>
      ⟨hCarries.given, hCarries.metadata, hCarries.seqno, hCarries.buffer⟩⟩

/-- A queue that is not empty belongs to no call. -/
theorem settle (h : Tidy (some n) s) (hQueue : s.queue n ≠ []) : Tidy none s := by
  refine { h with nonempty := ?_ }
  intro m hm hEmpty
  obtain rfl := Option.some.inj (h.nonempty m hm hEmpty)
  exact absurd hEmpty hQueue

theorem weaken (h : Tidy none s) : Tidy fresh s := by
  refine { h with nonempty := ?_ }
  intro m hm hEmpty
  cases h.nonempty m hm hEmpty

theorem setTimer (h : Tidy fresh s) (hn : n ∈ s.neighborList) (timer : Option Nat) :
    Tidy fresh { s with transmitTimer := Function.update s.transmitTimer n timer } := by
  refine ⟨h.nodup, h.neighbors, h.addrs, h.lists, h.nonempty, h.apart, h.packets, h.metadata,
    h.buffers, h.others, ?_, fun q hq => (h.carries q hq).imp fun _ hCarries =>
      ⟨hCarries.given, hCarries.metadata, hCarries.seqno, hCarries.buffer⟩⟩
  intro m hm
  by_cases hSame : m = n
  · exact hSame ▸ hn
  · dsimp only at hm
    rw [Function.update_of_ne hSame] at hm
    exact h.timers m hm

theorem schedule (h : Tidy fresh s) (hn : n ∈ s.neighborList) (random : UInt16) :
    Tidy fresh (s.scheduleTransmission random n) := h.setTimer hn _

/-- An entry without packets is given back. -/
theorem dropNeighbor (h : Tidy (some n) s) (hQueue : s.queue n = [])
    (hTimer : s.transmitTimer n = none) :
    Tidy none { s with
      neighborList := s.neighborList.erase n
      neighborMemb := s.neighborMemb.erase n } := by
  have hMem (m : Fin c.maxNeighborQueues) : m ∈ s.neighborList.erase n ↔
      m ≠ n ∧ m ∈ s.neighborList := h.nodup.mem_erase_iff
  refine {
    nodup := h.nodup.erase n
    neighbors := ?_
    addrs := fun m hm k hk => h.addrs m (List.mem_of_mem_erase hm) k (List.mem_of_mem_erase hk)
    lists := fun m hm => h.lists m (List.mem_of_mem_erase hm)
    nonempty := ?_
    apart := fun m hm k hk => h.apart m (List.mem_of_mem_erase hm) k (List.mem_of_mem_erase hk)
    packets := ?_
    metadata := h.metadata
    buffers := h.buffers
    others := h.others
    timers := ?_
    carries := fun q hq => (h.carries q hq).imp fun _ hCarries =>
      ⟨hCarries.given, hCarries.metadata, hCarries.seqno, hCarries.buffer⟩ }
  · intro m
    rw [Finset.mem_erase, h.neighbors, hMem]
  · intro m hm hEmpty
    obtain ⟨hNe, hOld⟩ := (hMem m).mp hm
    exact absurd (Option.some.inj (h.nonempty m hOld hEmpty)) hNe
  · intro q
    refine (h.packets q).trans ⟨?_, ?_⟩
    · rintro ⟨m, hm, hq⟩
      refine ⟨m, (hMem m).mpr ⟨?_, hm⟩, hq⟩
      rintro rfl
      rw [hQueue] at hq
      cases hq
    · rintro ⟨m, hm, hq⟩
      exact ⟨m, List.mem_of_mem_erase hm, hq⟩
  · intro m hm
    refine (hMem m).mpr ⟨?_, h.timers m hm⟩
    rintro rfl
    exact hm hTimer

/-- The queues without a first packet. -/
theorem isList_takeFirst (h : Tidy fresh s) (hn : n ∈ s.neighborList)
    (hQueue : s.queue n = q :: rest) {m : Fin c.maxNeighborQueues} (hm : m ∈ s.neighborList) :
    IsList (s.takeFirst n q).next ((s.takeFirst n q).queuedPacketList m)
      (if m = n then rest else s.queue m) := by
  have hList := h.lists n hn
  rw [hQueue] at hList
  split
  · rename_i hSame
    have hNot : q ∉ rest := (List.nodup_cons.mp hList.nodup).1
    rw [hSame]
    dsimp only [State.takeFirst]
    rw [Function.update_self]
    exact hList.2.update_of_notMem hNot
  · rename_i hNe
    have hNot : q ∉ s.queue m := fun hMem =>
      hNe (h.apart m hm n hn q hMem (by simp [hQueue]))
    dsimp only [State.takeFirst]
    rw [Function.update_of_ne hNe]
    exact (h.lists m hm).update_of_notMem hNot

theorem queue_takeFirst (h : Tidy fresh s) (hn : n ∈ s.neighborList)
    (hQueue : s.queue n = q :: rest) {m : Fin c.maxNeighborQueues} (hm : m ∈ s.neighborList) :
    (s.takeFirst n q).queue m = if m = n then rest else s.queue m :=
  State.queue_eq _ (h.isList_takeFirst hn hQueue hm)

/-- A packet of a queue is in no other, and not twice in its own. -/
theorem mem_queue_takeFirst (h : Tidy fresh s) (hn : n ∈ s.neighborList)
    (hQueue : s.queue n = q :: rest) {m : Fin c.maxNeighborQueues} (hm : m ∈ s.neighborList)
    {p : Fin c.maxQueuedPackets} :
    p ∈ (s.takeFirst n q).queue m ↔ p ≠ q ∧ p ∈ s.queue m := by
  have hList := h.lists n hn
  rw [hQueue] at hList
  have hNot : q ∉ rest := (List.nodup_cons.mp hList.nodup).1
  rw [h.queue_takeFirst hn hQueue hm]
  split
  · rename_i hSame
    rw [hSame, hQueue, List.mem_cons]
    constructor
    · intro hp
      exact ⟨ne_of_mem_of_not_mem hp hNot, Or.inr hp⟩
    · rintro ⟨hNe, hp⟩
      exact hp.resolve_left hNe
  · rename_i hNe
    constructor
    · intro hp
      refine ⟨?_, hp⟩
      rintro rfl
      exact hNe (h.apart m hm n hn p hp (by simp [hQueue]))
    · rintro ⟨-, hp⟩
      exact hp

theorem takeFirst_tidy (h : Tidy none s) (hn : n ∈ s.neighborList)
    (hQueue : s.queue n = q :: rest) : Tidy (some n) (s.takeFirst n q) := by
  have hUsed : q ∈ s.packetMemb := (h.packets q).mpr ⟨n, hn, by simp [hQueue]⟩
  obtain ⟨m, hm, hPtr⟩ := h.metadata.exists_block hUsed
  obtain ⟨b, hb, hBuf⟩ := h.buffers.exists_block hUsed
  refine {
    nodup := h.nodup
    neighbors := h.neighbors
    addrs := h.addrs
    lists := ?_
    nonempty := ?_
    apart := ?_
    packets := ?_
    metadata := ?_
    buffers := ?_
    others := ?_
    timers := h.timers
    carries := ?_ }
  · intro k hk
    rw [h.queue_takeFirst hn hQueue hk]
    exact h.isList_takeFirst hn hQueue hk
  · intro k hk hEmpty
    rw [h.queue_takeFirst hn hQueue hk] at hEmpty
    split at hEmpty
    · rename_i hSame
      rw [hSame]
    · cases h.nonempty k hk hEmpty
  · intro k hk l hl p hp hp'
    rw [h.mem_queue_takeFirst hn hQueue hk] at hp
    rw [h.mem_queue_takeFirst hn hQueue hl] at hp'
    exact h.apart k hk l hl p hp.2 hp'.2
  · intro p
    refine Finset.mem_erase.trans ?_
    rw [h.packets p]
    constructor
    · rintro ⟨hNe, k, hk, hp⟩
      exact ⟨k, hk, (h.mem_queue_takeFirst hn hQueue hk).mpr ⟨hNe, hp⟩⟩
    · rintro ⟨k, hk, hp⟩
      obtain ⟨hNe, hOld⟩ := (h.mem_queue_takeFirst hn hQueue hk).mp hp
      exact ⟨hNe, k, hk, hOld⟩
  · have hPool : (s.takeFirst n q).metadataMemb = s.metadataMemb.erase m := by
      rw [State.takeFirst, hPtr]
      rfl
    rw [hPool]
    exact h.metadata.erase hUsed hPtr
  · have hPool : (s.takeFirst n q).buffers = s.buffers.erase b := by
      rw [State.buffers, State.takeFirst, hBuf]
      exact Finset.erase_sdiff_comm _ _ _
    rw [hPool]
    exact h.buffers.erase hUsed hBuf
  · intro b' hb'
    have hHeld : b' ∈ s.bufmem := h.others hb'
    dsimp only [State.takeFirst]
    rw [hBuf, BlockPool.free_some, Finset.mem_erase]
    refine ⟨?_, hHeld⟩
    rintro rfl
    exact (Finset.mem_sdiff.mp hb).2 hb'
  · intro p hp
    exact (h.carries p (Finset.mem_of_mem_erase hp)).imp fun _ hCarries =>
      ⟨hCarries.given, hCarries.metadata, hCarries.seqno, hCarries.buffer⟩

/-- A packet that is in use has its metadata and its buffer. -/
theorem exists_blocks (h : Tidy fresh s) (hq : q ∈ s.packetMemb) :
    (∃ m ∈ s.metadataMemb, s.ptr q = some m) ∧ ∃ b ∈ s.buffers, s.buf q = some b :=
  ⟨h.metadata.exists_block hq, h.buffers.exists_block hq⟩

/-- What a block that is not in use holds does not matter. -/
theorem overwrite (h : Tidy fresh s)
    {ptr : Fin c.maxQueuedPackets → Option (Fin c.maxMetadata)}
    {buf : Fin c.maxQueuedPackets → Option (Fin c.queuebufNum)}
    (hPtr : ∀ p ∈ s.packetMemb, ptr p = s.ptr p) (hBuf : ∀ p ∈ s.packetMemb, buf p = s.buf p) :
    Tidy fresh { s with ptr, buf } := by
  refine ⟨h.nodup, h.neighbors, h.addrs, h.lists, h.nonempty, h.apart, h.packets,
    h.metadata.congr hPtr, h.buffers.congr hBuf, h.others, h.timers, ?_⟩
  intro p hp
  obtain ⟨request, hCarries⟩ := h.carries p hp
  refine ⟨request, ?_, ?_, ?_, ?_⟩
  · have hNumber : State.number { s with ptr, buf } p = s.number p := by
      dsimp only [State.number]
      rw [hPtr p hp]
    rw [hNumber]
    exact hCarries.given
  · intro m hm
    exact hCarries.metadata m ((hPtr p hp).symm.trans hm)
  · intro b hb
    exact hCarries.seqno b ((hBuf p hp).symm.trans hb)
  · intro b hb
    exact hCarries.buffer b ((hBuf p hp).symm.trans hb)

/-- The allocation of a packet gives three blocks that were not in use, or none. -/
theorem allocPacket_cases (s : State c) :
    (∃ q ∉ s.packetMemb, ∃ m ∉ s.metadataMemb, ∃ b ∉ s.bufmem,
      s.allocPacket = (s.allocated q m b, some (q, m))) ∨
    ∃ ptr buf, (∀ p ∈ s.packetMemb, ptr p = s.ptr p) ∧ (∀ p ∈ s.packetMemb, buf p = s.buf p) ∧
      s.allocPacket = ({ s with ptr, buf }, none) := by
  cases hPacket : s.packetMemb.alloc with
  | none => exact Or.inr ⟨s.ptr, s.buf, fun _ _ => rfl, fun _ _ => rfl, by
      simp only [State.allocPacket, hPacket]⟩
  | some q =>
      have hq := BlockPool.not_mem_of_alloc hPacket
      have hOther {α : Type} (f : Fin c.maxQueuedPackets → α) (x : α) :
          ∀ p ∈ s.packetMemb, Function.update f q x p = f p :=
        fun p hp => Function.update_of_ne (ne_of_mem_of_not_mem hp hq) _ _
      cases hMetadata : s.metadataMemb.alloc with
      | none =>
          refine Or.inr ⟨_, s.buf, hOther s.ptr none, fun _ _ => rfl, ?_⟩
          simp only [State.allocPacket, hPacket, hMetadata, Finset.erase_insert hq]
      | some m =>
          have hm := BlockPool.not_mem_of_alloc hMetadata
          cases hBuf : s.bufmem.alloc with
          | none =>
              refine Or.inr ⟨_, _, hOther s.ptr (some m), hOther s.buf none, ?_⟩
              simp only [State.allocPacket, hPacket, hMetadata, State.queuebufNewFromPacketbuf,
                hBuf, Finset.erase_insert hq, Finset.erase_insert hm]
          | some b =>
              have hb := BlockPool.not_mem_of_alloc hBuf
              refine Or.inl ⟨q, hq, m, hm, b, hb, ?_⟩
              simp only [State.allocPacket, hPacket, hMetadata, State.queuebufNewFromPacketbuf,
                hBuf, State.allocated]

theorem mem_addNeighbor (h : Tidy fresh s) (hFree : n ∉ s.neighborMemb) {a : Linkaddr}
    {m : Fin c.maxNeighborQueues} :
    m ∈ (s.addNeighbor n a).neighborList ↔ m ∈ s.neighborList ∨ m = n := by
  have hNot : n ∉ s.neighborList := fun hMem => hFree ((h.neighbors n).mpr hMem)
  rw [State.addNeighbor, List.erase_of_not_mem hNot, List.mem_append, List.mem_singleton]

theorem ne_of_listed (h : Tidy fresh s) (hFree : n ∉ s.neighborMemb)
    {m : Fin c.maxNeighborQueues} (hm : m ∈ s.neighborList) : m ≠ n := by
  rintro rfl
  exact hFree ((h.neighbors m).mpr hm)

theorem queue_addNeighbor (s : State c) (n m : Fin c.maxNeighborQueues) (a : Linkaddr) :
    (s.addNeighbor n a).queue m = if m = n then [] else s.queue m := by
  split
  · rename_i hSame
    refine State.queue_eq _ ?_
    rw [hSame]
    exact Function.update_self ..
  · rename_i hNe
    dsimp only [State.queue, State.addNeighbor]
    rw [Function.update_of_ne hNe]

theorem addNeighbor (h : Tidy none s) (hFree : n ∉ s.neighborMemb) {a : Linkaddr}
    (hNew : ∀ m ∈ s.neighborList, s.addr m ≠ a) :
    Tidy (some n) (s.addNeighbor n a) := by
  have hAddr {m : Fin c.maxNeighborQueues} (hm : m ∈ s.neighborList) :
      (s.addNeighbor n a).addr m = s.addr m := Function.update_of_ne (h.ne_of_listed hFree hm) _ _
  have hSelf : (s.addNeighbor n a).addr n = a := Function.update_self ..
  have hQueue {m : Fin c.maxNeighborQueues} (hm : m ∈ s.neighborList) :
      (s.addNeighbor n a).queue m = s.queue m := by
    rw [queue_addNeighbor, if_neg (h.ne_of_listed hFree hm)]
  have hEmpty : (s.addNeighbor n a).queue n = [] := by
    rw [queue_addNeighbor, if_pos rfl]
  refine {
    nodup := ?_
    neighbors := ?_
    addrs := ?_
    lists := ?_
    nonempty := ?_
    apart := ?_
    packets := ?_
    metadata := h.metadata
    buffers := h.buffers
    others := h.others
    timers := fun m hm => (h.mem_addNeighbor hFree).mpr (Or.inl (h.timers m hm))
    carries := fun q hq => (h.carries q hq).imp fun _ hCarries =>
      ⟨hCarries.given, hCarries.metadata, hCarries.seqno, hCarries.buffer⟩ }
  · have hNot : n ∉ s.neighborList := fun hMem => hFree ((h.neighbors n).mpr hMem)
    rw [State.addNeighbor, List.erase_of_not_mem hNot]
    exact List.nodup_append.mpr ⟨h.nodup, List.nodup_singleton n, fun m hm k hk => by
      rw [List.mem_singleton.mp hk]
      exact ne_of_mem_of_not_mem hm hNot⟩
  · intro m
    rw [h.mem_addNeighbor hFree, ← h.neighbors, State.addNeighbor, Finset.mem_insert, or_comm]
  · intro m hm k hk hSame
    rw [h.mem_addNeighbor hFree] at hm hk
    rcases hm with hm | rfl <;> rcases hk with hk | rfl
    · rw [hAddr hm, hAddr hk] at hSame
      exact h.addrs m hm k hk hSame
    · rw [hAddr hm, hSelf] at hSame
      exact absurd hSame (hNew m hm)
    · rw [hAddr hk, hSelf] at hSame
      exact absurd hSame.symm (hNew k hk)
    · rfl
  · intro m hm
    rcases (h.mem_addNeighbor hFree).mp hm with hm | rfl
    · have hHead : (s.addNeighbor n a).queuedPacketList m = s.queuedPacketList m :=
        Function.update_of_ne (h.ne_of_listed hFree hm) _ _
      rw [hQueue hm, hHead]
      exact h.lists m hm
    · rw [hEmpty]
      exact Function.update_self ..
  · intro m hm hNone
    rcases (h.mem_addNeighbor hFree).mp hm with hm | rfl
    · rw [hQueue hm] at hNone
      cases h.nonempty m hm hNone
    · rfl
  · intro m hm k hk q hq hq'
    rcases (h.mem_addNeighbor hFree).mp hm with hm | rfl
    · rcases (h.mem_addNeighbor hFree).mp hk with hk | rfl
      · rw [hQueue hm] at hq
        rw [hQueue hk] at hq'
        exact h.apart m hm k hk q hq hq'
      · rw [hEmpty] at hq'
        cases hq'
    · rw [hEmpty] at hq
      cases hq
  · intro q
    refine (h.packets q).trans ⟨?_, ?_⟩
    · rintro ⟨m, hm, hq⟩
      refine ⟨m, (h.mem_addNeighbor hFree).mpr (Or.inl hm), ?_⟩
      rwa [hQueue hm]
    · rintro ⟨m, hm, hq⟩
      rcases (h.mem_addNeighbor hFree).mp hm with hm | rfl
      · exact ⟨m, hm, by rwa [hQueue hm] at hq⟩
      · rw [hEmpty] at hq
        cases hq

section Append

variable {m : Fin c.maxMetadata} {b : Fin c.queuebufNum} {metadata : QbufMetadata}
  {list : Option (Fin c.maxQueuedPackets)}
  {next : Fin c.maxQueuedPackets → Option (Fin c.maxQueuedPackets)}

/-- A new packet is in no queue. -/
theorem notMem_queue (h : Tidy fresh s) (hq : q ∉ s.packetMemb) {k : Fin c.maxNeighborQueues}
    (hk : k ∈ s.neighborList) : q ∉ s.queue k :=
  fun hMem => hq ((h.packets q).mpr ⟨k, hk, hMem⟩)

/-- The queues with a new packet at the end of one. -/
theorem isList_appended (h : Tidy fresh s) (hn : n ∈ s.neighborList) (hq : q ∉ s.packetMemb)
    (hList : IsList next list (s.queue n ++ [q]))
    (hOther : ∀ p ∉ q :: s.queue n, next p = s.next p) {k : Fin c.maxNeighborQueues}
    (hk : k ∈ s.neighborList) :
    IsList next (Function.update s.queuedPacketList n list k)
      (if k = n then s.queue n ++ [q] else s.queue k) := by
  split
  · rename_i hSame
    rw [hSame, Function.update_self]
    exact hList
  · rename_i hNe
    rw [Function.update_of_ne hNe]
    refine (h.lists k hk).congr fun p hp => hOther p ?_
    rw [List.mem_cons, not_or]
    refine ⟨?_, fun hMem => hNe (h.apart k hk n hn p hp hMem)⟩
    rintro rfl
    exact h.notMem_queue hq hk hp

/-- The other packets carry what they carried. -/
theorem carries_appended (h : Tidy fresh s) (hq : q ∉ s.packetMemb) (hm : m ∉ s.metadataMemb)
    (hb : b ∉ s.bufmem) {p : Fin c.maxQueuedPackets} (hp : p ∈ s.packetMemb) {request : Request}
    (hCarries : Carries s p request) :
    ((s.allocated q m b).appended n m metadata list next).number p = s.number p ∧
      Carries ((s.allocated q m b).appended n m metadata list next) p request := by
  obtain ⟨⟨m', hm', hPtr⟩, b', hb', hBuf⟩ := h.exists_blocks hp
  have hNe : p ≠ q := ne_of_mem_of_not_mem hp hq
  have hMetadata : Function.update s.metadata m metadata m' = s.metadata m' :=
    Function.update_of_ne (ne_of_mem_of_not_mem hm' hm) _ _
  have hQueuebuf : Function.update s.queuebuf b s.packetbuf b' = s.queuebuf b' := by
    refine Function.update_of_ne ?_ _ _
    exact ne_of_mem_of_not_mem (Finset.mem_sdiff.mp hb').1 hb
  have hPtr' : Function.update s.ptr q (some m) p = some m' := by
    rw [Function.update_of_ne hNe, hPtr]
  have hBuf' : Function.update s.buf q (some b) p = some b' := by
    rw [Function.update_of_ne hNe, hBuf]
  have hNumber : ((s.allocated q m b).appended n m metadata list next).number p = s.number p := by
    dsimp only [State.number, State.allocated, State.appended]
    rw [hPtr', hPtr, Option.elim_some, Option.elim_some, hMetadata]
  refine ⟨hNumber, ?_, ?_, ?_, ?_⟩
  · rw [hNumber]
    exact hCarries.given
  · intro m'' hm''
    obtain rfl := Option.some.inj (hPtr'.symm.trans hm'')
    dsimp only [State.allocated, State.appended]
    rw [hMetadata]
    exact hCarries.metadata m' hPtr
  · intro b'' hb''
    obtain rfl := Option.some.inj (hBuf'.symm.trans hb'')
    dsimp only [State.allocated, State.appended]
    rw [hQueuebuf]
    exact hCarries.seqno b' hBuf
  · intro b'' hb''
    obtain rfl := Option.some.inj (hBuf'.symm.trans hb'')
    dsimp only [State.allocated, State.appended]
    rw [hQueuebuf]
    exact hCarries.buffer b' hBuf

theorem number_appended :
    ((s.allocated q m b).appended n m metadata list next).number q = metadata.packet := by
  dsimp only [State.number, State.allocated, State.appended]
  rw [Function.update_self, Option.elim_some, Function.update_self]

/-- The new packet carries what has been given. -/
theorem carries_new {request : Request} (hGiven : s.requests[metadata.packet]? = some request)
    (hSent : metadata.sent = request.sent) (hCptr : metadata.cptr = request.ptr)
    (hSeqno : s.packetbuf.macSeqno ≠ 0) (hReceiver : s.packetbuf.receiver = request.receiver)
    (hData : s.packetbuf.data = request.packetbuf.data) :
    Carries ((s.allocated q m b).appended n m metadata list next) q request := by
  have hPtr : Function.update s.ptr q (some m) q = some m := Function.update_self ..
  have hBuf : Function.update s.buf q (some b) q = some b := Function.update_self ..
  refine ⟨?_, ?_, ?_, ?_⟩
  · rw [number_appended]
    exact hGiven
  · intro m' hm'
    obtain rfl := Option.some.inj (hPtr.symm.trans hm')
    dsimp only [State.allocated, State.appended]
    rw [Function.update_self]
    exact ⟨hSent, hCptr⟩
  · intro b' hb'
    obtain rfl := Option.some.inj (hBuf.symm.trans hb')
    dsimp only [State.allocated, State.appended]
    rwa [Function.update_self]
  · intro b' hb'
    obtain rfl := Option.some.inj (hBuf.symm.trans hb')
    dsimp only [State.allocated, State.appended]
    rw [Function.update_self]
    exact ⟨hReceiver, hData⟩

theorem queue_appended (h : Tidy fresh s) (hn : n ∈ s.neighborList) (hq : q ∉ s.packetMemb)
    (hList : IsList next list (s.queue n ++ [q]))
    (hOther : ∀ p ∉ q :: s.queue n, next p = s.next p) {k : Fin c.maxNeighborQueues}
    (hk : k ∈ s.neighborList) :
    ((s.allocated q m b).appended n m metadata list next).queue k =
      if k = n then s.queue n ++ [q] else s.queue k :=
  State.queue_eq _ (h.isList_appended hn hq hList hOther hk)

theorem mem_queue_appended (h : Tidy fresh s) (hn : n ∈ s.neighborList) (hq : q ∉ s.packetMemb)
    (hList : IsList next list (s.queue n ++ [q]))
    (hOther : ∀ p ∉ q :: s.queue n, next p = s.next p) {k : Fin c.maxNeighborQueues}
    (hk : k ∈ s.neighborList) {p : Fin c.maxQueuedPackets} :
    p ∈ ((s.allocated q m b).appended n m metadata list next).queue k ↔
      p = q ∧ k = n ∨ p ∈ s.queue k := by
  rw [h.queue_appended hn hq hList hOther hk]
  split
  · rename_i hSame
    rw [hSame, List.mem_append, List.mem_singleton]
    tauto
  · rename_i hNe
    tauto

theorem appended (h : Tidy (some n) s) (hn : n ∈ s.neighborList) (hq : q ∉ s.packetMemb)
    (hm : m ∉ s.metadataMemb) (hb : b ∉ s.bufmem)
    (hList : IsList next list (s.queue n ++ [q]))
    (hOther : ∀ p ∉ q :: s.queue n, next p = s.next p) {request : Request}
    (hNew : Carries ((s.allocated q m b).appended n m metadata list next) q request) :
    Tidy none ((s.allocated q m b).appended n m metadata list next) := by
  have hHeld : b ∉ s.others := fun hMem => hb (h.others hMem)
  refine {
    nodup := h.nodup
    neighbors := h.neighbors
    addrs := h.addrs
    lists := ?_
    nonempty := ?_
    apart := ?_
    packets := ?_
    metadata := h.metadata.insert hq hm
    buffers := ?_
    others := h.others.trans (Finset.subset_insert _ _)
    timers := h.timers
    carries := ?_ }
  · intro k hk
    rw [h.queue_appended hn hq hList hOther hk]
    exact h.isList_appended hn hq hList hOther hk
  · intro k hk hEmpty
    rw [h.queue_appended hn hq hList hOther hk] at hEmpty
    split at hEmpty
    · simp at hEmpty
    · rename_i hNe
      exact absurd (Option.some.inj (h.nonempty k hk hEmpty)) hNe
  · intro k hk l hl p hp hp'
    rw [h.mem_queue_appended hn hq hList hOther hk] at hp
    rw [h.mem_queue_appended hn hq hList hOther hl] at hp'
    rcases hp with ⟨rfl, rfl⟩ | hp
    · rcases hp' with ⟨-, rfl⟩ | hp'
      · rfl
      · exact absurd hp' (h.notMem_queue hq hl)
    · rcases hp' with ⟨rfl, -⟩ | hp'
      · exact absurd hp (h.notMem_queue hq hk)
      · exact h.apart k hk l hl p hp hp'
  · intro p
    refine Finset.mem_insert.trans ?_
    rw [h.packets p]
    constructor
    · rintro (rfl | ⟨k, hk, hp⟩)
      · exact ⟨n, hn, (h.mem_queue_appended hn hq hList hOther hn).mpr (Or.inl ⟨rfl, rfl⟩)⟩
      · exact ⟨k, hk, (h.mem_queue_appended hn hq hList hOther hk).mpr (Or.inr hp)⟩
    · rintro ⟨k, hk, hp⟩
      rcases (h.mem_queue_appended hn hq hList hOther hk).mp hp with ⟨rfl, -⟩ | hp
      · exact Or.inl rfl
      · exact Or.inr ⟨k, hk, hp⟩
  · have hBuffers : ((s.allocated q m b).appended n m metadata list next).buffers =
        insert b s.buffers := Finset.insert_sdiff_of_notMem _ hHeld
    have hFree : b ∉ s.buffers := fun hMem => hb (Finset.mem_sdiff.mp hMem).1
    rw [hBuffers]
    exact h.buffers.insert hq hFree
  · intro p hp
    rcases Finset.mem_insert.mp hp with rfl | hp
    · exact ⟨request, hNew⟩
    · obtain ⟨old, hCarries⟩ := h.carries p hp
      exact ⟨old, (h.carries_appended hq hm hb hp hCarries).2⟩

end Append

section Queuebufs

variable {b : Fin c.queuebufNum}

/-- Other code takes a queue buffer. -/
theorem lend (h : Tidy fresh s) (hb : b ∉ s.bufmem) (contents : Packetbuf) :
    Tidy fresh { s with
      bufmem := insert b s.bufmem
      queuebuf := Function.update s.queuebuf b contents
      others := insert b s.others } := by
  have hFree : b ∉ s.buffers := fun hMem => hb (Finset.mem_sdiff.mp hMem).1
  have hBuffers : insert b s.bufmem \ insert b s.others = s.buffers := by
    rw [Finset.insert_sdiff_insert, Finset.sdiff_insert]
    exact Finset.erase_eq_of_notMem hFree
  refine ⟨h.nodup, h.neighbors, h.addrs, h.lists, h.nonempty, h.apart, h.packets, h.metadata,
    ?_, Finset.insert_subset_insert b h.others, h.timers, ?_⟩
  · dsimp only [State.buffers]
    rw [hBuffers]
    exact h.buffers
  · intro p hp
    obtain ⟨request, hCarries⟩ := h.carries p hp
    have hSame {b' : Fin c.queuebufNum} (hBuf : s.buf p = some b') :
        Function.update s.queuebuf b contents b' = s.queuebuf b' :=
      Function.update_of_ne (ne_of_mem_of_not_mem (h.buffers.mem_blocks hp hBuf) hFree) _ _
    refine ⟨request, hCarries.given, hCarries.metadata, fun b' hBuf => ?_, fun b' hBuf => ?_⟩
    · dsimp only
      rw [hSame hBuf]
      exact hCarries.seqno b' hBuf
    · dsimp only
      rw [hSame hBuf]
      exact hCarries.buffer b' hBuf

/-- Other code gives one back. -/
theorem giveBack (h : Tidy fresh s) (hb : b ∈ s.others) :
    Tidy fresh { s with bufmem := s.bufmem.erase b, others := s.others.erase b } := by
  have hBuffers : s.bufmem.erase b \ s.others.erase b = s.buffers := by
    ext b'
    by_cases hSame : b' = b
    · simp [State.buffers, hSame, hb]
    · simp [State.buffers, hSame]
  refine ⟨h.nodup, h.neighbors, h.addrs, h.lists, h.nonempty, h.apart, h.packets, h.metadata,
    ?_, Finset.erase_subset_erase b h.others, h.timers, fun p hp => (h.carries p hp).imp
      fun _ hCarries => ⟨hCarries.given, hCarries.metadata, hCarries.seqno, hCarries.buffer⟩⟩
  dsimp only [State.buffers]
  rw [hBuffers]
  exact h.buffers

/-- The attributes of the packet in the packet buffer are stored with the packet. -/
theorem updateAttr (h : Tidy fresh s) (hq : q ∈ s.packetMemb) {request : Request}
    (hCarries : Carries s q request) (hSeqno : s.packetbuf.macSeqno ≠ 0)
    (hReceiver : s.packetbuf.receiver = request.receiver) :
    Tidy fresh (s.queuebufUpdateAttrFromPacketbuf (s.buf q)) := by
  obtain ⟨b, hb, hBuf⟩ := h.buffers.exists_block hq
  rw [hBuf]
  refine ⟨h.nodup, h.neighbors, h.addrs, h.lists, h.nonempty, h.apart, h.packets, h.metadata,
    h.buffers, h.others, h.timers, fun p hp => ?_⟩
  by_cases hSame : p = q
  · rw [hSame]
    refine ⟨request, hCarries.given, hCarries.metadata, fun b' hBuf' => ?_, fun b' hBuf' => ?_⟩
    · obtain rfl := Option.some.inj (hBuf.symm.trans hBuf')
      dsimp only [State.queuebufUpdateAttrFromPacketbuf]
      rwa [Function.update_self]
    · obtain rfl := Option.some.inj (hBuf.symm.trans hBuf')
      dsimp only [State.queuebufUpdateAttrFromPacketbuf]
      rw [Function.update_self]
      exact ⟨hReceiver, (hCarries.buffer b hBuf).2⟩
  · obtain ⟨other, hOther⟩ := h.carries p hp
    have hKept {b' : Fin c.queuebufNum} (hBuf' : s.buf p = some b') :
        Function.update s.queuebuf b { s.packetbuf with data := (s.queuebuf b).data } b' =
          s.queuebuf b' := by
      refine Function.update_of_ne ?_ _ _
      rintro rfl
      exact hSame (h.buffers.user_unique hp hq (hBuf'.trans hBuf.symm))
    refine ⟨other, hOther.given, hOther.metadata, fun b' hBuf' => ?_, fun b' hBuf' => ?_⟩
    · dsimp only [State.queuebufUpdateAttrFromPacketbuf]
      rw [hKept hBuf']
      exact hOther.seqno b' hBuf'
    · dsimp only [State.queuebufUpdateAttrFromPacketbuf]
      rw [hKept hBuf']
      exact hOther.buffer b' hBuf'

end Queuebufs

/-- One more call of `send_packet`. -/
theorem submit (h : Tidy fresh s) (request : Request) :
    Tidy fresh { s with requests := s.requests ++ [request] } := by
  refine ⟨h.nodup, h.neighbors, h.addrs, h.lists, h.nonempty, h.apart, h.packets, h.metadata,
    h.buffers, h.others, h.timers, fun p hp => (h.carries p hp).imp fun _ hCarries =>
      ⟨?_, hCarries.metadata, hCarries.seqno, hCarries.buffer⟩⟩
  have hLess := (List.getElem?_eq_some_iff.mp hCarries.given).1
  exact (List.getElem?_append_left hLess).trans hCarries.given

end Tidy

end Smarthome.Csma
