import Smarthome.Uip.Path

/-! The RPL option of a packet on its way: the nodes that it passes compare their ranks with that
of the node before, and none of them tolerates a second contradiction. -/
namespace Smarthome.Uip

open Semantics HeaderWalk

/-- What holds of the numbers of 8 bits holds of all bytes. -/
theorem forall_byte {P : Byte → Prop} (h : ∀ i : Fin 256, P (UInt8.ofFin i)) (b : Byte) : P b :=
  h b.toFin

section Flags

variable {flags flags' : Byte} {routed : Bool}

theorem rankErr_flags (flags : Byte) :
    (flags ||| rplHdrOptRankErr) &&& rplHdrOptDown = flags &&& rplHdrOptDown ∧
      (flags ||| rplHdrOptRankErr) &&& rplHdrOptRankErr ≠ 0 ∧
      (flags ||| rplHdrOptRankErr) &&& rplHdrOptFwdErr = flags &&& rplHdrOptFwdErr := by
  refine ⟨?_, ?_, ?_⟩ <;> revert flags <;> exact forall_byte (by decide +kernel)

theorem down_flags (flags : Byte) :
    (flags ||| rplHdrOptDown) &&& rplHdrOptDown ≠ 0 ∧
      (flags ||| rplHdrOptDown) &&& rplHdrOptRankErr = flags &&& rplHdrOptRankErr ∧
      (flags ||| rplHdrOptDown) &&& rplHdrOptFwdErr = flags &&& rplHdrOptFwdErr := by
  refine ⟨?_, ?_, ?_⟩ <;> revert flags <;> exact forall_byte (by decide +kernel)

theorem up_flags (flags : Byte) :
    flags &&& ~~~rplHdrOptDown &&& rplHdrOptDown = 0 ∧
      flags &&& ~~~rplHdrOptDown &&& rplHdrOptRankErr = flags &&& rplHdrOptRankErr ∧
      flags &&& ~~~rplHdrOptDown &&& rplHdrOptFwdErr = flags &&& rplHdrOptFwdErr := by
  refine ⟨?_, ?_, ?_⟩ <;> revert flags <;> exact forall_byte (by decide +kernel)

/-- The packet goes down from a node if and only if that has a route; it does not turn up. -/
theorem updateFlags_eq (h : updateFlags routed flags = some flags') :
    (flags &&& rplHdrOptDown ≠ 0 → routed = true) ∧
      (flags' &&& rplHdrOptDown ≠ 0 ↔ routed = true) ∧
      flags' &&& rplHdrOptRankErr = flags &&& rplHdrOptRankErr ∧
      flags' &&& rplHdrOptFwdErr = flags &&& rplHdrOptFwdErr := by
  unfold updateFlags at h
  split_ifs at h with hDown hRouted hRouted
  · obtain rfl := Option.some.inj h
    exact ⟨fun _ => hRouted, ⟨fun _ => hRouted, fun _ => hDown⟩, rfl, rfl⟩
  · obtain rfl := Option.some.inj h
    obtain ⟨hSet, hRankErr, hFwdErr⟩ := down_flags flags
    exact ⟨fun hWas => absurd hWas hDown, ⟨fun _ => hRouted, fun _ => hSet⟩, hRankErr, hFwdErr⟩
  · obtain rfl := Option.some.inj h
    obtain ⟨hClear, hRankErr, hFwdErr⟩ := up_flags flags
    exact ⟨fun hWas => absurd hWas hDown, ⟨fun hSet => absurd hClear hSet,
      fun hRoute => absurd hRoute hRouted⟩, hRankErr, hFwdErr⟩

end Flags

/-- A packet passes from one node to the next. -/
structure Crossing where
  down : Bool
  senderRank : Nat
  rank : Nat

/-- On its way down it comes to a higher rank, and on its way up it does not. -/
def Crossing.Consistent (crossing : Crossing) : Prop :=
  crossing.down = true ↔ crossing.senderRank < crossing.rank

instance (crossing : Crossing) : Decidable crossing.Consistent :=
  inferInstanceAs (Decidable (_ ↔ _))

/-- The rank of the node in this instance. -/
def RplNode.rank (node : RplNode) (number : Byte) : Nat :=
  ((node.ip.rplGetInstance number).map RplInstance.rank).getD 0

/-- The packet says that it goes down. -/
def goesDown (p : Packet) : Bool := p.buf 44 &&& rplHdrOptDown ≠ 0

/-- A node has marked the packet. -/
def rankErr (p : Packet) : Bool := p.buf 44 &&& rplHdrOptRankErr ≠ 0

/-- What a node compares when the packet has come to it. -/
def crossingOf (node : RplNode) (p : Packet) : Crossing :=
  ⟨goesDown p, senderRank p.buf, node.rank (p.buf 45)⟩

/-- What the nodes on the way compare, one after the other. -/
def crossings : Packet → List (Hop × Packet) → List Crossing
  | _, [] => []
  | p, (hop, q) :: path => crossingOf hop.node p :: crossings q path

/-- The node has joined a DAG, and is not the root of it. -/
def RplNode.Inner (node : RplNode) : Prop :=
  ∃ i, node.defaultInstance = some i ∧ i.rank ≠ i.rootRank

section Step

variable {c : Contents} {ttl : Byte} {p q : Packet} {hop : Hop} {node : RplNode} {ip : IpState}

theorem rplUpdateHeader_inner {rounds : Nat} (hInner : node.Inner)
    (hDest : ¬ (IsAddrLinklocal (destipaddr p.buf) ∨ IsAddrMcast (p.buf 24)))
    (hOwn : ¬ (node.isMyUnicast (srcipaddr p.buf) = true ∧ p.buf 7 = node.curHopLimit)) :
    rplUpdateHeader rounds node p = updateHbhHeader node p := by
  obtain ⟨i, hDefault, hRank⟩ := hInner
  rw [rplUpdateHeader, hDefault]
  dsimp only
  rw [if_neg hDest, if_neg hRank, if_neg hOwn]

/-- What a node has accepted, when it goes on with a packet. -/
theorem verified_eq {buf buf' : Nat → Byte} (hOption : HasOption buf)
    (h : verified ip buf = some buf') : ∃ i, ip.rplGetInstance (buf 45) = some i ∧
      i.joined = true ∧ buf 44 &&& rplHdrOptFwdErr = 0 ∧
      ((buf 44 &&& rplHdrOptDown ≠ 0 ↔ senderRank buf < i.rank) ∧ buf' = buf ∨
        ¬ (buf 44 &&& rplHdrOptDown ≠ 0 ↔ senderRank buf < i.rank) ∧
          buf 44 &&& rplHdrOptRankErr = 0 ∧
          buf' = Function.update buf 44 (buf 44 ||| rplHdrOptRankErr)) := by
  rw [verified, rplVerifyHbhHeader_value hOption.len hOption.optLen] at h
  cases hInstance : ip.rplGetInstance (buf 45) with
  | none =>
      rw [hInstance] at h
      cases h
  | some i =>
      rw [hInstance] at h
      dsimp only at h
      by_cases hRefused : buf 44 &&& rplHdrOptFwdErr ≠ 0 ∨ i.joined = false
      · rw [if_pos hRefused] at h
        cases h
      · rw [if_neg hRefused] at h
        rw [not_or, not_not, Bool.not_eq_false] at hRefused
        refine ⟨i, rfl, hRefused.2, hRefused.1, ?_⟩
        by_cases hConsistent : buf 44 &&& rplHdrOptDown ≠ 0 ↔ senderRank buf < i.rank
        · rw [if_pos hConsistent] at h
          exact Or.inl ⟨hConsistent, (Option.some.inj h).symm⟩
        · rw [if_neg hConsistent] at h
          by_cases hErr : buf 44 &&& rplHdrOptRankErr ≠ 0
          · rw [if_pos hErr] at h
            cases h
          · rw [if_neg hErr] at h
            exact Or.inr ⟨hConsistent, not_not.mp hErr, (Option.some.inj h).symm⟩

theorem forwardPacket_dest (h : forwardPacket p = some q) :
    ¬ (IsAddrLinklocal (destipaddr q.buf) ∨ IsAddrMcast (q.buf 24)) := by
  obtain ⟨-, rfl⟩ := forwardPacket_eq h
  unfold forwardPacket at h
  split_ifs at h with hRefused
  rintro (hWrong | hWrong)
  · exact hRefused (Or.inr (Or.inl hWrong))
  · exact hRefused (Or.inl hWrong)

theorem senderRank_putU16 {rank : Nat} {flags : Byte} {buf : Nat → Byte} (hRank : rank < 65536) :
    senderRank (Function.update (putU16 46 rank buf) 44 flags) = rank := by
  rw [senderRank, Function.update_of_ne (by decide), Function.update_of_ne (by decide), putU16_low,
    putU16_high, u16, UInt8.toNat_ofNat', UInt8.toNat_ofNat']
  omega

/-- What a node does to the option of a packet that it forwards. -/
structure Passed (node : RplNode) (p q : Packet) : Prop where
  number : q.buf 45 = p.buf 45
  fwdErr : p.buf 44 &&& rplHdrOptFwdErr = 0 ∧ q.buf 44 &&& rplHdrOptFwdErr = 0
  senderRank : senderRank q.buf = node.rank (p.buf 45)
  down : goesDown p = true → goesDown q = true
  marked : rankErr p = true → rankErr q = true
  contradiction : ¬ (crossingOf node p).Consistent → rankErr p = false ∧ rankErr q = true

theorem goesDown_iff : goesDown p = true ↔ p.buf 44 &&& rplHdrOptDown ≠ 0 := decide_eq_true_iff

theorem rankErr_iff : rankErr p = true ↔ p.buf 44 &&& rplHdrOptRankErr ≠ 0 := decide_eq_true_iff

theorem Carries.arrived_eq (h : Carries c rplHopByHopLen ttl p) (behind : Nat → Byte) {i : Nat}
    (hi : i < 48) : Uip.arrived p behind i = p.buf i := by
  have hUipLen := h.uipLen
  simp only [uipIphLen, rplHopByHopLen] at hUipLen
  rw [Uip.arrived, if_pos (by omega)]

/-- What a node has accepted, in terms of what it compares. -/
theorem Carries.accepted_eq (h : Carries c rplHopByHopLen ttl p) {behind buf : Nat → Byte}
    (hVerified : verified node.ip (Uip.arrived p behind) = some buf) :
    buf 45 = p.buf 45 ∧ p.buf 44 &&& rplHdrOptFwdErr = 0 ∧
      ((crossingOf node p).Consistent ∧ buf 44 = p.buf 44 ∨
        ¬ (crossingOf node p).Consistent ∧ rankErr p = false ∧
          buf 44 = p.buf 44 ||| rplHdrOptRankErr) := by
  have hOption : HasOption (Uip.arrived p behind) := (h.arrived behind).hasOption
  have h44 : Uip.arrived p behind 44 = p.buf 44 := h.arrived_eq behind (by decide)
  have h45 : Uip.arrived p behind 45 = p.buf 45 := h.arrived_eq behind (by decide)
  have hRanks : senderRank (Uip.arrived p behind) = senderRank p.buf := by
    rw [senderRank, senderRank, h.arrived_eq behind (by decide), h.arrived_eq behind (by decide)]
  obtain ⟨i, hInstance, -, hFwdErr, hCase⟩ := verified_eq hOption hVerified
  have hRank : node.rank (p.buf 45) = i.rank := by
    rw [RplNode.rank, ← h45, hInstance]
    rfl
  rw [h44] at hFwdErr
  rw [h44, hRanks, ← hRank, ← goesDown_iff] at hCase
  refine ⟨(verified_of_ne hVerified (by decide)).trans h45, hFwdErr, ?_⟩
  rcases hCase with ⟨hConsistent, rfl⟩ | ⟨hWrong, hClear, rfl⟩
  · exact Or.inl ⟨hConsistent, h44⟩
  · refine Or.inr ⟨hWrong, ?_, Function.update_self _ _ _⟩
    rw [← Bool.not_eq_true, rankErr_iff, not_not]
    exact hClear

theorem Carries.passed_of_verified (h : Carries c rplHopByHopLen ttl p) {behind buf : Nat → Byte}
    {i : RplInstance} {flags : Byte} {routed : Bool}
    (hVerified : verified node.ip (Uip.arrived p behind) = some buf)
    (hInstance : node.ip.rplGetInstance (buf 45) = some i)
    (hFlags : updateFlags routed (buf 44) = some flags)
    (hQ : q.buf = Function.update (putU16 46 i.rank (Function.update buf 7 (buf 7 - 1))) 44 flags) :
    Passed node p q := by
  obtain ⟨h45, hNoErr, hCase⟩ := h.accepted_eq hVerified
  obtain ⟨hRouted, hDown, hErr, hFwdErr⟩ := updateFlags_eq hFlags
  have hQ44 : q.buf 44 = flags := by rw [hQ, Function.update_self]
  -- The other flags are what they were, with a mark or without.
  have hMark : buf 44 &&& rplHdrOptDown = p.buf 44 &&& rplHdrOptDown ∧
      buf 44 &&& rplHdrOptFwdErr = p.buf 44 &&& rplHdrOptFwdErr := by
    rcases hCase with ⟨-, h44⟩ | ⟨-, -, h44⟩
    · rw [h44]
      exact ⟨rfl, rfl⟩
    · rw [h44]
      exact ⟨(rankErr_flags _).1, (rankErr_flags _).2.2⟩
  constructor
  · rw [hQ, optionBuf_of_ne (by decide) (by decide) (by decide), Function.update_of_ne (by decide),
      h45]
  · rw [hQ44, hFwdErr, hMark.2]
    exact ⟨hNoErr, hNoErr⟩
  · rw [hQ, senderRank_putU16 (node.rank_lt _ _ hInstance), RplNode.rank, ← h45, hInstance]
    rfl
  · rw [goesDown_iff, goesDown_iff, hQ44, ← hMark.1]
    exact fun hWas => hDown.mpr (hRouted hWas)
  · intro hWas
    rcases hCase with ⟨-, h44⟩ | ⟨-, hClear, -⟩
    · rw [rankErr_iff, hQ44, hErr, h44]
      exact rankErr_iff.mp hWas
    · rw [hClear] at hWas
      exact absurd hWas Bool.false_ne_true
  · intro hWrong
    rcases hCase with ⟨hConsistent, -⟩ | ⟨-, hClear, h44⟩
    · exact absurd hConsistent hWrong
    · refine ⟨hClear, ?_⟩
      rw [rankErr_iff, hQ44, hErr, h44]
      exact (rankErr_flags _).2.1

/-- A node below the root checks the option and brings it up to date. -/
theorem Carries.passed (h : Carries c rplHopByHopLen ttl p) (hInner : hop.node.Inner)
    (hOwn : hop.node.isMyUnicast c.src = true → ttl ≤ hop.node.curHopLimit)
    (hForwards : Forwards hop p q) :
    Carries c rplHopByHopLen (ttl - 1) q ∧ Passed hop.node p q := by
  obtain ⟨s, r, rounds, hBuf, hForward, hTtl, hNext, hUpdate⟩ := h.forwards_eq hForwards
  rw [rplUpdateHeader_inner hInner (forwardPacket_dest hForward) (hNext.not_own hTtl hOwn)]
    at hUpdate
  refine ⟨hNext.update hUpdate, ?_⟩
  have hVerified : verified hop.node.ip (Uip.arrived p hop.behind) = some s.buf := by
    rcases hBuf with ⟨hExt, -⟩ | ⟨-, hVerified⟩
    · exact absurd hExt (by decide)
    · exact hVerified
  obtain ⟨-, rfl⟩ := forwardPacket_eq hForward
  obtain ⟨i, flags, hInstance, -, hFlags, rfl⟩ :=
    updateHbhHeader_of_option hNext.hasOption hUpdate
  exact h.passed_of_verified hVerified hInstance hFlags rfl

theorem exists_updateHbhHeader (hOption : HasOption p.buf) {i : RplInstance}
    (hInstance : node.ip.rplGetInstance (p.buf 45) = some i) (hJoined : i.joined = true)
    (hRouted : p.buf 44 &&& rplHdrOptDown ≠ 0 → node.routed (destipaddr p.buf) = true) :
    ∃ q, updateHbhHeader node p = some q := by
  have hWrong : ¬ (p.buf 41 ≠ 0 ∨ p.buf 43 ≠ rplHdrOptLen) := by
    rw [hOption.len, hOption.optLen]
    decide
  rw [updateHbhHeader, if_pos ⟨hOption.proto, hOption.optType⟩, if_neg hWrong, hInstance,
    Option.bind_some, if_pos hJoined, updateFlags]
  by_cases hDown : p.buf 44 &&& rplHdrOptDown ≠ 0
  · rw [if_pos hDown, if_pos (hRouted hDown)]
    exact ⟨_, rfl⟩
  · rw [if_neg hDown]
    exact ⟨_, rfl⟩

/-- A node accepts an option whose direction its rank does not contradict. -/
theorem verified_of_consistent {buf : Nat → Byte} (hOption : HasOption buf) {i : RplInstance}
    (hInstance : ip.rplGetInstance (buf 45) = some i) (hJoined : i.joined = true)
    (hFwdErr : buf 44 &&& rplHdrOptFwdErr = 0)
    (hConsistent : buf 44 &&& rplHdrOptDown ≠ 0 ↔ senderRank buf < i.rank) :
    verified ip buf = some buf := by
  have hTaken : ¬ (buf 44 &&& rplHdrOptFwdErr ≠ 0 ∨ i.joined = false) := by
    rw [hFwdErr, hJoined]
    decide
  rw [verified, rplVerifyHbhHeader_value hOption.len hOption.optLen, hInstance]
  dsimp only
  rw [if_neg hTaken, if_pos hConsistent]

/-- A node below the root forwards a packet whose direction its rank does not contradict. -/
theorem Carries.exists_passes (h : Carries c rplHopByHopLen ttl p)
    (hAddresses : Unicast c.src c.dest) (hTtl : 1 < ttl)
    (hMine : hop.node.ip.isMyAddr c.dest = false) (hInner : hop.node.Inner)
    (hOwn : hop.node.isMyUnicast c.src = true → ttl ≤ hop.node.curHopLimit) {i : RplInstance}
    (hInstance : hop.node.ip.rplGetInstance (p.buf 45) = some i) (hJoined : i.joined = true)
    (hFwdErr : p.buf 44 &&& rplHdrOptFwdErr = 0)
    (hConsistent : (crossingOf hop.node p).Consistent)
    (hRouted : goesDown p = true → hop.node.routed c.dest = true) : ∃ q, Forwards hop p q := by
  have hSame {i : Nat} (hi : i < 48) := h.arrived_eq hop.behind hi
  have hOption : HasOption (Uip.arrived p hop.behind) := (h.arrived hop.behind).hasOption
  have hFound : hop.node.ip.rplGetInstance (Uip.arrived p hop.behind 45) = some i := by
    rw [hSame (by decide), hInstance]
  have hVerified : verified hop.node.ip (Uip.arrived p hop.behind) =
      some (Uip.arrived p hop.behind) := by
    have hRank : hop.node.rank (p.buf 45) = i.rank := by
      rw [RplNode.rank, hInstance]
      rfl
    refine verified_of_consistent hOption hFound hJoined ?_ ?_
    · rw [hSame (by decide), hFwdErr]
    · rw [hSame (by decide), Uip.senderRank, hSame (by decide), hSame (by decide), ← hRank,
        ← goesDown_iff]
      exact hConsistent
  obtain ⟨s, hVisits, hEnd⟩ := @visits_of_option hop.node.ip _ hOption
  rw [hVerified] at hEnd
  obtain ⟨hBuf, -, hDone⟩ := hEnd
  rw [← hBuf] at hFound
  have hWalked := @Carries.walked c rplHopByHopLen ttl _ hop.node.ip (h.arrived hop.behind) s
    (Or.inr ⟨rfl, by rw [hBuf]; exact hVerified⟩)
  obtain ⟨r, hForward⟩ := hWalked.forwardPacket hAddresses hTtl
  obtain ⟨-, hNext⟩ := hWalked.forward hForward
  have hRoute : s.buf 44 &&& rplHdrOptDown ≠ 0 → hop.node.routed c.dest = true := by
    rw [hBuf, hSame (by decide), ← goesDown_iff]
    exact hRouted
  obtain ⟨q, hUpdate⟩ : ∃ q, updateHbhHeader hop.node r = some q := by
    have hDest := hNext.destipaddr_eq
    have hNextOption := hNext.hasOption
    obtain ⟨-, rfl⟩ := forwardPacket_eq hForward
    exact exists_updateHbhHeader hNextOption hFound hJoined (hDest ▸ hRoute)
  have hOutput : rplUpdateHeader 0 hop.node r = some q :=
    (rplUpdateHeader_inner hInner (forwardPacket_dest hForward) (hNext.not_own hTtl hOwn)).trans
      hUpdate
  exact ⟨q, h.forwards_of_walk hAddresses hMine hVisits hDone hForward hNext hOutput⟩

/-- Downwards, a packet comes back to a rank only where the direction is contradicted. -/
theorem countP_rank_le (rank : Nat) {sender : Nat} {passed : List Crossing}
    (hDown : ∀ crossing ∈ passed, crossing.down = true)
    (hChain : passed.IsChain (fun a b => b.senderRank = a.rank))
    (hSender : ∀ crossing ∈ passed.head?, crossing.senderRank = sender) :
    passed.countP (fun crossing => crossing.rank = rank) ≤
      passed.countP (fun crossing => ¬ crossing.Consistent) + (if rank ≤ sender then 0 else 1) := by
  induction passed generalizing sender with
  | nil => exact Nat.zero_le _
  | cons crossing passed ih =>
      rw [List.forall_mem_cons] at hDown
      rw [List.isChain_cons] at hChain
      have hFrom : crossing.senderRank = sender := hSender crossing rfl
      have hRest := ih hDown.2 hChain.2 hChain.1
      have hConsistent : crossing.Consistent ↔ sender < crossing.rank := by
        rw [Crossing.Consistent, hDown.1, hFrom]
        exact ⟨fun h => h.mp rfl, fun h => ⟨fun _ => h, fun _ => rfl⟩⟩
      simp only [List.countP_cons, decide_eq_true_eq, hConsistent]
      split_ifs at hRest ⊢ <;> omega

section Run

variable {path : List (Hop × Packet)}

/-- Over nodes below the root a packet does not go up again once it goes down, each node finds the
rank of the one before it, and at most one of them finds that this contradicts the direction. -/
theorem Carries.crossings (h : Carries c rplHopByHopLen ttl p)
    (hInner : ∀ e ∈ path, e.1.node.Inner)
    (hOwn : ∀ e ∈ path, e.1.node.isMyUnicast c.src = true → ttl ≤ e.1.node.curHopLimit)
    (hTravels : Travels p path) :
    (goesDown p = true → ∀ crossing ∈ Uip.crossings p path, crossing.down = true) ∧
      (Uip.crossings p path).Pairwise (fun a b => a.down = true → b.down = true) ∧
      (Uip.crossings p path).IsChain (fun a b => b.senderRank = a.rank) ∧
      (Uip.crossings p path).countP (fun crossing => ¬ crossing.Consistent) ≤
        (if rankErr p then 0 else 1) := by
  induction path generalizing p ttl with
  | nil => exact ⟨fun _ _ hMem => absurd hMem List.not_mem_nil, List.Pairwise.nil, List.IsChain.nil,
      Nat.zero_le _⟩
  | cons e path ih =>
      obtain ⟨hop, q⟩ := e
      obtain ⟨hForwards, hRest⟩ := hTravels
      rw [List.forall_mem_cons] at hInner hOwn
      obtain ⟨hTtl, -⟩ := h.forwards hOwn.1 hForwards
      obtain ⟨hNext, hPassed⟩ := h.passed hInner.1 hOwn.1 hForwards
      obtain ⟨hDown, hPairwise, hChain, hCount⟩ := ih hNext hInner.2 (own_lower hTtl hOwn.2) hRest
      rw [Uip.crossings]
      refine ⟨fun hWas => ?_, List.Pairwise.cons (fun b hMem hWas => ?_) hPairwise, ?_, ?_⟩
      · exact List.forall_mem_cons.mpr ⟨hWas, hDown (hPassed.down hWas)⟩
      · exact hDown (hPassed.down hWas) b hMem
      · cases path with
        | nil => exact List.IsChain.singleton _
        | cons e path => exact List.IsChain.cons_cons hPassed.senderRank hChain
      · rw [List.countP_cons]
        by_cases hConsistent : (crossingOf hop.node p).Consistent
        · rw [if_neg (by simpa using hConsistent), Nat.add_zero]
          refine hCount.trans ?_
          by_cases hErr : rankErr p = true
          · rw [if_pos hErr, if_pos (hPassed.marked hErr)]
          · rw [if_neg hErr]
            split_ifs
            · exact Nat.zero_le _
            · exact Nat.le_refl _
        · obtain ⟨hClear, hMarked⟩ := hPassed.contradiction hConsistent
          rw [if_pos hMarked] at hCount
          rw [if_pos (by simpa using hConsistent), hClear]
          show _ ≤ 1
          omega

theorem head_crossings : ∀ crossing ∈ (crossings p path).head?,
    crossing.senderRank = senderRank p.buf := by
  cases path with
  | nil => exact fun _ hMem => absurd hMem (Option.not_mem_none _)
  | cons e path =>
      intro crossing hMem
      obtain rfl := Option.some.inj hMem
      rfl

end Run

section Below

def innerIp (addr : Ipv6Address) (rank : Fin 65536) : IpState where
  rplGetInstance := fun number => if number = 0x1E then some ⟨true, rank⟩ else none
  isMyAddr := fun other => other = addr.toList

theorem innerIp_rank_lt {addr : Ipv6Address} {rank : Fin 65536} (number : Byte) (i : RplInstance)
    (h : (innerIp addr rank).rplGetInstance number = some i) : i.rank < 65536 := by
  simp only [innerIp] at h
  split_ifs at h
  obtain rfl := Option.some.inj h
  exact rank.isLt

/-- A node that has joined a DAG with this rank. -/
def innerNode (addr : Ipv6Address) (rank : Fin 65536) : RplNode where
  ip := innerIp addr rank
  rank_lt := innerIp_rank_lt
  defaultInstance := some ⟨0x1E, rank, 256⟩
  isMyUnicast := fun other => other = addr.toList
  routed := fun _ => false
  curHopLimit := 64

end Below

end Step

end Smarthome.Uip
