import Smarthome.Routes.Search

/-! What `uip_ds6_route_add` leaves of the routes that were there, and where the searches
after it lead. -/
namespace Smarthome.Routes

open Semantics

/-- The routes that are left lead where they did. -/
structure SameRoutes (config : Config) (s t : State) : Prop where
  nbrTableKeys : t.nbrTableKeys = s.nbrTableKeys
  lladdr : t.lladdr = s.lladdr
  nbrIpaddr : t.nbrIpaddr = s.nbrIpaddr
  used : ∀ n, t.usedMap n config.ds6Neighbors = s.usedMap n config.ds6Neighbors
  neighborRoutes : t.neighborRoutes = s.neighborRoutes
  ipaddr : t.ipaddr = s.ipaddr
  length : t.length = s.length

section Frame

variable {config : Config} {s t u : State} {r : Route} {n : Index}

theorem SameRoutes.trans (hFirst : SameRoutes config s t) (hSecond : SameRoutes config t u) :
    SameRoutes config s u where
  nbrTableKeys := hSecond.nbrTableKeys.trans hFirst.nbrTableKeys
  lladdr := hSecond.lladdr.trans hFirst.lladdr
  nbrIpaddr := hSecond.nbrIpaddr.trans hFirst.nbrIpaddr
  used n := (hSecond.used n).trans (hFirst.used n)
  neighborRoutes := hSecond.neighborRoutes.trans hFirst.neighborRoutes
  ipaddr := hSecond.ipaddr.trans hFirst.ipaddr
  length := hSecond.length.trans hFirst.length

theorem SameRoutes.indexFromLladdr (h : SameRoutes config s t) (lladdr : Option Linkaddr) :
    t.indexFromLladdr lladdr = s.indexFromLladdr lladdr := by
  rw [State.indexFromLladdr, State.indexFromLladdr, h.nbrTableKeys, h.lladdr]

theorem SameRoutes.lladdrFromIpaddr (h : SameRoutes config s t) (ipaddr : Option Ipaddr) :
    t.uipDs6NbrLladdrFromIpaddr config ipaddr = s.uipDs6NbrLladdrFromIpaddr config ipaddr := by
  simp only [State.uipDs6NbrLladdrFromIpaddr, State.uipDs6NbrLookup, h.nbrTableKeys, h.lladdr,
    h.nbrIpaddr, h.used]

theorem SameRoutes.nexthop (h : SameRoutes config s t) (r : Route) :
    t.uipDs6RouteNexthop config r = s.uipDs6RouteNexthop config r := by
  simp only [State.uipDs6RouteNexthop, State.uipDs6NbrIpaddrFromLladdr,
    State.nbrTableGetFromLladdr, h.indexFromLladdr, h.lladdr, h.nbrIpaddr, h.used,
    h.neighborRoutes]

theorem SameRoutes.reorder (config : Config) (s : State) (routes : List Route) :
    SameRoutes config s (s.reorder routes) := ⟨rfl, rfl, rfl, fun _ => rfl, rfl, rfl, rfl⟩

theorem SameRoutes.nbrTableRemove (config : Config) (s : State) (n : Index) :
    SameRoutes config s (s.nbrTableRemove config.nbrRoutes n) :=
  ⟨rfl, rfl, rfl, fun _ => nbrSetBit_of_ne config.apart.symm, rfl, rfl, rfl⟩

theorem SameRoutes.initItem (config : Config) (s : State) (n : Index) :
    SameRoutes config s (s.initItem config config.nbrRoutes n) where
  nbrTableKeys := rfl
  lladdr := rfl
  nbrIpaddr := if_neg config.apart
  used _ := nbrSetBit_of_ne config.apart.symm
  neighborRoutes := rfl
  ipaddr := rfl
  length := rfl

theorem Inv.uipDs6RouteRm_same (h : Inv config none s) (hMem : r ∈ s.routelist) :
    SameRoutes config s (s.uipDs6RouteRm config r) ∧
      (s.uipDs6RouteRm config r).routelist = s.routelist.erase r := by
  obtain ⟨n, entry, hLinked, hFind, -, -⟩ := h.exists_entry hMem
  rw [uipDs6RouteRm_eq hLinked hFind]
  dsimp only
  split_ifs
  · refine ⟨SameRoutes.trans ?_ (SameRoutes.nbrTableRemove config _ n), rfl⟩
    exact ⟨rfl, rfl, rfl, fun _ => rfl, rfl, rfl, rfl⟩
  · exact ⟨⟨rfl, rfl, rfl, fun _ => rfl, rfl, rfl, rfl⟩, rfl⟩

end Frame

/-- A route has been put before those that were kept. -/
structure Added (config : Config) (s t : State) (kept : List Route) (ipaddr : Ipaddr)
    (length : Byte) (nexthop : Ipaddr) (r : Route) : Prop where
  routelist : t.routelist = r :: kept
  fresh : r ∉ kept
  ipaddr : t.ipaddr = Function.update s.ipaddr r ipaddr
  length : t.length = Function.update s.length r length
  nexthop_self : t.uipDs6RouteNexthop config r = some nexthop
  nexthop_other : ∀ q, q ≠ r → t.uipDs6RouteNexthop config q = s.uipDs6RouteNexthop config q

section Adding

variable {config : Config} {s t u : State} {q r : Route} {n : Index} {ipaddr nexthop : Ipaddr}
  {length : Byte} {nexthopLladdr : Linkaddr} {removable : Option Linkaddr} {kept : List Route}

theorem Added.of_same (hSame : SameRoutes config s t)
    (h : Added config t u kept ipaddr length nexthop r) :
    Added config s u kept ipaddr length nexthop r where
  routelist := h.routelist
  fresh := h.fresh
  ipaddr := hSame.ipaddr ▸ h.ipaddr
  length := hSame.length ▸ h.length
  nexthop_self := h.nexthop_self
  nexthop_other q hNe := (h.nexthop_other q hNe).trans (hSame.nexthop q)

/-- The neighbor of the next hop is in the table under its address. -/
theorem Inv.indexFromLladdr_nexthop (h : Inv config none s)
    (hNbr : s.uipDs6NbrLladdrFromIpaddr config (some nexthop) = some nexthopLladdr) :
    ∃ n, s.indexFromLladdr (some nexthopLladdr) = some n ∧ s.lladdr n = nexthopLladdr ∧
      s.usedMap n config.ds6Neighbors = true ∧ s.nbrIpaddr n = nexthop := by
  obtain ⟨n, hLookup, rfl⟩ := Option.map_eq_some_iff.mp hNbr
  have hKey := List.mem_of_find?_eq_some hLookup
  have hIs := List.find?_some hLookup
  rw [decide_eq_true_iff] at hIs
  refine ⟨n, ?_, rfl, hIs.1, Option.some.inj hIs.2⟩
  cases hIndex : s.indexFromLladdr (some (s.lladdr n)) with
  | none => exact absurd rfl (indexFromLladdr_none hIndex n hKey)
  | some m =>
      obtain ⟨hListed, hSame⟩ := indexFromLladdr_some hIndex
      rw [h.keys.lladdrs m hListed n hKey hSame.symm]

/-- A new route: what has changed of the things that a search looks at. -/
theorem linkRoute_eq (hAdd : s.linkRoute config ipaddr length nexthopLladdr n = (t, some r)) :
    r ∉ s.routememb ∧ t.routelist = listPush s.routelist r ∧
      t.neighborRoutes = Function.update s.neighborRoutes r (some n) ∧
      t.ipaddr = Function.update s.ipaddr r ipaddr ∧
      t.length = Function.update s.length r length ∧ t.lladdr = s.lladdr ∧
      ∀ lladdr, t.uipDs6NbrIpaddrFromLladdr config lladdr =
        s.uipDs6NbrIpaddrFromLladdr config lladdr := by
  unfold State.linkRoute at hAdd
  cases hAlloc : s.routememb.alloc with
  | none =>
      rw [hAlloc] at hAdd
      exact absurd (congrArg Prod.snd hAdd).symm (Option.some_ne_none r)
  | some fresh =>
      rw [hAlloc] at hAdd
      dsimp only at hAdd
      cases hEntry : s.neighborroutememb.alloc with
      | none =>
          rw [hEntry] at hAdd
          exact absurd (congrArg Prod.snd hAdd).symm (Option.some_ne_none r)
      | some entry =>
          rw [hEntry] at hAdd
          obtain ⟨rfl, hr⟩ := Prod.mk.inj hAdd
          obtain rfl := Option.some.inj hr
          exact ⟨BlockPool.not_mem_of_alloc hAlloc, rfl, rfl, rfl, rfl, rfl, fun _ => rfl⟩

theorem Inv.linkRoute_added (h : Inv config none s)
    (hNbr : s.uipDs6NbrLladdrFromIpaddr config (some nexthop) = some nexthopLladdr)
    (hIndex : s.indexFromLladdr (some nexthopLladdr) = some n)
    (hAdd : s.linkRoute config ipaddr length nexthopLladdr n = (t, some r)) :
    Added config s t s.routelist ipaddr length nexthop r := by
  obtain ⟨m, hSame, hLladdr, hUsed, hIs⟩ := h.indexFromLladdr_nexthop hNbr
  obtain rfl := Option.some.inj (hIndex.symm.trans hSame)
  obtain ⟨hNew, hList, hLinked, hIpaddr, hLength, hAddrs, hHops⟩ := linkRoute_eq hAdd
  have hFresh : r ∉ s.routelist := fun hIn => hNew ((h.routes.routememb r).mpr hIn)
  refine ⟨?_, hFresh, hIpaddr, hLength, ?_, fun q hNe => ?_⟩
  · rw [hList, listPush, List.erase_of_not_mem hFresh]
  · rw [State.uipDs6RouteNexthop, hHops, hLinked, hAddrs, Function.update_self, Option.map_some,
      hLladdr, State.uipDs6NbrIpaddrFromLladdr, State.nbrTableGetFromLladdr, hIndex,
      Option.filter_some, if_pos hUsed, Option.map_some, hIs]
  · rw [State.uipDs6RouteNexthop, State.uipDs6RouteNexthop, hHops, hLinked, hAddrs,
      Function.update_of_ne hNe]

theorem Inv.routesOf_same (h : Inv config none s) (removable : Option Linkaddr)
    (hNbr : s.uipDs6NbrLladdrFromIpaddr config (some nexthop) = some nexthopLladdr) :
    ∃ n, (s.routesOf config nexthopLladdr removable).2 = some n ∧
      s.indexFromLladdr (some nexthopLladdr) = some n ∧
      SameRoutes config s (s.routesOf config nexthopLladdr removable).1 ∧
      (s.routesOf config nexthopLladdr removable).1.routelist = s.routelist := by
  obtain ⟨n, hIndex, -⟩ := h.indexFromLladdr_nexthop hNbr
  unfold State.routesOf
  cases hGet : s.nbrTableGetFromLladdr config.nbrRoutes (some nexthopLladdr) with
  | none =>
      dsimp only
      rw [State.nbrTableAddLladdr, hIndex]
      exact ⟨n, rfl, rfl, SameRoutes.initItem config s n, rfl⟩
  | some m =>
      rw [State.nbrTableGetFromLladdr, Option.filter_eq_some_iff] at hGet
      exact ⟨m, rfl, hGet.1, SameRoutes.reorder config s s.routelist, rfl⟩

theorem Inv.linked_added (h : Inv config none s)
    (hNbr : s.uipDs6NbrLladdrFromIpaddr config (some nexthop) = some nexthopLladdr)
    (hFound : s.routesOf config nexthopLladdr removable = (u, some n))
    (hAdd : u.linkRoute config ipaddr length nexthopLladdr n = (t, some r)) :
    Added config s t s.routelist ipaddr length nexthop r := by
  have hInv := (h.routesOf nexthopLladdr removable).1
  obtain ⟨m, hIs, hIndex, hSame, hList⟩ := h.routesOf_same removable hNbr
  rw [hFound] at hInv hIs hSame hList
  obtain rfl : n = m := Option.some.inj hIs
  have hAdded := hInv.linkRoute_added ((hSame.lladdrFromIpaddr _).trans hNbr)
    ((hSame.indexFromLladdr _).trans hIndex) hAdd
  rw [hList] at hAdded
  exact hAdded.of_same hSame

theorem erase_last {routes : List Route} (hNodup : routes.Nodup) (hLast : routes.getLast? = some r) :
    routes.erase r = routes.dropLast := by
  obtain ⟨before, rfl⟩ := List.getLast?_eq_some_iff.mp hLast
  have hNot : r ∉ before := fun hIn => (List.nodup_append.mp hNodup).2.2 r hIn r (by simp) rfl
  rw [List.dropLast_concat, List.erase_append_right _ hNot]
  simp

theorem Inv.addRoute_added (h : Inv config none s)
    (hNbr : s.uipDs6NbrLladdrFromIpaddr config (some nexthop) = some nexthopLladdr)
    (hAdd : s.addRoute config ipaddr length nexthopLladdr removable = (t, some r)) :
    Added config s t (if s.numRoutes = uipDs6RouteNb then s.routelist.dropLast else s.routelist)
      ipaddr length nexthop r := by
  unfold State.addRoute at hAdd
  dsimp only at hAdd
  have hNone (u : State) (hIs : (u, none) = (t, some r)) : False :=
    absurd (congrArg Prod.snd hIs).symm (Option.some_ne_none r)
  split_ifs at hAdd ⊢ with hFull hDrop
  · cases hLast : s.routelist.getLast? with
    | none =>
        rw [hLast] at hAdd
        exact (hNone s hAdd).elim
    | some oldest =>
        rw [hLast, Option.map_some] at hAdd
        dsimp only at hAdd
        have hMem := List.mem_of_getLast? hLast
        obtain ⟨hSame, hList⟩ := h.uipDs6RouteRm_same hMem
        generalize hFound : (s.uipDs6RouteRm config oldest).routesOf config nexthopLladdr removable =
          found at hAdd
        obtain ⟨u, _ | n⟩ := found
        · exact (hNone u hAdd).elim
        · have hAdded := (h.uipDs6RouteRm hMem).linked_added
            ((hSame.lladdrFromIpaddr _).trans hNbr) hFound hAdd
          rw [hList, erase_last h.routes.nodup hLast] at hAdded
          exact hAdded.of_same hSame
  · exact (hNone s hAdd).elim
  · dsimp only at hAdd
    generalize hFound : s.routesOf config nexthopLladdr removable = found at hAdd
    obtain ⟨u, _ | n⟩ := found
    · exact (hNone u hAdd).elim
    · exact h.linked_added hNbr hFound hAdd

theorem Inv.numRoutes_le (h : Inv config none s) : s.numRoutes ≤ uipDs6RouteNb := by
  have hCard := h.routes.nodup.length_le_card
  rw [Fintype.card_fin] at hCard
  rw [h.routes.numRoutes]
  exact_mod_cast hCard

/-- Where the search has moved a route to the start, that route makes room for the new one. -/
theorem Inv.addRoute_replaced (h : Inv config none s) (hMem : q ∈ s.routelist)
    (hMoved : Inv config none (s.reorder (moveToFront s.routelist q)))
    (hNbr : s.uipDs6NbrLladdrFromIpaddr config (some nexthop) = some nexthopLladdr)
    (hAdd : ((s.reorder (moveToFront s.routelist q)).uipDs6RouteRm config q).addRoute config ipaddr
      length nexthopLladdr removable = (t, some r)) :
    Added config s t (s.routelist.erase q) ipaddr length nexthop r := by
  have hFirst : q ∈ (s.reorder (moveToFront s.routelist q)).routelist := List.mem_cons_self ..
  obtain ⟨hSame, hList⟩ := hMoved.uipDs6RouteRm_same hFirst
  have hErased : (s.reorder (moveToFront s.routelist q)).routelist.erase q = s.routelist.erase q :=
    List.erase_cons_head ..
  rw [hErased] at hList
  have hRemoved := hMoved.uipDs6RouteRm hFirst
  have hRoom : ((s.reorder (moveToFront s.routelist q)).uipDs6RouteRm config q).numRoutes ≠
      uipDs6RouteNb := by
    intro hFull
    have hCount := hRemoved.routes.numRoutes
    rw [hList, hFull, List.length_erase_of_mem hMem] at hCount
    have hAll := h.numRoutes_le
    rw [h.routes.numRoutes] at hAll
    have hPos := List.length_pos_of_mem hMem
    omega
  have hKept := (SameRoutes.reorder config s (moveToFront s.routelist q)).trans hSame
  have hAdded := hRemoved.addRoute_added ((hKept.lladdrFromIpaddr _).trans hNbr) hAdd
  rw [if_neg hRoom, hList] at hAdded
  exact hAdded.of_same hKept

/-- The call finds a route through the next hop and leaves it, or it removes what it has
found and adds a new route. -/
theorem Inv.uipDs6RouteAdd_cases (h : Inv config none s) (hLengths : ∀ q, s.length q ≤ 128)
    (hAdd : s.uipDs6RouteAdd config ipaddr length nexthop removable = (t, some r)) :
    (∀ q ∈ s.routelist, ¬ s.Matches ipaddr q) ∧
        Added config s t (if s.numRoutes = uipDs6RouteNb then s.routelist.dropLast
          else s.routelist) ipaddr length nexthop r ∨
      ∃ q, s.Finds ipaddr s.routelist q ∧
        (s.uipDs6RouteNexthop config q = some nexthop ∧
            t = s.reorder (moveToFront s.routelist q) ∨
          s.uipDs6RouteNexthop config q ≠ some nexthop ∧
            Added config s t (s.routelist.erase q) ipaddr length nexthop r) := by
  unfold State.uipDs6RouteAdd at hAdd
  cases hNbr : s.uipDs6NbrLladdrFromIpaddr config (some nexthop) with
  | none =>
      rw [hNbr] at hAdd
      exact absurd (congrArg Prod.snd hAdd).symm (Option.some_ne_none r)
  | some nexthopLladdr =>
      rw [hNbr] at hAdd
      dsimp only at hAdd
      by_cases hMatch : ∃ q ∈ s.routelist, s.Matches ipaddr q
      · obtain ⟨q, hFinds⟩ := exists_finds hLengths hMatch
        have hInv := (h.uipDs6RouteLookup ipaddr).1
        rw [uipDs6RouteLookup_of_finds hLengths h.routes.nodup hFinds] at hAdd hInv
        dsimp only at hAdd hInv
        rw [(SameRoutes.reorder config s (moveToFront s.routelist q)).nexthop] at hAdd
        refine Or.inr ⟨q, hFinds, ?_⟩
        split_ifs at hAdd with hHop
        · exact Or.inl ⟨hHop, (congrArg Prod.fst hAdd).symm⟩
        · exact Or.inr ⟨hHop, h.addRoute_replaced hFinds.longest.1 hInv hNbr hAdd⟩
      · have hNone : ∀ q ∈ s.routelist, ¬ s.Matches ipaddr q := fun q hIn hIs => hMatch ⟨q, hIn, hIs⟩
        rw [uipDs6RouteLookup_of_none hLengths hNone] at hAdd
        exact Or.inl ⟨hNone, h.addRoute_added hNbr hAdd⟩

end Adding

section Lengths

variable (config : Config) {s t : State}

@[simp] theorem uipDs6RouteRm_length (s : State) (r : Route) :
    (s.uipDs6RouteRm config r).length = s.length := by
  unfold State.uipDs6RouteRm
  split
  · rfl
  · dsimp only
    split_ifs <;> rfl

@[simp] theorem rmRoutes_length (routes : Index) (fuel : Nat) (s : State) :
    (State.rmRoutes config routes fuel s).length = s.length := by
  induction fuel generalizing s with
  | zero => rfl
  | succ fuel ih =>
      rw [State.rmRoutes]
      split
      · rfl
      · rw [ih, uipDs6RouteRm_length]

@[simp] theorem rmRoutelist_length (s : State) (routes : Index) :
    (s.rmRoutelist config routes).length = s.length := rmRoutes_length config routes _ s

@[simp] theorem callback_length (key : Index) (s : State) (table : Table) :
    (s.callback config key table).length = s.length := by
  unfold State.callback
  split_ifs
  · exact rmRoutelist_length config s key
  · rfl
  · rfl
  · rfl

@[simp] theorem removeKey_length (s : State) (key : Index) :
    (s.removeKey config key).length = s.length := by
  have hCallbacks (tables : List Table) (s : State) :
      (tables.foldl (State.callback config key) s).length = s.length := by
    induction tables generalizing s with
    | nil => rfl
    | cons table tables ih => rw [List.foldl_cons, ih, callback_length]
  exact hCallbacks (List.finRange maxNumTables) s

@[simp] theorem nbrTableAllocate_length (s : State) (removable : Option Linkaddr) :
    (s.nbrTableAllocate config removable).1.length = s.length := by
  unfold State.nbrTableAllocate
  repeat' split
  all_goals simp

@[simp] theorem nbrTableAddLladdr_length (s : State) (table : Table)
    (lladdr removable : Option Linkaddr) :
    (s.nbrTableAddLladdr config table lladdr removable).1.length = s.length := by
  have hAllocate := nbrTableAllocate_length config s removable
  unfold State.nbrTableAddLladdr
  split
  · rfl
  · generalize s.nbrTableAllocate config removable = allocated at hAllocate
    obtain ⟨t, _ | key⟩ := allocated
    · exact hAllocate
    · exact hAllocate

theorem uipDs6NbrAdd_length (s : State) (ipaddr : Ipaddr) (lladdr removable : Option Linkaddr) :
    (s.uipDs6NbrAdd config ipaddr lladdr removable).length = s.length := by
  have hAdd := nbrTableAddLladdr_length config s config.ds6Neighbors lladdr removable
  unfold State.uipDs6NbrAdd
  generalize s.nbrTableAddLladdr config config.ds6Neighbors lladdr removable = added at hAdd
  obtain ⟨t, _ | key⟩ := added
  · exact hAdd
  · exact hAdd

@[simp] theorem uipDs6RouteLookup_length (s : State) (addr : Ipaddr) :
    (s.uipDs6RouteLookup addr).1.length = s.length := by
  unfold State.uipDs6RouteLookup
  split
  · rfl
  · split_ifs <;> rfl

@[simp] theorem routesOf_length (s : State) (nexthopLladdr : Linkaddr)
    (removable : Option Linkaddr) :
    (s.routesOf config nexthopLladdr removable).1.length = s.length := by
  unfold State.routesOf
  split
  · rfl
  · exact nbrTableAddLladdr_length ..

theorem linkRoute_lengths (hLengths : ∀ q, s.length q ≤ 128) (ipaddr : Ipaddr) {length : Byte}
    (hLength : length ≤ 128) (nexthopLladdr : Linkaddr) (routes : Index) (q : Route) :
    (s.linkRoute config ipaddr length nexthopLladdr routes).1.length q ≤ 128 := by
  unfold State.linkRoute
  split
  · exact hLengths q
  · dsimp only
    split
    · exact hLengths q
    · dsimp only [State.nbrTableLock]
      rw [Function.update_apply]
      split_ifs
      · exact hLength
      · exact hLengths q

theorem addRoute_lengths (hLengths : ∀ q, s.length q ≤ 128) (ipaddr : Ipaddr) {length : Byte}
    (hLength : length ≤ 128) (nexthopLladdr : Linkaddr) (removable : Option Linkaddr) (q : Route) :
    (s.addRoute config ipaddr length nexthopLladdr removable).1.length q ≤ 128 := by
  unfold State.addRoute
  dsimp only
  generalize hRoom : (if s.numRoutes = _ then _ else _ : Option State) = room
  cases room with
  | none => exact hLengths q
  | some t =>
      have hSame : t.length = s.length := by
        split_ifs at hRoom
        · obtain ⟨oldest, -, rfl⟩ := Option.map_eq_some_iff.mp hRoom
          exact uipDs6RouteRm_length config s oldest
        · rw [Option.some.inj hRoom]
      have hRoutes := routesOf_length config t nexthopLladdr removable
      dsimp only
      generalize t.routesOf config nexthopLladdr removable = found at hRoutes
      obtain ⟨u, _ | n⟩ := found
      · rw [hRoutes, hSame]
        exact hLengths q
      · refine linkRoute_lengths config (fun r => ?_) ipaddr hLength nexthopLladdr n q
        rw [hRoutes, hSame]
        exact hLengths r

theorem uipDs6RouteAdd_lengths (hLengths : ∀ q, s.length q ≤ 128) (ipaddr : Ipaddr)
    {length : Byte} (hLength : length ≤ 128) (nexthop : Ipaddr) (removable : Option Linkaddr)
    (q : Route) : (s.uipDs6RouteAdd config ipaddr length nexthop removable).1.length q ≤ 128 := by
  unfold State.uipDs6RouteAdd
  cases s.uipDs6NbrLladdrFromIpaddr config (some nexthop) with
  | none => exact hLengths q
  | some nexthopLladdr =>
      have hLookup := uipDs6RouteLookup_length s ipaddr
      dsimp only
      generalize s.uipDs6RouteLookup ipaddr = found at hLookup
      obtain ⟨t, _ | r⟩ := found
      · exact addRoute_lengths config (hLookup ▸ hLengths) ipaddr hLength nexthopLladdr removable q
      · dsimp only
        split_ifs
        · exact hLookup ▸ hLengths q
        · refine addRoute_lengths config (fun r => ?_) ipaddr hLength nexthopLladdr removable q
          rw [uipDs6RouteRm_length, hLookup]
          exact hLengths r

end Lengths

/-- The callers keep to what they promise, and the routes that they add are to prefixes of
an address. -/
def PromisedPrefixes (config : Config) (s : State) (call : Call) : Prop :=
  Promised config s call ∧ match call with
    | .uipDs6RouteAdd _ length _ _ => length ≤ 128
    | _ => True

/-- In a table of prefixes all routes have lengths of prefixes. -/
theorem lengths_of_run {config : Config} {s : State}
    (run : Reaches (step config) (PromisedPrefixes config) State.init s) :
    Inv config none s ∧ ∀ q, s.length q ≤ 128 := by
  refine run.invariant (fun s => Inv config none s ∧ ∀ q, s.length q ≤ 128)
    ⟨Inv.init config, fun _ => UInt8.zero_le⟩ ?_
  rintro u call t ⟨hInv, hLengths⟩ ⟨hPromised, hPrefix⟩ hStep
  refine ⟨hInv.step hPromised hStep, fun q => ?_⟩
  cases call with
  | nbrTableAddLladdr table lladdr removable =>
      rw [← Option.some.inj hStep, nbrTableAddLladdr_length]
      exact hLengths q
  | nbrTableRemove table item =>
      rw [← Option.some.inj hStep]
      exact hLengths q
  | nbrTableLock table item =>
      rw [← Option.some.inj hStep]
      exact hLengths q
  | nbrTableUnlock table item =>
      rw [← Option.some.inj hStep]
      exact hLengths q
  | uipDs6NbrAdd ipaddr lladdr removable =>
      rw [← Option.some.inj hStep, uipDs6NbrAdd_length]
      exact hLengths q
  | uipDs6RouteAdd ipaddr length nexthop removable =>
      rw [← Option.some.inj hStep]
      exact uipDs6RouteAdd_lengths config hLengths ipaddr hPrefix nexthop removable q
  | uipDs6RouteRm route =>
      rw [← Option.some.inj hStep, uipDs6RouteRm_length]
      exact hLengths q
  | uipDs6RouteLookup addr =>
      rw [← Option.some.inj hStep, uipDs6RouteLookup_length]
      exact hLengths q
  | uipDs6RouteRmByNexthop nexthop =>
      rw [← Option.some.inj hStep, State.uipDs6RouteRmByNexthop]
      split
      · exact hLengths q
      · rw [rmRoutelist_length]
        exact hLengths q

end Smarthome.Routes
