import Smarthome.Routes.Tables

/-! The neighbor table and the routes stay in step: every route is on the list of the neighbor
that it goes through, and that neighbor stays where it is as long as it has routes. -/
namespace Smarthome.Routes

open Semantics

/-- The listed neighbors have blocks and addresses of their own, and only they are used. -/
structure KeysOk (keys : List Index) (memb : BlockPool nbrTableMaxNeighbors)
    (lladdr : Index → Linkaddr) (usedMap : Bitmap) : Prop where
  nodup : keys.Nodup
  inUse : ∀ key ∈ keys, key ∈ memb
  lladdrs : ∀ key ∈ keys, ∀ other ∈ keys, lladdr key = lladdr other → key = other
  used : ∀ key table, usedMap key table = true → key ∈ keys

/-- The lists of the neighbors hold the routes of the list of all routes, each of them once,
and both pools have a block for each route. -/
structure RoutesOk (routelist : List Route) (numRoutes : Int)
    (routememb : BlockPool uipDs6RouteNb) (neighborRoutes : Route → Option Index)
    (routeList : Index → List NeighborRoute) (neighborroutememb : BlockPool uipDs6RouteNb)
    (route : NeighborRoute → Route) : Prop where
  nodup : routelist.Nodup
  numRoutes : numRoutes = routelist.length
  routememb : ∀ r, r ∈ routememb ↔ r ∈ routelist
  linked : ∀ r ∈ routelist, neighborRoutes r ≠ none
  entriesNodup : ∀ n, (routeList n).Nodup
  entriesOnce : ∀ n, ∀ entry ∈ routeList n, ∀ other ∈ routeList n,
    route entry = route other → entry = other
  entries : ∀ n r, (∃ entry ∈ routeList n, route entry = r) ↔
    r ∈ routelist ∧ neighborRoutes r = some n
  entriesInUse : ∀ n, ∀ entry ∈ routeList n, entry ∈ neighborroutememb
  entriesCount : neighborroutememb.card = routelist.length

/-- What every call keeps. A neighbor may lose its locks while it is evicted. -/
structure Inv (config : Config) (evicted : Option Index) (s : State) : Prop where
  keys : KeysOk s.nbrTableKeys s.neighborAddrMem s.lladdr s.usedMap
  routes : RoutesOk s.routelist s.numRoutes s.routememb s.neighborRoutes s.routeList
    s.neighborroutememb s.route
  used : ∀ n, s.routeList n ≠ [] → s.usedMap n config.nbrRoutes = true
  locked : ∀ n, s.routeList n ≠ [] → some n ≠ evicted → s.lockedMap n config.nbrRoutes = true
  via : ∀ r ∈ s.routelist, ∀ n, s.neighborRoutes r = some n → s.lladdr n = s.via r

section Keys

variable {keys : List Index} {memb : BlockPool nbrTableMaxNeighbors} {lladdr : Index → Linkaddr}
  {usedMap usedMap' : Bitmap} {key : Index}

theorem KeysOk.mono (h : KeysOk keys memb lladdr usedMap)
    (hFewer : ∀ key table, usedMap' key table = true → usedMap key table = true) :
    KeysOk keys memb lladdr usedMap' where
  nodup := h.nodup
  inUse := h.inUse
  lladdrs := h.lladdrs
  used key table hUsed := h.used key table (hFewer key table hUsed)

theorem nbrSetBit_self {bitmap : Bitmap} {table : Table} {item : Index} {value : Bool} :
    nbrSetBit bitmap table item value item table = value := by simp [nbrSetBit]

theorem nbrSetBit_of_ne {bitmap : Bitmap} {table other : Table} {item index : Index}
    {value : Bool} (hNe : other ≠ table) :
    nbrSetBit bitmap table item value index other = bitmap index other := by
  by_cases hItem : index = item
  · rw [hItem]
    simp [nbrSetBit, hNe]
  · simp [nbrSetBit, hItem]

theorem nbrSetBit_of_item_ne {bitmap : Bitmap} {table other : Table} {item index : Index}
    {value : Bool} (hNe : index ≠ item) :
    nbrSetBit bitmap table item value index other = bitmap index other := by
  simp [nbrSetBit, hNe]

theorem of_nbrSetBit_false {bitmap : Bitmap} {table other : Table} {item index : Index}
    (hSet : nbrSetBit bitmap table item false index other = true) :
    bitmap index other = true := by
  by_cases hItem : index = item
  · by_cases hTable : other = table
    · rw [hItem, hTable, nbrSetBit_self] at hSet
      cases hSet
    · rwa [nbrSetBit_of_ne hTable] at hSet
  · rwa [nbrSetBit_of_item_ne hItem] at hSet

/-- A bit that is set stays so when another one is set. -/
theorem nbrSetBit_of_true {bitmap : Bitmap} {table other : Table} {item index : Index}
    (hSet : bitmap index other = true) :
    nbrSetBit bitmap table item true index other = true := by
  by_cases hItem : index = item
  · by_cases hTable : other = table
    · rw [hItem, hTable]
      exact nbrSetBit_self
    · exact (nbrSetBit_of_ne hTable).trans hSet
  · exact (nbrSetBit_of_item_ne hItem).trans hSet

theorem KeysOk.use (h : KeysOk keys memb lladdr usedMap) (hMem : key ∈ keys) (table : Table) :
    KeysOk keys memb lladdr (nbrSetBit usedMap table key true) where
  nodup := h.nodup
  inUse := h.inUse
  lladdrs := h.lladdrs
  used other table' hUsed := by
    by_cases hEq : other = key
    · exact hEq ▸ hMem
    · rw [nbrSetBit_of_item_ne hEq] at hUsed
      exact h.used other table' hUsed

theorem KeysOk.remove (h : KeysOk keys memb lladdr usedMap) (key : Index) :
    KeysOk (keys.erase key) memb lladdr (Function.update usedMap key fun _ => false) where
  nodup := h.nodup.erase key
  inUse other hMem := h.inUse other (List.mem_of_mem_erase hMem)
  lladdrs other hOther another hAnother :=
    h.lladdrs other (List.mem_of_mem_erase hOther) another (List.mem_of_mem_erase hAnother)
  used other table hUsed := by
    rw [Function.update_apply] at hUsed
    split_ifs at hUsed with hEq
    exact (List.mem_erase_of_ne hEq).mpr (h.used other table hUsed)

theorem KeysOk.allocate (h : KeysOk keys memb lladdr usedMap) (key : Index) :
    KeysOk keys (insert key memb) lladdr usedMap where
  nodup := h.nodup
  inUse other hMem := Finset.mem_insert_of_mem (h.inUse other hMem)
  lladdrs := h.lladdrs
  used := h.used

theorem mem_listAdd {Item : Type} [DecidableEq Item] {list : List Item} {item other : Item} :
    other ∈ listAdd list item ↔ other ∈ list ∨ other = item := by
  rw [listAdd, List.mem_append, List.mem_singleton]
  by_cases hEq : other = item
  · simp [hEq]
  · simp [hEq, List.mem_erase_of_ne hEq]

theorem listAdd_of_not_mem {Item : Type} [DecidableEq Item] {list : List Item} {item : Item}
    (hNot : item ∉ list) : listAdd list item = list ++ [item] := by
  rw [listAdd, List.erase_of_not_mem hNot]

/-- A new neighbor, with an address that no listed one has. -/
theorem KeysOk.add (h : KeysOk keys memb lladdr usedMap) (hInUse : key ∈ memb)
    (hNot : key ∉ keys) {addr : Linkaddr} (hNew : ∀ other ∈ keys, addr ≠ lladdr other) :
    KeysOk (listAdd keys key) memb (Function.update lladdr key addr) usedMap := by
  have hSame (other : Index) (hMem : other ∈ keys) :
      Function.update lladdr key addr other = lladdr other :=
    Function.update_of_ne (ne_of_mem_of_not_mem hMem hNot) ..
  refine ⟨?_, fun other hMem => ?_, fun other hOther another hAnother hEq => ?_,
    fun other table hUsed => mem_listAdd.mpr (Or.inl (h.used other table hUsed))⟩
  · rw [listAdd_of_not_mem hNot]
    exact List.nodup_append_comm.mp (List.nodup_cons.mpr ⟨hNot, h.nodup⟩)
  · rcases mem_listAdd.mp hMem with hIn | rfl
    · exact h.inUse other hIn
    · exact hInUse
  · rcases mem_listAdd.mp hOther with hIn | rfl <;> rcases mem_listAdd.mp hAnother with hIn' | rfl
    · rw [hSame other hIn, hSame another hIn'] at hEq
      exact h.lladdrs other hIn another hIn' hEq
    · rw [hSame other hIn, Function.update_self] at hEq
      exact absurd hEq.symm (hNew other hIn)
    · rw [hSame another hIn', Function.update_self] at hEq
      exact absurd hEq (hNew another hIn')
    · rfl

end Keys

section Routes

variable {routelist : List Route} {numRoutes : Int} {routememb : BlockPool uipDs6RouteNb}
  {neighborRoutes : Route → Option Index} {routeList : Index → List NeighborRoute}
  {neighborroutememb : BlockPool uipDs6RouteNb} {route : NeighborRoute → Route}
  {n : Index} {r : Route} {entry : NeighborRoute}

/-- The order of the routes does not matter. -/
theorem RoutesOk.perm {routelist' : List Route}
    (h : RoutesOk routelist numRoutes routememb neighborRoutes routeList neighborroutememb route)
    (hPerm : routelist'.Perm routelist) :
    RoutesOk routelist' numRoutes routememb neighborRoutes routeList neighborroutememb route where
  nodup := hPerm.nodup_iff.mpr h.nodup
  numRoutes := h.numRoutes.trans (congrArg _ hPerm.length_eq.symm)
  routememb r := (h.routememb r).trans hPerm.mem_iff.symm
  linked r hMem := h.linked r (hPerm.mem_iff.mp hMem)
  entriesNodup := h.entriesNodup
  entriesOnce := h.entriesOnce
  entries n r := (h.entries n r).trans (and_congr_left' hPerm.mem_iff.symm)
  entriesInUse := h.entriesInUse
  entriesCount := h.entriesCount.trans hPerm.length_eq.symm

/-- An entry is on the list of one neighbor. -/
theorem RoutesOk.of_entry
    (h : RoutesOk routelist numRoutes routememb neighborRoutes routeList neighborroutememb route)
    (hMem : entry ∈ routeList n) :
    route entry ∈ routelist ∧ neighborRoutes (route entry) = some n :=
  (h.entries n _).mp ⟨entry, hMem, rfl⟩

theorem RoutesOk.remove
    (h : RoutesOk routelist numRoutes routememb neighborRoutes routeList neighborroutememb route)
    (hMem : entry ∈ routeList n) :
    RoutesOk (routelist.erase (route entry)) (numRoutes - 1) (routememb.erase (route entry))
      neighborRoutes (Function.update routeList n ((routeList n).erase entry))
      (neighborroutememb.erase entry) route := by
  obtain ⟨hRoute, hLinked⟩ := h.of_entry hMem
  have hLength := List.length_erase_of_mem hRoute
  have hPos := List.length_pos_of_mem hRoute
  have hCount := h.numRoutes
  have hErase (m : Index) (other : NeighborRoute) :
      other ∈ Function.update routeList n ((routeList n).erase entry) m ↔
        other ≠ entry ∧ other ∈ routeList m := by
    by_cases hEq : m = n
    · rw [hEq, Function.update_self, (h.entriesNodup n).mem_erase_iff]
    · rw [Function.update_of_ne hEq]
      refine (and_iff_right_of_imp fun hOther => ?_).symm
      rintro rfl
      exact hEq (Option.some.inj ((h.of_entry hOther).2.symm.trans hLinked))
  have hOnce (m : Index) (other : NeighborRoute) (hOther : other ∈ routeList m) :
      other ≠ entry ↔ route other ≠ route entry := by
    refine not_congr ⟨congrArg route, fun hEq => ?_⟩
    obtain rfl : m = n :=
      Option.some.inj ((h.of_entry hOther).2.symm.trans (hEq ▸ hLinked))
    exact h.entriesOnce m other hOther entry hMem hEq
  refine ⟨h.nodup.erase _, by rw [hLength]; omega, fun r => ?_, fun r hIn => ?_, fun m => ?_,
    fun m other hOther another hAnother hEq => ?_, fun m r => ?_, fun m other hOther => ?_, ?_⟩
  · rw [Finset.mem_erase, h.nodup.mem_erase_iff, h.routememb r]
  · exact h.linked r (List.mem_of_mem_erase hIn)
  · rw [Function.update_apply]
    split_ifs
    · exact (h.entriesNodup n).erase entry
    · exact h.entriesNodup m
  · rw [hErase] at hOther hAnother
    exact h.entriesOnce m other hOther.2 another hAnother.2 hEq
  · rw [h.nodup.mem_erase_iff, and_assoc, ← h.entries m r]
    constructor
    · rintro ⟨other, hOther, rfl⟩
      rw [hErase] at hOther
      exact ⟨(hOnce m other hOther.2).mp hOther.1, other, hOther.2, rfl⟩
    · rintro ⟨hNe, other, hOther, rfl⟩
      exact ⟨other, (hErase m other).mpr ⟨(hOnce m other hOther).mpr hNe, hOther⟩, rfl⟩
  · rw [hErase] at hOther
    exact Finset.mem_erase.mpr ⟨hOther.1, h.entriesInUse m other hOther.2⟩
  · rw [Finset.card_erase_of_mem (h.entriesInUse n entry hMem), h.entriesCount, hLength]

/-- A new route with a new entry. -/
theorem RoutesOk.add
    (h : RoutesOk routelist numRoutes routememb neighborRoutes routeList neighborroutememb route)
    (hRoute : r ∉ routememb) (hEntry : entry ∉ neighborroutememb) (n : Index) :
    RoutesOk (listPush routelist r) (numRoutes + 1) (insert r routememb)
      (Function.update neighborRoutes r (some n))
      (Function.update routeList n (listAdd (routeList n) entry))
      (insert entry neighborroutememb) (Function.update route entry r) := by
  have hNot : r ∉ routelist := fun hIn => hRoute ((h.routememb r).mpr hIn)
  have hFresh (m : Index) : entry ∉ routeList m := fun hIn => hEntry (h.entriesInUse m entry hIn)
  have hPush : listPush routelist r = r :: routelist := by
    rw [listPush, List.erase_of_not_mem hNot]
  have hCount := h.numRoutes
  have hMem (m : Index) (other : NeighborRoute) :
      other ∈ Function.update routeList n (listAdd (routeList n) entry) m ↔
        other ∈ routeList m ∨ m = n ∧ other = entry := by
    by_cases hEq : m = n
    · rw [hEq, Function.update_self, mem_listAdd]
      simp
    · simp [hEq]
  have hOld (m : Index) (other : NeighborRoute) (hIn : other ∈ routeList m) :
      Function.update route entry r other = route other :=
    Function.update_of_ne (ne_of_mem_of_not_mem hIn (hFresh m)) ..
  have hOldRoute (other : Route) (hIn : other ∈ routelist) :
      Function.update neighborRoutes r (some n) other = neighborRoutes other :=
    Function.update_of_ne (ne_of_mem_of_not_mem hIn hNot) ..
  have hApart (m : Index) (other : NeighborRoute) (hIn : other ∈ routeList m) : route other ≠ r :=
    ne_of_mem_of_not_mem (h.of_entry hIn).1 hNot
  rw [hPush]
  refine ⟨List.nodup_cons.mpr ⟨hNot, h.nodup⟩, by rw [List.length_cons]; omega, fun other => ?_,
    fun other hIn => ?_, fun m => ?_, fun m other hOther another hAnother hEq => ?_,
    fun m other => ?_, fun m other hOther => ?_, ?_⟩
  · rw [Finset.mem_insert, List.mem_cons, h.routememb other]
  · rcases List.mem_cons.mp hIn with rfl | hBefore
    · rw [Function.update_self]
      exact Option.some_ne_none n
    · rw [hOldRoute other hBefore]
      exact h.linked other hBefore
  · rw [Function.update_apply]
    split_ifs
    · rw [listAdd_of_not_mem (hFresh n)]
      exact List.nodup_append_comm.mp (List.nodup_cons.mpr ⟨hFresh n, h.entriesNodup n⟩)
    · exact h.entriesNodup m
  · rw [hMem] at hOther hAnother
    rcases hOther with hIn | ⟨rfl, rfl⟩ <;> rcases hAnother with hIn' | ⟨-, rfl⟩
    · rw [hOld m other hIn, hOld m another hIn'] at hEq
      exact h.entriesOnce m other hIn another hIn' hEq
    · rw [hOld m other hIn, Function.update_self] at hEq
      exact absurd hEq (hApart m other hIn)
    · rw [hOld m another hIn', Function.update_self] at hEq
      exact absurd hEq.symm (hApart m another hIn')
    · rfl
  · rw [List.mem_cons]
    constructor
    · rintro ⟨x, hIn, rfl⟩
      rcases (hMem m x).mp hIn with hBefore | ⟨rfl, rfl⟩
      · obtain ⟨hRouteIn, hLinked⟩ := h.of_entry hBefore
        rw [hOld m x hBefore, hOldRoute _ hRouteIn]
        exact ⟨Or.inr hRouteIn, hLinked⟩
      · rw [Function.update_self, Function.update_self]
        exact ⟨Or.inl rfl, rfl⟩
    · rintro ⟨rfl | hBefore, hLinked⟩
      · rw [Function.update_self, Option.some.injEq] at hLinked
        exact ⟨entry, (hMem m entry).mpr (Or.inr ⟨hLinked.symm, rfl⟩), Function.update_self ..⟩
      · rw [hOldRoute other hBefore] at hLinked
        obtain ⟨x, hIn, rfl⟩ := (h.entries m other).mpr ⟨hBefore, hLinked⟩
        exact ⟨x, (hMem m x).mpr (Or.inl hIn), hOld m x hIn⟩
  · rcases (hMem m other).mp hOther with hBefore | ⟨-, rfl⟩
    · exact Finset.mem_insert_of_mem (h.entriesInUse m other hBefore)
    · exact Finset.mem_insert_self ..
  · rw [Finset.card_insert_of_notMem hEntry, h.entriesCount, List.length_cons]

end Routes

section Operations

variable {config : Config} {evicted : Option Index} {s t : State} {n key : Index} {r : Route}

theorem Inv.not_used (h : Inv config evicted s)
    (hNot : s.usedMap n config.nbrRoutes ≠ true) : s.routeList n = [] := by
  by_contra hSome
  exact hNot (h.used n hSome)

theorem Inv.not_listed (h : Inv config evicted s) (hNot : n ∉ s.nbrTableKeys) :
    s.routeList n = [] :=
  h.not_used fun hUsed => hNot (h.keys.used n config.nbrRoutes hUsed)

theorem nbrSetBit_of_routes {bitmap : Bitmap} {table : Table} {item : Index} {value : Bool}
    (hAllowed : table = config.nbrRoutes → s.routeList item = []) (hRoutes : s.routeList n ≠ []) :
    nbrSetBit bitmap table item value n config.nbrRoutes = bitmap n config.nbrRoutes := by
  by_cases hTable : table = config.nbrRoutes
  · refine nbrSetBit_of_item_ne ?_
    rintro rfl
    exact hRoutes (hAllowed hTable)
  · exact nbrSetBit_of_ne (Ne.symm hTable)

/-- A table other than `nbr_routes` removes its item, or `nbr_routes` one without routes. -/
theorem Inv.nbrTableRemove (h : Inv config evicted s) {table : Table} {item : Index}
    (hAllowed : table = config.nbrRoutes → s.routeList item = []) :
    Inv config evicted (s.nbrTableRemove table item) where
  keys := h.keys.mono fun _ _ hSet => of_nbrSetBit_false hSet
  routes := h.routes
  used m hRoutes := (nbrSetBit_of_routes hAllowed hRoutes).trans (h.used m hRoutes)
  locked m hRoutes hNe := (nbrSetBit_of_routes hAllowed hRoutes).trans (h.locked m hRoutes hNe)
  via := h.via

theorem Inv.nbrTableLock (h : Inv config evicted s) (table : Table) (item : Index) :
    Inv config evicted (s.nbrTableLock table item) where
  keys := h.keys
  routes := h.routes
  used := h.used
  locked m hRoutes hNe := nbrSetBit_of_true (h.locked m hRoutes hNe)
  via := h.via

theorem Inv.nbrTableUnlock (h : Inv config evicted s) {table : Table} {item : Index}
    (hAllowed : table = config.nbrRoutes → s.routeList item = []) :
    Inv config evicted (s.nbrTableUnlock table item) where
  keys := h.keys
  routes := h.routes
  used := h.used
  locked m hRoutes hNe := (nbrSetBit_of_routes hAllowed hRoutes).trans (h.locked m hRoutes hNe)
  via := h.via

/-- The listed neighbors and their addresses are as before. -/
structure KeepsKeys (s t : State) : Prop where
  nbrTableKeys : t.nbrTableKeys = s.nbrTableKeys
  neighborAddrMem : t.neighborAddrMem = s.neighborAddrMem
  lladdr : t.lladdr = s.lladdr

theorem KeepsKeys.refl (s : State) : KeepsKeys s s := ⟨rfl, rfl, rfl⟩

theorem KeepsKeys.trans {u : State} (hFirst : KeepsKeys s t) (hSecond : KeepsKeys t u) :
    KeepsKeys s u where
  nbrTableKeys := hSecond.nbrTableKeys.trans hFirst.nbrTableKeys
  neighborAddrMem := hSecond.neighborAddrMem.trans hFirst.neighborAddrMem
  lladdr := hSecond.lladdr.trans hFirst.lladdr

theorem uipDs6RouteRm_keeps (s : State) (r : Route) :
    KeepsKeys s (s.uipDs6RouteRm config r) := by
  unfold State.uipDs6RouteRm
  split
  · exact KeepsKeys.refl s
  · dsimp only
    split_ifs <;> exact ⟨rfl, rfl, rfl⟩

/-- The removal of a route that has an entry. -/
theorem uipDs6RouteRm_eq {entry : NeighborRoute} (hLinked : s.neighborRoutes r = some n)
    (hEntry : (s.routeList n).find? (fun entry => s.route entry = r) = some entry) :
    s.uipDs6RouteRm config r =
      let t :=
        { s with
          routelist := s.routelist.erase r
          routeList := Function.update s.routeList n ((s.routeList n).erase entry)
          routememb := s.routememb.erase r
          neighborroutememb := s.neighborroutememb.erase entry
          numRoutes := s.numRoutes - 1 }
      if (s.routeList n).erase entry = [] then t.nbrTableRemove config.nbrRoutes n else t := by
  unfold State.uipDs6RouteRm
  rw [hLinked]
  dsimp only
  rw [hEntry]
  dsimp only
  split_ifs <;> rfl

theorem Inv.exists_entry (h : Inv config evicted s) (hMem : r ∈ s.routelist) :
    ∃ n entry, s.neighborRoutes r = some n ∧
      (s.routeList n).find? (fun entry => s.route entry = r) = some entry ∧
      entry ∈ s.routeList n ∧ s.route entry = r := by
  obtain ⟨n, hLinked⟩ := Option.ne_none_iff_exists'.mp (h.routes.linked r hMem)
  obtain ⟨entry, hEntry, hIs⟩ := (h.routes.entries n r).mpr ⟨hMem, hLinked⟩
  cases hFind : (s.routeList n).find? (fun entry => s.route entry = r) with
  | none =>
      rw [List.find?_eq_none] at hFind
      exact absurd (decide_eq_true hIs) (hFind entry hEntry)
  | some found =>
      have hFound := List.find?_some hFind
      exact ⟨n, found, hLinked, hFind, List.mem_of_find?_eq_some hFind, of_decide_eq_true hFound⟩

theorem Inv.uipDs6RouteRm (h : Inv config evicted s) (hMem : r ∈ s.routelist) :
    Inv config evicted (s.uipDs6RouteRm config r) := by
  obtain ⟨n, entry, hLinked, hFind, hEntry, rfl⟩ := h.exists_entry hMem
  rw [uipDs6RouteRm_eq hLinked hFind]
  have hBefore (m : Index)
      (hSome : Function.update s.routeList n ((s.routeList n).erase entry) m ≠ []) :
      s.routeList m ≠ [] := by
    by_cases hEq : m = n
    · rw [hEq]
      exact List.ne_nil_of_mem hEntry
    · rwa [Function.update_of_ne hEq] at hSome
  have hRemoved : Inv config evicted
      { s with
        routelist := s.routelist.erase (s.route entry)
        routeList := Function.update s.routeList n ((s.routeList n).erase entry)
        routememb := s.routememb.erase (s.route entry)
        neighborroutememb := s.neighborroutememb.erase entry
        numRoutes := s.numRoutes - 1 } :=
    { keys := h.keys
      routes := h.routes.remove hEntry
      used := fun m hSome => h.used m (hBefore m hSome)
      locked := fun m hSome hNe => h.locked m (hBefore m hSome) hNe
      via := fun r hIn => h.via r (List.mem_of_mem_erase hIn) }
  dsimp only
  split_ifs with hLast
  · refine hRemoved.nbrTableRemove fun _ => ?_
    dsimp only
    rw [Function.update_self, hLast]
  · exact hRemoved

/-- In each turn of the loop of `rm_routelist` the first entry goes. -/
theorem Inv.rm_head (h : Inv config evicted s) {entry : NeighborRoute} {rest : List NeighborRoute}
    (hHead : s.routeList n = entry :: rest) :
    Inv config evicted (s.uipDs6RouteRm config (s.route entry)) ∧
      (s.uipDs6RouteRm config (s.route entry)).routeList n = rest := by
  have hEntry : entry ∈ s.routeList n := hHead ▸ List.mem_cons_self ..
  obtain ⟨hMem, hLinked⟩ := h.routes.of_entry hEntry
  refine ⟨h.uipDs6RouteRm hMem, ?_⟩
  have hFind : (s.routeList n).find? (fun other => s.route other = s.route entry) = some entry := by
    rw [hHead]
    simp
  rw [uipDs6RouteRm_eq hLinked hFind]
  have hRest : (s.routeList n).erase entry = rest := by rw [hHead, List.erase_cons_head]
  dsimp only
  rw [hRest]
  split_ifs
  · exact Function.update_self ..
  · exact Function.update_self ..

/-- The loop comes to its end, with no routes left. -/
theorem Inv.rmRoutes (fuel : Nat) (h : Inv config evicted s)
    (hFuel : (s.routeList n).length ≤ fuel) :
    Inv config evicted (State.rmRoutes config n fuel s) ∧
      (State.rmRoutes config n fuel s).routeList n = [] ∧
      KeepsKeys s (State.rmRoutes config n fuel s) := by
  induction fuel generalizing s with
  | zero =>
      have hNone := List.eq_nil_of_length_eq_zero (Nat.le_zero.mp hFuel)
      exact ⟨h, hNone, KeepsKeys.refl s⟩
  | succ fuel ih =>
      cases hHead : s.routeList n with
      | nil =>
          simp only [State.rmRoutes, hHead]
          exact ⟨h, trivial, KeepsKeys.refl s⟩
      | cons entry rest =>
          simp only [State.rmRoutes, hHead]
          obtain ⟨hNext, hRest⟩ := h.rm_head hHead
          rw [hHead, List.length_cons] at hFuel
          obtain ⟨hInv, hNone, hKeeps⟩ := ih hNext (by rw [hRest]; omega)
          exact ⟨hInv, hNone, (uipDs6RouteRm_keeps s _).trans hKeeps⟩

theorem Inv.rmRoutelist (h : Inv config evicted s) (n : Index) :
    Inv config evicted (s.rmRoutelist config n) ∧ (s.rmRoutelist config n).routeList n = [] ∧
      KeepsKeys s (s.rmRoutelist config n) := by
  obtain ⟨hInv, hNone, hKeeps⟩ := h.rmRoutes (s.routeList n).length (Nat.le_refl _)
  exact ⟨hInv.nbrTableRemove fun _ => hNone, hNone,
    ⟨hKeeps.nbrTableKeys, hKeeps.neighborAddrMem, hKeeps.lladdr⟩⟩

/-- The callback of a table. That of `nbr_routes` leaves the neighbor without routes. -/
theorem Inv.callback (h : Inv config evicted s) (key : Index) (table : Table) :
    Inv config evicted (s.callback config key table) ∧
      (table = config.nbrRoutes ∨ s.routeList key = [] →
        (s.callback config key table).routeList key = []) ∧
      KeepsKeys s (s.callback config key table) := by
  unfold State.callback
  split_ifs with hUsed hTable hHas
  · obtain ⟨hInv, hNone, hKeeps⟩ := h.rmRoutelist key
    exact ⟨hInv, fun _ => hNone, hKeeps⟩
  · refine ⟨h.nbrTableRemove fun hEq => absurd hEq hTable, fun hEither => ?_, ⟨rfl, rfl, rfl⟩⟩
    exact hEither.resolve_left hTable
  · exact ⟨h, fun hEither => hEither.resolve_left hTable, KeepsKeys.refl s⟩
  · refine ⟨h, fun hEither => hEither.elim (fun hEq => ?_) id, KeepsKeys.refl s⟩
    exact h.not_used (hEq ▸ hUsed)

theorem Inv.callbacks (tables : List Table) (h : Inv config evicted s) (key : Index) :
    Inv config evicted (tables.foldl (State.callback config key) s) ∧
      (config.nbrRoutes ∈ tables ∨ s.routeList key = [] →
        (tables.foldl (State.callback config key) s).routeList key = []) ∧
      KeepsKeys s (tables.foldl (State.callback config key) s) := by
  induction tables generalizing s with
  | nil => exact ⟨h, fun hEither => hEither.resolve_left List.not_mem_nil, KeepsKeys.refl s⟩
  | cons table tables ih =>
      obtain ⟨hInv, hNone, hKeeps⟩ := h.callback key table
      obtain ⟨hRest, hRestNone, hRestKeeps⟩ := ih hInv
      refine ⟨hRest, fun hEither => hRestNone ?_, hKeeps.trans hRestKeeps⟩
      rw [List.mem_cons, or_assoc] at hEither
      rcases hEither with hHere | hLater | hBefore
      · exact Or.inr (hNone (Or.inl hHere.symm))
      · exact Or.inl hLater
      · exact Or.inr (hNone (Or.inr hBefore))

/-- A neighbor that is evicted, locked or not, leaves no routes behind. -/
theorem Inv.removeKey (h : Inv config (some key) s) :
    Inv config none (s.removeKey config key) ∧ (s.removeKey config key).routeList key = [] ∧
      (s.removeKey config key).nbrTableKeys = s.nbrTableKeys.erase key ∧
      (s.removeKey config key).neighborAddrMem = s.neighborAddrMem ∧
      (s.removeKey config key).lladdr = s.lladdr := by
  obtain ⟨hInv, hNone, hKeeps⟩ := h.callbacks (List.finRange maxNumTables) key
  have hRoutes := hNone (Or.inl (List.mem_finRange _))
  unfold State.removeKey
  generalize (List.finRange maxNumTables).foldl (State.callback config key) s = t
    at hInv hKeeps hRoutes
  have hOther (m : Index) (hSome : t.routeList m ≠ []) : m ≠ key := by
    rintro rfl
    exact hSome hRoutes
  refine ⟨⟨hInv.keys.remove key, hInv.routes, fun m hSome => ?_, fun m hSome _ => ?_, hInv.via⟩,
    hRoutes, congrArg (·.erase key) hKeeps.nbrTableKeys, hKeeps.neighborAddrMem, hKeeps.lladdr⟩
  · dsimp only
    rw [Function.update_of_ne (hOther m hSome)]
    exact hInv.used m hSome
  · exact hInv.locked m hSome fun hEq => hOther m hSome (Option.some.inj hEq)

theorem leastUsedKey_mem {keys : List Index} {least : Option (Index × Nat)} {found : Index × Nat}
    (hFound : s.leastUsedKey keys least = some found) :
    found.1 ∈ keys ∨ least = some found := by
  induction keys generalizing least with
  | nil => exact Or.inr hFound
  | cons key keys ih =>
      rw [State.leastUsedKey] at hFound
      split_ifs at hFound
      · rw [← Option.some.inj hFound]
        exact Or.inl (List.mem_cons_self ..)
      · rcases ih hFound with hIn | hEq
        · exact Or.inl (List.mem_cons_of_mem _ hIn)
        · rw [← Option.some.inj hEq]
          exact Or.inl (List.mem_cons_self ..)
      · exact (ih hFound).imp_left (List.mem_cons_of_mem _)

/-- A neighbor that is to be added: it has a block, and nothing refers to it. -/
structure Fresh (s t : State) (index : Index) : Prop where
  not_mem : index ∉ t.nbrTableKeys
  inUse : index ∈ t.neighborAddrMem
  routes : t.routeList index = []
  keys : ∀ key ∈ t.nbrTableKeys, key ∈ s.nbrTableKeys
  lladdr : t.lladdr = s.lladdr

theorem Inv.evict (h : Inv config none s) (locked : Bitmap) (hMem : key ∈ s.nbrTableKeys)
    (hLocked : ∀ m, m ≠ key → locked m = s.lockedMap m) :
    Inv config none (State.removeKey config { s with lockedMap := locked } key) ∧
      Fresh s (State.removeKey config { s with lockedMap := locked } key) key := by
  have hInv : Inv config (some key) { s with lockedMap := locked } := by
    refine ⟨h.keys, h.routes, h.used, fun m hSome hNe => ?_, h.via⟩
    dsimp only
    rw [hLocked m fun hEq => hNe (congrArg some hEq)]
    exact h.locked m hSome (Option.some_ne_none m)
  obtain ⟨hAfter, hRoutes, hKeys, hMemb, hLladdr⟩ := hInv.removeKey
  refine ⟨hAfter, ?_, ?_, hRoutes, fun other hIn => ?_, hLladdr⟩
  · rw [hKeys]
    exact h.keys.nodup.not_mem_erase
  · rw [hMemb]
    exact h.keys.inUse key hMem
  · rw [hKeys] at hIn
    exact List.mem_of_mem_erase hIn

theorem Inv.nbrTableAllocate (h : Inv config none s) (removable : Option Linkaddr) :
    Inv config none (s.nbrTableAllocate config removable).1 ∧
      ∀ index, (s.nbrTableAllocate config removable).2 = some index →
        Fresh s (s.nbrTableAllocate config removable).1 index := by
  unfold State.nbrTableAllocate
  cases hAlloc : s.neighborAddrMem.alloc with
  | some key =>
      have hNew := BlockPool.not_mem_of_alloc hAlloc
      have hNot : key ∉ s.nbrTableKeys := fun hIn => hNew (h.keys.inUse key hIn)
      refine ⟨⟨h.keys.allocate key, h.routes, h.used, h.locked, h.via⟩, fun index hIs => ?_⟩
      obtain rfl : key = index := Option.some.inj hIs
      exact ⟨hNot, Finset.mem_insert_self .., h.not_listed hNot, fun _ hIn => hIn, rfl⟩
  | none =>
      dsimp only
      cases removable with
      | none => exact ⟨h, fun index hIs => absurd hIs.symm (Option.some_ne_none index)⟩
      | some lladdr =>
          dsimp only
          cases hIndex : s.indexFromLladdr (some lladdr) with
          | some key =>
              obtain ⟨hInv, hFresh⟩ := h.evict (Function.update s.lockedMap key fun _ => false)
                (List.mem_of_find?_eq_some hIndex) fun m hNe => Function.update_of_ne hNe ..
              refine ⟨hInv, fun index hIs => ?_⟩
              obtain rfl : key = index := Option.some.inj hIs
              exact hFresh
          | none =>
              dsimp only
              cases hLeast : s.leastUsedKey s.nbrTableKeys none with
              | none => exact ⟨h, fun index hIs => absurd hIs.symm (Option.some_ne_none index)⟩
              | some found =>
                  have hMem := (leastUsedKey_mem hLeast).resolve_right (Option.some_ne_none _).symm
                  obtain ⟨hInv, hFresh⟩ := h.evict s.lockedMap hMem fun _ _ => rfl
                  refine ⟨hInv, fun index hIs => ?_⟩
                  obtain rfl : found.1 = index := Option.some.inj hIs
                  exact hFresh

/-- A listed neighbor gets an item, of `nbr_routes` only if it has no routes. -/
theorem Inv.initItem (h : Inv config none s) {table : Table} (hMem : key ∈ s.nbrTableKeys)
    (hNone : table = config.nbrRoutes → s.routeList key = []) :
    Inv config none (s.initItem config table key) := by
  have hRoutes : (s.initItem config table key).routeList = s.routeList := by
    unfold State.initItem
    dsimp only
    split_ifs with hTable
    · rw [← hNone hTable]
      exact Function.update_eq_self ..
    · rfl
  refine ⟨h.keys.use hMem table, ?_, fun m hSome => ?_, fun m hSome hNe => ?_, h.via⟩
  · rw [hRoutes]
    exact h.routes
  · rw [hRoutes] at hSome
    exact nbrSetBit_of_true (h.used m hSome)
  · rw [hRoutes] at hSome
    exact h.locked m hSome hNe

theorem indexFromLladdr_some {lladdr : Option Linkaddr}
    (hFound : s.indexFromLladdr lladdr = some key) :
    key ∈ s.nbrTableKeys ∧ lladdr.getD linkaddrNull = s.lladdr key := by
  have hIs := List.find?_some hFound
  exact ⟨List.mem_of_find?_eq_some hFound, of_decide_eq_true hIs⟩

theorem indexFromLladdr_none {lladdr : Option Linkaddr}
    (hNone : s.indexFromLladdr lladdr = none) :
    ∀ key ∈ s.nbrTableKeys, lladdr.getD linkaddrNull ≠ s.lladdr key := by
  intro key hMem
  simpa using List.find?_eq_none.mp hNone key hMem

/-- A new neighbor in the list. -/
theorem Inv.listed (h : Inv config none t) (hFresh : Fresh s t key) {addr : Linkaddr}
    (hNew : ∀ other ∈ t.nbrTableKeys, addr ≠ t.lladdr other) :
    Inv config none
      { t with
        nbrTableKeys := listAdd t.nbrTableKeys key
        lladdr := Function.update t.lladdr key addr } where
  keys := h.keys.add hFresh.inUse hFresh.not_mem hNew
  routes := h.routes
  used := h.used
  locked := h.locked
  via r hMem n hLinked := by
    have hOther : n ≠ key := by
      rintro rfl
      obtain ⟨entry, hEntry, -⟩ := (h.routes.entries n r).mpr ⟨hMem, hLinked⟩
      rw [hFresh.routes] at hEntry
      exact absurd hEntry List.not_mem_nil
    dsimp only
    rw [Function.update_of_ne hOther]
    exact h.via r hMem n hLinked

/-- The item that is added is in use, at the neighbor with the address. -/
theorem Inv.nbrTableAddLladdr (h : Inv config none s) {table : Table} {lladdr : Option Linkaddr}
    (removable : Option Linkaddr) (hNone : table = config.nbrRoutes →
      s.nbrTableGetFromLladdr config.nbrRoutes lladdr = none) :
    Inv config none (s.nbrTableAddLladdr config table lladdr removable).1 ∧
      ∀ item, (s.nbrTableAddLladdr config table lladdr removable).2 = some item →
        (s.nbrTableAddLladdr config table lladdr removable).1.usedMap item table = true ∧
          (s.nbrTableAddLladdr config table lladdr removable).1.lladdr item =
            lladdr.getD linkaddrNull := by
  unfold State.nbrTableAddLladdr
  cases hIndex : s.indexFromLladdr lladdr with
  | some key =>
      obtain ⟨hMem, hLladdr⟩ := indexFromLladdr_some hIndex
      refine ⟨h.initItem hMem fun hTable => h.not_used fun hUsed => ?_, fun item hIs => ?_⟩
      · have hGet := hNone hTable
        rw [State.nbrTableGetFromLladdr, hIndex, Option.filter_some, if_pos hUsed] at hGet
        exact absurd hGet (Option.some_ne_none key)
      · obtain rfl : key = item := Option.some.inj hIs
        exact ⟨nbrSetBit_self, hLladdr.symm⟩
  | none =>
      have hNew := indexFromLladdr_none hIndex
      obtain ⟨hInv, hFresh⟩ := h.nbrTableAllocate removable
      dsimp only
      generalize s.nbrTableAllocate config removable = allocated at hInv hFresh
      obtain ⟨t, _ | key⟩ := allocated
      · exact ⟨hInv, fun item hIs => absurd hIs.symm (Option.some_ne_none item)⟩
      · have hKey := hFresh key rfl
        have hListed := hInv.listed hKey fun other hOther =>
          hKey.lladdr ▸ hNew other (hKey.keys other hOther)
        dsimp only at hListed ⊢
        refine ⟨hListed.initItem (mem_listAdd.mpr (Or.inr rfl)) fun _ => hKey.routes,
          fun item hIs => ?_⟩
        obtain rfl : key = item := Option.some.inj hIs
        exact ⟨nbrSetBit_self, Function.update_self ..⟩

theorem Inv.uipDs6NbrAdd (h : Inv config none s) (ipaddr : Ipaddr)
    (lladdr removable : Option Linkaddr) :
    Inv config none (s.uipDs6NbrAdd config ipaddr lladdr removable) := by
  have hInv : Inv config none
      (s.nbrTableAddLladdr config config.ds6Neighbors lladdr removable).1 :=
    (h.nbrTableAddLladdr removable fun hEq => absurd hEq.symm config.apart).1
  unfold State.uipDs6NbrAdd
  generalize s.nbrTableAddLladdr config config.ds6Neighbors lladdr removable = added at hInv
  obtain ⟨t, _ | nbr⟩ := added
  · exact hInv
  · exact ⟨hInv.keys, hInv.routes, hInv.used, hInv.locked, hInv.via⟩

theorem longestMatch_mem {addr : Ipaddr} {routes : List Route} {longestmatch : Byte}
    {foundRoute : Option Route}
    (hFound : s.longestMatch addr routes longestmatch foundRoute = some r) :
    r ∈ routes ∨ foundRoute = some r := by
  induction routes generalizing longestmatch foundRoute with
  | nil => exact Or.inr hFound
  | cons first rest ih =>
      rw [State.longestMatch] at hFound
      split_ifs at hFound
      · rw [← Option.some.inj hFound]
        exact Or.inl (List.mem_cons_self ..)
      · rcases ih hFound with hIn | hEq
        · exact Or.inl (List.mem_cons_of_mem _ hIn)
        · rw [← Option.some.inj hEq]
          exact Or.inl (List.mem_cons_self ..)
      · exact (ih hFound).imp_left (List.mem_cons_of_mem _)

theorem Inv.uipDs6RouteLookup (h : Inv config none s) (addr : Ipaddr) :
    Inv config none (s.uipDs6RouteLookup addr).1 ∧
      ∀ r, (s.uipDs6RouteLookup addr).2 = some r →
        r ∈ (s.uipDs6RouteLookup addr).1.routelist := by
  unfold State.uipDs6RouteLookup
  cases hMatch : s.longestMatch addr s.routelist 0 none with
  | none => exact ⟨h, fun r hIs => absurd hIs.symm (Option.some_ne_none r)⟩
  | some found =>
      have hMem := (longestMatch_mem hMatch).resolve_right (Option.some_ne_none _).symm
      dsimp only
      split_ifs
      · refine ⟨h, fun r hIs => ?_⟩
        obtain rfl : found = r := Option.some.inj hIs
        exact hMem
      · have hPush :
            listPush (s.routelist.erase found) found = found :: s.routelist.erase found := by
          rw [listPush, List.erase_of_not_mem h.routes.nodup.not_mem_erase]
        have hPerm : (listPush (s.routelist.erase found) found).Perm s.routelist := by
          rw [hPush]
          exact (List.perm_cons_erase hMem).symm
        refine ⟨⟨h.keys, h.routes.perm hPerm, h.used, h.locked,
          fun r hIn => h.via r (hPerm.mem_iff.mp hIn)⟩, fun r hIs => ?_⟩
        obtain rfl : found = r := Option.some.inj hIs
        exact hPerm.mem_iff.mpr hMem

/-- A route through a neighbor that is used. There is a block for the entry if there is one
for the route. -/
theorem Inv.linkRoute (h : Inv config none s) (ipaddr : Ipaddr) (length : Byte)
    {nexthopLladdr : Linkaddr} (hUsed : s.usedMap n config.nbrRoutes = true)
    (hLladdr : s.lladdr n = nexthopLladdr) :
    Inv config none (s.linkRoute config ipaddr length nexthopLladdr n).1 := by
  unfold State.linkRoute
  cases hAlloc : s.routememb.alloc with
  | none => exact h
  | some r =>
      have hNew := BlockPool.not_mem_of_alloc hAlloc
      have hCount : s.routememb.card = s.neighborroutememb.card := by
        have hSame : s.routememb = s.routelist.toFinset := by
          ext other
          rw [List.mem_toFinset]
          exact h.routes.routememb other
        rw [hSame, List.toFinset_card_of_nodup h.routes.nodup, h.routes.entriesCount]
      have hRoom : s.neighborroutememb.card ≠ uipDs6RouteNb := by
        rw [← hCount]
        exact fun hFull => absurd (BlockPool.alloc_eq_none_iff.mpr hFull ▸ hAlloc.symm)
          (Option.some_ne_none r)
      obtain ⟨entry, hEntry⟩ := BlockPool.exists_alloc hRoom
      have hNewEntry := BlockPool.not_mem_of_alloc hEntry
      dsimp only
      rw [hEntry]
      dsimp only
      have hNot : r ∉ s.routelist := fun hIn => hNew ((h.routes.routememb r).mpr hIn)
      have hPush : listPush s.routelist r = r :: s.routelist := by
        rw [listPush, List.erase_of_not_mem hNot]
      have hBefore (m : Index) (hNe : m ≠ n) (hSome : Function.update s.routeList n
          (listAdd (s.routeList n) entry) m ≠ []) : s.routeList m ≠ [] := by
        rwa [Function.update_of_ne hNe] at hSome
      refine ⟨h.keys, h.routes.add hNew hNewEntry n, fun m hSome => ?_, fun m hSome hNe => ?_,
        fun other hMem m hLinked => ?_⟩
      · by_cases hEq : m = n
        · rw [hEq]
          exact hUsed
        · exact h.used m (hBefore m hEq hSome)
      · by_cases hEq : m = n
        · rw [hEq]
          exact nbrSetBit_self
        · exact (nbrSetBit_of_item_ne hEq).trans (h.locked m (hBefore m hEq hSome) hNe)
      · dsimp only [State.nbrTableLock] at hMem hLinked ⊢
        rw [hPush, List.mem_cons] at hMem
        rcases hMem with rfl | hBefore
        · rw [Function.update_self, Option.some.injEq] at hLinked
          rw [Function.update_self, ← hLinked, hLladdr]
        · have hNe : other ≠ r := ne_of_mem_of_not_mem hBefore hNot
          rw [Function.update_of_ne hNe] at hLinked ⊢
          exact h.via other hBefore m hLinked

theorem Inv.routesOf (h : Inv config none s) (nexthopLladdr : Linkaddr)
    (removable : Option Linkaddr) :
    Inv config none (s.routesOf config nexthopLladdr removable).1 ∧
      ∀ n, (s.routesOf config nexthopLladdr removable).2 = some n →
        (s.routesOf config nexthopLladdr removable).1.usedMap n config.nbrRoutes = true ∧
          (s.routesOf config nexthopLladdr removable).1.lladdr n = nexthopLladdr := by
  unfold State.routesOf
  cases hGet : s.nbrTableGetFromLladdr config.nbrRoutes (some nexthopLladdr) with
  | none => exact h.nbrTableAddLladdr removable fun _ => hGet
  | some n =>
      rw [State.nbrTableGetFromLladdr, Option.filter_eq_some_iff] at hGet
      refine ⟨h, fun m hIs => ?_⟩
      obtain rfl : n = m := Option.some.inj hIs
      exact ⟨hGet.2, (indexFromLladdr_some hGet.1).2.symm⟩

theorem Inv.addRoute (h : Inv config none s) (ipaddr : Ipaddr) (length : Byte)
    (nexthopLladdr : Linkaddr) (removable : Option Linkaddr) :
    Inv config none (s.addRoute config ipaddr length nexthopLladdr removable).1 := by
  unfold State.addRoute
  dsimp only
  generalize hRoom : (if s.numRoutes = _ then _ else _ : Option State) = room
  cases room with
  | none => exact h
  | some t =>
      have hInv : Inv config none t := by
        split_ifs at hRoom
        · obtain ⟨oldest, hLast, rfl⟩ := Option.map_eq_some_iff.mp hRoom
          exact h.uipDs6RouteRm (List.mem_of_getLast? hLast)
        · obtain rfl := Option.some.inj hRoom
          exact h
      obtain ⟨hRoutes, hUsed⟩ := hInv.routesOf nexthopLladdr removable
      dsimp only
      generalize t.routesOf config nexthopLladdr removable = found at hRoutes hUsed
      obtain ⟨u, _ | n⟩ := found
      · exact hRoutes
      · exact hRoutes.linkRoute ipaddr length (hUsed n rfl).1 (hUsed n rfl).2

theorem Inv.uipDs6RouteAdd (h : Inv config none s) (ipaddr : Ipaddr) (length : Byte)
    (nexthop : Ipaddr) (removable : Option Linkaddr) :
    Inv config none (s.uipDs6RouteAdd config ipaddr length nexthop removable).1 := by
  unfold State.uipDs6RouteAdd
  cases s.uipDs6NbrLladdrFromIpaddr config (some nexthop) with
  | none => exact h
  | some nexthopLladdr =>
      obtain ⟨hInv, hMem⟩ := h.uipDs6RouteLookup ipaddr
      dsimp only
      generalize s.uipDs6RouteLookup ipaddr = found at hInv hMem
      obtain ⟨t, _ | r⟩ := found
      · exact hInv.addRoute ipaddr length nexthopLladdr removable
      · dsimp only
        split_ifs
        · exact hInv
        · exact (hInv.uipDs6RouteRm (hMem r rfl)).addRoute ipaddr length nexthopLladdr removable

theorem Inv.uipDs6RouteRmByNexthop (h : Inv config none s) (nexthop : Option Ipaddr) :
    Inv config none (s.uipDs6RouteRmByNexthop config nexthop) := by
  unfold State.uipDs6RouteRmByNexthop
  split
  · exact h
  · exact (h.rmRoutelist _).1

/-- Every call keeps the tables in step. -/
theorem Inv.step (h : Inv config none s) {call : Call} (hPromised : Promised config s call)
    (hStep : step config s call = some t) : Inv config none t := by
  cases call with
  | nbrTableAddLladdr table lladdr removable =>
      obtain rfl := Option.some.inj hStep
      exact (h.nbrTableAddLladdr removable fun hEq => absurd hEq hPromised).1
  | nbrTableRemove table item =>
      obtain rfl := Option.some.inj hStep
      exact h.nbrTableRemove hPromised
  | nbrTableLock table item =>
      obtain rfl := Option.some.inj hStep
      exact h.nbrTableLock table item
  | nbrTableUnlock table item =>
      obtain rfl := Option.some.inj hStep
      exact h.nbrTableUnlock hPromised
  | uipDs6NbrAdd ipaddr lladdr removable =>
      obtain rfl := Option.some.inj hStep
      exact h.uipDs6NbrAdd ipaddr lladdr removable
  | uipDs6RouteAdd ipaddr length nexthop removable =>
      obtain rfl := Option.some.inj hStep
      exact h.uipDs6RouteAdd ipaddr length nexthop removable
  | uipDs6RouteRm route =>
      obtain rfl := Option.some.inj hStep
      exact h.uipDs6RouteRm hPromised
  | uipDs6RouteLookup addr =>
      obtain rfl := Option.some.inj hStep
      exact (h.uipDs6RouteLookup addr).1
  | uipDs6RouteRmByNexthop nexthop =>
      obtain rfl := Option.some.inj hStep
      exact h.uipDs6RouteRmByNexthop nexthop

end Operations

theorem KeysOk.init : KeysOk [] ∅ State.init.lladdr State.init.usedMap where
  nodup := List.nodup_nil
  inUse _ hMem := absurd hMem List.not_mem_nil
  lladdrs _ hMem := absurd hMem List.not_mem_nil
  used _ _ hUsed := absurd hUsed Bool.false_ne_true

theorem RoutesOk.init : RoutesOk [] 0 ∅ State.init.neighborRoutes State.init.routeList ∅
    State.init.route where
  nodup := List.nodup_nil
  numRoutes := rfl
  routememb _ := by simp
  linked _ hMem := absurd hMem List.not_mem_nil
  entriesNodup _ := List.nodup_nil
  entriesOnce _ _ hMem := absurd hMem List.not_mem_nil
  entries n r := by simp [State.init]
  entriesInUse _ _ hMem := absurd hMem List.not_mem_nil
  entriesCount := rfl

theorem Inv.init (config : Config) : Inv config none State.init where
  keys := KeysOk.init
  routes := RoutesOk.init
  used _ hSome := absurd rfl hSome
  locked _ hSome := absurd rfl hSome
  via _ hMem := absurd hMem List.not_mem_nil

/-- Both tables fit together: no address comes twice, the routes are those on the lists of
the neighbors, each on the one that it points to, and a neighbor with routes is used, locked
and the one that its routes were added for. -/
structure Consistent (config : Config) (s : State) : Prop where
  lladdrs : (s.nbrTableKeys.map s.lladdr).Nodup
  used : ∀ key table, s.usedMap key table = true → key ∈ s.nbrTableKeys
  routelist : s.routelist.Nodup ∧ (s.routelist.length : Int) = s.numRoutes
  onOneList : ∀ r ∈ s.routelist, ∃ n, s.neighborRoutes r = some n ∧
    ((s.routeList n).map s.route).count r = 1 ∧
    ∀ m, m ≠ n → r ∉ (s.routeList m).map s.route
  nothingElse : ∀ n, ∀ entry ∈ s.routeList n, s.route entry ∈ s.routelist
  locked : ∀ n, s.routeList n ≠ [] →
    s.usedMap n config.nbrRoutes = true ∧ s.lockedMap n config.nbrRoutes = true
  stays : ∀ r ∈ s.routelist, ∀ n, s.neighborRoutes r = some n →
    n ∈ s.nbrTableKeys ∧ s.lladdr n = s.via r

theorem Inv.consistent {config : Config} {s : State} (h : Inv config none s) :
    Consistent config s where
  lladdrs := h.keys.nodup.map_on h.keys.lladdrs
  used := h.keys.used
  routelist := ⟨h.routes.nodup, h.routes.numRoutes.symm⟩
  onOneList r hMem := by
    obtain ⟨n, hLinked⟩ := Option.ne_none_iff_exists'.mp (h.routes.linked r hMem)
    have hIn := (h.routes.entries n r).mpr ⟨hMem, hLinked⟩
    have hNodup := (h.routes.entriesNodup n).map_on (h.routes.entriesOnce n)
    refine ⟨n, hLinked, List.count_eq_one_of_mem hNodup (List.mem_map.mpr hIn), ?_⟩
    intro m hNe hOther
    have hAlso := (h.routes.entries m r).mp (List.mem_map.mp hOther)
    exact hNe (Option.some.inj (hAlso.2.symm.trans hLinked))
  nothingElse n entry hEntry := (h.routes.of_entry hEntry).1
  locked n hSome := ⟨h.used n hSome, h.locked n hSome (Option.some_ne_none n)⟩
  stays r hMem n hLinked := by
    obtain ⟨entry, hEntry, -⟩ := (h.routes.entries n r).mpr ⟨hMem, hLinked⟩
    have hUsed := h.used n (List.ne_nil_of_mem hEntry)
    exact ⟨h.keys.used n config.nbrRoutes hUsed, h.via r hMem n hLinked⟩

/-- **Routes and neighbors stay in step.** In every state that the calls of all tables and of
the routes lead to, with any answers of the policy for evictions, both tables fit together. -/
theorem tables_consistent (config : Config) {s : State}
    (run : Reaches (step config) (Promised config) State.init s) : Consistent config s := by
  have hInv : Inv config none s :=
    run.invariant (Inv config none) (Inv.init config) fun u call t hBefore hPromised hStep =>
      hBefore.step hPromised hStep
  exact hInv.consistent

/-- The tables in the order of their registration. -/
def sampleConfig : Config where
  nbrRoutes := 2
  ds6Neighbors := 1
  apart := by decide
  callback table := table = 1 ∨ table = 3
  removeLeastRecentlyUsed := false

def sampleNeighbor : Linkaddr := fun _ => 7
def sampleAddress : Ipaddr := fun _ => 9

/-- A neighbor is added, and a route through it. -/
theorem tables_consistent_one : Consistent sampleConfig
    ((State.init.uipDs6NbrAdd sampleConfig sampleAddress (some sampleNeighbor) none).uipDs6RouteAdd
      sampleConfig (fun _ => 3) 128 sampleAddress none).1 := by
  have hNbr : Reaches (step sampleConfig) (Promised sampleConfig) State.init
      (State.init.uipDs6NbrAdd sampleConfig sampleAddress (some sampleNeighbor) none) :=
    Reaches.next Reaches.start (show step sampleConfig State.init
      (.uipDs6NbrAdd sampleAddress (some sampleNeighbor) none) = some _ from rfl) trivial
  exact tables_consistent sampleConfig (Reaches.next hNbr (show step sampleConfig _
    (.uipDs6RouteAdd (fun _ => 3) 128 sampleAddress none) = some _ from rfl) trivial)

end Smarthome.Routes
