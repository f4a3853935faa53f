import Smarthome.Protocol
import Smarthome.Semantics.BlockPool
import Smarthome.Semantics.Runs

/-! `nbr-table.c` and `uip-ds6-route.c`: the neighbors, which several tables share, and the
routes, each of which goes through one neighbor. An item of a table is the place of its
neighbor, and the lists are lists of such places and of memory blocks. -/
namespace Smarthome.Routes

open Semantics

abbrev nbrTableMaxNeighbors : Nat := 20
abbrev maxNumTables : Nat := 8
abbrev uipDs6RouteNb : Nat := 100

/-- The place of a neighbor in the arrays of `nbr-table.c`, and of its item in each table. -/
abbrev Index := Fin nbrTableMaxNeighbors

abbrev Table := Fin maxNumTables

/-- A block of `routememb`, and one of `neighborroutememb`. -/
abbrev Route := Fin uipDs6RouteNb
abbrev NeighborRoute := Fin uipDs6RouteNb

abbrev Linkaddr := Fin 8 → Byte
abbrev Ipaddr := Fin 16 → Byte

def linkaddrNull : Linkaddr := fun _ => 0

/-- `uip_ipaddr_prefixcmp`. -/
def UipIpaddrPrefixcmp (addr1 addr2 : Ipaddr) (length : Byte) : Prop :=
  ∀ i : Fin 16, i.val < length.toNat >>> 3 → addr1 i = addr2 i

instance (addr1 addr2 : Ipaddr) (length : Byte) :
    Decidable (UipIpaddrPrefixcmp addr1 addr2 length) :=
  inferInstanceAs (Decidable (∀ _, _ → _))

section Lists

variable {Item : Type} [DecidableEq Item]

/-- `list_add`. -/
def listAdd (list : List Item) (item : Item) : List Item := list.erase item ++ [item]

/-- `list_push`. -/
def listPush (list : List Item) (item : Item) : List Item := item :: list.erase item

end Lists

/-- The two tables that the routes depend on, which of the other tables have a callback, and
`UIP_DS6_ROUTE_REMOVE_LEAST_RECENTLY_USED`. -/
structure Config where
  nbrRoutes : Table
  ds6Neighbors : Table
  apart : nbrRoutes ≠ ds6Neighbors
  callback : Table → Bool
  removeLeastRecentlyUsed : Bool

/-- A bit for each table and neighbor. -/
abbrev Bitmap := Index → Table → Bool

/-- The memory of both files. The last field is not in the program: the link-layer address
of the next hop that each route was added with. -/
structure State where
  nbrTableKeys : List Index
  neighborAddrMem : BlockPool nbrTableMaxNeighbors
  lladdr : Index → Linkaddr
  usedMap : Bitmap
  lockedMap : Bitmap
  /-- The items of `ds6_neighbors`. -/
  nbrIpaddr : Index → Ipaddr
  /-- The items of `nbr_routes`. -/
  routeList : Index → List NeighborRoute
  routelist : List Route
  numRoutes : Int
  routememb : BlockPool uipDs6RouteNb
  neighborRoutes : Route → Option Index
  ipaddr : Route → Ipaddr
  length : Route → Byte
  neighborroutememb : BlockPool uipDs6RouteNb
  route : NeighborRoute → Route
  via : Route → Linkaddr

/-- After a reset the memory is zero. -/
def State.init : State where
  nbrTableKeys := []
  neighborAddrMem := ∅
  lladdr _ := linkaddrNull
  usedMap _ _ := false
  lockedMap _ _ := false
  nbrIpaddr _ _ := 0
  routeList _ := []
  routelist := []
  numRoutes := 0
  routememb := ∅
  neighborRoutes _ := none
  ipaddr _ _ := 0
  length _ := 0
  neighborroutememb := ∅
  route _ := 0
  via _ := linkaddrNull

/-- `nbr_set_bit`. -/
def nbrSetBit (bitmap : Bitmap) (table : Table) (item : Index) (value : Bool) : Bitmap :=
  Function.update bitmap item (Function.update (bitmap item) table value)

namespace State

variable (config : Config) (s : State)

section Neighbors

/-- `index_from_lladdr`. -/
def indexFromLladdr (lladdr : Option Linkaddr) : Option Index :=
  s.nbrTableKeys.find? fun key => lladdr.getD linkaddrNull = s.lladdr key

/-- `nbr_table_get_from_lladdr`. -/
def nbrTableGetFromLladdr (table : Table) (lladdr : Option Linkaddr) : Option Index :=
  (s.indexFromLladdr lladdr).filter fun index => s.usedMap index table

/-- `nbr_table_remove`. -/
def nbrTableRemove (table : Table) (item : Index) : State :=
  { s with
    usedMap := nbrSetBit s.usedMap table item false
    lockedMap := nbrSetBit s.lockedMap table item false }

/-- `nbr_table_lock`. -/
def nbrTableLock (table : Table) (item : Index) : State :=
  { s with lockedMap := nbrSetBit s.lockedMap table item true }

/-- `nbr_table_unlock`. -/
def nbrTableUnlock (table : Table) (item : Index) : State :=
  { s with lockedMap := nbrSetBit s.lockedMap table item false }

/-- `uip_ds6_nbr_lookup`, which goes through the items of `ds6_neighbors`. -/
def uipDs6NbrLookup (ipaddr : Option Ipaddr) : Option Index :=
  s.nbrTableKeys.find? fun nbr =>
    s.usedMap nbr config.ds6Neighbors = true ∧ some (s.nbrIpaddr nbr) = ipaddr

/-- `uip_ds6_nbr_lladdr_from_ipaddr`. -/
def uipDs6NbrLladdrFromIpaddr (ipaddr : Option Ipaddr) : Option Linkaddr :=
  (s.uipDs6NbrLookup config ipaddr).map s.lladdr

/-- `uip_ds6_nbr_ipaddr_from_lladdr`. -/
def uipDs6NbrIpaddrFromLladdr (lladdr : Option Linkaddr) : Option Ipaddr :=
  (s.nbrTableGetFromLladdr config.ds6Neighbors lladdr).map s.nbrIpaddr

end Neighbors

section Removal

/-- `uip_ds6_route_rm`. The last route of a neighbor releases it. -/
def uipDs6RouteRm (route : Route) : State :=
  match s.neighborRoutes route with
  | none => s
  | some routes =>
      let neighborRoute := (s.routeList routes).find? fun entry => s.route entry = route
      let routeList := match neighborRoute with
        | none => s.routeList routes
        | some entry => (s.routeList routes).erase entry
      let unlisted :=
        { s with
          routelist := s.routelist.erase route
          routeList := Function.update s.routeList routes routeList }
      let released :=
        if routeList = [] then unlisted.nbrTableRemove config.nbrRoutes routes else unlisted
      { released with
        routememb := s.routememb.erase route
        neighborroutememb := match neighborRoute with
          | none => s.neighborroutememb
          | some entry => s.neighborroutememb.erase entry
        numRoutes := s.numRoutes - 1 }

/-- The loop of `rm_routelist`, in which the first route goes in each turn. -/
def rmRoutes (routes : Index) : Nat → State → State
  | 0, s => s
  | fuel + 1, s =>
      match s.routeList routes with
      | [] => s
      | entry :: _ => rmRoutes routes fuel (s.uipDs6RouteRm config (s.route entry))

/-- `rm_routelist`, which is also the callback of `nbr_routes`. -/
def rmRoutelist (routes : Index) : State :=
  (rmRoutes config routes (s.routeList routes).length s).nbrTableRemove config.nbrRoutes routes

/-- What `remove_key` does for a table. The callbacks of the other tables remove their items. -/
def callback (key : Index) (s : State) (table : Table) : State :=
  if s.usedMap key table = true then
    if table = config.nbrRoutes then s.rmRoutelist config key
    else if config.callback table = true then s.nbrTableRemove table key
    else s
  else s

/-- `remove_key`. -/
def removeKey (leastUsedKey : Index) : State :=
  let s := (List.finRange maxNumTables).foldl (callback config leastUsedKey) s
  { s with
    usedMap := Function.update s.usedMap leastUsedKey fun _ => false
    nbrTableKeys := s.nbrTableKeys.erase leastUsedKey }

end Removal

section Addition

/-- No table has locked the neighbor. -/
def Unlocked (index : Index) : Prop := ∀ table, s.lockedMap index table = false

instance (index : Index) : Decidable (s.Unlocked index) :=
  inferInstanceAs (Decidable (∀ _, _))

def usedCount (index : Index) : Nat :=
  (List.finRange maxNumTables).countP fun table => s.usedMap index table

/-- The loop of `nbr_table_allocate`, with `least_used_key` and `least_used_count`. -/
def leastUsedKey : List Index → Option (Index × Nat) → Option (Index × Nat)
  | [], least => least
  | key :: keys, least =>
      if s.Unlocked key ∧ ∀ best ∈ least, s.usedCount key < best.2 then
        if s.usedCount key = 0 then some (key, 0)
        else leastUsedKey keys (some (key, s.usedCount key))
      else leastUsedKey keys least

/-- `nbr_table_allocate`, with the answer of `NBR_TABLE_FIND_REMOVABLE`. -/
def nbrTableAllocate (removable : Option Linkaddr) : State × Option Index :=
  match s.neighborAddrMem.alloc with
  | some key => ({ s with neighborAddrMem := insert key s.neighborAddrMem }, some key)
  | none =>
      match removable with
      | none => (s, none)
      | some lladdr =>
          match s.indexFromLladdr (some lladdr) with
          | some index =>
              let s := { s with lockedMap := Function.update s.lockedMap index fun _ => false }
              (s.removeKey config index, some index)
          | none =>
              match s.leastUsedKey s.nbrTableKeys none with
              | some (index, _) => (s.removeKey config index, some index)
              | none => (s, none)

/-- The end of `nbr_table_add_lladdr`: the item is cleared and in use. -/
def initItem (table : Table) (item : Index) : State :=
  { s with
    usedMap := nbrSetBit s.usedMap table item true
    nbrIpaddr := if table = config.ds6Neighbors then
      Function.update s.nbrIpaddr item fun _ => 0 else s.nbrIpaddr
    routeList := if table = config.nbrRoutes then
      Function.update s.routeList item [] else s.routeList }

/-- `nbr_table_add_lladdr`. -/
def nbrTableAddLladdr (table : Table) (lladdr removable : Option Linkaddr) :
    State × Option Index :=
  match s.indexFromLladdr lladdr with
  | some index => (s.initItem config table index, some index)
  | none =>
      match s.nbrTableAllocate config removable with
      | (s, none) => (s, none)
      | (s, some index) =>
          let s :=
            { s with
              nbrTableKeys := listAdd s.nbrTableKeys index
              lladdr := Function.update s.lladdr index (lladdr.getD linkaddrNull) }
          (s.initItem config table index, some index)

/-- `uip_ds6_nbr_add`, as far as the routes look at it. -/
def uipDs6NbrAdd (ipaddr : Ipaddr) (lladdr removable : Option Linkaddr) : State :=
  match s.nbrTableAddLladdr config config.ds6Neighbors lladdr removable with
  | (s, none) => s
  | (s, some nbr) => { s with nbrIpaddr := Function.update s.nbrIpaddr nbr ipaddr }

/-- The loop of `uip_ds6_route_lookup`, with `longestmatch` and `found_route`. -/
def longestMatch (addr : Ipaddr) : List Route → Byte → Option Route → Option Route
  | [], _, foundRoute => foundRoute
  | r :: rest, longestmatch, foundRoute =>
      if longestmatch ≤ s.length r ∧ UipIpaddrPrefixcmp addr (s.ipaddr r) (s.length r) then
        if s.length r = 128 then some r else longestMatch addr rest (s.length r) (some r)
      else longestMatch addr rest longestmatch foundRoute

/-- `uip_ds6_route_lookup`. What it finds goes to the start of the list. -/
def uipDs6RouteLookup (addr : Ipaddr) : State × Option Route :=
  match s.longestMatch addr s.routelist 0 none with
  | none => (s, none)
  | some foundRoute =>
      if s.routelist.head? = some foundRoute then (s, some foundRoute)
      else ({ s with routelist := listPush (s.routelist.erase foundRoute) foundRoute },
        some foundRoute)

/-- `uip_ds6_route_nexthop`. -/
def uipDs6RouteNexthop (route : Route) : Option Ipaddr :=
  s.uipDs6NbrIpaddrFromLladdr config ((s.neighborRoutes route).map s.lladdr)

/-- The end of `uip_ds6_route_add`: a route through the neighbor. If there is no block for
its entry in the list of the neighbor, the route stays in `routelist`. -/
def linkRoute (ipaddr : Ipaddr) (length : Byte) (nexthopLladdr : Linkaddr) (routes : Index) :
    State × Option Route :=
  match s.routememb.alloc with
  | none => (s, none)
  | some r =>
      let s :=
        { s with
          routememb := insert r s.routememb
          routelist := listPush s.routelist r }
      match s.neighborroutememb.alloc with
      | none => ({ s with routememb := s.routememb.erase r }, none)
      | some nbrr =>
          let s :=
            { s with
              neighborroutememb := insert nbrr s.neighborroutememb
              route := Function.update s.route nbrr r
              routeList := Function.update s.routeList routes (listAdd (s.routeList routes) nbrr)
              neighborRoutes := Function.update s.neighborRoutes r (some routes)
              numRoutes := s.numRoutes + 1
              ipaddr := Function.update s.ipaddr r ipaddr
              length := Function.update s.length r length
              via := Function.update s.via r nexthopLladdr }
          (s.nbrTableLock config.nbrRoutes routes, some r)

/-- The part of `uip_ds6_route_add` that finds the list of the neighbor or makes it. -/
def routesOf (nexthopLladdr : Linkaddr) (removable : Option Linkaddr) : State × Option Index :=
  match s.nbrTableGetFromLladdr config.nbrRoutes (some nexthopLladdr) with
  | some routes => (s, some routes)
  | none => s.nbrTableAddLladdr config config.nbrRoutes (some nexthopLladdr) removable

/-- `uip_ds6_route_add` behind the search for an old route. A full table takes no route, or
drops the last one of its list. -/
def addRoute (ipaddr : Ipaddr) (length : Byte) (nexthopLladdr : Linkaddr)
    (removable : Option Linkaddr) : State × Option Route :=
  let room : Option State :=
    if s.numRoutes = uipDs6RouteNb then
      if config.removeLeastRecentlyUsed = true then
        s.routelist.getLast?.map fun oldest => s.uipDs6RouteRm config oldest
      else none
    else some s
  match room with
  | none => (s, none)
  | some s =>
      match s.routesOf config nexthopLladdr removable with
      | (s, none) => (s, none)
      | (s, some routes) => s.linkRoute config ipaddr length nexthopLladdr routes

/-- `uip_ds6_route_add`. -/
def uipDs6RouteAdd (ipaddr : Ipaddr) (length : Byte) (nexthop : Ipaddr)
    (removable : Option Linkaddr) : State × Option Route :=
  match s.uipDs6NbrLladdrFromIpaddr config (some nexthop) with
  | none => (s, none)
  | some nexthopLladdr =>
      match s.uipDs6RouteLookup ipaddr with
      | (s, none) => s.addRoute config ipaddr length nexthopLladdr removable
      | (s, some r) =>
          if s.uipDs6RouteNexthop config r = some nexthop then (s, some r)
          else (s.uipDs6RouteRm config r).addRoute config ipaddr length nexthopLladdr removable

/-- `uip_ds6_route_rm_by_nexthop`. -/
def uipDs6RouteRmByNexthop (nexthop : Option Ipaddr) : State :=
  match s.nbrTableGetFromLladdr config.nbrRoutes
      (s.uipDs6NbrLladdrFromIpaddr config nexthop) with
  | none => s
  | some routes => s.rmRoutelist config routes

end Addition

end State

/-- A call of one of the functions, with what the policy answers where it is asked. -/
inductive Call where
  | nbrTableAddLladdr (table : Table) (lladdr removable : Option Linkaddr)
  | nbrTableRemove (table : Table) (item : Index)
  | nbrTableLock (table : Table) (item : Index)
  | nbrTableUnlock (table : Table) (item : Index)
  | uipDs6NbrAdd (ipaddr : Ipaddr) (lladdr removable : Option Linkaddr)
  | uipDs6RouteAdd (ipaddr : Ipaddr) (length : Byte) (nexthop : Ipaddr)
      (removable : Option Linkaddr)
  | uipDs6RouteRm (route : Route)
  | uipDs6RouteLookup (addr : Ipaddr)
  | uipDs6RouteRmByNexthop (nexthop : Option Ipaddr)

/-- The state after a call; every call returns. -/
def step (config : Config) (s : State) : Call → Option State
  | .nbrTableAddLladdr table lladdr removable =>
      some (s.nbrTableAddLladdr config table lladdr removable).1
  | .nbrTableRemove table item => some (s.nbrTableRemove table item)
  | .nbrTableLock table item => some (s.nbrTableLock table item)
  | .nbrTableUnlock table item => some (s.nbrTableUnlock table item)
  | .uipDs6NbrAdd ipaddr lladdr removable => some (s.uipDs6NbrAdd config ipaddr lladdr removable)
  | .uipDs6RouteAdd ipaddr length nexthop removable =>
      some (s.uipDs6RouteAdd config ipaddr length nexthop removable).1
  | .uipDs6RouteRm route => some (s.uipDs6RouteRm config route)
  | .uipDs6RouteLookup addr => some (s.uipDs6RouteLookup addr).1
  | .uipDs6RouteRmByNexthop nexthop => some (s.uipDs6RouteRmByNexthop config nexthop)

/-- What the callers keep to: only `uip-ds6-route.c` adds items to `nbr_routes`, no other code
releases one that has routes, and a route is removed while it is in the list. -/
def Promised (config : Config) (s : State) : Call → Prop
  | .nbrTableAddLladdr table _ _ => table ≠ config.nbrRoutes
  | .nbrTableRemove table item => table = config.nbrRoutes → s.routeList item = []
  | .nbrTableUnlock table item => table = config.nbrRoutes → s.routeList item = []
  | .uipDs6RouteRm route => route ∈ s.routelist
  | _ => True

end Smarthome.Routes
