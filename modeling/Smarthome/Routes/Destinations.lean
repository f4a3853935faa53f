import Smarthome.Routes.Addition

/-! Where the destinations of a prefix are sent after a route to it was added, and what
becomes of the routes to other prefixes. -/
namespace Smarthome.Routes

open Semantics

namespace State

variable (config : Config) (s : State)

/-- A destination of the prefix that no longer prefix of the routes matches. -/
def Destined (routes : List Route) (ipaddr : Ipaddr) (length : Byte) (addr : Ipaddr) : Prop :=
  SamePrefix addr ipaddr length ∧
    ∀ r ∈ routes, length < s.length r → ¬ SamePrefix addr (s.ipaddr r) (s.length r)

/-- The route is to the prefix. -/
def RouteTo (ipaddr : Ipaddr) (length : Byte) (r : Route) : Prop :=
  s.length r = length ∧ SamePrefix (s.ipaddr r) ipaddr length

/-- The route is the least recently used one of a full table. -/
def LeastRecentlyUsed (r : Route) : Prop :=
  s.numRoutes = uipDs6RouteNb ∧ s.routelist.getLast? = some r

/-- All longest matches of the destinations have the next hop, unless they have fewer bits.
There is only one route to a whole address that counts, the first one. -/
def LeadTo (routes : List Route) (ipaddr : Ipaddr) (length : Byte) (nexthop : Ipaddr)
    (bits : Byte) : Prop :=
  ∀ addr, s.Destined routes ipaddr length addr → ∀ r, s.Longest addr routes r →
    bits ≤ s.length r → s.length r ≠ 128 → s.uipDs6RouteNexthop config r = some nexthop

/-- The search may find the route. It is through the next hop already, and so are all
destinations; or it goes, and then it is the route to the prefix. The routes that stay may match
a destination in more whole bytes than the prefix has. -/
def MayFind (ipaddr : Ipaddr) (length : Byte) (nexthop : Ipaddr) (q : Route) : Prop :=
  if s.uipDs6RouteNexthop config q = some nexthop then
    (∀ addr, s.Destined s.routelist ipaddr length addr → ∃ r ∈ s.routelist, s.Matches addr r) ∧
      s.LeadTo config s.routelist ipaddr length nexthop 0
  else
    (s.RouteTo ipaddr length q ∨ s.LeastRecentlyUsed q) ∧
      s.LeadTo config (s.routelist.erase q) ipaddr length nexthop length

/-- When the call changes only the route to the prefix. -/
def AddsAlone (ipaddr : Ipaddr) (length : Byte) (nexthop : Ipaddr) : Prop :=
  (∀ q ∈ s.routelist, ¬ s.Matches ipaddr q) ∧
      s.LeadTo config (if s.numRoutes = uipDs6RouteNb then s.routelist.dropLast
        else s.routelist) ipaddr length nexthop length ∨
    ∃ q, s.Finds ipaddr s.routelist q ∧ s.MayFind config ipaddr length nexthop q

end State

/-- The route is still there, with its next hop. -/
structure Stays (config : Config) (s t : State) (r : Route) : Prop where
  mem : r ∈ t.routelist
  ipaddr : t.ipaddr r = s.ipaddr r
  length : t.length r = s.length r
  nexthop : t.uipDs6RouteNexthop config r = s.uipDs6RouteNexthop config r

/-- Only the route to the prefix has changed: every later search for one of its destinations
leads to the next hop, and the routes to other prefixes stay, but for the least recently used
one of a full table. -/
structure ChangesOne (config : Config) (s t : State) (ipaddr : Ipaddr) (length : Byte)
    (nexthop : Ipaddr) : Prop where
  found : ∀ addr, t.Destined t.routelist ipaddr length addr → ∀ addrs, ∃ u r,
    (t.lookups addrs).uipDs6RouteLookup addr = (u, some r) ∧
      u.uipDs6RouteNexthop config r = some nexthop
  others : ∀ r ∈ s.routelist, ¬ s.RouteTo ipaddr length r →
    Stays config s t r ∨ s.LeastRecentlyUsed r

section Outcomes

variable {config : Config} {s t : State} {q r : Route} {addr ipaddr nexthop : Ipaddr}
  {length : Byte} {kept : List Route}

theorem SamePrefix.symm {addr1 addr2 : Ipaddr} (h : SamePrefix addr1 addr2 length) :
    SamePrefix addr2 addr1 length := fun i hi => (h i hi).symm

theorem SamePrefix.eq {addr1 addr2 : Ipaddr} (h : SamePrefix addr1 addr2 128) : addr1 = addr2 :=
  prefixcmp_whole.mp h.prefixcmp

/-- Of the routes to whole addresses only those to the prefix match its destinations. -/
theorem State.Destined.whole {routes : List Route} (hLength : length ≤ 128)
    (h : s.Destined routes ipaddr length addr) (hIn : r ∈ routes) (hMatch : s.Matches addr r)
    (hWhole : s.length r = 128) : length = 128 ∧ addr = ipaddr := by
  have hSame : addr = s.ipaddr r := by
    unfold State.Matches at hMatch
    rwa [hWhole, prefixcmp_whole] at hMatch
  have hAll : length = 128 := by
    by_contra hNe
    refine h.2 r hIn (hWhole ▸ UInt8.lt_of_le_of_ne hLength hNe) ?_
    rw [hSame]
    exact fun _ _ => rfl
  refine ⟨hAll, ?_⟩
  have hFirst := h.1
  rw [hAll] at hFirst
  exact hFirst.eq

/-- The next hop of a route does not depend on the searches in between. -/
theorem later_found_iff (config : Config) (nexthop : Ipaddr) (hLengths : ∀ q, t.length q ≤ 128)
    (hNodup : t.routelist.Nodup) (addr : Ipaddr) :
    (∀ addrs, ∃ u r, (t.lookups addrs).uipDs6RouteLookup addr = (u, some r) ∧
      u.uipDs6RouteNexthop config r = some nexthop) ↔
    (∃ r ∈ t.routelist, t.Matches addr r) ∧ ∀ r, t.Answers addr t.routelist r →
      t.uipDs6RouteNexthop config r = some nexthop := by
  rw [← later_lookups_iff hLengths hNodup]
  refine forall_congr' fun addrs => ?_
  have hSame : SameRoutes config t ((t.lookups addrs).uipDs6RouteLookup addr).1 := by
    have hAll : ((t.lookups addrs).uipDs6RouteLookup addr).1 = t.lookups (addrs ++ [addr]) := by
      rw [State.lookups, State.lookups, List.foldl_append, List.foldl_cons, List.foldl_nil]
    obtain ⟨later, hLater, -⟩ := lookups_keep hLengths hNodup (addrs ++ [addr])
    rw [hAll, hLater]
    exact SameRoutes.reorder config t later
  constructor
  · rintro ⟨u, r, hFound, hHop⟩
    rw [hFound] at hSame
    exact ⟨r, by rw [hFound], (hSame.nexthop r).symm.trans hHop⟩
  · rintro ⟨r, hFound, hHop⟩
    exact ⟨_, r, Prod.ext rfl hFound, (hSame.nexthop r).trans hHop⟩

section NewRoute

theorem Added.ne (h : Added config s t kept ipaddr length nexthop r) (hq : q ∈ kept) : q ≠ r :=
  ne_of_mem_of_not_mem hq h.fresh

theorem Added.length_self (h : Added config s t kept ipaddr length nexthop r) :
    t.length r = length := by
  rw [h.length, Function.update_self]

theorem Added.ipaddr_self (h : Added config s t kept ipaddr length nexthop r) :
    t.ipaddr r = ipaddr := by
  rw [h.ipaddr, Function.update_self]

theorem Added.stays (h : Added config s t kept ipaddr length nexthop r) (hq : q ∈ kept) :
    Stays config s t q where
  mem := h.routelist ▸ List.mem_cons_of_mem r hq
  ipaddr := by rw [h.ipaddr, Function.update_of_ne (h.ne hq)]
  length := by rw [h.length, Function.update_of_ne (h.ne hq)]
  nexthop := h.nexthop_other q (h.ne hq)

theorem Stays.matches_iff (h : Stays config s t q) : t.Matches addr q ↔ s.Matches addr q := by
  rw [State.Matches, State.Matches, h.ipaddr, h.length]

theorem Added.matches_self (h : Added config s t kept ipaddr length nexthop r)
    (hSame : SamePrefix addr ipaddr length) : t.Matches addr r := by
  rw [State.Matches, h.ipaddr_self, h.length_self]
  exact hSame.prefixcmp

/-- The new route is not to a longer prefix. -/
theorem Added.destined_iff (h : Added config s t kept ipaddr length nexthop r) :
    t.Destined t.routelist ipaddr length addr ↔ s.Destined kept ipaddr length addr := by
  unfold State.Destined
  rw [h.routelist, List.forall_mem_cons, h.length_self]
  have hKept : (∀ q ∈ kept, length < t.length q → ¬ SamePrefix addr (t.ipaddr q) (t.length q)) ↔
      ∀ q ∈ kept, length < s.length q → ¬ SamePrefix addr (s.ipaddr q) (s.length q) :=
    forall_congr' fun q => forall_congr' fun hq => by rw [(h.stays hq).ipaddr, (h.stays hq).length]
  rw [hKept, and_iff_right fun hLess => absurd hLess (UInt8.lt_irrefl length)]

/-- A route that stayed is a longest match as before, unless the new one is longer. -/
theorem Added.longest_iff (h : Added config s t kept ipaddr length nexthop r)
    (hSame : SamePrefix addr ipaddr length) (hq : q ∈ kept) :
    t.Longest addr t.routelist q ↔ s.Longest addr kept q ∧ length ≤ s.length q := by
  have hStays := h.stays hq
  unfold State.Longest
  rw [h.routelist, List.forall_mem_cons, h.length_self, hStays.matches_iff, hStays.length]
  have hKept : (∀ x ∈ kept, t.Matches addr x → t.length x ≤ s.length q) ↔
      ∀ x ∈ kept, s.Matches addr x → s.length x ≤ s.length q :=
    forall_congr' fun x => forall_congr' fun hx => by
      rw [(h.stays hx).matches_iff, (h.stays hx).length]
  rw [hKept]
  constructor
  · rintro ⟨-, hMatch, hNew, hOld⟩
    exact ⟨⟨hq, hMatch, hOld⟩, hNew (h.matches_self hSame)⟩
  · rintro ⟨⟨-, hMatch, hOld⟩, hNew⟩
    exact ⟨List.mem_cons_of_mem r hq, hMatch, fun _ => hNew, hOld⟩

/-- The first route to a whole address is the new one. -/
theorem Added.first (h : Added config s t kept ipaddr length nexthop r)
    (hLengths : ∀ q, t.length q ≤ 128) (hSame : SamePrefix addr ipaddr length)
    (hWhole : length = 128) : (t.longestMatches addr t.routelist).head? = some r := by
  have hNew : t.Longest addr t.routelist r := by
    refine ⟨h.routelist ▸ List.mem_cons_self .., h.matches_self hSame, fun other _ _ => ?_⟩
    rw [h.length_self, hWhole]
    exact hLengths other
  rw [h.routelist] at hNew ⊢
  exact head?_longestMatches_cons hNew

theorem Added.found_iff (h : Added config s t kept ipaddr length nexthop r)
    (hLengths : ∀ q, t.length q ≤ 128) (hNodup : kept.Nodup) (hLength : length ≤ 128) :
    (∀ addr, t.Destined t.routelist ipaddr length addr → ∀ addrs, ∃ u r,
      (t.lookups addrs).uipDs6RouteLookup addr = (u, some r) ∧
        u.uipDs6RouteNexthop config r = some nexthop) ↔
      s.LeadTo config kept ipaddr length nexthop length := by
  have hList : t.routelist.Nodup := h.routelist ▸ List.nodup_cons.mpr ⟨h.fresh, hNodup⟩
  unfold State.LeadTo
  refine forall_congr' fun addr => ?_
  rw [h.destined_iff]
  refine forall_congr' fun hDestined => ?_
  rw [later_found_iff config nexthop hLengths hList]
  constructor
  · rintro ⟨-, hAll⟩ q hLongest hLess hPart
    have hNow := (h.longest_iff hDestined.1 hLongest.1).mpr ⟨hLongest, hLess⟩
    have hStays := h.stays hLongest.1
    rw [← hStays.nexthop]
    exact hAll q ⟨hNow, fun hWhole => absurd (hStays.length ▸ hWhole) hPart⟩
  · intro hLead
    refine ⟨⟨r, h.routelist ▸ List.mem_cons_self .., h.matches_self hDestined.1⟩, ?_⟩
    rintro q ⟨hLongest, hFirst⟩
    have hMem := hLongest.1
    rw [h.routelist, List.mem_cons] at hMem
    rcases hMem with rfl | hKept
    · exact h.nexthop_self
    · have hStays := h.stays hKept
      obtain ⟨hBefore, hLess⟩ := (h.longest_iff hDestined.1 hKept).mp hLongest
      by_cases hWhole : s.length q = 128
      · obtain ⟨hAll, -⟩ := hDestined.whole hLength hKept hBefore.2.1 hWhole
        have hNew := hFirst (hStays.length.trans hWhole)
        rw [h.first hLengths hDestined.1 hAll] at hNew
        exact absurd (Option.some.inj hNew).symm (h.ne hKept)
      · rw [hStays.nexthop]
        exact hLead q hBefore hLess hWhole

end NewRoute

/-- Nothing has been added. The search has moved what it found to the start. -/
theorem unchanged_found_iff (hLengths : ∀ q, s.length q ≤ 128) (hNodup : s.routelist.Nodup)
    (hLength : length ≤ 128) (hFinds : s.Finds ipaddr s.routelist q)
    (hHop : s.uipDs6RouteNexthop config q = some nexthop)
    (hAfter : t = s.reorder (moveToFront s.routelist q)) :
    (∀ addr, t.Destined t.routelist ipaddr length addr → ∀ addrs, ∃ u r,
      (t.lookups addrs).uipDs6RouteLookup addr = (u, some r) ∧
        u.uipDs6RouteNexthop config r = some nexthop) ↔
      (∀ addr, s.Destined s.routelist ipaddr length addr →
        ∃ r ∈ s.routelist, s.Matches addr r) ∧
      s.LeadTo config s.routelist ipaddr length nexthop 0 := by
  subst hAfter
  have hPerm := moveToFront_perm hFinds.longest.1
  have hDestined (addr : Ipaddr) : (s.reorder (moveToFront s.routelist q)).Destined
      (moveToFront s.routelist q) ipaddr length addr ↔ s.Destined s.routelist ipaddr length addr :=
    and_congr_right' (forall_congr' fun r => imp_congr_left hPerm.mem_iff)
  have hHops := (SameRoutes.reorder config s (moveToFront s.routelist q)).nexthop
  have hSearch := later_found_iff (t := s.reorder (moveToFront s.routelist q)) config nexthop
    hLengths (hPerm.nodup_iff.mpr hNodup)
  constructor
  · intro hAll
    constructor
    · intro addr hDest
      obtain ⟨⟨r, hIn, hMatch⟩, -⟩ := (hSearch addr).mp (hAll addr ((hDestined addr).mpr hDest))
      exact ⟨r, hPerm.mem_iff.mp hIn, hMatch⟩
    · intro addr hDest r hLongest _ hPart
      obtain ⟨-, hLead⟩ := (hSearch addr).mp (hAll addr ((hDestined addr).mpr hDest))
      rw [← hHops]
      exact hLead r ⟨(longest_perm hPerm).mpr hLongest, fun hWhole => absurd hWhole hPart⟩
  · rintro ⟨hSome, hLead⟩ addr hLater
    have hDest := (hDestined addr).mp hLater
    obtain ⟨r, hIn, hMatch⟩ := hSome addr hDest
    refine (hSearch addr).mpr ⟨⟨r, hPerm.mem_iff.mpr hIn, hMatch⟩, ?_⟩
    rintro x ⟨hIs, hFirst⟩
    have hLongest : s.Longest addr (moveToFront s.routelist q) x := hIs
    have hBefore := (longest_perm hPerm).mp hLongest
    rw [hHops]
    by_cases hWhole : s.length x = 128
    · -- The search for the same address has found the first route to it.
      obtain ⟨-, rfl⟩ := hDest.whole hLength hBefore.1 hBefore.2.1 hWhole
      have hSame := (longest_length_eq hFinds.longest hBefore).trans hWhole
      have hOrder := find?_wholeMatch_of_finds hLengths addr hFinds
      have hNow : (s.longestMatches addr (moveToFront s.routelist q)).head? = some x :=
        hFirst hWhole
      rw [head?_longestMatches hLengths hLongest hWhole] at hNow
      have hOld := hFinds.answers.2 hSame
      rw [head?_longestMatches hLengths hFinds.longest hSame, ← hOrder] at hOld
      rw [← Option.some.inj (hOld.symm.trans hNow)]
      exact hHop
    · exact hLead addr hDest x hBefore UInt8.zero_le hWhole

/-- Of the routes to other prefixes the one that goes is missing. -/
theorem Added.others_iff
    (h : Added config s t (s.routelist.erase q) ipaddr length nexthop r)
    (hNodup : s.routelist.Nodup) (hMem : q ∈ s.routelist) :
    (∀ x ∈ s.routelist, ¬ s.RouteTo ipaddr length x → Stays config s t x ∨ s.LeastRecentlyUsed x) ↔
      s.RouteTo ipaddr length q ∨ s.LeastRecentlyUsed q := by
  constructor
  · intro hOthers
    by_contra hNot
    push Not at hNot
    have hStays := (hOthers q hMem hNot.1).resolve_right hNot.2
    -- Only the new route can have its place.
    have hIs : q = r := by
      have hIn := hStays.mem
      rw [h.routelist, List.mem_cons] at hIn
      exact hIn.resolve_right hNodup.not_mem_erase
    refine hNot.1 ⟨?_, ?_⟩
    · rw [← hStays.length, hIs, h.length_self]
    · rw [← hStays.ipaddr, hIs, h.ipaddr_self]
      exact fun _ _ => rfl
  · intro hEither x hx hOther
    by_cases hEq : x = q
    · rw [hEq] at hOther ⊢
      exact Or.inr (hEither.resolve_left hOther)
    · exact Or.inl (h.stays ((List.mem_erase_of_ne hEq).mpr hx))

/-- In a full table the last route of the list makes room. -/
theorem Added.others (h : Added config s t
      (if s.numRoutes = uipDs6RouteNb then s.routelist.dropLast else s.routelist)
      ipaddr length nexthop r) :
    ∀ x ∈ s.routelist, ¬ s.RouteTo ipaddr length x →
      Stays config s t x ∨ s.LeastRecentlyUsed x := by
  intro x hx _
  by_cases hFull : s.numRoutes = uipDs6RouteNb
  · rw [if_pos hFull] at h
    have hSplit := List.dropLast_append_getLast? _ (List.getLast?_eq_some_getLast
      (List.ne_nil_of_mem hx))
    rw [← hSplit, List.mem_append, List.mem_singleton] at hx
    rcases hx with hKept | hLast
    · exact Or.inl (h.stays hKept)
    · refine Or.inr ⟨hFull, ?_⟩
      rw [hLast]
      exact List.getLast?_eq_some_getLast _
  · rw [if_neg hFull] at h
    exact Or.inl (h.stays hx)

theorem addsAlone_of_none (hNone : ∀ q ∈ s.routelist, ¬ s.Matches ipaddr q) :
    s.AddsAlone config ipaddr length nexthop ↔
      s.LeadTo config (if s.numRoutes = uipDs6RouteNb then s.routelist.dropLast
        else s.routelist) ipaddr length nexthop length := by
  constructor
  · rintro (⟨-, hLead⟩ | ⟨q, hFinds, -⟩)
    · exact hLead
    · exact absurd hFinds.longest.2.1 (hNone q hFinds.longest.1)
  · intro hLead
    exact Or.inl ⟨hNone, hLead⟩

theorem addsAlone_of_finds (hFinds : s.Finds ipaddr s.routelist q) :
    s.AddsAlone config ipaddr length nexthop ↔ s.MayFind config ipaddr length nexthop q := by
  constructor
  · rintro (⟨hNone, -⟩ | ⟨x, hOther, hCase⟩)
    · exact absurd hFinds.longest.2.1 (hNone q hFinds.longest.1)
    · obtain rfl := hFinds.unique hOther
      exact hCase
  · intro hCase
    exact Or.inr ⟨q, hFinds, hCase⟩

/-- Where all prefixes of the table are whole bytes, a route to an address that nothing matches
is such a case. -/
theorem addsAlone_of_bytes (hNone : ∀ q ∈ s.routelist, ¬ s.Matches ipaddr q)
    (hBytes : ∀ q ∈ s.routelist, 8 ∣ (s.length q).toNat) :
    s.AddsAlone config ipaddr length nexthop := by
  refine (addsAlone_of_none hNone).mpr fun addr hDestined q hLongest hLess _ => ?_
  have hMem : q ∈ s.routelist := by
    have hKept := hLongest.1
    split_ifs at hKept
    · exact List.mem_of_mem_dropLast hKept
    · exact hKept
  have hMatch : UipIpaddrPrefixcmp addr (s.ipaddr q) (s.length q) := hLongest.2.1
  rcases UInt8.lt_or_eq_of_le hLess with hLonger | hSame
  · exact absurd ((samePrefix_iff_prefixcmp (hBytes q hMem)).mpr hMatch)
      (hDestined.2 q hLongest.1 hLonger)
  · have hAddress := (prefixcmp_congr hDestined.1.prefixcmp (UInt8.le_of_eq hSame.symm)).mp hMatch
    exact absurd hAddress (hNone q hMem)

end Outcomes

/-- **When adding a route changes only that route.** In every table of prefixes that the
calls lead to, a route is added through a known next hop. All later searches for the
destinations of its prefix lead there, and the routes to other prefixes stay, exactly when
what the search for the address finds is already through the next hop, or is the route to the
prefix, and no route that stays takes some of the destinations elsewhere. -/
theorem route_added_alone_iff (config : Config) {s t : State}
    (run : Reaches (step config) (PromisedPrefixes config) State.init s) (ipaddr : Ipaddr)
    {length : Byte} (hLength : length ≤ 128) (nexthop : Ipaddr) (removable : Option Linkaddr)
    {r : Route}
    (hAdd : s.uipDs6RouteAdd config ipaddr length nexthop removable = (t, some r)) :
    ChangesOne config s t ipaddr length nexthop ↔ s.AddsAlone config ipaddr length nexthop := by
  obtain ⟨hInv, hLengths⟩ := lengths_of_run run
  have hNodup := hInv.routes.nodup
  have hAfter : ∀ q, t.length q ≤ 128 := by
    intro q
    have hAll := uipDs6RouteAdd_lengths config hLengths ipaddr hLength nexthop removable q
    rwa [hAdd] at hAll
  have hParts : ChangesOne config s t ipaddr length nexthop ↔
      (∀ addr, t.Destined t.routelist ipaddr length addr → ∀ addrs, ∃ u r,
        (t.lookups addrs).uipDs6RouteLookup addr = (u, some r) ∧
          u.uipDs6RouteNexthop config r = some nexthop) ∧
      ∀ r ∈ s.routelist, ¬ s.RouteTo ipaddr length r →
        Stays config s t r ∨ s.LeastRecentlyUsed r :=
    ⟨fun h => ⟨h.found, h.others⟩, fun h => ⟨h.1, h.2⟩⟩
  rw [hParts]
  rcases hInv.uipDs6RouteAdd_cases hLengths hAdd with ⟨hNone, hAdded⟩ | ⟨q, hFinds, hCase⟩
  · have hKept : (if s.numRoutes = uipDs6RouteNb then s.routelist.dropLast
        else s.routelist).Nodup := by
      split_ifs
      · exact hNodup.sublist (List.dropLast_sublist _)
      · exact hNodup
    rw [addsAlone_of_none hNone, hAdded.found_iff hAfter hKept hLength]
    exact and_iff_left hAdded.others
  · rw [addsAlone_of_finds hFinds, State.MayFind]
    rcases hCase with ⟨hHop, hMoved⟩ | ⟨hHop, hAdded⟩
    · rw [if_pos hHop, unchanged_found_iff hLengths hNodup hLength hFinds hHop hMoved]
      refine and_iff_left fun x hx _ => Or.inl ?_
      rw [hMoved]
      exact ⟨(moveToFront_perm hFinds.longest.1).mem_iff.mpr hx, rfl, rfl,
        (SameRoutes.reorder config s _).nexthop x⟩
    · rw [if_neg hHop, hAdded.found_iff hAfter (hNodup.erase q) hLength,
        hAdded.others_iff hNodup hFinds.longest.1]
      exact and_comm

/-- A table with one neighbor and no routes. -/
def sampleNeighbors : State :=
  State.init.uipDs6NbrAdd sampleConfig sampleAddress (some sampleNeighbor) none

theorem sampleNeighbors_run :
    Reaches (step sampleConfig) (PromisedPrefixes sampleConfig) State.init sampleNeighbors :=
  Reaches.next Reaches.start (show step sampleConfig State.init
    (.uipDs6NbrAdd sampleAddress (some sampleNeighbor) none) = some _ from rfl) ⟨trivial, trivial⟩

/-- The first route of a table changes no other one. -/
theorem route_added_alone_first : ChangesOne sampleConfig sampleNeighbors
    (sampleNeighbors.uipDs6RouteAdd sampleConfig (fun _ => 3) 64 sampleAddress none).1
    (fun _ => 3) 64 sampleAddress := by
  have hAdd : sampleNeighbors.uipDs6RouteAdd sampleConfig (fun _ => 3) 64 sampleAddress none =
      (_, some 0) := Prod.ext rfl (by decide +kernel)
  have hEmpty : ∀ q, q ∉ sampleNeighbors.routelist := by decide +kernel
  refine (route_added_alone_iff sampleConfig sampleNeighbors_run (fun _ => 3) (by decide)
    sampleAddress none hAdd).mpr (Or.inl ⟨fun q hIn => absurd hIn (hEmpty q), ?_⟩)
  rw [if_neg (by decide +kernel)]
  exact fun addr _ q hLongest => absurd hLongest.1 (hEmpty q)

/-- A second neighbor, and a route to all addresses through the first. -/
def sampleTable : State :=
  ((sampleNeighbors.uipDs6NbrAdd sampleConfig (fun _ => 8) (some fun _ => 6) none).uipDs6RouteAdd
    sampleConfig (fun _ => 3) 0 sampleAddress none).1

theorem sampleTable_run :
    Reaches (step sampleConfig) (PromisedPrefixes sampleConfig) State.init sampleTable := by
  have hSecond := Reaches.next sampleNeighbors_run (show step sampleConfig _
    (.uipDs6NbrAdd (fun _ => 8) (some fun _ => 6) none) = some _ from rfl) ⟨trivial, trivial⟩
  exact Reaches.next hSecond (show step sampleConfig _
    (.uipDs6RouteAdd (fun _ => 3) 0 sampleAddress none) = some _ from rfl)
    ⟨trivial, UInt8.zero_le⟩

/-- A route to one network through the second neighbor removes the route to all addresses. -/
theorem not_route_added_alone : ¬ ∀ (config : Config) (s t : State),
    Reaches (step config) (PromisedPrefixes config) State.init s →
    ∀ (ipaddr : Ipaddr) (length : Byte), length ≤ 128 →
    ∀ (nexthop : Ipaddr) (removable : Option Linkaddr) (r : Route),
    s.uipDs6RouteAdd config ipaddr length nexthop removable = (t, some r) →
    ChangesOne config s t ipaddr length nexthop := by
  intro hAll
  have hChanges := hAll sampleConfig sampleTable _ sampleTable_run (fun _ => 5) 64 (by decide)
    (fun _ => 8) none 0 (Prod.ext rfl (by decide +kernel))
  have hMem : 0 ∈ sampleTable.routelist := by decide +kernel
  have hOther : ¬ sampleTable.RouteTo (fun _ => 5) 64 0 := fun hTo =>
    absurd hTo.1 (by decide +kernel)
  rcases hChanges.others 0 hMem hOther with hStays | hLast
  · exact absurd hStays.length (by decide +kernel)
  · exact absurd hLast.1 (by decide +kernel)

end Smarthome.Routes
