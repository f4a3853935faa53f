import Smarthome.Routes.Consistency
import Smarthome.Semantics.RecentlyUsed

/-! What `uip_ds6_route_lookup` finds. It compares whole bytes, and it changes the order of
the routes, so that of several longest matches each is found at some time. -/
namespace Smarthome.Routes

open Semantics

/-- A bit of an address. The first one is the highest of the first byte. -/
def ipaddrBit (addr : Ipaddr) (i : Fin 128) : Bool :=
  (addr ⟨i / 8, by omega⟩).toNat.testBit (7 - i % 8)

/-- The addresses have their first bits in common. -/
def SamePrefix (addr1 addr2 : Ipaddr) (length : Byte) : Prop :=
  ∀ i : Fin 128, i.val < length.toNat → ipaddrBit addr1 i = ipaddrBit addr2 i

instance (addr1 addr2 : Ipaddr) (length : Byte) : Decidable (SamePrefix addr1 addr2 length) :=
  inferInstanceAs (Decidable (∀ _, _ → _))

section Bytes

variable {addr addr1 addr2 : Ipaddr} {length longer : Byte}

/-- The comparison looks at the bytes that the prefix covers as a whole. -/
theorem SamePrefix.prefixcmp (h : SamePrefix addr1 addr2 length) :
    UipIpaddrPrefixcmp addr1 addr2 length := by
  intro j hj
  rw [Nat.shiftRight_eq_div_pow] at hj
  apply UInt8.toNat_inj.mp
  apply Nat.eq_of_testBit_eq
  intro k
  by_cases hk : k < 8
  · have hBit := h ⟨8 * j + (7 - k), by omega⟩ (by dsimp only; omega)
    have hByte : (8 * j.val + (7 - k)) / 8 = j.val := by omega
    have hPlace : 7 - (8 * j.val + (7 - k)) % 8 = k := by omega
    simpa only [ipaddrBit, hByte, hPlace] using hBit
  · have hHigh (b : Byte) : b.toNat.testBit k = false :=
      Nat.testBit_lt_two_pow (b.toNat_lt.trans_le (Nat.pow_le_pow_right (by decide) (by omega)))
    rw [hHigh, hHigh]

theorem prefixcmp_of_le (h : UipIpaddrPrefixcmp addr1 addr2 longer) (hLe : length ≤ longer) :
    UipIpaddrPrefixcmp addr1 addr2 length := by
  intro i hi
  apply h i
  rw [Nat.shiftRight_eq_div_pow] at hi ⊢
  exact hi.trans_le (Nat.div_le_div_right (UInt8.le_iff_toNat_le.mp hLe))

/-- Destinations of one prefix match the same shorter ones. -/
theorem prefixcmp_congr (h : UipIpaddrPrefixcmp addr1 addr2 longer) (hLe : length ≤ longer) :
    UipIpaddrPrefixcmp addr1 addr length ↔ UipIpaddrPrefixcmp addr2 addr length := by
  have hSame := prefixcmp_of_le h hLe
  exact forall_congr' fun i => forall_congr' fun hi => by rw [hSame i hi]

/-- Prefixes of whole bytes are compared as a whole. -/
theorem samePrefix_iff_prefixcmp (hBytes : 8 ∣ length.toNat) :
    SamePrefix addr1 addr2 length ↔ UipIpaddrPrefixcmp addr1 addr2 length := by
  refine ⟨SamePrefix.prefixcmp, fun h i hi => ?_⟩
  have hByte := h ⟨i / 8, by omega⟩ (by rw [Nat.shiftRight_eq_div_pow]; dsimp only; omega)
  rw [ipaddrBit, ipaddrBit, hByte]

theorem prefixcmp_whole : UipIpaddrPrefixcmp addr1 addr2 128 ↔ addr1 = addr2 := by
  constructor
  · intro h
    funext i
    exact h i i.isLt
  · rintro rfl i _
    rfl

end Bytes

namespace State

variable (s : State) (addr : Ipaddr) (routes : List Route)

/-- The comparison that the search makes. -/
def Matches (r : Route) : Prop := UipIpaddrPrefixcmp addr (s.ipaddr r) (s.length r)

instance (r : Route) : Decidable (s.Matches addr r) :=
  inferInstanceAs (Decidable (UipIpaddrPrefixcmp ..))

/-- No match among the routes is longer. -/
def Longest (r : Route) : Prop :=
  r ∈ routes ∧ s.Matches addr r ∧
    ∀ other ∈ routes, s.Matches addr other → s.length other ≤ s.length r

instance (r : Route) : Decidable (s.Longest addr routes r) :=
  inferInstanceAs (Decidable (_ ∧ _ ∧ ∀ _, _))

def longestMatches : List Route := routes.filter fun r => s.Longest addr routes r

/-- The last of the longest matches, or the first one if they are whole addresses. -/
def Finds (r : Route) : Prop :=
  if s.length r = 128 then (s.longestMatches addr routes).head? = some r
  else (s.longestMatches addr routes).getLast? = some r

/-- The longest matches that later searches may find. -/
def Answers (r : Route) : Prop :=
  s.Longest addr routes r ∧
    (s.length r = 128 → (s.longestMatches addr routes).head? = some r)

/-- A later state in which the routes have another order. -/
def reorder : State := { s with routelist := routes }

/-- Searches, one after the other. -/
def lookups (addrs : List Ipaddr) : State :=
  addrs.foldl (fun s addr => (s.uipDs6RouteLookup addr).1) s

/-- What the loop has found among the routes behind it. -/
def Seen (before : List Route) (longestmatch : Byte) : Option Route → Prop
  | none => longestmatch = 0 ∧ ∀ r ∈ before, ¬ s.Matches addr r
  | some r => longestmatch = s.length r ∧ s.length r ≠ 128 ∧ s.Finds addr before r

end State

section Search

variable {s : State} {addr : Ipaddr} {routes before : List Route} {q r : Route}

theorem mem_longestMatches : r ∈ s.longestMatches addr routes ↔ s.Longest addr routes r := by
  rw [State.longestMatches, List.mem_filter, decide_eq_true_iff]
  exact and_iff_right_of_imp And.left

theorem State.Finds.longest (h : s.Finds addr routes r) : s.Longest addr routes r := by
  unfold State.Finds at h
  apply mem_longestMatches.mp
  split_ifs at h
  · exact List.mem_of_head? h
  · exact List.mem_of_getLast? h

theorem State.Finds.answers (h : s.Finds addr routes r) : s.Answers addr routes r := by
  refine ⟨h.longest, fun hWhole => ?_⟩
  rwa [State.Finds, if_pos hWhole] at h

theorem longest_length_eq (hOne : s.Longest addr routes q) (hOther : s.Longest addr routes r) :
    s.length q = s.length r :=
  UInt8.le_antisymm (hOther.2.2 q hOne.1 hOne.2.1) (hOne.2.2 r hOther.1 hOther.2.1)

theorem State.Finds.unique (hOne : s.Finds addr routes q) (hOther : s.Finds addr routes r) :
    q = r := by
  have hLength := longest_length_eq hOne.longest hOther.longest
  unfold State.Finds at hOne hOther
  rw [hLength] at hOne
  split_ifs at hOne hOther
  · exact Option.some.inj (hOne.symm.trans hOther)
  · exact Option.some.inj (hOne.symm.trans hOther)

theorem head?_longestMatches_cons (h : s.Longest addr (r :: routes) r) :
    (s.longestMatches addr (r :: routes)).head? = some r := by
  rw [State.longestMatches, List.filter_cons_of_pos (by simpa using h), List.head?_cons]

/-- A route that is not shorter than the matches before it is the last longest one. -/
theorem longestMatches_append (hMatch : s.Matches addr r)
    (hLongest : ∀ other ∈ before, s.Matches addr other → s.length other ≤ s.length r) :
    (s.longestMatches addr (before ++ [r])).getLast? = some r := by
  have hNew : s.Longest addr (before ++ [r]) r := by
    refine ⟨by simp, hMatch, fun other hIn hOther => ?_⟩
    rcases List.mem_append.mp hIn with hBefore | hLast
    · exact hLongest other hBefore hOther
    · exact UInt8.le_of_eq (congrArg s.length (List.mem_singleton.mp hLast))
  rw [State.longestMatches, List.filter_append, List.filter_cons_of_pos (by simpa using hNew),
    List.filter_nil, List.getLast?_concat]

/-- Other routes make no difference. -/
theorem longestMatches_append_of_not
    (hNot : s.Matches addr r → ∃ other ∈ before, s.Matches addr other ∧
      s.length r < s.length other) :
    s.longestMatches addr (before ++ [r]) = s.longestMatches addr before := by
  have hLast : ¬ s.Longest addr (before ++ [r]) r := by
    rintro ⟨-, hMatch, hLongest⟩
    obtain ⟨other, hIn, hOther, hLess⟩ := hNot hMatch
    exact absurd (hLongest other (List.mem_append_left _ hIn) hOther) (UInt8.not_le.mpr hLess)
  rw [State.longestMatches, List.filter_append, List.filter_cons_of_neg (by simpa using hLast),
    List.filter_nil, List.append_nil]
  refine List.filter_congr fun q hq => decide_eq_decide.mpr ?_
  constructor
  · rintro ⟨-, hMatch, hLongest⟩
    exact ⟨hq, hMatch, fun other hIn => hLongest other (List.mem_append_left _ hIn)⟩
  · rintro ⟨-, hMatch, hLongest⟩
    refine ⟨List.mem_append_left _ hq, hMatch, fun other hIn hOther => ?_⟩
    rcases List.mem_append.mp hIn with hBefore | hLast
    · exact hLongest other hBefore hOther
    · obtain rfl := List.mem_singleton.mp hLast
      obtain ⟨longer, hLonger, hMore, hLess⟩ := hNot hOther
      exact UInt8.le_trans (UInt8.le_of_lt hLess) (hLongest longer hLonger hMore)

section Lengths

variable (hLengths : ∀ r, s.length r ≤ 128)
include hLengths

/-- No match behind the loop is longer than `longestmatch`, and none is a whole address. -/
theorem State.Seen.le {longestmatch : Byte} {foundRoute : Option Route}
    (h : s.Seen addr before longestmatch foundRoute) (hIn : q ∈ before) (hMatch : s.Matches addr q) :
    s.length q ≤ longestmatch ∧ s.length q ≠ 128 := by
  cases foundRoute with
  | none => exact absurd hMatch (h.2 q hIn)
  | some found =>
      obtain ⟨rfl, hNot, hFinds⟩ := h
      have hLess := hFinds.longest.2.2 q hIn hMatch
      refine ⟨hLess, fun hWhole => hNot (UInt8.le_antisymm (hLengths found) ?_)⟩
      rwa [hWhole] at hLess

/-- A pass that takes the route. -/
theorem State.Seen.take {longestmatch : Byte} {foundRoute : Option Route}
    (h : s.Seen addr before longestmatch foundRoute) (hLess : longestmatch ≤ s.length r)
    (hMatch : s.Matches addr r) (hPart : s.length r ≠ 128) :
    s.Seen addr (before ++ [r]) (s.length r) (some r) := by
  refine ⟨rfl, hPart, ?_⟩
  rw [State.Finds, if_neg hPart]
  exact longestMatches_append hMatch fun other hIn hOther =>
    UInt8.le_trans (h.le hLengths hIn hOther).1 hLess

/-- A pass that takes a whole address, which ends the search. -/
theorem State.Seen.whole {longestmatch : Byte} {foundRoute : Option Route}
    (h : s.Seen addr before longestmatch foundRoute) (hMatch : s.Matches addr r)
    (hWhole : s.length r = 128) (rest : List Route) : s.Finds addr (before ++ r :: rest) r := by
  have hNew : s.Longest addr (before ++ r :: rest) r := by
    refine ⟨by simp, hMatch, fun other _ _ => ?_⟩
    rw [hWhole]
    exact hLengths other
  have hNone : before.filter (fun q => s.Longest addr (before ++ r :: rest) q) = [] := by
    refine List.filter_eq_nil_iff.mpr fun other hIn hOther => ?_
    have hLongest := of_decide_eq_true hOther
    exact (h.le hLengths hIn hLongest.2.1).2 ((longest_length_eq hLongest hNew).trans hWhole)
  rw [State.Finds, if_pos hWhole, State.longestMatches, List.filter_append, hNone,
    List.nil_append, List.filter_cons_of_pos (by simpa using hNew), List.head?_cons]

omit hLengths in
/-- A pass that leaves the route. -/
theorem State.Seen.skip {longestmatch : Byte} {foundRoute : Option Route}
    (h : s.Seen addr before longestmatch foundRoute)
    (hSkip : ¬ (longestmatch ≤ s.length r ∧ s.Matches addr r)) :
    s.Seen addr (before ++ [r]) longestmatch foundRoute := by
  cases foundRoute with
  | none =>
      obtain ⟨rfl, hNone⟩ := h
      refine ⟨rfl, fun other hIn hMatch => ?_⟩
      rcases List.mem_append.mp hIn with hBefore | hLast
      · exact hNone other hBefore hMatch
      · obtain rfl := List.mem_singleton.mp hLast
        exact hSkip ⟨UInt8.zero_le, hMatch⟩
  | some found =>
      obtain ⟨rfl, hNot, hFinds⟩ := h
      have hSame : s.longestMatches addr (before ++ [r]) = s.longestMatches addr before :=
        longestMatches_append_of_not fun hMatch =>
          ⟨found, hFinds.longest.1, hFinds.longest.2.1,
            UInt8.not_le.mp fun hLe => hSkip ⟨hLe, hMatch⟩⟩
      refine ⟨rfl, hNot, ?_⟩
      rwa [State.Finds, hSame]

/-- The loop finds the route that is described. -/
theorem longestMatch_spec {longestmatch : Byte} {foundRoute : Option Route}
    (hSeen : s.Seen addr before longestmatch foundRoute) :
    match s.longestMatch addr routes longestmatch foundRoute with
    | none => ∀ r ∈ before ++ routes, ¬ s.Matches addr r
    | some r => s.Finds addr (before ++ routes) r := by
  induction routes generalizing before longestmatch foundRoute with
  | nil =>
      rw [State.longestMatch, List.append_nil]
      cases foundRoute with
      | none => exact hSeen.2
      | some r => exact hSeen.2.2
  | cons r rest ih =>
      have hAppend : before ++ r :: rest = before ++ [r] ++ rest := by simp
      rw [State.longestMatch]
      split_ifs with hTake hWhole
      · exact hSeen.whole hLengths hTake.2 hWhole rest
      · rw [hAppend]
        exact ih (hSeen.take hLengths hTake.1 hTake.2 hWhole)
      · rw [hAppend]
        exact ih (hSeen.skip hTake)

variable (addr routes) in
theorem longestMatch_cases :
    match s.longestMatch addr routes 0 none with
    | none => ∀ r ∈ routes, ¬ s.Matches addr r
    | some r => s.Finds addr routes r := by
  have hSeen : s.Seen addr [] 0 none := ⟨rfl, fun _ hIn => absurd hIn List.not_mem_nil⟩
  exact longestMatch_spec hLengths hSeen

/-- The search in all routes. -/
theorem longestMatch_iff :
    s.longestMatch addr routes 0 none = some r ↔ s.Finds addr routes r := by
  have hSpec := longestMatch_cases addr routes hLengths
  constructor
  · intro hFound
    rwa [hFound] at hSpec
  · intro hFinds
    cases hMatch : s.longestMatch addr routes 0 none with
    | none =>
        rw [hMatch] at hSpec
        exact absurd hFinds.longest.2.1 (hSpec r hFinds.longest.1)
    | some found =>
        rw [hMatch] at hSpec
        rw [State.Finds.unique hSpec hFinds]

theorem longestMatch_eq_none_iff :
    s.longestMatch addr routes 0 none = none ↔ ∀ r ∈ routes, ¬ s.Matches addr r := by
  have hSpec := longestMatch_cases addr routes hLengths
  constructor
  · intro hFound
    rwa [hFound] at hSpec
  · intro hNone
    cases hMatch : s.longestMatch addr routes 0 none with
    | none => rfl
    | some found =>
        rw [hMatch] at hSpec
        exact absurd hSpec.longest.2.1 (hNone found hSpec.longest.1)

theorem exists_finds (hMatch : ∃ r ∈ routes, s.Matches addr r) : ∃ r, s.Finds addr routes r := by
  obtain ⟨q, hIn, hMatch⟩ := hMatch
  cases hFound : s.longestMatch addr routes 0 none with
  | none => exact absurd hMatch ((longestMatch_eq_none_iff hLengths).mp hFound q hIn)
  | some r => exact ⟨r, (longestMatch_iff hLengths).mp hFound⟩

theorem uipDs6RouteLookup_of_finds (hNodup : s.routelist.Nodup)
    (hFinds : s.Finds addr s.routelist r) :
    s.uipDs6RouteLookup addr = (s.reorder (moveToFront s.routelist r), some r) := by
  rw [State.uipDs6RouteLookup, (longestMatch_iff hLengths).mpr hFinds]
  dsimp only
  split_ifs with hHead
  · rw [moveToFront_of_head? hHead, State.reorder]
  · rw [listPush, List.erase_of_not_mem hNodup.not_mem_erase, State.reorder, moveToFront]

theorem uipDs6RouteLookup_of_none (hNone : ∀ r ∈ s.routelist, ¬ s.Matches addr r) :
    s.uipDs6RouteLookup addr = (s, none) := by
  rw [State.uipDs6RouteLookup, (longestMatch_eq_none_iff hLengths).mpr hNone]

end Lengths

/-- The routes to one whole address, in the order of the list. -/
def State.wholeMatch (s : State) (addr : Ipaddr) (r : Route) : Bool :=
  s.length r = 128 ∧ s.Matches addr r

theorem longest_perm {other : List Route} (h : other.Perm routes) :
    s.Longest addr other r ↔ s.Longest addr routes r := by
  rw [State.Longest, State.Longest, h.mem_iff]
  simp only [h.mem_iff]

section Later

variable (hLengths : ∀ r, s.length r ≤ 128)
include hLengths

theorem head?_longestMatches (hLongest : s.Longest addr routes r) (hWhole : s.length r = 128) :
    (s.longestMatches addr routes).head? = routes.find? (s.wholeMatch addr) := by
  rw [State.longestMatches, ← List.head?_filter]
  congr 1
  refine List.filter_congr fun q hq => decide_eq_decide.mpr ?_
  constructor
  · intro hOther
    exact ⟨(longest_length_eq hOther hLongest).trans hWhole, hOther.2.1⟩
  · rintro ⟨hLength, hMatch⟩
    refine ⟨hq, hMatch, fun other _ _ => ?_⟩
    rw [hLength]
    exact hLengths other

/-- A search keeps the order of the routes to a whole address, of which it uses the first. -/
theorem find?_wholeMatch_of_finds (other : Ipaddr) (hFinds : s.Finds addr routes r) :
    (moveToFront routes r).find? (s.wholeMatch other) = routes.find? (s.wholeMatch other) := by
  refine find?_moveToFront fun hHas => ?_
  obtain ⟨hWhole, hOther⟩ := of_decide_eq_true hHas
  have hMatch := hFinds.longest.2.1
  unfold State.Matches at hOther hMatch
  rw [hWhole, prefixcmp_whole] at hOther hMatch
  rw [hOther, ← hMatch, ← head?_longestMatches hLengths hFinds.longest hWhole]
  rwa [State.Finds, if_pos hWhole] at hFinds

/-- Later searches change the order only. -/
theorem lookups_keep (hNodup : s.routelist.Nodup) (addrs : List Ipaddr) :
    ∃ later, s.lookups addrs = s.reorder later ∧ later.Perm s.routelist ∧
      ∀ addr, later.find? (s.wholeMatch addr) = s.routelist.find? (s.wholeMatch addr) := by
  induction addrs generalizing s with
  | nil => exact ⟨s.routelist, rfl, List.Perm.refl _, fun _ => rfl⟩
  | cons addr addrs ih =>
      have hNext : s.lookups (addr :: addrs) = (s.uipDs6RouteLookup addr).1.lookups addrs := rfl
      by_cases hMatch : ∃ r ∈ s.routelist, s.Matches addr r
      · obtain ⟨r, hFinds⟩ := exists_finds hLengths hMatch
        have hPerm := moveToFront_perm hFinds.longest.1
        rw [hNext, uipDs6RouteLookup_of_finds hLengths hNodup hFinds]
        obtain ⟨later, hLater, hOrder, hWhole⟩ := ih (s := s.reorder (moveToFront s.routelist r))
          hLengths (hPerm.nodup_iff.mpr hNodup)
        refine ⟨later, hLater, hOrder.trans hPerm, fun other => ?_⟩
        exact (hWhole other).trans (find?_wholeMatch_of_finds hLengths other hFinds)
      · have hNone : ∀ r ∈ s.routelist, ¬ s.Matches addr r := fun r hIn hIs => hMatch ⟨r, hIn, hIs⟩
        rw [hNext, uipDs6RouteLookup_of_none hLengths hNone]
        exact ih hLengths hNodup

theorem answers_perm {other : List Route} (hPerm : other.Perm routes)
    (hWhole : other.find? (s.wholeMatch addr) = routes.find? (s.wholeMatch addr))
    (h : s.Answers addr other r) : s.Answers addr routes r := by
  have hLongest := (longest_perm hPerm).mp h.1
  refine ⟨hLongest, fun hLength => ?_⟩
  rw [head?_longestMatches hLengths hLongest hLength, ← hWhole,
    ← head?_longestMatches hLengths h.1 hLength]
  exact h.2 hLength

/-- Searches for one address use its longest matches in turn. -/
theorem lookups_replicate {later : List Route} (hNodup : later.Nodup)
    (hPerm : later.Perm s.routelist) (hLongest : s.Longest addr s.routelist r)
    (hPart : s.length r ≠ 128) (n : Nat) :
    (s.reorder later).lookups (List.replicate n addr) =
      s.reorder ((useLast fun q => s.Longest addr s.routelist q)^[n] later) := by
  induction n generalizing later with
  | zero => rfl
  | succ n ih =>
      have hNext : (s.reorder later).lookups (List.replicate (n + 1) addr) =
          ((s.reorder later).uipDs6RouteLookup addr).1.lookups (List.replicate n addr) := rfl
      have hMatch : ∃ r ∈ later, s.Matches addr r :=
        ⟨r, hPerm.mem_iff.mpr hLongest.1, hLongest.2.1⟩
      obtain ⟨q, hFinds⟩ := exists_finds hLengths hMatch
      have hLookup : (s.reorder later).uipDs6RouteLookup addr =
          (s.reorder (moveToFront later q), some q) :=
        uipDs6RouteLookup_of_finds (s := s.reorder later) hLengths hNodup hFinds
      have hLast : (later.filter fun q => s.Longest addr s.routelist q).getLast? = some q := by
        have hLength := longest_length_eq ((longest_perm hPerm).mp hFinds.longest) hLongest
        rw [State.Finds, hLength, if_neg hPart, State.longestMatches] at hFinds
        simpa only [longest_perm hPerm] using hFinds
      have hUse : useLast (fun q => decide (s.Longest addr s.routelist q)) later =
          moveToFront later q := by
        rw [useLast, hLast]
      rw [hNext, hLookup, Function.iterate_succ_apply, hUse]
      have hMoved := moveToFront_perm hFinds.longest.1
      exact ih (hMoved.nodup_iff.mpr hNodup) (hMoved.trans hPerm)

/-- What later searches for an address may find. -/
theorem answers_iff (hNodup : s.routelist.Nodup) :
    s.Answers addr s.routelist r ↔
      ∃ addrs, ((s.lookups addrs).uipDs6RouteLookup addr).2 = some r := by
  constructor
  · rintro ⟨hLongest, hWhole⟩
    by_cases hLength : s.length r = 128
    · have hFinds : s.Finds addr s.routelist r := by
        rw [State.Finds, if_pos hLength]
        exact hWhole hLength
      exact ⟨[], congrArg Prod.snd (uipDs6RouteLookup_of_finds hLengths hNodup hFinds)⟩
    · obtain ⟨n, hn⟩ := exists_iterate_useLast (p := fun q => s.Longest addr s.routelist q) hNodup
        hLongest.1 (decide_eq_true hLongest)
      have hRun : s.lookups (List.replicate n addr) = _ :=
        lookups_replicate hLengths hNodup (List.Perm.refl _) hLongest hLength n
      obtain ⟨later, hLater, hPerm, -⟩ := lookups_keep hLengths hNodup (List.replicate n addr)
      have hOrder : later = (useLast fun q => s.Longest addr s.routelist q)^[n] s.routelist :=
        congrArg State.routelist (hLater.symm.trans hRun)
      rw [← hOrder] at hn
      have hFinds : s.Finds addr later r := by
        rw [State.Finds, if_neg hLength, State.longestMatches]
        simpa only [longest_perm hPerm] using hn
      refine ⟨List.replicate n addr, ?_⟩
      rw [hLater, uipDs6RouteLookup_of_finds (s := s.reorder later) hLengths
        (hPerm.nodup_iff.mpr hNodup) hFinds]
  · rintro ⟨addrs, hFound⟩
    obtain ⟨later, hLater, hPerm, hWhole⟩ := lookups_keep hLengths hNodup addrs
    rw [hLater] at hFound
    by_cases hMatch : ∃ r ∈ later, s.Matches addr r
    · obtain ⟨q, hFinds⟩ := exists_finds hLengths hMatch
      rw [uipDs6RouteLookup_of_finds (s := s.reorder later) hLengths
        (hPerm.nodup_iff.mpr hNodup) hFinds] at hFound
      obtain rfl := Option.some.inj hFound
      exact answers_perm hLengths hPerm (hWhole addr) hFinds.answers
    · have hNone : ∀ r ∈ later, ¬ s.Matches addr r := fun r hIn hIs => hMatch ⟨r, hIn, hIs⟩
      rw [uipDs6RouteLookup_of_none (s := s.reorder later) hLengths hNone] at hFound
      exact absurd hFound.symm (Option.some_ne_none r)

/-- A property of what every later search finds. -/
theorem later_lookups_iff (hNodup : s.routelist.Nodup) (Good : Route → Prop) :
    (∀ addrs, ∃ r, ((s.lookups addrs).uipDs6RouteLookup addr).2 = some r ∧ Good r) ↔
      (∃ r ∈ s.routelist, s.Matches addr r) ∧ ∀ r, s.Answers addr s.routelist r → Good r := by
  constructor
  · intro hAll
    constructor
    · obtain ⟨r, hFound, -⟩ := hAll []
      obtain ⟨hLongest, -⟩ := (answers_iff hLengths hNodup).mpr ⟨[], hFound⟩
      exact ⟨r, hLongest.1, hLongest.2.1⟩
    · intro r hAnswers
      obtain ⟨addrs, hFound⟩ := (answers_iff hLengths hNodup).mp hAnswers
      obtain ⟨q, hSame, hGood⟩ := hAll addrs
      rwa [Option.some.inj (hFound.symm.trans hSame)]
  · rintro ⟨⟨q, hIn, hMatch⟩, hGood⟩ addrs
    obtain ⟨later, hLater, hPerm, -⟩ := lookups_keep hLengths hNodup addrs
    obtain ⟨r, hFinds⟩ := exists_finds hLengths ⟨q, hPerm.mem_iff.mpr hIn, hMatch⟩
    have hFound : ((s.lookups addrs).uipDs6RouteLookup addr).2 = some r := by
      rw [hLater, uipDs6RouteLookup_of_finds (s := s.reorder later) hLengths
        (hPerm.nodup_iff.mpr hNodup) hFinds]
    exact ⟨r, hFound, hGood r ((answers_iff hLengths hNodup).mpr ⟨addrs, hFound⟩)⟩

end Later

end Search

end Smarthome.Routes
