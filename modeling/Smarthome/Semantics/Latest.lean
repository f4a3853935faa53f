import Mathlib.Data.Finset.Card
import Mathlib.Data.List.Dedup
import Mathlib.Tactic.Common

/-! A memory of bounded size for the newest entry of each key. What it holds is a function of
the history of the entries: the keys that came last, with the newest entry of each. -/
namespace Semantics

variable {Entry Key : Type*} [DecidableEq Key] (key : Entry → Key)

/-- The newest entry of each key, in a history that has its newest entry first. -/
def latest : List Entry → List Entry
  | [] => []
  | e :: history => e :: (latest history).filter fun x => key x ≠ key e

variable {key} {history newer older : List Entry} {e : Entry} {k : Key} {n : Nat}

theorem latest_append (newer older : List Entry) : latest key (newer ++ older) =
    latest key newer ++ (latest key older).filter fun x => key x ∉ newer.map key := by
  induction newer with
  | nil => simp [latest]
  | cons e newer ih =>
      rw [List.cons_append, latest, ih, latest, List.filter_append, List.filter_filter,
        List.cons_append]
      congr 2
      apply List.filter_congr
      intro x _
      simp only [List.map_cons, List.mem_cons, not_or, Bool.decide_and]

theorem mem_keys_latest : k ∈ (latest key history).map key ↔ k ∈ history.map key := by
  induction history with
  | nil => rfl
  | cons e history ih =>
      simp only [latest, List.map_cons, List.mem_cons, List.mem_map, List.mem_filter] at ih ⊢
      by_cases hKey : k = key e
      · simp [hKey]
      · rw [← ih]
        simp only [hKey, false_or, decide_eq_true_eq]
        constructor
        · rintro ⟨x, ⟨hMem, -⟩, rfl⟩
          exact ⟨x, hMem, rfl⟩
        · rintro ⟨x, hMem, rfl⟩
          exact ⟨x, ⟨hMem, hKey⟩, rfl⟩

theorem nodup_keys_latest (history : List Entry) : ((latest key history).map key).Nodup := by
  induction history with
  | nil => exact List.nodup_nil
  | cons e history ih =>
      rw [latest, List.map_cons, List.nodup_cons]
      refine ⟨?_, ih.sublist ((List.filter_sublist).map key)⟩
      intro hMem
      obtain ⟨x, hx, hKey⟩ := List.mem_map.mp hMem
      exact of_decide_eq_true (List.mem_filter.mp hx).2 hKey

/-- As many entries as there are keys. -/
theorem length_latest (history : List Entry) :
    (latest key history).length = (history.map key).toFinset.card := by
  rw [← List.length_map key, ← List.toFinset_card_of_nodup (nodup_keys_latest history)]
  congr 1
  ext k
  rw [List.mem_toFinset, List.mem_toFinset, mem_keys_latest]

/-- The newest entry of a key stands after those of the keys that came later. -/
theorem latest_split (hKey : key e ∉ newer.map key) : ∃ rest,
    latest key (newer ++ e :: older) = latest key newer ++ e :: rest := by
  rw [latest_append, latest, List.filter_cons, if_pos (by simpa using hKey)]
  exact ⟨_, rfl⟩

/-- A memory of `n` entries still has the newest entry of a key if fewer than `n` other keys
have come since. -/
theorem find?_latest_split (hKey : key e ∉ newer.map key) :
    ((latest key (newer ++ e :: older)).take n).find? (fun x => key x = key e) =
      if (newer.map key).toFinset.card < n then some e else none := by
  obtain ⟨rest, hRest⟩ : ∃ rest, latest key (newer ++ e :: older) = latest key newer ++ e :: rest :=
    latest_split hKey
  have hNone : ∀ x ∈ latest key newer, ¬ (decide (key x = key e) = true) := by
    intro x hx hSame
    rw [decide_eq_true_iff] at hSame
    exact hKey (hSame ▸ mem_keys_latest.mp (List.mem_map_of_mem hx))
  rw [hRest, List.take_append, ← length_latest, List.find?_append]
  have hBefore : ((latest key newer).take n).find? (fun x => key x = key e) = none :=
    List.find?_eq_none.mpr fun x hx => hNone x (List.mem_of_mem_take hx)
  rw [hBefore, Option.none_or]
  split_ifs with hRoom
  · obtain ⟨left, hLeft⟩ := Nat.exists_eq_succ_of_ne_zero (Nat.sub_ne_zero_of_lt hRoom)
    rw [hLeft, List.take_succ_cons, List.find?_cons_of_pos (by simp)]
  · rw [Nat.sub_eq_zero_of_le (Nat.le_of_not_lt hRoom), List.take_zero, List.find?_nil]

/-- What a memory of `n` entries has for a key. -/
theorem find?_latest_iff : ((latest key history).take n).find? (fun x => key x = k) = some e ↔
    ∃ newer older, history = newer ++ e :: older ∧ key e = k ∧ k ∉ newer.map key ∧
      (newer.map key).toFinset.card < n := by
  constructor
  · intro hFind
    have hMem := List.mem_of_mem_take (List.mem_of_find?_eq_some hFind)
    have hSame : key e = k := by simpa using List.find?_some hFind
    have hIn : k ∈ history.map key :=
      mem_keys_latest.mp (hSame ▸ List.mem_map_of_mem hMem)
    obtain ⟨first, hFirst⟩ : ∃ first, history.find? (fun x => key x = k) = some first := by
      obtain ⟨x, hx, hKey⟩ := List.mem_map.mp hIn
      rw [← Option.isSome_iff_exists, List.find?_isSome]
      exact ⟨x, hx, decide_eq_true hKey⟩
    obtain ⟨hFirstKey, newer, older, rfl, hNot⟩ := List.find?_eq_some_iff_append.mp hFirst
    obtain rfl := of_decide_eq_true hFirstKey
    have hNewer : key first ∉ newer.map key := by
      intro hMem
      obtain ⟨x, hx, hKey⟩ := List.mem_map.mp hMem
      exact absurd (hNot x hx) (by simp [hKey])
    rw [find?_latest_split hNewer] at hFind
    split_ifs at hFind with hRoom
    obtain rfl := Option.some.inj hFind
    exact ⟨newer, older, rfl, rfl, hNewer, hRoom⟩
  · rintro ⟨newer, older, rfl, rfl, hNewer, hRoom⟩
    rw [find?_latest_split hNewer, if_pos hRoom]

section Memory

variable {pad l : List Entry}

/-- Whether an entry beyond the end is taken out or not. -/
theorem take_eraseP_take (p : Entry → Bool) (l : List Entry) (n : Nat) :
    ((l.take (n + 1)).eraseP p).take n = (l.eraseP p).take n := by
  induction l generalizing n with
  | nil => rfl
  | cons x l ih =>
      rw [List.take_succ_cons, List.eraseP_cons, List.eraseP_cons]
      cases p x with
      | true => simp [List.take_take]
      | false =>
          cases n with
          | zero => rfl
          | succ n =>
              simp only [cond_false, List.take_succ_cons]
              rw [ih]

/-- No two entries have the same key, so one is taken out. -/
theorem eraseP_eq_filter (hNodup : (l.map key).Nodup) :
    l.eraseP (fun x => key x = k) = l.filter fun x => key x ≠ k := by
  induction l with
  | nil => rfl
  | cons x l ih =>
      obtain ⟨hNot, hRest⟩ := List.nodup_cons.mp hNodup
      rw [List.eraseP_cons, List.filter_cons]
      by_cases hKey : key x = k
      · subst hKey
        simp only [decide_true, cond_true, ne_eq, not_true_eq_false, decide_false,
          Bool.false_eq_true, if_false]
        symm
        apply List.filter_eq_self.mpr
        intro y hy
        exact decide_eq_true fun hSame => hNot (hSame ▸ List.mem_map_of_mem hy)
      · simp [hKey, ih hRest]

/-- An entry comes in, at the front: the older one of its key goes out, or else the last. -/
theorem take_latest_cons (hPad : ∀ x ∈ pad, key x ∈ history.map key) (e : Entry) (n : Nat) :
    e :: (((latest key history ++ pad).take (n + 1)).eraseP (fun x => key x = key e)).take n =
      (latest key (e :: history) ++ pad).take (n + 1) := by
  rw [take_eraseP_take, latest, List.cons_append, List.take_succ_cons, List.eraseP_append,
    eraseP_eq_filter (nodup_keys_latest history)]
  split_ifs with hAny
  · rfl
  · have hNot : key e ∉ (latest key history).map key := by
      intro hMem
      obtain ⟨x, hx, hKey⟩ := List.mem_map.mp hMem
      exact hAny (List.any_eq_true.mpr ⟨x, hx, decide_eq_true hKey⟩)
    have hFilter : (latest key history).filter (fun x => key x ≠ key e) = latest key history := by
      apply List.filter_eq_self.mpr
      intro x hx
      exact decide_eq_true fun hSame => hNot (hSame ▸ List.mem_map_of_mem hx)
    have hSame : pad.eraseP (fun x => key x = key e) = pad := by
      apply List.eraseP_of_forall_not
      intro x hx hKey
      rw [decide_eq_true_iff] at hKey
      exact hNot (mem_keys_latest.mpr (hKey ▸ hPad x hx))
    rw [hSame, hFilter]

/-- Entries that fill up the memory are not found before those that came. -/
theorem find?_take_append_pad (hPad : ∀ x ∈ pad, key x ∈ history.map key) (k : Key) (n : Nat) :
    ((latest key history ++ pad).take n).find? (fun x => key x = k) =
      ((latest key history).take n).find? fun x => key x = k := by
  rw [List.take_append, List.find?_append]
  cases hFind : ((latest key history).take n).find? fun x => key x = k with
  | some x => rfl
  | none =>
      rw [Option.none_or, List.find?_eq_none]
      intro x hx
      have hRoom : n - (latest key history).length ≠ 0 := by
        intro hZero
        rw [hZero, List.take_zero] at hx
        cases hx
      have hAll : (latest key history).take n = latest key history :=
        List.take_of_length_le (by omega)
      have hIn := mem_keys_latest.mpr (hPad x (List.mem_of_mem_take hx))
      obtain ⟨y, hy, hKey⟩ := List.mem_map.mp hIn
      rw [hAll, List.find?_eq_none] at hFind
      rw [← hKey]
      exact hFind y hy

end Memory

end Semantics
