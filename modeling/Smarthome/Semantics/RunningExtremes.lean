import Mathlib.Data.List.Induction
import Mathlib.Order.BoundedOrder.Basic
import Mathlib.Order.Lattice
import Mathlib.Tactic.Common

/-! Loops that keep the best item found so far and its key, and take the least key of all
for "nothing found yet". A running maximum only loses items with that key; a running minimum
starts over after each of them. -/
namespace Semantics

variable {α K : Type*} [LinearOrder K] [OrderBot K]

/-- One pass of a search for the lowest key. -/
def lowest (key : α → K) (best : α × K) (a : α) : α × K :=
  if best.2 = ⊥ then (a, key a) else if key a < best.2 then (a, key a) else best

/-- One pass of a search for the highest key. -/
def highest (key : α → K) (best : α × K) (a : α) : α × K :=
  if best.2 < key a then (a, key a) else best

variable {key : α → K} {best : α × K} {a d : α}

theorem lowest_bot_iff : (lowest key best a).2 = ⊥ ↔ key a = ⊥ := by
  rw [lowest]
  split_ifs with hStart hLess
  · rfl
  · rfl
  · exact ⟨fun h => absurd h hStart, fun h => absurd (le_bot_iff.mp (h ▸ not_lt.mp hLess)) hStart⟩

/-- The pass takes the new item or keeps the old one. -/
theorem lowest_cases (key : α → K) (best : α × K) (a : α) : lowest key best a = (a, key a) ∨
    best.2 ≠ ⊥ ∧ best.2 ≤ key a ∧ lowest key best a = best := by
  rw [lowest]
  split_ifs with hStart hLess
  · exact Or.inl rfl
  · exact Or.inl rfl
  · exact Or.inr ⟨hStart, not_lt.mp hLess, rfl⟩

section Lists

variable (key d) (l : List α)

/-- What has been found is an item of the list, with its key. -/
theorem foldl_lowest_mem (h : l ≠ []) :
    (l.foldl (lowest key) (d, ⊥)).1 ∈ l ∧
      (l.foldl (lowest key) (d, ⊥)).2 = key (l.foldl (lowest key) (d, ⊥)).1 := by
  induction l using List.reverseRecOn with
  | nil => exact absurd rfl h
  | append_singleton l a ih =>
      rw [List.foldl_append, List.foldl_cons, List.foldl_nil]
      rcases lowest_cases key (l.foldl (lowest key) (d, ⊥)) a with hNew | ⟨hStart, -, hOld⟩
      · rw [hNew]
        exact ⟨List.mem_append_right l List.mem_cons_self, rfl⟩
      · have hSome : l ≠ [] := by
          rintro rfl
          exact hStart rfl
        rw [hOld]
        exact ⟨List.mem_append_left _ (ih hSome).1, (ih hSome).2⟩

/-- The search knows of no item again exactly when the last item has the least key. -/
theorem foldl_lowest_bot_iff :
    (l.foldl (lowest key) (d, ⊥)).2 = ⊥ ↔ ∀ a ∈ l.getLast?, key a = ⊥ := by
  induction l using List.reverseRecOn with
  | nil => simp
  | append_singleton l a _ => rw [List.foldl_append, List.foldl_cons, List.foldl_nil, lowest_bot_iff]; simp

/-- Without items of the least key the search is right. -/
theorem foldl_lowest_le (hKeys : ∀ a ∈ l, key a ≠ ⊥) :
    ∀ a ∈ l, (l.foldl (lowest key) (d, ⊥)).2 ≤ key a := by
  induction l using List.reverseRecOn with
  | nil => simp
  | append_singleton l b ih =>
      have hBefore := ih fun a ha => hKeys a (List.mem_append_left _ ha)
      intro a ha
      rw [List.foldl_append, List.foldl_cons, List.foldl_nil]
      rw [List.mem_append, List.mem_singleton] at ha
      rw [lowest]
      split_ifs with hStart hLess
      · rcases ha with hOld | rfl
        · have hOnly := foldl_lowest_mem key d l (List.ne_nil_of_mem hOld)
          exact absurd (hOnly.2.symm.trans hStart)
            (hKeys _ (List.mem_append_left _ hOnly.1))
        · exact le_rfl
      · rcases ha with hOld | rfl
        · exact hLess.le.trans (hBefore a hOld)
        · exact le_rfl
      · rcases ha with hOld | rfl
        · exact hBefore a hOld
        · exact not_lt.mp hLess

/-- The search finds a lowest key exactly when no item has the least key of all, or the
last one has it. -/
theorem foldl_lowest_le_iff :
    (∀ a ∈ l, (l.foldl (lowest key) (d, ⊥)).2 ≤ key a) ↔
      (∀ a ∈ l, key a ≠ ⊥) ∨ ∀ a ∈ l.getLast?, key a = ⊥ := by
  constructor
  · intro hLow
    by_cases hKeys : ∀ a ∈ l, key a ≠ ⊥
    · exact Or.inl hKeys
    · push Not at hKeys
      obtain ⟨a, ha, hBot⟩ := hKeys
      exact Or.inr ((foldl_lowest_bot_iff key d l).mp (le_bot_iff.mp (hBot ▸ hLow a ha)))
  · rintro (hKeys | hLast)
    · exact foldl_lowest_le key d l hKeys
    · intro a _
      rw [(foldl_lowest_bot_iff key d l).mpr hLast]
      exact bot_le

omit [OrderBot K] in
/-- The key found is an upper bound of all keys. -/
theorem le_foldl_highest (best : α × K) : ∀ a ∈ l, key a ≤ (l.foldl (highest key) best).2 := by
  induction l using List.reverseRecOn with
  | nil => simp
  | append_singleton l b ih =>
      intro a ha
      rw [List.foldl_append, List.foldl_cons, List.foldl_nil, highest]
      rw [List.mem_append, List.mem_singleton] at ha
      split_ifs with hMore
      · rcases ha with hOld | rfl
        · exact (ih a hOld).trans hMore.le
        · exact le_rfl
      · rcases ha with hOld | rfl
        · exact ih a hOld
        · exact not_lt.mp hMore

/-- Either an item with a key above the least one has been found, or there is none. -/
theorem foldl_highest_cases :
    ((l.foldl (highest key) (d, ⊥)).1 ∈ l ∧ ⊥ < (l.foldl (highest key) (d, ⊥)).2 ∧
        (l.foldl (highest key) (d, ⊥)).2 = key (l.foldl (highest key) (d, ⊥)).1) ∨
      l.foldl (highest key) (d, ⊥) = (d, ⊥) := by
  induction l using List.reverseRecOn with
  | nil => exact Or.inr rfl
  | append_singleton l a ih =>
      rw [List.foldl_append, List.foldl_cons, List.foldl_nil, highest]
      split_ifs with hMore
      · exact Or.inl ⟨List.mem_append_right l List.mem_cons_self, bot_le.trans_lt hMore, rfl⟩
      · rcases ih with hFound | hNone
        · exact Or.inl ⟨List.mem_append_left _ hFound.1, hFound.2⟩
        · exact Or.inr hNone

end Lists

end Semantics
