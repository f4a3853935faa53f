import Mathlib.Data.List.Induction
import Mathlib.Data.List.Nodup
import Mathlib.Logic.Function.Iterate
import Mathlib.Tactic.Common

/-! Lists in the order of the last use of their items. An item that is used goes to the
start, so the end of the list has not been used for the longest time. -/
namespace Semantics

variable {α : Type*} [DecidableEq α] {p : α → Bool} {l rest : List α} {a : α}

/-- The list after the item is used. -/
def moveToFront (l : List α) (a : α) : List α := a :: l.erase a

theorem moveToFront_perm (h : a ∈ l) : (moveToFront l a).Perm l := (List.perm_cons_erase h).symm

theorem moveToFront_of_head? (h : l.head? = some a) : moveToFront l a = l := by
  obtain ⟨rest, rfl⟩ := List.head?_eq_some_iff.mp h
  rw [moveToFront, List.erase_cons_head]

theorem filter_erase_of_not (hNot : p a = false) : (l.erase a).filter p = l.filter p := by
  rw [← List.erase_filter, List.erase_of_not_mem]
  simp [hNot]

/-- The first item with a property stays the first one as long as none of the others that
have it is used. -/
theorem find?_moveToFront (h : p a = true → l.find? p = some a) :
    (moveToFront l a).find? p = l.find? p := by
  cases hHas : p a with
  | true => rw [moveToFront, List.find?_cons_of_pos hHas, h hHas]
  | false =>
      rw [moveToFront, List.find?_cons_of_neg (by simp [hHas]), ← List.head?_filter,
        filter_erase_of_not hHas, List.head?_filter]

/-- The list after the last item with a property is used. -/
def useLast (p : α → Bool) (l : List α) : List α :=
  match (l.filter p).getLast? with
  | none => l
  | some a => moveToFront l a

theorem useLast_perm (p : α → Bool) (l : List α) : (useLast p l).Perm l := by
  unfold useLast
  cases hLast : (l.filter p).getLast? with
  | none => exact List.Perm.refl l
  | some a => exact moveToFront_perm (List.mem_of_mem_filter (List.mem_of_getLast? hLast))

/-- The items with the property go round. -/
theorem filter_useLast (hNodup : l.Nodup) (hFilter : l.filter p = rest ++ [a]) :
    (useLast p l).filter p = a :: rest := by
  have hHas : p a = true := List.of_mem_filter (hFilter ▸ List.mem_append_right rest (by simp))
  have hNot : a ∉ rest := by
    have hBoth := hNodup.filter p
    rw [hFilter] at hBoth
    exact fun hIn => (List.nodup_append.mp hBoth).2.2 a hIn a (by simp) rfl
  have hUse : useLast p l = moveToFront l a := by
    rw [useLast, hFilter, List.getLast?_concat]
  rw [hUse, moveToFront, List.filter_cons_of_pos hHas, ← List.erase_filter, hFilter,
    List.erase_append_right _ hNot]
  simp

/-- Each item with the property is the last one at some time. -/
theorem exists_iterate_useLast (hNodup : l.Nodup) (hMem : a ∈ l) (hHas : p a = true) :
    ∃ n, (((useLast p)^[n] l).filter p).getLast? = some a := by
  obtain ⟨before, after, hFilter⟩ := List.append_of_mem (List.mem_filter.mpr ⟨hMem, hHas⟩)
  clear hMem
  induction after using List.reverseRecOn generalizing l before with
  | nil =>
      refine ⟨0, ?_⟩
      rw [Function.iterate_zero, id, hFilter, List.getLast?_concat]
  | append_singleton after last ih =>
      rw [← List.cons_append, ← List.append_assoc] at hFilter
      obtain ⟨n, hn⟩ := ih ((useLast_perm p l).nodup_iff.mpr hNodup) (last :: before)
        (filter_useLast hNodup hFilter)
      exact ⟨n + 1, hn⟩

end Semantics
