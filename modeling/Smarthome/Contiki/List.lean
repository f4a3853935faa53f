import Smarthome.Semantics.LinkedList

/-! `list.c`: lists of items that are linked through their first field. A function gives the
list and the links after it; there is no result if its loop does not end. -/
namespace Smarthome.Contiki

open Semantics

variable {Item : Type} [Fintype Item] (next : Item → Option Item) (list : Option Item)

/-- `list_tail`. -/
def listTail : Option (Option Item) :=
  findLinks next (fun l => next l = none) (Fintype.card Item) list

/-- `list_length`. -/
def listLength : Option Nat := foldLinks next (fun n _ => n + 1) (Fintype.card Item) list 0

variable [DecidableEq Item] (item : Item)

/-- `list_remove`. The `r` of the loop is the item that the found one comes after. -/
def listRemove : Option (Option Item × (Item → Option Item)) :=
  if list = some item then some (next item, Function.update next item none)
  else do
    match ← findLinks next (fun r => next r = some item) (Fintype.card Item) list with
    | some r => some (list, Function.update (Function.update next r (next item)) item none)
    | none => some (list, next)

/-- `list_add`. -/
def listAdd : Option (Option Item × (Item → Option Item)) := do
  let (list, next) ← listRemove next list item
  let next := Function.update next item none
  match ← listTail next list with
  | none => some (some item, next)
  | some l => some (list, Function.update next l (some item))

section

variable {next : Item → Option Item} {list : Option Item} {item : Item} {xs : List Item}

theorem listRemove_first :
    listRemove next (some item) item = some (next item, Function.update next item none) :=
  if_pos rfl

/-- An item that is not on the list stays off it. -/
theorem listRemove_of_notMem (h : IsList next list xs) (hNew : item ∉ xs) :
    listRemove next list item = some (list, next) := by
  have hFirst : list ≠ some item := by
    rintro rfl
    obtain ⟨rest, rfl, -⟩ := IsList.some_iff.mp h
    exact hNew (List.mem_cons_self ..)
  have hNone : xs.find? (fun r => next r = some item) = none := by
    rcases h.find?_before hFirst with ⟨hNone, -⟩ | ⟨front, r, after, rfl, -⟩
    · exact hNone
    · exact absurd (by simp) hNew
  rw [listRemove, if_neg hFirst, findLinks_eq h h.length_le, hNone]
  rfl

omit [DecidableEq Item] in
theorem listLength_eq (h : IsList next list xs) : listLength next list = some xs.length := by
  rw [listLength, foldLinks_eq h h.length_le, List.foldl_add_const]
  simp

omit [DecidableEq Item] in
/-- The last item is the one that is linked to none. -/
theorem listTail_eq (h : IsList next list xs) : listTail next list = some xs.getLast? := by
  rw [listTail, findLinks_eq h h.length_le]
  congr 1
  induction xs generalizing list with
  | nil => rfl
  | cons x xs ih =>
      cases xs with
      | nil =>
          have hLast : next x = none := h.2
          simp [hLast]
      | cons y ys =>
          have hNext : next x = some y := h.2.1
          rw [List.find?_cons_of_neg (by simp [hNext]), ih h.2, List.getLast?_cons_cons]

/-- A new item becomes the last, and only the links of the list and its own change. -/
theorem listAdd_eq (h : IsList next list xs) (hNew : item ∉ xs) :
    ∃ list' next', listAdd next list item = some (list', next') ∧
      IsList next' list' (xs ++ [item]) ∧ ∀ other ∉ item :: xs, next' other = next other := by
  have hList : IsList (Function.update next item none) list xs := h.update_of_notMem hNew
  have hOther : ∀ other ∉ item :: xs, Function.update next item none other = next other :=
    fun other hOther => Function.update_of_ne (List.ne_of_not_mem_cons hOther) _ _
  simp only [listAdd, listRemove_of_notMem h hNew, Option.bind_eq_bind, Option.bind_some,
    listTail_eq hList]
  rcases List.eq_nil_or_concat' xs with rfl | ⟨front, l, rfl⟩
  · refine ⟨some item, _, rfl, ⟨rfl, ?_⟩, hOther⟩
    simp
  · rw [List.getLast?_concat]
    refine ⟨list, _, rfl, ?_, ?_⟩
    · have hApart : item ∉ front ∧ item ≠ l := by simpa using hNew
      have hFront : l ∉ front := by
        have hNodup := h.nodup
        rw [List.nodup_append] at hNodup
        exact fun hMem => hNodup.2.2 l hMem l (List.mem_singleton_self l) rfl
      have hItem : IsList (Function.update next item none) (some item) [item] := by simp
      rw [List.append_assoc]
      exact hList.redirect hFront hItem (by simpa using hApart.2.symm)
    · intro other hMem
      have hNe : other ≠ l := by
        rintro rfl
        exact hMem (by simp)
      rw [Function.update_of_ne hNe]
      exact hOther other hMem

end

end Smarthome.Contiki
