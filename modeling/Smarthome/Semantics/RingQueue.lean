import Mathlib.Data.List.Basic
import Mathlib.Logic.Function.Basic

/-! A bounded queue in a ring of slots, with the index of the oldest element and
the number of elements. It behaves as a list to which elements are appended. -/
namespace Semantics

structure RingQueue (Element : Type*) (capacity : Nat) where
  slots : Nat → Element
  first : Nat
  count : Nat
  first_lt : first < capacity
  count_le : count ≤ capacity

namespace RingQueue

variable {Element : Type*} {capacity : Nat}

/-- The elements, oldest first. -/
def contents (queue : RingQueue Element capacity) : List Element :=
  (List.range queue.count).map fun i => queue.slots ((queue.first + i) % capacity)

def empty (slots : Nat → Element) (h : 0 < capacity) : RingQueue Element capacity where
  slots := slots
  first := 0
  count := 0
  first_lt := h
  count_le := Nat.zero_le capacity

/-- A full queue takes no element. -/
def post (queue : RingQueue Element capacity) (x : Element) :
    Option (RingQueue Element capacity) :=
  if h : queue.count = capacity then none
  else
    some
      { queue with
        slots := Function.update queue.slots ((queue.first + queue.count) % capacity) x
        count := queue.count + 1
        count_le := Nat.lt_of_le_of_ne queue.count_le h }

/-- The oldest element, with the queue without it. -/
def take (queue : RingQueue Element capacity) : Option (Element × RingQueue Element capacity) :=
  if queue.count = 0 then none
  else
    some (queue.slots queue.first,
      { queue with
        first := (queue.first + 1) % capacity
        count := queue.count - 1
        first_lt := Nat.mod_lt _ (Nat.zero_lt_of_lt queue.first_lt)
        count_le := Nat.le_trans (Nat.sub_le _ _) queue.count_le })

variable {queue next : RingQueue Element capacity} {x : Element}

@[simp] theorem contents_empty (slots : Nat → Element) (h : 0 < capacity) :
    (empty slots h).contents = [] := rfl

@[simp] theorem contents_length (queue : RingQueue Element capacity) :
    queue.contents.length = queue.count := by simp [contents]

/-- Live slots are different from the one that is filled next. -/
theorem live_ne {first i count : Nat} (hi : i < count) (hCount : count < capacity) :
    (first + i) % capacity ≠ (first + count) % capacity := by
  intro h
  have hDvd : capacity ∣ (first + count) - (first + i) :=
    Nat.dvd_of_mod_eq_zero (Nat.sub_mod_eq_zero_of_mod_eq h.symm)
  have hLe := Nat.le_of_dvd (by omega) hDvd
  omega

theorem contents_post (h : queue.post x = some next) :
    next.contents = queue.contents ++ [x] := by
  unfold post at h
  split_ifs at h with hFull
  obtain rfl := Option.some.inj h
  have hRoom := Nat.lt_of_le_of_ne queue.count_le hFull
  simp only [contents, List.range_succ, List.map_append, List.map_cons, List.map_nil,
    Function.update_self]
  congr 1
  apply List.map_congr_left
  intro i hi
  exact Function.update_of_ne (live_ne (List.mem_range.mp hi) hRoom) _ _

theorem post_eq_none_iff : queue.post x = none ↔ queue.contents.length = capacity := by
  simp [post]

theorem contents_take (h : queue.take = some (x, next)) :
    queue.contents = x :: next.contents := by
  unfold take at h
  split_ifs at h with hEmpty
  obtain ⟨rfl, rfl⟩ := Prod.mk.inj (Option.some.inj h)
  obtain ⟨count, hCount⟩ := Nat.exists_eq_succ_of_ne_zero hEmpty
  simp only [contents, hCount, Nat.succ_eq_add_one, Nat.add_sub_cancel, List.range_succ_eq_map,
    List.map_cons, List.map_map, Nat.add_zero, Nat.mod_eq_of_lt queue.first_lt]
  congr 1
  apply List.map_congr_left
  intro i _
  simp only [Function.comp_apply, Nat.mod_add_mod, Nat.succ_eq_add_one]
  congr 2
  omega

end RingQueue
end Semantics
