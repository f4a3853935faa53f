import Mathlib.Data.List.DropRight
import Mathlib.Data.List.Infix

/-! The last symbols of a word, as a reader sees it that keeps no more than a window
of them. -/
namespace Semantics.Window

universe u

variable {α : Type u} {word before after : List α} {n m : Nat}

theorem rtake_of_length_le (h : word.length ≤ n) : word.rtake n = word := by
  rw [List.rtake, Nat.sub_eq_zero_of_le h, List.drop_zero]

theorem length_rtake (word : List α) (n : Nat) : (word.rtake n).length = min n word.length := by
  rw [List.rtake, List.length_drop]
  omega

theorem rtake_suffix (word : List α) (n : Nat) : word.rtake n <:+ word := List.drop_suffix _ _

/-- The window over two words holds the end of the first one only as far as the second
leaves room. -/
theorem rtake_append (before after : List α) (n : Nat) :
    (before ++ after).rtake n = before.rtake (n - after.length) ++ after.rtake n := by
  have hAfter : before.length + after.length - n - before.length = after.length - n := by omega
  rw [List.rtake, List.rtake, List.rtake, List.length_append, List.drop_append, hAfter]
  apply congrArg (· ++ after.drop (after.length - n))
  rcases Nat.le_total after.length n with h | h
  · have hBefore : before.length + after.length - n = before.length - (n - after.length) := by
      omega
    rw [hBefore]
  · rw [Nat.sub_eq_zero_of_le h, Nat.sub_zero, List.drop_length]
    apply List.drop_eq_nil_of_le
    omega

theorem rtake_append_of_length_le (h : after.length ≤ n) :
    (before ++ after).rtake n = before.rtake (n - after.length) ++ after := by
  rw [rtake_append, rtake_of_length_le h]

theorem rtake_rtake (word : List α) (h : n ≤ m) : (word.rtake m).rtake n = word.rtake n := by
  rw [List.rtake, List.rtake, List.rtake, List.length_drop, List.drop_drop]
  congr 1
  omega

/-- What has left the window does not come back. -/
theorem rtake_rtake_append (before after : List α) (h : n ≤ m + after.length) :
    (before.rtake m ++ after).rtake n = (before ++ after).rtake n := by
  rw [rtake_append, rtake_append, rtake_rtake before (by omega)]

theorem rtake_replicate (a : α) (k n : Nat) :
    (List.replicate k a).rtake n = List.replicate (min n k) a := by
  rw [List.rtake, List.drop_replicate, List.length_replicate]
  congr 1
  omega

/-- A word without `a` that begins a longer one ends before the first `a` of it. -/
theorem prefix_of_prefix_append {a : α} (h : word <+: before ++ a :: after) (ha : a ∉ word) :
    word <+: before := by
  rcases List.prefix_or_prefix_of_prefix h (List.prefix_append _ _) with hIn | hOut
  · exact hIn
  · obtain ⟨rest, rfl⟩ := hOut
    rw [List.prefix_append_right_inj] at h
    cases rest with
    | nil => rw [List.append_nil]
    | cons b rest =>
        rw [List.cons_prefix_cons] at h
        exact absurd (List.mem_append_right _ (h.1 ▸ List.mem_cons_self ..)) ha

/-- A word without `a` that ends a longer one begins behind the last `a` of it. -/
theorem suffix_of_suffix_append {a : α} (h : word <:+ before ++ a :: after) (ha : a ∉ word) :
    word <:+ after := by
  rw [← List.reverse_prefix] at h ⊢
  rw [List.reverse_append, List.reverse_cons, List.append_assoc] at h
  exact prefix_of_prefix_append h (by rwa [List.mem_reverse])

end Semantics.Window
