import Mathlib.Algebra.BigOperators.Group.List.Basic
import Mathlib.Data.Nat.ModEq
import Mathlib.Tactic.Common

/-! Sums in which a carry out of the highest digit is added to the lowest one. They count modulo
one less than the number of values that there are, and both of the values that stand for zero
occur. -/
namespace Semantics.OnesComplement

variable {b : Nat}

/-- The sum of two numbers below `b`, with its carry brought around. -/
def add (b first second : Nat) : Nat :=
  if (first + second) % b < second then ((first + second) % b + 1) % b else (first + second) % b

/-- The terms are added one after the other. -/
def total (b first : Nat) (terms : List Nat) : Nat := terms.foldl (add b) first

/-- What `add` leads to, with and without a carry. -/
theorem add_eq {first second : Nat} (hFirst : first < b) (hSecond : second < b) :
    add b first second =
      if first + second < b then first + second else first + second + 1 - b := by
  unfold add
  by_cases hCarry : first + second < b
  · rw [Nat.mod_eq_of_lt hCarry, if_neg (by omega), if_pos hCarry]
  · have hMod : (first + second) % b = first + second - b := by
      rw [Nat.mod_eq_sub_mod (by omega), Nat.mod_eq_of_lt (by omega)]
    rw [hMod, if_pos (by omega), if_neg hCarry, Nat.mod_eq_of_lt (by omega)]
    omega

theorem add_lt {first second : Nat} (hFirst : first < b) (hSecond : second < b) :
    add b first second < b := by
  rw [add_eq hFirst hSecond]
  split_ifs
  · assumption
  · omega

theorem add_modEq {first second : Nat} (hFirst : first < b) (hSecond : second < b) :
    add b first second ≡ first + second [MOD b - 1] := by
  rw [add_eq hFirst hSecond]
  split_ifs
  · rfl
  · have hCarry : first + second + 1 - b + (b - 1) = first + second := by omega
    exact (Nat.modEq_iff_dvd' (by omega)).mpr ⟨1, by omega⟩

theorem total_lt {first : Nat} {terms : List Nat} (hFirst : first < b)
    (hTerms : ∀ t ∈ terms, t < b) : total b first terms < b := by
  induction terms generalizing first with
  | nil => exact hFirst
  | cons t terms ih =>
      rw [List.forall_mem_cons] at hTerms
      exact ih (add_lt hFirst hTerms.1) hTerms.2

theorem total_modEq {first : Nat} {terms : List Nat} (hFirst : first < b)
    (hTerms : ∀ t ∈ terms, t < b) : total b first terms ≡ first + terms.sum [MOD b - 1] := by
  induction terms generalizing first with
  | nil => rfl
  | cons t terms ih =>
      rw [List.forall_mem_cons] at hTerms
      rw [List.sum_cons, ← Nat.add_assoc]
      exact (ih (add_lt hFirst hTerms.1) hTerms.2).trans
        ((add_modEq hFirst hTerms.1).add_right terms.sum)

end Semantics.OnesComplement
