import Mathlib.Data.List.Basic
import Mathlib.Data.List.Infix

/-! A matcher that counts how much of a pattern it has seen and, at the first
symbol that does not fit, starts again after that symbol. It keeps no failure
table: the symbol that broke the match is not tried as a first symbol. -/
namespace Semantics.PrefixMatcher

variable {α : Type*} [DecidableEq α]

/-- The number of matched symbols after one more symbol. -/
def step (pattern : List α) (matched : Nat) (a : α) : Nat :=
  if pattern[matched]? = some a then matched + 1 else 0

def scan (pattern word : List α) : Nat :=
  word.foldl (step pattern) 0

theorem scan_concat (pattern word : List α) (a : α) :
    scan pattern (word ++ [a]) = step pattern (scan pattern word) a := by
  simp [scan, List.foldl_append]

omit [DecidableEq α] in
theorem take_concat_of_getElem? {pattern : List α} {k : Nat} {a : α}
    (h : pattern[k]? = some a) : pattern.take k ++ [a] = pattern.take (k + 1) := by
  rw [List.take_add_one, h]
  rfl

/-- What has been matched is the end of what has been read. -/
theorem take_scan_suffix (pattern word : List α) :
    pattern.take (scan pattern word) <:+ word := by
  induction word using List.reverseRecOn with
  | nil => simp [scan]
  | append_singleton word a ih =>
      rw [scan_concat, step]
      split_ifs with h
      · obtain ⟨before, he⟩ := ih
        refine ⟨before, ?_⟩
        rw [← take_concat_of_getElem? h, ← List.append_assoc, he]
      · simp

/-- The matcher counts to the end of the pattern only at an occurrence of it. -/
theorem scan_lt_of_not_infix {pattern word : List α} (hWord : ¬ pattern <:+: word) :
    scan pattern word < pattern.length := by
  by_contra hLong
  have hSuffix := take_scan_suffix pattern word
  rw [List.take_of_length_le (Nat.le_of_not_lt hLong)] at hSuffix
  exact hWord hSuffix.isInfix

/-- From a fresh start the matcher follows the pattern symbol by symbol. -/
theorem scan_append_take {pattern word : List α} (hFresh : scan pattern word = 0)
    (k : Nat) (hk : k ≤ pattern.length) : scan pattern (word ++ pattern.take k) = k := by
  induction k with
  | zero => simpa using hFresh
  | succ k ih =>
      have hGet : pattern[k]? = some pattern[k] := List.getElem?_eq_getElem (by omega)
      rw [← take_concat_of_getElem? hGet, ← List.append_assoc, scan_concat, ih (by omega)]
      simp [step, hGet]

/-- Words that fall apart, read from the left, into failed attempts at the
pattern: a proper prefix of it, possibly empty, and the symbol that breaks it. -/
inductive Attempts (pattern : List α) : List α → Prop where
  | nil : Attempts pattern []
  | concat {word : List α} {k : Nat} {a : α} (prior : Attempts pattern word)
      (short : k < pattern.length) (broken : pattern[k]? ≠ some a) :
      Attempts pattern (word ++ pattern.take k ++ [a])

theorem Attempts.scan_eq_zero {pattern word : List α} (h : Attempts pattern word) :
    scan pattern word = 0 := by
  induction h with
  | nil => rfl
  | concat prior short broken ih =>
      rw [scan_concat, scan_append_take ih _ short.le, step, if_neg broken]

/-- Without an occurrence of the pattern, a word is a sequence of failed
attempts followed by the attempt still in progress. -/
theorem exists_attempts {pattern word : List α} (hWord : ¬ pattern <:+: word) :
    ∃ failed, Attempts pattern failed ∧ word = failed ++ pattern.take (scan pattern word) := by
  induction word using List.reverseRecOn with
  | nil => exact ⟨[], .nil, by simp [scan]⟩
  | append_singleton word a ih =>
      have hBefore : ¬ pattern <:+: word := fun h =>
        hWord (h.trans (List.prefix_append word [a]).isInfix)
      obtain ⟨failed, hFailed, he⟩ := ih hBefore
      have hShort := scan_lt_of_not_infix hBefore
      rw [scan_concat, step]
      split_ifs with h
      · refine ⟨failed, hFailed, ?_⟩
        rw [← take_concat_of_getElem? h, ← List.append_assoc, ← he]
      · refine ⟨failed ++ pattern.take (scan pattern word) ++ [a], .concat hFailed hShort h, ?_⟩
        rw [← he]
        simp

theorem scan_eq_zero_iff {pattern word : List α} (hWord : ¬ pattern <:+: word) :
    scan pattern word = 0 ↔ Attempts pattern word := by
  refine ⟨fun h => ?_, Attempts.scan_eq_zero⟩
  obtain ⟨failed, hFailed, he⟩ := exists_attempts hWord
  rw [h, List.take_zero, List.append_nil] at he
  rwa [he]

end Semantics.PrefixMatcher
