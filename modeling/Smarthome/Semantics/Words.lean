import Mathlib.Data.List.TakeWhile
import Mathlib.Tactic.Common

/-! The words of a list, which are its longest pieces without a separator, and a scanner that
takes one word at a time. -/
namespace Semantics

variable {α : Type*} (isSeparator : α → Bool)

/-- The words between the separators. -/
def words (l : List α) : List (List α) := (l.splitOnP isSeparator).filter (!·.isEmpty)

/-- The first word, and what is left behind the separator after it. -/
def nextWord (l : List α) : Option (List α × List α) :=
  match l.dropWhile isSeparator with
  | [] => none
  | a :: rest =>
      some ((a :: rest).takeWhile (!isSeparator ·), ((a :: rest).dropWhile (!isSeparator ·)).tail)

variable {isSeparator}

@[simp] theorem words_nil : words isSeparator [] = [] := rfl

/-- A separator ends a word. -/
theorem words_append_cons (before : List α) {a : α} (h : isSeparator a = true) (after : List α) :
    words isSeparator (before ++ a :: after) =
      words isSeparator before ++ words isSeparator after := by
  rw [words, List.splitOnP_append_cons before after h, List.filter_append]
  rfl

/-- Separators in front are skipped. -/
theorem words_dropWhile (l : List α) :
    words isSeparator (l.dropWhile isSeparator) = words isSeparator l := by
  induction l with
  | nil => rfl
  | cons a l ih =>
      rw [List.dropWhile_cons]
      split_ifs with hSeparator
      · have hEmpty : a :: l = [] ++ a :: l := rfl
        rw [ih, hEmpty, words_append_cons [] hSeparator, words_nil, List.nil_append]
      · rfl

/-- A list without separators is one word. -/
theorem words_of_forall {word : List α} (hWord : word ≠ [])
    (h : ∀ a ∈ word, isSeparator a = false) : words isSeparator word = [word] := by
  rw [words, List.splitOnP_eq_singleton h]
  simp [hWord]

/-- The scanner finds the words in their order. -/
theorem words_of_nextWord {l word rest : List α} (h : nextWord isSeparator l = some (word, rest)) :
    words isSeparator l = word :: words isSeparator rest := by
  rw [nextWord] at h
  cases hDrop : l.dropWhile isSeparator with
  | nil =>
      rw [hDrop] at h
      cases h
  | cons a after =>
      rw [hDrop, Option.some.injEq, Prod.mk.injEq] at h
      obtain ⟨hWord, hRest⟩ := h
      have hFirst : isSeparator a = false := by
        have hHead := List.head?_dropWhile_not isSeparator l
        rw [hDrop] at hHead
        exact hHead
      have hNonempty : word ≠ [] := by
        rw [← hWord, List.takeWhile_cons_of_pos (by simp [hFirst])]
        exact List.cons_ne_nil _ _
      have hLetters : ∀ b ∈ word, isSeparator b = false := by
        intro b hb
        rw [← hWord] at hb
        simpa using List.mem_takeWhile_imp hb
      have hSplit : word ++ (a :: after).dropWhile (!isSeparator ·) = a :: after := by
        rw [← hWord]
        exact List.takeWhile_append_dropWhile
      rw [← words_dropWhile l, hDrop, ← hSplit]
      cases hEnd : (a :: after).dropWhile (!isSeparator ·) with
      | nil =>
          rw [hEnd] at hRest
          rw [List.append_nil, words_of_forall hNonempty hLetters, ← hRest]
          rfl
      | cons b later =>
          have hSeparator : isSeparator b = true := by
            have hHead := List.head?_dropWhile_not (!isSeparator ·) (a :: after)
            rw [hEnd] at hHead
            simpa using hHead
          rw [hEnd] at hRest
          rw [words_append_cons word hSeparator, words_of_forall hNonempty hLetters, ← hRest]
          rfl

theorem nextWord_eq_none {l : List α} :
    nextWord isSeparator l = none ↔ words isSeparator l = [] := by
  constructor
  · intro h
    rw [nextWord] at h
    cases hDrop : l.dropWhile isSeparator with
    | nil => rw [← words_dropWhile, hDrop, words_nil]
    | cons a after =>
        rw [hDrop] at h
        cases h
  · intro h
    cases hNext : nextWord isSeparator l with
    | none => rfl
    | some next =>
        rw [words_of_nextWord hNext] at h
        cases h

end Semantics
