import Mathlib.Data.List.Forall2
import Mathlib.Data.List.Infix

/-! Text that comes symbol by symbol and is taken apart into lines at a separator, and what is
left of its lines where symbols get lost. -/
namespace Semantics

open List

/-- The lines that have ended, and the one that has not. -/
structure Lines (Symbol : Type*) where
  complete : List (List Symbol)
  rest : List Symbol

namespace Lines

variable {Symbol : Type*}

/-- All lines, the last one is unfinished. -/
def segments (lines : Lines Symbol) : List (List Symbol) := lines.complete ++ [lines.rest]

def empty : Lines Symbol := ⟨[], []⟩

variable {kept whole : Lines Symbol}

/-- Each segment is the beginning of a line, of a later one for each. -/
def Within (kept whole : Lines Symbol) : Prop :=
  SublistForall₂ (· <+: ·) kept.segments whole.segments

/-- The line that is unfinished has been kept as it is. -/
structure Follows (kept whole : Lines Symbol) : Prop where
  earlier : SublistForall₂ (· <+: ·) kept.complete whole.complete
  rest : kept.rest = whole.rest

section Prefixes

variable {first second : List (List Symbol)} {a b : List Symbol}

theorem sublistForall₂_append (h : SublistForall₂ (· <+: ·) first second) (hLast : a <+: b) :
    SublistForall₂ (· <+: ·) (first ++ [a]) (second ++ [b]) := by
  induction h with
  | @nil second =>
      induction second with
      | nil => exact SublistForall₂.cons hLast SublistForall₂.nil
      | cons line second ih => exact SublistForall₂.cons_right ih
  | cons hHead _ ih => exact SublistForall₂.cons hHead ih
  | cons_right _ ih => exact SublistForall₂.cons_right ih

theorem sublistForall₂_longer (h : SublistForall₂ (· <+: ·) first second) (b : List Symbol) :
    SublistForall₂ (· <+: ·) first (second ++ [b]) := by
  induction h with
  | nil => exact SublistForall₂.nil
  | cons hHead _ ih => exact SublistForall₂.cons hHead ih
  | cons_right _ ih => exact SublistForall₂.cons_right ih

theorem sublistForall₂_refl (lines : List (List Symbol)) :
    SublistForall₂ (· <+: ·) lines lines := by
  induction lines with
  | nil => exact SublistForall₂.nil
  | cons line lines ih => exact SublistForall₂.cons (List.prefix_refl line) ih

/-- The last line may grow. -/
theorem sublistForall₂_grow (h : SublistForall₂ (· <+: ·) first (second ++ [a])) (hLast : a <+: b) :
    SublistForall₂ (· <+: ·) first (second ++ [b]) :=
  Trans.trans h (sublistForall₂_append (sublistForall₂_refl second) hLast)

end Prefixes

theorem Follows.within (h : Follows kept whole) : Within kept whole :=
  sublistForall₂_append h.earlier (h.rest ▸ List.prefix_refl _)

variable [DecidableEq Symbol]

def push (separator : Symbol) (lines : Lines Symbol) (x : Symbol) : Lines Symbol :=
  if x = separator then ⟨lines.complete ++ [lines.rest], []⟩
  else { lines with rest := lines.rest ++ [x] }

def ofText (separator : Symbol) (text : List Symbol) : Lines Symbol :=
  text.foldl (push separator) empty

variable {separator x : Symbol} {lines : Lines Symbol}

theorem push_separator : lines.push separator separator = ⟨lines.complete ++ [lines.rest], []⟩ :=
  if_pos rfl

theorem push_of_ne (h : x ≠ separator) :
    lines.push separator x = { lines with rest := lines.rest ++ [x] } := if_neg h

@[simp] theorem ofText_append_singleton (separator : Symbol) (text : List Symbol) (x : Symbol) :
    ofText separator (text ++ [x]) = (ofText separator text).push separator x := by
  simp [ofText, List.foldl_append]

theorem segments_pushes (separator : Symbol) (text : List Symbol) (lines : Lines Symbol) :
    (text.foldl (push separator) lines).segments =
      lines.complete ++ (text.splitOn separator).modifyHead (lines.rest ++ ·) := by
  induction text generalizing lines with
  | nil => simp [segments]
  | cons x text ih =>
      rw [List.foldl_cons, ih, List.splitOn_cons_eq_if_modifyHead]
      by_cases hx : x = separator
      · subst hx
        cases hSplit : text.splitOn x with
        | nil => exact absurd hSplit (List.splitOn_ne_nil x text)
        | cons first others => simp [push_separator]
      · cases hSplit : text.splitOn separator with
        | nil => exact absurd hSplit (List.splitOn_ne_nil separator text)
        | cons first others => simp [push_of_ne hx, hx]

/-- The lines are the parts between the separators. -/
theorem segments_ofText (separator : Symbol) (text : List Symbol) :
    (ofText separator text).segments = text.splitOn separator := by
  rw [ofText, segments_pushes]
  cases hSplit : text.splitOn separator with
  | nil => exact absurd hSplit (List.splitOn_ne_nil separator text)
  | cons first others => simp [empty]

/-- A symbol is kept. -/
theorem Follows.push (h : Follows kept whole) (separator x : Symbol) :
    Follows (kept.push separator x) (whole.push separator x) := by
  by_cases hx : x = separator
  · subst hx
    rw [push_separator, push_separator]
    exact ⟨h.within, rfl⟩
  · rw [push_of_ne hx, push_of_ne hx]
    exact ⟨h.earlier, congrArg (· ++ [x]) h.rest⟩

/-- A symbol gets lost. -/
theorem Within.lost (h : Within kept whole) (separator x : Symbol) :
    Within kept (whole.push separator x) := by
  by_cases hx : x = separator
  · subst hx
    rw [push_separator]
    exact sublistForall₂_longer h []
  · rw [push_of_ne hx]
    exact sublistForall₂_grow h (List.prefix_append ..)

/-- A line begins after what was lost. -/
theorem Within.resume (h : Within kept whole) (separator : Symbol) :
    Follows (kept.push separator separator) (whole.push separator separator) := by
  rw [push_separator, push_separator]
  exact ⟨h, rfl⟩

end Lines
end Semantics
