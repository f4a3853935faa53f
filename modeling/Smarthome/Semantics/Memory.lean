import Mathlib.Data.List.Basic
import Mathlib.Data.List.Range
import Mathlib.Tactic.Common

/-! Memory as a total function of addresses, and the pieces that are copied into it. What
a piece leaves alone keeps what was there before. -/
namespace Semantics

variable {Cell : Type*}

/-- The cells from an address on. -/
def slice (m : Nat → Cell) (first count : Nat) : List Cell :=
  (List.range count).map fun i => m (first + i)

@[simp] theorem length_slice (m : Nat → Cell) (first count : Nat) :
    (slice m first count).length = count := by simp [slice]

@[simp] theorem slice_zero (m : Nat → Cell) (first : Nat) : slice m first 0 = [] := rfl

@[simp] theorem getElem_slice (m : Nat → Cell) (first count : Nat) {i : Nat}
    (h : i < (slice m first count).length) : (slice m first count)[i] = m (first + i) := by
  simp [slice]

theorem slice_add (m : Nat → Cell) (first n k : Nat) :
    slice m first (n + k) = slice m first n ++ slice m (first + n) k := by
  simp only [slice, List.range_add, List.map_append, List.map_map, Nat.add_assoc]
  rfl

theorem slice_succ (m : Nat → Cell) (first n : Nat) :
    slice m first (n + 1) = m first :: slice m (first + 1) n := by
  rw [Nat.add_comm n 1, slice_add]
  rfl

theorem slice_congr {m m' : Nat → Cell} {first first' count : Nat}
    (h : ∀ i < count, m (first + i) = m' (first' + i)) :
    slice m first count = slice m' first' count :=
  List.map_congr_left fun i hi => h i (List.mem_range.mp hi)

theorem slice_eq_iff {m m' : Nat → Cell} {first first' count : Nat} :
    slice m first count = slice m' first' count ↔
      ∀ i < count, m (first + i) = m' (first' + i) := by
  refine ⟨fun h i hi => ?_, slice_congr⟩
  have hAt := congrArg (fun cells => cells[i]?) h
  simpa [slice, hi] using hAt

theorem slice_append_eq_iff {m : Nat → Cell} {first : Nat} {front back : List Cell} :
    slice m first (front ++ back).length = front ++ back ↔
      slice m first front.length = front ∧ slice m (first + front.length) back.length = back := by
  rw [List.length_append, slice_add]
  constructor
  · exact fun hBoth => List.append_inj hBoth (length_slice ..)
  · rintro ⟨hFront, hBack⟩
    rw [hFront, hBack]

/-- What one copy writes. -/
structure Piece (Cell : Type*) where
  offset : Nat
  cells : List Cell

namespace Piece

/-- The copy writes the address. -/
def Covers (piece : Piece Cell) (i : Nat) : Prop :=
  piece.offset ≤ i ∧ i < piece.offset + piece.cells.length

instance (piece : Piece Cell) (i : Nat) : Decidable (piece.Covers i) :=
  inferInstanceAs (Decidable (_ ∧ _))

/-- The address holds what the copy has written there. -/
def Gives (piece : Piece Cell) (i : Nat) (cell : Cell) : Prop :=
  piece.offset ≤ i ∧ piece.cells[i - piece.offset]? = some cell

/-- The piece is a part of the memory. -/
def Within (piece : Piece Cell) (m : Nat → Cell) : Prop :=
  piece.cells = slice m piece.offset piece.cells.length

def write (m : Nat → Cell) (piece : Piece Cell) : Nat → Cell := fun i =>
  if piece.offset ≤ i then (piece.cells[i - piece.offset]?).getD (m i) else m i

variable {m h : Nat → Cell} {piece : Piece Cell} {pieces : List (Piece Cell)} {i : Nat} {cell : Cell}

theorem Gives.covers (hGives : piece.Gives i cell) : piece.Covers i := by
  obtain ⟨hFrom, hAt⟩ := hGives
  obtain ⟨hLess, -⟩ := List.getElem?_eq_some_iff.mp hAt
  exact ⟨hFrom, by omega⟩

theorem gives_write (hCovers : piece.Covers i) : piece.Gives i (piece.write m i) := by
  obtain ⟨hFrom, hTo⟩ := hCovers
  have hAt := List.getElem?_eq_getElem (l := piece.cells) (i := i - piece.offset) (by omega)
  refine ⟨hFrom, ?_⟩
  rw [write, if_pos hFrom, hAt, Option.getD_some]

theorem write_of_not_covers (hNot : ¬ piece.Covers i) : piece.write m i = m i := by
  unfold write
  split
  · rename_i hFrom
    rw [List.getElem?_eq_none, Option.getD_none]
    by_contra hLess
    exact hNot ⟨hFrom, by omega⟩
  · rfl

theorem Gives.eq_of_within (hGives : piece.Gives i cell) (hWithin : piece.Within h) :
    cell = h i := by
  obtain ⟨hFrom, hAt⟩ := hGives
  rw [hWithin] at hAt
  obtain ⟨hLess, hCell⟩ := List.getElem?_eq_some_iff.mp hAt
  rw [getElem_slice] at hCell
  rw [← hCell]
  congr 1
  omega

@[simp] theorem within_one {offset : Nat} {cell : Cell} :
    Within ⟨offset, [cell]⟩ h ↔ cell = h offset := by simp [Within, slice]

@[simp] theorem within_two {offset : Nat} {cell cell' : Cell} :
    Within ⟨offset, [cell, cell']⟩ h ↔ cell = h offset ∧ cell' = h (offset + 1) := by
  simp [Within, slice, List.range_succ]

theorem within_slice {offset first count : Nat} :
    Within ⟨offset, slice m first count⟩ h ↔ slice m first count = slice h offset count := by
  simp only [Within, length_slice]

/-- What was written is a part of the memory exactly when it is read back as such. -/
theorem write_eq_iff_within :
    (∀ i, piece.Covers i → piece.write m i = h i) ↔ piece.Within h := by
  constructor
  · intro hRead
    refine List.ext_getElem (length_slice ..).symm fun k hk _ => ?_
    have hAt := hRead (piece.offset + k) ⟨Nat.le_add_right .., Nat.add_lt_add_left hk _⟩
    simp only [write, Nat.le_add_right, if_true, Nat.add_sub_cancel_left,
      List.getElem?_eq_getElem hk, Option.getD_some] at hAt
    rw [hAt, getElem_slice]
  · intro hWithin i hCovers
    exact (gives_write hCovers).eq_of_within hWithin

/-- Several copies, one after the other. -/
def writeAll (m : Nat → Cell) (pieces : List (Piece Cell)) : Nat → Cell :=
  pieces.foldl write m

@[simp] theorem writeAll_nil (m : Nat → Cell) : writeAll m [] = m := rfl

@[simp] theorem writeAll_cons (m : Nat → Cell) (piece : Piece Cell) (pieces : List (Piece Cell)) :
    writeAll m (piece :: pieces) = writeAll (piece.write m) pieces := rfl

theorem writeAll_append (m : Nat → Cell) (pieces later : List (Piece Cell)) :
    writeAll m (pieces ++ later) = writeAll (writeAll m pieces) later :=
  List.foldl_append

theorem writeAll_of_not_covers (hNot : ∀ piece ∈ pieces, ¬ piece.Covers i) :
    writeAll m pieces i = m i := by
  induction pieces generalizing m with
  | nil => rfl
  | cons piece pieces ih =>
      rw [List.forall_mem_cons] at hNot
      rw [writeAll_cons, ih hNot.2, write_of_not_covers hNot.1]

/-- What is read after the copies was there before, or one of them has written it. -/
theorem writeAll_gives (m : Nat → Cell) (pieces : List (Piece Cell)) (i : Nat) :
    writeAll m pieces i = m i ∧ (∀ piece ∈ pieces, ¬ piece.Covers i) ∨
      ∃ piece ∈ pieces, piece.Gives i (writeAll m pieces i) := by
  induction pieces generalizing m with
  | nil => exact Or.inl ⟨rfl, nofun⟩
  | cons piece pieces ih =>
      rw [writeAll_cons]
      rcases ih (piece.write m) with ⟨hSame, hNot⟩ | ⟨later, hMem, hGives⟩
      · by_cases hCovers : piece.Covers i
        · refine Or.inr ⟨piece, List.mem_cons_self .., ?_⟩
          rw [hSame]
          exact gives_write hCovers
        · rw [hSame, write_of_not_covers hCovers]
          exact Or.inl ⟨rfl, List.forall_mem_cons.mpr ⟨hCovers, hNot⟩⟩
      · exact Or.inr ⟨later, List.mem_cons_of_mem _ hMem, hGives⟩

theorem gives_of_covers (hCovers : ∃ piece ∈ pieces, piece.Covers i) :
    ∃ piece ∈ pieces, piece.Gives i (writeAll m pieces i) := by
  rcases writeAll_gives m pieces i with ⟨-, hNot⟩ | hGives
  · obtain ⟨piece, hMem, hIs⟩ := hCovers
    exact absurd hIs (hNot piece hMem)
  · exact hGives

/-- Copies of parts of one memory give the memory wherever one of them writes. -/
theorem writeAll_within (hWithin : ∀ piece ∈ pieces, piece.Within h)
    (hCovers : ∃ piece ∈ pieces, piece.Covers i) : writeAll m pieces i = h i := by
  obtain ⟨piece, hMem, hGives⟩ := gives_of_covers (m := m) hCovers
  exact hGives.eq_of_within (hWithin piece hMem)

/-- A copy among others that leave its addresses alone. -/
theorem writeAll_eq_iff_within (m : Nat → Cell) (before : List (Piece Cell))
    {after : List (Piece Cell)}
    (hAlone : ∀ other ∈ after, ∀ i, piece.Covers i → ¬ other.Covers i) :
    (∀ i, piece.Covers i → writeAll m (before ++ piece :: after) i = h i) ↔ piece.Within h := by
  rw [← write_eq_iff_within (m := writeAll m before)]
  refine forall₂_congr fun i hCovers => ?_
  rw [writeAll_append, writeAll_cons,
    writeAll_of_not_covers fun other hMem => hAlone other hMem i hCovers]

/-- The pieces are parts of the memory, and they write at exactly these addresses. -/
structure Restore (h : Nat → Cell) (region : Nat → Prop) (pieces : List (Piece Cell)) : Prop where
  within : ∀ piece ∈ pieces, piece.Within h
  covers : ∀ i, (∃ piece ∈ pieces, piece.Covers i) ↔ region i

theorem Restore.nil : Restore h (fun _ => False) [] where
  within := nofun
  covers i := by simp

theorem Restore.one {offset : Nat} (hCell : cell = h offset) :
    Restore h (· = offset) [⟨offset, [cell]⟩] where
  within := by simpa using hCell
  covers i := by
    simp only [List.mem_singleton, exists_eq_left, Covers, List.length_singleton]
    omega

theorem Restore.congr {region region' : Nat → Prop} (hRestore : Restore h region pieces)
    (hSame : ∀ i, region i ↔ region' i) : Restore h region' pieces :=
  ⟨hRestore.within, fun i => (hRestore.covers i).trans (hSame i)⟩

theorem Restore.append {region region' : Nat → Prop} {pieces' : List (Piece Cell)}
    (hFront : Restore h region pieces) (hBack : Restore h region' pieces') :
    Restore h (fun i => region i ∨ region' i) (pieces ++ pieces') where
  within := List.forall_mem_append.mpr ⟨hFront.within, hBack.within⟩
  covers i := by
    rw [← hFront.covers i, ← hBack.covers i]
    simp only [List.mem_append, or_and_right, exists_or]

/-- What the pieces restore does not depend on their order. -/
theorem Restore.of_mem_iff {region : Nat → Prop} {pieces' : List (Piece Cell)}
    (hRestore : Restore h region pieces) (hSame : ∀ piece, piece ∈ pieces' ↔ piece ∈ pieces) :
    Restore h region pieces' where
  within piece hMem := hRestore.within piece ((hSame piece).mp hMem)
  covers i := by
    rw [← hRestore.covers i]
    simp only [hSame]

/-- A part of the memory in its place. -/
theorem Restore.of_slice {first count : Nat} {cells : List Cell}
    (hCells : cells = slice h first count) :
    Restore h (fun i => first ≤ i ∧ i < first + count) [⟨first, cells⟩] where
  within := by simp [Within, hCells]
  covers i := by simp [Covers, hCells]

theorem Restore.not_covers {region : Nat → Prop} (hRestore : Restore h region pieces)
    (hNot : ¬ region i) : ∀ piece ∈ pieces, ¬ piece.Covers i := fun piece hMem hCovers =>
  hNot ((hRestore.covers i).mp ⟨piece, hMem, hCovers⟩)

theorem Restore.writeAll {region : Nat → Prop} (hRestore : Restore h region pieces)
    (hRegion : region i) : writeAll m pieces i = h i :=
  writeAll_within hRestore.within ((hRestore.covers i).mpr hRegion)

end Piece

end Semantics
