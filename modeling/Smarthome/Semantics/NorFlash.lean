import Mathlib.Logic.Function.Basic
import Mathlib.Tactic.Common

/-! NOR flash as a function from addresses to cells. Erasing sets a whole aligned
block to the erased value; programming can only merge new content into a cell.
The cell type, the merge and the block size are parameters. -/
namespace Semantics

/-- Cells of a NOR flash: what erasing leaves, and what programming makes of two values. -/
class NorCell (Cell : Type*) where
  erased : Cell
  merge : Cell → Cell → Cell
  merge_erased (c : Cell) : merge erased c = c
  merge_merge (a c : Cell) : merge (merge a c) c = merge a c

namespace NorFlash

variable {Cell : Type*}

/-- The `length` cells from an address on. -/
def slice (memory : Nat → Cell) (address length : Nat) : List Cell :=
  (List.range length).map fun i => memory (address + i)

@[simp] theorem slice_length (memory : Nat → Cell) (address length : Nat) :
    (slice memory address length).length = length := by simp [slice]

theorem slice_getElem? (memory : Nat → Cell) {address length i : Nat} (h : i < length) :
    (slice memory address length)[i]? = some (memory (address + i)) := by
  simp [slice, h]

theorem slice_congr {memory other : Nat → Cell} {address length : Nat}
    (h : ∀ a, address ≤ a → a < address + length → memory a = other a) :
    slice memory address length = slice other address length :=
  List.map_congr_left fun i hi => h _ (by omega) (by have := List.mem_range.mp hi; omega)

theorem slice_succ (memory : Nat → Cell) (address length : Nat) :
    slice memory address (length + 1) = memory address :: slice memory (address + 1) length := by
  rw [slice, List.range_succ_eq_map, List.map_cons, List.map_map]
  refine congrArg (List.cons _) (List.map_congr_left fun i _ => ?_)
  exact congrArg memory (by omega)

/-- Two ranges one after the other. -/
theorem slice_add (memory : Nat → Cell) (address first second : Nat) :
    slice memory address (first + second) =
      slice memory address first ++ slice memory (address + first) second := by
  rw [slice, List.range_add, List.map_append, List.map_map]
  refine congrArg (_ ++ ·) (List.map_congr_left fun i _ => ?_)
  exact congrArg memory (by simp only [Nat.add_assoc])

theorem slice_take (memory : Nat → Cell) (address : Nat) {length n : Nat} (h : n ≤ length) :
    (slice memory address length).take n = slice memory address n := by
  obtain ⟨rest, rfl⟩ := Nat.exists_eq_add_of_le h
  rw [slice_add, List.take_left' (slice_length ..)]

theorem slice_drop (memory : Nat → Cell) (address : Nat) {length n : Nat} (h : n ≤ length) :
    (slice memory address length).drop n = slice memory (address + n) (length - n) := by
  obtain ⟨rest, rfl⟩ := Nat.exists_eq_add_of_le h
  rw [slice_add, List.drop_left' (slice_length ..), Nat.add_sub_cancel_left]

/-- A memory that holds a list of cells. -/
theorem slice_getD (address : Nat) (cells : List Cell) (other : Cell) :
    slice (fun a => cells.getD (a - address) other) address cells.length = cells := by
  refine List.ext_getElem (slice_length ..) fun i hi hi' => ?_
  simp [slice, hi']

variable [NorCell Cell]

/-- The aligned block of `size` cells that contains `address` becomes erased. -/
def erase (size address : Nat) (memory : Nat → Cell) (a : Nat) : Cell :=
  if a / size = address / size then NorCell.erased else memory a

/-- The cells from `address` on are merged with the data. -/
def program (address : Nat) (data : List Cell) (memory : Nat → Cell) (a : Nat) : Cell :=
  if address ≤ a then
    match data[a - address]? with
    | some c => NorCell.merge (memory a) c
    | none => memory a
  else memory a

variable {size address a : Nat} {data : List Cell} {memory : Nat → Cell}

theorem erase_inside (h : a / size = address / size) :
    erase size address memory a = NorCell.erased := if_pos h

theorem erase_outside (h : a / size ≠ address / size) :
    erase size address memory a = memory a := if_neg h

theorem program_below (h : a < address) : program address data memory a = memory a :=
  if_neg (by omega)

theorem program_above (h : address + data.length ≤ a) :
    program address data memory a = memory a := by
  have hNone : data[a - address]? = none := List.getElem?_eq_none (by omega)
  simp [program, hNone]

theorem program_inside {i : Nat} (h : i < data.length) :
    program address data memory (address + i) = NorCell.merge (memory (address + i)) data[i] := by
  simp [program, h]

/-- Programming changes nothing but the cells of its data. -/
theorem program_outside (h : a < address ∨ address + data.length ≤ a) :
    program address data memory a = memory a := by
  rcases h with h | h
  · exact program_below h
  · exact program_above h

@[simp] theorem program_nil : program address [] memory = memory := by
  funext a
  simp [program]

/-- On erased cells, programming writes the data. -/
theorem program_of_erased {i : Nat} (h : i < data.length)
    (hErased : memory (address + i) = NorCell.erased) :
    program address data memory (address + i) = data[i] := by
  rw [program_inside h, hErased, NorCell.merge_erased]

/-- Copying cells to an erased place. -/
theorem program_slice_of_erased {other : Nat → Cell} {source length i : Nat} (h : i < length)
    (hErased : memory (address + i) = NorCell.erased) :
    program address (slice other source length) memory (address + i) = other (source + i) := by
  have hIndex : i < (slice other source length).length := by rwa [slice_length]
  have hRead : (slice other source length)[i]? = some (other (source + i)) := slice_getElem? other h
  rw [List.getElem?_eq_getElem hIndex, Option.some.injEq] at hRead
  rw [program_of_erased hIndex hErased, hRead]

/-- What was programmed on erased cells is read back. -/
theorem slice_program_of_erased (hErased : ∀ i < data.length, memory (address + i) = NorCell.erased) :
    slice (program address data memory) address data.length = data := by
  refine List.ext_getElem (by simp) fun i hi hi' => ?_
  have hRead : (slice (program address data memory) address data.length)[i]? =
      some (program address data memory (address + i)) := slice_getElem? _ hi'
  rw [List.getElem?_eq_getElem hi, Option.some.injEq] at hRead
  rw [hRead, program_of_erased hi' (hErased i hi')]

/-- Consecutive programs are one program of the concatenation. -/
theorem program_append (address : Nat) (memory : Nat → Cell) (first second : List Cell) :
    program (address + first.length) second (program address first memory) =
      program address (first ++ second) memory := by
  funext a
  rcases Nat.lt_or_ge a (address + first.length) with h | h
  · rw [program_below h]
    rcases Nat.lt_or_ge a address with hBelow | hBelow
    · rw [program_below hBelow, program_below hBelow]
    · have hIndex : a - address < first.length := by omega
      simp [program, hBelow, List.getElem?_append_left hIndex]
  · have hIndex : a - address - first.length = a - (address + first.length) := by omega
    have hStart : address ≤ a := by omega
    simp only [program, h, hStart, if_true,
      List.getElem?_append_right (by omega : first.length ≤ a - address),
      hIndex, List.getElem?_eq_none (by omega : first.length ≤ a - address)]

/-- Two attempts which got through different parts of the same data. -/
theorem program_take_of_program_take (j k : Nat) :
    program address (data.take j) (program address (data.take k) memory) =
      program address (data.take (max j k)) memory := by
  funext a
  simp only [program]
  split_ifs with h
  · have hMax : a - address < max j k ↔ a - address < j ∨ a - address < k := by omega
    simp only [List.getElem?_take, hMax]
    by_cases hj : a - address < j
    · by_cases hk : a - address < k
      · simp only [hj, hk, or_self, if_true]
        cases data[a - address]? with
        | none => rfl
        | some c => exact NorCell.merge_merge _ c
      · simp only [hj, hk, or_false, if_true, if_false]
    · simp only [hj, false_or, if_false]
  · rfl

/-- Programming all data after part of it is programming it once. -/
theorem program_of_program_take (k : Nat) :
    program address data (program address (data.take k) memory) = program address data memory := by
  have h : program address (data.take data.length) (program address (data.take k) memory) =
      program address (data.take (max data.length k)) memory := program_take_of_program_take _ _
  rwa [List.take_length, List.take_of_length_le (Nat.le_max_left ..)] at h

end NorFlash
end Semantics
