import Mathlib.Data.List.Basic

/-! Computations over a buffer that record which of its elements they read. The
buffer is a total function; how much of it belongs to the input is a bound that
the reads are compared with afterwards. -/
namespace Semantics

structure Reads (Element Result : Type) where
  value : (Nat → Element) → Result
  indices : (Nat → Element) → List Nat

namespace Reads

variable {Element Result Other : Type}

instance : Monad (Reads Element) where
  pure result := ⟨fun _ => result, fun _ => []⟩
  bind first next :=
    { value := fun data => (next (first.value data)).value data
      indices := fun data => first.indices data ++ (next (first.value data)).indices data }

def read (i : Nat) : Reads Element Element := ⟨fun data => data i, fun _ => [i]⟩

/-- A loop that reads `count` elements from `first` on. -/
def readRange (first count : Nat) : Reads Element (List Element) where
  value data := (List.range count).map fun i => data (first + i)
  indices _ := (List.range count).map fun i => first + i

/-- The same loop into an array of fixed size. -/
def readVector (first count : Nat) : Reads Element (Vector Element count) where
  value data := Vector.ofFn fun i => data (first + i)
  indices _ := (List.range count).map fun i => first + i

/-- All elements that are read lie below the bound. -/
def InBounds (reads : Reads Element Result) (data : Nat → Element) (bound : Nat) : Prop :=
  ∀ i ∈ reads.indices data, i < bound

variable (data : Nat → Element) (bound : Nat)

@[simp] theorem value_pure (result : Result) :
    (pure result : Reads Element Result).value data = result := rfl

@[simp] theorem value_bind (first : Reads Element Result)
    (next : Result → Reads Element Other) :
    (first >>= next).value data = (next (first.value data)).value data := rfl

@[simp] theorem value_read (i : Nat) : (read i).value data = data i := rfl

@[simp] theorem value_readRange (first count : Nat) :
    (readRange first count).value data = (List.range count).map fun i => data (first + i) := rfl

@[simp] theorem value_readVector (first count : Nat) :
    (readVector first count).value data = Vector.ofFn fun i => data (first + i) := rfl

@[simp] theorem value_ite (c : Prop) [Decidable c] (first second : Reads Element Result) :
    (if c then first else second).value data =
      if c then first.value data else second.value data := by
  split_ifs <;> rfl

@[simp] theorem inBounds_pure (result : Result) :
    (pure result : Reads Element Result).InBounds data bound ↔ True :=
  iff_of_true (fun _ hMem => absurd hMem List.not_mem_nil) trivial

@[simp] theorem inBounds_bind (first : Reads Element Result)
    (next : Result → Reads Element Other) :
    (first >>= next).InBounds data bound ↔
      first.InBounds data bound ∧ (next (first.value data)).InBounds data bound :=
  List.forall_mem_append

@[simp] theorem inBounds_read (i : Nat) :
    (read i : Reads Element Element).InBounds data bound ↔ i < bound :=
  List.forall_mem_singleton

/-- A loop stays inside if its last element does. -/
theorem forall_mem_range_iff (first count : Nat) :
    (∀ i ∈ (List.range count).map fun i => first + i, i < bound) ↔
      count = 0 ∨ first + count ≤ bound := by
  simp only [List.forall_mem_map, List.mem_range]
  constructor
  · intro h
    rcases Nat.eq_zero_or_pos count with hZero | hPos
    · exact Or.inl hZero
    · have hLast := h (count - 1) (Nat.sub_lt hPos Nat.one_pos)
      omega
  · intro h i hi
    omega

@[simp] theorem inBounds_readRange (first count : Nat) :
    (readRange first count : Reads Element (List Element)).InBounds data bound ↔
      count = 0 ∨ first + count ≤ bound :=
  forall_mem_range_iff bound first count

@[simp] theorem inBounds_readVector (first count : Nat) :
    (readVector first count : Reads Element (Vector Element count)).InBounds data bound ↔
      count = 0 ∨ first + count ≤ bound :=
  forall_mem_range_iff bound first count

@[simp] theorem inBounds_ite (c : Prop) [Decidable c] (first second : Reads Element Result) :
    (if c then first else second).InBounds data bound ↔
      (c → first.InBounds data bound) ∧ (¬ c → second.InBounds data bound) := by
  split_ifs with h
  · simp [h]
  · simp [h]

/-- A bound that is computed along the same branches as the reads. -/
theorem inBounds_ite_iff_le {c : Prop} [Decidable c] {first second : Reads Element Result}
    {data : Nat → Element} {bound m n : Nat} (hFirst : first.InBounds data bound ↔ m ≤ bound)
    (hSecond : second.InBounds data bound ↔ n ≤ bound) :
    (if c then first else second).InBounds data bound ↔ (if c then m else n) ≤ bound := by
  split_ifs
  · exact hFirst
  · exact hSecond

end Reads
end Semantics
