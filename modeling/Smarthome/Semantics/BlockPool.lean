import Mathlib.Data.Fintype.Card
import Mathlib.Data.List.FinRange
import Mathlib.Data.Set.Function

/-! A pool of memory blocks of one size. A block is in use from its allocation until it is
freed, and the first block that is not in use is the next to be allocated. -/
namespace Semantics

/-- The blocks in use. -/
abbrev BlockPool (n : Nat) := Finset (Fin n)

namespace BlockPool

variable {n : Nat} {pool : BlockPool n} {block : Fin n}

/-- The first block that is not in use. -/
def alloc (pool : BlockPool n) : Option (Fin n) :=
  (List.finRange n).find? fun block => block ∉ pool

/-- A block may be missing, and nothing is freed then. -/
def free (pool : BlockPool n) (block : Option (Fin n)) : BlockPool n :=
  block.elim pool pool.erase

@[simp] theorem free_none : pool.free none = pool := rfl

@[simp] theorem free_some : pool.free (some block) = pool.erase block := rfl

theorem not_mem_of_alloc (hAlloc : pool.alloc = some block) : block ∉ pool := by
  have hFree := List.find?_some hAlloc
  exact of_decide_eq_true hFree

/-- Nothing can be allocated exactly if all blocks are in use. -/
theorem alloc_eq_none_iff : pool.alloc = none ↔ pool.card = n := by
  rw [alloc, List.find?_eq_none]
  constructor
  · intro hNone
    have hAll : pool = Finset.univ := by
      refine Finset.eq_univ_iff_forall.mpr fun block => ?_
      simpa using hNone block (List.mem_finRange block)
    rw [hAll, Finset.card_univ, Fintype.card_fin]
  · intro hCard block _
    have hAll : pool = Finset.univ :=
      (Finset.card_eq_iff_eq_univ pool).mp (hCard.trans (Fintype.card_fin n).symm)
    simp [hAll]

theorem exists_alloc (hCard : pool.card ≠ n) : ∃ block, pool.alloc = some block :=
  Option.ne_none_iff_exists'.mp (alloc_eq_none_iff.not.mpr hCard)

end BlockPool

/-- Each user has a block of its own, and each of the blocks has a user. -/
def Assigned {User Block : Type*} (users : Finset User) (block : User → Option Block)
    (blocks : Finset Block) : Prop := Set.BijOn block users (some '' (blocks : Set Block))

namespace Assigned

variable {User Block : Type*} {users : Finset User} {block block' : User → Option Block}
  {blocks : Finset Block} {user other : User} {b : Block}

theorem empty : Assigned ∅ block (∅ : Finset Block) := by
  simp [Assigned]

theorem exists_block (h : Assigned users block blocks) (hUser : user ∈ users) :
    ∃ b ∈ blocks, block user = some b := by
  obtain ⟨b, hBlock, hEq⟩ := h.mapsTo hUser
  exact ⟨b, hBlock, hEq.symm⟩

theorem mem_blocks (h : Assigned users block blocks) (hUser : user ∈ users)
    (hEq : block user = some b) : b ∈ blocks := by
  obtain ⟨b', hBlock, hEq'⟩ := h.exists_block hUser
  obtain rfl := Option.some.inj (hEq.symm.trans hEq')
  exact hBlock

theorem user_unique (h : Assigned users block blocks) (hUser : user ∈ users)
    (hOther : other ∈ users) (hEq : block user = block other) : user = other :=
  h.injOn hUser hOther hEq

theorem congr (h : Assigned users block blocks) (hSame : ∀ user ∈ users, block' user = block user) :
    Assigned users block' blocks :=
  (Set.EqOn.bijOn_iff fun user hUser => hSame user hUser).mpr h

variable [DecidableEq User] [DecidableEq Block]

theorem insert (h : Assigned users block blocks) (hUser : user ∉ users) (hBlock : b ∉ blocks) :
    Assigned (Insert.insert user users) (Function.update block user (some b))
      (Insert.insert b blocks) := by
  have hSame : Assigned users (Function.update block user (some b)) blocks :=
    h.congr fun other hOther => Function.update_of_ne (ne_of_mem_of_not_mem hOther hUser) _ _
  have hNew : Function.update block user (some b) user ∉ some '' (blocks : Set Block) := by
    simpa using hBlock
  have hInsert := Set.BijOn.insert hSame hNew
  rw [Function.update_self, ← Set.image_insert_eq] at hInsert
  simpa [Assigned] using hInsert

theorem erase (h : Assigned users block blocks) (hUser : user ∈ users)
    (hEq : block user = some b) : Assigned (users.erase user) block (blocks.erase b) := by
  have hErase := Set.BijOn.sdiff_singleton h hUser
  rw [hEq, ← Set.image_singleton, ← Set.image_sdiff (Option.some_injective Block)] at hErase
  simpa [Assigned] using hErase

end Assigned

end Semantics
