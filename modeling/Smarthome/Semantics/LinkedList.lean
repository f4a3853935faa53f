import Mathlib.Data.Fintype.Card
import Mathlib.Data.List.Basic
import Mathlib.Logic.Function.Basic

/-! Lists of nodes that are linked through a field of the nodes. A program keeps the
first link and changes the field; whether the links end in a list is a property of both. -/
namespace Semantics

variable {Node : Type*}

/-- The nodes from a link to the end. -/
def IsList (next : Node → Option Node) : Option Node → List Node → Prop
  | link, [] => link = none
  | link, x :: xs => link = some x ∧ IsList next (next x) xs

namespace IsList

variable {next next' : Node → Option Node} {link : Option Node} {xs ys : List Node} {x p : Node}

@[simp] theorem nil_iff : IsList next link [] ↔ link = none := Iff.rfl

@[simp] theorem cons_iff :
    IsList next link (x :: xs) ↔ link = some x ∧ IsList next (next x) xs := Iff.rfl

@[simp] theorem none_iff : IsList next none xs ↔ xs = [] := by
  cases xs with
  | nil => simp
  | cons x xs => simp

theorem some_iff : IsList next (some x) xs ↔ ∃ rest, xs = x :: rest ∧ IsList next (next x) rest := by
  cases xs with
  | nil => simp
  | cons y ys =>
      rw [cons_iff, Option.some.injEq]
      constructor
      · rintro ⟨rfl, h⟩
        exact ⟨ys, rfl, h⟩
      · rintro ⟨rest, hRest, h⟩
        obtain ⟨rfl, rfl⟩ := List.cons.inj hRest
        exact ⟨rfl, h⟩

/-- A link has one list at most. -/
theorem unique (h : IsList next link xs) (h' : IsList next link ys) : xs = ys := by
  induction xs generalizing link ys with
  | nil =>
      rw [nil_iff] at h
      rw [h, none_iff] at h'
      exact h'.symm
  | cons x xs ih =>
      obtain ⟨rfl, hRest⟩ := h
      obtain ⟨rest, rfl, hRest'⟩ := some_iff.mp h'
      rw [ih hRest hRest']

/-- Only the fields of the listed nodes matter. -/
theorem congr (h : IsList next link xs) (hSame : ∀ y ∈ xs, next' y = next y) :
    IsList next' link xs := by
  induction xs generalizing link with
  | nil => exact h
  | cons x xs ih =>
      rw [List.forall_mem_cons] at hSame
      refine ⟨h.1, ?_⟩
      rw [hSame.1]
      exact ih h.2 hSame.2

/-- The list behind some of its nodes. -/
theorem suffix (h : IsList next link (xs ++ ys)) : ∃ link', IsList next link' ys := by
  induction xs generalizing link with
  | nil => exact ⟨link, h⟩
  | cons x xs ih => exact ih h.2

theorem of_append (h : IsList next link (xs ++ x :: ys)) : IsList next (some x) (x :: ys) := by
  obtain ⟨link', h'⟩ := h.suffix
  exact h'.1 ▸ h'

/-- No node comes twice, since what comes after a node depends on the node only. -/
theorem nodup (h : IsList next link xs) : xs.Nodup := by
  induction xs generalizing link with
  | nil => exact List.nodup_nil
  | cons x xs ih =>
      refine List.nodup_cons.mpr ⟨fun hMem => ?_, ih h.2⟩
      obtain ⟨before, after, rfl⟩ := List.append_of_mem hMem
      have hSame := (of_append h.2).2.unique h.2
      have hLength := congrArg List.length hSame
      simp only [List.length_append, List.length_cons] at hLength
      omega

theorem length_le [Fintype Node] (h : IsList next link xs) : xs.length ≤ Fintype.card Node :=
  h.nodup.length_le_card

variable [DecidableEq Node]

theorem update_of_notMem {target : Option Node} (h : IsList next link xs) (hx : x ∉ xs) :
    IsList (Function.update next x target) link xs :=
  h.congr fun _ hy => Function.update_of_ne (ne_of_mem_of_not_mem hy hx) _ _

/-- A node that is not listed becomes the first. -/
theorem push (h : IsList next link xs) (hx : x ∉ xs) :
    IsList (Function.update next x link) (some x) (x :: xs) := by
  refine ⟨rfl, ?_⟩
  rw [Function.update_self]
  exact h.update_of_notMem hx

/-- The way to a node does not depend on the field of the node. -/
theorem exists_of_update {target : Option Node} (h : IsList next link (xs ++ x :: ys))
    (hx : x ∉ xs) {rest : List Node} (hRest : IsList (Function.update next x target) link rest) :
    ∃ zs, rest = xs ++ x :: zs := by
  induction xs generalizing link rest with
  | nil =>
      obtain rfl := h.1
      obtain ⟨zs, rfl, -⟩ := some_iff.mp hRest
      exact ⟨zs, rfl⟩
  | cons y xs ih =>
      rw [List.mem_cons, not_or] at hx
      obtain rfl := h.1
      obtain ⟨zs, rfl, hZs⟩ := some_iff.mp hRest
      rw [Function.update_of_ne (Ne.symm hx.1)] at hZs
      obtain ⟨after, rfl⟩ := ih h.2 hx.2 hZs
      exact ⟨after, rfl⟩

/-- A node that is listed already closes a circle when it is put in front. -/
theorem not_isList_push (h : IsList next link xs) (hx : x ∈ xs) (ys : List Node) :
    ¬ IsList (Function.update next x link) (some x) ys := by
  intro hList
  obtain ⟨before, after, rfl⟩ := List.append_of_mem hx
  have hNot : x ∉ before := by
    intro hMem
    exact (List.nodup_append.mp h.nodup).2.2 x hMem x (List.mem_cons_self ..) rfl
  obtain ⟨rest, rfl, hRest⟩ := some_iff.mp hList
  rw [Function.update_self] at hRest
  obtain ⟨zs, rfl⟩ := exists_of_update h hNot hRest
  exact (List.nodup_cons.mp hList.nodup).1 (List.mem_append_right _ (List.mem_cons_self ..))

/-- The link over a node leaves it out. -/
theorem unlink (h : IsList next link (xs ++ p :: x :: ys)) :
    IsList (Function.update next p (next x)) link (xs ++ p :: ys) := by
  have hNodup := h.nodup
  induction xs generalizing link with
  | nil =>
      refine ⟨h.1, ?_⟩
      rw [Function.update_self]
      refine h.2.2.update_of_notMem fun hMem => ?_
      exact (List.nodup_cons.mp hNodup).1 (List.mem_cons_of_mem _ hMem)
  | cons y xs ih =>
      rw [List.cons_append, List.nodup_cons] at hNodup
      refine ⟨h.1, ?_⟩
      rw [Function.update_of_ne]
      · exact ih h.2 hNodup.2
      · rintro rfl
        exact hNodup.1 (List.mem_append_right _ (List.mem_cons_self ..))

/-- The node before a node that is not the first, if there is one. -/
theorem find?_before (h : IsList next link xs) (hFirst : link ≠ some x) :
    xs.find? (fun y => next y = some x) = none ∧ x ∉ xs ∨
      ∃ front y after, xs = front ++ y :: x :: after ∧
        xs.find? (fun y => next y = some x) = some y := by
  cases hFind : xs.find? (fun y => next y = some x) with
  | none =>
      refine Or.inl ⟨rfl, fun hMem => ?_⟩
      obtain ⟨before, after, rfl⟩ := List.append_of_mem hMem
      rcases List.eq_nil_or_concat' before with rfl | ⟨front, y, rfl⟩
      · exact hFirst h.1
      · rw [List.append_assoc] at h
        have hNext : next y = some x := h.of_append.2.1
        have hIn : y ∈ front ++ [y] ++ x :: after := by simp
        simpa [hNext] using List.find?_eq_none.mp hFind y hIn
  | some y =>
      obtain ⟨hNext, front, rest, rfl, -⟩ := List.find?_eq_some_iff_append.mp hFind
      have hRest := h.of_append.2
      rw [of_decide_eq_true hNext] at hRest
      obtain ⟨after, rfl, -⟩ := some_iff.mp hRest
      exact Or.inr ⟨front, y, after, rfl, rfl⟩

/-- A node that gets a new link leads to what that link leads to. -/
theorem redirect {target : Option Node} (h : IsList next link (xs ++ x :: ys)) (hx : x ∉ xs)
    {zs : List Node} (hTarget : IsList next target zs) (hNew : x ∉ zs) :
    IsList (Function.update next x target) link (xs ++ x :: zs) := by
  induction xs generalizing link with
  | nil =>
      refine ⟨h.1, ?_⟩
      rw [Function.update_self]
      exact hTarget.update_of_notMem hNew
  | cons y xs ih =>
      rw [List.mem_cons, not_or] at hx
      refine ⟨h.1, ?_⟩
      rw [Function.update_of_ne (Ne.symm hx.1)]
      exact ih h.2 hx.2

end IsList

/-- A change of the fields that takes a node at most from any list. -/
def TakesOut (x : Node) (next next' : Node → Option Node) : Prop :=
  ∀ link xs, IsList next link xs →
    ∃ ys, IsList next' link ys ∧ (∀ y ∈ ys, y ∈ xs) ∧ ∀ y ∈ xs, y ≠ x → y ∈ ys

theorem TakesOut.refl (next : Node → Option Node) (x : Node) : TakesOut x next next :=
  fun _ xs h => ⟨xs, h, fun _ hy => hy, fun _ hy _ => hy⟩

theorem TakesOut.of_link [DecidableEq Node] {next : Node → Option Node} {p x : Node}
    (hp : next p = some x) : TakesOut x next (Function.update next p (next x)) := by
  intro link xs h
  by_cases hMem : p ∈ xs
  · obtain ⟨front, rest, rfl⟩ := List.append_of_mem hMem
    have hRest := h.of_append.2
    rw [hp] at hRest
    obtain ⟨after, rfl, -⟩ := IsList.some_iff.mp hRest
    refine ⟨front ++ p :: after, h.unlink, fun y hy => ?_, fun y hy hNe => ?_⟩
    · simp only [List.mem_append, List.mem_cons] at hy ⊢
      tauto
    · simp only [List.mem_append, List.mem_cons] at hy ⊢
      tauto
  · exact ⟨xs, h.update_of_notMem hMem, fun _ hy => hy, fun _ hy _ => hy⟩

/-! Loops over the nodes. A loop that has passed as many nodes as it may visits none
twice if the links end in a list, so with fuel for all nodes it fails only if they do not. -/

/-- `for(x = link; x != NULL; x = x->next) acc = f(acc, x)`. -/
def foldLinks {State : Type*} (next : Node → Option Node) (f : State → Node → State) :
    Nat → Option Node → State → Option State
  | _, none, acc => some acc
  | 0, some _, _ => none
  | fuel + 1, some x, acc => foldLinks next f fuel (next x) (f acc x)

/-- `for(x = link; x != NULL && !test(x); x = x->next)`. -/
def findLinks (next : Node → Option Node) (test : Node → Bool) :
    Nat → Option Node → Option (Option Node)
  | _, none => some none
  | 0, some _ => none
  | fuel + 1, some x => if test x = true then some (some x) else findLinks next test fuel (next x)

/-- The nodes that are passed on the way from a link. -/
def nodesFrom (next : Node → Option Node) : Nat → Option Node → List Node
  | 0, _ => []
  | _ + 1, none => []
  | fuel + 1, some x => x :: nodesFrom next fuel (next x)

section Loops

variable {State : Type*} {next : Node → Option Node} {link : Option Node} {xs : List Node}
  {f : State → Node → State} {acc : State} {test : Node → Bool} {fuel : Nat}

theorem foldLinks_eq (h : IsList next link xs) (hFuel : xs.length ≤ fuel) :
    foldLinks next f fuel link acc = some (xs.foldl f acc) := by
  induction xs generalizing link acc fuel with
  | nil =>
      obtain rfl := h
      cases fuel <;> rfl
  | cons x xs ih =>
      obtain ⟨fuel, rfl⟩ := Nat.exists_eq_add_of_lt hFuel
      obtain rfl := h.1
      exact ih h.2 (Nat.le_add_right _ _)

theorem nodesFrom_eq (h : IsList next link xs) (hFuel : xs.length ≤ fuel) :
    nodesFrom next fuel link = xs := by
  induction xs generalizing link fuel with
  | nil =>
      obtain rfl := h
      cases fuel <;> rfl
  | cons x xs ih =>
      obtain ⟨fuel, rfl⟩ := Nat.exists_eq_add_of_lt hFuel
      obtain rfl := h.1
      exact congrArg (x :: ·) (ih h.2 (Nat.le_add_right _ _))

/-- Without an end of the links there is none of the loop, whatever the fuel. -/
theorem foldLinks_eq_none (h : ∀ xs, ¬ IsList next link xs) :
    foldLinks next f fuel link acc = none := by
  induction fuel generalizing link acc with
  | zero =>
      cases link with
      | none => exact absurd rfl (h [])
      | some x => rfl
  | succ fuel ih =>
      cases link with
      | none => exact absurd rfl (h [])
      | some x => exact ih fun xs hxs => h (x :: xs) ⟨rfl, hxs⟩

theorem findLinks_eq (h : IsList next link xs) (hFuel : xs.length ≤ fuel) :
    findLinks next test fuel link = some (xs.find? test) := by
  induction xs generalizing link fuel with
  | nil =>
      obtain rfl := h
      cases fuel <;> rfl
  | cons x xs ih =>
      obtain ⟨fuel, rfl⟩ := Nat.exists_eq_add_of_lt hFuel
      obtain rfl := h.1
      have hRest : findLinks next test (xs.length + fuel) (next x) = some (xs.find? test) :=
        ih h.2 (Nat.le_add_right _ _)
      cases hTest : test x with
      | false =>
          rw [List.find?_cons_of_neg (by simp [hTest]), ← hRest, findLinks, if_neg (by simp [hTest])]
      | true =>
          rw [List.find?_cons_of_pos hTest, findLinks, if_pos hTest]

/-- A search that ends at once. -/
theorem findLinks_first {x : Node} (hTest : test x = true) (hFuel : 0 < fuel) :
    findLinks next test fuel (some x) = some (some x) := by
  cases fuel with
  | zero => exact absurd hFuel (Nat.lt_irrefl 0)
  | succ fuel => exact if_pos hTest

/-- The search for a node. -/
theorem findLinks_node [DecidableEq Node] {x : Node} (h : IsList next link xs)
    (hFuel : xs.length ≤ fuel) :
    findLinks next (fun y => y = x) fuel link = some (if x ∈ xs then some x else none) := by
  rw [findLinks_eq h hFuel]
  split
  · rename_i hMem
    cases hFind : xs.find? (fun y => y = x) with
    | none => simpa using List.find?_eq_none.mp hFind x hMem
    | some y =>
        have hSame := List.find?_some hFind
        rw [of_decide_eq_true hSame]
  · rename_i hNot
    rw [List.find?_eq_none.mpr fun y hy => by simpa using ne_of_mem_of_not_mem hy hNot]

end Loops

end Semantics
