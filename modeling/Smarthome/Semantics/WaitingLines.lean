import Mathlib.Data.List.Count
import Mathlib.Logic.Function.Basic
import Mathlib.Tactic.Common

/-! Jobs that wait in lines, one line for each key. A job is known by its place in the order
of submission. It may be refused at once; otherwise attempts are made at it when it is the
first of its line, until it leaves the line with an outcome. -/
namespace Semantics

inductive Entry (Attempt Outcome : Type*) where
  | attempt (job : Nat) (data : Attempt)
  | outcome (job : Nat) (data : Outcome)

namespace Entry

variable {Attempt Outcome : Type*} (job : Nat)

def isOutcome : Entry Attempt Outcome → Bool
  | attempt _ _ => false
  | outcome other _ => other = job

@[simp] theorem isOutcome_attempt (other : Nat) (a : Attempt) :
    (attempt other a : Entry Attempt Outcome).isOutcome job = false := rfl

@[simp] theorem isOutcome_outcome (other : Nat) (o : Outcome) :
    (outcome other o : Entry Attempt Outcome).isOutcome job = decide (other = job) := rfl

theorem isOutcome_iff {entry : Entry Attempt Outcome} :
    entry.isOutcome job = true ↔ ∃ o, entry = outcome job o := by
  cases entry with
  | attempt other a => simp
  | outcome other o => simp

end Entry

/-- How many outcomes a job has. -/
def outcomes {Attempt Outcome : Type*} (history : List (Entry Attempt Outcome)) (job : Nat) :
    Nat := history.countP (Entry.isOutcome job)

section Outcomes

variable {Attempt Outcome : Type*} {history : List (Entry Attempt Outcome)} {job : Nat}

@[simp] theorem outcomes_nil : outcomes ([] : List (Entry Attempt Outcome)) job = 0 := rfl

theorem outcomes_attempt (other : Nat) (a : Attempt) :
    outcomes (history ++ [.attempt other a]) job = outcomes history job := by
  simp [outcomes]

theorem outcomes_outcome (other : Nat) (o : Outcome) :
    outcomes (history ++ [.outcome other o]) job =
      outcomes history job + if other = job then 1 else 0 := by
  rw [outcomes, List.countP_append, List.countP_singleton]
  simp [outcomes]

theorem exists_of_outcomes (h : outcomes history job ≠ 0) : ∃ o, .outcome job o ∈ history := by
  obtain ⟨entry, hMem, hEntry⟩ := List.countP_pos_iff.mp (Nat.pos_of_ne_zero h)
  obtain ⟨o, rfl⟩ := (Entry.isOutcome_iff job).mp hEntry
  exact ⟨o, hMem⟩

end Outcomes

/-- The jobs in the order of submission, the lines, and what has happened. -/
structure Service (Job Key Attempt Outcome : Type*) where
  submitted : List Job
  waiting : Key → List Nat
  history : List (Entry Attempt Outcome)

namespace Service

variable {Job Key Attempt Outcome : Type*} [DecidableEq Key]

@[simps] def refuse (job : Job) (o : Outcome) (s : Service Job Key Attempt Outcome) :
    Service Job Key Attempt Outcome :=
  { s with
    submitted := s.submitted ++ [job]
    history := s.history ++ [.outcome s.submitted.length o] }

@[simps] def enlist (key : Job → Key) (job : Job) (s : Service Job Key Attempt Outcome) :
    Service Job Key Attempt Outcome :=
  { s with
    submitted := s.submitted ++ [job]
    waiting := Function.update s.waiting (key job) (s.waiting (key job) ++ [s.submitted.length]) }

@[simps] def attempt (number : Nat) (a : Attempt) (s : Service Job Key Attempt Outcome) :
    Service Job Key Attempt Outcome :=
  { s with history := s.history ++ [.attempt number a] }

/-- The first of a line leaves it. -/
@[simps] def finish (k : Key) (number : Nat) (o : Outcome) (s : Service Job Key Attempt Outcome) :
    Service Job Key Attempt Outcome :=
  { s with
    waiting := Function.update s.waiting k (s.waiting k).tail
    history := s.history ++ [.outcome number o] }

/-- Each job waits in the line of its key or has had its one outcome, and nothing was tried
before the jobs in front of it had theirs. -/
structure InOrder (key : Job → Key) (s : Service Job Key Attempt Outcome) : Prop where
  keyed : ∀ k, ∀ number ∈ s.waiting k, s.submitted[number]?.map key = some k
  sorted : ∀ k, (s.waiting k).Pairwise (· < ·)
  counted : ∀ number job, s.submitted[number]? = some job →
    outcomes s.history number + (s.waiting (key job)).count number = 1
  unknown : ∀ number, s.submitted.length ≤ number → outcomes s.history number = 0
  tried : ∀ number a, .attempt number a ∈ s.history → number < s.submitted.length
  ordered : ∀ before number a, before ++ [.attempt number a] <+: s.history →
    ∀ earlier < number, s.submitted[earlier]?.map key = s.submitted[number]?.map key →
      outcomes before earlier ≠ 0

namespace InOrder

variable {key : Job → Key} {s : Service Job Key Attempt Outcome} {number : Nat} {job : Job}
  {k : Key} {rest : List Nat}

section

omit [DecidableEq Key]

theorem empty : InOrder key (⟨[], fun _ => [], []⟩ : Service Job Key Attempt Outcome) where
  keyed _ _ hMem := by cases hMem
  sorted _ := List.Pairwise.nil
  counted _ _ hJob := by cases hJob
  unknown _ _ := rfl
  tried _ _ hMem := by cases hMem
  ordered _ _ _ hPrefix := by simp at hPrefix

theorem lt_length (h : InOrder key s) (hMem : number ∈ s.waiting k) :
    number < s.submitted.length := by
  have hKey := h.keyed k number hMem
  by_contra hNot
  rw [List.getElem?_eq_none (Nat.le_of_not_lt hNot)] at hKey
  cases hKey

theorem outcomes_le_one (h : InOrder key s) (number : Nat) : outcomes s.history number ≤ 1 := by
  rcases Nat.lt_or_ge number s.submitted.length with hLess | hLength
  · have hCounted := h.counted number _ (List.getElem?_eq_getElem hLess)
    omega
  · have hUnknown := h.unknown number hLength
    omega

/-- A job that does not wait has had its outcome. -/
theorem outcomes_eq_one (h : InOrder key s) (hJob : s.submitted[number]? = some job)
    (hNot : number ∉ s.waiting (key job)) : outcomes s.history number = 1 := by
  have hCounted := h.counted number job hJob
  rwa [List.count_eq_zero_of_not_mem hNot] at hCounted

/-- A job that waits has had none. -/
theorem outcomes_eq_zero (h : InOrder key s) (hMem : number ∈ s.waiting k) :
    outcomes s.history number = 0 := by
  have hKey := h.keyed k number hMem
  obtain ⟨job, hJob, rfl⟩ := Option.map_eq_some_iff.mp hKey
  have hCounted := h.counted number job hJob
  have hWaits := List.count_pos_iff.mpr hMem
  omega

/-- All jobs of the same line that came before the first have had their outcomes. -/
theorem outcomes_of_lt_first (h : InOrder key s) (hFirst : s.waiting k = number :: rest)
    {earlier : Nat} (hLess : earlier < number)
    (hSame : s.submitted[earlier]?.map key = s.submitted[number]?.map key) :
    outcomes s.history earlier ≠ 0 := by
  have hSorted := h.sorted k
  rw [h.keyed k number (by simp [hFirst])] at hSame
  obtain ⟨job, hJob, rfl⟩ := Option.map_eq_some_iff.mp hSame
  have hNot : earlier ∉ s.waiting (key job) := by
    rw [hFirst, List.pairwise_cons] at hSorted
    rw [hFirst, List.mem_cons]
    rintro (rfl | hMem)
    · omega
    · exact absurd (hSorted.1 earlier hMem) (by omega)
  rw [h.outcomes_eq_one hJob hNot]
  omega

/-- One more submission does not change the keys of those before. -/
theorem getElem?_append (hLess : number < s.submitted.length) :
    (s.submitted ++ [job])[number]? = s.submitted[number]? := List.getElem?_append_left hLess

/-- What has been tried stays in order when one more job is submitted. -/
theorem ordered_append (h : InOrder key s) {before : List (Entry Attempt Outcome)} {a : Attempt}
    (hPrefix : before ++ [.attempt number a] <+: s.history) {earlier : Nat}
    (hLess : earlier < number)
    (hSame : (s.submitted ++ [job])[earlier]?.map key = (s.submitted ++ [job])[number]?.map key) :
    outcomes before earlier ≠ 0 := by
  have hTried := h.tried number a (hPrefix.subset (by simp))
  rw [getElem?_append hTried, getElem?_append (Nat.lt_trans hLess hTried)] at hSame
  exact h.ordered before number a hPrefix earlier hLess hSame

theorem attempt (h : InOrder key s) (hFirst : s.waiting k = number :: rest) (a : Attempt) :
    InOrder key (s.attempt number a) where
  keyed := h.keyed
  sorted := h.sorted
  counted other job hJob := by
    rw [attempt_history, outcomes_attempt]
    exact h.counted other job hJob
  unknown other hLength := by
    rw [attempt_history, outcomes_attempt]
    exact h.unknown other hLength
  tried other b hMem := by
    rcases List.mem_append.mp hMem with hOld | hNew
    · exact h.tried other b hOld
    · obtain ⟨rfl, -⟩ : other = number ∧ b = a := by simpa using hNew
      have hMem : other ∈ s.waiting k := by simp [hFirst]
      exact h.lt_length hMem
  ordered before other b hPrefix earlier hLess hSame := by
    rcases List.prefix_concat_iff.mp hPrefix with hNew | hOld
    · obtain ⟨rfl, hEntry⟩ := List.append_inj' hNew rfl
      obtain ⟨rfl, -⟩ : other = number ∧ b = a := by simpa using hEntry
      exact h.outcomes_of_lt_first hFirst hLess hSame
    · exact h.ordered before other b hOld earlier hLess hSame

/-- An outcome is not an attempt. -/
theorem of_prefix_outcome {history before : List (Entry Attempt Outcome)} {other : Nat}
    {a : Attempt} {o : Outcome}
    (hPrefix : before ++ [.attempt number a] <+: history ++ [.outcome other o]) :
    before ++ [.attempt number a] <+: history := by
  rcases List.prefix_concat_iff.mp hPrefix with hNew | hOld
  · obtain ⟨-, hEntry⟩ := List.append_inj' hNew rfl
    simp at hEntry
  · exact hOld

theorem refuse (h : InOrder key s) (job : Job) (o : Outcome) :
    InOrder key (s.refuse job o) where
  keyed k number hMem := by
    rw [refuse_submitted, getElem?_append (h.lt_length hMem)]
    exact h.keyed k number hMem
  sorted := h.sorted
  counted number other hOther := by
    rw [refuse_history, refuse_waiting, outcomes_outcome]
    rw [refuse_submitted] at hOther
    rcases Nat.lt_or_ge number s.submitted.length with hLess | hLength
    · rw [getElem?_append hLess] at hOther
      rw [if_neg (by omega)]
      exact h.counted number other hOther
    · obtain rfl : number = s.submitted.length := by
        have hBound := (List.getElem?_eq_some_iff.mp hOther).1
        rw [List.length_append, List.length_singleton] at hBound
        omega
      have hNot : s.submitted.length ∉ s.waiting (key other) :=
        fun hMem => absurd (h.lt_length hMem) (Nat.lt_irrefl _)
      rw [h.unknown _ hLength, if_pos rfl, List.count_eq_zero_of_not_mem hNot]
  unknown number hLength := by
    rw [refuse_submitted, List.length_append, List.length_singleton] at hLength
    rw [refuse_history, outcomes_outcome, h.unknown number (by omega), if_neg (by omega)]
  tried number a hMem := by
    have hOld : .attempt number a ∈ s.history := by
      simpa using hMem
    have hTried := h.tried number a hOld
    rw [refuse_submitted, List.length_append]
    omega
  ordered before number a hPrefix earlier hLess hSame :=
    h.ordered_append (of_prefix_outcome hPrefix) hLess hSame

end

theorem enlist (h : InOrder key s) (job : Job) : InOrder key (s.enlist key job) where
  keyed k number hMem := by
    rw [enlist_waiting] at hMem
    rw [enlist_submitted]
    by_cases hKey : k = key job
    · rw [hKey, Function.update_self, List.mem_append, List.mem_singleton] at hMem
      rcases hMem with hOld | rfl
      · rw [getElem?_append (h.lt_length hOld), hKey]
        exact h.keyed _ number hOld
      · simp [hKey]
    · rw [Function.update_of_ne hKey] at hMem
      rw [getElem?_append (h.lt_length hMem)]
      exact h.keyed k number hMem
  sorted k := by
    rw [enlist_waiting]
    by_cases hKey : k = key job
    · rw [hKey, Function.update_self, List.pairwise_append]
      refine ⟨h.sorted _, List.pairwise_singleton _ _, fun number hMem other hOther => ?_⟩
      rw [List.mem_singleton.mp hOther]
      exact h.lt_length hMem
    · rw [Function.update_of_ne hKey]
      exact h.sorted k
  counted number other hOther := by
    rw [enlist_history, enlist_waiting]
    rw [enlist_submitted] at hOther
    rcases Nat.lt_or_ge number s.submitted.length with hLess | hLength
    · rw [getElem?_append hLess] at hOther
      have hCounted := h.counted number other hOther
      by_cases hKey : key other = key job
      · rw [hKey] at hCounted
        rw [hKey, Function.update_self, List.count_append, List.count_singleton]
        rw [if_neg (by simpa using (Nat.ne_of_lt hLess).symm)]
        exact hCounted
      · rw [Function.update_of_ne hKey]
        exact hCounted
    · obtain rfl : number = s.submitted.length := by
        have hBound := (List.getElem?_eq_some_iff.mp hOther).1
        rw [List.length_append, List.length_singleton] at hBound
        omega
      obtain rfl : job = other := by simpa using hOther
      have hNot : s.submitted.length ∉ s.waiting (key job) :=
        fun hMem => absurd (h.lt_length hMem) (Nat.lt_irrefl _)
      rw [h.unknown _ hLength, Function.update_self, List.count_append,
        List.count_eq_zero_of_not_mem hNot]
      simp
  unknown number hLength := by
    rw [enlist_submitted, List.length_append, List.length_singleton] at hLength
    exact h.unknown number (by omega)
  tried number a hMem := by
    have hTried := h.tried number a hMem
    rw [enlist_submitted, List.length_append]
    omega
  ordered before number a hPrefix earlier hLess hSame := h.ordered_append hPrefix hLess hSame

theorem finish (h : InOrder key s) (hFirst : s.waiting k = number :: rest) (o : Outcome) :
    InOrder key (s.finish k number o) := by
  have hLine (other : Key) : ((s.finish k number o).waiting other).Sublist (s.waiting other) := by
    rw [finish_waiting]
    by_cases hKey : other = k
    · rw [hKey, Function.update_self]
      exact List.tail_sublist _
    · simp [Function.update_of_ne hKey]
  refine {
    keyed := fun other n hMem => h.keyed other n ((hLine other).subset hMem)
    sorted := fun other => (h.sorted other).sublist (hLine other)
    counted := ?_
    unknown := ?_
    tried := ?_
    ordered := fun before n a hPrefix => h.ordered before n a (of_prefix_outcome hPrefix) }
  · intro n job hJob
    rw [finish_submitted] at hJob
    have hCounted := h.counted n job hJob
    rw [finish_history, finish_waiting, outcomes_outcome]
    by_cases hKey : key job = k
    · rw [hKey, hFirst, List.count_cons] at hCounted
      rw [hKey, Function.update_self, hFirst, List.tail_cons]
      by_cases hNumber : number = n
      · rw [hNumber] at hCounted ⊢
        simp only [BEq.rfl, if_true] at hCounted ⊢
        omega
      · rw [if_neg (by simpa using hNumber)] at hCounted
        rw [if_neg hNumber]
        exact hCounted
    · have hOther : number ≠ n := by
        rintro rfl
        have hFound := h.keyed k number (by simp [hFirst])
        rw [hJob, Option.map_some, Option.some.injEq] at hFound
        exact hKey hFound
      rw [Function.update_of_ne hKey, if_neg hOther]
      exact hCounted
  · intro n hLength
    have hMem : number ∈ s.waiting k := by simp [hFirst]
    have hLess := h.lt_length hMem
    rw [finish_submitted] at hLength
    rw [finish_history, outcomes_outcome, h.unknown n hLength, if_neg (by omega)]
  · intro n a hMem
    have hOld : .attempt n a ∈ s.history := by simpa using hMem
    exact h.tried n a hOld

end InOrder

end Service

end Semantics
