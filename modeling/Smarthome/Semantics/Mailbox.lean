import Mathlib.Data.List.Basic

/-! A mailbox that holds one message. Putting a message replaces the one that is
there, and what is lost is never delivered later. -/
namespace Semantics

/-- The mailbox, with all messages put into it and all taken out of it so far. -/
structure Mailbox (Message : Type*) where
  content : Option Message
  accepted : List Message
  delivered : List Message
  deriving DecidableEq

namespace Mailbox

variable {Message : Type*}

inductive Operation (Message : Type*) where
  | put (message : Message)
  | take
  /-- The mailbox is emptied without a delivery. -/
  | clear
  | skip

def empty : Mailbox Message := ⟨none, [], []⟩

def apply (box : Mailbox Message) : Operation Message → Mailbox Message
  | .put message => { box with content := some message, accepted := box.accepted ++ [message] }
  | .take => { box with content := none, delivered := box.delivered ++ box.content.toList }
  | .clear => { box with content := none }
  | .skip => box

/-- Each accepted message has been delivered once, in order, or is the one waiting. -/
def Exact (box : Mailbox Message) : Prop := box.delivered ++ box.content.toList = box.accepted

instance [DecidableEq Message] (box : Mailbox Message) : Decidable box.Exact :=
  inferInstanceAs (Decidable (_ = _))

/-- Fewer messages are delivered or waiting than were accepted. -/
def Short (box : Mailbox Message) : Prop :=
  box.delivered.length + box.content.toList.length < box.accepted.length

/-- Nothing is replaced, and nothing thrown away. -/
def Safe (box : Mailbox Message) : Operation Message → Prop
  | .put _ => box.content = none
  | .take => True
  | .clear => box.content = none
  | .skip => True

variable {box : Mailbox Message} {operation : Operation Message}

theorem Short.not_exact (h : box.Short) : ¬ box.Exact := by
  intro hExact
  have hLength := congrArg List.length hExact
  rw [List.length_append] at hLength
  exact Nat.ne_of_lt h hLength

theorem Exact.apply (h : box.Exact) (hSafe : box.Safe operation) : (box.apply operation).Exact := by
  unfold Exact at h
  cases operation with
  | put message =>
      have hEmpty : box.content = none := hSafe
      simpa [Exact, Mailbox.apply, hEmpty] using h
  | take => simpa [Exact, Mailbox.apply] using h
  | clear =>
      have hEmpty : box.content = none := hSafe
      simpa [Exact, Mailbox.apply, hEmpty] using h
  | skip => exact h

/-- An operation that is not safe loses the message that was waiting. -/
theorem Exact.short_apply (h : box.Exact) (hLost : ¬ box.Safe operation) :
    (box.apply operation).Short := by
  have hLength := congrArg List.length h
  rw [List.length_append] at hLength
  cases operation with
  | put message =>
      obtain ⟨lost, hContent⟩ := Option.ne_none_iff_exists'.mp hLost
      rw [hContent] at hLength
      simp [Short, Mailbox.apply] at hLength ⊢
      omega
  | take => exact absurd trivial hLost
  | clear =>
      obtain ⟨lost, hContent⟩ := Option.ne_none_iff_exists'.mp hLost
      rw [hContent] at hLength
      simp [Short, Mailbox.apply] at hLength ⊢
      omega
  | skip => exact absurd trivial hLost

theorem Short.apply (h : box.Short) : (box.apply operation).Short := by
  unfold Short at h ⊢
  cases operation with
  | put message =>
      simp [Mailbox.apply]
      omega
  | take =>
      simp [Mailbox.apply]
      omega
  | clear =>
      simp [Mailbox.apply]
      omega
  | skip => exact h

end Mailbox
end Semantics
