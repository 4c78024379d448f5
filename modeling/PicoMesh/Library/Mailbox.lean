import Mathlib.Data.List.Basic
import Mathlib.Tactic.Common

/-!
# A mailbox with one place, over any type of message

`offer` leaves a message in an empty mailbox and is refused by a full one;
`take` empties it.  A mailbox keeps what was offered, what was taken and how
many offers were refused, and carries the two laws that hold of any sequence
of these operations: what was taken, and then what is pending, come in the
order in which they were offered (`ordered`), and every offer is taken, pending
or refused (`balanced`).
-/

/-- A **one-place mailbox** and its history. -/
structure Mailbox (α : Type*) where
  pending : Option α
  offered : List α
  taken : List α
  refused : ℕ
  /-- In the order of the offers, each at most once. -/
  ordered : (taken ++ pending.toList).Sublist offered
  /-- Every offer is accounted for once. -/
  balanced : offered.length = taken.length + pending.toList.length + refused

namespace Mailbox

variable {α : Type*}

/-- The mailbox before any offer. -/
def empty : Mailbox α where
  pending := none
  offered := []
  taken := []
  refused := 0
  ordered := List.Sublist.refl _
  balanced := rfl

/-- Offer a message: a full mailbox keeps the one it has. -/
def offer (mailbox : Mailbox α) (message : α) : Mailbox α :=
  if h : mailbox.pending = none then
    { pending := some message
      offered := mailbox.offered ++ [message]
      taken := mailbox.taken
      refused := mailbox.refused
      ordered := by
        have hordered := mailbox.ordered
        rw [h, Option.toList_none, List.append_nil] at hordered
        exact hordered.append (List.Sublist.refl [message])
      balanced := by
        have hbalanced := mailbox.balanced
        rw [h, Option.toList_none, List.length_nil] at hbalanced
        rw [List.length_append, List.length_singleton, Option.toList_some, List.length_singleton]
        omega }
  else
    { mailbox with
      offered := mailbox.offered ++ [message]
      refused := mailbox.refused + 1
      ordered := mailbox.ordered.trans (List.sublist_append_left _ _)
      balanced := by
        have hbalanced := mailbox.balanced
        rw [List.length_append, List.length_singleton]
        omega }

/-- Take the pending message, if there is one. -/
def take (mailbox : Mailbox α) : Mailbox α where
  pending := none
  offered := mailbox.offered
  taken := mailbox.taken ++ mailbox.pending.toList
  refused := mailbox.refused
  ordered := by
    rw [Option.toList_none, List.append_nil]
    exact mailbox.ordered
  balanced := by
    have hbalanced := mailbox.balanced
    rw [List.length_append, Option.toList_none, List.length_nil]
    omega

variable {mailbox : Mailbox α} {message : α}

@[simp] theorem pending_empty : (empty : Mailbox α).pending = none := rfl

@[simp] theorem offered_offer : (mailbox.offer message).offered = mailbox.offered ++ [message] := by
  unfold offer
  split_ifs <;> rfl

@[simp] theorem taken_offer : (mailbox.offer message).taken = mailbox.taken := by
  unfold offer
  split_ifs <;> rfl

/-- An offer to an empty mailbox is accepted. -/
theorem pending_offer_of_none (h : mailbox.pending = none) :
    (mailbox.offer message).pending = some message := by
  rw [offer, dif_pos h]

theorem refused_offer_of_none (h : mailbox.pending = none) :
    (mailbox.offer message).refused = mailbox.refused := by
  rw [offer, dif_pos h]

/-- An offer to a full mailbox is refused, and the pending message stays. -/
theorem pending_offer_of_some {unread : α} (h : mailbox.pending = some unread) :
    (mailbox.offer message).pending = some unread := by
  rw [offer, dif_neg (by rw [h]; exact Option.some_ne_none unread), h]

theorem refused_offer_of_some {unread : α} (h : mailbox.pending = some unread) :
    (mailbox.offer message).refused = mailbox.refused + 1 := by
  rw [offer, dif_neg (by rw [h]; exact Option.some_ne_none unread)]

@[simp] theorem pending_take : mailbox.take.pending = none := rfl

@[simp] theorem offered_take : mailbox.take.offered = mailbox.offered := rfl

@[simp] theorem taken_take : mailbox.take.taken = mailbox.taken ++ mailbox.pending.toList := rfl

@[simp] theorem refused_take : mailbox.take.refused = mailbox.refused := rfl

/-- What was taken comes in the order of the offers. -/
theorem taken_sublist (mailbox : Mailbox α) : mailbox.taken.Sublist mailbox.offered :=
  (List.sublist_append_left _ _).trans mailbox.ordered

end Mailbox
