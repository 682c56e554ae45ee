import Mathlib.Data.Multiset.AddSub
import Mathlib.Data.Multiset.UnionInter

/-!
# Ledgers of items taken and returned

A ledger lists, newest first, which items were handed out and which were given
back.  `outstanding` replays it and is undefined as soon as an item is handed
to a second holder or returned by somebody who does not hold it, so a defined
value certifies that every return was the first return of its item.
-/

namespace Ledger

inductive Entry (α : Type) where
  | taken (item : α)
  | returned (item : α)
  deriving DecidableEq, Repr

variable {α : Type} [DecidableEq α]

def outstanding : List (Entry α) → Option (Multiset α)
  | [] => some 0
  | .taken item :: earlier =>
      (outstanding earlier).bind fun held =>
        if item ∈ held then none else some (item ::ₘ held)
  | .returned item :: earlier =>
      (outstanding earlier).bind fun held =>
        if item ∈ held then some (held.erase item) else none

@[simp] theorem outstanding_nil :
    outstanding ([] : List (Entry α)) = some 0 :=
  rfl

theorem outstanding_taken {earlier : List (Entry α)} {held : Multiset α}
    {item : α} (before : outstanding earlier = some held)
    (free : item ∉ held) :
    outstanding (.taken item :: earlier) = some (item ::ₘ held) := by
  simp [outstanding, before, free]

theorem outstanding_returned {earlier : List (Entry α)} {held : Multiset α}
    {item : α} (before : outstanding earlier = some (item ::ₘ held)) :
    outstanding (.returned item :: earlier) = some held := by
  simp [outstanding, before]

/-- Nothing is ever held twice. -/
theorem outstanding_nodup {ledger : List (Entry α)} {held : Multiset α}
    (defined : outstanding ledger = some held) : held.Nodup := by
  induction ledger generalizing held with
  | nil =>
      cases defined
      exact Multiset.nodup_zero
  | cons entry earlier induction =>
      cases entry with
      | taken item =>
          obtain ⟨before, heldBefore, step⟩ := Option.bind_eq_some_iff.mp defined
          split at step
          · cases step
          · rename_i free
            cases step
            exact Multiset.nodup_cons.mpr ⟨free, induction heldBefore⟩
      | returned item =>
          obtain ⟨before, heldBefore, step⟩ := Option.bind_eq_some_iff.mp defined
          split at step
          · cases step
            exact Multiset.nodup_of_le (Multiset.erase_le item before)
              (induction heldBefore)
          · cases step

end Ledger
