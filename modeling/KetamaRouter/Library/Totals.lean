import Mathlib.Algebra.BigOperators.Group.Finset.Piecewise
import Mathlib.Algebra.Order.BigOperators.Group.Finset

/-!
# Totals over parties

A total of what each party has, and how it moves when one party's share does.
-/

namespace Totals

variable {Party Share : Type} [DecidableEq Party] [AddCommMonoid Share]
  {parties : Finset Party} {party : Party} {share other : Party → Share}

/-- A total grows by what the share of one party grows by. -/
theorem sum_grows {more : Share} (member : party ∈ parties)
    (grows : other party = share party + more)
    (others : ∀ one ∈ parties, one ≠ party → other one = share one) :
    ∑ one ∈ parties, other one = ∑ one ∈ parties, share one + more := by
  have rest : ∑ one ∈ parties.erase party, other one =
      ∑ one ∈ parties.erase party, share one := by
    apply Finset.sum_congr rfl
    intro one member
    exact others one (Finset.mem_of_mem_erase member)
      (Finset.ne_of_mem_erase member)
  rw [← Finset.add_sum_erase parties other member,
    ← Finset.add_sum_erase parties share member, rest, grows,
    add_right_comm]

/-- Counting by party loses nothing. -/
theorem sum_countP {Item : Type} {items : List Item} {party : Item → Party}
    (belongs : ∀ item ∈ items, party item ∈ parties) :
    ∑ one ∈ parties, items.countP (fun item => party item = one) =
      items.length := by
  induction items with
  | nil => simp
  | cons item items induction =>
      have rest := induction fun other member =>
        belongs other (List.mem_cons_of_mem item member)
      have mine : party item ∈ parties := belongs item List.mem_cons_self
      simp only [List.countP_cons, Finset.sum_add_distrib, rest,
        decide_eq_true_eq, Finset.sum_ite_eq, mine, if_true,
        List.length_cons]

end Totals
