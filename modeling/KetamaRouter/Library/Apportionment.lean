import Mathlib.Algebra.BigOperators.Group.List.Basic
import Mathlib.Algebra.Order.Group.Nat
import Mathlib.Algebra.Ring.Nat

/-!
# Shares rounded down

A pool is shared out in proportion to weights and every share is rounded down.
The shares never overspend the pool, and what they leave over is less than one
unit for each weight.
-/

namespace Apportionment

variable {pool total : Nat} {weights : List Nat}

/-- The share of one weight. -/
def share (pool total weight : Nat) : Nat :=
  pool * weight / total

def shares (pool total : Nat) (weights : List Nat) : List Nat :=
  weights.map (share pool total)

theorem share_mono {smaller larger : Nat} (ordered : smaller ≤ larger) :
    share pool total smaller ≤ share pool total larger := by
  unfold share
  apply Nat.div_le_div_right
  exact Nat.mul_le_mul_left pool ordered

/-- Shares and remainders account for the whole pool. -/
theorem sum_shares_add_sum_mod (pool total : Nat) (weights : List Nat) :
    total * (shares pool total weights).sum +
        (weights.map fun weight => pool * weight % total).sum =
      pool * weights.sum := by
  induction weights with
  | nil => rfl
  | cons weight weights induction =>
      have divided := Nat.div_add_mod (pool * weight) total
      simp only [shares, share, List.map_cons, List.sum_cons, Nat.mul_add]
        at induction ⊢
      omega

theorem sum_shares_le (whole : weights.sum = total) (positive : 0 < total) :
    (shares pool total weights).sum ≤ pool := by
  have account := sum_shares_add_sum_mod pool total weights
  rw [whole, Nat.mul_comm pool total] at account
  have below : total * (shares pool total weights).sum ≤ total * pool :=
    Nat.le.intro account
  exact Nat.le_of_mul_le_mul_left below positive

/-- Each remainder is less than the total. -/
theorem sum_mod_add_length_le (positive : 0 < total) :
    (weights.map fun weight => pool * weight % total).sum + weights.length ≤
      total * weights.length := by
  induction weights with
  | nil => exact Nat.zero_le _
  | cons weight weights induction =>
      have remainder := Nat.mod_lt (pool * weight) positive
      simp only [List.map_cons, List.sum_cons, List.length_cons,
        Nat.mul_succ]
      omega

theorem lt_sum_shares (whole : weights.sum = total) (positive : 0 < total) :
    pool < (shares pool total weights).sum + weights.length := by
  have account := sum_shares_add_sum_mod pool total weights
  have bound := @sum_mod_add_length_le pool total weights positive
  have some : 0 < weights.length := by
    apply List.length_pos_of_ne_nil
    intro empty
    rw [empty] at whole
    exact absurd whole.symm positive.ne'
  rw [whole, Nat.mul_comm pool total] at account
  have below : total * pool <
      total * ((shares pool total weights).sum + weights.length) := by
    rw [Nat.mul_add]
    omega
  exact Nat.lt_of_mul_lt_mul_left below

end Apportionment
