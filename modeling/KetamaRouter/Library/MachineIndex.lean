import Mathlib.Algebra.Group.Nat.Defs
import Mathlib.Data.Int.Notation

/-!
# Machine integers as counters and indices

An `Int32` made from a natural number below half of its range behaves like that
number: in comparisons, one step down, and in the middle of an interval as long
as the sum of its ends stays below that half.  A larger sum wraps around to a
negative middle.
-/

namespace MachineIndex

/-- An index below half the range of `int` is not negative. -/
theorem ofNat_not_neg {index : Nat} (small : index < 2 ^ 31) :
    ¬ Int32.ofNat index < 0 := by
  intro negative
  have below := (Int32.ofNat_lt_iff_lt small (by decide)).mp negative
  exact Nat.not_lt_zero index below

/-- From half the range on it is. -/
theorem ofNat_neg {count : Nat} (wide : 2 ^ 31 ≤ count)
    (bounded : count < 2 ^ 32) : Int32.ofNat count < 0 := by
  rw [Int32.lt_iff_toInt_lt, Int32.toInt_ofNat', Int32.toInt_zero,
    Int.bmod_def]
  change (if (count : ℤ) % 4294967296 < 2147483648 then
    (count : ℤ) % 4294967296 else (count : ℤ) % 4294967296 - 4294967296) < 0
  split
  · omega
  · omega

theorem ofNat_inj {left right : Nat} (smallLeft : left < 2 ^ 31)
    (smallRight : right < 2 ^ 31) :
    Int32.ofNat left = Int32.ofNat right ↔ left = right := by
  rw [← Int32.toInt_inj, Int32.toInt_ofNat_of_lt smallLeft,
    Int32.toInt_ofNat_of_lt smallRight]
  exact Int.natCast_inj

theorem ofNat_succ_sub_one (index : Nat) :
    Int32.ofNat (index + 1) - 1 = Int32.ofNat index :=
  (Int32.ofNat_sub (index + 1) 1 (Nat.le_add_left 1 index)).symm

/-- The middle of an interval, as long as the sum of its ends is an `int`. -/
theorem middle_run {lowp highp : Nat} (fits : lowp + highp < 2 ^ 31) :
    (Int32.ofNat lowp + Int32.ofNat highp) / 2 =
      Int32.ofNat ((lowp + highp) / 2) := by
  rw [← Int32.ofNat_add]
  exact (Int32.ofNat_div fits (by decide)).symm

/-- A sum beyond that makes it negative. -/
theorem middle_wraps {lowp highp : Nat} (wide : 2 ^ 31 ≤ lowp + highp)
    (low : lowp < 2 ^ 31) (high : highp < 2 ^ 31) :
    (Int32.ofNat lowp + Int32.ofNat highp) / 2 < 0 := by
  have sum : (Int32.ofNat lowp + Int32.ofNat highp).toInt =
      lowp + highp - 2 ^ 32 := by
    rw [Int32.toInt_add, Int32.toInt_ofNat_of_lt low,
      Int32.toInt_ofNat_of_lt high, Int.bmod_def]
    split
    · omega
    · omega
  rw [Int32.lt_iff_toInt_lt, Int32.toInt_div_of_ne_right _ _ (by decide), sum]
  have two : (2 : Int32).toInt = 2 := rfl
  rw [two, Int32.toInt_zero, Int.tdiv_eq_ediv, show Int.sign 2 = 1 from rfl]
  split
  · omega
  · omega

/-! ## Counters -/

/-- Doubling below half of the range does not wrap. -/
theorem doubled_toNat {count : UInt32} (small : count.toNat < 2 ^ 31) :
    (count * 2).toNat = count.toNat * 2 := by
  rw [UInt32.toNat_mul]
  apply Nat.mod_eq_of_lt
  change _ * 2 < _
  omega

theorem succ_toNat {count : UInt32} (small : count.toNat < 2 ^ 31) :
    (count + 1).toNat = count.toNat + 1 := by
  rw [UInt32.toNat_add]
  apply Nat.mod_eq_of_lt
  change _ + 1 < _
  omega

end MachineIndex
