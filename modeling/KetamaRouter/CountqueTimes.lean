import Mathlib.Tactic.Linarith
import KetamaRouter.Source.Countque

/-!
# Times of a counter

What the time arithmetic of `countque.c` computes for times that are not
negative and for a window that fits an `int`.
-/

namespace KetamaRouter

/-- Arithmetic that wraps where C leaves the result open. -/
def SignedArithmetic.wrapping : SignedArithmetic where
  mulInt a b := a * b
  subTime a b := a - b
  mulInt_fits a b low high := by
    rw [Int32.toInt_mul]
    apply Int.bmod_eq_of_le <;> omega
  subTime_fits a b low high := by
    rw [Int64.toInt_sub]
    apply Int.bmod_eq_of_le <;> omega

variable {term t : Int64} {ticPerSec : Int64} {ticMaxCnt : UInt32}

/-! ## Base times -/

def baseOf (ticPerSec : Int64) (t : Int64) : ℤ :=
  t.toInt - t.toInt % ticPerSec.toInt

theorem baseOf_eq (term t : Int64) :
    baseOf term t = term.toInt * (t.toInt / term.toInt) := by
  unfold baseOf
  exact sub_eq_of_eq_add (Int.mul_ediv_add_emod t.toInt term.toInt).symm

theorem dvd_baseOf (term t : Int64) : term.toInt ∣ baseOf term t :=
  Dvd.intro _ (baseOf_eq term t).symm

theorem baseOf_nonneg (period : 1 ≤ term.toInt) (time : 0 ≤ t.toInt) :
    0 ≤ baseOf term t := by
  rw [baseOf_eq]
  exact mul_nonneg (Int.one_nonneg.trans period)
    (Int.ediv_nonneg time (Int.one_nonneg.trans period))

/-- Base times are in the order of the times. -/
theorem baseOf_mono {later : Int64} (period : 1 ≤ term.toInt)
    (order : t.toInt ≤ later.toInt) : baseOf term t ≤ baseOf term later := by
  have positive : 0 < term.toInt := period
  rw [baseOf_eq, baseOf_eq]
  exact mul_le_mul_of_nonneg_left (Int.ediv_le_ediv positive order) positive.le

/-- A positive period divides every time. -/
theorem getBaseTimeByTime_run {σ : Type} (period : 1 ≤ term.toInt)
    (t : Int64) :
    (fromExcept (getBaseTimeByTime term t) : EStateM Fault σ Int64) =
      pure (baseTimeBy term t) := by
  have divides : ¬ (term = 0 ∨ t = Int64.minValue ∧ term = -1) := by
    rintro (zero | ⟨-, negative⟩)
    · rw [zero] at period
      exact absurd period (by decide)
    · rw [negative] at period
      exact absurd period (by decide)
  unfold getBaseTimeByTime
  rw [if_neg divides]
  rfl

/-- A period of zero divides none. -/
theorem getBaseTimeByTime_zero (t : Int64) :
    getBaseTimeByTime 0 t = .error .division :=
  rfl

theorem baseTimeBy_toInt (period : 1 ≤ term.toInt) (time : 0 ≤ t.toInt) :
    (baseTimeBy term t).toInt = baseOf term t := by
  have rest : (t % term).toInt = t.toInt % term.toInt := by
    rw [Int64.toInt_mod, Int.tmod_eq_emod_of_nonneg time]
  have low := baseOf_nonneg period time
  have restNonneg := Int.emod_nonneg t.toInt (Int.ne_of_gt period)
  have high := t.toInt_lt
  unfold baseTimeBy
  rw [Int64.toInt_sub, rest]
  unfold baseOf at low ⊢
  apply Int.bmod_eq_of_le <;> omega

/-! ## Expiry times -/

/-- The length of a window in seconds. -/
def windowLength (ticPerSec : Int64) (ticMaxCnt : UInt32) : ℤ :=
  ticPerSec.toInt * ticMaxCnt.toNat

theorem windowLength_pos (perSec : 1 ≤ ticPerSec.toInt)
    (maxCnt : 1 ≤ ticMaxCnt.toNat) : 0 < windowLength ticPerSec ticMaxCnt := by
  unfold windowLength
  have count : (0 : ℤ) < ticMaxCnt.toNat := by omega
  exact mul_pos (lt_of_lt_of_le Int.one_pos perSec) count

/-- The expiry time is exact if the window fits an `int`. -/
theorem getTtlTime_toInt (machine : SignedArithmetic) {baseTime : Int64}
    (perSec : 1 ≤ ticPerSec.toInt) (maxCnt : 1 ≤ ticMaxCnt.toNat)
    (fits : windowLength ticPerSec ticMaxCnt < 2 ^ 31)
    (time : 0 ≤ baseTime.toInt) :
    (getTtlTime machine baseTime ticPerSec.toInt32 ticMaxCnt.toInt32).toInt =
      baseTime.toInt - windowLength ticPerSec ticMaxCnt := by
  have positive := windowLength_pos perSec maxCnt
  have perSecLe : ticPerSec.toInt ≤ windowLength ticPerSec ticMaxCnt := by
    unfold windowLength
    nlinarith
  have maxCntLe : (ticMaxCnt.toNat : ℤ) ≤ windowLength ticPerSec ticMaxCnt := by
    unfold windowLength
    nlinarith
  have perSecInt : ticPerSec.toInt32.toInt = ticPerSec.toInt := by
    rw [Int64.toInt_toInt32]
    apply Int.bmod_eq_of_le <;> omega
  have maxCntInt : ticMaxCnt.toInt32.toInt = ticMaxCnt.toNat := by
    have small : 2 * ticMaxCnt.toNat < 2 ^ 32 := by omega
    rw [← Int32.toInt_toBitVec, UInt32.toBitVec_toInt32]
    exact BitVec.toInt_eq_toNat_of_lt small
  have product := machine.mulInt_fits ticPerSec.toInt32 ticMaxCnt.toInt32
  rw [perSecInt, maxCntInt] at product
  have window := product (by unfold windowLength at positive; linarith) fits
  have bound := baseTime.toInt_lt
  unfold getTtlTime
  have difference := machine.subTime_fits baseTime
    (machine.mulInt ticPerSec.toInt32 ticMaxCnt.toInt32).toInt64
  rw [Int32.toInt_toInt64, window] at difference
  unfold windowLength at *
  exact difference (by omega) (by omega)

/-- What is subtracted is an `int`, whatever the window is. -/
theorem getTtlTime_zero (machine : SignedArithmetic) (a b : Int32) :
    (getTtlTime machine 0 a b).toInt = -(machine.mulInt a b).toInt := by
  have low := (machine.mulInt a b).le_toInt
  have high := (machine.mulInt a b).toInt_lt
  have difference := machine.subTime_fits 0 (machine.mulInt a b).toInt64
  rw [Int32.toInt_toInt64, Int64.toInt_zero] at difference
  unfold getTtlTime
  rw [difference (by omega) (by omega)]
  omega

end KetamaRouter
