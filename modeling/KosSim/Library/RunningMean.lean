import Mathlib.Algebra.BigOperators.Intervals
import Mathlib.Algebra.Order.BigOperators.Group.Finset
import Mathlib.Algebra.Order.Field.Basic
import Mathlib.Tactic.FieldSimp
import Mathlib.Tactic.Ring

/-! A mean kept incrementally over the samples 1, 2, ..: the mean of the first n
times n, plus the next sample, divided by n + 1. -/

namespace KosSim.Library

open Finset

variable {K : Type*} [Field K]

def runningMean (sample : Nat → K) : Nat → K
  | 0 => 0
  | n + 1 => (runningMean sample n * n + sample (n + 1)) / (n + 1 : Nat)

theorem running_mean_exact [CharZero K] (sample : Nat → K) (n : Nat) :
    runningMean sample n = 1 / n * ∑ i ∈ Icc 1 n, sample i := by
  induction n with
  | zero => simp [runningMean]
  | succ n ih =>
      have nonzero : ((n + 1 : Nat) : K) ≠ 0 := Nat.cast_ne_zero.mpr n.succ_ne_zero
      have total : runningMean sample n * n = ∑ i ∈ Icc 1 n, sample i := by
        rw [ih]
        cases n with
        | zero => simp
        | succ k =>
            have divisor : ((k + 1 : Nat) : K) ≠ 0 := Nat.cast_ne_zero.mpr k.succ_ne_zero
            field_simp
      rw [runningMean, total, sum_Icc_succ_top (by omega)]
      ring

variable [LinearOrder K] [IsStrictOrderedRing K]

theorem running_mean_bounds (sample : Nat → K) (lower : ∀ i, 0 ≤ sample i)
    (upper : ∀ i, sample i ≤ 1) (n : Nat) :
    0 ≤ runningMean sample n ∧ runningMean sample n ≤ 1 := by
  induction n with
  | zero => simp [runningMean]
  | succ n ih =>
      have positive : (0 : K) < (n + 1 : Nat) := Nat.cast_pos.mpr n.succ_pos
      have weighted : runningMean sample n * n ≤ n := mul_le_of_le_one_left (Nat.cast_nonneg n) ih.2
      constructor
      · exact div_nonneg (add_nonneg (mul_nonneg ih.1 (Nat.cast_nonneg n)) (lower (n + 1))) positive.le
      · rw [runningMean, div_le_one positive, Nat.cast_add, Nat.cast_one]
        exact add_le_add weighted (upper (n + 1))

end KosSim.Library
