import Mathlib.Algebra.BigOperators.Intervals
import Mathlib.Algebra.Order.Floor.Ring
import Mathlib.Algebra.Order.Archimedean.Basic
import Mathlib.Tactic.Linarith
import Mathlib.Tactic.FieldSimp
import Mathlib.Tactic.Ring
import Mathlib.Tactic.Positivity

/-!
Rounding to the multiples of a unit, half away from zero, and a total that is rounded
after every addend. What is stored is already a multiple, so each addend is rounded by
itself: the total is exact for multiples, and equal addends drift by equal amounts.
-/

namespace KosSim.Library
open Finset

section Rounding
variable {K : Type} [Field K] [LinearOrder K] [IsStrictOrderedRing K] [FloorRing K]

def roundHalfAway (x : K) : Int := if 0 ≤ x then ⌊x + 1 / 2⌋ else -⌊-x + 1 / 2⌋

def roundTo (unit x : K) : K := roundHalfAway (x / unit) * unit

def roundedSum (unit : K) (addend : Nat → K) : Nat → K
  | 0 => 0
  | n + 1 => roundTo unit (addend (n + 1) + roundedSum unit addend n)

theorem round_half_away_nonneg {x : K} (nonneg : 0 ≤ x) : 0 ≤ roundHalfAway x := by
  rw [roundHalfAway, if_pos nonneg]
  exact Int.floor_nonneg.mpr (by positivity)

theorem round_half_away_add {x : K} (nonneg : 0 ≤ x) {n : Int} (whole : 0 ≤ n) :
    roundHalfAway (x + n) = roundHalfAway x + n := by
  have total : 0 ≤ x + n := add_nonneg nonneg (by exact_mod_cast whole)
  rw [roundHalfAway, roundHalfAway, if_pos nonneg, if_pos total, add_right_comm, Int.floor_add_intCast]

theorem round_half_away_int {n : Int} (whole : 0 ≤ n) : roundHalfAway (n : K) = n := by
  have zero : roundHalfAway (0 : K) = 0 := by
    rw [roundHalfAway, if_pos le_rfl, zero_add, Int.floor_eq_zero_iff]
    constructor <;> linarith [one_half_lt_one (α := K), one_half_pos (α := K)]
  have shifted := round_half_away_add (le_refl (0 : K)) whole
  rw [zero_add, zero, zero_add] at shifted
  exact shifted

section Unit
variable {unit : K} (positive : 0 < unit)
include positive

/-- A multiple comes out of the rounding unrounded. -/
theorem round_to_add {x : K} (nonneg : 0 ≤ x) {n : Int} (whole : 0 ≤ n) :
    roundTo unit (x + n * unit) = roundTo unit x + n * unit := by
  rw [roundTo, roundTo, add_div, mul_div_cancel_right₀ _ positive.ne',
    round_half_away_add (div_nonneg nonneg positive.le) whole]
  push_cast
  ring

theorem round_to_mul {n : Int} (whole : 0 ≤ n) : roundTo unit (n * unit) = n * unit := by
  rw [roundTo, mul_div_cancel_right₀ _ positive.ne', round_half_away_int whole]

/-- A value is kept exactly if it is a multiple of the unit. -/
theorem round_to_eq_iff {x : K} (nonneg : 0 ≤ x) :
    roundTo unit x = x ↔ ∃ n : Int, 0 ≤ n ∧ x = n * unit := by
  constructor
  · exact fun kept => ⟨_, round_half_away_nonneg (div_nonneg nonneg positive.le), kept.symm⟩
  · rintro ⟨n, whole, rfl⟩
    exact round_to_mul positive whole

variable {addend : Nat → K} (nonneg : ∀ i, 0 ≤ addend i)
include nonneg

/-- Every addend is rounded by itself. -/
theorem rounded_sum_eq (n : Nat) : roundedSum unit addend n = ∑ i ∈ Icc 1 n, roundTo unit (addend i) ∧
    ∃ whole : Int, 0 ≤ whole ∧ roundedSum unit addend n = whole * unit := by
  induction n with
  | zero => exact ⟨by simp [roundedSum], 0, le_rfl, by simp [roundedSum]⟩
  | succ n ih =>
      obtain ⟨sum, whole, counted, multiple⟩ := ih
      have next : roundedSum unit addend (n + 1) = roundTo unit (addend (n + 1)) + whole * unit := by
        rw [roundedSum, multiple]
        exact round_to_add positive (nonneg (n + 1)) counted
      refine ⟨?_, roundHalfAway (addend (n + 1) / unit) + whole, ?_, ?_⟩
      · rw [next, ← multiple, sum, sum_Icc_succ_top (by omega), add_comm]
      · exact add_nonneg (round_half_away_nonneg (div_nonneg (nonneg _) positive.le)) counted
      · rw [next, roundTo]
        push_cast
        ring

theorem rounded_sum_exact (kept : ∀ i, roundTo unit (addend i) = addend i) (n : Nat) :
    roundedSum unit addend n = ∑ i ∈ Icc 1 n, addend i := by
  rw [(rounded_sum_eq positive nonneg n).1]
  exact sum_congr rfl fun i _ => kept i

end Unit

/-- Equal addends that do not fit the unit leave any bound. -/
theorem rounded_sum_drifts [Archimedean K] {unit : K} (positive : 0 < unit) {x : K} (nonneg : 0 ≤ x)
    (lost : roundTo unit x ≠ x) (bound : K) :
    ∃ n, 1 ≤ n ∧ bound < |roundedSum unit (fun _ => x) n - x * n| := by
  have apart : 0 < |roundTo unit x - x| := abs_pos.mpr (sub_ne_zero.mpr lost)
  obtain ⟨n, large⟩ := exists_nat_gt (bound / |roundTo unit x - x|)
  refine ⟨n + 1, by omega, ?_⟩
  have drift : roundedSum unit (fun _ => x) (n + 1) - x * (n + 1 : Nat) =
      (n + 1 : Nat) * (roundTo unit x - x) := by
    rw [(rounded_sum_eq positive (fun _ => nonneg) (n + 1)).1, sum_const, Nat.card_Icc, nsmul_eq_mul,
      Nat.add_sub_cancel]
    ring
  rw [drift, abs_mul, Nat.abs_cast, ← div_lt_iff₀ apart]
  exact large.trans (by push_cast; linarith)

end Rounding
end KosSim.Library
