import KosSim.Library.JsonStrings
import Mathlib.Algebra.Group.Int.Defs
import Mathlib.Algebra.Group.Nat.Defs
import Mathlib.Data.List.TakeWhile

/-!
db.cpp: what Statement::bind hands to SQLite for a text. The size goes through an int.
-/

namespace KosSim.VaultDb
open Library Library.Json

/-- SQLITE_MAX_LENGTH. -/
def maxLength : Nat := 1000000000

/-- static_cast<int>(size) -/
def intOfSize (size : Nat) : Int := (BitVec.ofNat 32 size).toInt

theorem int_of_size (size : Nat) :
    intOfSize size = if 2 * (size % 2 ^ 32) <
      2 ^ 32 then ((size % 2 ^ 32 : Nat) : Int) else (size % 2 ^ 32 : Nat) - 2 ^ 32 := by
  rw [intOfSize, BitVec.toInt_eq_toNat_cond, BitVec.toNat_ofNat]
  rfl

/-- The bound text: a negative size means up to the first NUL. For a text that is too big nothing is
bound, which is NULL. -/
def bindText (value : Bytes) : Option Bytes :=
  let n := intOfSize value.length
  let text := if n < 0 then value.takeWhile fun c => decide (c ≠ 0) else value.take n.toNat
  if text.length ≤ maxLength then some text else none

theorem bind_short {value : Bytes} (short : value.length ≤ maxLength) : bindText value = some value := by
  unfold maxLength at short
  have size : intOfSize value.length = value.length := by
    rw [int_of_size, if_pos (by omega)]
    omega
  have positive : ¬((value.length : Int) < 0) := by omega
  unfold bindText
  rw [size]
  dsimp only
  rw [if_neg positive, Int.toNat_natCast, List.take_length]
  exact if_pos short

/-- Without a NUL, only a text of less than 2^32 bytes is bound whole. -/
theorem bind_whole_iff {value text : Bytes} (noNul : (0 : UInt8) ∉ value)
    (bound : bindText value = some text) :
    text = value ↔ value.length < 2 ^ 32 := by
  have all : value.takeWhile (fun c => decide (c ≠ 0)) = value := by
    refine List.takeWhile_eq_self_iff.mpr fun c member => decide_eq_true fun zero => noNul ?_
    rwa [zero] at member
  unfold bindText at bound
  rw [all] at bound
  dsimp only at bound
  by_cases negative : intOfSize value.length < 0
  · -- the whole text, which is too big
    rw [if_pos negative] at bound
    rw [int_of_size] at negative
    have long : ¬value.length ≤ maxLength := by
      unfold maxLength
      omega
    rw [if_neg long] at bound
    cases bound
  · rw [if_neg negative] at bound
    split at bound
    · rw [← Option.some.inj bound]
      rw [int_of_size] at negative ⊢
      constructor
      · intro same
        have size := congrArg List.length same
        rw [List.length_take] at size
        omega
      · intro small
        exact List.take_of_length_le (by omega)
    · cases bound

theorem bind_some {value text : Bytes} (bound : bindText value = some text) :
    text.length ≤ maxLength ∧ ∀ c ∈ text, c ∈ value := by
  unfold bindText at bound
  dsimp only at bound
  obtain ⟨small, same⟩ := Option.ite_none_right_eq_some.mp bound
  rw [← Option.some.inj same]
  refine ⟨small, fun c member => ?_⟩
  split at member
  · exact (List.takeWhile_sublist _).subset member
  · exact List.mem_of_mem_take member

/-- A text from 2^32 bytes on is cut to what is left of its size in 32 bits. -/
theorem bind_cut {value : Bytes} (small : value.length % 2 ^ 32 ≤ maxLength) :
    bindText value = some (value.take (value.length % 2 ^ 32)) := by
  unfold maxLength at small
  have size : intOfSize value.length = (value.length % 2 ^ 32 : Nat) := by
    rw [int_of_size, if_pos (by omega)]
  have positive : ¬(((value.length % 2 ^ 32 : Nat) : Int) < 0) := by omega
  have fits : (value.take (value.length % 2 ^ 32)).length ≤ maxLength := by
    rw [List.length_take]
    unfold maxLength
    omega
  unfold bindText
  rw [size]
  dsimp only
  rw [if_neg positive, Int.toNat_natCast, if_pos fits]

end KosSim.VaultDb
