import Mathlib.Data.List.Basic

/-!
Ordered rules with a default: the first rule that applies decides. A chain of
rules with one verdict decides it exactly where one of them applies.
-/

namespace KosSim.Library
section FirstMatch
variable {ρ ν : Type} (applies : ρ → Bool) (verdict : ρ → ν)

def firstMatch (policy : ν) : List ρ → ν
  | [] => policy
  | rule :: rest => if applies rule then verdict rule else firstMatch policy rest

variable {applies verdict} {policy given : ν}

/-- Rules of one verdict before the others. -/
theorem first_match_block {block rest : List ρ} (same : ∀ rule ∈ block, verdict rule = given) :
    firstMatch applies verdict policy (block ++ rest) =
      if block.any applies then given else firstMatch applies verdict policy rest := by
  induction block with
  | nil => rfl
  | cons rule others ih =>
      have tail := ih fun other member => same other (List.mem_cons_of_mem _ member)
      rw [List.cons_append, firstMatch, List.any_cons, tail]
      by_cases hit : applies rule = true
      · rw [if_pos hit, hit, Bool.true_or, if_pos rfl, same rule List.mem_cons_self]
      · rw [if_neg hit, Bool.eq_false_iff.mpr hit, Bool.false_or]

end FirstMatch
end KosSim.Library
