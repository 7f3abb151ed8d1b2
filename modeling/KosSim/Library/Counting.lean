import Mathlib.Algebra.BigOperators.Group.Finset.Basic
import Mathlib.Algebra.BigOperators.Group.Finset.Piecewise

/-!
Counts that are taken in parts: by classes that each item falls in one of, and in a
front part of a list by a stricter test.
-/

namespace KosSim.Library
variable {α β : Type}

/-- A count is the sum of the counts of the classes. -/
theorem count_by_class [DecidableEq β] (items : List α) (keep : α → Bool) (classes : Finset β)
    (inClass : β → α → Bool)
    (once : ∀ item ∈ items, keep item = true → ∃ own ∈ classes, inClass own item = true ∧
      ∀ other ∈ classes, inClass other item = true → other = own) :
    ∑ own ∈ classes, items.countP (fun item => keep item && inClass own item) = items.countP keep := by
  induction items with
  | nil => exact Finset.sum_eq_zero fun _ _ => rfl
  | cons item rest ih =>
      simp only [List.countP_cons, Finset.sum_add_distrib]
      rw [ih fun other member => once other (List.mem_cons_of_mem _ member)]
      congr 1
      by_cases kept : keep item = true
      · obtain ⟨own, member, inside, only⟩ := once item List.mem_cons_self kept
        rw [if_pos kept, Finset.sum_eq_single own]
        · rw [kept, inside]
          rfl
        · intro other otherMember apart
          rw [kept, Bool.eq_false_iff.mpr fun held => apart (only other otherMember held)]
          rfl
        · exact fun absent => absurd member absent
      · rw [if_neg kept]
        refine Finset.sum_eq_zero fun _ _ => ?_
        rw [Bool.eq_false_iff.mpr kept]
        rfl

/-- A stricter test over a front part counts as much only if it passes all that the test passes. -/
theorem count_front_iff (narrow wide : α → Bool) (front late : List α)
    (within : ∀ item ∈ front, narrow item = true → wide item = true) :
    front.countP narrow = (front ++ late).countP wide ↔
      (∀ item ∈ front, wide item = true → narrow item = true) ∧ ∀ item ∈ late, ¬ wide item = true := by
  have fewer := List.countP_mono_left within
  rw [List.countP_append, ← List.countP_eq_zero]
  have same : front.countP narrow = front.countP wide ↔ ∀ item ∈ front, wide item = true →
      narrow item = true := by
    induction front with
    | nil => simp
    | cons item rest ih =>
        have below := List.countP_mono_left fun other member => within other (List.mem_cons_of_mem _ member)
        have tail := ih (fun other member => within other (List.mem_cons_of_mem _ member)) below
        rw [List.forall_mem_cons, ← tail, List.countP_cons, List.countP_cons]
        have head := within item List.mem_cons_self
        by_cases strict : narrow item = true
        · rw [if_pos strict, if_pos (head strict)]
          exact ⟨fun equal => ⟨fun _ => strict, by omega⟩, fun both => by omega⟩
        · rw [if_neg strict]
          by_cases loose : wide item = true
          · rw [if_pos loose]
            exact ⟨fun equal => by omega, fun both => absurd (both.1 loose) strict⟩
          · rw [if_neg loose]
            exact ⟨fun equal => ⟨fun held => absurd held loose, by omega⟩, fun both => by omega⟩
  rw [← same]
  omega

end KosSim.Library
