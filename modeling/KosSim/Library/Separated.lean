import Mathlib.Algebra.GroupWithZero.Nat
import Mathlib.Data.List.Basic
import Mathlib.Data.List.Count
import Mathlib.Data.List.Induction

/-!
Lists of parts with a separator between them: what the parts of a split list are, the weight
of a joined list, and that a joined list of filled parts neither starts nor ends with the
separator.
-/

namespace KosSim.Library
section Separated
variable {α : Type} {mark : α}

theorem split_free [DecidableEq α] (items : List α) : ∀ part ∈ items.splitOn mark, mark ∉ part := by
  induction items with
  | nil =>
      intro part member
      rw [List.mem_singleton.mp member]
      exact List.not_mem_nil
  | cons item rest ih =>
      rw [List.splitOn_cons_eq_if_modifyHead]
      by_cases same : item = mark
      · rw [if_pos (beq_iff_eq.mpr same)]
        exact List.forall_mem_cons.mpr ⟨List.not_mem_nil, ih⟩
      · rw [if_neg fun equal => same (beq_iff_eq.mp equal)]
        obtain ⟨first, others, split⟩ := List.exists_cons_of_ne_nil (List.splitOn_ne_nil mark rest)
        rw [split, List.forall_mem_cons] at ih
        rw [split, List.modifyHead_cons]
        refine List.forall_mem_cons.mpr ⟨?_, ih.2⟩
        intro member
        rcases List.mem_cons.mp member with here | later
        · exact same here.symm
        · exact ih.1 later

theorem split_head [DecidableEq α] (items : List α) :
    (items.splitOn mark).head? = some (items.takeWhile fun item => decide (item ≠ mark)) := by
  induction items with
  | nil => rfl
  | cons item rest ih =>
      obtain ⟨first, others, split⟩ := List.exists_cons_of_ne_nil (List.splitOn_ne_nil mark rest)
      rw [split, List.head?_cons, Option.some.injEq] at ih
      rw [List.splitOn_cons_eq_if_modifyHead, split]
      by_cases same : item = mark
      · rw [if_pos (beq_iff_eq.mpr same), List.takeWhile_cons_of_neg (by simpa using same)]
        rfl
      · rw [if_neg fun equal => same (beq_iff_eq.mp equal),
            List.takeWhile_cons_of_pos (by simpa using same), ← ih]
        rfl

theorem joined_weight (mark : α) (weight : α → Nat) {parts : List (List α)} (filled : parts ≠ []) :
    (([mark].intercalate parts).map weight).sum + weight mark =
      (parts.map fun part => (part.map weight).sum + weight mark).sum := by
  induction parts with
  | nil => exact absurd rfl filled
  | cons part rest ih =>
      cases rest with
      | nil => simp
      | cons second others =>
          have tail := ih (List.cons_ne_nil _ _)
          rw [List.intercalate_cons_cons, List.map_cons, List.sum_cons, ← tail]
          simp only [List.map_append, List.sum_append, List.map_cons, List.map_nil, List.sum_cons,
            List.sum_nil]
          omega

theorem joined_count [DecidableEq α] (parts : List (List α)) {item : α} (other : item ≠ mark) :
    ([mark].intercalate parts).count item = parts.flatten.count item := by
  induction parts with
  | nil => rfl
  | cons part rest ih =>
      cases rest with
      | nil => rw [List.intercalate_singleton, List.flatten_singleton]
      | cons second others =>
          rw [List.intercalate_cons_cons, List.flatten_cons, List.count_append, List.count_append, ih,
            List.count_append, List.count_cons_of_ne other.symm, List.count_nil, Nat.add_zero]

theorem joined_mem {parts : List (List α)} {item : α} (member : item ∈ [mark].intercalate parts) :
    item = mark ∨ ∃ part ∈ parts, item ∈ part := by
  induction parts with
  | nil => cases member
  | cons part rest ih =>
      cases rest with
      | nil =>
          rw [List.intercalate_singleton] at member
          exact .inr ⟨part, List.mem_cons_self, member⟩
      | cons second others =>
          rw [List.intercalate_cons_cons, List.mem_append, List.mem_append, List.mem_singleton] at member
          rcases member with (here | separator) | later
          · exact .inr ⟨part, List.mem_cons_self, here⟩
          · exact .inl separator
          · exact (ih later).imp_right fun ⟨other, inside, holds⟩ =>
              ⟨other, List.mem_cons_of_mem _ inside, holds⟩

theorem joined_snoc {parts : List (List α)} (filled : parts ≠ []) (last : List α) :
    [mark].intercalate (parts ++ [last]) = [mark].intercalate parts ++ mark :: last := by
  induction parts with
  | nil => exact absurd rfl filled
  | cons part rest ih =>
      cases rest with
      | nil => simp [List.intercalate_cons_cons]
      | cons second others =>
          rw [List.cons_append, List.cons_append, List.intercalate_cons_cons, List.intercalate_cons_cons,
            ← List.cons_append, ih (List.cons_ne_nil _ _)]
          simp only [List.append_assoc]

section Filled
variable {parts : List (List α)} (filled : ∀ part ∈ parts, part ≠ [] ∧ mark ∉ part)
include filled

theorem joined_head : ([mark].intercalate parts).head? ≠ some mark := by
  cases parts with
  | nil => exact nofun
  | cons part rest =>
      obtain ⟨some_, free⟩ := filled part List.mem_cons_self
      obtain ⟨first, others, rfl⟩ := List.exists_cons_of_ne_nil some_
      have head : ([mark].intercalate ((first :: others) :: rest)).head? = some first := by
        cases rest with
        | nil => simp
        | cons second more => simp [List.intercalate_cons_cons]
      rw [head]
      exact fun same => free (Option.some.inj same ▸ List.mem_cons_self)

theorem joined_last : ([mark].intercalate parts).getLast? ≠ some mark := by
  rcases List.eq_nil_or_concat parts with rfl | ⟨front, last, rfl⟩
  · exact nofun
  · rw [List.concat_eq_append] at filled ⊢
    obtain ⟨some_, free⟩ := filled last (List.mem_append_right _ (List.mem_singleton_self last))
    have ends : ([mark].intercalate (front ++ [last])).getLast? = last.getLast? := by
      by_cases alone : front = []
      · rw [alone, List.nil_append, List.intercalate_singleton]
      · rw [joined_snoc alone, List.getLast?_append, List.getLast?_cons]
        cases shown : last.getLast? with
        | none => exact absurd (List.getLast?_eq_none_iff.mp shown) some_
        | some item => rfl
    rw [ends]
    intro same
    exact free (List.mem_of_getLast? same)

end Filled

theorem drop_while_other [DecidableEq α] {items : List α} (other : items.head? ≠ some mark) :
    items.dropWhile (fun item => decide (item = mark)) = items := by
  cases items with
  | nil => rfl
  | cons item rest =>
      rw [List.dropWhile_cons_of_neg]
      intro same
      exact other (congrArg some (of_decide_eq_true same))

end Separated
end KosSim.Library
