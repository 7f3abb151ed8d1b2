import Mathlib.Data.List.Sort

/-!
ORDER BY as a stable insertion sort: it commutes with WHERE, and a row that comes
before all others is the first one.
-/

namespace KosSim.Library
section Ordering
variable {α : Type} (r : α → α → Prop) [DecidableRel r]

theorem ordered_insert_first {item : α} {sorted : List α} (before : ∀ other ∈ sorted, r item other) :
    sorted.orderedInsert r item = item :: sorted := by
  cases sorted with
  | nil => rfl
  | cons head rest => rw [List.orderedInsert, if_pos (before head List.mem_cons_self)]

theorem filter_ordered_insert [IsTrans α r] (keep : α → Bool) (item : α) (sorted : List α)
    (order : sorted.Pairwise r) :
    (sorted.orderedInsert r item).filter keep =
      if keep item then (sorted.filter keep).orderedInsert r item else sorted.filter keep := by
  induction sorted with
  | nil =>
      rw [List.orderedInsert, List.filter_cons]
      rfl
  | cons head rest ih =>
      obtain ⟨least, later⟩ := List.pairwise_cons.mp order
      by_cases here : r item head
      · rw [List.orderedInsert, if_pos here, List.filter_cons]
        split
        · -- The item comes before everything that is left of the list.
          rw [ordered_insert_first]
          intro other member
          rcases List.mem_cons.mp (List.mem_filter.mp member).1 with same | inside
          · rwa [same]
          · exact IsTrans.trans item head other here (least other inside)
        · rfl
      · rw [List.orderedInsert, if_neg here, List.filter_cons, ih later, List.filter_cons]
        by_cases kept : keep head = true
        · rw [if_pos kept, if_pos kept]
          split
          · rw [List.orderedInsert, if_neg here]
          · rfl
        · rw [if_neg kept, if_neg kept]

theorem filter_insertion_sort [Std.Total r] [IsTrans α r] (keep : α → Bool) (items : List α) :
    (items.insertionSort r).filter keep = (items.filter keep).insertionSort r := by
  induction items with
  | nil => rfl
  | cons item rest ih =>
      rw [List.insertionSort_cons,
        filter_ordered_insert r keep item _ (List.pairwise_insertionSort r rest), ih,
        List.filter_cons]
      split <;> rfl

/-- A row that comes before all others, and none before it, is the first one. -/
theorem insertion_sort_first (items : List α) (item : α) (before : ∀ other ∈ items, ¬ r other item) :
    (items ++ [item]).insertionSort r = item :: items.insertionSort r := by
  induction items with
  | nil => rfl
  | cons head rest ih =>
      rw [List.cons_append, List.insertionSort_cons,
        ih fun other member => before other (List.mem_cons_of_mem _ member), List.orderedInsert,
        if_neg (before head List.mem_cons_self), List.insertionSort_cons]

end Ordering

/-- In an ordered list everything else comes before the last item. -/
theorem before_last {α : Type} {r : α → α → Prop} {items : List α} (order : items.Pairwise r)
    {last item : α} (isLast : items.getLast? = some last) (member : item ∈ items) :
    item = last ∨ r item last := by
  obtain ⟨front, rfl⟩ := List.getLast?_eq_some_iff.mp isLast
  rcases List.mem_append.mp member with earlier | same
  · exact .inr ((List.pairwise_append.mp order).2.2 item earlier last List.mem_cons_self)
  · exact .inl (List.mem_singleton.mp same)

end KosSim.Library
