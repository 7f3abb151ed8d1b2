import KosSim.Library.Cuts

/-!
Taking out the spans between an opener and the next closer, from the front, as a substitution of a
non-greedy pattern by nothing does it. An opener without a closer behind it stays.
-/

namespace KosSim.Library
section Spans
variable {α : Type} [DecidableEq α] {opener closer : List α}

/-- The inside of the span that starts here, and what follows it. -/
def spanAt (opener closer text : List α) : Option (List α × List α) :=
  if opener.isPrefixOf text then cutAt closer (text.drop opener.length) else none

/-- The number is how many items of a span are still to be passed. -/
def dropSpans (opener closer : List α) : Nat → List α → List α
  | _, [] => []
  | more + 1, _ :: rest => dropSpans opener closer more rest
  | 0, item :: rest =>
      match spanAt opener closer (item :: rest) with
      | some (inner, _) => dropSpans opener closer (opener.length + inner.length + closer.length - 1) rest
      | none => item :: dropSpans opener closer 0 rest

theorem span_parts {text inner after : List α} (found : spanAt opener closer text = some (inner, after)) :
    text = opener ++ (inner ++ (closer ++ after)) := by
  rw [spanAt] at found
  split at found
  · next front =>
    obtain ⟨rest, rfl⟩ := List.isPrefixOf_iff_prefix.mp front
    rw [List.drop_left] at found
    rw [cut_parts found]
  · cases found

theorem drop_spans_pass (passed rest : List α) :
    dropSpans opener closer passed.length (passed ++ rest) = dropSpans opener closer 0 rest := by
  induction passed with
  | nil => rfl
  | cons item others ih => exact ih

theorem drop_spans_found {text inner after : List α} (filled : opener ≠ [])
    (found : spanAt opener closer text = some (inner, after)) :
    dropSpans opener closer 0 text = dropSpans opener closer 0 after := by
  obtain ⟨first, more, rfl⟩ := List.exists_cons_of_ne_nil filled
  have whole := span_parts found
  rw [List.cons_append] at whole
  have parts : more ++ (inner ++ (closer ++ after)) = more ++ inner ++ closer ++ after := by
    simp only [List.append_assoc]
  have size : (first :: more).length + inner.length + closer.length - 1 =
      (more ++ inner ++ closer).length := by
    simp only [List.length_cons, List.length_append]
    omega
  rw [whole] at found ⊢
  rw [dropSpans, found]
  dsimp only
  rw [size, parts, drop_spans_pass]

theorem drop_spans_kept {item : α} {rest : List α} (none_ : spanAt opener closer (item :: rest) = none) :
    dropSpans opener closer 0 (item :: rest) = item :: dropSpans opener closer 0 rest := by
  rw [dropSpans, none_]

end Spans
end KosSim.Library
