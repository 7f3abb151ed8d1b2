import Mathlib.Data.List.Basic

/-!
The first occurrence of a needle in a text, as the parts before it and behind it.
-/

namespace KosSim.Library
section Cuts
variable {α : Type} [DecidableEq α] {needle text before after : List α}

def cutAt (needle : List α) : List α → Option (List α × List α)
  | [] => if needle.isPrefixOf [] then some ([], []) else none
  | item :: rest =>
      if needle.isPrefixOf (item :: rest) then some ([], (item :: rest).drop needle.length)
      else (cutAt needle rest).map fun parts => (item :: parts.1, parts.2)

theorem cut_here (needle rest : List α) : cutAt needle (needle ++ rest) = some ([], rest) := by
  have front : needle.isPrefixOf (needle ++ rest) = true :=
    List.isPrefixOf_iff_prefix.mpr (List.prefix_append _ _)
  cases whole : needle ++ rest with
  | nil =>
      rw [(List.append_eq_nil_iff.mp whole).1, (List.append_eq_nil_iff.mp whole).2]
      rfl
  | cons item others =>
      rw [whole] at front
      rw [cutAt, if_pos front, ← whole, List.drop_left]

theorem cut_later {item : α} (other : ¬needle <+: item :: text) :
    cutAt needle (item :: text) = (cutAt needle text).map fun parts => (item :: parts.1, parts.2) :=
  if_neg fun front => other (List.isPrefixOf_iff_prefix.mp front)

theorem cut_parts (found : cutAt needle text = some (before, after)) :
    text = before ++ (needle ++ after) := by
  induction text generalizing before with
  | nil =>
      rw [cutAt] at found
      split at found
      · next front =>
          have parts := Prod.mk.inj (Option.some.inj found)
          rw [← parts.1, ← parts.2, List.prefix_nil.mp (List.isPrefixOf_iff_prefix.mp front)]
          rfl
      · cases found
  | cons item rest ih =>
      by_cases front : needle <+: item :: rest
      · obtain ⟨others, whole⟩ := front
        rw [← whole, cut_here] at found
        have parts := Prod.mk.inj (Option.some.inj found)
        rw [← whole, ← parts.1, ← parts.2]
        rfl
      · rw [cut_later front] at found
        obtain ⟨parts, later, same⟩ := Option.map_eq_some_iff.mp found
        have whole : rest = parts.1 ++ (needle ++ after) := ih (by rw [later, ← (Prod.mk.inj same).2])
        rw [← (Prod.mk.inj same).1, whole]
        rfl

/-- A stretch without the needle's first item holds no start of an occurrence. -/
theorem cut_apart {first : α} {more front : List α} (free : first ∉ front) (rest : List α) :
    cutAt (first :: more) (front ++ rest) =
      (cutAt (first :: more) rest).map fun parts => (front ++ parts.1, parts.2) := by
  induction front with
  | nil =>
      show cutAt (first :: more) rest = _
      cases cutAt (first :: more) rest <;> rfl
  | cons item others ih =>
      have other : ¬first :: more <+: item :: (others ++ rest) := by
        intro front
        rw [(List.cons_prefix_cons.mp front).1] at free
        exact free List.mem_cons_self
      rw [List.cons_append, cut_later other, ih fun member => free (List.mem_cons_of_mem _ member),
        Option.map_map]
      rfl

theorem cut_mark {mark : α} {front : List α} (free : mark ∉ front) (rest : List α) :
    cutAt [mark] (front ++ mark :: rest) = some (front, rest) := by
  have here : cutAt [mark] (mark :: rest) = some ([], rest) := cut_here [mark] rest
  rw [cut_apart free, here]
  simp only [Option.map_some, List.append_nil]

theorem cut_none_mark {mark : α} (free : mark ∉ text) : cutAt [mark] text = none := by
  have apart : cutAt [mark] (text ++ []) = _ := cut_apart free []
  rw [List.append_nil] at apart
  rw [apart]
  rfl

theorem cut_take_while (mark : α) (text : List α) :
    ((cutAt [mark] text).map Prod.fst).getD text = text.takeWhile fun c => decide (c ≠ mark) := by
  induction text with
  | nil => rfl
  | cons item rest ih =>
      by_cases same : item = mark
      · have here : cutAt [mark] (mark :: rest) = some ([], rest) := cut_here [mark] rest
        rw [same, here, List.takeWhile_cons_of_neg (by simp)]
        rfl
      · have other : ¬[mark] <+: item :: rest := fun front => same (List.cons_prefix_cons.mp front).1.symm
        rw [cut_later other, List.takeWhile_cons_of_pos (by simpa using same), ← ih]
        cases cutAt [mark] rest <;> rfl

theorem cut_found (front needle back : List α) : cutAt needle (front ++ (needle ++ back)) ≠ none := by
  induction front with
  | nil =>
      rw [List.nil_append, cut_here]
      exact Option.some_ne_none _
  | cons item others ih =>
      by_cases at_ : needle <+: item :: (others ++ (needle ++ back))
      · obtain ⟨rest, whole⟩ := at_
        rw [List.cons_append, ← whole, cut_here]
        exact Option.some_ne_none _
      · rw [List.cons_append, cut_later at_]
        exact fun none => ih (Option.map_eq_none_iff.mp none)

/-- More text behind does not move the first occurrence. -/
theorem cut_extends (found : cutAt needle text = some (before, after)) (more : List α) :
    cutAt needle (text ++ more) = some (before, after ++ more) := by
  induction text generalizing before with
  | nil =>
      have parts := cut_parts found
      have empty := List.append_eq_nil_iff.mp parts.symm
      have rest := List.append_eq_nil_iff.mp empty.2
      rw [empty.1, rest.1, rest.2, List.nil_append]
      exact cut_here [] more
  | cons item rest ih =>
      by_cases front : needle <+: item :: rest
      · obtain ⟨others, whole⟩ := front
        rw [← whole, cut_here] at found
        have parts := Prod.mk.inj (Option.some.inj found)
        rw [← whole, List.append_assoc, cut_here, ← parts.1, ← parts.2]
      · rw [cut_later front] at found
        obtain ⟨parts, later, same⟩ := Option.map_eq_some_iff.mp found
        have size := congrArg List.length (cut_parts later)
        rw [List.length_append, List.length_append] at size
        -- A needle that reached into the new text would be longer than the text it is found in.
        have other : ¬needle <+: item :: (rest ++ more) := fun longer =>
          front (List.prefix_of_prefix_length_le longer (List.prefix_append (item :: rest) more)
            (by rw [List.length_cons]; omega))
        have whole : cutAt needle (rest ++ more) = some (parts.1, after ++ more) :=
          ih (by rw [later, ← (Prod.mk.inj same).2])
        rw [List.cons_append, cut_later other, whole, ← (Prod.mk.inj same).1]
        rfl

theorem cut_prefix {more : List α} (found : cutAt needle (text ++ more) = some (before, after)) :
    cutAt needle text = if before.length + needle.length ≤ text.length
      then some (before, text.drop (before.length + needle.length)) else none := by
  have parts := cut_parts found
  cases here : cutAt needle text with
  | none =>
      refine (if_neg fun reach => ?_).symm
      have front : before ++ needle <+: text := by
        refine List.prefix_of_prefix_length_le ⟨after, ?_⟩ (List.prefix_append text more)
          (by rwa [List.length_append])
        rw [List.append_assoc, ← parts]
      obtain ⟨rest, whole⟩ := front
      rw [← whole, List.append_assoc] at here
      exact cut_found before needle rest here
  | some cut =>
      obtain ⟨front, back⟩ := cut
      have longer := cut_extends here more
      rw [found] at longer
      have same := (Prod.mk.inj (Option.some.inj longer)).1
      have whole := cut_parts here
      rw [← same, ← List.append_assoc] at whole
      have size := congrArg List.length whole
      rw [List.length_append, List.length_append] at size
      rw [if_pos (by omega), ← List.length_append]
      conv => rhs; rw [whole, List.drop_left]
      rw [same]

end Cuts
end KosSim.Library
