import Mathlib.Data.List.Basic
import Mathlib.Data.List.Infix
import Mathlib.Data.List.TakeWhile

/-!
All matches of an opener, at least one other item, and a closer, as a search from the left finds
them: the inner text reaches to the first closer, and the search goes on behind a match.
-/

namespace KosSim.Library
section Bracketed
variable {α : Type} [DecidableEq α] (opener : List α) (closer : α)

/-- The match at the front of a text, and what is behind it. -/
def bracketAt (text : List α) : Option (List α × List α) :=
  if opener <+: text then
    let inner := text.drop opener.length
    let body := inner.takeWhile fun c => decide (c ≠ closer)
    match inner.dropWhile fun c => decide (c ≠ closer) with
    | [] => none
    | _ :: rest => if body = [] then none else some (opener ++ body ++ [closer], rest)
  else none

def bracketsUpTo : Nat → List α → List (List α)
  | 0, _ => []
  | _ + 1, [] => []
  | fuel + 1, c :: rest =>
      match bracketAt opener closer (c :: rest) with
      | some (found, after) => found :: bracketsUpTo fuel after
      | none => bracketsUpTo fuel rest

def brackets (text : List α) : List (List α) := bracketsUpTo opener closer text.length text

variable {opener closer}

theorem bracket_shorter {text found after : List α} (filled : opener ≠ [])
    (matched : bracketAt opener closer text = some (found, after)) : after.length < text.length := by
  unfold bracketAt at matched
  split at matched
  · next front =>
      dsimp only at matched
      split at matched
      · cases matched
      · next c rest left =>
          split at matched
          · cases matched
          · cases matched
            have sizes := congrArg List.length left
            have shorter :=
              (List.dropWhile_sublist (p := fun c => decide (c ≠ closer))
                (l := text.drop opener.length)).length_le
            rw [List.length_cons] at sizes
            rw [List.length_drop] at shorter
            have some_ := List.length_pos_iff.mpr filled
            have fits := front.length_le
            omega
  · cases matched

/-- Fuel for every item is enough. -/
theorem brackets_fuel (filled : opener ≠ []) (text : List α) {fuel : Nat} (enough : text.length ≤ fuel) :
    bracketsUpTo opener closer fuel text = brackets opener closer text := by
  have general (one other : Nat) (text : List α) (oneEnough : text.length ≤ one)
      (otherEnough : text.length ≤ other) :
      bracketsUpTo opener closer one text = bracketsUpTo opener closer other text := by
    induction one generalizing other text with
    | zero =>
        rw [List.eq_nil_of_length_eq_zero (Nat.le_zero.mp oneEnough)]
        cases other <;> rfl
    | succ one ih =>
        cases text with
        | nil => cases other <;> rfl
        | cons c rest =>
            obtain ⟨other, rfl⟩ : ∃ less, other = less + 1 :=
              ⟨other - 1, by rw [List.length_cons] at otherEnough; omega⟩
            rw [List.length_cons] at oneEnough otherEnough
            rw [bracketsUpTo, bracketsUpTo]
            cases matched : bracketAt opener closer (c :: rest) with
            | none => exact ih other rest (by omega) (by omega)
            | some parts =>
                have shorter := bracket_shorter filled matched
                rw [List.length_cons] at shorter
                exact congrArg (parts.1 :: ·) (ih other parts.2 (by omega) (by omega))
  exact general fuel text.length text enough (Nat.le_refl _)

theorem brackets_none (filled : opener ≠ []) {c : α} {rest : List α} (other : ¬opener <+: c :: rest) :
    brackets opener closer (c :: rest) = brackets opener closer rest := by
  rw [brackets, List.length_cons, bracketsUpTo, bracketAt, if_neg other]
  exact brackets_fuel filled rest (Nat.le_refl _)

/-- A stretch in which no opener starts. -/
theorem brackets_apart (filled : opener ≠ []) (front : List α) {rest : List α}
    (apart : ∀ k < front.length, ¬opener <+: (front ++ rest).drop k) :
    brackets opener closer (front ++ rest) = brackets opener closer rest := by
  induction front with
  | nil => rfl
  | cons c others ih =>
      have here : ¬opener <+: c :: (others ++ rest) := apart 0 (Nat.succ_pos _)
      rw [List.cons_append, brackets_none filled here]
      exact ih fun k inside => apart (k + 1) (Nat.succ_lt_succ inside)

theorem brackets_skip {first : α} {more front : List α} (free : first ∉ front) (rest : List α) :
    brackets (first :: more) closer (front ++ rest) = brackets (first :: more) closer rest := by
  refine brackets_apart (List.cons_ne_nil _ _) front fun k inside starts => free ?_
  rw [List.drop_append_of_le_length (Nat.le_of_lt inside), List.drop_eq_getElem_cons inside,
    List.cons_append] at starts
  rw [(List.cons_prefix_cons.mp starts).1]
  exact List.getElem_mem inside

/-- A text that lacks an item of the opener. -/
theorem brackets_lacking (filled : opener ≠ []) {item : α} (used : item ∈ opener) {text : List α}
    (lacks : item ∉ text) :
    brackets opener closer text = [] := by
  have apart : brackets opener closer (text ++ []) = brackets opener closer [] := by
    refine brackets_apart filled text fun k _ starts => lacks ?_
    rw [List.append_nil] at starts
    exact List.mem_of_mem_drop (starts.subset used)
  rw [List.append_nil] at apart
  exact apart

theorem brackets_match (filled : opener ≠ []) {body : List α} (some_ : body ≠ [])
    (free : closer ∉ body) (rest : List α) :
    brackets opener closer (opener ++ body ++ closer :: rest) =
      (opener ++ body ++ [closer]) :: brackets opener closer rest := by
  have inner : (opener ++ body ++ closer :: rest).drop opener.length = body ++ closer :: rest := by
    rw [List.append_assoc, List.drop_left]
  have others : ∀ c ∈ body, decide (c ≠ closer) = true :=
    fun c member => decide_eq_true fun same => free (same ▸ member)
  have taken : (body ++ closer :: rest).takeWhile (fun c => decide (c ≠ closer)) = body := by
    rw [List.takeWhile_append_of_pos others, List.takeWhile_cons_of_neg (by simp), List.append_nil]
  have dropped : (body ++ closer :: rest).dropWhile (fun c => decide (c ≠ closer)) = closer :: rest := by
    rw [List.dropWhile_append_of_pos others, List.dropWhile_cons_of_neg (by simp)]
  have here : bracketAt opener closer (opener ++ body ++ closer :: rest) =
      some (opener ++ body ++ [closer], rest) := by
    have front : opener <+: opener ++ body ++ closer :: rest := by
      rw [List.append_assoc]
      exact List.prefix_append _ _
    rw [bracketAt, if_pos front, inner]
    dsimp only
    rw [taken, dropped]
    exact if_neg some_
  cases whole : opener ++ body ++ closer :: rest with
  | nil => exact absurd (List.append_eq_nil_iff.mp whole).2 (List.cons_ne_nil _ _)
  | cons c others_ =>
      have shorter := bracket_shorter filled here
      rw [whole] at here shorter
      rw [List.length_cons] at shorter
      rw [brackets, List.length_cons, bracketsUpTo, here]
      exact congrArg (_ :: ·) (brackets_fuel filled rest (by omega))

theorem brackets_whole (filled : opener ≠ []) {body : List α} (some_ : body ≠ []) (free : closer ∉ body) :
    brackets opener closer (opener ++ body ++ [closer]) = [opener ++ body ++ [closer]] :=
  brackets_match filled some_ free []

end Bracketed
end KosSim.Library
