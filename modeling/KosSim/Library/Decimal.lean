import Mathlib.Data.List.Basic

/-!
Decimal texts of integers: what characters they have, and that they tell integers apart;
and texts that a separator divides.
-/

namespace KosSim.Library

theorem nat_text_digits (n : Nat) : ∀ c ∈ (toString n).toList, c.isDigit = true := by
  intro c member
  rw [Nat.toString_eq_ofList_toDigits, String.toList_ofList] at member
  exact Nat.isDigit_of_mem_toDigits (by decide) (by decide) member

theorem nat_text_filled (n : Nat) : (toString n).toList ≠ [] := by
  rw [Nat.toString_eq_ofList_toDigits, String.toList_ofList]
  exact Nat.toDigits_ne_nil

theorem nat_text_injective {m n : Nat} (same : toString m = toString n) : m = n := by
  rw [Nat.toString_eq_ofList_toDigits, Nat.toString_eq_ofList_toDigits] at same
  have digits := congrArg (fun text => Nat.ofDigitChars 10 text 0) (String.ofList_injective same)
  simpa using digits

theorem int_text (n : Int) :
    toString n = if 0 ≤ n then toString n.toNat else "-" ++ toString (-n).toNat := by
  cases n with
  | ofNat n => rfl
  | negSucc n =>
      rw [if_neg (by omega)]
      rfl

theorem int_text_chars (n : Int) : ∀ c ∈ (toString n).toList, c.isDigit = true ∨ c = '-' := by
  intro c member
  rw [int_text] at member
  split at member
  · exact .inl (nat_text_digits _ c member)
  · rw [String.toList_append, List.mem_append] at member
    rcases member with sign | digit
    · exact .inr (List.mem_singleton.mp sign)
    · exact .inl (nat_text_digits _ c digit)

theorem int_text_injective {m n : Int} (same : toString m = toString n) : m = n := by
  have sign : ∀ k j : Nat, toString k ≠ "-" ++ toString j := by
    intro k j equal
    have digit := nat_text_digits k '-' (by rw [equal, String.toList_append]; exact List.mem_cons_self)
    exact absurd digit (by decide)
  rw [int_text m, int_text n] at same
  split at same <;> split at same
  · have := nat_text_injective same
    omega
  · exact absurd same (sign _ _)
  · exact absurd same.symm (sign _ _)
  · have chars := congrArg String.toList same
    rw [String.toList_append, String.toList_append, List.append_cancel_left_eq] at chars
    have := nat_text_injective (String.toList_injective chars)
    omega

/-- The last character of a number's text is a digit. -/
theorem nat_text_last (n : Nat) : ∃ c, (toString n).toList.getLast? = some c ∧ c.isDigit = true := by
  refine ⟨_, List.getLast?_eq_some_getLast (nat_text_filled n), ?_⟩
  exact nat_text_digits n _ (List.getLast_mem _)

/-- What stands before the first separator, and what after it. -/
theorem first_mark_inj {α : Type} {mark : α} {one other rest rests : List α} (oneFree : mark ∉ one)
    (otherFree : mark ∉ other) (same : one ++ mark :: rest = other ++ mark :: rests) :
    one = other ∧ rest = rests := by
  induction one generalizing other with
  | nil =>
      cases other with
      | nil => exact ⟨rfl, (List.cons.inj same).2⟩
      | cons c cs =>
          obtain ⟨head, _⟩ := List.cons.inj same
          exact absurd (List.mem_cons.mpr (.inl head)) otherFree
  | cons c cs ih =>
      cases other with
      | nil =>
          obtain ⟨head, _⟩ := List.cons.inj same
          exact absurd (List.mem_cons.mpr (.inl head.symm)) oneFree
      | cons d ds =>
          obtain ⟨head, tail⟩ := List.cons.inj same
          obtain ⟨equal, after⟩ := ih (fun member => oneFree (List.mem_cons_of_mem c member))
            (fun member => otherFree (List.mem_cons_of_mem d member)) tail
          exact ⟨by rw [head, equal], after⟩

/-- What stands after the last separator. -/
theorem last_mark_inj {α : Type} {mark : α} {one other front fronts : List α} (oneFree : mark ∉ one)
    (otherFree : mark ∉ other) (same : front ++ mark :: one = fronts ++ mark :: other) : one = other := by
  have turned := congrArg List.reverse same
  simp only [List.reverse_append, List.reverse_cons, List.append_assoc, List.singleton_append] at turned
  have ends := first_mark_inj (by simpa using oneFree) (by simpa using otherFree) turned
  exact List.reverse_injective ends.1

end KosSim.Library
