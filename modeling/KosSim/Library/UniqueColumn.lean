import KosSim.Library.Dict

/-!
A UNIQUE column of a table: two rows with one value of it are one row. An upsert
keeps it where no other row has the new value, a deletion always does.
-/

namespace KosSim.Library
section UniqueColumn
variable {κ α γ : Type} [DecidableEq κ] (column : α → γ)

def UniqueBy (dict : Dict κ α) : Prop :=
  ∀ one other first second, dict.get? one = some first → dict.get? other = some second →
    column first = column second → one = other

theorem unique_empty : UniqueBy column (Dict.empty : Dict κ α) := by
  intro one other first second found
  cases found

variable {column} {dict : Dict κ α}

theorem unique_set (unique : UniqueBy column dict) {key : κ} {value : α}
    (fresh : ∀ other stored, other ≠ key → dict.get? other = some stored → column stored ≠ column value) :
    UniqueBy column (dict.set key value) := by
  intro one other first second here there same
  rw [Dict.get_set] at here there
  by_cases left : key = one
  · rw [if_pos left] at here
    by_cases right : key = other
    · exact left.symm.trans right
    · rw [if_neg right] at there
      cases here
      exact absurd same.symm (fresh other second (Ne.symm right) there)
  · rw [if_neg left] at here
    by_cases right : key = other
    · rw [if_pos right] at there
      cases there
      exact absurd same (fresh one first (Ne.symm left) here)
    · rw [if_neg right] at there
      exact unique one other first second here there same

theorem unique_filter (unique : UniqueBy column dict) (keep : κ → α → Bool) :
    UniqueBy column (dict.filter keep) := by
  intro one other first second here there same
  rw [Dict.get_filter] at here there
  exact unique one other first second (Option.filter_eq_some_iff.mp here).1
    (Option.filter_eq_some_iff.mp there).1 same

end UniqueColumn
end KosSim.Library
