import Mathlib.Data.List.Dedup
import KosSim.Library.Dict

/-!
A table whose keys are a version and a group, read through DISTINCT ON (group) ..
ORDER BY version DESC. Where no group has a row of a version above the last one,
this view is the table's last version.
-/

namespace KosSim.Library
section LatestVersion
variable {κ ν : Type} [DecidableEq κ]

def newer (group : κ) (best : Option (Int × ν)) (entry : (Int × κ) × ν) : Option (Int × ν) :=
  if entry.1.2 = group then
    match best with
    | some (version, value) =>
        if version < entry.1.1 then some (entry.1.1, entry.2) else some (version, value)
    | none => some (entry.1.1, entry.2)
  else best

def latest (entries : List ((Int × κ) × ν)) (group : κ) : Option (Int × ν) :=
  entries.foldl (newer group) none

/-- Once the last version is found, older rows of the group do not replace it. -/
theorem newer_last {group : κ} (entries : List ((Int × κ) × ν)) {version : Int} {value : ν}
    (bound : ∀ entry ∈ entries, entry.1.2 = group → entry.1.1 ≤ version) :
    entries.foldl (newer group) (some (version, value)) = some (version, value) := by
  induction entries with
  | nil => rfl
  | cons entry rest ih =>
      have kept : newer group (some (version, value)) entry = some (version, value) := by
        unfold newer
        split
        · next same =>
          have older := bound entry List.mem_cons_self same
          dsimp only
          rw [if_neg (by omega)]
        · rfl
      rw [List.foldl_cons, kept]
      exact ih fun other member => bound other (List.mem_cons_of_mem _ member)

theorem latest_from {group : κ} (entries : List ((Int × κ) × ν)) (distinct : (entries.map Prod.fst).Nodup)
    {version : Int} {value : ν} (member : ((version, group), value) ∈ entries)
    (bound : ∀ entry ∈ entries, entry.1.2 = group → entry.1.1 ≤ version)
    (best : Option (Int × ν)) (older : ∀ held, best = some held → held.1 < version) :
    entries.foldl (newer group) best = some (version, value) := by
  induction entries generalizing best with
  | nil => cases member
  | cons entry rest ih =>
      rw [List.map_cons, List.nodup_cons] at distinct
      have below := fun other inside => bound other (List.mem_cons_of_mem _ inside)
      rw [List.foldl_cons]
      rcases List.mem_cons.mp member with here | later
      · subst here
        have found : newer group best ((version, group), value) = some (version, value) := by
          unfold newer
          rw [if_pos rfl]
          cases best with
          | none => rfl
          | some held => exact if_pos (older held rfl)
        rw [found]
        exact newer_last rest below
      · refine ih distinct.2 later below _ ?_
        intro held same
        unfold newer at same
        split at same
        · next grouped =>
          -- The entry is of the group, so it is of another version than the one searched.
          have apart : entry.1.1 ≠ version := by
            rintro rfl
            refine distinct.1 (List.mem_map.mpr ⟨_, later, ?_⟩)
            rw [← grouped]
          have most := bound entry List.mem_cons_self grouped
          cases best with
          | none =>
              cases same
              dsimp only
              omega
          | some old =>
              dsimp only at same
              split at same
              · cases same
                dsimp only
                omega
              · cases same
                exact older _ rfl
        · exact older held same

variable (table : Dict (Int × κ) ν)

/-- The group's row of the last version is the one that the view shows. -/
theorem latest_last {group : κ} {version : Int} {value : ν}
    (found : table.get? (version, group) = some value)
    (bound : ∀ key ∈ table.keys, key.2 = group → key.1 ≤ version) :
    latest table.entries group = some (version, value) := by
  apply latest_from table.entries table.distinct ((Dict.mem_entries_iff _ _ _).mpr found)
  · exact fun entry member => bound entry.1 (List.mem_map.mpr ⟨entry, member, rfl⟩)
  · exact fun held none_ => (by cases none_)

variable (chosen : κ → Bool)

def groupsOf : List κ := ((table.entries.filter fun entry => chosen entry.1.2).map (·.1.2)).dedup

def rowsOfVersion (version : Int) : List ((Int × κ) × ν) :=
  table.entries.filter fun entry => chosen entry.1.2 && decide (entry.1.1 = version)

omit [DecidableEq κ] in
theorem mem_rows_of_version {version : Int} {entry : (Int × κ) × ν} :
    entry ∈ rowsOfVersion table chosen version ↔
      entry ∈ table.entries ∧ chosen entry.1.2 = true ∧ entry.1.1 = version := by
  rw [rowsOfVersion, List.mem_filter, Bool.and_eq_true, decide_eq_true_eq]

omit [DecidableEq κ] in
theorem rows_of_version_distinct (version : Int) :
    ((rowsOfVersion table chosen version).map (·.1.2)).Nodup := by
  have keys : ((rowsOfVersion table chosen version).map Prod.fst).Nodup :=
    table.distinct.sublist (List.filter_sublist.map Prod.fst)
  have groups : ((rowsOfVersion table chosen version).map (·.1.2)) =
      ((rowsOfVersion table chosen version).map Prod.fst).map Prod.snd := by
    rw [List.map_map]
    rfl
  rw [groups]
  refine keys.map_on ?_
  intro one first two second same
  obtain ⟨entry, inside, rfl⟩ := List.mem_map.mp first
  obtain ⟨other, among, rfl⟩ := List.mem_map.mp second
  have here := (mem_rows_of_version table chosen).mp inside
  have there := (mem_rows_of_version table chosen).mp among
  exact Prod.ext (here.2.2.trans there.2.2.symm) same

/-- Where every group has a row of the version, its rows are one for each group. -/
theorem groups_of_version {version : Int}
    (complete : ∀ key ∈ table.keys, chosen key.2 = true → (version, key.2) ∈ table.keys) :
    (groupsOf table chosen).Perm ((rowsOfVersion table chosen version).map (·.1.2)) := by
  refine (List.perm_ext_iff_of_nodup (List.nodup_dedup _)
    (rows_of_version_distinct table chosen version)).mpr ?_
  intro group
  rw [List.mem_dedup]
  constructor
  · intro member
    obtain ⟨entry, inside, rfl⟩ := List.mem_map.mp member
    obtain ⟨stored, kept⟩ := List.mem_filter.mp inside
    obtain ⟨row, there, same⟩ := List.mem_map.mp
      (complete entry.1 (List.mem_map.mpr ⟨entry, stored, rfl⟩) kept)
    have named : row.1.2 = entry.1.2 := by rw [same]
    refine List.mem_map.mpr ⟨row, (mem_rows_of_version table chosen).mpr ⟨there, ?_⟩, named⟩
    rw [same]
    exact ⟨kept, rfl⟩
  · intro member
    obtain ⟨entry, inside, rfl⟩ := List.mem_map.mp member
    obtain ⟨stored, kept, _⟩ := (mem_rows_of_version table chosen).mp inside
    exact List.mem_map.mpr ⟨entry, List.mem_filter.mpr ⟨stored, kept⟩, rfl⟩

/-- The view over the chosen groups is the last version, up to the order of the rows. -/
theorem latest_view (version : Int) (bound : ∀ key ∈ table.keys, chosen key.2 = true → key.1 ≤ version)
    (complete : ∀ key ∈ table.keys, chosen key.2 = true → (version, key.2) ∈ table.keys) :
    ((groupsOf table chosen).filterMap fun group => (latest table.entries group).map (·.2)).Perm
      ((rowsOfVersion table chosen version).map (·.2)) := by
  refine ((groups_of_version table chosen complete).filterMap _).trans (List.Perm.of_eq ?_)
  rw [List.filterMap_map, ← List.filterMap_eq_map]
  refine List.filterMap_congr ?_
  intro entry member
  obtain ⟨stored, kept, versioned⟩ := (mem_rows_of_version table chosen).mp member
  have found : table.get? (version, entry.1.2) = some entry.2 := by
    rw [← versioned]
    exact (Dict.mem_entries_iff _ _ _).mp stored
  have seen := latest_last table found fun key inside same => bound key inside (same ▸ kept)
  simp only [Function.comp_apply, seen, Option.map_some]

end LatestVersion
end KosSim.Library
