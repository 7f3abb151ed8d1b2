import Mathlib.Data.List.Nodup
import Mathlib.Data.List.Basic

/-!
An insertion-ordered dictionary with distinct keys. Assignment to a present key
replaces its value in place; a new key goes to the end, so iteration follows the
order of first insertion. The same structure models a table under a UNIQUE key,
where `set` is the effect of an upsert.
-/

namespace KosSim.Library

structure Dict (κ α : Type) where
  entries : List (κ × α)
  distinct : (entries.map Prod.fst).Nodup
  deriving DecidableEq

variable {κ α β : Type} [DecidableEq κ]

def lookupEntry : List (κ × α) → κ → Option α
  | [], _ => none
  | entry :: rest, key => if entry.1 = key then some entry.2 else lookupEntry rest key

def setEntry : List (κ × α) → κ → α → List (κ × α)
  | [], key, value => [(key, value)]
  | entry :: rest, key, value =>
      if entry.1 = key then (entry.1, value) :: rest else entry :: setEntry rest key value

theorem set_entry_keys (entries : List (κ × α)) (key : κ) (value : α) :
    (setEntry entries key value).map Prod.fst =
      if key ∈ entries.map Prod.fst then entries.map Prod.fst
      else entries.map Prod.fst ++ [key] := by
  induction entries with
  | nil => simp [setEntry]
  | cons entry rest ih =>
      by_cases hit : entry.1 = key
      · simp [setEntry, hit]
      · simp only [setEntry, hit, ↓reduceIte, List.map_cons, ih, List.mem_cons, Ne.symm hit, false_or]
        split <;> simp

theorem set_entry_distinct (entries : List (κ × α)) (key : κ) (value : α)
    (distinct : (entries.map Prod.fst).Nodup) :
    ((setEntry entries key value).map Prod.fst).Nodup := by
  rw [set_entry_keys]
  split
  · exact distinct
  · next fresh =>
    rw [List.nodup_append]
    refine ⟨distinct, by simp, ?_⟩
    intro present member added same equal
    rw [List.mem_singleton.mp same] at equal
    exact fresh (equal ▸ member)

namespace Dict

def empty : Dict κ α := ⟨[], List.nodup_nil⟩

def get? (dict : Dict κ α) (key : κ) : Option α := lookupEntry dict.entries key

def contains (dict : Dict κ α) (key : κ) : Bool := (dict.get? key).isSome

def set (dict : Dict κ α) (key : κ) (value : α) : Dict κ α :=
  ⟨setEntry dict.entries key value, set_entry_distinct dict.entries key value dict.distinct⟩

def keys (dict : Dict κ α) : List κ := dict.entries.map Prod.fst

omit [DecidableEq κ] in
theorem map_entries_keys (f : κ → α → β) (entries : List (κ × α)) :
    (entries.map fun entry => (entry.1, f entry.1 entry.2)).map Prod.fst = entries.map Prod.fst := by
  simp [List.map_map, Function.comp_def]

def mapEntries (f : κ → α → β) (dict : Dict κ α) : Dict κ β :=
  ⟨dict.entries.map fun entry => (entry.1, f entry.1 entry.2), by
    rw [map_entries_keys]; exact dict.distinct⟩

def modify (dict : Dict κ α) (key : κ) (f : α → α) : Dict κ α :=
  dict.mapEntries fun present value => if present = key then f value else value

def filter (keep : κ → α → Bool) (dict : Dict κ α) : Dict κ α :=
  ⟨dict.entries.filter fun entry => keep entry.1 entry.2,
    dict.distinct.sublist (List.filter_sublist.map Prod.fst)⟩

/-- A comprehension: later pairs overwrite earlier ones. -/
def setAll (pairs : List (κ × α)) (dict : Dict κ α) : Dict κ α :=
  pairs.foldl (fun built pair => built.set pair.1 pair.2) dict

def ofList (pairs : List (κ × α)) : Dict κ α := setAll pairs empty

theorem lookup_entry_set (entries : List (κ × α)) (key other : κ) (value : α) :
    lookupEntry (setEntry entries key value) other =
      if key = other then some value else lookupEntry entries other := by
  induction entries with
  | nil => simp [setEntry, lookupEntry]
  | cons entry rest ih =>
      by_cases hit : entry.1 = key
      · by_cases same : key = other <;> simp [setEntry, lookupEntry, hit, same]
      · by_cases same : entry.1 = other
        · have apart : key ≠ other := fun equal => hit (same.trans equal.symm)
          simp [setEntry, lookupEntry, same, apart, Ne.symm apart]
        · simp [setEntry, lookupEntry, hit, same, ih]

theorem lookup_entry_none (entries : List (κ × α)) (key : κ) :
    lookupEntry entries key = none ↔ key ∉ entries.map Prod.fst := by
  induction entries with
  | nil => simp [lookupEntry]
  | cons entry rest ih =>
      by_cases hit : entry.1 = key
      · simp [lookupEntry, hit]
      · simp only [lookupEntry, hit, ↓reduceIte, ih, List.map_cons, List.mem_cons, Ne.symm hit,
          false_or]

theorem lookup_entry_some (entries : List (κ × α)) (distinct : (entries.map Prod.fst).Nodup)
    (key : κ) (value : α) : lookupEntry entries key = some value ↔ (key, value) ∈ entries := by
  induction entries with
  | nil => simp [lookupEntry]
  | cons entry rest ih =>
      rw [List.map_cons, List.nodup_cons] at distinct
      by_cases hit : entry.1 = key
      · simp only [lookupEntry, hit, ↓reduceIte, Option.some.injEq, List.mem_cons]
        constructor
        · rintro rfl
          exact Or.inl (by rw [← hit])
        · rintro (head | tail)
          · rw [← head]
          · exact absurd (List.mem_map.mpr ⟨_, tail, hit.symm⟩) distinct.1
      · simp only [lookupEntry, hit, ↓reduceIte, ih distinct.2, List.mem_cons]
        constructor
        · exact Or.inr
        · rintro (head | tail)
          · exact absurd (congrArg Prod.fst head).symm hit
          · exact tail

@[simp] theorem get_empty (key : κ) : (empty : Dict κ α).get? key = none := rfl

theorem get_set (dict : Dict κ α) (key other : κ) (value : α) :
    (dict.set key value).get? other = if key = other then some value else dict.get? other :=
  lookup_entry_set dict.entries key other value

@[simp] theorem get_set_self (dict : Dict κ α) (key : κ) (value : α) :
    (dict.set key value).get? key = some value := by simp [get_set]

theorem get_set_other (dict : Dict κ α) (key other : κ) (value : α) (apart : key ≠ other) :
    (dict.set key value).get? other = dict.get? other := by simp [get_set, apart]

theorem mem_entries_iff (dict : Dict κ α) (key : κ) (value : α) :
    (key, value) ∈ dict.entries ↔ dict.get? key = some value :=
  (lookup_entry_some dict.entries dict.distinct key value).symm

theorem mem_keys_iff (dict : Dict κ α) (key : κ) : key ∈ dict.keys ↔ dict.get? key ≠ none := by
  simp only [keys, get?, ne_eq, lookup_entry_none, not_not]

theorem mem_keys_of_get {dict : Dict κ α} {key : κ} {value : α} (found : dict.get? key = some value) :
    key ∈ dict.keys := by
  rw [mem_keys_iff, found]
  exact Option.some_ne_none value

theorem contains_iff (dict : Dict κ α) (key : κ) : dict.contains key = true ↔ key ∈ dict.keys := by
  rw [mem_keys_iff, contains, Option.isSome_iff_ne_none]

theorem contains_eq_some (dict : Dict κ α) (key : κ) :
    dict.contains key = true ↔ ∃ value, dict.get? key = some value := Option.isSome_iff_exists

theorem get_map_entries (f : κ → α → β) (dict : Dict κ α) (key : κ) :
    (dict.mapEntries f).get? key = (dict.get? key).map (f key) := by
  show lookupEntry (dict.entries.map _) key = (lookupEntry dict.entries key).map (f key)
  induction dict.entries with
  | nil => rfl
  | cons entry rest ih =>
      by_cases hit : entry.1 = key
      · subst hit; simp [lookupEntry]
      · simpa [lookupEntry, hit] using ih

theorem get_modify (dict : Dict κ α) (key other : κ) (f : α → α) :
    (dict.modify key f).get? other =
      if other = key then (dict.get? other).map f else dict.get? other := by
  rw [modify, get_map_entries]
  by_cases same : other = key <;> simp [same]

theorem get_modify_map (dict : Dict κ α) (key other : κ) (f : α → α) :
    (dict.modify key f).get? other =
      (dict.get? other).map fun value => if other = key then f value else value := by
  rw [modify, get_map_entries]

omit [DecidableEq κ] in
@[simp] theorem keys_map_entries (f : κ → α → β) (dict : Dict κ α) :
    (dict.mapEntries f).keys = dict.keys := map_entries_keys f dict.entries

@[simp] theorem keys_modify (dict : Dict κ α) (key : κ) (f : α → α) :
    (dict.modify key f).keys = dict.keys := keys_map_entries _ dict

theorem mem_keys_set (dict : Dict κ α) (key other : κ) (value : α) :
    other ∈ (dict.set key value).keys ↔ other = key ∨ other ∈ dict.keys := by
  rw [mem_keys_iff, mem_keys_iff, get_set]
  by_cases same : key = other
  · simp [same]
  · simp [same, Ne.symm same]

theorem get_filter (keep : κ → α → Bool) (dict : Dict κ α) (key : κ) :
    (dict.filter keep).get? key = (dict.get? key).filter (keep key) := by
  cases found : dict.get? key with
  | none =>
      have absent : key ∉ dict.keys := by rw [mem_keys_iff]; simp [found]
      have dropped : key ∉ (dict.filter keep).keys :=
        fun member => absent ((List.filter_sublist.map Prod.fst).subset member)
      have missing : (dict.filter keep).get? key = none := by
        by_contra present
        exact dropped ((mem_keys_iff _ _).mpr present)
      simp [missing]
  | some value =>
      have member := (mem_entries_iff dict key value).mpr found
      cases kept : keep key value with
      | true =>
          rw [Option.filter_some, kept]
          exact (mem_entries_iff _ key value).mp (List.mem_filter.mpr ⟨member, kept⟩)
      | false =>
          rw [Option.filter_some, kept]
          cases after : (dict.filter keep).get? key with
          | none => rfl
          | some other =>
              have inside := List.mem_filter.mp ((mem_entries_iff _ key other).mpr after)
              have same := ((mem_entries_iff dict key other).mp inside.1).symm.trans found
              rw [Option.some.inj same] at inside
              simp [kept] at inside

omit [DecidableEq κ] in
theorem filter_congr (keep keeps : κ → α → Bool) (dict : Dict κ α)
    (same : ∀ entry ∈ dict.entries, keep entry.1 entry.2 = keeps entry.1 entry.2) :
    dict.filter keep = dict.filter keeps := by
  simp only [filter, List.filter_congr same]

omit [DecidableEq κ] in
/-- A selection within another one may be taken from it. -/
theorem filter_within (narrow wide : κ → α → Bool) (dict : Dict κ α)
    (within : ∀ entry ∈ dict.entries, narrow entry.1 entry.2 = true → wide entry.1 entry.2 = true) :
    (dict.filter wide).filter narrow = dict.filter narrow := by
  have entries : (dict.entries.filter fun entry => wide entry.1 entry.2).filter
      (fun entry => narrow entry.1 entry.2) = dict.entries.filter fun entry => narrow entry.1 entry.2 := by
    rw [List.filter_filter]
    refine List.filter_congr fun entry member => ?_
    cases kept : narrow entry.1 entry.2 with
    | false => rfl
    | true => rw [within entry member kept, Bool.and_self]
  simp only [filter, entries]

theorem mem_keys_filter (keep : κ → Bool) (dict : Dict κ α) (key : κ) :
    key ∈ (dict.filter fun key _ => keep key).keys ↔ key ∈ dict.keys ∧ keep key = true := by
  rw [mem_keys_iff, mem_keys_iff, get_filter]
  cases dict.get? key with
  | none => simp
  | some value => simp [Option.filter_some]

/-- Two dictionaries with the same lookups hold the same entries up to order. -/
theorem entries_perm (one other : Dict κ α) (same : ∀ key, one.get? key = other.get? key) :
    one.entries.Perm other.entries := by
  refine (List.perm_ext_iff_of_nodup one.distinct.of_map other.distinct.of_map).mpr ?_
  rintro ⟨key, value⟩
  rw [mem_entries_iff, mem_entries_iff, same]

theorem set_entry_same (entries : List (κ × α)) (key : κ) (value : α)
    (found : lookupEntry entries key = some value) : setEntry entries key value = entries := by
  induction entries with
  | nil => cases found
  | cons entry rest ih =>
      by_cases hit : entry.1 = key
      · simp only [lookupEntry, hit, ↓reduceIte, Option.some.injEq] at found
        simp only [setEntry, hit, ↓reduceIte, ← found]
        rw [← hit]
      · simp only [lookupEntry, hit, ↓reduceIte] at found
        simp only [setEntry, hit, ↓reduceIte, ih found]

/-- Writing the value that is there changes nothing, not even the order. -/
theorem set_same (dict : Dict κ α) (key : κ) (value : α) (found : dict.get? key = some value) :
    dict.set key value = dict := by
  simp only [set, set_entry_same dict.entries key value found]

theorem set_entry_filter (entries : List (κ × α)) (key : κ) (value : α) (keep : κ × α → Bool)
    (dropped : keep (key, value) = false)
    (before : ∀ old, (key, old) ∈ entries → keep (key, old) = false) :
    (setEntry entries key value).filter keep = entries.filter keep := by
  induction entries with
  | nil => simp [setEntry, dropped]
  | cons entry rest ih =>
      have tail := ih fun old member => before old (List.mem_cons_of_mem _ member)
      by_cases hit : entry.1 = key
      · have gone : keep (entry.1, entry.2) = false := by
          rw [hit]; exact before entry.2 (by rw [← hit]; exact List.mem_cons_self)
        have gone' : keep entry = false := gone
        simp [setEntry, hit, dropped, gone']
      · simp [setEntry, hit, List.filter_cons, tail]

/-- A write outside the selection leaves the selected rows and their order alone. -/
theorem filter_set (dict : Dict κ α) (key : κ) (value : α) (keep : κ → α → Bool)
    (dropped : keep key value = false)
    (before : ∀ old, dict.get? key = some old → keep key old = false) :
    (dict.set key value).filter keep = dict.filter keep := by
  have same := set_entry_filter dict.entries key value (fun entry => keep entry.1 entry.2) dropped
    (fun old member => before old ((mem_entries_iff dict key old).mp member))
  simp only [filter, set, same]

theorem set_all_keys (pairs : List (κ × α)) (dict : Dict κ α) (key : κ) :
    key ∈ (setAll pairs dict).keys ↔ key ∈ pairs.map Prod.fst ∨ key ∈ dict.keys := by
  induction pairs generalizing dict with
  | nil => simp [setAll]
  | cons pair rest ih =>
      show key ∈ (setAll rest (dict.set pair.1 pair.2)).keys ↔ _
      rw [ih, mem_keys_set, List.map_cons, List.mem_cons]
      constructor
      · rintro (later | here | before)
        · exact Or.inl (Or.inr later)
        · exact Or.inl (Or.inl here)
        · exact Or.inr before
      · rintro ((here | later) | before)
        · exact Or.inr (Or.inl here)
        · exact Or.inl later
        · exact Or.inr (Or.inr before)

theorem set_all_some (pairs : List (κ × α)) (dict : Dict κ α) (key : κ) (value : α)
    (found : (setAll pairs dict).get? key = some value) :
    (key, value) ∈ pairs ∨ dict.get? key = some value := by
  induction pairs generalizing dict with
  | nil => exact Or.inr found
  | cons pair rest ih =>
      rcases ih (dict.set pair.1 pair.2) found with later | before
      · exact Or.inl (List.mem_cons_of_mem _ later)
      · rw [get_set] at before
        split at before
        · next same =>
          rw [← Option.some.inj before, ← same]
          exact Or.inl List.mem_cons_self
        · exact Or.inr before

theorem mem_of_list_keys (pairs : List (κ × α)) (key : κ) :
    key ∈ (ofList pairs).keys ↔ key ∈ pairs.map Prod.fst := by
  rw [ofList, set_all_keys]
  simp [keys, empty]

theorem of_list_some (pairs : List (κ × α)) (key : κ) (value : α)
    (found : (ofList pairs).get? key = some value) : (key, value) ∈ pairs :=
  (set_all_some pairs empty key value found).resolve_right (by simp)

/-- Where the pairs give each key one value, the comprehension is that lookup. -/
theorem of_list_exact (pairs : List (κ × α)) (key : κ) (value : α) (member : (key, value) ∈ pairs)
    (unique : ∀ other, (key, other) ∈ pairs → other = value) : (ofList pairs).get? key = some value := by
  have present := (mem_of_list_keys pairs key).mpr (List.mem_map.mpr ⟨_, member, rfl⟩)
  rw [mem_keys_iff] at present
  obtain ⟨stored, found⟩ := Option.ne_none_iff_exists'.mp present
  rw [found, unique stored (of_list_some pairs key stored found)]

/-- A key that stands in one pair at most is looked up like in the list. -/
theorem of_list_find {pairs : List (κ × α)} {key : κ}
    (once : (pairs.filter fun pair => pair.1 = key).length ≤ 1) :
    (ofList pairs).get? key = (pairs.find? fun pair => pair.1 = key).map Prod.snd := by
  cases found : pairs.find? fun pair => pair.1 = key with
  | none =>
      by_contra stored
      obtain ⟨value, shown⟩ := Option.ne_none_iff_exists'.mp stored
      exact List.find?_eq_none.mp found _ (of_list_some pairs key value shown) (decide_eq_true rfl)
  | some pair =>
      have keyed : pair.1 = key := by simpa using List.find?_some found
      have member := List.mem_of_find?_eq_some found
      refine of_list_exact pairs key pair.2 (by rw [← keyed]; exact member) fun other inside => ?_
      have one : pair ∈ pairs.filter fun pair => pair.1 = key :=
        List.mem_filter.mpr ⟨member, decide_eq_true keyed⟩
      have two : (key, other) ∈ pairs.filter fun pair => pair.1 = key :=
        List.mem_filter.mpr ⟨inside, decide_eq_true rfl⟩
      obtain ⟨only, alone⟩ := List.length_eq_one_iff.mp (Nat.le_antisymm once (List.length_pos_of_mem one))
      rw [alone, List.mem_singleton] at one two
      exact congrArg Prod.snd (two.trans one.symm)

theorem of_list_perm {pairs : List (κ × α)} (distinct : (pairs.map Prod.fst).Nodup) :
    (ofList pairs).entries.Perm pairs := by
  have same (key : κ) (value : α) : (key, value) ∈ (ofList pairs).entries ↔ (key, value) ∈ pairs := by
    rw [mem_entries_iff]
    refine ⟨of_list_some pairs key value,
      fun member => of_list_exact pairs key value member fun other inside => ?_⟩
    exact congrArg Prod.snd (List.inj_on_of_nodup_map distinct inside member rfl)
  refine (List.perm_ext_iff_of_nodup (ofList pairs).distinct.of_map (distinct.of_map _)).mpr
    fun pair => same pair.1 pair.2

/-- Counting a value over a list that has every key of it is counting the entries with that value. -/
theorem count_entries [DecidableEq α] (dict : Dict κ α) (value : α) {keys : List κ}
    (distinct : keys.Nodup) (covers : ∀ key, dict.get? key = some value → key ∈ keys) :
    keys.countP (fun key => decide (dict.get? key = some value)) = dict.entries.countP fun entry =>
      decide (entry.2 = value) := by
  rw [List.countP_eq_length_filter, List.countP_eq_length_filter]
  have perm : (keys.filter fun key => decide (dict.get? key = some value)).Perm
      ((dict.entries.filter fun entry => decide (entry.2 = value)).map Prod.fst) := by
    refine (List.perm_ext_iff_of_nodup (distinct.filter _)
      (dict.distinct.sublist ((List.filter_sublist).map Prod.fst))).mpr fun key => ?_
    simp only [List.mem_filter, List.mem_map, decide_eq_true_eq]
    constructor
    · rintro ⟨_, found⟩
      exact ⟨(key, value), ⟨(mem_entries_iff dict key value).mpr found, rfl⟩, rfl⟩
    · rintro ⟨⟨other, held⟩, ⟨member, rfl⟩, rfl⟩
      have found := (mem_entries_iff dict other held).mp member
      exact ⟨covers other found, found⟩
  rw [perm.length_eq, List.length_map]

/-- Equal as Python compares dictionaries: the same keys, with values that compare equal. -/
def Agrees (same : α → α → Prop) (one other : Dict κ α) : Prop :=
  ∀ key, Option.Rel same (one.get? key) (other.get? key)

theorem agrees_eq {one other : Dict κ α} (same : ∀ key, one.get? key = other.get? key) :
    Agrees Eq one other := by
  intro key
  rw [same key]
  cases other.get? key with
  | none => exact .none
  | some value => exact .some rfl

/-- A loop that merges every value of another dictionary in. -/
theorem get_merge_loop (merge : Option α → β → α) (new : Dict κ β) (dict : Dict κ α) (key : κ) :
    (new.entries.foldl (fun merged entry => merged.set entry.1
      (merge (merged.get? entry.1) entry.2)) dict).get? key =
      (new.get? key).elim (dict.get? key) fun value => some (merge (dict.get? key) value) := by
  obtain ⟨entries, distinct⟩ := new
  show _ = (lookupEntry entries key).elim _ _
  induction entries generalizing dict with
  | nil => rfl
  | cons entry rest ih =>
      rw [List.map_cons, List.nodup_cons] at distinct
      rw [List.foldl_cons, ih _ distinct.2, lookupEntry]
      by_cases here : entry.1 = key
      · subst here
        rw [if_pos rfl, (lookup_entry_none rest entry.1).mpr distinct.1]
        exact get_set_self _ _ _
      · rw [if_neg here, get_set_other _ _ _ _ here]

end Dict

/-! Rows of a table: insertion without a conflict clause, deletion, and tables that only grow. -/

/-- INSERT without a conflict clause: none where the key is taken. -/
def insertNew (table : Dict κ α) (key : κ) (row : α) : Option (Dict κ α) :=
  if table.contains key then none else some (table.set key row)

/-- INSERT OR IGNORE. -/
def insertOrIgnore (table : Dict κ α) (key : κ) (row : α) : Dict κ α := (insertNew table key row).getD table

def removeKey (table : Dict κ α) (key : κ) : Dict κ α := table.filter fun other _ => decide (other ≠ key)

/-- INSERT OR REPLACE: the row with the key goes, and the new one is the last. -/
def insertOrReplace (table : Dict κ α) (key : κ) (row : α) : Dict κ α := (removeKey table key).set key row

def Grown (one other : Dict κ α) : Prop := ∀ key row, one.get? key = some row → other.get? key = some row

theorem get_remove_key (table : Dict κ α) (key other : κ) :
    (removeKey table key).get? other = if other = key then none else table.get? other := by
  rw [removeKey, Dict.get_filter]
  by_cases same : other = key
  · rw [if_pos same]
    cases table.get? other <;> simp [same]
  · rw [if_neg same]
    cases table.get? other <;> simp [same]

theorem get_insert_or_replace (table : Dict κ α) (key other : κ) (row : α) :
    (insertOrReplace table key row).get? other = if key = other then some row else table.get? other := by
  rw [insertOrReplace, Dict.get_set]
  by_cases same : key = other
  · rw [if_pos same, if_pos same]
  · rw [if_neg same, if_neg same, get_remove_key, if_neg (Ne.symm same)]

theorem insert_new_fresh {table : Dict κ α} {key : κ} (fresh : key ∉ table.keys) (row : α) :
    insertNew table key row = some (table.set key row) :=
  if_neg fun taken => fresh ((Dict.contains_iff _ _).mp taken)

theorem insert_new_some {table written : Dict κ α} {key : κ} {row : α}
    (inserted : insertNew table key row = some written) :
    key ∉ table.keys ∧ written = table.set key row := by
  obtain ⟨fresh, stored⟩ := Option.ite_none_left_eq_some.mp inserted
  exact ⟨fun member => fresh ((Dict.contains_iff _ _).mpr member), (Option.some.inj stored).symm⟩

theorem grown_refl (table : Dict κ α) : Grown table table := fun _ _ found => found

theorem grown_trans {one other last : Dict κ α} (first : Grown one other)
    (second : Grown other last) : Grown one last :=
  fun key row found => second key row (first key row found)

theorem length_set_fresh {table : Dict κ α} {key : κ} (fresh : key ∉ table.keys) (row : α) :
    (table.set key row).entries.length = table.entries.length + 1 := by
  have absent : key ∉ table.entries.map Prod.fst := fresh
  have lengths := congrArg List.length (set_entry_keys table.entries key row)
  rw [if_neg absent] at lengths
  simpa [Dict.set] using lengths

theorem length_same {one other : Dict κ α} (same : ∀ key, one.get? key = other.get? key) :
    one.entries.length = other.entries.length := (Dict.entries_perm one other same).length_eq

theorem grown_set {table : Dict κ α} {key : κ} (fresh : key ∉ table.keys) (row : α) :
    Grown table (table.set key row) := by
  intro other old found
  rw [Dict.get_set, if_neg, found]
  rintro rfl
  exact fresh (Dict.mem_keys_of_get found)

end KosSim.Library
