import Mathlib.Data.List.Nodup
import Mathlib.Data.List.Perm.Subperm

/-!
A log of rows with generated keys, read by position. A step deletes some keys and adds the
next ones of the counter; positions stay with their keys exactly as long as nothing is
deleted.
-/

namespace KosSim.Library

structure KeyedLog where
  keys : List Nat
  last : Nat

namespace KeyedLog

structure Ordered (log : KeyedLog) : Prop where
  sorted : log.keys.Pairwise (· < ·)
  bounded : ∀ key ∈ log.keys, key ≤ log.last

/-- What is left of one moment, and then the next `count` keys. -/
structure Moved (one : KeyedLog) (kept : List Nat) (other : KeyedLog) : Prop where
  left : kept.Sublist one.keys
  added : ∃ count, other.keys = kept ++ List.range' (one.last + 1) count ∧ other.last = one.last + count

/-- At two moments, a position has the same key while the key exists, no position has changed its
key, and what follows a position is what was not before it. -/
structure SamePositions (one other : KeyedLog) : Prop where
  kept : ∀ position key : Nat, one.keys[position]? = some key → key ∈ other.keys →
    other.keys[position]? = some key
  unused : ∀ position key next : Nat, one.keys[position]? = some key →
    other.keys[position]? = some next → next = key
  later : ∀ position ≤ one.keys.length,
    other.keys.drop position = other.keys.filter fun key => decide (key ∉ one.keys.take position)

variable {one other last : KeyedLog} {kept : List Nat}

theorem Ordered.nodup (ordered : Ordered one) : one.keys.Nodup := ordered.sorted.imp Nat.ne_of_lt

theorem moved_ordered (ordered : Ordered one) (moved : Moved one kept other) : Ordered other := by
  obtain ⟨count, keys, counter⟩ := moved.added
  have within : ∀ key ∈ kept, key ≤ one.last :=
    fun key member => ordered.bounded key (moved.left.subset member)
  constructor
  · rw [keys, List.pairwise_append]
    refine ⟨ordered.sorted.sublist moved.left, List.pairwise_lt_range', fun key member fresh isFresh => ?_⟩
    have low := within key member
    have high := (List.mem_range'_1.mp isFresh).1
    omega
  · intro key member
    rw [keys, List.mem_append, List.mem_range'_1] at member
    rcases member with old | ⟨_, fresh⟩
    · have low := within key old
      omega
    · omega

/-- A key that is gone does not come back. -/
theorem gone_stays (moved : Moved one kept other) {key : Nat} (old : key ≤ one.last)
    (gone : key ∉ one.keys) :
    key ≤ other.last ∧ key ∉ other.keys := by
  obtain ⟨count, keys, counter⟩ := moved.added
  refine ⟨by omega, fun member => ?_⟩
  rw [keys, List.mem_append, List.mem_range'_1] at member
  rcases member with left | ⟨fresh, _⟩
  · exact gone (moved.left.subset left)
  · omega

theorem deleted_gone (ordered : Ordered one) (moved : Moved one kept other) {key : Nat}
    (had : key ∈ one.keys) (gone : key ∉ kept) : key ≤ other.last ∧ key ∉ other.keys := by
  obtain ⟨count, keys, counter⟩ := moved.added
  have old := ordered.bounded key had
  refine ⟨by omega, fun member => ?_⟩
  rw [keys, List.mem_append, List.mem_range'_1] at member
  rcases member with left | ⟨fresh, _⟩
  · exact gone left
  · omega

/-- Positions are kept where the log has only grown. -/
theorem same_of_prefix (grown : one.keys <+: other.keys) (ordered : Ordered other) :
    SamePositions one other := by
  obtain ⟨added, keys⟩ := grown
  constructor
  · intro position key found _
    have bound : position < one.keys.length := (List.getElem?_eq_some_iff.mp found).1
    rw [← keys, List.getElem?_append_left bound]
    exact found
  · intro position key next found now
    have bound : position < one.keys.length := (List.getElem?_eq_some_iff.mp found).1
    rw [← keys, List.getElem?_append_left bound, found] at now
    exact (Option.some.inj now).symm
  · intro position within
    have cut : one.keys.take position = other.keys.take position := by
      rw [← keys, List.take_append_of_le_length within]
    have whole : other.keys.take position ++ other.keys.drop position = other.keys :=
      List.take_append_drop _ _
    have apart := List.disjoint_of_nodup_append (whole.symm ▸ ordered.nodup)
    rw [cut]
    conv_rhs => rw [← whole, List.filter_append]
    rw [List.filter_eq_nil_iff.mpr, List.nil_append, List.filter_eq_self.mpr]
    · intro key behind
      simp only [whole]
      exact decide_eq_true fun before => apart before behind
    · intro key before
      simp only [whole]
      exact fun outside => of_decide_eq_true outside before

theorem later_iff (ordered : Ordered other) (same : SamePositions one other) {start position key : Nat}
    (within : start ≤ one.keys.length) (found : other.keys[position]? = some key) :
    start ≤ position ↔ key ∉ one.keys.take start := by
  obtain ⟨bound, here⟩ := List.getElem?_eq_some_iff.mp found
  have behind : key ∈ other.keys.drop start ↔ key ∉ one.keys.take start := by
    rw [same.later start within, List.mem_filter, decide_eq_true_eq]
    exact ⟨And.right, fun outside => ⟨here ▸ List.getElem_mem bound, outside⟩⟩
  rw [← behind]
  constructor
  · intro low
    refine List.mem_iff_getElem?.mpr ⟨position - start, ?_⟩
    rw [List.getElem?_drop, Nat.add_sub_cancel' low]
    exact found
  · intro member
    obtain ⟨offset, there⟩ := List.mem_iff_getElem?.mp member
    rw [List.getElem?_drop] at there
    obtain ⟨within, same⟩ := List.getElem?_eq_some_iff.mp there
    have equal : start + offset = position :=
      (List.Nodup.getElem_inj_iff ordered.nodup).mp (same.trans here.symm)
    omega

/-- After a deletion, the next key that is added stands where another key has been. -/
theorem deleted_reused (ordered : Ordered one) (fewer : kept.length < one.keys.length)
    (later : kept.length < last.keys.length) (only : ∀ key ∈ one.keys, key ∈ last.keys → key ∈ kept) :
    ∃ position key next : Nat, one.keys[position]? = some key ∧ last.keys[position]? = some next ∧
      next ≠ key := by
  by_contra same
  have subset : one.keys.take (kept.length + 1) ⊆ kept := by
    intro key member
    obtain ⟨position, bound, found⟩ := List.getElem_of_mem member
    rw [List.getElem_take] at found
    rw [List.length_take] at bound
    have here : one.keys[position]? = some key := List.getElem?_eq_some_iff.mpr ⟨by omega, found⟩
    have there : position < last.keys.length := by omega
    have equal : last.keys[position] = key := by
      by_contra apart
      exact same ⟨position, key, _, here, List.getElem?_eq_getElem there, apart⟩
    exact only key (List.mem_of_mem_take member) (equal ▸ List.getElem_mem there)
  have count := (List.subperm_of_subset (ordered.nodup.sublist (List.take_sublist _ _)) subset).length_le
  rw [List.length_take] at count
  omega

end KeyedLog
end KosSim.Library
