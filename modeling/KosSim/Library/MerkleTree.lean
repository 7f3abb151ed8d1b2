import Mathlib.Data.List.Nodup
import Mathlib.Data.Set.Function
import Mathlib.Logic.Function.Iterate

/-!
Merkle trees over a list of digests: each layer pairs its neighbours, an odd last one
with itself, until one is left. Lists without repetition are recovered from the root as
long as no two pairs that were hashed collide and no pair gives one of the first digests.
-/

namespace KosSim.Library
section MerkleTree
variable {δ : Type}

def pairs : List δ → List (δ × δ)
  | [] => []
  | [last] => [(last, last)]
  | left :: right :: rest => (left, right) :: pairs rest

variable (node : δ × δ → δ)

def nextLayer (layer : List δ) : List δ := (pairs layer).map node

/-- The layer after so many rounds; a layer of one digest is the last. -/
def collapse : Nat → List δ → List δ
  | 0, layer => layer
  | fuel + 1, layer => if 1 < layer.length then collapse fuel (nextLayer node layer) else layer

def rootOf (empty : δ) (leaves : List δ) : δ := (collapse node leaves.length leaves).headD empty

/-- The pairs that are hashed on the way to the root. -/
def hashedPairs : Nat → List δ → List (δ × δ)
  | 0, _ => []
  | fuel + 1, layer =>
      if 1 < layer.length then pairs layer ++ hashedPairs fuel (nextLayer node layer) else []

/-! Lengths. -/

theorem pairs_length (layer : List δ) : (pairs layer).length = (layer.length + 1) / 2 := by
  induction layer using pairs.induct with
  | case1 => simp [pairs]
  | case2 last => simp [pairs]
  | case3 left right rest ih =>
      rw [pairs, List.length_cons, ih, List.length_cons, List.length_cons]
      omega

theorem next_layer_length (layer : List δ) : (nextLayer node layer).length = (layer.length + 1) / 2 := by
  rw [nextLayer, List.length_map, pairs_length]

theorem collapse_length {fuel : Nat} {layer : List δ} (filled : layer ≠ [])
    (enough : layer.length ≤ fuel + 1) :
    (collapse node fuel layer).length = 1 := by
  induction fuel generalizing layer with
  | zero =>
      have positive := List.length_pos_iff.mpr filled
      exact Nat.le_antisymm enough positive
  | succ fuel ih =>
      have positive := List.length_pos_iff.mpr filled
      rw [collapse]
      by_cases more : 1 < layer.length
      · rw [if_pos more]
        have shorter := next_layer_length node layer
        apply ih
        · rw [← List.length_pos_iff]
          omega
        · omega
      · rw [if_neg more]
        omega

theorem collapse_root {layer : List δ} (filled : layer ≠ []) (empty : δ) :
    collapse node layer.length layer = [rootOf node empty layer] := by
  obtain ⟨digest, single⟩ :=
    List.length_eq_one_iff.mp (collapse_length node filled (Nat.le_succ layer.length))
  rw [rootOf, single]
  rfl

/-! One layer. -/

/-- The pairs of a list without repetition give it back: only an odd last one is paired with itself. -/
theorem pairs_injective {one other : List δ} (oneDistinct : one.Nodup) (otherDistinct : other.Nodup)
    (same : pairs one = pairs other) : one = other := by
  induction one using pairs.induct generalizing other with
  | case1 =>
      cases other using pairs.induct with
      | case1 => rfl
      | case2 last => cases same
      | case3 left right rest => cases same
  | case2 last =>
      cases other using pairs.induct with
      | case1 => cases same
      | case2 second =>
          simp only [pairs, List.cons.injEq, Prod.mk.injEq, and_true, and_self] at same
          rw [same]
      | case3 left right rest =>
          simp only [pairs, List.cons.injEq, Prod.mk.injEq] at same
          simp [← same.1.1, ← same.1.2] at otherDistinct
  | case3 left right rest ih =>
      cases other using pairs.induct with
      | case1 => cases same
      | case2 last =>
          simp only [pairs, List.cons.injEq, Prod.mk.injEq] at same
          simp [same.1.1, same.1.2] at oneDistinct
      | case3 second third others =>
          simp only [pairs, List.cons.injEq, Prod.mk.injEq] at same
          rw [same.1.1, same.1.2, ih (List.nodup_cons.mp (List.nodup_cons.mp oneDistinct).2).2
            (List.nodup_cons.mp (List.nodup_cons.mp otherDistinct).2).2 same.2]

theorem pairs_firsts (layer : List δ) : ((pairs layer).map Prod.fst).Sublist layer := by
  induction layer using pairs.induct with
  | case1 => exact List.Sublist.refl []
  | case2 last => exact List.Sublist.refl [last]
  | case3 left right rest ih => exact (ih.cons right).cons_cons left

theorem map_injective_on {ε : Type} {f : δ → ε} {kept : Set δ} (inj : Set.InjOn f kept)
    {one other : List δ} (ones : ∀ item ∈ one, item ∈ kept) (others : ∀ item ∈ other, item ∈ kept)
    (same : one.map f = other.map f) :
    one = other := by
  induction one generalizing other with
  | nil => exact (List.map_eq_nil_iff.mp same.symm).symm
  | cons item rest ih =>
      cases other with
      | nil => cases same
      | cons second tail =>
          rw [List.map_cons, List.map_cons, List.cons.injEq] at same
          rw [List.forall_mem_cons] at ones others
          rw [inj ones.1 others.1 same.1, ih ones.2 others.2 same.2]

/-! All layers: the n-th one is the n-th iterate. -/

/-- Collapsing stops after some rounds, and hashes the pairs of all the layers before. -/
theorem collapse_iterate (fuel : Nat) (layer : List δ) :
    ∃ n, collapse node fuel layer = (nextLayer node)^[n] layer ∧
      ∀ i < n, ∀ pair ∈ pairs ((nextLayer node)^[i] layer), pair ∈ hashedPairs node fuel layer := by
  induction fuel generalizing layer with
  | zero => exact ⟨0, rfl, fun i none => absurd none (Nat.not_lt_zero i)⟩
  | succ fuel ih =>
      by_cases more : 1 < layer.length
      · obtain ⟨n, last, hashed⟩ := ih (nextLayer node layer)
        refine ⟨n + 1, ?_, ?_⟩
        · rw [collapse, if_pos more, last, Function.iterate_succ_apply]
        · intro i before pair member
          rw [hashedPairs, if_pos more, List.mem_append]
          cases i with
          | zero => exact .inl member
          | succ i =>
              rw [Function.iterate_succ_apply] at member
              exact .inr (hashed i (Nat.lt_of_succ_lt_succ before) pair member)
      · exact ⟨0, by rw [collapse, if_neg more]; rfl, fun i none => absurd none (Nat.not_lt_zero i)⟩

/-- A root is a first digest or the hash of a hashed pair. -/
theorem root_made {layer : List δ} (filled : layer ≠ []) (empty : δ) :
    rootOf node empty layer ∈ layer ∨ ∃ pair ∈ hashedPairs node layer.length layer,
      rootOf node empty layer = node pair := by
  obtain ⟨n, last, hashed⟩ := collapse_iterate node layer.length layer
  have member : rootOf node empty layer ∈ (nextLayer node)^[n] layer := by
    rw [← last, collapse_root node filled empty]
    exact List.mem_singleton_self _
  cases n with
  | zero => exact .inl member
  | succ n =>
      rw [Function.iterate_succ_apply'] at member
      obtain ⟨pair, listed, made⟩ := List.mem_map.mp member
      exact .inr ⟨pair, hashed n (Nat.lt_succ_self n) pair listed, made.symm⟩

theorem mem_pairs {layer : List δ} {pair : δ × δ} (member : pair ∈ pairs layer) :
    pair.1 ∈ layer ∧ pair.2 ∈ layer := by
  induction layer using pairs.induct with
  | case1 => cases member
  | case2 last =>
      rw [List.mem_singleton.mp member]
      exact ⟨List.mem_singleton_self _, List.mem_singleton_self _⟩
  | case3 left right rest ih =>
      rcases List.mem_cons.mp member with rfl | inside
      · exact ⟨List.mem_cons_self, List.mem_cons_of_mem _ List.mem_cons_self⟩
      · have both := ih inside
        exact ⟨List.mem_cons_of_mem _ (List.mem_cons_of_mem _ both.1),
          List.mem_cons_of_mem _ (List.mem_cons_of_mem _ both.2)⟩

/-- What holds of the first digests and of every hash holds of all digests that are hashed. -/
theorem hashed_pairs_all {holds : δ → Prop} (nodes : ∀ pair, holds (node pair)) (fuel : Nat)
    {layer : List δ} (firsts : ∀ digest ∈ layer, holds digest) :
    ∀ pair ∈ hashedPairs node fuel layer, holds pair.1 ∧ holds pair.2 := by
  induction fuel generalizing layer with
  | zero => intro pair member; cases member
  | succ fuel ih =>
      intro pair member
      rw [hashedPairs] at member
      by_cases more : 1 < layer.length
      · rw [if_pos more, List.mem_append] at member
        rcases member with here | later
        · have both := mem_pairs here
          exact ⟨firsts _ both.1, firsts _ both.2⟩
        · apply ih _ pair later
          intro digest made
          obtain ⟨below, _, rfl⟩ := List.mem_map.mp made
          exact nodes below
      · rw [if_neg more] at member
        cases member

variable {node}

section Layers
variable {kept : Set (δ × δ)} (inj : Set.InjOn node kept)
include inj

theorem layers_distinct {layer : List δ} (distinct : layer.Nodup) {n : Nat}
    (hashed : ∀ i < n, ∀ pair ∈ pairs ((nextLayer node)^[i] layer), pair ∈ kept) :
    ((nextLayer node)^[n] layer).Nodup := by
  induction n with
  | zero => exact distinct
  | succ n ih =>
      have before := ih fun i less => hashed i (Nat.lt_succ_of_lt less)
      rw [Function.iterate_succ_apply', nextLayer]
      have single : (pairs ((nextLayer node)^[n] layer)).Nodup :=
        ((pairs_firsts _).nodup before).of_map Prod.fst
      apply List.Nodup.map_on _ single
      intro one oneMember other otherMember same
      exact inj (hashed n (Nat.lt_succ_self n) one oneMember)
        (hashed n (Nat.lt_succ_self n) other otherMember) same

/-- Equal layers come from equal layers, down to the first list of the lower tree. -/
theorem layers_peel {one other : List δ} (oneDistinct : one.Nodup) (otherDistinct : other.Nodup)
    {d k : Nat} (ones : ∀ i < d, ∀ pair ∈ pairs ((nextLayer node)^[i] one), pair ∈ kept)
    (others : ∀ i < d + k, ∀ pair ∈ pairs ((nextLayer node)^[i] other), pair ∈ kept)
    (same : (nextLayer node)^[d] one = (nextLayer node)^[d + k] other) :
    one = (nextLayer node)^[k] other := by
  induction d with
  | zero => rw [← Nat.zero_add k]; exact same
  | succ d ih =>
      rw [Nat.add_right_comm] at same others
      rw [Function.iterate_succ_apply', Function.iterate_succ_apply'] at same
      have below : pairs ((nextLayer node)^[d] one) = pairs ((nextLayer node)^[d + k] other) :=
        map_injective_on inj (ones d (Nat.lt_succ_self d)) (others (d + k) (Nat.lt_succ_self _)) same
      have oneBefore : ∀ i < d, ∀ pair ∈ pairs ((nextLayer node)^[i] one), pair ∈ kept :=
        fun i less => ones i (Nat.lt_succ_of_lt less)
      have otherBefore : ∀ i < d + k, ∀ pair ∈ pairs ((nextLayer node)^[i] other), pair ∈ kept :=
        fun i less => others i (Nat.lt_succ_of_lt less)
      apply ih oneBefore otherBefore
      exact pairs_injective (layers_distinct inj oneDistinct oneBefore)
        (layers_distinct inj otherDistinct otherBefore) below

omit inj in
/-- A list of first digests is no later layer: its digests are no hashes of pairs. -/
theorem first_layer {one other : List δ} (filled : one ≠ [])
    (apart : ∀ pair ∈ kept, node pair ∉ one) {k : Nat}
    (others : ∀ i < k, ∀ pair ∈ pairs ((nextLayer node)^[i] other), pair ∈ kept)
    (same : one = (nextLayer node)^[k] other) : one = other := by
  cases k with
  | zero => exact same
  | succ k =>
      obtain ⟨digest, member⟩ := List.exists_mem_of_ne_nil one filled
      have hashed := member
      rw [same, Function.iterate_succ_apply'] at hashed
      obtain ⟨pair, listed, made⟩ := List.mem_map.mp hashed
      rw [← made] at member
      exact absurd member (apart pair (others k (Nat.lt_succ_self k) pair listed))

/-- The root determines the list. -/
theorem collapse_injective {one other : List δ} (oneDistinct : one.Nodup) (otherDistinct : other.Nodup)
    (oneFilled : one ≠ []) (otherFilled : other ≠ [])
    (ones : ∀ pair ∈ hashedPairs node one.length one, pair ∈ kept)
    (others : ∀ pair ∈ hashedPairs node other.length other, pair ∈ kept)
    (oneApart : ∀ pair ∈ kept, node pair ∉ one) (otherApart : ∀ pair ∈ kept, node pair ∉ other)
    (same : collapse node one.length one = collapse node other.length other) : one = other := by
  obtain ⟨d, oneLast, oneHashed⟩ := collapse_iterate node one.length one
  obtain ⟨e, otherLast, otherHashed⟩ := collapse_iterate node other.length other
  have onePairs : ∀ i < d, ∀ pair ∈ pairs ((nextLayer node)^[i] one), pair ∈ kept :=
    fun i less pair member => ones pair (oneHashed i less pair member)
  have otherPairs : ∀ i < e, ∀ pair ∈ pairs ((nextLayer node)^[i] other), pair ∈ kept :=
    fun i less pair member => others pair (otherHashed i less pair member)
  rw [oneLast, otherLast] at same
  rcases Nat.le_total d e with lower | lower
  · obtain ⟨k, rfl⟩ := Nat.exists_eq_add_of_le lower
    have peeled := layers_peel inj oneDistinct otherDistinct onePairs otherPairs same
    exact first_layer oneFilled oneApart (fun i less => otherPairs i (by omega)) peeled
  · obtain ⟨k, rfl⟩ := Nat.exists_eq_add_of_le lower
    have peeled := layers_peel inj otherDistinct oneDistinct otherPairs onePairs same.symm
    exact (first_layer otherFilled otherApart (fun i less => onePairs i (by omega)) peeled).symm

end Layers

end MerkleTree
end KosSim.Library
