import Mathlib.Data.Nat.Bitwise
import KosSim.Library.MerkleTree

/-!
Inclusion proofs for Merkle trees that pair an odd last digest with itself. The proof
lists the sibling of each layer, if there is one; the verifier follows the index of the
digest through the widths of the layers.
-/

namespace KosSim.Library
section MerkleProof
variable {δ : Type} (node : δ × δ → δ)

/-- The siblings on the way to the root, from the bottom. -/
def siblings : Nat → List δ → Nat → List δ
  | 0, _, _ => []
  | fuel + 1, layer, index =>
      if 1 < layer.length then layer[index ^^^ 1]?.toList ++ siblings fuel (nextLayer node layer)
        (index / 2) else []

/-- The digest above, and what is left of the proof. An even last digest takes no sibling. -/
def climbOne (width index : Nat) (digest : δ) (path : List δ) : Option (δ × List δ) :=
  if index % 2 = 0 ∧ index + 1 = width then some (node (digest, digest), path)
  else
    match path with
    | [] => none
    | sibling :: rest => some (node (if index % 2 = 0 then (digest, sibling) else (sibling, digest)), rest)

/-- The digest that a proof leads to in a tree of so many leaves, and what the proof has left. -/
def climb : Nat → Nat → Nat → δ → List δ → Option (δ × List δ)
  | 0, _, _, digest, path => some (digest, path)
  | fuel + 1, width, index, digest, path =>
      if 1 < width then
        (climbOne node width index digest path).bind fun (above, rest) =>
          climb fuel ((width + 1) / 2) (index / 2) above rest
      else some (digest, path)

/-! One layer. -/

theorem pairs_even {layer : List δ} {index : Nat} {left : δ} (found : layer[2 * index]? = some left) :
    (pairs layer)[index]? = some (left, layer[2 * index + 1]?.getD left) := by
  induction layer using pairs.induct generalizing index with
  | case1 => cases found
  | case2 last =>
      cases index with
      | zero => cases found; rfl
      | succ index => cases found
  | case3 first second rest ih =>
      cases index with
      | zero => cases found; rfl
      | succ index => exact ih found

theorem next_layer_even {layer : List δ} {index : Nat} {left : δ} (found : layer[2 * index]? = some left) :
    (nextLayer node layer)[index]? = some (node (left, layer[2 * index + 1]?.getD left)) := by
  rw [nextLayer, List.getElem?_map, pairs_even found]
  rfl

theorem sibling_index (index : Nat) : index ^^^ 1 = if index % 2 = 0 then index + 1 else index - 1 := by
  by_cases even : index % 2 = 0
  · rw [if_pos even, Nat.xor_one_of_even (Nat.even_iff.mpr even)]
  · rw [if_neg even, Nat.xor_one_of_odd (Nat.odd_iff.mpr (by omega))]

/-- The sibling of a layer, where there is one, takes the digest to the one above it. -/
theorem climb_one {layer : List δ} {index : Nat} {digest : δ} (found : layer[index]? = some digest)
    (rest : List δ) :
    ∃ above, climbOne node layer.length index digest (layer[index ^^^ 1]?.toList ++ rest) =
      some (above, rest) ∧ (nextLayer node layer)[index / 2]? = some above := by
  have inside := (List.getElem?_eq_some_iff.mp found).1
  rw [sibling_index]
  by_cases even : index % 2 = 0
  · have twice : 2 * (index / 2) = index := by omega
    have up := next_layer_even node (twice.symm ▸ found)
    rw [twice] at up
    rw [if_pos even]
    cases beside : layer[index + 1]? with
    | none =>
        have last : index + 1 = layer.length := by
          have := List.getElem?_eq_none_iff.mp beside
          omega
        rw [beside] at up
        exact ⟨_, if_pos ⟨even, last⟩, up⟩
    | some sibling =>
        have more := (List.getElem?_eq_some_iff.mp beside).1
        rw [beside] at up
        refine ⟨_, ?_, up⟩
        unfold climbOne
        rw [if_neg fun both => by omega]
        show some (node (if index % 2 = 0 then (digest, sibling) else (sibling, digest)), rest) = _
        rw [if_pos even]
        rfl
  · have twice : 2 * (index / 2) = index - 1 := by omega
    have next : 2 * (index / 2) + 1 = index := by omega
    obtain ⟨sibling, beside⟩ : ∃ sibling, layer[index - 1]? = some sibling :=
      ⟨_, List.getElem?_eq_getElem (by omega)⟩
    have up := next_layer_even node (twice.symm ▸ beside)
    rw [next, found] at up
    rw [if_neg even, beside]
    refine ⟨_, ?_, up⟩
    unfold climbOne
    rw [if_neg fun both => even both.1]
    show some (node (if index % 2 = 0 then (digest, sibling) else (sibling, digest)), rest) = _
    rw [if_neg even]
    rfl

/-! All layers. -/

theorem single_layer {layer : List δ} {index : Nat} {digest : δ} (found : layer[index]? = some digest)
    (short : layer.length ≤ 1) : layer = [digest] := by
  have inside := (List.getElem?_eq_some_iff.mp found).1
  have zero : index = 0 := by omega
  obtain ⟨only, rfl⟩ :=
    List.length_eq_one_iff.mp (Nat.le_antisymm short (Nat.lt_of_le_of_lt (Nat.zero_le _) inside))
  rw [zero] at found
  exact congrArg (fun item => [item]) (Option.some.inj found)

/-- The siblings of a leaf lead from it to the root and are used up. -/
theorem climb_siblings (fuel : Nat) {layer : List δ} {index : Nat} {digest : δ}
    (enough : layer.length ≤ fuel + 1) (found : layer[index]? = some digest) :
    ∃ root, climb node fuel layer.length index digest (siblings node fuel layer index) = some (root, []) ∧
      collapse node fuel layer = [root] := by
  induction fuel generalizing layer index digest with
  | zero => exact ⟨digest, rfl, single_layer found enough⟩
  | succ fuel ih =>
      rw [climb, siblings, collapse]
      by_cases more : 1 < layer.length
      · rw [if_pos more, if_pos more, if_pos more]
        obtain ⟨above, step, up⟩ :=
          climb_one node found (siblings node fuel (nextLayer node layer) (index / 2))
        have width := next_layer_length node layer
        rw [step, Option.bind_some, ← width]
        exact ih (by omega) up
      · rw [if_neg more, if_neg more, if_neg more]
        exact ⟨digest, rfl, single_layer found (Nat.le_of_not_lt more)⟩

end MerkleProof
end KosSim.Library
