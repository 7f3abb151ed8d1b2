import KosSim.Library.BlockChaining
import Mathlib.Data.List.GetD

/-!
A block behind a test of its padding. Whoever may ask, for any mask, whether the block under the
mask is padded, finds every byte of it: from the last to the first, with at most two questions for
each value of a byte.
-/

namespace KosSim.Library

section PaddingOracle
variable (n : Nat)

/-- The last bytes are as many copies of their number. -/
def Padded (bytes : List UInt8) : Prop :=
  ∃ count, 1 ≤ count ∧ count ≤ n ∧ ∀ k, n - count ≤ k → k < n → bytes.getD k 0 = UInt8.ofNat count

/-- The mask that makes the known bytes behind a position the padding, with a candidate at the position. -/
def forge (known : List UInt8) (j : Nat) (candidate : UInt8) : List UInt8 :=
  ((List.range n).map fun k => if j < k then known.getD k 0 ^^^ UInt8.ofNat (n - j) else 0).set j candidate

variable (accepts : List UInt8 → Bool)

/-- At the last position the byte before it is turned once more, as it could have been padding too. -/
def passes (known : List UInt8) (j : Nat) (candidate : UInt8) : Bool :=
  accepts (forge n known j candidate) &&
    (decide (j ≠ n - 1) || accepts ((forge n known j candidate).modify (n - 2) (· ^^^ 1)))

def guess (known : List UInt8) (j : Nat) : Option UInt8 :=
  ((List.range 256).map UInt8.ofNat).find? (passes n accepts known j)

def recoverFrom : Nat → List UInt8 → Option (List UInt8)
  | 0, known => some known
  | j + 1, known =>
      (guess n accepts known j).bind fun found =>
        recoverFrom j (known.set j (found ^^^ UInt8.ofNat (n - j)))

def recover : Option (List UInt8) := recoverFrom n accepts n (List.replicate n 0)

/-! What the masks do. -/

variable {n accepts}

theorem forge_length (known : List UInt8) (j : Nat) (candidate : UInt8) :
    (forge n known j candidate).length = n := by
  rw [forge, List.length_set, List.length_map, List.length_range]

theorem forge_get {known : List UInt8} {j k : Nat} (candidate : UInt8) (inside : k < n) :
    (forge n known j candidate).getD k 0 =
      if j = k then candidate else if j < k then known.getD k 0 ^^^ UInt8.ofNat (n - j) else 0 := by
  have there :
      ((List.range n).map fun k => if j < k then known.getD k 0 ^^^ UInt8.ofNat (n - j) else 0)[k]? =
      some (if j < k then known.getD k 0 ^^^ UInt8.ofNat (n - j) else 0) := by
    rw [List.getElem?_map, List.getElem?_range inside]
    rfl
  rw [forge, List.getD_eq_getElem?_getD, List.getElem?_set]
  by_cases same : j = k
  · rw [if_pos same, if_pos same, if_pos (by rw [List.length_map, List.length_range]; omega)]
    rfl
  · rw [if_neg same, if_neg same, there]
    rfl

theorem mask_get {middle mask : List UInt8} (size : middle.length = n) (long : mask.length = n)
    {k : Nat} (inside : k < n) :
    (List.zipWith (· ^^^ ·) middle mask).getD k 0 = middle.getD k 0 ^^^ mask.getD k 0 := by
  rw [List.getD_eq_getElem?_getD, List.getElem?_zipWith, List.getElem?_eq_getElem (by omega),
    List.getElem?_eq_getElem (by omega), List.getD_eq_getElem _ _ (by omega),
    List.getD_eq_getElem _ _ (by omega)]
  rfl

theorem modify_get {bytes : List UInt8} (change : UInt8 → UInt8) {i k : Nat} (inside : k < bytes.length) :
    (bytes.modify i change).getD k 0 = if i = k then change (bytes.getD k 0) else bytes.getD k 0 := by
  rw [List.getD_eq_getElem?_getD, List.getElem?_modify, List.getElem?_eq_getElem inside,
    List.getD_eq_getElem _ _ inside]
  show (some (if i = k then change bytes[k] else bytes[k])).getD 0 = _
  exact Option.getD_some

theorem byte_count {one other : Nat} (small : one < 256) (few : other < 256)
    (same : UInt8.ofNat one = UInt8.ofNat other) :
    one = other := by
  have values := congrArg UInt8.toNat same
  rwa [UInt8.toNat_ofNat', UInt8.toNat_ofNat', Nat.mod_eq_of_lt small, Nat.mod_eq_of_lt few] at values

/-- Behind the position stand as many copies as the mask wants; the byte at the position decides. -/
theorem padded_front {bytes : List UInt8} (bound : n < 256) {j : Nat} (front : j + 1 < n)
    (behind : ∀ k, j < k → k < n → bytes.getD k 0 = UInt8.ofNat (n - j)) :
    Padded n bytes ↔ bytes.getD j 0 = UInt8.ofNat (n - j) := by
  constructor
  · rintro ⟨count, some_, fits, copies⟩
    have last := (copies (n - 1) (by omega) (by omega)).symm.trans (behind (n - 1) (by omega) (by omega))
    have same := byte_count (by omega) (by omega) last
    rw [← same]
    exact copies j (by omega) (by omega)
  · intro here
    refine ⟨n - j, by omega, by omega, fun k from_ inside => ?_⟩
    by_cases same : k = j
    · rw [same, here]
    · exact behind k (by omega) inside

/-- The last byte alone is one copy; with more copies, the byte before it could not be turned. -/
theorem padded_last {bytes turned : List UInt8} (long : 2 ≤ n) (bound : n < 256)
    (same : turned.getD (n - 1) 0 = bytes.getD (n - 1) 0)
    (other : turned.getD (n - 2) 0 ≠ bytes.getD (n - 2) 0) :
    (Padded n bytes ∧ Padded n turned) ↔ bytes.getD (n - 1) 0 = UInt8.ofNat 1 := by
  constructor
  · rintro ⟨⟨count, some_, fits, copies⟩, ⟨more, _, fits_, copies_⟩⟩
    have last :=
      (copies (n - 1) (by omega) (by omega)).symm.trans
        (same.symm.trans (copies_ (n - 1) (by omega) (by omega)))
    have counts := byte_count (by omega) (by omega) last
    by_cases one : count = 1
    · rw [copies (n - 1) (by omega) (by omega), one]
    · -- two copies or more reach the byte before the last
      refine absurd ?_ other
      rw [copies (n - 2) (by omega) (by omega), copies_ (n - 2) (by omega) (by omega), counts]
  · intro one
    constructor
    · refine ⟨1, Nat.le_refl 1, by omega, fun k from_ inside => ?_⟩
      rw [show k = n - 1 by omega, one]
    · refine ⟨1, Nat.le_refl 1, by omega, fun k from_ inside => ?_⟩
      rw [show k = n - 1 by omega, same, one]

theorem byte_listed (byte : UInt8) : byte ∈ (List.range 256).map UInt8.ofNat :=
  List.mem_map.mpr ⟨byte.toNat, List.mem_range.mpr byte.toNat_lt, UInt8.ofNat_toNat⟩

theorem find_only {passes_ : UInt8 → Bool} {byte : UInt8}
    (only : ∀ candidate, passes_ candidate = true ↔ candidate = byte) :
    ((List.range 256).map UInt8.ofNat).find? passes_ = some byte := by
  cases found : ((List.range 256).map UInt8.ofNat).find? passes_ with
  | none => exact absurd ((only byte).mpr rfl) (List.find?_eq_none.mp found byte (byte_listed byte))
  | some first => rw [(only first).mp (List.find?_some found)]

theorem xor_moves {a b c : UInt8} : a ^^^ b = c ↔ b = a ^^^ c := by
  constructor
  · rintro rfl
    rw [← UInt8.xor_assoc, UInt8.xor_self, UInt8.zero_xor]
  · rintro rfl
    rw [← UInt8.xor_assoc, UInt8.xor_self, UInt8.zero_xor]

section Recover
variable {middle : List UInt8} (bounds : 2 ≤ n ∧ n < 256) (size : middle.length = n)
  (exact_ : ∀ mask, mask.length = n → (accepts mask = true ↔ Padded n (List.zipWith (· ^^^ ·) middle mask)))
include bounds size exact_

theorem passes_iff {known : List UInt8} {j : Nat} (inside : j < n)
    (right : ∀ k, j < k → k < n → known.getD k 0 = middle.getD k 0) (candidate : UInt8) :
    passes n accepts known j candidate = true ↔ candidate = middle.getD j 0 ^^^ UInt8.ofNat (n - j) := by
  have long := @forge_length n known j candidate
  have at_ (k : Nat) (within : k < n) := mask_get size long within
  have here : (List.zipWith (· ^^^ ·) middle (forge n known j candidate)).getD j 0 =
      middle.getD j 0 ^^^ candidate := by
    rw [at_ j inside, forge_get candidate inside, if_pos rfl]
  rw [passes, Bool.and_eq_true, Bool.or_eq_true, decide_eq_true_iff, exact_ _ long, ← xor_moves]
  by_cases last : j = n - 1
  · -- the last byte
    have turned_long : ((forge n known j candidate).modify (n - 2) (· ^^^ 1)).length = n := by
      rw [List.length_modify, long]
    rw [exact_ _ turned_long, or_iff_right (not_not.mpr last), ← here, last, show n - (n - 1) = 1 by omega]
    rw [last] at long turned_long
    refine padded_last bounds.1 bounds.2 ?_ ?_
    · rw [mask_get size turned_long (by omega), mask_get size long (by omega), modify_get _ (by omega),
        if_neg (by omega)]
    · rw [mask_get size turned_long (by omega), mask_get size long (by omega), modify_get _ (by omega),
        if_pos rfl]
      intro same
      rw [xor_moves, ← UInt8.xor_assoc, UInt8.xor_self, UInt8.zero_xor] at same
      have turned := xor_moves.mp same
      rw [UInt8.xor_self] at turned
      exact absurd turned (by decide)
  · have behind : ∀ k, j < k → k < n →
        (List.zipWith (· ^^^ ·) middle (forge n known j candidate)).getD k 0 = UInt8.ofNat (n - j) := by
      intro k later within
      rw [at_ k within, forge_get candidate within, if_neg (by omega), if_pos later,
        right k later within, ← UInt8.xor_assoc, UInt8.xor_self, UInt8.zero_xor]
    rw [padded_front bounds.2 (by omega) behind, here]
    exact and_iff_left (.inl last)

/-- Position by position, the known bytes become those of the block. -/
theorem recover_from {j : Nat} (inside : j ≤ n) {known : List UInt8} (long : known.length = n)
    (right : ∀ k, j ≤ k → k < n → known.getD k 0 = middle.getD k 0) :
    recoverFrom n accepts j known = some middle := by
  induction j generalizing known with
  | zero =>
      refine congrArg some (List.ext_getElem (long.trans size.symm) fun k one other => ?_)
      have same := right k (Nat.zero_le _) (by omega)
      rwa [List.getD_eq_getElem _ _ one, List.getD_eq_getElem _ _ other] at same
  | succ j ih =>
      have found : guess n accepts known j = some (middle.getD j 0 ^^^ UInt8.ofNat (n - j)) :=
        find_only (passes_iff bounds size exact_ (by omega) fun k later within => right k later within)
      rw [recoverFrom, found, Option.bind_some]
      refine ih (by omega) (by rw [List.length_set, long]) fun k from_ within => ?_
      rw [List.getD_eq_getElem?_getD, List.getElem?_set]
      by_cases same : j = k
      · rw [if_pos same, if_pos (by omega), Option.getD_some, UInt8.xor_assoc, UInt8.xor_self,
          UInt8.xor_zero, same]
      · rw [if_neg same, ← List.getD_eq_getElem?_getD]
        exact right k (by omega) within

theorem recover_exact : recover n accepts = some middle :=
  recover_from bounds size exact_ (Nat.le_refl n) (List.length_replicate) fun _ from_ within => by omega

end Recover
end PaddingOracle
end KosSim.Library
