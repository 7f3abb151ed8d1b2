import Mathlib.Data.List.Basic

/-!
Cipher block chaining and padding by the number of bytes that are missing. Chaining is over
any blocks with an operation that undoes itself; chunks and padding are over bytes, for any
block size below 256.
-/

namespace KosSim.Library

/-! Chaining. -/

section Chaining
variable {β : Type} (mix : β → β → β) (enc dec : β → β)

def chain : β → List β → List β
  | _, [] => []
  | prev, block :: rest => enc (mix block prev) :: chain (enc (mix block prev)) rest

def unchain : β → List β → List β
  | _, [] => []
  | prev, block :: rest => mix (dec block) prev :: unchain block rest

variable {mix enc dec} (undo : ∀ block prev, mix (mix block prev) prev = block)
include undo

theorem unchain_chain (inverse : ∀ block, dec (enc block) = block) (blocks : List β) (prev : β) :
    unchain mix dec prev (chain mix enc prev blocks) = blocks := by
  induction blocks generalizing prev with
  | nil => rfl
  | cons block rest ih => rw [chain, unchain, inverse, undo, ih]

theorem chain_unchain (inverse : ∀ block, enc (dec block) = block) (blocks : List β) (prev : β) :
    chain mix enc prev (unchain mix dec prev blocks) = blocks := by
  induction blocks generalizing prev with
  | nil => rfl
  | cons block rest ih => rw [unchain, chain, undo, inverse, ih]

omit undo in
theorem chain_length (blocks : List β) (prev : β) : (chain mix enc prev blocks).length = blocks.length := by
  induction blocks generalizing prev with
  | nil => rfl
  | cons block rest ih => rw [chain, List.length_cons, ih, List.length_cons]

omit undo in
theorem unchain_length (blocks : List β) (prev : β) :
    (unchain mix dec prev blocks).length = blocks.length := by
  induction blocks generalizing prev with
  | nil => rfl
  | cons block rest ih => rw [unchain, List.length_cons, ih, List.length_cons]

end Chaining

/-! Blocks of bytes. -/

structure Block (n : Nat) where
  bytes : List UInt8
  size : bytes.length = n
  deriving DecidableEq

section Blocks
variable {n : Nat}

theorem block_ext {one other : Block n} (same : one.bytes = other.bytes) : one = other := by
  cases one
  cases other
  cases same
  rfl

def Block.xor (one other : Block n) : Block n where
  bytes := List.zipWith (· ^^^ ·) one.bytes other.bytes
  size := by rw [List.length_zipWith, one.size, other.size, Nat.min_self]

theorem zip_xor_undo (one other : List UInt8) (same : one.length = other.length) :
    List.zipWith (· ^^^ ·) (List.zipWith (· ^^^ ·) one other) other = one := by
  induction one generalizing other with
  | nil => rfl
  | cons byte rest ih =>
      cases other with
      | nil => cases same
      | cons mask masks =>
          rw [List.zipWith_cons_cons, List.zipWith_cons_cons, ih masks (Nat.succ.inj same), UInt8.xor_assoc,
            UInt8.xor_self, UInt8.xor_zero]

theorem block_xor_undo (one other : Block n) : (one.xor other).xor other = one :=
  block_ext (zip_xor_undo one.bytes other.bytes (one.size.trans other.size.symm))

def joinBlocks (blocks : List (Block n)) : List UInt8 := blocks.flatMap (·.bytes)

theorem join_length (blocks : List (Block n)) : (joinBlocks blocks).length = n * blocks.length := by
  induction blocks with
  | nil => rfl
  | cons block rest ih =>
      have tail : (rest.flatMap (·.bytes)).length = n * rest.length := ih
      rw [joinBlocks, List.flatMap_cons, List.length_append, tail, block.size, List.length_cons,
        Nat.mul_succ, Nat.add_comm]

/-- `slice.chunks(n)` of so many bytes at most. -/
def chunksUpTo (n : Nat) : Nat → List UInt8 → List (List UInt8)
  | 0, _ => []
  | _ + 1, [] => []
  | fuel + 1, byte :: rest => (byte :: rest).take n :: chunksUpTo n fuel ((byte :: rest).drop n)

def chunks (n : Nat) (bytes : List UInt8) : List (List UInt8) := chunksUpTo n bytes.length bytes

theorem chunks_join (positive : 0 < n) (blocks : List (Block n)) {fuel : Nat}
    (enough : blocks.length ≤ fuel) :
    chunksUpTo n fuel (joinBlocks blocks) = blocks.map (·.bytes) := by
  induction blocks generalizing fuel with
  | nil => cases fuel <;> rfl
  | cons block rest ih =>
      obtain ⟨fuel, rfl⟩ := Nat.exists_eq_add_of_lt (Nat.lt_of_lt_of_le (Nat.succ_pos rest.length) enough)
      rw [Nat.zero_add]
      have filled : joinBlocks (block :: rest) ≠ [] := by
        rw [← List.length_pos_iff, join_length, List.length_cons]
        exact Nat.mul_pos positive (Nat.succ_pos _)
      obtain ⟨byte, others, same⟩ := List.exists_cons_of_ne_nil filled
      rw [same, chunksUpTo, ← same]
      have parts : joinBlocks (block :: rest) = block.bytes ++ joinBlocks rest := List.flatMap_cons
      have front : (joinBlocks (block :: rest)).take n = block.bytes := by
        rw [parts, List.take_left' block.size]
      have back : (joinBlocks (block :: rest)).drop n = joinBlocks rest := by
        rw [parts, List.drop_left' block.size]
      rw [front, back, ih (by rw [List.length_cons] at enough; omega), List.map_cons]

/-- Bytes of whole blocks are blocks. -/
theorem whole_blocks (bytes : List UInt8) (whole : n ∣ bytes.length) :
    ∃ blocks : List (Block n), joinBlocks blocks = bytes := by
  obtain ⟨count, size⟩ := whole
  induction count generalizing bytes with
  | zero =>
      have none := List.eq_nil_of_length_eq_zero (size.trans (Nat.mul_zero n))
      exact ⟨[], none.symm⟩
  | succ count ih =>
      rw [Nat.mul_succ] at size
      obtain ⟨blocks, joined⟩ := ih (bytes.drop n) (by rw [List.length_drop, size]; omega)
      have front : (bytes.take n).length = n := by
        rw [List.length_take, size]
        omega
      refine ⟨⟨bytes.take n, front⟩ :: blocks, ?_⟩
      show bytes.take n ++ joinBlocks blocks = bytes
      rw [joined, List.take_append_drop]

end Blocks

/-! Padding. -/

section Padding
variable (n : Nat)

def padLength (message : List UInt8) : Nat := n - message.length % n

def padBlock (message : List UInt8) : List UInt8 :=
  message ++ List.replicate (padLength n message) (UInt8.ofNat (padLength n message))

variable {n} (positive : 0 < n)
include positive

theorem pad_length_bounds (message : List UInt8) : 1 ≤ padLength n message ∧ padLength n message ≤ n := by
  have bound := Nat.mod_lt message.length positive
  unfold padLength
  omega

theorem pad_block_whole (message : List UInt8) : n ∣ (padBlock n message).length := by
  have bound := Nat.mod_lt message.length positive
  have split := Nat.mod_add_div message.length n
  refine ⟨message.length / n + 1, ?_⟩
  rw [padBlock, List.length_append, List.length_replicate, padLength, Nat.mul_succ]
  omega

/-- The padding of what stands before so many copies of their number, in whole blocks. -/
theorem pad_block_cut {message : List UInt8} {count : Nat} (some_ : 1 ≤ count) (fits : count ≤ n)
    (whole : n ∣ message.length + count) :
    padBlock n message = message ++ List.replicate count (UInt8.ofNat count) := by
  have same : padLength n message = count := by
    obtain ⟨blocks, size⟩ := whole
    unfold padLength
    by_cases full : count = n
    · have even : message.length % n = 0 := by
        obtain ⟨less, rfl⟩ : ∃ less, blocks = less + 1 := ⟨blocks - 1, by
          cases blocks with
          | zero => omega
          | succ less => rfl⟩
        rw [Nat.mul_succ, full] at size
        rw [Nat.add_right_cancel size, Nat.mul_mod_right]
      omega
    · obtain ⟨less, rfl⟩ : ∃ less, blocks = less + 1 := ⟨blocks - 1, by
        cases blocks with
        | zero => omega
        | succ less => rfl⟩
      rw [Nat.mul_succ] at size
      have cut : message.length = (n - count) + n * less := by omega
      have rest : message.length % n = n - count := by
        rw [cut, Nat.add_mul_mod_self_left, Nat.mod_eq_of_lt (by omega)]
      omega
  rw [padBlock, same]

end Padding
end KosSim.Library
