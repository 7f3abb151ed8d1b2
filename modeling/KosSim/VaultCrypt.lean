import Mathlib.Data.List.GetD
import Mathlib.Logic.Equiv.Basic
import KosSim.Library.BlockChaining

/-!
The CBC layer of VaultGrid's crypt sidecar (crypt/src/main.rs). The AES block functions are
a parameter. Every slice and index of the source that could go out of range is an Option
here, and none of them does.
-/

namespace KosSim.VaultCrypt
open Library

abbrev Bytes := List UInt8
abbrev AesBlock := Block 16

/-- The block functions of the aes crate, by key. -/
structure Aes where
  encryptBlock : AesBlock → AesBlock → AesBlock
  decryptBlock : AesBlock → AesBlock → AesBlock

inductive DecryptError where
  | badPadding
  | badAlign
  deriving DecidableEq

/-- The bytes chunk[0] to chunk[15]; none is an index out of range. -/
def sixteen (chunk : Bytes) : Option AesBlock :=
  if long : 16 ≤ chunk.length then some ⟨chunk.take 16, by rw [List.length_take]; omega⟩ else none

/-- `current.copy_from_slice(chunk)`; none is the panic on another length. -/
def copyFromSlice (chunk : Bytes) : Option AesBlock :=
  if size : chunk.length = 16 then some ⟨chunk, size⟩ else none

section Cbc
variable (aes : Aes) (key : AesBlock)

def encryptLoop : AesBlock → Bytes → List Bytes → Option Bytes
  | _, out, [] => some out
  | prev, out, chunk :: rest =>
      (sixteen chunk).bind fun block =>
        let blk := aes.encryptBlock key (block.xor prev)
        encryptLoop blk (out ++ blk.bytes) rest

/-- `encrypt_cbc`; none is a panic. -/
def encryptCbc (iv : AesBlock) (plaintext : Bytes) : Option Bytes :=
  let padLen := 16 - plaintext.length % 16
  let padded := plaintext ++ List.replicate padLen (UInt8.ofNat padLen)
  encryptLoop aes key iv [] (chunks 16 padded)

def decryptLoop : AesBlock → Bytes → List Bytes → Option Bytes
  | _, out, [] => some out
  | prev, out, chunk :: rest =>
      (copyFromSlice chunk).bind fun current =>
        decryptLoop current (out ++ ((aes.decryptBlock key current).xor prev).bytes) rest

/-- The loop over the padding, from the last byte backwards. -/
def checkPad (out : Bytes) (pad : Nat) : List Nat → Option Bool
  | [] => some true
  | i :: rest =>
      if out.length < 1 + i then none
      else
        match out[out.length - 1 - i]? with
        | none => none
        | some byte => if byte ≠ UInt8.ofNat pad then some false else checkPad out pad rest

def unpad (out : Bytes) : Option (Except DecryptError Bytes) :=
  match out.getLast? with
  | none => some (.error .badPadding)
  | some last =>
      let pad := last.toNat
      if pad = 0 ∨ 16 < pad ∨ out.length < pad then some (.error .badPadding)
      else
        (checkPad out pad (List.range pad)).map fun fine =>
          if fine then .ok (out.take (out.length - pad)) else .error .badPadding

/-- `decrypt_cbc`; none is a panic. -/
def decryptCbc (iv : AesBlock) (ct : Bytes) : Option (Except DecryptError Bytes) :=
  if ct = [] ∨ ct.length % 16 ≠ 0 then some (.error .badAlign)
  else (decryptLoop aes key iv [] (chunks 16 ct)).bind unpad

end Cbc

/-! The loops are chaining. -/

section Loops
variable {aes : Aes} {key : AesBlock}

theorem sixteen_block (block : AesBlock) : sixteen block.bytes = some block := by
  rw [sixteen, dif_pos (Nat.le_of_eq block.size.symm)]
  exact congrArg some (block_ext (List.take_of_length_le (Nat.le_of_eq block.size)))

theorem copy_block (block : AesBlock) : copyFromSlice block.bytes = some block := dif_pos block.size

theorem encrypt_loop (blocks : List AesBlock) (prev : AesBlock) (out : Bytes) :
    encryptLoop aes key prev out (blocks.map (·.bytes)) =
      some (out ++ joinBlocks (chain Block.xor (aes.encryptBlock key) prev blocks)) := by
  induction blocks generalizing prev out with
  | nil => rw [chain, joinBlocks, List.flatMap_nil, List.append_nil]; rfl
  | cons block rest ih =>
      rw [List.map_cons, encryptLoop, sixteen_block, Option.bind_some, ih, List.append_assoc]
      rfl

theorem decrypt_loop (blocks : List AesBlock) (prev : AesBlock) (out : Bytes) :
    decryptLoop aes key prev out (blocks.map (·.bytes)) =
      some (out ++ joinBlocks (unchain Block.xor (aes.decryptBlock key) prev blocks)) := by
  induction blocks generalizing prev out with
  | nil => rw [unchain, joinBlocks, List.flatMap_nil, List.append_nil]; rfl
  | cons block rest ih =>
      rw [List.map_cons, decryptLoop, copy_block, Option.bind_some, ih, List.append_assoc]
      rfl

theorem chunks_blocks (blocks : List AesBlock) : chunks 16 (joinBlocks blocks) = blocks.map (·.bytes) := by
  apply chunks_join (by decide)
  rw [join_length]
  omega

theorem encrypt_blocks {iv : AesBlock} {plaintext : Bytes} {blocks : List AesBlock}
    (padded : joinBlocks blocks = padBlock 16 plaintext) :
    encryptCbc aes key iv plaintext =
      some (joinBlocks (chain Block.xor (aes.encryptBlock key) iv blocks)) := by
  show encryptLoop aes key iv [] (chunks 16 (padBlock 16 plaintext)) = _
  rw [← padded, chunks_blocks, encrypt_loop, List.nil_append]

theorem decrypt_blocks {iv : AesBlock} {blocks : List AesBlock} (filled : blocks ≠ []) :
    decryptCbc aes key iv (joinBlocks blocks) =
      unpad (joinBlocks (unchain Block.xor (aes.decryptBlock key) iv blocks)) := by
  have size := join_length blocks
  have some_ := List.length_pos_iff.mpr filled
  have aligned : ¬(joinBlocks blocks = [] ∨ (joinBlocks blocks).length % 16 ≠ 0) := by
    rw [size]
    rintro (none | uneven)
    · rw [none, List.length_nil] at size
      omega
    · exact uneven (Nat.mul_mod_right 16 _)
  rw [decryptCbc, if_neg aligned, chunks_blocks, decrypt_loop, List.nil_append, Option.bind_some]

end Loops

/-! The padding. -/

section Unpad

theorem check_pad (out : Bytes) (pad : Nat) (positions : List Nat)
    (inside : ∀ i ∈ positions, i < out.length) :
    checkPad out pad positions =
      some (positions.all fun i => decide (out[out.length - 1 - i]? = some (UInt8.ofNat pad))) := by
  induction positions with
  | nil => rfl
  | cons i rest ih =>
      rw [List.forall_mem_cons] at inside
      have there : out.length - 1 - i < out.length := by omega
      rw [checkPad, if_neg (by omega), List.all_cons, List.getElem?_eq_getElem there]
      by_cases same : out[out.length - 1 - i] = UInt8.ofNat pad
      · simp only [same, ne_eq, not_true_eq_false, ↓reduceIte, decide_true, Bool.true_and]
        exact ih inside.2
      · simp only [same, ne_eq, not_false_eq_true, ↓reduceIte, Option.some.injEq, decide_false,
          Bool.false_and]

/-- The last bytes are copies of one byte. -/
theorem tail_copies (out : Bytes) (byte : UInt8) (count : Nat) (fits : count ≤ out.length) :
    (∀ i < count, out[out.length - 1 - i]? = some byte) ↔
      out = out.take (out.length - count) ++ List.replicate count byte := by
  constructor
  · intro copies
    have back : out.drop (out.length - count) = List.replicate count byte := by
      apply List.ext_getElem?
      intro j
      rw [List.getElem?_drop, List.getElem?_replicate]
      by_cases inside : j < count
      · rw [if_pos inside]
        have here := copies (count - 1 - j) (by omega)
        rw [show out.length - 1 - (count - 1 - j) = out.length - count + j by omega] at here
        exact here
      · rw [if_neg inside]
        exact List.getElem?_eq_none_iff.mpr (by omega)
    rw [← back, List.take_append_drop]
  · intro same i inside
    rw [same, List.getElem?_append_right (by rw [List.length_take]; simp; omega),
      List.getElem?_replicate, if_pos]
    simp
    omega

theorem byte_value {count : Nat} (small : count ≤ 16) : (UInt8.ofNat count).toNat = count := by
  rw [UInt8.toNat_ofNat', Nat.mod_eq_of_lt (by omega)]

/-- The checks that the last byte has to pass. -/
theorem unpad_last {out : Bytes} {last : UInt8} (found : out.getLast? = some last) :
    unpad out =
      if last.toNat = 0 ∨ 16 < last.toNat ∨ out.length < last.toNat then some (.error .badPadding)
      else if out = out.take (out.length - last.toNat) ++ List.replicate last.toNat last then
        some (.ok (out.take (out.length - last.toNat)))
      else some (.error .badPadding) := by
  unfold unpad
  rw [found]
  dsimp only
  by_cases refused : last.toNat = 0 ∨ 16 < last.toNat ∨ out.length < last.toNat
  · rw [if_pos refused, if_pos refused]
  rw [if_neg refused, if_neg refused,
    check_pad _ _ _ fun i member => by have := List.mem_range.mp member; omega]
  have copies := tail_copies out last last.toNat (by omega)
  have every :
      (List.range last.toNat).all
      (fun i => decide (out[out.length - 1 - i]? = some (UInt8.ofNat last.toNat))) =
      true ↔ out = out.take (out.length - last.toNat) ++ List.replicate last.toNat last := by
    rw [← copies, List.all_eq_true, UInt8.ofNat_toNat]
    constructor
    · exact fun all i inside => of_decide_eq_true (all i (List.mem_range.mpr inside))
    · exact fun all i member => decide_eq_true (all i (List.mem_range.mp member))
  by_cases padded : out = out.take (out.length - last.toNat) ++ List.replicate last.toNat last
  · rw [if_pos padded, every.mpr padded]
    rfl
  · rw [if_neg padded, Bool.eq_false_iff.mpr fun all => padded (every.mp all)]
    rfl

theorem unpad_copies (message : Bytes) {count : Nat} (some_ : 1 ≤ count) (fits : count ≤ 16) :
    unpad (message ++ List.replicate count (UInt8.ofNat count)) = some (.ok message) := by
  obtain ⟨less, rfl⟩ : ∃ less, count = less + 1 := ⟨count - 1, by omega⟩
  have value := byte_value fits
  have found : (message ++ List.replicate (less + 1) (UInt8.ofNat (less + 1))).getLast? =
      some (UInt8.ofNat (less + 1)) := by
    rw [List.replicate_succ', ← List.append_assoc, List.getLast?_append, List.getLast?_singleton]
    rfl
  have front : (message ++ List.replicate (less + 1) (UInt8.ofNat (less + 1))).take
      ((message ++ List.replicate (less + 1) (UInt8.ofNat (less + 1))).length - (less + 1)) = message := by
    rw [List.length_append, List.length_replicate, Nat.add_sub_cancel, List.take_left]
  rw [unpad_last found, value, if_neg, front, if_pos rfl]
  rw [List.length_append, List.length_replicate]
  omega

theorem unpad_padded (message : Bytes) : unpad (padBlock 16 message) = some (.ok message) := by
  obtain ⟨some_, fits⟩ := pad_length_bounds (n := 16) (by decide) message
  exact unpad_copies message some_ fits

/-- What is not refused was padded. -/
theorem unpad_cases {out : Bytes} (whole : 16 ∣ out.length) (filled : out ≠ []) :
    (∃ p, unpad out = some (.ok p) ∧ out = padBlock 16 p) ∨ unpad out = some (.error .badPadding) := by
  have found := List.getLast?_eq_some_getLast filled
  rw [unpad_last found]
  generalize out.getLast filled = last
  by_cases refused : last.toNat = 0 ∨ 16 < last.toNat ∨ out.length < last.toNat
  · rw [if_pos refused]
    exact .inr rfl
  rw [if_neg refused]
  by_cases padded : out = out.take (out.length - last.toNat) ++ List.replicate last.toNat last
  · rw [if_pos padded]
    refine .inl ⟨_, rfl, ?_⟩
    have size : (out.take (out.length - last.toNat)).length + last.toNat = out.length := by
      rw [List.length_take]
      omega
    rw [pad_block_cut (by decide) (by omega : 1 ≤ last.toNat) (by omega) (size.symm ▸ whole),
      UInt8.ofNat_toNat]
    exact padded
  · rw [if_neg padded]
    exact .inr rfl

end Unpad

/-- For a key whose block functions undo each other: what is encrypted is decrypted to itself, and a
ciphertext is the encryption of what it is decrypted to or is refused. Nothing goes out of range. -/
theorem cbc_exact (aes : Aes) (key iv : AesBlock)
    (undone : ∀ block, aes.decryptBlock key (aes.encryptBlock key block) = block)
    (redone : ∀ block, aes.encryptBlock key (aes.decryptBlock key block) = block) :
    (∀ p, ∃ ct, encryptCbc aes key iv p = some ct ∧ decryptCbc aes key iv ct = some (.ok p)) ∧
      ∀ ct, (∃ p, decryptCbc aes key iv ct = some (.ok p) ∧ encryptCbc aes key iv p = some ct) ∨
        decryptCbc aes key iv ct = some (.error .badAlign) ∨
        decryptCbc aes key iv ct = some (.error .badPadding) := by
  constructor
  · intro p
    obtain ⟨blocks, padded⟩ := whole_blocks (padBlock 16 p) (pad_block_whole (by decide) p)
    refine ⟨_, encrypt_blocks padded, ?_⟩
    have filled : chain Block.xor (aes.encryptBlock key) iv blocks ≠ [] := by
      intro none
      have sizes := congrArg List.length none
      rw [chain_length] at sizes
      have empty := List.eq_nil_of_length_eq_zero sizes
      rw [empty, joinBlocks, List.flatMap_nil, padBlock] at padded
      have bounds := pad_length_bounds (n := 16) (by decide) p
      have long := congrArg List.length padded
      rw [List.length_append, List.length_replicate, List.length_nil] at long
      omega
    rw [decrypt_blocks filled, unchain_chain block_xor_undo undone, padded, unpad_padded]
  · intro ct
    by_cases uneven : ct = [] ∨ ct.length % 16 ≠ 0
    · exact .inr (.inl (if_pos uneven))
    rw [not_or, not_not] at uneven
    obtain ⟨blocks, rfl⟩ := whole_blocks (n := 16) ct (Nat.dvd_of_mod_eq_zero uneven.2)
    have filled : blocks ≠ [] := fun none => uneven.1 (none ▸ rfl)
    rw [decrypt_blocks filled]
    have whole : 16 ∣ (joinBlocks (unchain Block.xor (aes.decryptBlock key) iv blocks)).length := by
      rw [join_length]
      exact Nat.dvd_mul_right 16 _
    have some_ : joinBlocks (unchain Block.xor (aes.decryptBlock key) iv blocks) ≠ [] := by
      rw [← List.length_pos_iff, join_length, unchain_length]
      have := List.length_pos_iff.mpr filled
      omega
    rcases unpad_cases whole some_ with ⟨p, accepted, padded⟩ | refused
    · refine .inl ⟨p, accepted, ?_⟩
      rw [encrypt_blocks padded, chain_unchain block_xor_undo redone]
    · exact .inr (.inr refused)

def zeroBlock : AesBlock := ⟨List.replicate 16 0, rfl⟩

/-- A permutation of the blocks that takes the first of each pair to the second, where no block
stands in two pairs. -/
def pairedBlocks : List (AesBlock × AesBlock) → Equiv.Perm AesBlock
  | [] => Equiv.refl AesBlock
  | pair :: rest => (Equiv.swap pair.1 pair.2).trans (pairedBlocks rest)

/-- Block functions that undo each other, as far as the pairs say those of AES under one key. -/
def pairedAes (pairs : List (AesBlock × AesBlock)) : Aes where
  encryptBlock _ block := pairedBlocks pairs block
  decryptBlock _ block := (pairedBlocks pairs).symm block

/-- "three blocks of a manifest, padded in the last" -/
def threeBlocks : Bytes :=
  [116, 104, 114, 101, 101, 32, 98, 108, 111, 99, 107, 115, 32, 111, 102, 32, 97, 32, 109, 97, 110, 105,
    102, 101, 115, 116, 44, 32, 112, 97, 100, 100, 101, 100, 32, 105, 110, 32, 116, 104, 101, 32, 108,
    97, 115, 116]

/-- AES-128 under the zero key, on the blocks that the chain comes to. -/
def zeroAes : Aes := pairedAes
  [(⟨[116, 104, 114, 101, 101, 32, 98, 108, 111, 99, 107, 115, 32, 111, 102, 32], rfl⟩,
      ⟨[167, 174, 112, 111, 180, 170, 208, 99, 12, 100, 240, 125, 211, 21, 25, 31], rfl⟩),
    (⟨[198, 142, 29, 14, 218, 195, 182, 6, 127, 16, 220, 93, 163, 116, 125, 123], rfl⟩,
      ⟨[169, 174, 234, 42, 179, 147, 191, 84, 33, 83, 240, 221, 228, 81, 118, 127], rfl⟩),
    (⟨[204, 202, 202, 67, 221, 179, 203, 60, 68, 115, 156, 188, 151, 37, 116, 125], rfl⟩,
      ⟨[73, 111, 205, 196, 73, 73, 204, 204, 203, 36, 0, 230, 180, 236, 7, 122], rfl⟩)]

theorem three_blocks_sealed : ∃ ct, encryptCbc zeroAes zeroBlock zeroBlock threeBlocks = some ct ∧
    decryptCbc zeroAes zeroBlock zeroBlock ct = some (.ok threeBlocks) :=
  (cbc_exact zeroAes zeroBlock zeroBlock (Equiv.symm_apply_apply _) (Equiv.apply_symm_apply _)).1
  threeBlocks

example : encryptCbc zeroAes zeroBlock zeroBlock threeBlocks =
    some [167, 174, 112, 111, 180, 170, 208, 99, 12, 100, 240, 125, 211, 21, 25, 31, 169, 174, 234, 42,
      179, 147, 191, 84, 33, 83, 240, 221, 228, 81, 118, 127, 73, 111, 205, 196, 73, 73, 204, 204, 203,
      36, 0, 230, 180, 236, 7, 122] := by decide +kernel

end KosSim.VaultCrypt
