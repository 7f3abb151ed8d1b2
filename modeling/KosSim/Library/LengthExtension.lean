import KosSim.Library.Hex
import KosSim.Library.Sha256Blocks

/-!
Length extension of SHA-256: a digest is the state behind the padded message, so who knows a digest
and the length of the message goes on from there, without the message.
-/

namespace KosSim.Library.Sha256

/-- The message with its padding is taken up whole, so the glue is what pad puts behind the message. -/
def glue (length : Nat) : List UInt8 :=
  [0x80] ++ List.replicate ((119 - length % 64) % 64) 0 ++ bigEndian 8 (8 * length)

/-- The eight words of a digest. -/
def stateOf (digest : List UInt8) : Option Working :=
  match toWords digest with
  | [a, b, c, d, e, f, g, h] => if digest.length = 32 then some ⟨a, b, c, d, e, f, g, h⟩ else none
  | _ => none

/-- The digest of an extended message from the digest of the message. -/
def extended (digest : List UInt8) (length : Nat) (suffix : List UInt8) : Option (List UInt8) :=
  (stateOf digest).map fun state =>
    (absorbed state (suffix ++ glue (length + (glue length).length + suffix.length))).bytes

theorem pad_glue (message : List UInt8) : pad message = message ++ glue message.length := by
  rw [pad, glue]
  simp only [List.append_assoc]

theorem big_endian_length (length value : Nat) : (bigEndian length value).length = length := by
  rw [bigEndian, List.length_map, List.length_range]

theorem pad_whole (message : List UInt8) : 64 ∣ (pad message).length := by
  rw [pad, List.length_append, List.length_append, List.length_append, List.length_replicate,
    big_endian_length, List.length_singleton]
  omega

theorem absorbed_whole {front : List UInt8} (whole : 64 ∣ front.length) (hash : Working)
    (back : List UInt8) :
    absorbed hash (front ++ back) = absorbed (absorbed hash front) back := by
  obtain ⟨count, size⟩ := whole
  induction count generalizing front hash with
  | zero =>
      rw [List.eq_nil_of_length_eq_zero size]
      rfl
  | succ count ih =>
      have parts : front = front.take 64 ++ front.drop 64 := (List.take_append_drop 64 front).symm
      have first : (front.take 64).length = 64 := by
        rw [List.length_take]
        omega
      have later : (front.drop 64).length = 64 * count := by
        rw [List.length_drop]
        omega
      rw [parts, List.append_assoc, absorbed_block hash first, absorbed_block hash first, ih _ later]

theorem word_bytes (word : Word) : ∃ b0 b1 b2 b3 : UInt8, bigEndian 4 word.toNat = [b0, b1, b2, b3] ∧
    BitVec.ofNat 32 (((b0.toNat * 256 + b1.toNat) * 256 + b2.toNat) * 256 + b3.toNat) = word := by
  refine ⟨_, _, _, _, rfl, ?_⟩
  have bound := word.isLt
  apply BitVec.eq_of_toNat_eq
  simp only [BitVec.toNat_ofNat, UInt8.toNat_ofNat']
  omega

theorem words_of_bytes (words : List Word) (rest : List UInt8) :
    toWords (words.flatMap (fun word => bigEndian 4 word.toNat) ++ rest) = words ++ toWords rest := by
  induction words with
  | nil => rfl
  | cons word others ih =>
      obtain ⟨b0, b1, b2, b3, bytes, value⟩ := word_bytes word
      rw [List.flatMap_cons, bytes, List.append_assoc]
      show _ :: toWords (others.flatMap (fun word => bigEndian 4 word.toNat) ++ rest) = _
      rw [ih, value]
      rfl

theorem state_of_bytes (state : Working) : stateOf state.bytes = some state := by
  have words := words_of_bytes [state.a, state.b, state.c, state.d, state.e, state.f, state.g, state.h] []
  rw [List.append_nil, show toWords [] = [] from rfl, List.append_nil] at words
  rw [stateOf, Working.bytes, words]
  exact if_pos rfl

/-- The digest of the message, the glue and any suffix follows from the digest and the length of the
message. -/
theorem extended_digest (message suffix : List UInt8) :
    extended (sha256 message) message.length suffix =
      some (sha256 (message ++ glue message.length ++ suffix)) := by
  have padded : pad (message ++ glue message.length ++ suffix) =
      pad message ++ (suffix ++ glue (message.length + (glue message.length).length + suffix.length)) := by
    rw [pad_glue (message ++ glue message.length ++ suffix), List.length_append, List.length_append,
      pad_glue message]
    simp only [List.append_assoc]
  have one : sha256 message = (absorbed initialHash (pad message)).bytes := rfl
  have other : sha256 (message ++ glue message.length ++ suffix) =
      (absorbed initialHash (pad (message ++ glue message.length ++ suffix))).bytes := rfl
  rw [other, padded, absorbed_whole (pad_whole message), extended, one, state_of_bytes]
  rfl

end KosSim.Library.Sha256
