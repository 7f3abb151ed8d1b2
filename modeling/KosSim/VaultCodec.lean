import KosSim.VaultJson
import Mathlib.Algebra.Group.Nat.Defs

/-!
codec.cpp: the hash of VaultGrid's ids, hex texts, and the three shards of a secret. Each byte is
covered by two bytes drawn from hashes; the three shards together give it back.
-/

namespace KosSim.VaultCodec
open Library Library.Json VaultJson

/-! The source. -/

/-- FNV-1a in 64 bits, as sixteen hex digits. -/
def shortHash (input : Bytes) : Bytes :=
  let h : BitVec 64 :=
    input.foldl (fun h c => (h ^^^ BitVec.ofNat 64 c.toNat) * 1099511628211#64) 1469598103934665603#64
  (List.range 16).map fun i => hexAt ((h >>> (4 * (15 - i))).toNat % 16)

def toHex (bytes : Bytes) : Bytes := bytes.flatMap fun c => [hexAt (c.toNat / 16), hexAt (c.toNat % 16)]

/-- std::stoul in base 16; none where it throws. -/
def stoul16 (text : Bytes) : Option Nat :=
  let number := text.dropWhile isspace
  let unsigned := if number.head? = some 45 ∨ number.head? = some 43 then number.tail else number
  let digits := unsigned.takeWhile fun c => (hexValue c).isSome
  let value := digits.foldl (fun n c => 16 * n + (hexValue c).getD 0) 0
  if digits = [] then none else some (if number.head? = some 45 then (2 ^ 64 - value) % 2 ^ 64 else value)

def fromHex : Bytes → Option Bytes
  | a :: b :: rest =>
      match stoul16 [a, b], fromHex rest with
      | some value, some bytes => some (UInt8.ofNat value :: bytes)
      | _, _ => none
  | _ => some []

def padByte (objectId : Bytes) (i : Nat) : UInt8 :=
  (shortHash (objectId ++ utf8 ":pad:" ++ digitBytes i)).getD 0 0

def noiseByte (objectId : Bytes) (i : Nat) : UInt8 :=
  (shortHash (objectId ++ utf8 ":noise:" ++ digitBytes i)).getD 1 0

def splitSecret (flag objectId : Bytes) : List Bytes :=
  [toHex (flag.zipIdx.map fun (c, i) => c ^^^ padByte objectId i),
    toHex (flag.zipIdx.map fun (_, i) => noiseByte objectId i),
    toHex (flag.zipIdx.map fun (_, i) => padByte objectId i ^^^ noiseByte objectId i)]

/-- Where one of the shards is no hex text, std::stoul throws. -/
def xorShards : List Bytes → Option Bytes
  | a :: b :: c :: _ =>
      match fromHex a, fromHex b, fromHex c with
      | some a, some b, some c =>
          some (List.zipWith (fun ab c => ab ^^^ c) (List.zipWith (fun a b => a ^^^ b) a b) c)
      | _, _, _ => none
  | _ => some []

/-! Hex texts. -/

def IsHex (text : Bytes) : Prop := ∀ c ∈ text, (hexValue c).isSome = true

theorem hex_at_value (n : Nat) (small : n < 16) : hexValue (hexAt n) = some n := by
  have digits : ∀ n < 16, hexValue (hexAt n) = some n := by decide
  exact digits n small

theorem to_hex_digits (bytes : Bytes) : IsHex (toHex bytes) := by
  intro c member
  obtain ⟨byte, -, inside⟩ := List.mem_flatMap.mp member
  have below := byte.toNat_lt
  simp only [List.mem_cons, List.not_mem_nil, or_false] at inside
  rcases inside with rfl | rfl
  · rw [hex_at_value _ (by omega)]
    rfl
  · rw [hex_at_value _ (by omega)]
    rfl

theorem to_hex_length (bytes : Bytes) : (toHex bytes).length = 2 * bytes.length := by
  induction bytes with
  | nil => rfl
  | cons c rest ih =>
      show (toHex rest).length + 2 = _
      rw [ih, List.length_cons, Nat.mul_succ]

theorem hex_no_nul {text : Bytes} (hex : IsHex text) : (0 : UInt8) ∉ text := fun member => by
  cases hex 0 member

theorem short_hash_length (input : Bytes) : (shortHash input).length = 16 := by
  rw [shortHash, List.length_map, List.length_range]

theorem stoul_pair {a b : UInt8} {m n : Nat} (high : hexValue a = some m) (low : hexValue b = some n) :
    stoul16 [a, b] = some (16 * m + n) := by
  have visible : isspace a = false :=
    isspace_above
      (Nat.le_trans (by decide) (hex_digit_low (by rw [high]; rfl : (hexValue a).isSome = true)))
  have number : [a, b].dropWhile isspace = [a, b] := List.dropWhile_cons_of_neg (by rw [visible]; decide)
  have head : [a, b].head? = some a := rfl
  have minus : ¬some a = some (45 : UInt8) :=
    fun same => hex_digit_apart high (by decide) (Option.some.inj same)
  have plus : ¬some a = some (43 : UInt8) :=
    fun same => hex_digit_apart high (by decide) (Option.some.inj same)
  have digits : [a, b].takeWhile (fun c => (hexValue c).isSome) = [a, b] := by
    rw [List.takeWhile_cons_of_pos (by rw [high]; rfl), List.takeWhile_cons_of_pos (by rw [low]; rfl),
      List.takeWhile_nil]
  unfold stoul16
  simp only [number, head, minus, plus, or_self, if_false, digits, List.foldl_cons,
    List.foldl_nil, high, low, List.cons_ne_nil, Option.getD_some, Nat.mul_zero, Nat.zero_add]

theorem from_hex_total {text : Bytes} (hex : IsHex text) : ∃ bytes, fromHex text = some bytes := by
  induction text using fromHex.induct with
  | case1 a b rest value bytes here later ih => exact ⟨_, by rw [fromHex, here, later]⟩
  | case2 a b rest missing ih =>
      obtain ⟨m, high⟩ := Option.isSome_iff_exists.mp (hex a List.mem_cons_self)
      obtain ⟨n, low⟩ := Option.isSome_iff_exists.mp (hex b (List.mem_cons_of_mem _ List.mem_cons_self))
      obtain ⟨bytes, later⟩ :=
        ih fun c member => hex c (List.mem_cons_of_mem _ (List.mem_cons_of_mem _ member))
      exact absurd later (missing _ bytes (stoul_pair high low))
  | case3 short few =>
      exact ⟨[], by
        match short with
        | [] => rfl
        | [a] => rfl
        | a :: b :: rest => exact absurd rfl (few a b rest)⟩

theorem from_to_hex (bytes : Bytes) : fromHex (toHex bytes) = some bytes := by
  induction bytes with
  | nil => rfl
  | cons c rest ih =>
      have below := c.toNat_lt
      have pair := stoul_pair (hex_at_value (c.toNat / 16) (by omega))
        (hex_at_value (c.toNat % 16) (by omega))
      have same : UInt8.ofNat (16 * (c.toNat / 16) + c.toNat % 16) = c := by
        rw [Nat.div_add_mod, UInt8.ofNat_toNat]
      show fromHex (hexAt (c.toNat / 16) :: hexAt (c.toNat % 16) :: toHex rest) = _
      rw [fromHex, pair, ih]
      dsimp only
      rw [same]

/-! The shards. -/

theorem uncovered (c p n : UInt8) : c ^^^ p ^^^ n ^^^ (p ^^^ n) = c := by
  rw [UInt8.xor_assoc c p n, UInt8.xor_assoc, UInt8.xor_self, UInt8.xor_zero]

theorem xor_split (flag objectId : Bytes) : xorShards (splitSecret flag objectId) = some flag := by
  have covered (start : Nat) : List.zipWith (fun ab c => ab ^^^ c) (List.zipWith (fun a b => a ^^^ b)
      ((flag.zipIdx start).map fun (c, i) => c ^^^ padByte objectId i)
      ((flag.zipIdx start).map fun (_, i) => noiseByte objectId i))
      ((flag.zipIdx start).map fun (_, i) => padByte objectId i ^^^ noiseByte objectId i) = flag := by
    induction flag generalizing start with
    | nil => rfl
    | cons c rest ih =>
        rw [List.zipIdx_cons, List.map_cons, List.map_cons, List.map_cons, List.zipWith_cons_cons,
          List.zipWith_cons_cons, ih, uncovered]
  rw [splitSecret, xorShards, from_to_hex, from_to_hex, from_to_hex]
  dsimp only
  rw [covered 0]

theorem shard_hex {flag objectId shard : Bytes} (member : shard ∈ splitSecret flag objectId) :
    IsHex shard ∧ shard.length = 2 * flag.length := by
  simp only [splitSecret, List.mem_cons, List.not_mem_nil, or_false] at member
  rcases member with rfl | rfl | rfl
  · exact ⟨to_hex_digits _, by rw [to_hex_length, List.length_map, List.length_zipIdx]⟩
  · exact ⟨to_hex_digits _, by rw [to_hex_length, List.length_map, List.length_zipIdx]⟩
  · exact ⟨to_hex_digits _, by rw [to_hex_length, List.length_map, List.length_zipIdx]⟩

theorem xor_total {shards : List Bytes} (hex : ∀ shard ∈ shards, IsHex shard) :
    ∃ secret, xorShards shards = some secret := by
  unfold xorShards
  split
  · next a b c rest =>
    obtain ⟨first, one⟩ := from_hex_total (hex a (by simp))
    obtain ⟨second, two⟩ := from_hex_total (hex b (by simp))
    obtain ⟨third, three⟩ := from_hex_total (hex c (by simp))
    rw [one, two, three]
    exact ⟨_, rfl⟩
  · exact ⟨[], rfl⟩

end KosSim.VaultCodec
