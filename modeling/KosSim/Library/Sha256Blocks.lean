import KosSim.Library.Sha256

/-!
SHA-256 over messages that are cut at block boundaries, and HMAC as RFC 2104 defines it.
-/

namespace KosSim.Library.Sha256

/-- The state after some whole blocks of bytes. -/
def absorbed (hash : Working) (bytes : List UInt8) : Working := (blocks (toWords bytes)).foldl compress hash

theorem to_words_append {front : List UInt8} (back : List UInt8) (whole : 4 ∣ front.length) :
    toWords (front ++ back) = toWords front ++ toWords back := by
  induction front using toWords.induct with
  | case1 b0 b1 b2 b3 rest ih =>
      have less : 4 ∣ rest.length := by
        simp only [List.length_cons] at whole
        omega
      simp only [List.cons_append, toWords, ih less]
  | case2 short few =>
      match short with
      | [] => rfl
      | [b0] => simp at whole
      | [b0, b1] => simp at whole
      | [b0, b1, b2] => simp at whole
      | b0 :: b1 :: b2 :: b3 :: rest => exact absurd rfl (few b0 b1 b2 b3 rest)

theorem to_words_length (bytes : List UInt8) : (toWords bytes).length = bytes.length / 4 := by
  induction bytes using toWords.induct with
  | case1 b0 b1 b2 b3 rest ih =>
      rw [toWords, List.length_cons, ih]
      simp only [List.length_cons]
      omega
  | case2 short few =>
      match short with
      | [] => rfl
      | [b0] => simp [toWords]
      | [b0, b1] => simp [toWords]
      | [b0, b1, b2] => simp [toWords]
      | b0 :: b1 :: b2 :: b3 :: rest => exact absurd rfl (few b0 b1 b2 b3 rest)

theorem blocks_cons {words : List Word} (size : words.length = 16) (rest : List Word) :
    blocks (words ++ rest) = words :: blocks rest := by
  have count : (words ++ rest).length / 16 = rest.length / 16 + 1 := by
    rw [List.length_append, size]
    omega
  have first : ((words ++ rest).drop (16 * 0)).take 16 = words := by
    rw [Nat.mul_zero, List.drop_zero, ← size, List.take_left]
  have later (i : Nat) : ((words ++ rest).drop (16 * (i + 1))).take 16 = (rest.drop (16 * i)).take 16 := by
    rw [Nat.mul_succ, Nat.add_comm, ← List.drop_drop, List.drop_left' size]
  rw [blocks, count, List.range_succ_eq_map, List.map_cons, List.map_map, first]
  exact congrArg (words :: ·) (List.map_congr_left fun i _ => later i)

theorem absorbed_block (hash : Working) {block : List UInt8} (size : block.length = 64)
    (rest : List UInt8) :
    absorbed hash (block ++ rest) = absorbed (compress hash (toWords block)) rest := by
  rw [absorbed, to_words_append rest (by rw [size]; decide), blocks_cons (by rw [to_words_length, size]),
    List.foldl_cons]
  rfl

theorem absorbed_nothing (hash : Working) : absorbed hash [] = hash := rfl

/-! The schedule, oldest word first. -/

/-- The word of the schedule after the given ones. -/
def scheduled (words : List Word) : Word :=
  smallSigma1 (words.getD (words.length - 2) 0) + words.getD (words.length - 7) 0 +
    smallSigma0 (words.getD (words.length - 15) 0) + words.getD (words.length - 16) 0

theorem next_word_reverse (words : List Word) (many : 16 ≤ words.length) :
    nextWord words.reverse = scheduled words := by
  have at_ (k : Nat) (inside : k < words.length) :
      words.reverse.getD k 0 = words.getD (words.length - 1 - k) 0 := by
    rw [List.getD_eq_getElem?_getD, List.getD_eq_getElem?_getD, List.getElem?_reverse inside]
  rw [nextWord, scheduled, at_ 1 (by omega), at_ 6 (by omega), at_ 14 (by omega), at_ 15 (by omega)]
  simp only [Nat.sub_sub]

end KosSim.Library.Sha256

namespace KosSim.Library

/-- HMAC over a hash with blocks of 64 bytes. -/
def hmac (hash : List UInt8 → List UInt8) (key text : List UInt8) : List UInt8 :=
  let short := if 64 < key.length then hash key else key
  let padded := short ++ List.replicate (64 - short.length) 0
  let inner := List.zipWith (· ^^^ ·) padded (List.replicate 64 0x36)
  let outer := List.zipWith (· ^^^ ·) padded (List.replicate 64 0x5c)
  hash (outer ++ hash (inner ++ text))

end KosSim.Library
