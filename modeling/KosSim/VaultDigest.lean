import KosSim.Library.Sha256Blocks

/-!
crypto_util.cpp: VaultGrid's own SHA-256 and HMAC, loop by loop, against the standard ones.
The tail of a message is padded in a buffer of two blocks, of which the second is only
hashed when the length did not fit behind the first.
-/

namespace KosSim.VaultDigest
open Library Sha256

abbrev Bytes := List UInt8

/-! The source. -/

def rotr (x : Word) (n : Nat) : Word := (x >>> n) ||| (x <<< (32 - n))

def K : List Word :=
  [0x428a2f98#32, 0x71374491#32, 0xb5c0fbcf#32, 0xe9b5dba5#32, 0x3956c25b#32, 0x59f111f1#32,
    0x923f82a4#32, 0xab1c5ed5#32, 0xd807aa98#32, 0x12835b01#32, 0x243185be#32, 0x550c7dc3#32,
    0x72be5d74#32, 0x80deb1fe#32, 0x9bdc06a7#32, 0xc19bf174#32, 0xe49b69c1#32, 0xefbe4786#32,
    0x0fc19dc6#32, 0x240ca1cc#32, 0x2de92c6f#32, 0x4a7484aa#32, 0x5cb0a9dc#32, 0x76f988da#32,
    0x983e5152#32, 0xa831c66d#32, 0xb00327c8#32, 0xbf597fc7#32, 0xc6e00bf3#32, 0xd5a79147#32,
    0x06ca6351#32, 0x14292967#32, 0x27b70a85#32, 0x2e1b2138#32, 0x4d2c6dfc#32, 0x53380d13#32,
    0x650a7354#32, 0x766a0abb#32, 0x81c2c92e#32, 0x92722c85#32, 0xa2bfe8a1#32, 0xa81a664b#32,
    0xc24b8b70#32, 0xc76c51a3#32, 0xd192e819#32, 0xd6990624#32, 0xf40e3585#32, 0x106aa070#32,
    0x19a4c116#32, 0x1e376c08#32, 0x2748774c#32, 0x34b0bcb5#32, 0x391c0cb3#32, 0x4ed8aa4a#32,
    0x5b9cca4f#32, 0x682e6ff3#32, 0x748f82ee#32, 0x78a5636f#32, 0x84c87814#32, 0x8cc70208#32,
    0x90befffa#32, 0xa4506ceb#32, 0xbef9a3f7#32, 0xc67178f2#32]

def widen (byte : UInt8) : Word := BitVec.ofNat 32 byte.toNat

def loadWord (block : Bytes) (i : Nat) : Word :=
  (widen (block.getD (i * 4) 0) <<< 24) ||| (widen (block.getD (i * 4 + 1) 0) <<< 16) |||
    (widen (block.getD (i * 4 + 2) 0) <<< 8) ||| widen (block.getD (i * 4 + 3) 0)

/-- The second loop fills w[i] for i from 16 on; `w` holds the words before. -/
def extendOne (w : List Word) (i : Nat) : List Word :=
  let s0 := rotr (w.getD (i - 15) 0) 7 ^^^ rotr (w.getD (i - 15) 0) 18 ^^^ (w.getD (i - 15) 0 >>> 3)
  let s1 := rotr (w.getD (i - 2) 0) 17 ^^^ rotr (w.getD (i - 2) 0) 19 ^^^ (w.getD (i - 2) 0 >>> 10)
  w ++ [w.getD (i - 16) 0 + s0 + w.getD (i - 7) 0 + s1]

def compressRound (w : List Word) (s : Working) (i : Nat) : Working :=
  let S1 := rotr s.e 6 ^^^ rotr s.e 11 ^^^ rotr s.e 25
  let ch := (s.e &&& s.f) ^^^ (~~~s.e &&& s.g)
  let temp1 := s.h + S1 + ch + K.getD i 0 + w.getD i 0
  let S0 := rotr s.a 2 ^^^ rotr s.a 13 ^^^ rotr s.a 22
  let maj := (s.a &&& s.b) ^^^ (s.a &&& s.c) ^^^ (s.b &&& s.c)
  let temp2 := S0 + maj
  { h := s.g, g := s.f, f := s.e, e := s.d + temp1, d := s.c, c := s.b, b := s.a, a := temp1 + temp2 }

def sha256Compress (state : Working) (block : Bytes) : Working :=
  let w := (List.range' 16 48).foldl extendOne ((List.range 16).map (loadWord block))
  let s := (List.range 64).foldl (compressRound w) state
  { a := state.a + s.a, b := state.b + s.b, c := state.c + s.c, d := state.d + s.d
    e := state.e + s.e, f := state.f + s.f, g := state.g + s.g, h := state.h + s.h }

def initialState : Working :=
  ⟨0x6a09e667#32, 0xbb67ae85#32, 0x3c6ef372#32, 0xa54ff53a#32,
    0x510e527f#32, 0x9b05688c#32, 0x1f83d9ab#32, 0x5be0cd19#32⟩

/-- The loop over whole blocks, and what it leaves. Each round takes 64 bytes, so the fuel suffices. -/
def absorb : Nat → Working → Bytes → Working × Bytes
  | 0, state, data => (state, data)
  | fuel + 1, state, data =>
      if 64 ≤ data.length then absorb fuel (sha256Compress state (data.take 64))
        (data.drop 64) else (state, data)

def lengthByte (len i : Nat) : UInt8 :=
  let bitLen := BitVec.ofNat 64 len * 8
  UInt8.ofNat ((bitLen >>> (56 - i * 8)) &&& 0xff).toNat

/-- The 128 bytes of `tail`. -/
def tailOf (rest : Bytes) (len : Nat) : Bytes :=
  let copied := rest ++ List.replicate (128 - rest.length) 0
  let marked := copied.set rest.length 0x80
  let padEnd := if rest.length < 56 then 56 else 120
  (List.range 8).foldl (fun tail i => tail.set (padEnd + i) (lengthByte len i)) marked

def digestOf (s : Working) : Bytes :=
  [s.a, s.b, s.c, s.d, s.e, s.f, s.g, s.h].flatMap fun (word : Word) =>
    [UInt8.ofNat (word >>> 24).toNat, UInt8.ofNat (word >>> 16).toNat, UInt8.ofNat (word >>> 8).toNat,
      UInt8.ofNat word.toNat]

def sha256 (data : Bytes) : Bytes :=
  let (state, rest) := absorb data.length initialState data
  let tail := tailOf rest data.length
  let first := sha256Compress state (tail.take 64)
  digestOf (if 56 ≤ rest.length then sha256Compress first (tail.drop 64) else first)

def hmacSha256 (key data : Bytes) : Bytes :=
  let zeros := List.replicate 64 (0 : UInt8)
  -- memcpy over the front of the zeroed block.
  let copied := if 64 < key.length then sha256 key else key
  let keyBlock := copied ++ zeros.drop copied.length
  let ipad := (List.range 64).map fun i => keyBlock.getD i 0 ^^^ 0x36
  let opad := (List.range 64).map fun i => keyBlock.getD i 0 ^^^ 0x5c
  let innerHash := sha256 (ipad ++ data)
  sha256 (opad ++ innerHash)

/-! One block. -/

section Compress

theorem rotr_rotate {n : Nat} (x : Word) (small : n < 32) : rotr x n = x.rotateRight n := by
  rw [BitVec.rotateRight_def, Nat.mod_eq_of_lt small]
  rfl

theorem constants_same : K = roundConstants := rfl

theorem load_word_value (b0 b1 b2 b3 : UInt8) :
    (widen b0 <<< 24) ||| (widen b1 <<< 16) ||| (widen b2 <<< 8) ||| widen b3 =
      BitVec.ofNat 32 (((b0.toNat * 256 + b1.toNat) * 256 + b2.toNat) * 256 + b3.toNat) := by
  have l0 := b0.toNat_lt
  have l1 := b1.toNat_lt
  have l2 := b2.toNat_lt
  have l3 := b3.toNat_lt
  have value (b : UInt8) (k : Nat) (fits : k ≤ 24) : (widen b <<< k).toNat = b.toNat <<< k := by
    have below := b.toNat_lt
    have bound : b.toNat <<< k < 2 ^ 32 := by
      rw [Nat.shiftLeft_eq]
      calc b.toNat * 2 ^ k < 2 ^ 8 * 2 ^ k := Nat.mul_lt_mul_of_pos_right below (Nat.two_pow_pos k)
        _ ≤ 2 ^ 8 * 2 ^ 24 := Nat.mul_le_mul_left _ (Nat.pow_le_pow_right (by decide) fits)
    have whole : b.toNat % 2 ^ 32 = b.toNat := Nat.mod_eq_of_lt (by omega)
    rw [BitVec.toNat_shiftLeft, widen, BitVec.toNat_ofNat, whole, Nat.mod_eq_of_lt bound]
  have last : (widen b3).toNat = b3.toNat := by
    rw [widen, BitVec.toNat_ofNat, Nat.mod_eq_of_lt (by omega)]
  -- Each byte fills the zeros that the shifts before it have left.
  have one : b0.toNat <<< 24 ||| b1.toNat <<< 16 = (b0.toNat * 256 + b1.toNat) <<< 16 := by
    rw [← Nat.shiftLeft_add_eq_or_of_lt (by rw [Nat.shiftLeft_eq]; omega)]
    simp only [Nat.shiftLeft_eq]
    omega
  have two : (b0.toNat * 256 + b1.toNat) <<< 16 ||| b2.toNat <<< 8 =
      ((b0.toNat * 256 + b1.toNat) * 256 + b2.toNat) <<< 8 := by
    rw [← Nat.shiftLeft_add_eq_or_of_lt (by rw [Nat.shiftLeft_eq]; omega)]
    simp only [Nat.shiftLeft_eq]
    omega
  have three : ((b0.toNat * 256 + b1.toNat) * 256 + b2.toNat) <<< 8 ||| b3.toNat =
      ((b0.toNat * 256 + b1.toNat) * 256 + b2.toNat) * 256 + b3.toNat := by
    rw [← Nat.shiftLeft_add_eq_or_of_lt (by omega)]
    simp only [Nat.shiftLeft_eq]
  apply BitVec.eq_of_toNat_eq
  rw [BitVec.toNat_or, BitVec.toNat_or, BitVec.toNat_or, value b0 24 (by decide), value b1 16 (by decide),
    value b2 8 (by decide), last, one, two, three, BitVec.toNat_ofNat, Nat.mod_eq_of_lt (by omega)]

theorem load_words (count : Nat) {bytes : Bytes} (size : bytes.length = 4 * count) :
    (List.range count).map (loadWord bytes) = toWords bytes := by
  induction count generalizing bytes with
  | zero =>
      rw [List.eq_nil_of_length_eq_zero size]
      rfl
  | succ count ih =>
      match bytes with
      | b0 :: b1 :: b2 :: b3 :: rest =>
          have less : rest.length = 4 * count := by
            simp only [List.length_cons] at size
            omega
          rw [List.range_succ_eq_map, List.map_cons, List.map_map, toWords, ← ih less, ← load_word_value]
          refine congrArg (_ :: ·) (List.map_congr_left fun i _ => ?_)
          show loadWord (b0 :: b1 :: b2 :: b3 :: rest) (i + 1) = loadWord rest i
          unfold loadWord
          rw [Nat.succ_mul]
          rfl
      | [] => simp at size
      | [b0] => simp at size; omega
      | [b0, b1] => simp at size; omega
      | [b0, b1, b2] => simp at size; omega

theorem extend_one {w : List Word} (many : 16 ≤ w.length) :
    extendOne w w.length = w ++ [nextWord w.reverse] := by
  rw [next_word_reverse w many]
  unfold extendOne scheduled smallSigma0 smallSigma1
  simp only [rotr_rotate _ (show 7 < 32 by decide), rotr_rotate _ (show 18 < 32 by decide),
    rotr_rotate _ (show 17 < 32 by decide), rotr_rotate _ (show 19 < 32 by decide)]
  congr 2
  ac_rfl

theorem extend_words (count : Nat) {w : List Word} (many : 16 ≤ w.length) :
    (List.range' w.length count).foldl extendOne w = (extendSchedule count w.reverse).reverse := by
  induction count generalizing w with
  | zero => exact (List.reverse_reverse w).symm
  | succ count ih =>
      have longer : (w ++ [nextWord w.reverse]).length = w.length + 1 := by
        rw [List.length_append, List.length_singleton]
      rw [List.range'_succ, List.foldl_cons, extend_one many, ← longer, ih (by omega), extendSchedule,
        List.reverse_append]
      rfl

theorem compress_round (w : List Word) (s : Working) (i : Nat) :
    compressRound w s i = round s (K.getD i 0, w.getD i 0) := by
  unfold compressRound
  simp only [rotr_rotate _ (show 6 < 32 by decide), rotr_rotate _ (show 11 < 32 by decide),
    rotr_rotate _ (show 25 < 32 by decide), rotr_rotate _ (show 2 < 32 by decide),
    rotr_rotate _ (show 13 < 32 by decide), rotr_rotate _ (show 22 < 32 by decide)]
  rfl

theorem fold_pairs {count : Nat} {one other : List Word} (oneSize : one.length = count)
    (otherSize : other.length = count) (s : Working) :
    (List.range count).foldl (fun s i => round s (one.getD i 0, other.getD i 0)) s =
      (one.zip other).foldl round s := by
  have pairs : (List.range count).map (fun i => (one.getD i 0, other.getD i 0)) = one.zip other := by
    apply List.ext_getElem
    · rw [List.length_map, List.length_range, List.length_zip, oneSize, otherSize, Nat.min_self]
    · intro i inside zipped
      rw [List.length_map, List.length_range] at inside
      have oneInside : i < one.length := by omega
      have otherInside : i < other.length := by omega
      rw [List.getElem_map, List.getElem_range, List.getElem_zip, List.getD_eq_getElem?_getD,
        List.getD_eq_getElem?_getD, List.getElem?_eq_getElem oneInside,
        List.getElem?_eq_getElem otherInside]
      rfl
  rw [← pairs, List.foldl_map]

theorem extend_schedule_length (count : Nat) (newest : List Word) :
    (extendSchedule count newest).length = newest.length + count := by
  induction count generalizing newest with
  | zero => rfl
  | succ count ih =>
      rw [extendSchedule, ih, List.length_cons]
      omega

theorem compress_block (state : Working) {block : Bytes} (size : block.length = 64) :
    sha256Compress state block = compress state (toWords block) := by
  have words := load_words 16 size
  have many : (toWords block).length = 16 := by rw [to_words_length, size]
  have schedule := extend_words 48 (w := toWords block) (by omega)
  rw [many] at schedule
  have long : (messageSchedule (toWords block)).length = 64 := by
    rw [messageSchedule, List.length_reverse, extend_schedule_length, List.length_reverse, many]
  have rounds : (List.range 64).foldl (compressRound (messageSchedule (toWords block))) state =
      (roundConstants.zip (messageSchedule (toWords block))).foldl round state := by
    have step : compressRound (messageSchedule (toWords block)) =
        fun s i => round s (K.getD i 0, (messageSchedule (toWords block)).getD i 0) :=
      funext fun s => funext fun i => compress_round _ s i
    rw [step, fold_pairs (show K.length = 64 from rfl) long, constants_same]
  have same : sha256Compress state block =
      state.add ((List.range 64).foldl (compressRound (messageSchedule (toWords block))) state) := by
    unfold sha256Compress
    rw [words, schedule]
    rfl
  rw [same, rounds, compress]

end Compress

/-! The whole blocks. -/

theorem absorb_spec (fuel : Nat) (data : Bytes) (state : Working)
    (enough : data.length < 64 * (fuel + 1)) :
    ∃ front, data = front ++ (absorb fuel state data).2 ∧ 64 ∣ front.length ∧
      (absorb fuel state data).2.length < 64 ∧
      ∀ last, absorbed state (front ++ last) = absorbed (absorb fuel state data).1 last := by
  induction fuel generalizing state data with
  | zero =>
      rw [Nat.zero_add, Nat.mul_one] at enough
      exact ⟨[], rfl, Nat.dvd_zero 64, enough, fun last => rfl⟩
  | succ fuel ih =>
      by_cases full : 64 ≤ data.length
      · have size : (data.take 64).length = 64 := List.length_take_of_le full
        have less : (data.drop 64).length < 64 * (fuel + 1) := by
          rw [List.length_drop]
          omega
        obtain ⟨front, parts, whole, short, reads⟩ := ih _ (sha256Compress state (data.take 64)) less
        have next : absorb (fuel + 1) state data = absorb fuel (sha256Compress state (data.take 64))
            (data.drop 64) :=
          if_pos full
        refine ⟨data.take 64 ++ front, ?_, ?_, ?_, fun last => ?_⟩
        · rw [next, List.append_assoc, ← parts, List.take_append_drop]
        · rw [List.length_append, size]
          omega
        · rw [next]
          exact short
        · rw [next, List.append_assoc, absorbed_block state size, ← compress_block state size]
          exact reads last
      · have stop : absorb (fuel + 1) state data = (state, data) := if_neg full
        rw [stop]
        exact ⟨[], rfl, Nat.dvd_zero 64, Nat.lt_of_not_le full, fun last => rfl⟩

/-! The tail. -/

theorem length_byte (len : Nat) {i : Nat} (inside : i < 8) :
    lengthByte len i = UInt8.ofNat (8 * len / 256 ^ (7 - i)) := by
  have shift : 56 - i * 8 = 8 * (7 - i) := by omega
  have power : 2 ^ (56 - i * 8) = 256 ^ (7 - i) := by rw [shift, Nat.pow_mul]
  have modulus : (2 : Nat) ^ 64 = 256 ^ (7 - i) * (256 * 256 ^ i) := by
    rw [← Nat.pow_succ', ← Nat.pow_add, show 7 - i + (i + 1) = 8 by omega]
    rfl
  have read : (((BitVec.ofNat 64 len * 8) >>> (56 - i * 8)) &&& 0xff).toNat =
      8 * len / 256 ^ (7 - i) % 256 := by
    have product : (BitVec.ofNat 64 len * 8).toNat = 8 * len % 2 ^ 64 := by
      rw [BitVec.toNat_mul, BitVec.toNat_ofNat, Nat.mod_mul_mod, Nat.mul_comm]
      rfl
    have mask (n : Nat) : n &&& 255 = n % 256 := Nat.and_two_pow_sub_one_eq_mod n 8
    rw [BitVec.toNat_and, BitVec.toNat_ushiftRight, product, Nat.shiftRight_eq_div_pow, power]
    show 8 * len % 2 ^ 64 / 256 ^ (7 - i) &&& 255 = _
    rw [mask, modulus, Nat.mod_mul_right_div_self, Nat.mod_mul_right_mod]
  show UInt8.ofNat _ = _
  rw [read]
  exact UInt8.ofNat_mod_size

theorem length_bytes (len : Nat) : (List.range 8).map (lengthByte len) = bigEndian 8 (8 * len) :=
  List.map_congr_left fun _ inside => length_byte len (List.mem_range.mp inside)

theorem set_range (front : Bytes) (value : Nat → UInt8) (count : Nat) (filler : Bytes)
    (room : count ≤ filler.length) :
    (List.range count).foldl (fun tail i => tail.set (front.length + i) (value i)) (front ++ filler) =
      front ++ (List.range count).map value ++ filler.drop count := by
  induction count with
  | zero => simp only [List.range_zero, List.foldl_nil, List.map_nil, List.append_nil, List.drop_zero]
  | succ count ih =>
      have next : filler.drop count = filler[count] :: filler.drop (count + 1) :=
        List.drop_eq_getElem_cons room
      rw [List.range_succ, List.foldl_append, ih (by omega), List.foldl_cons, List.foldl_nil,
        List.map_append, next, List.append_assoc, List.set_append_right _ _ (Nat.le_add_right _ _),
        Nat.add_sub_cancel_left,
        List.set_append_right _ _ (Nat.le_of_eq (by rw [List.length_map, List.length_range]))]
      simp only [List.length_map, List.length_range, Nat.sub_self, List.set_cons_zero, List.map_cons,
        List.map_nil, List.append_assoc, List.singleton_append]

/-- The tail from its parts: the rest, the mark, the gap, the length, and zeros that are never hashed. -/
theorem tail_layout {rest : Bytes} (len padEnd : Nat)
    (place : (if rest.length < 56 then 56 else 120) = padEnd) (fits : rest.length < padEnd)
    (inside : padEnd + 8 ≤ 128) :
    tailOf rest len = rest ++ [0x80] ++ List.replicate (padEnd - 1 - rest.length) 0 ++
      bigEndian 8 (8 * len) ++ List.replicate (120 - padEnd) 0 := by
  have zeros : List.replicate (128 - rest.length) (0 : UInt8) =
      0 :: (List.replicate (padEnd - 1 - rest.length) 0 ++ List.replicate (128 - padEnd) 0) := by
    rw [List.replicate_append_replicate, ← List.replicate_succ]
    exact congrArg (List.replicate · 0) (by omega)
  have marked : (rest ++ List.replicate (128 - rest.length) 0).set rest.length 0x80 =
      (rest ++ [0x80] ++ List.replicate (padEnd - 1 - rest.length) 0) ++
      List.replicate (128 - padEnd) 0 := by
    rw [zeros, List.set_append_right _ _ (Nat.le_refl _), Nat.sub_self, List.set_cons_zero]
    simp only [List.append_assoc, List.cons_append, List.nil_append]
  have front : (rest ++ [0x80] ++ List.replicate (padEnd - 1 - rest.length) (0 : UInt8)).length =
      padEnd := by
    simp only [List.length_append, List.length_singleton, List.length_replicate]
    omega
  have written := set_range (rest ++ [0x80] ++ List.replicate (padEnd - 1 - rest.length) 0)
    (lengthByte len) 8 (List.replicate (128 - padEnd) 0) (by rw [List.length_replicate]; omega)
  rw [front] at written
  show (List.range 8).foldl (fun tail i => tail.set ((if rest.length < 56 then 56 else 120) + i)
    (lengthByte len i)) ((rest ++ List.replicate (128 - rest.length) 0).set rest.length 0x80) = _
  rw [marked, place, written, length_bytes, List.drop_replicate]
  exact congrArg (_ ++ List.replicate · 0) (by omega)

theorem tail_hashed {rest : Bytes} (state : Working) (len : Nat) (short : rest.length < 64) :
    absorbed state (rest ++ [0x80] ++ List.replicate ((119 - rest.length) % 64) 0 ++
      bigEndian 8 (8 * len)) =
      let first := sha256Compress state ((tailOf rest len).take 64)
      if 56 ≤ rest.length then sha256Compress first ((tailOf rest len).drop 64) else first := by
  have eight : (bigEndian 8 (8 * len)).length = 8 := by rw [bigEndian, List.length_map, List.length_range]
  by_cases room : rest.length < 56
  · -- one block: the second half of the buffer stays unread
    have gap : (119 - rest.length) % 64 = 55 - rest.length := by omega
    have layout := tail_layout len 56 (if_pos room) (by omega) (by decide)
    have size : (rest ++ [0x80] ++ List.replicate (55 - rest.length) 0 ++
        bigEndian 8 (8 * len)).length = 64 := by
      simp only [List.length_append, List.length_singleton, List.length_replicate, eight]
      omega
    have half : (tailOf rest len).take 64 =
        rest ++ [0x80] ++ List.replicate (55 - rest.length) 0 ++ bigEndian 8 (8 * len) := by
      rw [layout, List.take_left' size]
    have one := absorbed_block state size []
    rw [List.append_nil, absorbed_nothing] at one
    show _ = if 56 ≤ rest.length then _ else _
    rw [if_neg (by omega), gap, half, compress_block state size]
    exact one
  · have gap : (119 - rest.length) % 64 = 119 - rest.length := by omega
    have layout := tail_layout len 120 (if_neg room) (by omega) (by decide)
    have padded : rest ++ [0x80] ++ List.replicate (119 - rest.length) 0 ++
        bigEndian 8 (8 * len) = tailOf rest len := by
      rw [layout]
      exact (List.append_nil _).symm
    have size : (tailOf rest len).length = 128 := by
      rw [← padded]
      simp only [List.length_append, List.length_singleton, List.length_replicate, eight]
      omega
    have firstSize : ((tailOf rest len).take 64).length = 64 := by rw [List.length_take, size]; rfl
    have lastSize : ((tailOf rest len).drop 64).length = 64 := by rw [List.length_drop, size]
    have both := absorbed_block state firstSize ((tailOf rest len).drop 64)
    have last := absorbed_block (compress state (toWords ((tailOf rest len).take 64))) lastSize []
    rw [List.append_nil, absorbed_nothing] at last
    rw [List.take_append_drop, last] at both
    show _ = if 56 ≤ rest.length then _ else _
    rw [if_pos (by omega), gap, padded, compress_block _ firstSize, compress_block _ lastSize]
    exact both

/-! The digest. -/

theorem digest_bytes (s : Working) : digestOf s = s.bytes := by
  have word_ (word : Word) : [UInt8.ofNat (word >>> 24).toNat, UInt8.ofNat (word >>> 16).toNat,
      UInt8.ofNat (word >>> 8).toNat, UInt8.ofNat word.toNat] = bigEndian 4 word.toNat := by
    show _ = [UInt8.ofNat (word.toNat / 256 ^ 3), UInt8.ofNat (word.toNat / 256 ^ 2),
      UInt8.ofNat (word.toNat / 256 ^ 1), UInt8.ofNat (word.toNat / 256 ^ 0)]
    simp only [BitVec.toNat_ushiftRight, Nat.shiftRight_eq_div_pow, Nat.pow_zero, Nat.div_one]
    rfl
  unfold digestOf Working.bytes
  simp only [word_]

theorem pad_split {front rest : Bytes} (whole : 64 ∣ front.length) (short : rest.length < 64) :
    pad (front ++ rest) = front ++ (rest ++ [0x80] ++ List.replicate ((119 - rest.length) % 64) 0 ++
      bigEndian 8 (8 * (front ++ rest).length)) := by
  have left : (front ++ rest).length % 64 = rest.length := by
    rw [List.length_append]
    omega
  rw [pad, left]
  simp only [List.append_assoc]

theorem sha256_same (message : Bytes) : sha256 message = Sha256.sha256 message := by
  obtain ⟨front, parts, whole, short, reads⟩ :=
    absorb_spec message.length message initialState (by omega)
  have padded := pad_split whole short
  rw [← parts] at padded
  show digestOf _ = (absorbed initialHash (pad message)).bytes
  rw [digest_bytes, padded, show initialHash = initialState from rfl, reads, tail_hashed _ _ short]

/-! The HMAC. -/

theorem xored {block : Bytes} (size : block.length = 64) (mask : UInt8) :
    (List.range 64).map (fun i => block.getD i 0 ^^^ mask) =
      List.zipWith (· ^^^ ·) block (List.replicate 64 mask) := by
  apply List.ext_getElem
  · rw [List.length_map, List.length_range, List.length_zipWith, List.length_replicate, size, Nat.min_self]
  · intro i inside zipped
    rw [List.length_map, List.length_range] at inside
    have within : i < block.length := by omega
    rw [List.getElem_map, List.getElem_range, List.getElem_zipWith, List.getElem_replicate,
      List.getD_eq_getElem?_getD, List.getElem?_eq_getElem within]
    rfl

theorem hmac_same (key text : Bytes) : hmacSha256 key text = hmac Sha256.sha256 key text := by
  have short : (if 64 < key.length then Sha256.sha256 key else key).length ≤ 64 := by
    split
    · rw [sha256_length]
      decide
    · omega
  have size : ((if 64 < key.length then Sha256.sha256 key else key) ++
      List.replicate (64 - (if 64 < key.length then Sha256.sha256 key else key).length) 0).length = 64 := by
    rw [List.length_append, List.length_replicate]
    omega
  unfold hmacSha256 hmac
  simp only [sha256_same, List.drop_replicate, xored size]

theorem sha256_and_hmac_standard : (∀ message, sha256 message = Sha256.sha256 message) ∧
    ∀ key data, hmacSha256 key data = hmac Sha256.sha256 key data :=
  ⟨sha256_same, hmac_same⟩

end KosSim.VaultDigest
