import KosSim.VaultDigest
import KosSim.VaultJson

/-!
VaultGrid's session tokens: the hand-written base64url of crypto_util.cpp, and sign_session and
verify_session of accounts.cpp. The reader of the fields returns an int.
-/

namespace KosSim.VaultSessions
open Library Library.Json VaultJson
open VaultDigest (hmacSha256)

/-! The source. -/

/-- A–Z, a–z, 0–9, - and _. -/
def b64urlAlphabet : Bytes :=
  (List.range' 65 26 ++ List.range' 97 26 ++ List.range' 48 10).map UInt8.ofNat ++ [45, 95]

def sextet (n : Nat) : UInt8 := b64urlAlphabet.getD (n &&& 0x3f) 0

def base64urlEncode : Bytes → Bytes
  | a :: b :: c :: rest =>
      let v := a.toNat <<< 16 ||| b.toNat <<< 8 ||| c.toNat
      sextet (v >>> 18) :: sextet (v >>> 12) :: sextet (v >>> 6) :: sextet v :: base64urlEncode rest
  | [a, b] =>
      let v := a.toNat <<< 16 ||| b.toNat <<< 8
      [sextet (v >>> 18), sextet (v >>> 12), sextet (v >>> 6)]
  | [a] =>
      let v := a.toNat <<< 16
      [sextet (v >>> 18), sextet (v >>> 12)]
  | [] => []

/-- The loop over the text; the buffer keeps 32 bits. -/
def decodeLoop : Bytes → Nat → Nat → Bytes
  | [], _, _ => []
  | c :: rest, buffer, bits =>
      match if c = 61 then none else b64urlAlphabet.idxOf? c with
      | none => decodeLoop rest buffer bits
      | some v =>
          let filled := (buffer <<< 6 ||| v) % 2 ^ 32
          if 8 ≤ bits + 6 then
            UInt8.ofNat ((filled >>> (bits + 6 - 8)) &&& 0xff) :: decodeLoop rest filled (bits + 6 - 8)
          else decodeLoop rest filled (bits + 6)

def base64urlDecode (text : Bytes) : Bytes := decodeLoop text 0 0

def constantTimeEq (a b : Bytes) : Bool :=
  if a.length ≠ b.length then false else (List.zipWith (· ^^^ ·) a b).foldl (· ||| ·) 0 = 0

def uidKey : Bytes := utf8 "uid"
def expKey : Bytes := utf8 "exp"

def sessionMark : Bytes := utf8 ":session"

abbrev dot : UInt8 := 46

def sessionBody (uid exp : Int) : Bytes :=
  openBrace :: (needleOf uidKey ++ colon :: (intText uid ++ comma ::
    (needleOf expKey ++ colon :: (intText exp ++ [closeBrace]))))

def signSession (secret : Bytes) (uid exp : Int) : Bytes :=
  let bodyB64 := base64urlEncode (sessionBody uid exp)
  let sig := hmacSha256 (secret ++ sessionMark) bodyB64
  bodyB64 ++ dot :: base64urlEncode sig

/-- The answer, and what uid and exp hold afterwards. -/
def verifySession (secret token : Bytes) (uid exp : Int) : Bool × Int × Int :=
  match cutAt [dot] token with
  | none => (false, uid, exp)
  | some (bodyB64, sigB64) =>
      let want := hmacSha256 (secret ++ sessionMark) bodyB64
      if constantTimeEq (base64urlEncode want) sigB64 then
        let body := base64urlDecode bodyB64
        let uid := jsonInt body uidKey (-1)
        let exp := jsonInt body expKey 0
        (decide (0 ≤ uid) && decide (0 < exp), uid, exp)
      else (false, uid, exp)

/-! base64url. -/

theorem low_bits (n : Nat) : n &&& 0x3f = n % 64 := Nat.and_two_pow_sub_one_eq_mod n 6

theorem sextet_read (n : Nat) :
    sextet n ≠ 61 ∧ sextet n ≠ dot ∧ b64urlAlphabet.idxOf? (sextet n) = some (n % 64) := by
  have digits : ∀ n < 64, b64urlAlphabet.getD n 0 ≠ 61 ∧ b64urlAlphabet.getD n 0 ≠ dot ∧
      b64urlAlphabet.idxOf? (b64urlAlphabet.getD n 0) = some n := by decide
  rw [sextet, low_bits]
  exact digits (n % 64) (Nat.mod_lt n (by decide))

theorem shifted_in (buffer n : Nat) : buffer <<< 6 ||| n % 64 = buffer * 64 + n % 64 := by
  rw [← Nat.shiftLeft_add_eq_or_of_lt (Nat.mod_lt n (by decide)), Nat.shiftLeft_eq]

theorem decode_sextet (n : Nat) (rest : Bytes) (buffer bits : Nat) :
    decodeLoop (sextet n :: rest) buffer bits =
      if 8 ≤ bits + 6 then
        UInt8.ofNat ((buffer * 64 + n % 64) % 2 ^ 32 / 2 ^ (bits + 6 - 8)) ::
          decodeLoop rest ((buffer * 64 + n % 64) % 2 ^ 32) (bits + 6 - 8)
      else decodeLoop rest ((buffer * 64 + n % 64) % 2 ^ 32) (bits + 6) := by
  have byte (m : Nat) : UInt8.ofNat (m &&& 0xff) = UInt8.ofNat m := by
    rw [show m &&& 0xff = m % 256 from Nat.and_two_pow_sub_one_eq_mod m 8]
    exact UInt8.ofNat_mod_size
  obtain ⟨noPad, -, read⟩ := sextet_read n
  rw [decodeLoop, if_neg noPad, read]
  dsimp only
  rw [shifted_in, byte, Nat.shiftRight_eq_div_pow]

theorem two_bytes (a b : UInt8) : a.toNat <<< 16 ||| b.toNat <<< 8 = (a.toNat * 256 + b.toNat) * 256 := by
  have below := b.toNat_lt
  rw [← Nat.shiftLeft_add_eq_or_of_lt (by rw [Nat.shiftLeft_eq]; omega)]
  simp only [Nat.shiftLeft_eq]
  omega

theorem three_bytes (a b c : UInt8) :
    a.toNat <<< 16 ||| b.toNat <<< 8 ||| c.toNat = (a.toNat * 256 + b.toNat) * 256 + c.toNat := by
  have below := c.toNat_lt
  have shift : (a.toNat * 256 + b.toNat) * 256 = (a.toNat * 256 + b.toNat) <<< 8 := by rw [Nat.shiftLeft_eq]
  rw [two_bytes, shift, ← Nat.shiftLeft_add_eq_or_of_lt (by omega)]

theorem last_byte {m : Nat} {a : UInt8} (same : m % 256 = a.toNat) : UInt8.ofNat m = a := by
  apply UInt8.toNat.inj
  rw [UInt8.toNat_ofNat', same]

/-- Whatever the buffer still holds of the bytes before, it is shifted out. -/
theorem decode_encode (data : Bytes) (buffer : Nat) :
    decodeLoop (base64urlEncode data) buffer 0 = data := by
  induction data using base64urlEncode.induct generalizing buffer with
  | case1 a b c rest ih =>
      have aBound := a.toNat_lt
      have bBound := b.toNat_lt
      have cBound := c.toNat_lt
      rw [base64urlEncode, three_bytes]
      generalize value : (a.toNat * 256 + b.toNat) * 256 + c.toNat = v
      rw [decode_sextet, if_neg (by decide), decode_sextet, if_pos (by decide), decode_sextet,
        if_pos (by decide), decode_sextet, if_pos (by decide), ih]
      simp only [Nat.shiftRight_eq_div_pow]
      rw [last_byte (a := a) (by omega), last_byte (a := b) (by omega), last_byte (a := c) (by omega)]
  | case2 a b =>
      have aBound := a.toNat_lt
      have bBound := b.toNat_lt
      rw [base64urlEncode, two_bytes]
      generalize value : (a.toNat * 256 + b.toNat) * 256 = v
      rw [decode_sextet, if_neg (by decide), decode_sextet, if_pos (by decide), decode_sextet,
        if_pos (by decide)]
      simp only [Nat.shiftRight_eq_div_pow]
      rw [last_byte (a := a) (by omega), last_byte (a := b) (by omega), decodeLoop]
  | case3 a =>
      have aBound := a.toNat_lt
      rw [base64urlEncode, Nat.shiftLeft_eq]
      generalize value : a.toNat * 2 ^ 16 = v
      rw [decode_sextet, if_neg (by decide), decode_sextet, if_pos (by decide)]
      simp only [Nat.shiftRight_eq_div_pow]
      rw [last_byte (a := a) (by omega), decodeLoop]
  | case4 => rfl

theorem base64url_round_trip (data : Bytes) : base64urlDecode (base64urlEncode data) = data :=
  decode_encode data 0

theorem encode_undotted (data : Bytes) : dot ∉ base64urlEncode data := by
  have other (n : Nat) : dot ≠ sextet n := (sextet_read n).2.1.symm
  induction data using base64urlEncode.induct with
  | case1 a b c rest ih => simp only [base64urlEncode, List.mem_cons, other, ih, or_self, not_false_iff]
  | case2 a b => simp only [base64urlEncode, List.mem_cons, List.not_mem_nil, other, or_self, not_false_iff]
  | case3 a => simp only [base64urlEncode, List.mem_cons, List.not_mem_nil, other, or_self, not_false_iff]
  | case4 => exact List.not_mem_nil

theorem constant_time_self (a : Bytes) : constantTimeEq a a = true := by
  have zeros : (List.zipWith (· ^^^ ·) a a).foldl (· ||| ·) (0 : UInt8) = 0 := by
    induction a with
    | nil => rfl
    | cons byte rest ih =>
        rw [List.zipWith_cons_cons, List.foldl_cons, UInt8.xor_self]
        exact ih
  rw [constantTimeEq, if_neg (not_not.mpr rfl), zeros]
  rfl

/-! The fields. -/

theorem digit_visible {byte : UInt8} (digit : isDigit byte = true) : isspace byte = false := by
  rw [isDigit, Bool.and_eq_true, decide_eq_true_eq, decide_eq_true_eq] at digit
  have low : 48 ≤ byte.toNat := UInt8.le_iff_toNat_le.mp digit.1
  exact isspace_above (Nat.le_trans (by decide) low)

theorem json_int_digits {body key : Bytes} {n : Nat} {mark : UInt8} {rest : Bytes} (fallback : Int)
    (found : findKey body key = some (digitBytes n ++ mark :: rest)) (ends : isDigit mark = false) :
    jsonInt body key fallback = if n ≤ 2147483647 then (n : Int) else fallback := by
  obtain ⟨filled, digits, value⟩ := digit_bytes n
  have token : (digitBytes n ++ mark :: rest).takeWhile isDigit = digitBytes n := by
    rw [List.takeWhile_append_of_pos digits, List.takeWhile_cons_of_neg (by rw [ends]; decide),
      List.append_nil]
  obtain ⟨first, more, parts⟩ := List.exists_cons_of_ne_nil filled
  have digit : isDigit first = true := digits first (by rw [parts]; exact List.mem_cons_self)
  have visible : isspace first = false := digit_visible digit
  have noMinus : ¬some first = some (45 : UInt8) := fun same => by
    rw [Option.some.inj same] at digit
    exact absurd digit (by decide)
  have noPlus : ¬some first = some (43 : UInt8) := fun same => by
    rw [Option.some.inj same] at digit
    exact absurd digit (by decide)
  have noSign : ¬(some first = some (45 : UInt8) ∨ some first = some 43) :=
    fun sign => sign.elim noMinus noPlus
  have start : skipWs (digitBytes n ++ mark :: rest) = digitBytes n ++ mark :: rest := by
    rw [parts, skipWs, List.cons_append, List.dropWhile_cons_of_neg (by rw [visible]; decide)]
  have head : (digitBytes n ++ mark :: rest).head? = some first := by rw [parts]; rfl
  have headOnly : (digitBytes n).head? = some first := by rw [parts]; rfl
  have plain : intToken (digitBytes n ++ mark :: rest) = digitBytes n := by
    rw [intToken, head, if_neg noSign, token]
  have read : stoi (digitBytes n) = if n ≤ 2147483647 then some (n : Int) else none := by
    unfold stoi
    simp only [headOnly, if_neg noSign, if_neg noMinus, value, if_neg filled]
    by_cases small : n ≤ 2147483647
    · rw [if_pos small, if_pos (by omega)]
    · rw [if_neg small, if_neg (by omega)]
  unfold jsonInt
  rw [found]
  dsimp only
  rw [start, plain, if_neg filled, read]
  split <;> rfl

section Fields
variable {uid : Int} (natural : 0 ≤ uid)

theorem int_text_natural {n : Int} (natural : 0 ≤ n) : intText n = digitBytes n.toNat :=
  if_neg (Int.not_lt.mpr natural)

theorem find_uid (uid exp : Int) : findKey (sessionBody uid exp) uidKey =
    some (intText uid ++ comma :: (needleOf expKey ++ colon :: (intText exp ++ [closeBrace]))) :=
  (skip_free [openBrace] (by decide) _ uidKey).trans (find_here uidKey _)

theorem digits_unquoted (n : Nat) : quote ∉ digitBytes n := fun member =>
  absurd ((digit_bytes n).2.1 quote member) (by decide)

include natural in
theorem find_exp (exp : Int) :
    findKey (sessionBody uid exp) expKey = some (intText exp ++ [closeBrace]) := by
  have word : ∀ byte ∈ expKey, isWord byte = true := by decide
  have parts : sessionBody uid exp = [openBrace] ++
      quote :: (uidKey ++ quote :: colon :: (digitBytes uid.toNat ++
      ([comma] ++ (needleOf expKey ++ colon :: (intText exp ++ [closeBrace]))))) := by
    rw [sessionBody, int_text_natural natural]
    rfl
  have opening (rest : Bytes) : ¬needleOf expKey <+: quote :: (uidKey ++ rest) := by
    intro front
    exact absurd (List.cons_prefix_cons.mp (List.cons_prefix_cons.mp front).2).1 (by decide)
  have free (rest : Bytes) : findKey (colon :: rest) expKey = findKey rest expKey :=
    skip_free [colon] (by decide) rest expKey
  rw [parts, skip_free _ (by decide), skip_item (opening _), skip_free _ (by decide),
    skip_item (apart_from word (by decide) rfl _), free, skip_free _ (digits_unquoted _),
    skip_free _ (by decide), find_here]

end Fields

theorem verify_signed (secret : Bytes) {uid exp : Int} (natural : 0 ≤ uid) (later : 0 < exp)
    (uidWas expWas : Int) :
    verifySession secret (signSession secret uid exp) uidWas expWas =
      (decide (uid ≤ 2147483647 ∧ exp ≤ 2147483647), if uid ≤ 2147483647 then uid else -1,
        if exp ≤ 2147483647 then exp else 0) := by
  have cut : cutAt [dot] (signSession secret uid exp) = some (base64urlEncode (sessionBody uid exp),
      base64urlEncode (hmacSha256 (secret ++ sessionMark) (base64urlEncode (sessionBody uid exp)))) := by
    have here := cut_here [dot] (base64urlEncode (hmacSha256 (secret ++ sessionMark)
      (base64urlEncode (sessionBody uid exp))))
    rw [signSession, cut_apart (encode_undotted _)]
    rw [List.singleton_append] at here
    rw [here]
    simp only [Option.map_some, List.append_nil]
  have body : base64urlDecode (base64urlEncode (sessionBody uid exp)) = sessionBody uid exp :=
    decode_encode _ 0
  have uidFound := find_uid uid exp
  rw [int_text_natural natural] at uidFound
  have expFound := find_exp natural exp
  rw [int_text_natural (Int.le_of_lt later)] at expFound
  have uidRead := json_int_digits (-1) uidFound rfl
  have expRead := json_int_digits 0 expFound rfl
  rw [verifySession, cut]
  dsimp only
  have uidSame : ((uid.toNat : Nat) : Int) = uid := Int.toNat_of_nonneg natural
  have expSame : ((exp.toNat : Nat) : Int) = exp := Int.toNat_of_nonneg (Int.le_of_lt later)
  have uidSmall : uid.toNat ≤ 2147483647 ↔ uid ≤ 2147483647 := by omega
  have expSmall : exp.toNat ≤ 2147483647 ↔ exp ≤ 2147483647 := by omega
  rw [constant_time_self, if_pos rfl, body, uidRead, expRead]
  simp only [uidSmall, expSmall, uidSame, expSame, Prod.mk.injEq, and_true]
  by_cases uidFits : uid ≤ 2147483647
  · by_cases expFits : exp ≤ 2147483647
    · simp [uidFits, expFits, natural, later]
    · simp [uidFits, expFits]
  · simp [uidFits]

/-- A token gives its fields back exactly when both fit the int that json_int returns. -/
theorem session_round_trip_iff (secret : Bytes) (uid exp : Int) (natural : 0 ≤ uid)
    (later : 0 < exp) (uidWas expWas : Int) :
    verifySession secret (signSession secret uid exp) uidWas expWas = (true, uid, exp) ↔
      uid ≤ 2147483647 ∧ exp ≤ 2147483647 := by
  rw [verify_signed secret natural later]
  constructor
  · intro same
    exact of_decide_eq_true (Prod.mk.inj same).1
  · intro fits
    rw [decide_eq_true fits, if_pos fits.1, if_pos fits.2]

theorem first_user_verified :
    verifySession [107] (signSession [107] 1 1700000000) (-1) 0 = (true, 1, 1700000000) :=
  (session_round_trip_iff [107] 1 1700000000 (by decide) (by decide) (-1) 0).mpr (by decide)

/-- A session that expires at the first second behind the range of int. -/
theorem late_session_refused :
    verifySession [107] (signSession [107] 1 2147483648) (-1) 0 ≠ (true, 1, 2147483648) := by
  rw [verify_signed [107] (by decide) (by decide)]
  decide

end KosSim.VaultSessions
