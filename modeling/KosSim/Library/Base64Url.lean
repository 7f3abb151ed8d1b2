import KosSim.Library.Base64

/-!
Base64 in the alphabet for URLs, without padding. The reader takes padding too where it is complete,
and drops the bits behind the last byte.
-/

namespace KosSim.Library.Base64

def urlDigit (v : Nat) : Char := toUrlsafe (digit v)

def urlSextet (c : Char) : Option Nat := if c = '+' ∨ c = '/' then none else sextet (fromUrlsafe c)

def urlEncode : List UInt8 → List Char
  | [] => []
  | [a] => [urlDigit (a.toNat / 4), urlDigit (a.toNat % 4 * 16)]
  | [a, b] =>
      [urlDigit (a.toNat / 4), urlDigit (a.toNat % 4 * 16 + b.toNat / 16), urlDigit (b.toNat % 16 * 4)]
  | a :: b :: c :: rest =>
      urlDigit (a.toNat / 4) :: urlDigit (a.toNat % 4 * 16 + b.toNat / 16) ::
        urlDigit (b.toNat % 16 * 4 + c.toNat / 64) :: urlDigit (c.toNat % 64) :: urlEncode rest

def oneByte (c1 c2 : Char) : Option (List UInt8) := do
  let v1 ← urlSextet c1
  let v2 ← urlSextet c2
  return [UInt8.ofNat (v1 * 4 + v2 / 16)]

def twoBytes (c1 c2 c3 : Char) : Option (List UInt8) := do
  let v1 ← urlSextet c1
  let v2 ← urlSextet c2
  let v3 ← urlSextet c3
  return [UInt8.ofNat (v1 * 4 + v2 / 16), UInt8.ofNat (v2 % 16 * 16 + v3 / 4)]

def threeBytes (c1 c2 c3 c4 : Char) : Option (List UInt8) := do
  let v1 ← urlSextet c1
  let v2 ← urlSextet c2
  let v3 ← urlSextet c3
  let v4 ← urlSextet c4
  return [UInt8.ofNat (v1 * 4 + v2 / 16), UInt8.ofNat (v2 % 16 * 16 + v3 / 4),
    UInt8.ofNat (v3 % 4 * 64 + v4)]

def urlDecode : List Char → Option (List UInt8)
  | [] => some []
  | [_] => none
  | [c1, c2] => oneByte c1 c2
  | [c1, c2, c3] => twoBytes c1 c2 c3
  | c1 :: c2 :: c3 :: c4 :: rest =>
      if rest = [] ∧ c4 = '=' then if c3 = '=' then oneByte c1 c2 else twoBytes c1 c2 c3
      else (threeBytes c1 c2 c3 c4).bind fun group => (urlDecode rest).map (group ++ ·)

theorem url_sextet_digit (v : Nat) (bound : v < 64) : urlSextet (urlDigit v) = some v := by
  have all : ∀ v < 64, urlSextet (urlDigit v) = some v := by decide
  exact all v bound

/-- No digit is a mark of another syntax. -/
theorem url_digit_apart (v : Nat) : urlDigit v ≠ '=' ∧ urlDigit v ≠ '.' := by
  by_cases bound : v < 64
  · have all : ∀ v < 64, urlDigit v ≠ '=' ∧ urlDigit v ≠ '.' := by decide
    exact all v bound
  · rw [urlDigit, digit, if_neg (by omega), if_neg (by omega), if_neg (by omega), if_neg (by omega)]
    decide

theorem url_decode_encode (data : List UInt8) : urlDecode (urlEncode data) = some data := by
  induction data using urlEncode.induct with
  | case1 => rfl
  | case2 a =>
      have boundA := a.toNat_lt
      rw [urlEncode, urlDecode, oneByte, url_sextet_digit _ (by omega), url_sextet_digit _ (by omega)]
      exact congrArg (fun byte => some [byte]) (byte_of a _ (by omega))
  | case3 a b =>
      have boundA := a.toNat_lt
      have boundB := b.toNat_lt
      have first : UInt8.ofNat (a.toNat / 4 * 4 + (a.toNat % 4 * 16 + b.toNat / 16) / 16) = a :=
        byte_of a _ (by omega)
      have second : UInt8.ofNat ((a.toNat % 4 * 16 + b.toNat / 16) % 16 * 16 + b.toNat % 16 * 4 / 4) = b :=
        byte_of b _ (by omega)
      rw [urlEncode, urlDecode, twoBytes, url_sextet_digit _ (by omega), url_sextet_digit _ (by omega),
        url_sextet_digit _ (by omega)]
      show some [_, _] = _
      rw [first, second]
  | case4 a b c rest ih =>
      have boundA := a.toNat_lt
      have boundB := b.toNat_lt
      have boundC := c.toNat_lt
      have first : UInt8.ofNat (a.toNat / 4 * 4 + (a.toNat % 4 * 16 + b.toNat / 16) / 16) = a :=
        byte_of a _ (by omega)
      have second :
          UInt8.ofNat ((a.toNat % 4 * 16 + b.toNat / 16) % 16 * 16 +
            (b.toNat % 16 * 4 + c.toNat / 64) / 4) = b :=
        byte_of b _ (by omega)
      have third : UInt8.ofNat ((b.toNat % 16 * 4 + c.toNat / 64) % 4 * 64 + c.toNat % 64) = c :=
        byte_of c _ (by omega)
      rw [urlEncode, urlDecode, if_neg fun padded => (url_digit_apart _).1 padded.2, threeBytes,
        url_sextet_digit _ (by omega), url_sextet_digit _ (by omega), url_sextet_digit _ (by omega),
        url_sextet_digit _ (by omega), ih]
      show some (_ :: _ :: _ :: rest) = _
      rw [first, second, third]

theorem url_encode_digits (data : List UInt8) : ∀ c ∈ urlEncode data, c ≠ '=' ∧ c ≠ '.' := by
  induction data using urlEncode.induct with
  | case1 => exact fun c member => absurd member List.not_mem_nil
  | case2 a => simp [urlEncode, url_digit_apart]
  | case3 a b => simp [urlEncode, url_digit_apart]
  | case4 a b c rest ih =>
      intro d member
      simp only [urlEncode, List.mem_cons] at member
      rcases member with rfl | rfl | rfl | rfl | later
      · exact url_digit_apart _
      · exact url_digit_apart _
      · exact url_digit_apart _
      · exact url_digit_apart _
      · exact ih d later

end KosSim.Library.Base64
