import Mathlib.Data.List.Basic

/-!
Bytes of texts and texts of bytes: the UTF-8 encoding of a String, and lower-case
hexadecimal digits, two for each byte.
-/

namespace KosSim.Library

/-- What holds of every byte of a text is decided along the text, not over all values of the type. -/
instance (priority := high) decidableEveryByte {p : UInt8 → Prop} [DecidablePred p] (bytes : List UInt8) :
    Decidable (∀ byte ∈ bytes, p byte) := List.decidableBAll p bytes

def utf8 (text : String) : List UInt8 := text.toByteArray.data.toList

theorem utf8_injective {one other : String} (same : utf8 one = utf8 other) : one = other := by
  apply String.toByteArray_inj.mp
  cases left : one.toByteArray
  cases right : other.toByteArray
  rw [utf8, utf8, left, right] at same
  exact congrArg ByteArray.mk (Array.toList_inj.mp same)

theorem utf8_of_list (chars : List Char) :
    utf8 (String.ofList chars) = chars.flatMap String.utf8EncodeChar := by
  simp [utf8, List.utf8Encode]

/-- An ASCII character is one byte, and every byte of another one is above them. -/
theorem encode_char_bytes (c : Char) :
    (c.toNat < 128 ∧ String.utf8EncodeChar c = [UInt8.ofNat c.toNat]) ∨
      ∀ byte ∈ String.utf8EncodeChar c, 128 ≤ byte := by
  have high (n m : Nat) (low : 128 ≤ m) (small : n + m < 256) : (128 : UInt8) ≤ UInt8.ofNat (n + m) := by
    rw [UInt8.le_iff_toNat_le, UInt8.toNat_ofNat', Nat.mod_eq_of_lt (by omega)]
    show 128 ≤ n + m
    omega
  unfold String.utf8EncodeChar
  dsimp only
  by_cases one : c.val.toNat ≤ 0x7f
  · rw [if_pos one]
    exact .inl ⟨Nat.lt_succ_of_le one, rfl⟩
  · rw [if_neg one]
    refine .inr fun byte member => ?_
    split at member
    · simp only [List.mem_cons, List.not_mem_nil, or_false] at member
      rcases member with rfl | rfl <;> exact high _ _ (by omega) (by omega)
    split at member
    · simp only [List.mem_cons, List.not_mem_nil, or_false] at member
      rcases member with rfl | rfl | rfl <;> exact high _ _ (by omega) (by omega)
    · simp only [List.mem_cons, List.not_mem_nil, or_false] at member
      rcases member with rfl | rfl | rfl | rfl <;> exact high _ _ (by omega) (by omega)

/-- A text of ASCII characters is its bytes. -/
theorem utf8_ascii {chars : List Char} (ascii : ∀ c ∈ chars, c.val.toNat ≤ 0x7f) :
    utf8 (String.ofList chars) = chars.map fun c => UInt8.ofNat c.val.toNat := by
  rw [utf8_of_list]
  induction chars with
  | nil => rfl
  | cons c rest ih =>
      have head : String.utf8EncodeChar c = [UInt8.ofNat c.val.toNat] := if_pos (ascii c List.mem_cons_self)
      rw [List.flatMap_cons, head, ih fun other member => ascii other (List.mem_cons_of_mem c member)]
      rfl

/-- The bytes of a text are read back as it. -/
theorem from_utf8_utf8 (text : String) : String.fromUTF8? (utf8 text).toByteArray = some text := by
  have bytes : (utf8 text).toByteArray = text.toByteArray := by
    apply ByteArray.ext
    rw [List.data_toByteArray, utf8, Array.toArray_toList]
  rw [bytes, String.fromUTF8?, dif_pos text.isValidUTF8]
  rfl

def hexDigits : List Char :=
  ['0', '1', '2', '3', '4', '5', '6', '7', '8', '9', 'a', 'b', 'c', 'd', 'e', 'f']

def hexDigit (n : Nat) : Char := hexDigits.getD n '0'

def hexByte (byte : UInt8) : List Char := [hexDigit (byte.toNat / 16), hexDigit (byte.toNat % 16)]

def hexEncode (bytes : List UInt8) : String := String.ofList (bytes.flatMap hexByte)

def hexNibble (c : Char) : Option Nat :=
  if '0' ≤ c ∧ c ≤ '9' then some (c.toNat - '0'.toNat)
  else if 'a' ≤ c ∧ c ≤ 'f' then some (c.toNat - 'a'.toNat + 10)
  else if 'A' ≤ c ∧ c ≤ 'F' then some (c.toNat - 'A'.toNat + 10)
  else none

/-- Two digits for each byte, in either case. -/
def hexPairs : List Char → Option (List UInt8)
  | [] => some []
  | [_] => none
  | high :: low :: rest =>
      match hexNibble high, hexNibble low, hexPairs rest with
      | some h, some l, some bytes => some (UInt8.ofNat (16 * h + l) :: bytes)
      | _, _, _ => none

def hexDecode (text : String) : Option (List UInt8) := hexPairs text.toList

theorem hex_digit_ascii (n : Nat) : 0 < (hexDigit n).val.toNat ∧ (hexDigit n).val.toNat ≤ 0x7f := by
  by_cases small : n < 16
  · have table : ∀ n < 16, 0 < (hexDigit n).val.toNat ∧ (hexDigit n).val.toNat ≤ 0x7f := by decide
    exact table n small
  · have out : hexDigit n = '0' := by simp [hexDigit, hexDigits, Nat.le_of_not_lt small]
    rw [out]
    decide

theorem hex_digit_listed (n : Nat) : hexDigit n ∈ hexDigits := by
  by_cases small : n < 16
  · have table : ∀ n < 16, hexDigit n ∈ hexDigits := by decide
    exact table n small
  · have out : hexDigit n = '0' := by simp [hexDigit, hexDigits, Nat.le_of_not_lt small]
    rw [out]
    decide

theorem hex_digit_injective {m n : Nat} (mBound : m < 16) (nBound : n < 16)
    (same : hexDigit m = hexDigit n) :
    m = n := by
  have table : ∀ m < 16, ∀ n < 16, hexDigit m = hexDigit n → m = n := by decide
  exact table m mBound n nBound same

theorem hex_byte_injective {one other : UInt8} (same : hexByte one = hexByte other) : one = other := by
  simp only [hexByte, List.cons.injEq, and_true] at same
  have oneBound := one.toNat_lt
  have otherBound := other.toNat_lt
  have high := hex_digit_injective (by omega) (by omega) same.1
  have low := hex_digit_injective (by omega) (by omega) same.2
  apply UInt8.toNat_inj.mp
  omega

theorem hex_chars_injective {one other : List UInt8} (same : one.flatMap hexByte = other.flatMap hexByte) :
    one = other := by
  induction one generalizing other with
  | nil =>
      cases other with
      | nil => rfl
      | cons byte rest => cases same
  | cons byte rest ih =>
      cases other with
      | nil => cases same
      | cons second others =>
          obtain ⟨head, tail⟩ := List.append_inj same rfl
          rw [hex_byte_injective head, ih tail]

theorem hex_encode_injective {one other : List UInt8} (same : hexEncode one = hexEncode other) :
    one = other :=
  hex_chars_injective (String.ofList_injective same)

theorem hex_nibble_digit {n : Nat} (small : n < 16) : hexNibble (hexDigit n) = some n := by
  have table : ∀ n < 16, hexNibble (hexDigit n) = some n := by decide
  exact table n small

theorem hex_decode_encode (bytes : List UInt8) : hexDecode (hexEncode bytes) = some bytes := by
  rw [hexDecode, hexEncode, String.toList_ofList]
  induction bytes with
  | nil => rfl
  | cons byte rest ih =>
      have bound := byte.toNat_lt
      rw [List.flatMap_cons, hexByte, List.cons_append, List.cons_append, List.nil_append, hexPairs,
        hex_nibble_digit (by omega), hex_nibble_digit (by omega), ih]
      have whole : 16 * (byte.toNat / 16) + byte.toNat % 16 = byte.toNat := by omega
      show some (UInt8.ofNat (16 * (byte.toNat / 16) + byte.toNat % 16) :: rest) = _
      rw [whole, UInt8.ofNat_toNat]

theorem hex_text_digits (bytes : List UInt8) : ∀ c ∈ (hexEncode bytes).toList, c ∈ hexDigits := by
  intro c member
  rw [hexEncode, String.toList_ofList] at member
  obtain ⟨byte, _, digit⟩ := List.mem_flatMap.mp member
  rcases List.mem_cons.mp digit with rfl | low
  · exact hex_digit_listed _
  · rw [List.mem_singleton.mp low]
    exact hex_digit_listed _

theorem hex_chars_ascii (bytes : List UInt8) :
    ∀ c ∈ bytes.flatMap hexByte, 0 < c.val.toNat ∧ c.val.toNat ≤ 0x7f := by
  intro c member
  obtain ⟨byte, _, digit⟩ := List.mem_flatMap.mp member
  rcases List.mem_cons.mp digit with rfl | low
  · exact hex_digit_ascii _
  · rw [List.mem_singleton.mp low]
    exact hex_digit_ascii _

theorem utf8_hex (bytes : List UInt8) :
    utf8 (hexEncode bytes) = (bytes.flatMap hexByte).map fun c => UInt8.ofNat c.val.toNat :=
  utf8_ascii fun c member => (hex_chars_ascii bytes c member).2

theorem hex_text_length (bytes : List UInt8) : (hexEncode bytes).toList.length = 2 * bytes.length := by
  rw [hexEncode, String.toList_ofList]
  induction bytes with
  | nil => rfl
  | cons byte rest ih =>
      rw [List.flatMap_cons, List.length_append, ih, List.length_cons]
      show 2 + _ = _
      omega

theorem utf8_hex_length (bytes : List UInt8) : (utf8 (hexEncode bytes)).length = 2 * bytes.length := by
  rw [utf8_hex, List.length_map, ← hex_text_length, hexEncode, String.toList_ofList]

theorem utf8_hex_nonzero (bytes : List UInt8) : 0 ∉ utf8 (hexEncode bytes) := by
  rw [utf8_hex]
  intro member
  obtain ⟨c, listed, zero⟩ := List.mem_map.mp member
  have range := hex_chars_ascii bytes c listed
  have value := congrArg UInt8.toNat zero
  rw [UInt8.toNat_ofNat'] at value
  have none : (0 : UInt8).toNat = 0 := rfl
  omega

end KosSim.Library
