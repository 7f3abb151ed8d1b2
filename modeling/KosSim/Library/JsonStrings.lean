import KosSim.Library.Hex

/-!
String literals of JSON texts, as bytes. A literal is first scanned to its closing quote and then
unquoted, so a scan that ends does not look at what comes after. The writer escapes the control
characters, the characters of HTML and the two line separators, as Go's encoder does; the reader
takes every escape and replaces what is no UTF-8.
-/

namespace KosSim.Library.Json

abbrev Bytes := List UInt8

abbrev quote : UInt8 := 34
abbrev backslash : UInt8 := 92
abbrev unitMark : UInt8 := 117

/-! Writing. -/

def hexAscii (n : Nat) : UInt8 := UInt8.ofNat (hexDigit n).toNat

def unitEscape (n : Nat) : Bytes :=
  [backslash, unitMark, hexAscii (n / 4096 % 16), hexAscii (n / 256 % 16), hexAscii (n / 16 % 16),
    hexAscii (n % 16)]

/-- The characters with an escape of their own. -/
def shortEscape (c : Char) : Option UInt8 :=
  if c = '"' then some 34
  else if c = '\\' then some 92
  else if c = '\x08' then some 98
  else if c = '\x0c' then some 102
  else if c = '\n' then some 110
  else if c = '\r' then some 114
  else if c = '\t' then some 116
  else none

def byUnit (c : Char) : Bool :=
  decide (c.toNat < 32) || c = '<' || c = '>' || c = '&' || decide (c.toNat = 0x2028) ||
    decide (c.toNat = 0x2029)

def escapeChar (c : Char) : Bytes :=
  match shortEscape c with
  | some mark => [backslash, mark]
  | none => if byUnit c then unitEscape c.toNat else String.utf8EncodeChar c

def encodeString (text : String) : Bytes := quote :: text.toList.flatMap escapeChar ++ [quote]

/-! Scanning. -/

/-- Inside a literal, after a backslash, and before one more than this many digits of a \u escape. -/
inductive LiteralState where
  | plain
  | escape
  | unit (left : Nat)
  deriving DecidableEq

def hexValue (byte : UInt8) : Option Nat :=
  if 48 ≤ byte ∧ byte ≤ 57 then some (byte.toNat - 48)
  else if 97 ≤ byte ∧ byte ≤ 102 then some (byte.toNat - 87)
  else if 65 ≤ byte ∧ byte ≤ 70 then some (byte.toNat - 55)
  else none

theorem hex_digit_low {c : UInt8} (hex : (hexValue c).isSome = true) : 48 ≤ c.toNat := by
  rw [hexValue] at hex
  split at hex
  · next digit => exact UInt8.le_iff_toNat_le.mp digit.1
  split at hex
  · next lower => exact Nat.le_trans (by decide) (UInt8.le_iff_toNat_le.mp lower.1)
  split at hex
  · next upper => exact Nat.le_trans (by decide) (UInt8.le_iff_toNat_le.mp upper.1)
  · cases hex

theorem hex_digit_apart {c mark : UInt8} {value : Nat} (hex : hexValue c = some value)
    (under : mark < 48) : c ≠ mark := by
  rintro rfl
  exact absurd (UInt8.lt_iff_toNat_lt.mp under) (Nat.not_lt.mpr (hex_digit_low (by rw [hex]; rfl)))

theorem hex_value_small {c : UInt8} {value : Nat} (hex : hexValue c = some value) : value < 16 := by
  rw [hexValue] at hex
  split at hex
  · next digit =>
    have high : c.toNat ≤ 57 := UInt8.le_iff_toNat_le.mp digit.2
    have same := Option.some.inj hex
    omega
  split at hex
  · next lower =>
    have high : c.toNat ≤ 102 := UInt8.le_iff_toNat_le.mp lower.2
    have same := Option.some.inj hex
    omega
  split at hex
  · next upper =>
    have high : c.toNat ≤ 70 := UInt8.le_iff_toNat_le.mp upper.2
    have same := Option.some.inj hex
    omega
  · cases hex

def escaped (mark : UInt8) : Option Char :=
  if mark = 34 then some '"'
  else if mark = 92 then some '\\'
  else if mark = 47 then some '/'
  else if mark = 98 then some '\x08'
  else if mark = 102 then some '\x0c'
  else if mark = 110 then some '\n'
  else if mark = 114 then some '\r'
  else if mark = 116 then some '\t'
  else none

inductive LiteralMove where
  | close
  | next (state : LiteralState)
  | error
  deriving DecidableEq

def literalMove : LiteralState → UInt8 → LiteralMove
  | .plain, byte =>
      if byte = quote then .close
      else if byte = backslash then .next .escape
      else if byte < 32 then .error
      else .next .plain
  | .escape, byte =>
      if byte = unitMark then .next (.unit 3)
      else if (escaped byte).isSome then .next .plain
      else .error
  | .unit left, byte =>
      if (hexValue byte).isNone then .error
      else match left with
        | 0 => .next .plain
        | more + 1 => .next (.unit more)

/-- The text up to the closing quote, and what comes after it. -/
def literal : LiteralState → Bytes → Option (Bytes × Bytes)
  | _, [] => none
  | state, byte :: rest =>
      match literalMove state byte with
      | .close => some ([], rest)
      | .next after => (literal after rest).map fun found => (byte :: found.1, found.2)
      | .error => none

/-! Unquoting. -/

def replacement : Char := Char.ofNat 0xfffd

/-- utf8.DecodeRune: the character and its length, or one byte replaced. -/
def decodeRune (bytes : Bytes) : Char × Nat :=
  match bytes.toByteArray.utf8DecodeChar? 0 with
  | some c => (c, c.utf8Size)
  | none => (replacement, 1)

def unitAt : Bytes → Option (Nat × Bytes)
  | mark :: u :: a :: b :: c :: d :: rest =>
      if mark = backslash ∧ u = unitMark then
        match hexValue a, hexValue b, hexValue c, hexValue d with
        | some a, some b, some c, some d => some (((a * 16 + b) * 16 + c) * 16 + d, rest)
        | _, _, _, _ => none
      else none
  | _ => none

def isPair (high low : Nat) : Bool :=
  decide (0xd800 ≤ high) && decide (high < 0xdc00) && decide (0xdc00 ≤ low) && decide (low < 0xe000)

def pairChar (high low : Nat) : Char := Char.ofNat (0x10000 + (high - 0xd800) * 1024 + (low - 0xdc00))

def unitChar (unit : Nat) : Char := if unit.isValidChar then Char.ofNat unit else replacement

def unquote : Nat → Bytes → List Char
  | 0, _ => []
  | _ + 1, [] => []
  | fuel + 1, byte :: rest =>
      match unitAt (byte :: rest) with
      | some (high, more) =>
          match unitAt more with
          | some (low, after) =>
              if isPair high low then pairChar high low :: unquote fuel after else unitChar
                high :: unquote fuel more
          | none => unitChar high :: unquote fuel more
      | none =>
          if byte = backslash then
            match rest with
            | [] => []
            | mark :: more => (escaped mark).getD replacement :: unquote fuel more
          else
            let rune := decodeRune (byte :: rest)
            rune.1 :: unquote fuel ((byte :: rest).drop rune.2)

def decodeString (raw : Bytes) : String := String.ofList (unquote raw.length raw)

theorem literal_next {state after : LiteralState} {byte : UInt8}
    (moved : literalMove state byte = .next after) (rest : Bytes) :
    literal state (byte :: rest) = (literal after rest).map fun found => (byte :: found.1, found.2) := by
  rw [literal, moved]

/-! A scan that ends is the same before a longer rest. -/

theorem literal_append {state : LiteralState} {bytes raw rest : Bytes}
    (scanned : literal state bytes = some (raw, rest)) (more : Bytes) :
    literal state (bytes ++ more) = some (raw, rest ++ more) := by
  induction bytes generalizing state raw with
  | nil => cases scanned
  | cons byte bytes ih =>
      rw [literal] at scanned
      rw [List.cons_append, literal]
      cases moved : literalMove state byte with
      | close =>
          rw [moved] at scanned
          cases scanned
          rfl
      | next after =>
          rw [moved] at scanned
          obtain ⟨found, inside, same⟩ := Option.map_eq_some_iff.mp scanned
          cases same
          dsimp only
          rw [ih inside]
          rfl
      | error =>
          rw [moved] at scanned
          cases scanned

/-! What is written is scanned and unquoted again. -/

/-- A character that is written as it is: none of its bytes ends or escapes anything. -/
theorem raw_bytes {c : Char} (short : shortEscape c = none) (raw : byUnit c = false) :
    ∀ byte ∈ String.utf8EncodeChar c, 32 ≤ byte ∧ byte ≠ quote ∧ byte ≠ backslash := by
  intro byte member
  rcases encode_char_bytes c with ⟨ascii, single⟩ | wide
  · rw [single, List.mem_singleton] at member
    have value : byte.toNat = c.toNat := by
      rw [member, UInt8.toNat_ofNat', Nat.mod_eq_of_lt (by omega)]
    have printable : 32 ≤ c.toNat := by
      by_contra control
      rw [byUnit, decide_eq_true (by omega : c.toNat < 32)] at raw
      cases raw
    refine ⟨?_, ?_, ?_⟩
    · rw [UInt8.le_iff_toNat_le, value]
      exact printable
    · rintro rfl
      have same : c = '"' := Char.toNat_inj.mp value.symm
      rw [same] at short
      cases short
    · rintro rfl
      have same : c = '\\' := Char.toNat_inj.mp value.symm
      rw [same] at short
      cases short
  · have high := wide byte member
    rw [UInt8.le_iff_toNat_le] at high
    have low : 128 ≤ byte.toNat := high
    refine ⟨?_, ?_, ?_⟩
    · rw [UInt8.le_iff_toNat_le]
      show 32 ≤ byte.toNat
      omega
    · rintro rfl
      exact absurd low (by decide)
    · rintro rfl
      exact absurd low (by decide)

theorem literal_plain {raw : Bytes}
    (plain : ∀ byte ∈ raw, 32 ≤ byte ∧ byte ≠ quote ∧ byte ≠ backslash) (rest : Bytes) :
    literal .plain (raw ++ rest) = (literal .plain rest).map fun found => (raw ++ found.1, found.2) := by
  induction raw with
  | nil => exact (congrFun Option.map_id _).symm
  | cons byte raw ih =>
      obtain ⟨visible, noQuote, noEscape⟩ := plain byte List.mem_cons_self
      have moved : literalMove .plain byte = .next .plain := by
        rw [literalMove, if_neg noQuote, if_neg noEscape, if_neg (UInt8.not_lt.mpr visible)]
      rw [List.cons_append, literal, moved]
      dsimp only
      rw [ih fun other member => plain other (List.mem_cons_of_mem _ member), Option.map_map]
      rfl

theorem move_escape : literalMove .plain backslash = .next .escape := rfl

theorem move_digit (n left : Nat) :
    literalMove (.unit (left + 1)) (hexAscii (n % 16)) = .next (.unit left) ∧
      literalMove (.unit 0) (hexAscii (n % 16)) = .next .plain := by
  have table : ∀ m < 16, (hexValue (hexAscii m)).isNone = false := by decide
  have digit := table (n % 16) (Nat.mod_lt _ (by decide))
  constructor
  · show (if (hexValue (hexAscii (n % 16))).isNone then _ else _) = _
    rw [digit]
    rfl
  · show (if (hexValue (hexAscii (n % 16))).isNone then _ else _) = _
    rw [digit]
    rfl

theorem literal_unit (n : Nat) (rest : Bytes) :
    literal .plain (unitEscape n ++ rest) = (literal .plain rest).map fun found =>
      (unitEscape n ++ found.1, found.2) := by
  have first : literalMove .escape unitMark = .next (.unit 3) := rfl
  simp only [unitEscape, List.cons_append, List.nil_append]
  rw [literal_next move_escape, literal_next first, literal_next (move_digit _ 2).1,
    literal_next (move_digit _ 1).1, literal_next (move_digit _ 0).1,
    literal_next (move_digit _ 0).2]
  simp only [Option.map_map]
  rfl

theorem short_escape_marks {c : Char} {mark : UInt8} (short : shortEscape c = some mark) :
    literalMove .escape mark = .next .plain ∧ mark ≠ unitMark ∧ escaped mark = some c := by
  unfold shortEscape at short
  split at short
  · subst c; cases short; decide
  split at short
  · subst c; cases short; decide
  split at short
  · subst c; cases short; decide
  split at short
  · subst c; cases short; decide
  split at short
  · subst c; cases short; decide
  split at short
  · subst c; cases short; decide
  split at short
  · subst c; cases short; decide
  · cases short

theorem literal_char (c : Char) (rest : Bytes) :
    literal .plain (escapeChar c ++ rest) = (literal .plain rest).map fun found =>
      (escapeChar c ++ found.1, found.2) := by
  unfold escapeChar
  cases short : shortEscape c with
  | some mark =>
      obtain ⟨moved, _⟩ := short_escape_marks short
      simp only [List.cons_append, List.nil_append]
      rw [literal_next move_escape, literal_next moved, Option.map_map]
      rfl
  | none =>
      dsimp only
      split
      · exact literal_unit _ rest
      · next raw => exact literal_plain (raw_bytes short (Bool.eq_false_iff.mpr raw)) rest

/-- A written literal ends where it was ended. -/
theorem literal_encode (chars : List Char) (rest : Bytes) :
    literal .plain (chars.flatMap escapeChar ++ quote :: rest) = some (chars.flatMap escapeChar, rest) := by
  induction chars with
  | nil => rfl
  | cons c chars ih =>
      rw [List.flatMap_cons, List.append_assoc, literal_char, ih]
      rfl

theorem hex_ascii_value : ∀ n < 16, hexValue (hexAscii n) = some n := by decide

theorem unit_at_escape {n : Nat} (small : n < 65536) (rest : Bytes) :
    unitAt (unitEscape n ++ rest) = some (n, rest) := by
  simp only [unitEscape, List.cons_append, List.nil_append, unitAt,
    hex_ascii_value _ (Nat.mod_lt _ (by decide : 16 > 0)), and_self, if_true]
  have digits : ((n / 4096 % 16 * 16 + n / 256 % 16) * 16 + n / 16 % 16) * 16 + n % 16 = n := by omega
  rw [digits]

theorem unit_at_other {byte : UInt8} {rest : Bytes}
    (other : byte ≠ backslash ∨ rest.head? ≠ some unitMark) :
    unitAt (byte :: rest) = none := by
  unfold unitAt
  split
  next mark u a b c d more same =>
    obtain ⟨rfl, rfl⟩ := List.cons.inj same
    refine if_neg fun both => ?_
    rcases other with apart | apart
    · exact apart both.1
    · exact apart (congrArg some both.2)
  next => rfl

theorem decode_rune_encoded (c : Char) (rest : Bytes) :
    decodeRune (String.utf8EncodeChar c ++ rest) = (c, (String.utf8EncodeChar c).length) := by
  rw [decodeRune, List.toByteArray_append, ByteArray.utf8DecodeChar?_utf8EncodeChar_append,
    String.length_utf8EncodeChar]

theorem unquote_short {byte mark : UInt8} {c : Char} (escape : byte = backslash) (noUnit : mark ≠ unitMark)
    (back : escaped mark = some c) (rest : Bytes) (fuel : Nat) :
    unquote (fuel + 1) (byte :: mark :: rest) = c :: unquote fuel rest := by
  have none : unitAt (byte :: mark :: rest) = none :=
    unit_at_other (.inr fun same => noUnit (Option.some.inj same))
  simp only [unquote, none]
  rw [if_pos escape, back]
  rfl

/-- A unit that is not the first of a pair stands alone. -/
theorem unquote_unit {byte : UInt8} {rest more : Bytes} {unit : Nat}
    (found : unitAt (byte :: rest) = some (unit, more)) (single : ∀ low, isPair unit low = false)
    (fuel : Nat) :
    unquote (fuel + 1) (byte :: rest) = unitChar unit :: unquote fuel more := by
  simp only [unquote, found]
  cases unitAt more with
  | none => rfl
  | some next => simp only [single, Bool.false_eq_true, if_false]

theorem unquote_rune {byte : UInt8} (raw : byte ≠ backslash) (rest : Bytes) (fuel : Nat) :
    unquote (fuel + 1) (byte :: rest) =
      (decodeRune (byte :: rest)).1 :: unquote fuel
      ((byte :: rest).drop (decodeRune (byte :: rest)).2) := by
  simp only [unquote, unit_at_other (.inl raw)]
  rw [if_neg raw]

/-- One character is unquoted at a time. -/
theorem unquote_char (c : Char) (rest : Bytes) (fuel : Nat) :
    unquote (fuel + 1) (escapeChar c ++ rest) = c :: unquote fuel rest := by
  unfold escapeChar
  cases short : shortEscape c with
  | some mark =>
      obtain ⟨_, noUnit, back⟩ := short_escape_marks short
      exact unquote_short rfl noUnit back rest fuel
  | none =>
      dsimp only
      split
      · next unit =>
        have small : c.toNat < 65536 ∧ ¬ (0xd800 ≤ c.toNat ∧ c.toNat < 0xe000) := by
          simp only [byUnit, Bool.or_eq_true, decide_eq_true_eq] at unit
          rcases unit with ((((control | rfl) | rfl) | rfl) | line) | paragraph
          · omega
          · decide
          · decide
          · decide
          · omega
          · omega
        have single (low : Nat) : isPair c.toNat low = false := by
          simp only [isPair, Bool.and_eq_false_iff, decide_eq_false_iff_not]
          omega
        have found : unitAt (backslash :: ((unitEscape c.toNat).tail ++ rest)) = some (c.toNat, rest) :=
          unit_at_escape small.1 rest
        have self : unitChar c.toNat = c := by
          have valid : c.toNat.isValidChar := c.valid
          rw [unitChar, if_pos valid, Char.ofNat_toNat]
        exact (unquote_unit found single fuel).trans (by rw [self])
      · next raw =>
        obtain ⟨head, tail, bytes⟩ := List.exists_cons_of_ne_nil (String.utf8EncodeChar_ne_nil (c := c))
        have safe :=
          raw_bytes short (Bool.eq_false_iff.mpr raw) head (by rw [bytes]; exact List.mem_cons_self)
        have decoded := decode_rune_encoded c rest
        rw [bytes] at decoded ⊢
        rw [List.cons_append, unquote_rune safe.2.2, ← List.cons_append, decoded]
        simp

theorem unquote_encode (chars : List Char) (fuel : Nat) (enough : chars.length ≤ fuel) :
    unquote fuel (chars.flatMap escapeChar) = chars := by
  induction chars generalizing fuel with
  | nil => cases fuel <;> rfl
  | cons c chars ih =>
      obtain ⟨fuel, rfl⟩ := Nat.exists_eq_add_of_le' (show 1 ≤ fuel by simp at enough; omega)
      rw [List.flatMap_cons, unquote_char, ih fuel (by simpa using enough)]

theorem escape_char_length (c : Char) : 1 ≤ (escapeChar c).length := by
  unfold escapeChar
  split
  · exact Nat.le_of_ble_eq_true rfl
  split
  · exact Nat.le_of_ble_eq_true rfl
  · rw [String.length_utf8EncodeChar]
    exact c.utf8Size_pos

theorem encode_chars_length (chars : List Char) : chars.length ≤ (chars.flatMap escapeChar).length := by
  induction chars with
  | nil => exact Nat.le_refl 0
  | cons c chars ih =>
      have one := escape_char_length c
      rw [List.flatMap_cons, List.length_append, List.length_cons]
      omega

theorem decode_string_encode (text : String) : decodeString (text.toList.flatMap escapeChar) = text := by
  rw [decodeString, unquote_encode _ _ (encode_chars_length _), String.ofList_toList]

end KosSim.Library.Json
