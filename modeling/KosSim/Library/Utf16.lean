import Mathlib.Data.List.Basic
import KosSim.Library.Hex

/-!
Texts as lists of 16-bit code units, the strings of languages that count them. `utf16` writes
a text in code units, and `toText` reads any units as a text: a surrogate without its other
half becomes the replacement character.
-/

namespace KosSim.Library

def unitsOf (c : Char) : List UInt16 :=
  if c.toNat < 0x10000 then [UInt16.ofNat c.toNat]
  else [UInt16.ofNat (0xD800 + (c.toNat - 0x10000) / 0x400),
    UInt16.ofNat (0xDC00 + (c.toNat - 0x10000) % 0x400)]

def utf16 (text : String) : List UInt16 := text.toList.flatMap unitsOf

def highSurrogate (unit : UInt16) : Bool := decide (0xD800 ≤ unit.toNat) && decide (unit.toNat < 0xDC00)

def lowSurrogate (unit : UInt16) : Bool := decide (0xDC00 ≤ unit.toNat) && decide (unit.toNat < 0xE000)

def pairChar (high low : UInt16) : Char :=
  Char.ofNat (0x10000 + (high.toNat - 0xD800) * 0x400 + (low.toNat - 0xDC00))

def loneChar (unit : UInt16) : Char :=
  if highSurrogate unit || lowSurrogate unit then Char.ofNat 0xFFFD else Char.ofNat unit.toNat

def scalars : List UInt16 → List Char
  | [] => []
  | [unit] => [loneChar unit]
  | unit :: next :: rest =>
      if highSurrogate unit && lowSurrogate next then pairChar unit next :: scalars rest
      else loneChar unit :: scalars (next :: rest)

def toText (units : List UInt16) : String := String.ofList (scalars units)

theorem char_range (c : Char) : c.toNat < 0xD800 ∨ 0xDFFF < c.toNat ∧ c.toNat < 0x110000 := c.valid

theorem scalars_lone (unit : UInt16) (rest : List UInt16) (whole : highSurrogate unit = false) :
    scalars (unit :: rest) = loneChar unit :: scalars rest := by
  cases rest with
  | nil => rfl
  | cons next rest => rw [scalars, whole, Bool.false_and, if_neg Bool.false_ne_true]

theorem scalars_units (c : Char) (rest : List UInt16) :
    scalars (unitsOf c ++ rest) = c :: scalars rest := by
  have range := char_range c
  unfold unitsOf
  by_cases basic : c.toNat < 0x10000
  · have unit : (UInt16.ofNat c.toNat).toNat = c.toNat := UInt16.toNat_ofNat_of_lt' basic
    have high : highSurrogate (UInt16.ofNat c.toNat) = false := by
      rw [highSurrogate, unit]
      simp
      omega
    have low : lowSurrogate (UInt16.ofNat c.toNat) = false := by
      rw [lowSurrogate, unit]
      simp
      omega
    rw [if_pos basic, List.singleton_append, scalars_lone _ _ high, loneChar, high, low, unit]
    simp
  · have first : (UInt16.ofNat (0xD800 + (c.toNat - 0x10000) / 0x400)).toNat =
        0xD800 + (c.toNat - 0x10000) / 0x400 :=
      UInt16.toNat_ofNat_of_lt' (by show _ < 65536; omega)
    have second : (UInt16.ofNat (0xDC00 + (c.toNat - 0x10000) % 0x400)).toNat =
        0xDC00 + (c.toNat - 0x10000) % 0x400 :=
      UInt16.toNat_ofNat_of_lt' (by show _ < 65536; omega)
    have high : highSurrogate (UInt16.ofNat (0xD800 + (c.toNat - 0x10000) / 0x400)) = true := by
      rw [highSurrogate, first]
      simp
      omega
    have low : lowSurrogate (UInt16.ofNat (0xDC00 + (c.toNat - 0x10000) % 0x400)) = true := by
      rw [lowSurrogate, second]
      simp
      omega
    have value : 0x10000 + (0xD800 + (c.toNat - 0x10000) / 0x400 - 0xD800) * 0x400 +
        (0xDC00 + (c.toNat - 0x10000) % 0x400 - 0xDC00) = c.toNat := by omega
    rw [if_neg basic, List.cons_append, List.cons_append, List.nil_append, scalars, high, low,
      Bool.true_and, if_pos rfl, pairChar, first, second, value, Char.ofNat_toNat]

theorem scalars_utf16 (chars : List Char) : scalars (chars.flatMap unitsOf) = chars := by
  induction chars with
  | nil => rfl
  | cons c rest ih => rw [List.flatMap_cons, scalars_units, ih]

/-- A text survives its code units. -/
@[simp] theorem to_text_utf16 (text : String) : toText (utf16 text) = text := by
  rw [toText, utf16, scalars_utf16, String.ofList_toList]

/-- UTF-8 takes at most three bytes for a code unit. -/
theorem utf8_length_le (text : String) : (utf8 text).length ≤ 3 * (utf16 text).length := by
  rw [← String.ofList_toList (s := text), utf8_of_list, utf16, String.toList_ofList]
  induction text.toList with
  | nil => exact Nat.le_refl _
  | cons c rest ih =>
      have head : c.utf8Size ≤ 3 * (unitsOf c).length := by
        unfold unitsOf
        split
        · next basic =>
          show c.utf8Size ≤ 3
          have four := Char.utf8Size_le_four c
          have notFour : c.utf8Size ≠ 4 := fun same =>
            absurd (Char.utf8Size_eq_four_iff.mp same) (UInt32.not_lt.mpr (Nat.le_of_lt_succ basic))
          omega
        · exact Nat.le_trans (Char.utf8Size_le_four c) (Nat.le_of_ble_eq_true rfl)
      rw [List.flatMap_cons, List.flatMap_cons, List.length_append, List.length_append,
        String.length_utf8EncodeChar]
      omega

end KosSim.Library
