import Mathlib.Data.List.Induction
import KosSim.Library.Hex

/-!
Which byte strings are texts. A byte below 128 is a whole character wherever it stands, so
a byte string between two ASCII texts is a text exactly when it is one alone.
-/

namespace KosSim.Library

def Readable (bytes : List UInt8) : Prop := ∃ text, utf8 text = bytes

theorem from_utf8_iff {bytes : List UInt8} {text : String} :
    String.fromUTF8? bytes.toByteArray = some text ↔ utf8 text = bytes := by
  constructor
  · intro read
    unfold String.fromUTF8? at read
    split at read
    · cases read
      show bytes.toByteArray.data.toList = bytes
      rw [List.data_toByteArray]
    · cases read
  · rintro rfl
    exact from_utf8_utf8 text

theorem from_utf8_none {bytes : List UInt8} :
    String.fromUTF8? bytes.toByteArray = none ↔ ¬Readable bytes := by
  constructor
  · rintro none ⟨text, same⟩
    rw [from_utf8_iff.mpr same] at none
    cases none
  · intro unreadable
    cases read : String.fromUTF8? bytes.toByteArray with
    | none => rfl
    | some text => exact absurd ⟨text, from_utf8_iff.mp read⟩ unreadable

theorem readable_chars {bytes : List UInt8} :
    Readable bytes ↔ ∃ chars : List Char, chars.flatMap String.utf8EncodeChar = bytes := by
  constructor
  · rintro ⟨text, same⟩
    exact ⟨text.toList, by rw [← utf8_of_list, String.ofList_toList, same]⟩
  · rintro ⟨chars, same⟩
    exact ⟨String.ofList chars, by rw [utf8_of_list, same]⟩

theorem encode_char_filled (c : Char) : String.utf8EncodeChar c ≠ [] := by
  intro none
  have size := String.length_utf8EncodeChar c
  rw [none] at size
  exact absurd size.symm (Nat.ne_of_gt (Char.utf8Size_pos c))

section Ascii
variable {byte : UInt8} (ascii : byte < 128)
include ascii

/-- The character of an ASCII byte. -/
theorem encode_ascii : ∃ c : Char, String.utf8EncodeChar c = [byte] := by
  have table : ∀ n < 128, String.utf8EncodeChar (Char.ofNat n) = [UInt8.ofNat n] := by decide
  exact ⟨Char.ofNat byte.toNat, by rw [table byte.toNat ascii, UInt8.ofNat_toNat]⟩

/-- A character that has the byte is the byte. -/
theorem encode_single {c : Char} (member : byte ∈ String.utf8EncodeChar c) :
    String.utf8EncodeChar c = [byte] := by
  rcases encode_char_bytes c with ⟨_, single⟩ | wide
  · rw [single] at member ⊢
    rw [List.mem_singleton.mp member]
  · have small : byte.toNat < 128 := ascii
    have large : 128 ≤ byte.toNat := wide byte member
    omega

theorem readable_cons (rest : List UInt8) : Readable (byte :: rest) ↔ Readable rest := by
  rw [readable_chars, readable_chars]
  constructor
  · rintro ⟨chars, same⟩
    cases chars with
    | nil => cases same
    | cons c chars =>
        rw [List.flatMap_cons] at same
        obtain ⟨first, others, front⟩ := List.exists_cons_of_ne_nil (encode_char_filled c)
        rw [front] at same
        have single :=
          encode_single ascii (c := c) (by rw [front, (List.cons.inj same).1]; exact List.mem_cons_self)
        rw [single] at front
        rw [← (List.cons.inj front).2] at same
        exact ⟨chars, (List.cons.inj same).2⟩
  · rintro ⟨chars, same⟩
    obtain ⟨c, single⟩ := encode_ascii ascii
    exact ⟨c :: chars, by rw [List.flatMap_cons, single, same]; rfl⟩

theorem readable_snoc (front : List UInt8) : Readable (front ++ [byte]) ↔ Readable front := by
  rw [readable_chars, readable_chars]
  constructor
  · rintro ⟨chars, same⟩
    rcases List.eq_nil_or_concat chars with rfl | ⟨chars, c, rfl⟩
    · exact absurd same.symm (List.append_ne_nil_of_right_ne_nil _ (List.cons_ne_nil _ _))
    · rw [List.concat_eq_append, List.flatMap_append, List.flatMap_singleton] at same
      rcases List.eq_nil_or_concat (String.utf8EncodeChar c) with none | ⟨others, last, ends⟩
      · exact absurd none (encode_char_filled c)
      · rw [List.concat_eq_append] at ends
        rw [ends, ← List.append_assoc] at same
        have here := (List.append_inj' same rfl).2
        have single :=
          encode_single ascii (c := c)
            (by rw [ends, here]; exact List.mem_append_right _ List.mem_cons_self)
        rw [single] at ends
        have alone : others = [] := by
          have sizes := congrArg List.length ends
          rw [List.length_append, List.length_singleton, List.length_singleton] at sizes
          exact List.eq_nil_of_length_eq_zero (by omega)
        rw [alone, List.append_nil] at same
        exact ⟨chars, (List.append_inj' same rfl).1⟩
  · rintro ⟨chars, same⟩
    obtain ⟨c, single⟩ := encode_ascii ascii
    exact ⟨chars ++ [c], by rw [List.flatMap_append, List.flatMap_singleton, single, same]⟩

end Ascii

/-- Between ASCII texts. -/
theorem readable_between {front back : List UInt8} (frontAscii : ∀ byte ∈ front, byte < 128)
    (backAscii : ∀ byte ∈ back, byte < 128) (bytes : List UInt8) :
    Readable (front ++ bytes ++ back) ↔ Readable bytes := by
  have before : Readable (front ++ bytes) ↔ Readable bytes := by
    induction front with
    | nil => rfl
    | cons byte rest ih =>
        rw [List.forall_mem_cons] at frontAscii
        exact (readable_cons frontAscii.1 _).trans (ih frontAscii.2)
  refine Iff.trans ?_ before
  clear before
  induction back using List.reverseRecOn with
  | nil => rw [List.append_nil]
  | append_singleton rest byte ih =>
      rw [← List.append_assoc, readable_snoc (backAscii byte (List.mem_append_right _ List.mem_cons_self))]
      exact ih fun other member => backAscii other (List.mem_append_left _ member)

end KosSim.Library
