import KosSim.Library.Cuts
import KosSim.Library.Hex
import KosSim.Library.Json
import KosSim.Library.Separated
import Mathlib.Data.List.Count
import Mathlib.Data.List.DropRight

/-!
A strict reader of HTTP/1.1 requests. The target is a path and a form query over the characters that
a URI may have, with percent escapes; fields are name=value pairs between ampersands, and a plus
sign is a blank. Whatever is outside of the grammar is no request.
-/

namespace KosSim.Library.HttpMessage
open Library.Json

/-! Characters. -/

def alphanumeric (c : UInt8) : Bool := isDigit c || 65 ≤ c && c ≤ 90 || 97 ≤ c && c ≤ 122

def tokenByte (c : UInt8) : Bool :=
  alphanumeric c || [33, 35, 36, 37, 38, 39, 42, 43, 45, 46, 94, 95, 96, 124, 126].contains c

/-- Unreserved characters, sub-delimiters, and colon, at sign and slash. -/
def pathByte (c : UInt8) : Bool :=
  alphanumeric c || [45, 46, 95, 126, 33, 36, 38, 39, 40, 41, 42, 43, 44, 59, 61, 58, 64, 47].contains c

def queryByte (c : UInt8) : Bool := pathByte c || c = 63

def lower (c : UInt8) : UInt8 := if 65 ≤ c && c ≤ 90 then c + 32 else c

/-! Forms. -/

/-- A percent sign without two hex digits is no form text. -/
def formDecode : Bytes → Option Bytes
  | 37 :: a :: b :: rest =>
      match hexValue a, hexValue b, formDecode rest with
      | some m, some n, some out => some (UInt8.ofNat (16 * m + n) :: out)
      | _, _, _ => none
  | c :: rest => if c = 37 then none else (formDecode rest).map ((if c = 43 then 32 else c) :: ·)
  | [] => some []

def readField (piece : Bytes) : Option (Bytes × Bytes) :=
  let parts := (cutAt [61] piece).getD (piece, [])
  match formDecode parts.1, formDecode parts.2 with
  | some name, some value => some (name, value)
  | _, _ => none

def formFields (query : Bytes) : Option (List (Bytes × Bytes)) :=
  ((query.splitOn 38).filter fun piece => piece ≠ []).mapM readField

/-! Requests. -/

structure Message where
  method : Bytes
  path : Bytes
  fields : List (Bytes × Bytes)
  headers : List (Bytes × Bytes)
  body : Bytes
  deriving DecidableEq

def readTarget (target : Bytes) : Option (Bytes × List (Bytes × Bytes)) :=
  let parts := (cutAt [63] target).getD (target, [])
  if target.head? = some 47 ∧ (parts.1.all fun c => pathByte c || c = 37) ∧ (formDecode parts.1).isSome ∧
      (parts.2.all fun c => queryByte c || c = 37) then
    (formFields parts.2).map fun fields => (parts.1, fields)
  else none

def readStart (line : Bytes) : Option (Bytes × Bytes × List (Bytes × Bytes)) :=
  match cutAt [32] line with
  | none => none
  | some (method, rest) =>
      match cutAt [32] rest with
      | none => none
      | some (target, version) =>
          if method ≠ [] ∧ method.all tokenByte ∧ version = utf8 "HTTP/1.1" then
            (readTarget target).map fun parts => (method, parts)
          else none

def blank (c : UInt8) : Bool := c = 32 || c = 9

def trimBlanks (text : Bytes) : Bytes := ((text.dropWhile blank).reverse.dropWhile blank).reverse

def lineEnd : Bytes := [13, 10]

/-- A printable byte, or a blank. -/
def fieldByte (c : UInt8) : Bool := 32 ≤ c && c ≠ 127 || c = 9

def readHeader (line : Bytes) : Option (Bytes × Bytes) :=
  match cutAt [58] line with
  | none => none
  | some (name, value) =>
      if name ≠ [] ∧ name.all tokenByte ∧
        value.all fieldByte then some (name.map lower, trimBlanks value) else none

/-- The headers up to the empty line, and what stands behind it; each line takes two bytes at least. -/
def readHeaders : Nat → Bytes → Option (List (Bytes × Bytes) × Bytes)
  | 0, _ => none
  | fuel + 1, raw =>
      match cutAt lineEnd raw with
      | none => none
      | some (line, rest) =>
          if line = [] then some ([], rest)
          else
            match readHeader line, readHeaders fuel rest with
            | some header, some (headers, body) => some (header :: headers, body)
            | _, _ => none

def header (headers : List (Bytes × Bytes)) (name : Bytes) : Option Bytes :=
  (headers.find? fun entry => entry.1 = name).map Prod.snd

/-- Without a Content-Length there is no body. -/
def readBody (headers : List (Bytes × Bytes)) (rest : Bytes) : Option Bytes :=
  match header headers (utf8 "content-length") with
  | none => some []
  | some length =>
      if length ≠ [] ∧ length.all isDigit ∧
        natOf length ≤ rest.length then some (rest.take (natOf length)) else none

def readMessage (raw : Bytes) : Option Message :=
  match cutAt lineEnd raw with
  | none => none
  | some (line, rest) =>
      match readStart line, readHeaders (rest.length + 1) rest with
      | some (method, path, fields), some (headers, behind) =>
          (readBody headers behind).map fun body => { method, path, fields, headers, body }
      | _, _ => none

/-! Decoding. -/

/-- Without signs to read, a text stands for itself. -/
theorem form_decode_plain {text : Bytes} (plain : ∀ c ∈ text, c ≠ 37 ∧ c ≠ 43) :
    formDecode text = some text := by
  induction text with
  | nil => rfl
  | cons c rest ih =>
      obtain ⟨percent, plus⟩ := plain c List.mem_cons_self
      have tail := ih fun other member => plain other (List.mem_cons_of_mem _ member)
      unfold formDecode
      split
      · next same => exact absurd (List.cons.inj same).1 percent
      · next same =>
        obtain ⟨rfl, rfl⟩ := List.cons.inj same
        rw [if_neg percent, if_neg plus, tail]
        rfl
      · next same => cases same

/-- What decoding does to a text: only where each escape is one of the percent sign the number of
percent signs stays, and then neither plus signs nor ampersands are new, and blanks come from plus
signs. -/
structure Decoded (raw out : Bytes) : Prop where
  fewer : out.count 37 ≤ raw.count 37
  shorter : out.count 37 = raw.count 37 → out.length + 2 * raw.count 37 ≤ raw.length
  plus : out.count 37 = raw.count 37 → out.count 43 = 0
  ampersand : out.count 37 = raw.count 37 → out.count 38 = raw.count 38
  blank : out.count 37 = raw.count 37 → out.count 32 = raw.count 32 + raw.count 43

theorem decoded_append {raw out more later : Bytes} (one : Decoded raw out) (other : Decoded more later) :
    Decoded (raw ++ more) (out ++ later) := by
  have first := one.fewer
  have second := other.fewer
  constructor
  all_goals simp only [List.count_append, List.length_append]
  · omega
  · intro same
    have left := one.shorter (by omega)
    have right := other.shorter (by omega)
    omega
  · intro same
    rw [one.plus (by omega), other.plus (by omega)]
  · intro same
    rw [one.ampersand (by omega), other.ampersand (by omega)]
  · intro same
    rw [one.blank (by omega), other.blank (by omega)]
    omega

theorem decoded_escape {a b : UInt8} {m n : Nat} (high : hexValue a = some m)
    (low : hexValue b = some n) (c : UInt8) :
    Decoded [37, a, b] [c] := by
  have digits {mark : UInt8} (under : mark < 48) : [a, b].count mark = 0 := by
    rw [List.count_cons_of_ne (hex_digit_apart high under),
      List.count_cons_of_ne (hex_digit_apart low under), List.count_nil]
  have others {mark : UInt8} (under : mark < 48) (other : 37 ≠ mark) : [37, a, b].count mark = 0 := by
    rw [List.count_cons_of_ne other, digits under]
  have escape : [37, a, b].count 37 = 1 := by rw [List.count_cons_self, digits (by decide)]
  have percent (same : [c].count 37 = [37, a, b].count 37) : c = 37 := by
    by_contra other
    rw [escape, List.count_cons_of_ne other, List.count_nil] at same
    cases same
  constructor
  · rw [escape]
    exact List.count_le_length
  · intro same
    rw [escape]
    exact Nat.le_refl 3
  · intro same
    rw [percent same]
    rfl
  · intro same
    rw [percent same, others (by decide) (by decide)]
    rfl
  · intro same
    rw [percent same, others (by decide) (by decide), others (by decide) (by decide)]
    rfl

theorem decoded_byte {c : UInt8} (percent : c ≠ 37) : Decoded [c] [if c = 43 then 32 else c] := by
  by_cases plus : c = 43
  · rw [if_pos plus, plus]
    constructor <;> decide
  · rw [if_neg plus]
    have none_ : [c].count 37 = 0 := by rw [List.count_cons_of_ne percent, List.count_nil]
    have noPlus : [c].count 43 = 0 := by rw [List.count_cons_of_ne plus, List.count_nil]
    constructor
    · exact Nat.le_refl _
    · intro _
      rw [none_]
      exact Nat.le_refl _
    · exact fun _ => noPlus
    · exact fun _ => rfl
    · intro _
      rw [noPlus]
      rfl

theorem form_decoded {raw out : Bytes} (read : formDecode raw = some out) : Decoded raw out := by
  induction raw using formDecode.induct generalizing out with
  | case1 a b rest m n later tail low high ih =>
      rw [formDecode, high, low, tail] at read
      rw [← Option.some.inj read]
      exact decoded_append (decoded_escape high low _) (ih tail)
  | case2 a b rest broken =>
      rw [formDecode] at read
      split at read
      · next m n later high low tail => exact absurd tail (broken m n later high low)
      · cases read
  | case3 rest short =>
      rw [formDecode, if_pos rfl] at read
      · cases read
      · exact short
  | case4 c rest noEscape percent ih =>
      rw [formDecode, if_neg percent] at read
      · obtain ⟨later, tail, rfl⟩ := Option.map_eq_some_iff.mp read
        exact decoded_append (decoded_byte percent) (ih tail)
      · exact noEscape
  | case5 =>
      rw [← Option.some.inj read]
      constructor <;> decide

/-! Fields. -/

/-- A piece without its first equals sign. -/
def bare (piece : Bytes) : Bytes :=
  let parts := (cutAt [61] piece).getD (piece, [])
  parts.1 ++ parts.2

def texts (fields : List (Bytes × Bytes)) : Bytes := fields.flatMap fun field => field.1 ++ field.2

theorem fields_decoded {pieces : List Bytes} {fields : List (Bytes × Bytes)}
    (read : pieces.mapM readField = some fields) :
    Decoded (pieces.flatMap bare) (texts fields) := by
  induction pieces generalizing fields with
  | nil =>
      rw [← Option.some.inj read]
      constructor <;> decide
  | cons piece rest ih =>
      rw [List.mapM_cons] at read
      obtain ⟨field, one, later⟩ := Option.bind_eq_some_iff.mp read
      obtain ⟨others, tail, whole⟩ := Option.bind_eq_some_iff.mp later
      rw [← Option.some.inj whole]
      refine decoded_append ?_ (ih tail)
      rw [readField] at one
      split at one
      · next name value first second =>
        rw [← Option.some.inj one]
        exact decoded_append (form_decoded first) (form_decoded second)
      · cases one

theorem bare_count (piece : Bytes) {mark : UInt8} (other : mark ≠ 61) :
    (bare piece).count mark = piece.count mark := by
  rw [bare]
  cases found : cutAt [61] piece with
  | none => exact congrArg (List.count mark) (List.append_nil piece)
  | some parts =>
      have whole : piece = parts.1 ++ ([61] ++ parts.2) := cut_parts found
      conv => rhs; rw [whole]
      rw [Option.getD_some, List.count_append, List.count_append, List.count_append,
        List.count_cons_of_ne other.symm, List.count_nil, Nat.zero_add]

theorem bare_counts (pieces : List Bytes) {mark : UInt8} (other : mark ≠ 61) :
    (pieces.flatMap bare).count mark = pieces.flatten.count mark := by
  induction pieces with
  | nil => rfl
  | cons piece rest ih =>
      rw [List.flatMap_cons, List.flatten_cons, List.count_append, List.count_append,
        bare_count _ other, ih]

/-- What a form's fields have of the form's own bytes. -/
theorem form_fields_decoded {query : Bytes} {fields : List (Bytes × Bytes)}
    (read : formFields query = some fields) :
    ∃ raw, Decoded raw (texts fields) ∧ raw.count 38 = 0 ∧
      ∀ mark, mark ≠ 38 → mark ≠ 61 → raw.count mark = query.count mark := by
  refine ⟨_, fields_decoded read, ?_, fun mark noAmpersand noEquals => ?_⟩
  · rw [bare_counts _ (by decide), List.flatten_filter_ne_nil, List.count_eq_zero, List.mem_flatten]
    rintro ⟨piece, member, inside⟩
    exact split_free query piece member inside
  · rw [bare_counts _ noEquals, List.flatten_filter_ne_nil, ← joined_count _ noAmpersand,
      List.intercalate_splitOn]

/-! Forms written without escapes. -/

def plainField (field : Bytes × Bytes) : Bytes := field.1 ++ 61 :: field.2

def plainForm (fields : List (Bytes × Bytes)) : Bytes := [38].intercalate (fields.map plainField)

theorem plain_form_count (fields : List (Bytes × Bytes)) {mark : UInt8} (noAmpersand : mark ≠ 38)
    (noEquals : mark ≠ 61) :
    (plainForm fields).count mark = (texts fields).count mark := by
  rw [plainForm, joined_count _ noAmpersand]
  induction fields with
  | nil => rfl
  | cons field rest ih =>
      have parts : texts (field :: rest) = field.1 ++ field.2 ++ texts rest := rfl
      rw [List.map_cons, List.flatten_cons, List.count_append, ih, parts, plainField, List.count_append,
        List.count_append, List.count_append, List.count_cons_of_ne noEquals.symm]

theorem plain_form_pieces {fields : List (Bytes × Bytes)} (apart : (38 : UInt8) ∉ texts fields) :
    formFields (plainForm fields) = (fields.map plainField).mapM readField := by
  rw [formFields, plainForm]
  by_cases none_ : fields = []
  · rw [none_]
    rfl
  · have free : ∀ piece ∈ fields.map plainField, (38 : UInt8) ∉ piece := by
      intro piece member inside
      obtain ⟨field, listed, rfl⟩ := List.mem_map.mp member
      rw [plainField, List.mem_append, List.mem_cons] at inside
      have out : (38 : UInt8) ∉ field.1 ++ field.2 :=
        fun here => apart (List.mem_flatMap.mpr ⟨field, listed, here⟩)
      rcases inside with name | equals | value
      · exact out (List.mem_append_left _ name)
      · cases equals
      · exact out (List.mem_append_right _ value)
    have filled : ((fields.map plainField).filter fun piece => piece ≠ []) = fields.map plainField := by
      refine List.filter_eq_self.mpr fun piece member => ?_
      obtain ⟨field, -, rfl⟩ := List.mem_map.mp member
      exact decide_eq_true (List.append_ne_nil_of_right_ne_nil _ (List.cons_ne_nil _ _))
    rw [List.splitOn_intercalate _ free fun empty => none_ (List.map_eq_nil_iff.mp empty), filled]

theorem read_plain {piece : Bytes} (plain : ∀ c ∈ piece, c ≠ 37 ∧ c ≠ 43) :
    readField piece = some ((cutAt [61] piece).getD (piece, [])) := by
  rw [readField]
  cases found : cutAt [61] piece with
  | none =>
      simp only [Option.getD_none, form_decode_plain plain]
      rfl
  | some parts =>
      have whole : piece = parts.1 ++ ([61] ++ parts.2) := cut_parts found
      rw [whole] at plain
      have name := form_decode_plain fun c member => plain c (List.mem_append_left _ member)
      have value := form_decode_plain fun c member =>
        plain c (List.mem_append_right _ (List.mem_append_right _ member))
      simp only [Option.getD_some, name, value]

section Plain
variable {fields found : List (Bytes × Bytes)}

theorem texts_perm (same : found.Perm fields) (mark : UInt8) :
    (texts found).count mark = (texts fields).count mark :=
  (same.flatMap_right _).count_eq mark

/-- A field that is read from a part of the form is the written one only if no sign has another reading. -/
theorem plain_form_signs {query : Bytes} (front : query <+: plainForm fields)
    (noBlank : (32 : UInt8) ∉ query) (read : formFields query = some found)
    (same : found.Perm fields) :
    (43 : UInt8) ∉ texts fields ∧ (38 : UInt8) ∉ texts fields ∧ (32 : UInt8) ∉ texts fields := by
  obtain ⟨raw, decoded, noAmpersand, counts⟩ := form_fields_decoded read
  have part {mark : UInt8} (one : mark ≠ 38) (other : mark ≠ 61) :
      query.count mark ≤ (texts fields).count mark :=
    (front.count_le mark).trans_eq (plain_form_count fields one other)
  have signs : (texts found).count 37 = raw.count 37 := by
    refine Nat.le_antisymm decoded.fewer ?_
    rw [counts 37 (by decide) (by decide), texts_perm same]
    exact part (by decide) (by decide)
  have plus : (texts fields).count 43 = 0 := by rw [← texts_perm same, decoded.plus signs]
  have fewPlus : query.count 43 = 0 := Nat.le_zero.mp (plus ▸ part (by decide) (by decide))
  refine ⟨List.count_eq_zero.mp plus, List.count_eq_zero.mp ?_, List.count_eq_zero.mp ?_⟩
  · rw [← texts_perm same, decoded.ampersand signs, noAmpersand]
  · rw [← texts_perm same, decoded.blank signs, counts 32 (by decide) (by decide),
      counts 43 (by decide) (by decide), fewPlus, List.count_eq_zero.mpr noBlank]

theorem plain_form_percent (apart : (38 : UInt8) ∉ texts fields)
    (read : formFields (plainForm fields) = some found) (same : found.Perm fields) :
    (37 : UInt8) ∉ texts fields := by
  have decoded := fields_decoded ((plain_form_pieces apart).symm.trans read)
  have lengths : ((fields.map plainField).flatMap bare).length = (texts fields).length := by
    have one (field : Bytes × Bytes) : (bare (plainField field)).length = (field.1 ++ field.2).length := by
      obtain ⟨parts, cut⟩ := Option.ne_none_iff_exists'.mp (cut_found field.1 [61] field.2)
      have whole : plainField field = parts.1 ++ ([61] ++ parts.2) := cut_parts cut
      have size := congrArg List.length whole
      rw [plainField] at size ⊢
      rw [bare, show cutAt [61] (field.1 ++ 61 :: field.2) = some parts from cut]
      simp only [List.length_append, List.length_cons, List.length_nil, Option.getD_some] at size ⊢
      omega
    rw [texts, List.flatMap_map, List.length_flatMap, List.length_flatMap]
    exact congrArg List.sum (List.map_congr_left fun field _ => one field)
  have counts : ((fields.map plainField).flatMap bare).count 37 = (texts fields).count 37 := by
    have apart : (37 : UInt8) ≠ 38 := by decide
    rw [bare_counts _ (by decide), ← joined_count _ apart]
    exact plain_form_count fields apart (by decide)
  have sizes : (texts found).length = (texts fields).length := (same.flatMap_right _).length_eq
  have short := decoded.shorter (by rw [counts, texts_perm same])
  rw [counts, lengths, sizes] at short
  exact List.count_eq_zero.mp (by omega)

theorem taken_whole {names : List Bytes} {keep : UInt8 → Bool}
    (same : (names.map (List.takeWhile keep)).flatten.length = names.flatten.length) :
    ∀ name ∈ names, name.takeWhile keep = name := by
  have short (names : List Bytes) : (names.map (List.takeWhile keep)).flatten.length ≤
      names.flatten.length := by
    induction names with
    | nil => exact Nat.le_refl 0
    | cons name rest ih =>
        simp only [List.map_cons, List.flatten_cons, List.length_append]
        exact Nat.add_le_add (List.takeWhile_prefix keep).length_le ih
  induction names with
  | nil => exact nofun
  | cons name rest ih =>
      simp only [List.map_cons, List.flatten_cons, List.length_append] at same
      have one := (List.takeWhile_prefix (l := name) keep).length_le
      have others := short rest
      exact List.forall_mem_cons.mpr
        ⟨(List.takeWhile_prefix keep).eq_of_length (by omega), ih (by omega)⟩

theorem plain_field_signs (field : Bytes × Bytes) {c : UInt8} (member : c ∈ plainField field) :
    c = 61 ∨ c ∈ field.1 ++ field.2 := by
  rw [plainField, List.mem_append, List.mem_cons] at member
  rw [List.mem_append]
  rcases member with name | equals | value
  · exact .inr (.inl name)
  · exact .inl equals
  · exact .inr (.inr value)

theorem plain_form_mem {c : UInt8} (member : c ∈ plainForm fields) :
    c = 38 ∨ c = 61 ∨ c ∈ texts fields := by
  refine (joined_mem member).imp_right fun ⟨piece, listed, inside⟩ => ?_
  obtain ⟨field, within, rfl⟩ := List.mem_map.mp listed
  exact (plain_field_signs field inside).imp_right fun held => List.mem_flatMap.mpr ⟨field, within, held⟩

theorem texts_in_form {c : UInt8} (member : c ∈ texts fields) : c ∈ plainForm fields ∨ c = 38 ∨ c = 61 := by
  by_contra out
  rw [not_or, not_or] at out
  have counted := plain_form_count fields out.2.1 out.2.2
  rw [List.count_eq_zero.mpr out.1] at counted
  exact List.count_eq_zero.mp counted.symm member

theorem read_plain_fields (percent : (37 : UInt8) ∉ texts fields) (plus : (43 : UInt8) ∉ texts fields) :
    (fields.map plainField).mapM readField =
      some (fields.map fun field => (cutAt [61] (plainField field)).getD (plainField field, [])) := by
  induction fields with
  | nil => rfl
  | cons field rest ih =>
      have parts : texts (field :: rest) = field.1 ++ field.2 ++ texts rest := rfl
      rw [parts, List.mem_append, not_or] at percent plus
      have one : ∀ c ∈ plainField field, c ≠ 37 ∧ c ≠ 43 := by
        intro c member
        rcases plain_field_signs field member with rfl | inside
        · decide
        · exact ⟨fun same => percent.1 (same ▸ inside), fun same => plus.1 (same ▸ inside)⟩
      rw [List.map_cons, List.mapM_cons, read_plain one, ih percent.2 plus.2]
      rfl

/-- A name with an equals sign is read up to it. -/
theorem plain_form_names
    (signs : (38 : UInt8) ∉ texts fields ∧ (37 : UInt8) ∉ texts fields ∧ (43 : UInt8) ∉ texts fields)
    (read : formFields (plainForm fields) = some found) (same : found.Perm fields) :
    ∀ field ∈ fields, (61 : UInt8) ∉ field.1 := by
  rw [plain_form_pieces signs.1, read_plain_fields signs.2.1 signs.2.2] at read
  have names :
      found.map Prod.fst = (fields.map Prod.fst).map (List.takeWhile fun c => decide (c ≠ 61)) := by
    rw [← Option.some.inj read, List.map_map, List.map_map]
    refine List.map_congr_left fun field _ => ?_
    have cut := cut_take_while 61 (plainField field)
    have stop : (plainField field).takeWhile (fun c => decide (c ≠ 61)) = field.1.takeWhile fun c =>
        decide (c ≠ 61) := by
      rw [plainField, List.takeWhile_append, List.takeWhile_cons_of_neg (by decide)]
      split
      · next whole => rw [List.append_nil, (List.takeWhile_prefix _).eq_of_length whole]
      · rfl
    rw [stop] at cut
    rw [Function.comp_apply, Function.comp_apply, ← cut]
    cases cutAt [61] (plainField field) <;> rfl
  have lengths := ((same.map Prod.fst).flatten).length_eq
  rw [names] at lengths
  intro field member equals
  have whole := taken_whole lengths field.1 (List.mem_map_of_mem member)
  rw [← whole] at equals
  have other := List.mem_takeWhile_imp (p := fun c : UInt8 => decide (c ≠ 61)) equals
  exact absurd other (by decide)

theorem plain_form_read
    (signs : (38 : UInt8) ∉ texts fields ∧ (37 : UInt8) ∉ texts fields ∧ (43 : UInt8) ∉ texts fields)
    (names : ∀ field ∈ fields, (61 : UInt8) ∉ field.1) :
    formFields (plainForm fields) = some fields := by
  rw [plain_form_pieces signs.1, read_plain_fields signs.2.1 signs.2.2]
  have cut : ∀ field ∈ fields, (cutAt [61] (plainField field)).getD (plainField field, []) = field := by
    intro field member
    rw [plainField, cut_mark (names field member)]
    rfl
  rw [List.map_congr_left cut, List.map_id']

end Plain

/-! Reading a message. -/

/-- Whatever the message is, its target is what stands between the first two blanks. -/
theorem read_message_target {method target rest : Bytes} {m : Message} (noBlank : (32 : UInt8) ∉ method)
    (read : readMessage (method ++ 32 :: (target ++ 32 :: rest)) = some m) :
    readTarget (target.takeWhile fun c => decide (c ≠ 32)) = some (m.path, m.fields) := by
  rw [readMessage] at read
  split at read
  · cases read
  · next line behind found =>
    split at read
    · next method' path fields headers after start _ =>
      obtain ⟨body, -, whole⟩ := Option.map_eq_some_iff.mp read
      rw [← whole]
      rw [readStart] at start
      split at start
      · cases start
      · next first others cut =>
        split at start
        · cases start
        · next text version second =>
          split at start
          · obtain ⟨parts, target', same⟩ := Option.map_eq_some_iff.mp start
            have one := cut_extends cut (lineEnd ++ behind)
            rw [← cut_parts found, cut_mark noBlank] at one
            have tails : target ++ 32 :: rest = others ++ (lineEnd ++ behind) :=
              (Prod.mk.inj (Option.some.inj one)).2
            have two := cut_extends second (lineEnd ++ behind)
            rw [← tails] at two
            have stops := cut_take_while 32 (target ++ 32 :: rest)
            rw [two] at stops
            have front : (target ++ 32 :: rest).takeWhile (fun c => decide (c ≠ 32)) =
                target.takeWhile fun c => decide (c ≠ 32) := by
              rw [List.takeWhile_append, List.takeWhile_cons_of_neg (by decide)]
              split
              · next all => rw [List.append_nil, (List.takeWhile_prefix _).eq_of_length all]
              · rfl
            rw [front] at stops
            rw [← stops]
            exact target'.trans (congrArg some (Prod.mk.inj same).2)
          · cases start
    · cases read

theorem token_bytes {c : UInt8} (token : tokenByte c = true) : c ≠ 58 ∧ c ≠ 32 ∧ c ≠ 13 := by
  refine ⟨?_, ?_, ?_⟩
  · rintro rfl
    exact absurd token (by decide)
  · rintro rfl
    exact absurd token (by decide)
  · rintro rfl
    exact absurd token (by decide)

theorem cut_line {line : Bytes} (free : (13 : UInt8) ∉ line) (rest : Bytes) :
    cutAt lineEnd (line ++ (lineEnd ++ rest)) = some (line, rest) := by
  have here : cutAt lineEnd (lineEnd ++ rest) = some ([], rest) := cut_here lineEnd rest
  rw [lineEnd] at here ⊢
  rw [cut_apart free, here, Option.map_some, List.append_nil]

theorem read_start {method target : Bytes} (filled : method ≠ []) (token : ∀ c ∈ method, tokenByte c = true)
    (noBlank : (32 : UInt8) ∉ target) : readStart (method ++ 32 :: (target ++ 32 :: utf8 "HTTP/1.1")) =
      (readTarget target).map fun parts => (method, parts) := by
  have free : (32 : UInt8) ∉ method := fun member => (token_bytes (token 32 member)).2.1 rfl
  rw [readStart, cut_mark free]
  dsimp only
  rw [cut_mark noBlank]
  exact if_pos ⟨filled, List.all_eq_true.mpr token, rfl⟩

/-- What is read for the headers that are written so. -/
def readAs (headers : List (Bytes × Bytes)) : List (Bytes × Bytes) :=
  headers.map fun header => (header.1.map lower, trimBlanks header.2)

def headerText (header : Bytes × Bytes) : Bytes := header.1 ++ 58 :: 32 :: header.2

structure HeaderText (header : Bytes × Bytes) : Prop where
  filled : header.1 ≠ []
  name : ∀ c ∈ header.1, tokenByte c = true
  value : ∀ c ∈ header.2, fieldByte c = true

theorem header_no_return {header : Bytes × Bytes} (text : HeaderText header) :
    (13 : UInt8) ∉ headerText header := by
  rw [headerText, List.mem_append, List.mem_cons, List.mem_cons]
  rintro (name | colon | blank_ | value)
  · exact (token_bytes (text.name 13 name)).2.2 rfl
  · cases colon
  · cases blank_
  · exact absurd (text.value 13 value) (by decide)

theorem read_header {header : Bytes × Bytes} (text : HeaderText header) :
    readHeader (headerText header) = some (header.1.map lower, trimBlanks header.2) := by
  have free : (58 : UInt8) ∉ header.1 := fun member => (token_bytes (text.name 58 member)).1 rfl
  have spaced : trimBlanks (32 :: header.2) = trimBlanks header.2 := rfl
  rw [readHeader, headerText, cut_mark free]
  dsimp only
  rw [if_pos, spaced]
  refine ⟨text.filled, List.all_eq_true.mpr text.name, List.all_eq_true.mpr fun c member => ?_⟩
  rcases List.mem_cons.mp member with rfl | inside
  · rfl
  · exact text.value c inside

theorem read_headers {headers : List (Bytes × Bytes)}
    (texts : ∀ header ∈ headers, HeaderText header) (body : Bytes) {fuel : Nat}
    (enough : headers.length < fuel) :
    readHeaders fuel ((headers.map headerText).flatMap (· ++ lineEnd) ++ (lineEnd ++ body)) =
      some (readAs headers, body) := by
  induction headers generalizing fuel with
  | nil =>
      obtain ⟨more, rfl⟩ := Nat.exists_eq_succ_of_ne_zero (Nat.ne_zero_of_lt enough)
      rw [readHeaders, List.map_nil, List.flatMap_nil, cut_line List.not_mem_nil]
      rfl
  | cons header rest ih =>
      obtain ⟨more, rfl⟩ := Nat.exists_eq_succ_of_ne_zero (Nat.ne_zero_of_lt enough)
      have text := texts header List.mem_cons_self
      have filled : headerText header ≠ [] := fun empty => text.filled (List.append_eq_nil_iff.mp empty).1
      have later := ih (fun other member => texts other (List.mem_cons_of_mem _ member))
        (Nat.lt_of_succ_lt_succ enough)
      rw [List.map_cons, List.flatMap_cons, List.append_assoc, List.append_assoc, readHeaders,
        cut_line (header_no_return text)]
      dsimp only
      rw [if_neg filled, read_header text, later]
      rfl

theorem read_written {method target path body : Bytes} {fields headers : List (Bytes × Bytes)}
    (filled : method ≠ []) (token : ∀ c ∈ method, tokenByte c = true)
    (noBlank : (32 : UInt8) ∉ target) (noReturn : (13 : UInt8) ∉ target)
    (texts : ∀ header ∈ headers, HeaderText header)
    (parts : readTarget target = some (path, fields))
    (sized : readBody (readAs headers) body = some body) :
    readMessage (method ++ 32 :: (target ++ 32 :: utf8 "HTTP/1.1") ++
      (lineEnd ++ ((headers.map headerText).flatMap (· ++ lineEnd) ++ (lineEnd ++ body)))) =
      some ⟨method, path, fields, readAs headers, body⟩ := by
  have free : (13 : UInt8) ∉ method ++ 32 :: (target ++ 32 :: utf8 "HTTP/1.1") := by
    rw [List.mem_append, List.mem_cons, List.mem_append, List.mem_cons]
    rintro (inMethod | blank_ | inTarget | blank_ | version)
    · exact (token_bytes (token 13 inMethod)).2.2 rfl
    · cases blank_
    · exact noReturn inTarget
    · cases blank_
    · exact absurd version (by decide)
  have enough : headers.length <
      ((headers.map headerText).flatMap (· ++ lineEnd) ++ (lineEnd ++ body)).length + 1 := by
    have many : headers.length ≤ ((headers.map headerText).flatMap (· ++ lineEnd)).length := by
      rw [List.flatMap_map, List.length_flatMap]
      clear texts sized
      induction headers with
      | nil => exact Nat.le_refl 0
      | cons header rest ih =>
          rw [List.map_cons, List.sum_cons, List.length_append, List.length_cons]
          have two : lineEnd.length = 2 := rfl
          omega
    rw [List.length_append]
    omega
  rw [readMessage, cut_line free]
  dsimp only
  rw [read_start filled token noBlank, parts, read_headers texts body enough]
  dsimp only [Option.map_some]
  rw [sized]
  rfl

/-! Trimming. -/

theorem trim_blanks_twice (text : Bytes) : trimBlanks (trimBlanks text) = trimBlanks text := by
  have front : trimBlanks text <+: text.dropWhile blank := List.rdropWhile_prefix blank _
  have start : (trimBlanks text).dropWhile blank = trimBlanks text := by
    refine List.dropWhile_eq_self_iff.mpr fun filled => ?_
    have first := List.dropWhile_eq_self_iff.mp (List.dropWhile_idempotent blank text)
      (Nat.lt_of_lt_of_le filled front.length_le)
    rw [front.getElem filled]
    exact first
  show List.rdropWhile blank ((trimBlanks text).dropWhile blank) = trimBlanks text
  rw [start]
  exact List.rdropWhile_idempotent blank _

theorem trim_plain {text : Bytes} (plain : ∀ c ∈ text, blank c = false) : trimBlanks text = text := by
  have kept (list : Bytes) (within : ∀ c ∈ list, c ∈ text) : list.dropWhile blank = list := by
    cases list with
    | nil => rfl
    | cons c rest =>
        exact List.dropWhile_cons_of_neg (by rw [plain c (within c List.mem_cons_self)]; decide)
  rw [trimBlanks, kept text fun c member => member, kept _ fun c member => List.mem_reverse.mp member,
    List.reverse_reverse]

end KosSim.Library.HttpMessage
