import KosSim.Library.Decimal
import KosSim.Library.JsonStrings
import Mathlib.Data.List.TakeWhile

/-!
JSON values: the text that is written for one, without spaces, and a reader of the whole grammar.
What is written is read back, and a text that is cut inside its object is not read at all.
-/

namespace KosSim.Library.Json

abbrev comma : UInt8 := 44
abbrev colon : UInt8 := 58
abbrev openBracket : UInt8 := 91
abbrev closeBracket : UInt8 := 93
abbrev openBrace : UInt8 := 123
abbrev closeBrace : UInt8 := 125

def isDigit (byte : UInt8) : Bool := 48 ≤ byte && byte ≤ 57

/-! Numbers. -/

def fraction : Bytes → Option Bytes
  | 46 :: rest => if (rest.takeWhile isDigit).isEmpty then none else some (rest.dropWhile isDigit)
  | rest => some rest

def exponentDigits (rest : Bytes) : Bool := !rest.isEmpty && rest.all isDigit

def exponent : Bytes → Bool
  | [] => true
  | mark :: 43 :: rest => (mark = 101 || mark = 69) && exponentDigits rest
  | mark :: 45 :: rest => (mark = 101 || mark = 69) && exponentDigits rest
  | mark :: rest => (mark = 101 || mark = 69) && exponentDigits rest

/-- The digits before the fraction: no more than one, where the first is zero. -/
def wholeDigits : Bytes → Bool
  | [] => false
  | [_] => true
  | first :: _ => first ≠ 48

def unsigned : Bytes → Bytes
  | 45 :: rest => rest
  | rest => rest

def isNumber (text : Bytes) : Bool :=
  wholeDigits ((unsigned text).takeWhile isDigit) &&
    match fraction ((unsigned text).dropWhile isDigit) with
    | some rest => exponent rest
    | none => false

/-- A number as it is spelled. -/
structure NumberText where
  text : Bytes
  valid : isNumber text = true
  deriving DecidableEq

end KosSim.Library.Json

namespace KosSim.Library

inductive Json where
  | null
  | bool (value : Bool)
  | number (value : Json.NumberText)
  | string (value : String)
  | array (items : List Json)
  | object (members : List (String × Json))

end KosSim.Library

namespace KosSim.Library.Json

/-! Writing. -/

def nullText : Bytes := [110, 117, 108, 108]
def trueText : Bytes := [116, 114, 117, 101]
def falseText : Bytes := [102, 97, 108, 115, 101]

mutual

def encode : Json → Bytes
  | .null => nullText
  | .bool true => trueText
  | .bool false => falseText
  | .number value => value.text
  | .string value => encodeString value
  | .array items => openBracket :: encodeItems items ++ [closeBracket]
  | .object members => openBrace :: encodeMembers members ++ [closeBrace]

def encodeItems : List Json → Bytes
  | [] => []
  | item :: rest => encode item ++ encodeMoreItems rest

def encodeMoreItems : List Json → Bytes
  | [] => []
  | item :: rest => comma :: encode item ++ encodeMoreItems rest

def encodeMembers : List (String × Json) → Bytes
  | [] => []
  | (key, value) :: rest => encodeString key ++ colon :: encode value ++ encodeMoreMembers rest

def encodeMoreMembers : List (String × Json) → Bytes
  | [] => []
  | (key, value) :: rest => comma :: encodeString key ++ colon :: encode value ++ encodeMoreMembers rest

end

/-! Reading. -/

def isSpace (byte : UInt8) : Bool := byte = 32 || byte = 9 || byte = 10 || byte = 13

def skipSpace (bytes : Bytes) : Bytes := bytes.dropWhile isSpace

/-- The bytes of numbers and of the three names. -/
def isScalar (byte : UInt8) : Bool :=
  isDigit byte || byte = 43 || byte = 45 || byte = 46 || (65 ≤ byte && byte ≤ 90) ||
    (97 ≤ byte && byte ≤ 122)

def scalar (token : Bytes) : Option Json :=
  if token = nullText then some .null
  else if token = trueText then some (.bool true)
  else if token = falseText then some (.bool false)
  else if valid : isNumber token = true then some (.number ⟨token, valid⟩)
  else none

/-- The next byte that is no space, if it is the one. -/
def expect (wanted : UInt8) (bytes : Bytes) : Option Bytes :=
  match skipSpace bytes with
  | [] => none
  | byte :: rest => if byte = wanted then some rest else none

def keyOf (bytes : Bytes) : Option (String × Bytes) := do
  let inside ← expect quote bytes
  let found ← literal .plain inside
  let rest ← expect colon found.2
  return (decodeString found.1, rest)

mutual

def readValue : Nat → Bytes → Option (Json × Bytes)
  | 0, _ => none
  | fuel + 1, bytes =>
      match skipSpace bytes with
      | [] => none
      | byte :: rest =>
          if byte = quote then (literal .plain rest).map fun found =>
            (.string (decodeString found.1), found.2)
          else if byte = openBrace then
            match expect closeBrace rest with
            | some after => some (.object [], after)
            | none => (readMembers fuel rest).map fun found => (.object found.1, found.2)
          else if byte = openBracket then
            match expect closeBracket rest with
            | some after => some (.array [], after)
            | none => (readItems fuel rest).map fun found => (.array found.1, found.2)
          else (scalar ((byte :: rest).takeWhile isScalar)).map fun value =>
            (value, (byte :: rest).dropWhile isScalar)

def readItems : Nat → Bytes → Option (List Json × Bytes)
  | 0, _ => none
  | fuel + 1, bytes =>
      match readValue fuel bytes with
      | none => none
      | some (item, after) =>
          match expect comma after with
          | some rest => (readItems fuel rest).map fun found => (item :: found.1, found.2)
          | none => (expect closeBracket after).map fun rest => ([item], rest)

def readMembers : Nat → Bytes → Option (List (String × Json) × Bytes)
  | 0, _ => none
  | fuel + 1, bytes =>
      match keyOf bytes with
      | none => none
      | some (key, inside) =>
          match readValue fuel inside with
          | none => none
          | some (value, after) =>
              match expect comma after with
              | some rest => (readMembers fuel rest).map fun found => ((key, value) :: found.1, found.2)
              | none => (expect closeBrace after).map fun rest => ([(key, value)], rest)

end

/-- A value and nothing else. -/
def parse (bytes : Bytes) : Option Json :=
  match readValue (bytes.length + 1) bytes with
  | some (value, rest) => if (skipSpace rest).isEmpty then some value else none
  | none => none

/-! A read that ends before the end of the text is the same before a longer one. -/

theorem skip_append {bytes rest : Bytes} {byte : UInt8} (skipped : skipSpace bytes = byte :: rest)
    (more : Bytes) :
    skipSpace (bytes ++ more) = byte :: (rest ++ more) := by
  rw [skipSpace] at skipped
  rw [skipSpace, List.dropWhile_append, skipped]
  rfl

theorem expect_cases {wanted : UInt8} {bytes rest : Bytes} (found : expect wanted bytes = some rest) :
    skipSpace bytes = wanted :: rest := by
  rw [expect] at found
  cases skipped : skipSpace bytes with
  | nil =>
      rw [skipped] at found
      cases found
  | cons byte after =>
      rw [skipped] at found
      obtain ⟨rfl, same⟩ := Option.ite_none_right_eq_some.mp found
      rw [Option.some.inj same]

theorem expect_append {wanted : UInt8} {bytes rest : Bytes}
    (found : expect wanted bytes = some rest) (more : Bytes) :
    expect wanted (bytes ++ more) = some (rest ++ more) := by
  rw [expect, skip_append (expect_cases found)]
  exact if_pos rfl

/-- Another byte stays another one. -/
theorem expect_none_append {wanted : UInt8} {bytes : Bytes} (filled : skipSpace bytes ≠ [])
    (other : expect wanted bytes = none) (more : Bytes) : expect wanted (bytes ++ more) = none := by
  obtain ⟨byte, rest, skipped⟩ := List.exists_cons_of_ne_nil filled
  have apart : byte ≠ wanted := by
    rintro rfl
    rw [expect, skipped] at other
    exact absurd other (by simp)
  rw [expect, skip_append skipped]
  exact if_neg apart

theorem expect_filled {wanted : UInt8} {bytes rest : Bytes} (found : expect wanted bytes = some rest) :
    skipSpace bytes ≠ [] := by
  rw [expect_cases found]
  exact List.cons_ne_nil _ _

theorem filled_of_skip {bytes : Bytes} (filled : skipSpace bytes ≠ []) : bytes ≠ [] := by
  rintro rfl
  exact filled rfl

theorem key_of_cases {bytes rest : Bytes} {key : String} (found : keyOf bytes = some (key, rest)) :
    ∃ inside raw after, expect quote bytes = some inside ∧ literal .plain inside = some (raw, after) ∧
      expect colon after = some rest ∧ key = decodeString raw := by
  simp only [keyOf, Option.bind_eq_bind, Option.bind_eq_some_iff] at found
  obtain ⟨inside, opened, ⟨raw, after⟩, scanned, last, marked, same⟩ := found
  cases same
  exact ⟨inside, raw, after, opened, scanned, marked, rfl⟩

theorem key_append {bytes rest : Bytes} {key : String} (found : keyOf bytes = some (key, rest))
    (more : Bytes) :
    keyOf (bytes ++ more) = some (key, rest ++ more) := by
  obtain ⟨inside, raw, after, opened, scanned, marked, rfl⟩ := key_of_cases found
  rw [keyOf, expect_append opened]
  simp only [Option.bind_eq_bind, Option.bind_some, literal_append scanned, expect_append marked]
  rfl

theorem scalar_append {bytes : Bytes} (ended : bytes.dropWhile isScalar ≠ []) (more : Bytes) :
    (bytes ++ more).takeWhile isScalar = bytes.takeWhile isScalar ∧
      (bytes ++ more).dropWhile isScalar = bytes.dropWhile isScalar ++ more := by
  induction bytes with
  | nil => exact absurd rfl ended
  | cons byte rest ih =>
      rw [List.cons_append]
      by_cases inside : isScalar byte = true
      · rw [List.dropWhile_cons_of_pos inside] at ended
        obtain ⟨taken, dropped⟩ := ih ended
        rw [List.takeWhile_cons_of_pos inside, List.takeWhile_cons_of_pos inside,
          List.dropWhile_cons_of_pos inside, List.dropWhile_cons_of_pos inside, taken, dropped]
        exact ⟨rfl, rfl⟩
      · rw [List.takeWhile_cons_of_neg inside, List.takeWhile_cons_of_neg inside,
          List.dropWhile_cons_of_neg inside, List.dropWhile_cons_of_neg inside]
        exact ⟨rfl, rfl⟩

theorem read_filled {fuel : Nat} {bytes : Bytes} {found : Json × Bytes}
    (read : readValue fuel bytes = some found) :
    skipSpace bytes ≠ [] := by
  intro none
  cases fuel with
  | zero => cases read
  | succ fuel =>
      rw [readValue, none] at read
      cases read

/-- Values whose end the text shows. -/
def closed : Json → Bool
  | .string _ | .array _ | .object _ => true
  | _ => false

structure Extends (fuel : Nat) : Prop where
  value : ∀ {bytes rest : Bytes} {found : Json}, readValue fuel bytes = some (found, rest) →
    (rest ≠ [] ∨ closed found = true) → ∀ (wide : Nat) (more : Bytes), fuel ≤ wide →
      readValue wide (bytes ++ more) = some (found, rest ++ more)
  items : ∀ {bytes rest : Bytes} {found : List Json}, readItems fuel bytes = some (found, rest) →
    ∀ (wide : Nat) (more : Bytes), fuel ≤ wide → readItems wide (bytes ++ more) = some (found, rest ++ more)
  members : ∀ {bytes rest : Bytes} {found : List (String × Json)},
    readMembers fuel bytes = some (found, rest) →
    ∀ (wide : Nat) (more : Bytes), fuel ≤ wide →
    readMembers wide (bytes ++ more) = some (found, rest ++ more)

theorem items_filled {fuel : Nat} {bytes : Bytes} {found : List Json × Bytes}
    (read : readItems fuel bytes = some found) :
    skipSpace bytes ≠ [] := by
  cases fuel with
  | zero => cases read
  | succ fuel =>
      rw [readItems] at read
      cases first : readValue fuel bytes with
      | none =>
          rw [first] at read
          cases read
      | some item => exact read_filled first

theorem members_filled {fuel : Nat} {bytes : Bytes} {found : List (String × Json) × Bytes}
    (read : readMembers fuel bytes = some found) : skipSpace bytes ≠ [] := by
  cases fuel with
  | zero => cases read
  | succ fuel =>
      rw [readMembers] at read
      cases first : keyOf bytes with
      | none =>
          rw [first] at read
          cases read
      | some item =>
          obtain ⟨_, _, _, opened, _⟩ := key_of_cases first
          exact expect_filled opened

theorem value_extends {fuel : Nat} (inner : Extends fuel) {bytes rest : Bytes} {found : Json}
    (read : readValue (fuel + 1) bytes = some (found, rest))
    (ended : rest ≠ [] ∨ closed found = true) {wide : Nat} (enough : fuel ≤ wide) (more : Bytes) :
    readValue (wide + 1) (bytes ++ more) = some (found, rest ++ more) := by
  rw [readValue] at read ⊢
  cases skipped : skipSpace bytes with
  | nil =>
      rw [skipped] at read
      cases read
  | cons byte tail =>
      rw [skipped] at read
      rw [skip_append skipped]
      dsimp only at read ⊢
      by_cases isString : byte = quote
      · rw [if_pos isString] at read ⊢
        obtain ⟨⟨raw, after⟩, scanned, same⟩ := Option.map_eq_some_iff.mp read
        cases same
        rw [literal_append scanned]
        rfl
      rw [if_neg isString] at read ⊢
      by_cases isObject : byte = openBrace
      · rw [if_pos isObject] at read ⊢
        cases empty : expect closeBrace tail with
        | some after =>
            rw [empty] at read
            cases read
            rw [expect_append empty]
        | none =>
            rw [empty] at read
            obtain ⟨⟨members, after⟩, inside, same⟩ := Option.map_eq_some_iff.mp read
            cases same
            rw [expect_none_append (members_filled inside) empty]
            dsimp only
            rw [inner.members inside wide more enough]
            rfl
      rw [if_neg isObject] at read ⊢
      by_cases isArray : byte = openBracket
      · rw [if_pos isArray] at read ⊢
        cases empty : expect closeBracket tail with
        | some after =>
            rw [empty] at read
            cases read
            rw [expect_append empty]
        | none =>
            rw [empty] at read
            obtain ⟨⟨items, after⟩, inside, same⟩ := Option.map_eq_some_iff.mp read
            cases same
            rw [expect_none_append (items_filled inside) empty]
            dsimp only
            rw [inner.items inside wide more enough]
            rfl
      rw [if_neg isArray] at read ⊢
      -- A name or a number shows its end only by what comes after it.
      obtain ⟨value, named, same⟩ := Option.map_eq_some_iff.mp read
      cases same
      have open_ : closed found = false := by
        unfold scalar at named
        split at named
        · cases named; rfl
        split at named
        · cases named; rfl
        split at named
        · cases named; rfl
        split at named
        · cases named; rfl
        · cases named
      have stopped : (byte :: tail).dropWhile isScalar ≠ [] := ended.resolve_right (by rw [open_]; decide)
      obtain ⟨taken, dropped⟩ := scalar_append stopped more
      rw [← List.cons_append, taken, dropped, named]
      rfl

theorem items_extends {fuel : Nat} (inner : Extends fuel) {bytes rest : Bytes} {found : List Json}
    (read : readItems (fuel + 1) bytes = some (found, rest)) {wide : Nat} (enough : fuel ≤ wide)
    (more : Bytes) :
    readItems (wide + 1) (bytes ++ more) = some (found, rest ++ more) := by
  rw [readItems] at read ⊢
  cases first : readValue fuel bytes with
  | none =>
      rw [first] at read
      cases read
  | some item =>
      obtain ⟨item, after⟩ := item
      rw [first] at read
      dsimp only at read
      cases next : expect comma after with
      | some tail =>
          rw [next] at read
          obtain ⟨⟨items, last⟩, inside, same⟩ := Option.map_eq_some_iff.mp read
          cases same
          rw [inner.value first (.inl (filled_of_skip (expect_filled next))) wide more enough]
          dsimp only
          rw [expect_append next]
          dsimp only
          rw [inner.items inside wide more enough]
          rfl
      | none =>
          rw [next] at read
          obtain ⟨last, closing, same⟩ := Option.map_eq_some_iff.mp read
          cases same
          rw [inner.value first (.inl (filled_of_skip (expect_filled closing))) wide more enough]
          dsimp only
          rw [expect_none_append (expect_filled closing) next]
          dsimp only
          rw [expect_append closing]
          rfl

theorem members_extends {fuel : Nat} (inner : Extends fuel) {bytes rest : Bytes}
    {found : List (String × Json)} (read : readMembers (fuel + 1) bytes = some (found, rest))
    {wide : Nat} (enough : fuel ≤ wide) (more : Bytes) :
    readMembers (wide + 1) (bytes ++ more) = some (found, rest ++ more) := by
  rw [readMembers] at read ⊢
  cases named : keyOf bytes with
  | none =>
      rw [named] at read
      cases read
  | some entry =>
      obtain ⟨key, start⟩ := entry
      rw [named] at read
      rw [key_append named]
      dsimp only at read ⊢
      cases first : readValue fuel start with
      | none =>
          rw [first] at read
          cases read
      | some item =>
          obtain ⟨value, after⟩ := item
          rw [first] at read
          dsimp only at read
          cases next : expect comma after with
          | some tail =>
              rw [next] at read
              obtain ⟨⟨members, last⟩, inside, same⟩ := Option.map_eq_some_iff.mp read
              cases same
              rw [inner.value first (.inl (filled_of_skip (expect_filled next))) wide more enough]
              dsimp only
              rw [expect_append next]
              dsimp only
              rw [inner.members inside wide more enough]
              rfl
          | none =>
              rw [next] at read
              obtain ⟨last, closing, same⟩ := Option.map_eq_some_iff.mp read
              cases same
              rw [inner.value first (.inl (filled_of_skip (expect_filled closing))) wide more enough]
              dsimp only
              rw [expect_none_append (expect_filled closing) next]
              dsimp only
              rw [expect_append closing]
              rfl

theorem read_extends (fuel : Nat) : Extends fuel := by
  induction fuel with
  | zero =>
      exact ⟨fun read => absurd read (by simp [readValue]), fun read => absurd read (by simp [readItems]),
      fun read => absurd read (by simp [readMembers])⟩
  | succ fuel inner =>
      refine ⟨fun read ended wide more enough => ?_, fun read wide more enough => ?_,
        fun read wide more enough => ?_⟩
      · obtain ⟨wide, rfl⟩ := Nat.exists_eq_add_of_le' (show 1 ≤ wide by omega)
        exact value_extends inner read ended (by omega) more
      · obtain ⟨wide, rfl⟩ := Nat.exists_eq_add_of_le' (show 1 ≤ wide by omega)
        exact items_extends inner read (by omega) more
      · obtain ⟨wide, rfl⟩ := Nat.exists_eq_add_of_le' (show 1 ≤ wide by omega)
        exact members_extends inner read (by omega) more

/-! What is written is read back. -/

theorem fraction_scalars {bytes rest : Bytes} (stripped : fraction bytes = some rest) :
    ∃ front, bytes = front ++ rest ∧ ∀ byte ∈ front, isScalar byte = true := by
  have digits (more : Bytes) : ∀ byte ∈ more.takeWhile isDigit, isScalar byte = true :=
    fun byte member => by
    rw [isScalar, List.mem_takeWhile_imp member]
    rfl
  unfold fraction at stripped
  split at stripped
  next after =>
    obtain ⟨_, same⟩ := Option.ite_none_left_eq_some.mp stripped
    cases same
    refine ⟨46 :: after.takeWhile isDigit, ?_, fun byte member => ?_⟩
    · rw [List.cons_append, List.takeWhile_append_dropWhile]
    · rcases List.mem_cons.mp member with rfl | inside
      · rfl
      · exact digits after byte inside
  next =>
    cases stripped
    exact ⟨[], rfl, fun _ member => (List.not_mem_nil member).elim⟩

theorem exponent_scalars {bytes : Bytes} (valid : exponent bytes = true) :
    ∀ byte ∈ bytes, isScalar byte = true := by
  have marks (mark : UInt8) (isMark : (mark = 101 || mark = 69) = true) : isScalar mark = true := by
    rw [Bool.or_eq_true, decide_eq_true_eq, decide_eq_true_eq] at isMark
    rcases isMark with rfl | rfl <;> rfl
  have digits (rest : Bytes) (all : exponentDigits rest = true) : ∀ byte ∈ rest, isScalar byte = true :=
    fun byte member => by
    rw [exponentDigits, Bool.and_eq_true] at all
    rw [isScalar, List.all_eq_true.mp all.2 byte member]
    rfl
  unfold exponent at valid
  intro byte member
  split at valid
  next => cases member
  next mark rest =>
    obtain ⟨isMark, all⟩ := (Bool.and_eq_true _ _).mp valid
    rcases List.mem_cons.mp member with rfl | member
    · exact marks byte isMark
    rcases List.mem_cons.mp member with rfl | member
    · rfl
    · exact digits rest all byte member
  next mark rest =>
    obtain ⟨isMark, all⟩ := (Bool.and_eq_true _ _).mp valid
    rcases List.mem_cons.mp member with rfl | member
    · exact marks byte isMark
    rcases List.mem_cons.mp member with rfl | member
    · rfl
    · exact digits rest all byte member
  next mark rest _ _ =>
    obtain ⟨isMark, all⟩ := (Bool.and_eq_true _ _).mp valid
    rcases List.mem_cons.mp member with rfl | member
    · exact marks byte isMark
    · exact digits rest all byte member

theorem unsigned_cases (text : Bytes) : text = unsigned text ∨ text = 45 :: unsigned text := by
  unfold unsigned
  split
  · exact .inr rfl
  · exact .inl rfl

theorem number_scalars {text : Bytes} (valid : isNumber text = true) :
    text ≠ [] ∧ ∀ byte ∈ text, isScalar byte = true := by
  rw [isNumber, Bool.and_eq_true] at valid
  obtain ⟨whole, tail⟩ := valid
  cases stripped : fraction ((unsigned text).dropWhile isDigit) with
  | none =>
      rw [stripped] at tail
      cases tail
  | some rest =>
      rw [stripped] at tail
      obtain ⟨front, split_, frontScalars⟩ := fraction_scalars stripped
      have inside : ∀ byte ∈ unsigned text, isScalar byte = true := by
        intro byte member
        rw [← List.takeWhile_append_dropWhile (p := isDigit) (l := unsigned text), split_] at member
        rcases List.mem_append.mp member with digit | member
        · rw [isScalar, List.mem_takeWhile_imp digit]
          rfl
        rcases List.mem_append.mp member with member | member
        · exact frontScalars byte member
        · exact exponent_scalars tail byte member
      have filled : unsigned text ≠ [] := by
        intro none
        rw [none] at whole
        cases whole
      rcases unsigned_cases text with same | same
      · rw [same]
        exact ⟨filled, inside⟩
      · rw [same]
        refine ⟨List.cons_ne_nil _ _, fun byte member => ?_⟩
        rcases List.mem_cons.mp member with rfl | member
        · rfl
        · exact inside byte member

theorem scalar_apart {byte : UInt8} (inside : isScalar byte = true) :
    isSpace byte = false ∧ byte ≠ quote ∧ byte ≠ openBrace ∧ byte ≠ openBracket ∧ byte ≠ closeBracket := by
  refine ⟨?_, ?_, ?_, ?_, ?_⟩
  · rw [← Bool.not_eq_true]
    intro space
    simp only [isSpace, Bool.or_eq_true, decide_eq_true_eq] at space
    rcases space with ((rfl | rfl) | rfl) | rfl <;> cases inside
  all_goals
    rintro rfl
    cases inside

/-- What follows does not go on with a name or a number. -/
def Bounded (rest : Bytes) : Prop := ∀ byte ∈ rest.head?, isScalar byte = false

theorem bounded_cons {byte : UInt8} (other : isScalar byte = false) (rest : Bytes) :
    Bounded (byte :: rest) := by
  rintro _ ⟨⟩
  exact other

theorem skip_cons {byte : UInt8} (visible : isSpace byte = false) (rest : Bytes) :
    skipSpace (byte :: rest) = byte :: rest :=
  List.dropWhile_cons_of_neg (by rw [visible]; decide)

theorem read_scalar {text rest : Bytes} {value : Json} (filled : text ≠ [])
    (inside : ∀ byte ∈ text, isScalar byte = true) (named : scalar text = some value)
    (bounded : Bounded rest) (fuel : Nat) :
    readValue (fuel + 1) (text ++ rest) = some (value, rest) := by
  obtain ⟨byte, tail, rfl⟩ := List.exists_cons_of_ne_nil filled
  obtain ⟨visible, noString, noObject, noArray, _⟩ := scalar_apart (inside byte List.mem_cons_self)
  have ends : rest.takeWhile isScalar = [] ∧ rest.dropWhile isScalar = rest := by
    cases rest with
    | nil => exact ⟨rfl, rfl⟩
    | cons next more =>
        have stop := bounded next rfl
        exact ⟨List.takeWhile_cons_of_neg (by rw [stop]; decide),
          List.dropWhile_cons_of_neg (by rw [stop]; decide)⟩
  rw [readValue, List.cons_append, skip_cons visible]
  dsimp only
  rw [if_neg noString, if_neg noObject, if_neg noArray, ← List.cons_append,
    List.takeWhile_append_of_pos inside, List.dropWhile_append_of_pos inside, ends.1, ends.2,
    List.append_nil, named]
  rfl

theorem scalar_number (value : NumberText) : scalar value.text = some (.number value) := by
  have other {name : Bytes} (noNumber : isNumber name = false) : value.text ≠ name := by
    intro same
    have valid := value.valid
    rw [same, noNumber] at valid
    cases valid
  rw [scalar, if_neg (other rfl), if_neg (other rfl), if_neg (other rfl), dif_pos value.valid]

mutual

/-- The fuel that reading the text of a value takes. -/
def size : Json → Nat
  | .null | .bool _ | .number _ | .string _ => 1
  | .array items => 1 + sizeItems items
  | .object members => 1 + sizeMembers members

def sizeItems : List Json → Nat
  | [] => 0
  | item :: rest => 1 + size item + sizeItems rest

def sizeMembers : List (String × Json) → Nat
  | [] => 0
  | (_, value) :: rest => 1 + size value + sizeMembers rest

end

theorem encode_more_items (item : Json) (rest : List Json) :
    encodeMoreItems (item :: rest) = comma :: encodeItems (item :: rest) := by
  rw [encodeMoreItems, encodeItems, List.cons_append]

theorem encode_more_members (member : String × Json) (rest : List (String × Json)) :
    encodeMoreMembers (member :: rest) = comma :: encodeMembers (member :: rest) := by
  obtain ⟨key, value⟩ := member
  rw [encodeMoreMembers, encodeMembers]
  simp only [List.cons_append]

/-- A written value begins with a byte that is seen and closes nothing. -/
theorem encode_head (value : Json) :
    ∃ byte tail, encode value = byte :: tail ∧ isSpace byte = false ∧ byte ≠ closeBracket := by
  have scalars {text : Bytes} (filled : text ≠ []) (inside : ∀ byte ∈ text, isScalar byte = true) :
      ∃ byte tail, text = byte :: tail ∧ isSpace byte = false ∧ byte ≠ closeBracket := by
    obtain ⟨byte, tail, rfl⟩ := List.exists_cons_of_ne_nil filled
    obtain ⟨visible, _, _, _, noClose⟩ := scalar_apart (inside byte List.mem_cons_self)
    exact ⟨byte, tail, rfl, visible, noClose⟩
  unfold encode
  cases value with
  | null => exact scalars (by decide) (by decide)
  | bool value => cases value <;> exact scalars (by decide) (by decide)
  | number value => exact scalars (number_scalars value.valid).1 (number_scalars value.valid).2
  | string value => exact ⟨quote, _, rfl, rfl, by decide⟩
  | array items => exact ⟨openBracket, _, rfl, rfl, by decide⟩
  | object members => exact ⟨openBrace, _, rfl, rfl, by decide⟩

theorem expect_head {wanted byte : UInt8} (visible : isSpace byte = false) (rest : Bytes) :
    expect wanted (byte :: rest) = if byte = wanted then some rest else none := by
  rw [expect, skip_cons visible]

theorem key_encode (key : String) (rest : Bytes) :
    keyOf (encodeString key ++ colon :: rest) = some (key, rest) := by
  have opened : expect quote (encodeString key ++ colon :: rest) =
      some (key.toList.flatMap escapeChar ++ quote :: colon :: rest) := by
    rw [encodeString, List.append_assoc, List.cons_append, expect_head rfl]
    exact if_pos rfl
  have marked : expect colon (colon :: rest) = some rest := (expect_head rfl rest).trans (if_pos rfl)
  rw [keyOf, opened]
  simp only [Option.bind_eq_bind, Option.bind_some, literal_encode, marked, decode_string_encode]
  rfl

mutual

theorem read_encode : (value : Json) → ∀ (fuel : Nat) (rest : Bytes), size value ≤ fuel → Bounded rest →
    readValue fuel (encode value ++ rest) = some (value, rest)
  | .null, fuel, rest, enough, bounded => by
      obtain ⟨fuel, rfl⟩ := Nat.exists_eq_add_of_le' enough
      exact read_scalar (by decide) (by decide) rfl bounded fuel
  | .bool true, fuel, rest, enough, bounded => by
      obtain ⟨fuel, rfl⟩ := Nat.exists_eq_add_of_le' enough
      exact read_scalar (by decide) (by decide) rfl bounded fuel
  | .bool false, fuel, rest, enough, bounded => by
      obtain ⟨fuel, rfl⟩ := Nat.exists_eq_add_of_le' enough
      exact read_scalar (by decide) (by decide) rfl bounded fuel
  | .number value, fuel, rest, enough, bounded => by
      obtain ⟨fuel, rfl⟩ := Nat.exists_eq_add_of_le' enough
      obtain ⟨filled, inside⟩ := number_scalars value.valid
      exact read_scalar filled inside (scalar_number value) bounded fuel
  | .string value, fuel, rest, enough, bounded => by
      obtain ⟨fuel, rfl⟩ := Nat.exists_eq_add_of_le' (show 1 ≤ fuel by simp only [size] at enough; omega)
      rw [encode, encodeString, List.append_assoc, List.cons_append, readValue, skip_cons rfl]
      dsimp only
      rw [if_pos rfl, List.singleton_append, literal_encode, Option.map_some, decode_string_encode]
  | .array [], fuel, rest, enough, bounded => by
      obtain ⟨fuel, rfl⟩ := Nat.exists_eq_add_of_le' (show 1 ≤ fuel by simp only [size] at enough; omega)
      rfl
  | .array (item :: items), fuel, rest, enough, bounded => by
      obtain ⟨fuel, rfl⟩ := Nat.exists_eq_add_of_le' (show 1 ≤ fuel by simp only [size] at enough; omega)
      have inside :=
        read_items (item :: items) (List.cons_ne_nil _ _) fuel rest (by simp only [size] at enough; omega)
      obtain ⟨byte, tail, head, visible, noClose⟩ := encode_head item
      have open_ : expect closeBracket (encodeItems (item :: items) ++ closeBracket :: rest) = none := by
        rw [encodeItems, head, List.cons_append, List.cons_append, expect_head visible]
        exact if_neg noClose
      rw [encode, List.cons_append, List.cons_append, List.append_assoc, readValue, skip_cons rfl]
      dsimp only
      rw [if_neg (by decide), if_neg (by decide), if_pos rfl, List.singleton_append, open_]
      dsimp only
      rw [inside]
      rfl
  | .object [], fuel, rest, enough, bounded => by
      obtain ⟨fuel, rfl⟩ := Nat.exists_eq_add_of_le' (show 1 ≤ fuel by simp only [size] at enough; omega)
      rfl
  | .object (member :: members), fuel, rest, enough, bounded => by
      obtain ⟨fuel, rfl⟩ := Nat.exists_eq_add_of_le' (show 1 ≤ fuel by simp only [size] at enough; omega)
      have inside := read_members (member :: members)
        (List.cons_ne_nil _ _) fuel rest (by simp only [size] at enough; omega)
      have open_ : expect closeBrace (encodeMembers (member :: members) ++ closeBrace :: rest) = none := by
        obtain ⟨key, value⟩ := member
        rw [encodeMembers, encodeString]
        simp only [List.cons_append]
        rw [expect_head rfl]
        exact if_neg (by decide)
      rw [encode, List.cons_append, List.cons_append, List.append_assoc, readValue, skip_cons rfl]
      dsimp only
      rw [if_neg (by decide), if_pos rfl, List.singleton_append, open_]
      dsimp only
      rw [inside]
      rfl

theorem read_items :
    (items : List Json) → items ≠ [] → ∀ (fuel : Nat) (rest : Bytes), sizeItems items ≤ fuel →
      readItems fuel (encodeItems items ++ closeBracket :: rest) = some (items, rest)
  | [], filled, _, _, _ => absurd rfl filled
  | [item], _, fuel, rest, enough => by
      simp only [sizeItems] at enough
      obtain ⟨fuel, rfl⟩ := Nat.exists_eq_add_of_le' (show 1 ≤ fuel by omega)
      have first := read_encode item fuel (closeBracket :: rest) (by omega) (bounded_cons rfl _)
      rw [encodeItems, encodeMoreItems, List.append_nil, readItems, first]
      rfl
  | item :: next :: items, _, fuel, rest, enough => by
      simp only [sizeItems] at enough
      obtain ⟨fuel, rfl⟩ := Nat.exists_eq_add_of_le' (show 1 ≤ fuel by omega)
      have first := read_encode item fuel
        (comma :: (encodeItems (next :: items) ++ closeBracket :: rest)) (by omega)
        (bounded_cons rfl _)
      have others :=
        read_items (next :: items) (List.cons_ne_nil _ _) fuel rest (by simp only [sizeItems]; omega)
      have going : expect comma (comma :: (encodeItems (next :: items) ++ closeBracket :: rest)) =
          some (encodeItems (next :: items) ++ closeBracket :: rest) :=
          (expect_head rfl _).trans (if_pos rfl)
      rw [encodeItems, encode_more_items, List.append_assoc, List.cons_append, readItems, first]
      dsimp only
      rw [going]
      dsimp only
      rw [others]
      rfl

theorem read_members :
    (members : List (String × Json)) → members ≠ [] → ∀ (fuel : Nat) (rest : Bytes),
      sizeMembers members ≤ fuel → readMembers fuel (encodeMembers members ++ closeBrace :: rest) =
        some (members, rest)
  | [], filled, _, _, _ => absurd rfl filled
  | [(key, value)], _, fuel, rest, enough => by
      simp only [sizeMembers] at enough
      obtain ⟨fuel, rfl⟩ := Nat.exists_eq_add_of_le' (show 1 ≤ fuel by omega)
      have first := read_encode value fuel (closeBrace :: rest) (by omega) (bounded_cons rfl _)
      rw [encodeMembers, encodeMoreMembers, List.append_nil, List.append_assoc, List.cons_append,
        readMembers, key_encode]
      dsimp only
      rw [first]
      rfl
  | (key, value) :: next :: members, _, fuel, rest, enough => by
      simp only [sizeMembers] at enough
      obtain ⟨fuel, rfl⟩ := Nat.exists_eq_add_of_le' (show 1 ≤ fuel by omega)
      have first := read_encode value fuel
        (comma :: (encodeMembers (next :: members) ++ closeBrace :: rest)) (by omega)
        (bounded_cons rfl _)
      have others := read_members (next :: members)
        (List.cons_ne_nil _ _) fuel rest (by simp only [sizeMembers]; omega)
      have going : expect comma (comma :: (encodeMembers (next :: members) ++ closeBrace :: rest)) =
          some (encodeMembers (next :: members) ++ closeBrace :: rest) :=
          (expect_head rfl _).trans (if_pos rfl)
      have shape : encodeMembers ((key, value) :: next :: members) ++ closeBrace :: rest =
          encodeString key ++
          colon :: (encode value ++ comma :: (encodeMembers (next :: members) ++ closeBrace :: rest)) := by
        rw [encodeMembers, encode_more_members]
        simp only [List.append_assoc, List.cons_append]
      rw [shape, readMembers, key_encode]
      dsimp only
      rw [first]
      dsimp only
      rw [going]
      dsimp only
      rw [others]
      rfl

end

theorem number_length (value : NumberText) : 1 ≤ value.text.length :=
  List.length_pos_iff.mpr (number_scalars value.valid).1

mutual

theorem size_encode : (value : Json) → size value ≤ (encode value).length
  | .null => by simp only [size, encode]; decide
  | .bool true => by simp only [size, encode]; decide
  | .bool false => by simp only [size, encode]; decide
  | .number value => by
      simp only [size, encode]
      exact number_length value
  | .string value => by
      simp only [size, encode, encodeString, List.length_append, List.length_cons]
      omega
  | .array items => by
      have inside := size_items items
      simp only [size, encode, List.length_append, List.length_cons, List.length_nil]
      omega
  | .object members => by
      have inside := size_members members
      simp only [size, encode, List.length_append, List.length_cons, List.length_nil]
      omega

theorem size_items : (items : List Json) → sizeItems items ≤ (encodeItems items).length + 1
  | [] => by simp [sizeItems]
  | [item] => by
      have first := size_encode item
      simp only [sizeItems, encodeItems, encodeMoreItems, List.length_append, List.length_nil]
      omega
  | item :: next :: items => by
      have first := size_encode item
      have others := size_items (next :: items)
      rw [sizeItems, encodeItems, encode_more_items, List.length_append, List.length_cons]
      omega

theorem size_members :
    (members : List (String × Json)) → sizeMembers members ≤ (encodeMembers members).length + 1
  | [] => by simp [sizeMembers]
  | [(key, value)] => by
      have first := size_encode value
      simp only [sizeMembers, encodeMembers, encodeMoreMembers, List.length_append, List.length_cons,
        List.length_nil]
      omega
  | (key, value) :: next :: members => by
      have first := size_encode value
      have others := size_members (next :: members)
      rw [sizeMembers, encodeMembers, encode_more_members]
      simp only [List.length_append, List.length_cons]
      omega

end

/-- The text of a value is read as the value. -/
theorem parse_encode (value : Json) : parse (encode value) = some value := by
  have enough : size value ≤ (encode value).length + 1 := (size_encode value).trans (Nat.le_succ _)
  have read := read_encode value _ [] enough fun byte member => by cases member
  rw [List.append_nil] at read
  rw [parse, read]
  rfl

/-- The text of an object is read from no shorter front of it. -/
theorem parse_cut (members : List (String × Json)) {front rest : Bytes}
    (cut : front ++ rest = encode (.object members)) (short : rest ≠ []) : parse front = none := by
  rw [parse]
  cases read : readValue (front.length + 1) front with
  | none => rfl
  | some found =>
      obtain ⟨value, after⟩ := found
      exfalso
      have shape : closed value = true := by
        cases front with
        | nil => cases read
        | cons byte tail =>
            have brace : byte = openBrace := by
              rw [encode, List.cons_append, List.cons_append] at cut
              exact (List.cons.inj cut).1
            subst brace
            rw [readValue, skip_cons rfl] at read
            dsimp only at read
            rw [if_neg (by decide), if_pos rfl] at read
            cases empty : expect closeBrace tail with
            | some rest =>
                rw [empty] at read
                cases read
                rfl
            | none =>
                rw [empty] at read
                obtain ⟨found, _, same⟩ := Option.map_eq_some_iff.mp read
                cases same
                rfl
      have whole := (read_extends _).value read (.inr shape)
        ((encode (.object members)).length + 1) rest (by
        rw [← cut, List.length_append]
        omega)
      have enough : size (.object members) ≤ (encode (.object members)).length + 1 :=
        (size_encode _).trans (Nat.le_succ _)
      have exact_ := read_encode (.object members) _ [] enough fun byte member => by cases member
      rw [List.append_nil] at exact_
      rw [cut, exact_, Option.some.injEq, Prod.mk.injEq] at whole
      exact short (List.append_eq_nil_iff.mp whole.2.symm).2

/-! Integers of 64 bits. -/

def digitBytes (n : Nat) : Bytes := (Nat.toDigits 10 n).map fun c => UInt8.ofNat c.toNat

def intText (n : Int) : Bytes := if n < 0 then 45 :: digitBytes (-n).toNat else digitBytes n.toNat

def natOf (digits : Bytes) : Nat := Nat.ofDigitChars 10 (digits.map fun byte => Char.ofNat byte.toNat) 0

def intOf (text : Bytes) : Option Int :=
  if (unsigned text).all isDigit then
    some (if text.head? = some 45 then -(natOf (unsigned text) : Int) else natOf (unsigned text))
  else none

/-- strconv.ParseInt(text, 10, 64): a fraction, an exponent and a number out of range are errors. -/
def int64Of (value : NumberText) : Option Int64 :=
  (intOf value.text).bind fun n =>
    if Int64.minValue.toInt ≤ n ∧ n ≤ Int64.maxValue.toInt then some (Int64.ofInt n) else none

theorem digit_byte {c : Char} (digit : c.isDigit = true) :
    isDigit (UInt8.ofNat c.toNat) = true ∧ Char.ofNat (UInt8.ofNat c.toNat).toNat = c := by
  simp only [Char.isDigit, Bool.and_eq_true, decide_eq_true_eq, ge_iff_le, UInt32.le_iff_toNat_le] at digit
  have low : 48 ≤ c.toNat := digit.1
  have high : c.toNat ≤ 57 := digit.2
  have value : (UInt8.ofNat c.toNat).toNat = c.toNat := by
    rw [UInt8.toNat_ofNat', Nat.mod_eq_of_lt (by omega)]
  constructor
  · rw [isDigit, Bool.and_eq_true, decide_eq_true_eq, decide_eq_true_eq, UInt8.le_iff_toNat_le,
      UInt8.le_iff_toNat_le, value]
    exact ⟨low, high⟩
  · rw [value, Char.ofNat_toNat]

theorem digit_bytes (n : Nat) :
    digitBytes n ≠ [] ∧ (∀ byte ∈ digitBytes n, isDigit byte = true) ∧ natOf (digitBytes n) = n := by
  have digits (c : Char) (member : c ∈ Nat.toDigits 10 n) : c.isDigit = true :=
    Nat.isDigit_of_mem_toDigits (by decide) (by decide) member
  refine ⟨fun none => Nat.toDigits_ne_nil (List.map_eq_nil_iff.mp none), fun byte member => ?_, ?_⟩
  · obtain ⟨c, inside, rfl⟩ := List.mem_map.mp member
    exact (digit_byte (digits c inside)).1
  · have back : (digitBytes n).map (fun byte => Char.ofNat byte.toNat) = Nat.toDigits 10 n := by
      rw [digitBytes, List.map_map]
      exact (List.map_congr_left fun c member => (digit_byte (digits c member)).2).trans (List.map_id _)
    rw [natOf, back, Nat.ofDigitChars_ten_toDigits]

theorem first_digit {n : Nat} (positive : 0 < n) : ∃ c rest, Nat.toDigits 10 n = c :: rest ∧ c ≠ '0' := by
  induction n using Nat.strongRecOn with
  | ind n ih =>
      by_cases small : n < 10
      · exact ⟨_, [], Nat.toDigits_of_lt_base small,
          fun zero => by rw [Nat.digitChar_eq_zero] at zero; omega⟩
      · obtain ⟨c, rest, front, other⟩ := ih (n / 10) (by omega) (by omega)
        rw [Nat.toDigits_of_base_le (by decide) (by omega), front]
        exact ⟨c, _, rfl, other⟩

theorem whole_digit_bytes (n : Nat) : wholeDigits (digitBytes n) = true := by
  by_cases small : n < 10
  · rw [digitBytes, Nat.toDigits_of_lt_base small]
    rfl
  · obtain ⟨c, rest, shape, other⟩ := first_digit (show 0 < n by omega)
    have digit := Nat.isDigit_of_mem_toDigits (b := 10) (n := n) (c := c) (by decide) (by decide) (by
      rw [shape]
      exact List.mem_cons_self)
    rw [digitBytes, shape, List.map_cons]
    cases rest with
    | nil => rfl
    | cons second rest =>
        refine decide_eq_true fun zero => other ?_
        rw [← (digit_byte digit).2, zero]
        rfl

theorem unsigned_digits {text : Bytes} (digits : ∀ byte ∈ text, isDigit byte = true) :
    unsigned text = text := by
  unfold unsigned
  split
  next rest =>
    have digit := digits 45 List.mem_cons_self
    cases digit
  next => rfl

theorem int_text_number (n : Int) : isNumber (intText n) = true := by
  have plain (m : Nat) : wholeDigits ((digitBytes m).takeWhile isDigit) = true ∧
      (digitBytes m).dropWhile isDigit = [] := by
    obtain ⟨_, digits, _⟩ := digit_bytes m
    have all : (digitBytes m).takeWhile isDigit = digitBytes m := List.takeWhile_eq_self_iff.mpr digits
    refine ⟨by rw [all]; exact whole_digit_bytes m, ?_⟩
    exact List.dropWhile_eq_nil_iff.mpr digits
  have signless : ∃ m, unsigned (intText n) = digitBytes m := by
    unfold intText
    split
    · exact ⟨_, rfl⟩
    · exact ⟨_, unsigned_digits (digit_bytes _).2.1⟩
  obtain ⟨m, same⟩ := signless
  rw [isNumber, same, (plain m).1, (plain m).2]
  rfl

def intNumber (n : Int) : NumberText := ⟨intText n, int_text_number n⟩

theorem int_of_text (n : Int) : intOf (intText n) = some n := by
  unfold intText
  split
  next negative =>
    obtain ⟨_, digits, value⟩ := digit_bytes (-n).toNat
    have shape : unsigned (45 :: digitBytes (-n).toNat) = digitBytes (-n).toNat := rfl
    rw [intOf, shape, if_pos (List.all_eq_true.mpr digits), value, List.head?_cons, if_pos rfl]
    congr 1
    omega
  next positive =>
    obtain ⟨filled, digits, value⟩ := digit_bytes n.toNat
    have unsigned_ : (digitBytes n.toNat).head? ≠ some 45 := by
      intro sign
      have digit := digits 45 (List.mem_of_mem_head? sign)
      cases digit
    rw [intOf, unsigned_digits digits, if_pos (List.all_eq_true.mpr digits), value, if_neg unsigned_]
    congr 1
    omega

theorem int64_of_number (n : Int64) : int64Of (intNumber n.toInt) = some n := by
  rw [int64Of, intNumber, int_of_text, Option.bind_some,
    if_pos ⟨Int64.le_iff_toInt_le.mp (Int64.minValue_le n),
      Int64.le_iff_toInt_le.mp (Int64.le_maxValue n)⟩, Int64.ofInt_toInt]

end KosSim.Library.Json
