import KosSim.Library.Cuts
import KosSim.Library.Json

/-!
json.cpp: VaultGrid's reader of single fields, which searches the text for the key, and its escaping.
A position in the text is the bytes from there on.
-/

namespace KosSim.VaultJson
open Library Library.Json

/-! The source. -/

def isspace (byte : UInt8) : Bool := byte = 32 || (9 ≤ byte && byte ≤ 13)

theorem isspace_above {c : UInt8} (above : 33 ≤ c.toNat) : isspace c = false := by
  have noSpace : ¬c = 32 := by
    rintro rfl
    exact absurd above (by decide)
  have beyond : ¬c ≤ 13 := fun less => by
    have high : c.toNat ≤ 13 := UInt8.le_iff_toNat_le.mp less
    omega
  rw [isspace, decide_eq_false noSpace, decide_eq_false beyond, Bool.and_false, Bool.or_false]

def skipWs (body : Bytes) : Bytes := body.dropWhile isspace

/-- Each round passes a needle of two bytes at least, so the fuel suffices. -/
def findKeyLoop (needle : Bytes) : Nat → Bytes → Option Bytes
  | 0, _ => none
  | fuel + 1, body =>
      match cutAt needle body with
      | none => none
      | some (_, after) =>
          if (skipWs after).head? = some colon then some (skipWs after).tail else findKeyLoop
            needle fuel after

def needleOf (key : Bytes) : Bytes := quote :: (key ++ [quote])

def findKey (body key : Bytes) : Option Bytes := findKeyLoop (needleOf key) (body.length + 1) body

/-- The switch of json_string; no case for the escapes with four digits. -/
def unescape (next : UInt8) : UInt8 :=
  if next = 110 then 10 else if next = 114 then 13 else if next = 116 then 9 else next

/-- A backslash at the very end stands for itself. -/
def readText : Bytes → Bytes
  | [] => []
  | [byte] => if byte = quote then [] else [byte]
  | byte :: next :: more =>
      if byte = quote then []
      else if byte = backslash then unescape next :: readText more
      else byte :: readText (next :: more)

def jsonString (body key : Bytes) : Bytes :=
  match findKey body key with
  | none => []
  | some value => if (skipWs value).head? = some quote then readText (skipWs value).tail else []

/-- std::stoi over an optional sign and digits; none where it throws. -/
def stoi (token : Bytes) : Option Int :=
  let digits := if token.head? = some 45 ∨ token.head? = some 43 then token.tail else token
  let value : Int := if token.head? = some 45 then -(natOf digits : Int) else natOf digits
  if digits = [] then none else if -2147483648 ≤ value ∧ value ≤ 2147483647 then some value else none

/-- The token json_int hands to stoi. -/
def intToken (text : Bytes) : Bytes :=
  if text.head? = some 45 ∨ text.head? = some 43 then text.take 1 ++ text.tail.takeWhile isDigit
  else text.takeWhile isDigit

def jsonInt (body key : Bytes) (fallback : Int) : Int :=
  match findKey body key with
  | none => fallback
  | some value =>
      if intToken (skipWs value) = [] then fallback else (stoi (intToken (skipWs value))).getD fallback

def hexAt (n : Nat) : UInt8 :=
  [48, 49, 50, 51, 52, 53, 54, 55, 56, 57, 97, 98, 99, 100, 101, 102].getD n 0

def escapeByte (c : UInt8) : Bytes :=
  if c = quote then [backslash, quote]
  else if c = backslash then [backslash, backslash]
  else if c = 10 then [backslash, 110]
  else if c = 13 then [backslash, 114]
  else if c = 9 then [backslash, 116]
  else if c < 32 then [backslash, 117, 48, 48, hexAt (c.toNat >>> 4 &&& 15), hexAt (c.toNat &&& 15)]
  else [c]

def jsonEscape (text : Bytes) : Bytes := text.flatMap escapeByte

/-! The object of some pairs. -/

def memberText (pair : Bytes × Bytes) : Bytes :=
  needleOf pair.1 ++ colon :: quote :: (jsonEscape pair.2 ++ [quote])

def objectText (pairs : List (Bytes × Bytes)) : Bytes :=
  openBrace :: ([comma].intercalate (pairs.map memberText) ++ [closeBrace])

/-- Letters, digits and underscores. -/
def isWord (byte : UInt8) : Bool :=
  (65 ≤ byte && byte ≤ 90) || (97 ≤ byte && byte ≤ 122) || (48 ≤ byte && byte ≤ 57) || byte = 95

/-! The search. -/

theorem cut_shorter {key body before after : Bytes}
    (found : cutAt (needleOf key) body = some (before, after)) :
    after.length < body.length := by
  have size := congrArg List.length (cut_parts found)
  rw [List.length_append, List.length_append, needleOf, List.length_cons] at size
  omega

theorem loop_fuel (key : Bytes) {fuel other : Nat} {body : Bytes} (enough : body.length < fuel)
    (enoughOther : body.length < other) :
    findKeyLoop (needleOf key) fuel body = findKeyLoop (needleOf key) other body := by
  induction fuel generalizing other body with
  | zero => exact absurd enough (Nat.not_lt_zero _)
  | succ fuel ih =>
      cases other with
      | zero => exact absurd enoughOther (Nat.not_lt_zero _)
      | succ other =>
          rw [findKeyLoop, findKeyLoop]
          cases found : cutAt (needleOf key) body with
          | none => rfl
          | some parts =>
              have less := cut_shorter found
              dsimp only
              rw [ih (by omega) (by omega : parts.2.length < other)]

theorem find_missed {key body rest : Bytes} (front : Bytes)
    (apart : cutAt (needleOf key) body = (cutAt (needleOf key) rest).map fun parts =>
      (front ++ parts.1, parts.2))
    (shorter : rest.length ≤ body.length) : findKey body key = findKey rest key := by
  have fuel : findKeyLoop (needleOf key) (rest.length + 1) rest = findKeyLoop (needleOf key)
      (body.length + 1) rest :=
    loop_fuel key (by omega) (by omega)
  rw [findKey, findKey, fuel, findKeyLoop, findKeyLoop, apart]
  cases cutAt (needleOf key) rest <;> rfl

/-- An occurrence of the needle that no colon follows is passed over. -/
theorem find_passed {key tail : Bytes} (other : (skipWs tail).head? ≠ some colon) :
    findKey (needleOf key ++ tail) key = findKey tail key := by
  have fuel : findKeyLoop (needleOf key) (needleOf key ++ tail).length tail =
      findKeyLoop (needleOf key) (tail.length + 1) tail := by
    refine loop_fuel key ?_ (by omega)
    rw [needleOf, List.length_append, List.length_cons]
    omega
  rw [findKey, findKeyLoop, cut_here]
  dsimp only
  rw [if_neg other, fuel]
  rfl

theorem skip_item {key rest : Bytes} {item : UInt8} (other : ¬needleOf key <+: item :: rest) :
    findKey (item :: rest) key = findKey rest key :=
  find_missed [item] (cut_later other) (Nat.le_succ _)

theorem skip_free (front : Bytes) (free : quote ∉ front) (rest key : Bytes) :
    findKey (front ++ rest) key = findKey rest key :=
  find_missed front (cut_apart free rest) (by rw [List.length_append]; omega)

theorem find_here (key rest : Bytes) : findKey (needleOf key ++ colon :: rest) key = some rest := by
  rw [findKey, findKeyLoop, cut_here]
  rfl

/-! Over one value. -/

theorem hex_plain (n : Nat) : hexAt n ≠ quote ∧ hexAt n ≠ backslash := by
  have digits : ∀ n < 16, hexAt n ≠ quote ∧ hexAt n ≠ backslash := by decide
  by_cases small : n < 16
  · exact digits n small
  · have beyond : hexAt n = 0 := by
      rw [hexAt, List.getD_eq_getElem?_getD, List.getElem?_eq_none (Nat.le_of_not_lt small)]
      rfl
    rw [beyond]
    decide

theorem escape_cases (c : UInt8) : (escapeByte c = [c] ∧ c ≠ quote ∧ c ≠ backslash) ∨
    ∃ more, escapeByte c = backslash :: more ∧ (more = [quote] ∨ quote ∉ more) := by
  unfold escapeByte
  by_cases atQuote : c = quote
  · exact .inr ⟨[quote], if_pos atQuote, .inl rfl⟩
  rw [if_neg atQuote]
  by_cases atBackslash : c = backslash
  · exact .inr ⟨[backslash], if_pos atBackslash, .inr (by decide)⟩
  rw [if_neg atBackslash]
  by_cases line : c = 10
  · exact .inr ⟨[110], if_pos line, .inr (by decide)⟩
  rw [if_neg line]
  by_cases back : c = 13
  · exact .inr ⟨[114], if_pos back, .inr (by decide)⟩
  rw [if_neg back]
  by_cases tab : c = 9
  · exact .inr ⟨[116], if_pos tab, .inr (by decide)⟩
  rw [if_neg tab]
  by_cases control : c < 32
  · refine .inr ⟨_, if_pos control, .inr ?_⟩
    have high := (hex_plain (c.toNat >>> 4 &&& 15)).1
    have low := (hex_plain (c.toNat &&& 15)).1
    simp only [List.mem_cons, List.not_mem_nil, or_false, not_or]
    exact ⟨by decide, by decide, by decide, high.symm, low.symm⟩
  · exact .inl ⟨if_neg control, atQuote, atBackslash⟩

section Value
variable {key : Bytes}

theorem calm_key (word : ∀ byte ∈ key, isWord byte = true) :
    ∀ byte ∈ key, byte ≠ quote ∧ byte ≠ backslash := by
  intro byte member
  constructor
  · intro same
    exact absurd (word byte member) (by rw [same]; decide)
  · intro same
    exact absurd (word byte member) (by rw [same]; decide)

/-- A quote before a byte that is neither a quote nor a word byte opens no key. -/
theorem apart_from {mark : UInt8} (word : ∀ byte ∈ key, isWord byte = true) (other : mark ≠ quote)
    (noWord : isWord mark = false) (rest : Bytes) : ¬needleOf key <+: quote :: mark :: rest := by
  intro front
  have inner := (List.cons_prefix_cons.mp front).2
  cases key with
  | nil => exact other (List.cons_prefix_cons.mp inner).1.symm
  | cons byte more =>
      have same := (List.cons_prefix_cons.mp inner).1
      rw [same] at word
      exact absurd (word mark List.mem_cons_self) (by rw [noWord]; decide)

/-- The next quote of an escaped value either ends the value or has a backslash before it. -/
theorem closing {value tail : Bytes} (calm : ∀ byte ∈ key, byte ≠ quote ∧ byte ≠ backslash)
    (front : key ++ [quote] <+: jsonEscape value ++ quote :: tail) : jsonEscape value = key := by
  induction value generalizing key with
  | nil =>
      cases key with
      | nil => rfl
      | cons byte more => exact absurd (List.cons_prefix_cons.mp front).1 (calm byte List.mem_cons_self).1
  | cons c rest ih =>
      have split_ : jsonEscape (c :: rest) = escapeByte c ++ jsonEscape rest := rfl
      rw [split_] at front ⊢
      obtain ⟨plain, noQuote, -⟩ | ⟨more, escaped, -⟩ := escape_cases c
      · rw [plain] at front ⊢
        cases key with
        | nil => exact absurd (List.cons_prefix_cons.mp front).1.symm noQuote
        | cons byte others =>
            obtain ⟨same, inner⟩ := List.cons_prefix_cons.mp front
            have tail := ih (fun other member => calm other (List.mem_cons_of_mem _ member)) inner
            rw [same, ← tail]
            rfl
      · rw [escaped] at front
        cases key with
        | nil => exact absurd (List.cons_prefix_cons.mp front).1 (by decide)
        | cons byte others =>
            exact absurd (List.cons_prefix_cons.mp front).1 (calm byte List.mem_cons_self).2

/-- What stands behind a value. -/
def Ended (tail : Bytes) : Prop := tail.head? = some comma ∨ tail.head? = some closeBrace

theorem ended_skip {tail : Bytes} (ended : Ended tail) : (skipWs tail).head? ≠ some colon := by
  cases tail with
  | nil => exact nofun
  | cons mark rest =>
      have marks : mark = comma ∨ mark = closeBrace := by simpa [Ended] using ended
      have visible : isspace mark = false := by rcases marks with rfl | rfl <;> rfl
      have other : mark ≠ colon := by rcases marks with rfl | rfl <;> decide
      rw [skipWs, List.dropWhile_cons_of_neg (by rw [visible]; decide)]
      exact fun same => other (Option.some.inj same)

theorem find_open {tail value : Bytes} (word : ∀ byte ∈ key, isWord byte = true) (ended : Ended tail)
    (inside : findKey (jsonEscape value ++ quote :: tail) key = findKey tail key) :
    findKey (quote :: (jsonEscape value ++ quote :: tail)) key = findKey tail key := by
  by_cases front : needleOf key <+: quote :: (jsonEscape value ++ quote :: tail)
  · -- the whole value is the key; no colon follows it
    have same := closing (calm_key word) (List.cons_prefix_cons.mp front).2
    have parts : quote :: (jsonEscape value ++ quote :: tail) = needleOf key ++ tail := by
      rw [same, needleOf, List.cons_append, List.append_assoc]
      rfl
    rw [parts, find_passed (ended_skip ended)]
  · rw [skip_item front, inside]

theorem find_inside {tail : Bytes} (word : ∀ byte ∈ key, isWord byte = true) (ended : Ended tail)
    (value : Bytes) :
    findKey (jsonEscape value ++ quote :: tail) key = findKey tail key := by
  induction value with
  | nil =>
      cases tail with
      | nil => simp [Ended] at ended
      | cons mark rest =>
          have marks : mark = comma ∨ mark = closeBrace := by simpa [Ended] using ended
          have other : mark ≠ quote := by rcases marks with rfl | rfl <;> decide
          have noWord : isWord mark = false := by rcases marks with rfl | rfl <;> rfl
          exact skip_item (apart_from word other noWord rest)
  | cons c rest ih =>
      have split_ : jsonEscape (c :: rest) ++ quote :: tail = escapeByte c ++
          (jsonEscape rest ++ quote :: tail) :=
        List.append_assoc _ _ _
      rw [split_]
      obtain ⟨plain, noQuote, -⟩ | ⟨more, escaped, single | free⟩ := escape_cases c
      · rw [plain, skip_free _ (by simpa using noQuote.symm), ih]
      · rw [escaped, single]
        exact (skip_free [backslash] (by decide) _ key).trans (find_open word ended ih)
      · have none : quote ∉ backslash :: more := fun member =>
          (List.mem_cons.mp member).elim (by decide) free
        rw [escaped, skip_free _ none, ih]

/-! Over the members. -/

theorem find_member (key value tail : Bytes) :
    findKey (memberText (key, value) ++ tail) key =
      some (quote :: (jsonEscape value ++ quote :: tail)) := by
  rw [memberText, List.append_assoc]
  exact (find_here key _).trans
    (congrArg (fun rest => some (quote :: rest)) (List.append_assoc _ [quote] tail))

theorem find_other {other tail : Bytes} (value : Bytes) (word : ∀ byte ∈ key, isWord byte = true)
    (otherWord : ∀ byte ∈ other, isWord byte = true) (apart : other ≠ key) (ended : Ended tail) :
    findKey (memberText (other, value) ++ tail) key = findKey tail key := by
  have free : quote ∉ key := fun member => (calm_key word quote member).1 rfl
  have otherFree : quote ∉ other := fun member => (calm_key otherWord quote member).1 rfl
  have parts : memberText (other, value) ++ tail =
      quote :: (other ++ quote :: ([colon] ++ quote :: (jsonEscape value ++ quote :: tail))) := by
    rw [memberText, needleOf]
    simp only [List.cons_append, List.append_assoc, List.nil_append]
  have opening :
      ¬needleOf key <+: quote :: (other ++
        quote :: ([colon] ++ quote :: (jsonEscape value ++ quote :: tail))) := by
    intro front
    obtain ⟨rest, whole⟩ := (List.cons_prefix_cons.mp front).2
    rw [List.append_assoc] at whole
    exact apart (first_mark_inj free otherFree whole).1.symm
  have behind : ¬needleOf key <+: quote :: ([colon] ++ quote :: (jsonEscape value ++ quote :: tail)) :=
    apart_from word (by decide) rfl _
  rw [parts, skip_item opening, skip_free _ otherFree, skip_item behind, skip_free _ (by decide),
    find_open word ended (find_inside word ended value)]

end Value

/-- The rest of the object behind a member. -/
def moreText : List (Bytes × Bytes) → Bytes
  | [] => [closeBrace]
  | pair :: rest => comma :: (memberText pair ++ moreText rest)

theorem more_ended (pairs : List (Bytes × Bytes)) : Ended (moreText pairs) := by
  cases pairs with
  | nil => exact .inr rfl
  | cons pair rest => exact .inl rfl

theorem object_more (pair : Bytes × Bytes) (rest : List (Bytes × Bytes)) :
    objectText (pair :: rest) = openBrace :: (memberText pair ++ moreText rest) := by
  rw [objectText]
  refine congrArg (openBrace :: ·) ?_
  induction rest generalizing pair with
  | nil => rw [List.map_cons, List.map_nil, List.intercalate_singleton, moreText]
  | cons next others ih =>
      rw [List.map_cons, List.map_cons, List.intercalate_cons_cons, ← List.map_cons, List.append_assoc,
        ih next, moreText]
      simp only [List.append_assoc, List.singleton_append]

theorem find_more {pairs : List (Bytes × Bytes)} (distinct : (pairs.map Prod.fst).Nodup)
    (words : ∀ pair ∈ pairs, ∀ byte ∈ pair.1, isWord byte = true) {pair : Bytes × Bytes}
    (member : pair ∈ pairs) :
    ∃ tail, findKey (moreText pairs) pair.1 = some (quote :: (jsonEscape pair.2 ++ quote :: tail)) := by
  induction pairs with
  | nil => cases member
  | cons first rest ih =>
      have word := words pair member
      rw [moreText]
      have comma_ : findKey (comma :: (memberText first ++ moreText rest)) pair.1 =
          findKey (memberText first ++ moreText rest) pair.1 := skip_free [comma] (by decide) _ pair.1
      rw [comma_]
      rcases List.mem_cons.mp member with same | later
      · rw [← same]
        exact ⟨_, find_member pair.1 pair.2 _⟩
      · rw [List.map_cons, List.nodup_cons] at distinct
        have apart : first.1 ≠ pair.1 := by
          intro same
          rw [same] at distinct
          exact distinct.1 (List.mem_map_of_mem later)
        have skipped := find_other first.2 word (words first List.mem_cons_self) apart (more_ended rest)
        rw [skipped]
        exact ih distinct.2 (fun other inside => words other (List.mem_cons_of_mem _ inside)) later

theorem find_object {pairs : List (Bytes × Bytes)} (distinct : (pairs.map Prod.fst).Nodup)
    (words : ∀ pair ∈ pairs, ∀ byte ∈ pair.1, isWord byte = true) {pair : Bytes × Bytes}
    (member : pair ∈ pairs) :
    ∃ tail, findKey (objectText pairs) pair.1 = some (quote :: (jsonEscape pair.2 ++ quote :: tail)) := by
  cases pairs with
  | nil => cases member
  | cons first rest =>
      obtain ⟨tail, found⟩ := find_more distinct words member
      have brace (mark : UInt8) (other : mark ≠ quote) :
          findKey (mark :: (memberText first ++ moreText rest)) pair.1 =
          findKey (memberText first ++ moreText rest) pair.1 :=
        skip_free [mark] (by simpa using other.symm) _ pair.1
      rw [moreText, brace comma (by decide)] at found
      exact ⟨tail, by rw [object_more, brace openBrace (by decide), found]⟩

/-! Reading a value. -/

/-- A control byte without an escape of its own comes back as the five bytes behind the backslash. -/
def reread (c : UInt8) : Bytes :=
  if c < 32 ∧ c ≠ 9 ∧ c ≠ 10 ∧
    c ≠ 13 then [117, 48, 48, hexAt (c.toNat >>> 4 &&& 15), hexAt (c.toNat &&& 15)] else [c]

theorem read_plain {c : UInt8} (noQuote : c ≠ quote) (noBackslash : c ≠ backslash) (rest : Bytes) :
    readText (c :: rest) = c :: readText rest := by
  cases rest with
  | nil => exact if_neg noQuote
  | cons next more => rw [readText, if_neg noQuote, if_neg noBackslash]

theorem read_escape (next : UInt8) (more : Bytes) :
    readText (backslash :: next :: more) = unescape next :: readText more := by
  rw [readText, if_neg (by decide), if_pos rfl]

theorem read_quote (rest : Bytes) : readText (quote :: rest) = [] := by
  cases rest <;> rfl

theorem read_byte (c : UInt8) (rest : Bytes) :
    readText (escapeByte c ++ rest) = reread c ++ readText rest := by
  unfold escapeByte reread
  by_cases atQuote : c = quote
  · rw [if_pos atQuote, atQuote]
    exact read_escape quote rest
  rw [if_neg atQuote]
  by_cases atBackslash : c = backslash
  · rw [if_pos atBackslash, atBackslash]
    exact read_escape backslash rest
  rw [if_neg atBackslash]
  by_cases line : c = 10
  · rw [if_pos line, line]
    exact read_escape 110 rest
  rw [if_neg line]
  by_cases back : c = 13
  · rw [if_pos back, back]
    exact read_escape 114 rest
  rw [if_neg back]
  by_cases tab : c = 9
  · rw [if_pos tab, tab]
    exact read_escape 116 rest
  rw [if_neg tab]
  by_cases control : c < 32
  · rw [if_pos control, if_pos ⟨control, tab, line, back⟩]
    obtain ⟨highQuote, highBackslash⟩ := hex_plain (c.toNat >>> 4 &&& 15)
    obtain ⟨lowQuote, lowBackslash⟩ := hex_plain (c.toNat &&& 15)
    -- The switch knows no u, so the letter and the digits are the text.
    refine (read_escape 117 _).trans ?_
    show unescape 117 :: readText (48 :: 48 :: hexAt _ :: hexAt _ :: rest) = _
    rw [read_plain (by decide) (by decide), read_plain (by decide) (by decide),
      read_plain highQuote highBackslash, read_plain lowQuote lowBackslash]
    rfl
  · rw [if_neg control, if_neg fun bad => control bad.1]
    exact read_plain atQuote atBackslash rest

theorem read_value (value tail : Bytes) :
    readText (jsonEscape value ++ quote :: tail) = value.flatMap reread := by
  induction value with
  | nil => exact read_quote tail
  | cons c rest ih =>
      have split_ : jsonEscape (c :: rest) ++ quote :: tail = escapeByte c ++
          (jsonEscape rest ++ quote :: tail) :=
        List.append_assoc _ _ _
      rw [split_, read_byte, ih]
      rfl

/-- A byte that the writer's escapes and the reader's agree on. -/
def Agreed (c : UInt8) : Prop := 32 ≤ c ∨ c = 9 ∨ c = 10 ∨ c = 13

theorem reread_agreed {c : UInt8} (agreed : Agreed c) : reread c = [c] := by
  refine if_neg fun bad => ?_
  rcases agreed with high | tab | line | back
  · exact absurd bad.1 (UInt8.not_lt.mpr high)
  · exact bad.2.1 tab
  · exact bad.2.2.1 line
  · exact bad.2.2.2 back

theorem reread_lengths (value : Bytes) : value.length ≤ (value.flatMap reread).length := by
  induction value with
  | nil => exact Nat.le_refl 0
  | cons c rest ih =>
      have one : 1 ≤ (reread c).length := by
        rw [reread]
        split <;> exact Nat.le_add_left _ _
      rw [List.flatMap_cons, List.length_append, List.length_cons]
      omega

theorem reread_same_iff (value : Bytes) : value.flatMap reread = value ↔ ∀ c ∈ value, Agreed c := by
  induction value with
  | nil => simp
  | cons c rest ih =>
      rw [List.flatMap_cons, List.forall_mem_cons]
      by_cases agreed : Agreed c
      · rw [reread_agreed agreed, ← ih]
        simp [agreed]
      · -- five bytes for one, and the others never get fewer
        refine ⟨fun same => ?_, fun both => absurd both.1 agreed⟩
        have control : c < 32 ∧ c ≠ 9 ∧ c ≠ 10 ∧ c ≠ 13 := by
          unfold Agreed at agreed
          push Not at agreed
          exact ⟨UInt8.not_le.mp (by simpa using agreed.1), agreed.2⟩
        have size := congrArg List.length same
        have rests := reread_lengths rest
        rw [reread, if_pos control, List.length_append, List.length_cons] at size
        simp only [List.length_cons, List.length_nil] at size
        omega

theorem json_string_object {pairs : List (Bytes × Bytes)} (distinct : (pairs.map Prod.fst).Nodup)
    (words : ∀ pair ∈ pairs, ∀ byte ∈ pair.1, isWord byte = true) {pair : Bytes × Bytes}
    (member : pair ∈ pairs) :
    jsonString (objectText pairs) pair.1 = pair.2.flatMap reread := by
  obtain ⟨tail, found⟩ := find_object distinct words member
  have visible : skipWs (quote :: (jsonEscape pair.2 ++ quote :: tail)) =
      quote :: (jsonEscape pair.2 ++ quote :: tail) := rfl
  rw [jsonString, found]
  show (if (skipWs _).head? = some quote then readText (skipWs _).tail else []) = _
  rw [visible, if_pos (List.head?_cons ..)]
  exact read_value pair.2 tail

/-- A value of the object is read back exactly when it has no control bytes but tabs and line ends. -/
theorem json_string_reads_iff (pairs : List (Bytes × Bytes)) (distinct : (pairs.map Prod.fst).Nodup)
    (words : ∀ pair ∈ pairs, ∀ byte ∈ pair.1, isWord byte = true) (pair : Bytes × Bytes)
    (member : pair ∈ pairs) :
    jsonString (objectText pairs) pair.1 = pair.2 ↔ ∀ c ∈ pair.2, 32 ≤ c ∨ c = 9 ∨ c = 10 ∨ c = 13 := by
  rw [json_string_object distinct words member]
  exact reread_same_iff pair.2

/-- A value that ends like a key, with a quote inside. -/
theorem quoted_value_read :
    jsonString (objectText [([97], [34, 98, 34, 58]), ([98], [120])]) [98] = [120] :=
  (json_string_reads_iff [([97], [34, 98, 34, 58]), ([98], [120])] (by decide) (by decide) ([98], [120])
    (by decide)).mpr (by decide)

/-- A value of the one byte 1. -/
theorem control_byte_lost : jsonString (objectText [([107], [1])]) [107] ≠ [1] := by decide

end KosSim.VaultJson
