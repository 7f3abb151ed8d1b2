import KosSim.Library.Separated
import KosSim.Library.Utf8Cuts
import KosSim.PlantedFlags

/-!
The path that cli_commit stores, read back. A path without escapes whose parts are all
filled normalises to itself; an escape that is decoded makes the text shorter, and nothing
in normalize_path makes it longer again. The branch is normalised once before it is stored,
so one escape in it may be left, and a branch without parts leaves an empty one.
-/

namespace KosSim.Ledger
open Library

/-! Escapes. -/

section Escapes

/-- An escape stands at the front: a percent sign and two digits. -/
def Escape (byte : UInt8) (rest : List UInt8) : Prop :=
  byte = 37 ∧ ∃ high low after, rest = high :: low :: after ∧ hexValue high ≠ none ∧ hexValue low ≠ none

theorem decode_byte {byte : UInt8} {rest : List UInt8} (plain : ¬Escape byte rest) :
    decodeBinary (byte :: rest) = byte :: decodeBinary rest := by
  by_cases percent : byte = 37
  · subst percent
    match rest with
    | [] => rfl
    | [high] => rfl
    | high :: low :: after =>
        rw [decodeBinary]
        split
        · next first second highValue lowValue =>
          refine absurd ⟨rfl, high, low, after, rfl, ?_, ?_⟩ plain
          · rw [highValue]
            exact Option.some_ne_none first
          · rw [lowValue]
            exact Option.some_ne_none second
        · rfl
  · rw [decodeBinary]
    exact fun _ _ _ sign => absurd sign percent

theorem decode_escape {high low : UInt8} {first second : Nat} (highValue : hexValue high = some first)
    (lowValue : hexValue low = some second) (rest : List UInt8) :
    decodeBinary (37 :: high :: low :: rest) = UInt8.ofNat (first * 16 + second) :: decodeBinary rest := by
  rw [decodeBinary, highValue, lowValue]

theorem escape_cases (byte : UInt8) (rest : List UInt8) : ¬Escape byte rest ∨ ∃ high low after first second,
    byte = 37 ∧ rest = high :: low :: after ∧ hexValue high = some first ∧ hexValue low = some second := by
  by_cases escape : Escape byte rest
  · obtain ⟨percent, high, low, after, same, highValue, lowValue⟩ := escape
    obtain ⟨first, highValue⟩ := Option.ne_none_iff_exists'.mp highValue
    obtain ⟨second, lowValue⟩ := Option.ne_none_iff_exists'.mp lowValue
    exact .inr ⟨high, low, after, first, second, percent, same, highValue, lowValue⟩
  · exact .inl escape

theorem decode_plain {bytes : List UInt8} (plain : 37 ∉ bytes) : decodeBinary bytes = bytes := by
  induction bytes with
  | nil => rfl
  | cons byte rest ih =>
      rw [List.mem_cons, not_or] at plain
      rw [decode_byte fun escape => plain.1 escape.1.symm, ih plain.2]

/-- A decoded escape leaves one byte of three. -/
theorem decode_shorter (bytes : List UInt8) :
    decodeBinary bytes = bytes ∨ (decodeBinary bytes).length + 2 ≤ bytes.length := by
  match bytes with
  | [] => exact .inl rfl
  | byte :: rest =>
      rcases escape_cases byte rest with plain | ⟨high, low, after, first, second, rfl, rfl,
        highValue, lowValue⟩
      · rw [decode_byte plain]
        rcases decode_shorter rest with same | less
        · exact .inl (by rw [same])
        · exact .inr (Nat.succ_le_succ less)
      · right
        have tail : (decodeBinary after).length ≤ after.length := by
          rcases decode_shorter after with same | less
          · rw [same]
          · omega
        rw [decode_escape highValue lowValue]
        simp only [List.length_cons]
        omega
termination_by bytes.length

/-- No escape crosses a slash. -/
theorem decode_slash (front back : List UInt8) :
    decodeBinary (front ++ 47 :: back) = decodeBinary front ++ 47 :: decodeBinary back := by
  have slash : hexValue 47 = none := by decide
  match front with
  | [] => exact decode_byte fun escape => absurd escape.1 (by decide)
  | byte :: rest =>
      rcases escape_cases byte rest with plain | ⟨high, low, after, first, second, rfl, rfl,
        highValue, lowValue⟩
      · have still : ¬Escape byte (rest ++ 47 :: back) := by
          rintro ⟨percent, high, low, after, same, highValue, lowValue⟩
          match rest, same with
          | [], same =>
              rw [← (List.cons.inj same).1] at highValue
              exact highValue slash
          | [other], same =>
              rw [← (List.cons.inj (List.cons.inj same).2).1] at lowValue
              exact lowValue slash
          | one :: two :: more, same =>
              obtain ⟨rfl, tail⟩ := List.cons.inj same
              obtain ⟨rfl, _⟩ := List.cons.inj tail
              exact plain ⟨percent, one, two, more, rfl, highValue, lowValue⟩
        rw [List.cons_append, decode_byte still, decode_byte plain, decode_slash rest back]
        rfl
      · rw [List.cons_append, List.cons_append, List.cons_append, decode_escape highValue lowValue,
          decode_escape highValue lowValue, decode_slash after back]
        rfl
termination_by front.length

/-- The decoded text is the text itself where it has no escapes, or where its bytes become unreadable. -/
theorem url_decode_same {text : String} :
    urlDecode text = text ↔ decodeBinary (utf8 text) = utf8 text ∨
      ¬Readable (decodeBinary (utf8 text)) := by
  unfold urlDecode
  cases read : String.fromUTF8? (decodeBinary (utf8 text)).toByteArray with
  | none => exact iff_of_true rfl (.inr (from_utf8_none.mp read))
  | some decoded =>
      have bytes := from_utf8_iff.mp read
      constructor
      · intro same
        exact .inl (by rw [← bytes, show decoded = text from same])
      · rintro (same | unreadable)
        · exact utf8_injective (bytes.trans same)
        · exact absurd ⟨decoded, bytes⟩ unreadable

theorem url_decode_shorter {text : String} (other : urlDecode text ≠ text) :
    (utf8 (urlDecode text)).length + 2 ≤ (utf8 text).length := by
  have escapes := fun same => other (url_decode_same.mpr (.inl same))
  unfold urlDecode at other ⊢
  cases read : String.fromUTF8? (decodeBinary (utf8 text)).toByteArray with
  | none =>
      rw [read] at other
      exact absurd rfl other
  | some decoded =>
      show (utf8 decoded).length + 2 ≤ (utf8 text).length
      rw [from_utf8_iff.mp read]
      exact (decode_shorter (utf8 text)).resolve_left escapes

end Escapes

/-! Parts. -/

section Parts

/-- The parts that a path is normalised to. -/
def partsOf (raw : String) : List (List Char) :=
  (((urlDecode raw).toList.splitOn '/').foldl pushPart []).reverse

/-- A part that normalize_path keeps. -/
structure Kept (part : List Char) : Prop where
  free : '/' ∉ part
  filled : part ≠ []
  noDot : part ≠ ['.']
  noDots : part ≠ ['.', '.']

theorem push_kept {parts : List (List Char)} {part : List Char} (kept : ∀ other ∈ parts, Kept other)
    (free : '/' ∉ part) :
    ∀ other ∈ pushPart parts part, Kept other := by
  unfold pushPart
  by_cases skip : part = [] ∨ part = ['.']
  · rw [if_pos skip]
    exact kept
  rw [if_neg skip]
  rw [not_or] at skip
  by_cases up : part = ['.', '.']
  · rw [if_pos up]
    exact fun other member => kept other (List.mem_of_mem_tail member)
  · rw [if_neg up]
    exact List.forall_mem_cons.mpr ⟨⟨free, skip.1, skip.2, up⟩, kept⟩

theorem parts_kept (raw : String) : ∀ part ∈ partsOf raw, Kept part := by
  have fold : ∀ (segments parts : List (List Char)), (∀ segment ∈ segments, '/' ∉ segment) →
      (∀ part ∈ parts, Kept part) → ∀ part ∈ segments.foldl pushPart parts, Kept part := by
    intro segments
    induction segments with
    | nil => exact fun parts _ kept => kept
    | cons segment rest ih =>
        intro parts free kept
        rw [List.forall_mem_cons] at free
        exact ih (pushPart parts segment) free.2 (push_kept kept free.1)
  intro part member
  exact fold _ [] (split_free _) (List.forall_mem_nil _) part (List.mem_reverse.mp member)

theorem push_empty (parts : List (List Char)) : pushPart parts [] = parts := if_pos (.inl rfl)

theorem push_all {parts : List (List Char)} (kept : ∀ part ∈ parts, Kept part) (before : List (List Char)) :
    parts.foldl pushPart before = parts.reverse ++ before := by
  induction parts generalizing before with
  | nil => rfl
  | cons part rest ih =>
      rw [List.forall_mem_cons] at kept
      have skip : ¬(part = [] ∨ part = ['.']) := not_or.mpr ⟨kept.1.filled, kept.1.noDot⟩
      rw [List.foldl_cons, pushPart, if_neg skip, if_neg kept.1.noDots, ih kept.2, List.reverse_cons,
        List.append_assoc]
      rfl

theorem normalize_parts (raw : String) :
    normalizePath raw = String.ofList ('/' :: ['/'].intercalate (partsOf raw)) := rfl

theorem joined_kept {parts : List (List Char)} (kept : ∀ part ∈ parts, Kept part) :
    ∀ part ∈ parts, part ≠ [] ∧ '/' ∉ part :=
  fun part member => ⟨(kept part member).filled, (kept part member).free⟩

theorem trim_joined {parts : List (List Char)} (kept : ∀ part ∈ parts, Kept part) :
    trimSlashes (String.ofList ('/' :: ['/'].intercalate parts)) =
      String.ofList (['/'].intercalate parts) := by
  have front := drop_while_other (joined_head (joined_kept kept))
  have lastOther : (['/'].intercalate parts).reverse.head? ≠ some '/' := by
    rw [List.head?_reverse]
    exact joined_last (joined_kept kept)
  have back := drop_while_other lastOther
  rw [trimSlashes, String.toList_ofList, List.dropWhile_cons_of_pos (by decide), front, back,
    List.reverse_reverse]

/-! Weights. -/

def weight (c : Char) : Nat := (String.utf8EncodeChar c).length

theorem utf8_weight (chars : List Char) : (utf8 (String.ofList chars)).length = (chars.map weight).sum := by
  rw [utf8_of_list, List.length_flatMap]
  rfl

def costs (parts : List (List Char)) : Nat := (parts.map fun part => (part.map weight).sum + weight '/').sum

theorem push_costs (parts : List (List Char)) (part : List Char) :
    costs (pushPart parts part) ≤ costs parts + ((part.map weight).sum + weight '/') := by
  unfold pushPart
  by_cases skip : part = [] ∨ part = ['.']
  · rw [if_pos skip]
    exact Nat.le_add_right _ _
  rw [if_neg skip]
  by_cases up : part = ['.', '.']
  · rw [if_pos up]
    cases parts with
    | nil => exact Nat.zero_le _
    | cons last rest =>
        show costs rest ≤ costs (last :: rest) + _
        simp only [costs, List.map_cons, List.sum_cons]
        omega
  · rw [if_neg up]
    simp only [costs, List.map_cons, List.sum_cons]
    omega

/-- Normalising adds at most the first slash to the decoded text. -/
theorem normalize_weight (raw : String) :
    (utf8 (normalizePath raw)).length ≤ (utf8 (urlDecode raw)).length + 1 := by
  have fold : ∀ segments parts : List (List Char), costs (segments.foldl pushPart parts) ≤
      costs parts + costs segments := by
    intro segments
    induction segments with
    | nil => exact fun parts => Nat.le_refl _
    | cons segment rest ih =>
        intro parts
        have step := push_costs parts segment
        have tail := ih (pushPart parts segment)
        simp only [costs, List.map_cons, List.sum_cons, List.foldl_cons] at step tail ⊢
        omega
  have decoded := joined_weight '/' weight (List.splitOn_ne_nil '/' (urlDecode raw).toList)
  rw [List.intercalate_splitOn, ← utf8_weight, String.ofList_toList] at decoded
  have bound := fold ((urlDecode raw).toList.splitOn '/') []
  have slash : weight '/' = 1 := by decide
  have parts : costs (partsOf raw) = costs (((urlDecode raw).toList.splitOn '/').foldl pushPart []) := by
    rw [partsOf, costs, List.map_reverse, List.sum_reverse]
    rfl
  rw [normalize_parts, utf8_weight, List.map_cons, List.sum_cons]
  by_cases none : partsOf raw = []
  · rw [none, slash]
    show 1 + 0 ≤ _
    omega
  · have joined := joined_weight '/' weight none
    unfold costs at parts bound
    simp only [List.map_nil, List.sum_nil] at bound
    omega

theorem fixed_decodes {text : String} (fixed : normalizePath text = text) : urlDecode text = text := by
  by_contra other
  have less := url_decode_shorter other
  have bound := normalize_weight text
  rw [fixed] at bound
  omega

/-- A path that decodes to itself, from its segments. -/
theorem normalize_segments {segments : List (List Char)} (some_ : segments ≠ [])
    (free : ∀ segment ∈ segments, '/' ∉ segment)
    (plain : urlDecode (String.ofList (['/'].intercalate segments)) = String.ofList
      (['/'].intercalate segments)) : normalizePath (String.ofList (['/'].intercalate segments)) =
      String.ofList ('/' :: ['/'].intercalate (segments.foldl pushPart []).reverse) := by
  rw [normalize_parts, partsOf, plain, String.toList_ofList, List.splitOn_intercalate '/' free some_]

end Parts

end KosSim.Ledger

namespace KosSim.LedgerForge
open Library Ledger

/-- The normalised branch has a part, and decoding it again leaves it as it is. -/
def StableBranch (branch : String) : Prop :=
  normalizePath branch ≠ "/" ∧ urlDecode (normalizePath branch) = normalizePath branch

/-- A reader with a grant for /public gets the document at its stored path. -/
structure ReadsBack (env : Env) (state : AppState) (doc : Doc) : Prop where
  read : readDoc env state doc.path (some "/public") =
    .shown doc.id doc.path doc.body (merkleRoot env.sha state.docs)
  fixed : normalizePath doc.path = doc.path
  underPublic : (utf8 "/public").isPrefixOf (utf8 doc.path) = true

section Stored
variable (branch : String) (id : String)

def storedPath : String := "/public/branch/" ++ trimSlashes (normalizePath branch) ++ "/" ++ id

/-- The segments of the stored path. A branch without parts leaves an empty one. -/
def segmentsOf : List (List Char) :=
  [] :: "public".toList :: "branch".toList :: ((if partsOf branch = [] then [[]] else partsOf branch) ++
    [id.toList])

theorem stored_segments :
    storedPath branch id = String.ofList (['/'].intercalate (segmentsOf branch id)) := by
  apply String.toList_injective
  show ("/public/branch/" ++ trimSlashes (normalizePath branch) ++ "/" ++ id).toList = _
  rw [normalize_parts, trim_joined (parts_kept branch), segmentsOf, String.toList_ofList]
  simp only [String.toList_append, String.toList_ofList]
  by_cases none : partsOf branch = []
  · rw [none, if_pos rfl]
    simp [List.intercalate_cons_cons]
  · rw [if_neg none, List.intercalate_cons_cons, List.intercalate_cons_cons,
      List.intercalate_cons_of_ne_nil (List.append_ne_nil_of_left_ne_nil none _), joined_snoc none]
    simp

end Stored

section Bytes
variable {branch id : String}

theorem utf8_append (one other : String) : utf8 (one ++ other) = utf8 one ++ utf8 other := by
  simp [utf8]

/-- A hexadecimal id is a part of its own, and no byte of it is a percent sign. -/
structure PlainId (id : String) : Prop where
  kept : Kept id.toList
  bytes : ∀ byte ∈ utf8 id, byte < 128 ∧ byte ≠ 37

theorem hex_plain {bytes : List UInt8} (filled : bytes ≠ []) : PlainId (hexEncode bytes) := by
  have digits := hex_text_digits bytes
  have size := hex_text_length bytes
  have many := List.length_pos_iff.mpr filled
  have slash : '/' ∉ hexDigits := by decide
  have dot : '.' ∉ hexDigits := by decide
  have noDot (rest : List Char) (same : (hexEncode bytes).toList = '.' :: rest) : False :=
    dot (digits '.' (same ▸ List.mem_cons_self))
  refine ⟨⟨fun member => slash (digits _ member), ?_, fun same => noDot _ same,
    fun same => noDot _ same⟩, ?_⟩
  · intro none
    rw [none, List.length_nil] at size
    omega
  · intro byte member
    rw [utf8_hex] at member
    obtain ⟨c, listed, rfl⟩ := List.mem_map.mp member
    have table :
        hexDigits.all (fun c => decide (UInt8.ofNat c.val.toNat < 128 ∧
          UInt8.ofNat c.val.toNat ≠ 37)) = true := by
      decide
    refine of_decide_eq_true (List.all_eq_true.mp table c (digits c ?_))
    rw [hexEncode, String.toList_ofList]
    exact listed

theorem stored_bytes
    (some_ : normalizePath branch = String.ofList ('/' :: ['/'].intercalate (partsOf branch))) :
    utf8 (storedPath branch id) = utf8 "/public/branch" ++ utf8 (normalizePath branch) ++
      utf8 ("/" ++ id) := by
  have slash : String.ofList ('/' :: ['/'].intercalate (partsOf branch)) =
      "/" ++ String.ofList (['/'].intercalate (partsOf branch)) := by
    apply String.toList_injective
    simp
  show utf8 ("/public/branch/" ++ trimSlashes (normalizePath branch) ++ "/" ++ id) = _
  rw [some_, trim_joined (parts_kept branch), slash]
  simp only [utf8_append, List.append_assoc]
  rfl

/-- Only the branch decides whether the stored path decodes to itself. -/
theorem stored_decodes (plain : PlainId id) :
    urlDecode (storedPath branch id) = storedPath branch id ↔
      urlDecode (normalizePath branch) = normalizePath branch := by
  have front : utf8 "/public/branch" = [47, 112, 117, 98, 108, 105, 99, 47, 98, 114, 97, 110, 99,
      104] := by decide +kernel
  have back : utf8 ("/" ++ id) = 47 :: utf8 id := utf8_append "/" id
  have slash : normalizePath branch = "/" ++ String.ofList (['/'].intercalate (partsOf branch)) := by
    apply String.toList_injective
    rw [normalize_parts]
    simp
  have middle : utf8 (normalizePath branch) = [] ++
      47 :: utf8 (String.ofList (['/'].intercalate (partsOf branch))) := by
    rw [slash, utf8_append]
    rfl
  have ends : decodeBinary (utf8 id) = utf8 id := decode_plain fun member => (plain.bytes 37 member).2 rfl
  have decoded : decodeBinary (utf8 (storedPath branch id)) =
      utf8 "/public/branch" ++ decodeBinary (utf8 (normalizePath branch)) ++ utf8 ("/" ++ id) := by
    rw [stored_bytes (normalize_parts branch), back, decode_slash, ends, middle, decode_slash,
      List.nil_append, decode_slash, decode_plain (front ▸ by decide)]
    rfl
  rw [url_decode_same, url_decode_same, decoded, stored_bytes (normalize_parts branch),
    List.append_left_inj, List.append_right_inj, readable_between]
  · rw [front]
    decide
  · rw [back]
    exact List.forall_mem_cons.mpr ⟨by decide, fun byte member => (plain.bytes byte member).1⟩

theorem no_parts : normalizePath branch = "/" ↔ partsOf branch = [] := by
  rw [normalize_parts]
  constructor
  · intro same
    by_contra some_
    obtain ⟨part, rest, parts⟩ := List.exists_cons_of_ne_nil some_
    have filled := (parts_kept branch part (parts ▸ List.mem_cons_self)).filled
    have chars := congrArg String.toList same
    rw [String.toList_ofList, parts] at chars
    have nothing : ['/'].intercalate (part :: rest) = [] := (List.cons.inj chars).2
    cases rest with
    | nil => exact filled (by simpa using nothing)
    | cons second others =>
        rw [List.intercalate_cons_cons] at nothing
        simp at nothing
  · intro none
    rw [none]
    rfl

theorem public_kept : Kept "public".toList ∧ Kept "branch".toList :=
  ⟨⟨by decide, by decide, by decide, by decide⟩, ⟨by decide, by decide, by decide, by decide⟩⟩

theorem segments_free (plain : PlainId id) : ∀ segment ∈ segmentsOf branch id, '/' ∉ segment := by
  have middle : ∀ segment ∈ (if partsOf branch = [] then [[]] else partsOf branch), '/' ∉ segment := by
    split
    · exact List.forall_mem_singleton.mpr List.not_mem_nil
    · exact fun part member => (parts_kept branch part member).free
  rw [segmentsOf, List.forall_mem_cons, List.forall_mem_cons, List.forall_mem_cons, List.forall_mem_append,
    List.forall_mem_singleton]
  exact ⟨List.not_mem_nil, public_kept.1.free, public_kept.2.free, middle, plain.kept.free⟩

/-- The segments that are kept when the stored path is normalised: all but the empty ones. -/
theorem segments_pushed (plain : PlainId id) : ((segmentsOf branch id).foldl pushPart []).reverse =
    "public".toList :: "branch".toList :: (partsOf branch ++ [id.toList]) := by
  have kept : ∀ part ∈ "public".toList :: "branch".toList :: (partsOf branch ++ [id.toList]),
      Kept part := by
    rw [List.forall_mem_cons, List.forall_mem_cons, List.forall_mem_append, List.forall_mem_singleton]
    exact ⟨public_kept.1, public_kept.2, parts_kept branch, plain.kept⟩
  have pushed := push_all kept []
  have same : (segmentsOf branch id).foldl pushPart [] =
      ("public".toList :: "branch".toList :: (partsOf branch ++ [id.toList])).foldl pushPart [] := by
    unfold segmentsOf
    by_cases none : partsOf branch = []
    · rw [none, if_pos rfl]
      simp only [List.foldl_cons, List.cons_append, List.nil_append, push_empty]
    · rw [if_neg none]
      simp only [List.foldl_cons, push_empty]
  rw [same, pushed, List.append_nil, List.reverse_reverse]

theorem stored_fixed_iff (plain : PlainId id) :
    normalizePath (storedPath branch id) = storedPath branch id ↔ StableBranch branch := by
  have segments := stored_segments branch id
  have some_ : segmentsOf branch id ≠ [] := List.cons_ne_nil _ _
  constructor
  · intro fixed
    have decodes := fixed_decodes fixed
    refine ⟨fun alone => ?_, (stored_decodes plain).mp decodes⟩
    have none := no_parts.mp alone
    rw [segments] at decodes fixed
    rw [normalize_segments some_ (segments_free plain) decodes, segments_pushed plain] at fixed
    have chars := congrArg List.length (String.ofList_injective fixed)
    rw [none, segmentsOf, none, if_pos rfl] at chars
    simp [List.intercalate_cons_cons] at chars
  · rintro ⟨alone, decodes⟩
    have parts : partsOf branch ≠ [] := fun none => alone (no_parts.mpr none)
    have whole := (stored_decodes plain).mpr decodes
    rw [segments] at whole ⊢
    rw [normalize_segments some_ (segments_free plain) whole, segments_pushed plain, segmentsOf,
      if_neg parts]
    rfl

theorem stored_public (branch id : String) :
    (utf8 "/public").isPrefixOf (utf8 (storedPath branch id)) = true := by
  have opening : "/public/branch" = "/public" ++ "/branch" := rfl
  rw [stored_bytes (normalize_parts branch), opening, utf8_append]
  simp only [List.append_assoc]
  exact List.isPrefixOf_iff_prefix.mpr (List.prefix_append _ _)

end Bytes

section Commit
variable {env : Env} {state : AppState} {cookie : Option String} {now : Int} {branch body : String}
  {signer : Option String} {found : Nat × UserRow}

theorem commit_path (env : Env) (state : AppState) (branch body owner : String) :
    (commitDoc env state branch body owner).path =
      storedPath branch (shortHash env (commitText state branch body)) :=
  rfl

theorem commit_writes (known : currentUser env state cookie now = some found) :
    (cliCommit env state cookie now branch body signer).1 =
      upsertDoc state (commitDoc env state branch body (signer.getD found.2.username)) 0 now := by
  rw [cliCommit, known]

theorem read_stored {doc : Doc} (fixed : normalizePath doc.path = doc.path)
    (underPublic : (utf8 "/public").isPrefixOf (utf8 doc.path) = true) (tick now : Int) :
    readDoc env (upsertDoc state doc tick now) doc.path (some "/public") =
      .shown doc.id doc.path doc.body (merkleRoot env.sha (upsertDoc state doc tick now).docs) := by
  have path : (upsertDoc state doc tick now).pathIndex.get? doc.path = some doc.id := by
    rw [upsertDoc, Dict.get_set, if_pos rfl]
  have row : (upsertDoc state doc tick now).docs.get? doc.id = some doc := by
    rw [upsertDoc, Dict.get_set, if_pos rfl]
  simp only [readDoc, underPublic, fixed, path, row, Bool.not_true, Bool.false_eq_true, ↓reduceIte]

end Commit

/-- A committed document can be read at its stored path exactly when the normalised branch has a
part and no escape that is still decoded. -/
theorem committed_reads_iff (env : Env) (long : ∀ message, (env.sha message).length = 32)
    (state : AppState) (cookie : Option String) (now : Int) (branch body : String)
    (signer : Option String) (found : Nat × UserRow)
    (known : currentUser env state cookie now = some found) :
    ReadsBack env (cliCommit env state cookie now branch body signer).1
      (commitDoc env state branch body (signer.getD found.2.username)) ↔ StableBranch branch := by
  have plain : PlainId (shortHash env (commitText state branch body)) := by
    apply hex_plain
    rw [← List.length_pos_iff, List.length_take, long]
    decide
  have path := commit_path env state branch body (signer.getD found.2.username)
  have underPublic := stored_public branch (shortHash env (commitText state branch body))
  rw [← path] at underPublic
  rw [← stored_fixed_iff plain, ← path]
  constructor
  · exact fun reads => reads.fixed
  · intro fixed
    refine ⟨?_, fixed, underPublic⟩
    rw [commit_writes known]
    exact read_stored fixed underPublic 0 now

def mirrorUser : Nat × UserRow := (1, ⟨"mirror", "password", "analyst", 0⟩)

theorem main_branch_read :
    ReadsBack mirrorEnv (cliCommit mirrorEnv mirrorState (some "1.14400") 0 "main" "first" none).1
      (commitDoc mirrorEnv mirrorState "main" "first" "mirror") :=
  (committed_reads_iff mirrorEnv Sha256.sha256_length mirrorState (some "1.14400") 0 "main" "first"
    none mirrorUser (by decide +kernel)).mpr ⟨by decide +kernel, by decide +kernel⟩

/-- A commit on the empty branch is stored under two slashes in a row and not found again. -/
theorem empty_branch_lost :
    currentUser mirrorEnv mirrorState (some "1.14400") 0 = some mirrorUser ∧
    (commitDoc mirrorEnv mirrorState "" "first" "mirror").path =
      "/public/branch//" ++ (commitDoc mirrorEnv mirrorState "" "first" "mirror").id ∧
    readDoc mirrorEnv (cliCommit mirrorEnv mirrorState (some "1.14400") 0 "" "first" none).1
      (commitDoc mirrorEnv mirrorState "" "first" "mirror").path (some "/public") =
        .refused (404, "missing") := by
  decide +kernel

end KosSim.LedgerForge
