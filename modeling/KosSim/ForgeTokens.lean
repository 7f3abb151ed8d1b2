import KosSim.CommittedPaths
import KosSim.Library.Base64Url
import KosSim.Library.Bracketed
import KosSim.Library.LengthExtension
import KosSim.Library.LossyUtf8
import KosSim.PlantedFlags

/-!
The viewer tokens of LedgerForge's settlements: the route that reads a settlement (settlements.rs),
and exploits/exp2.py with its _length_ext.py. A token is a plain hash with the secret in front, so
the public token is extended to one for an admin.
-/

namespace KosSim.LedgerForge
open Library Ledger

/-! The route. -/

def randomId (tag : String) (buf : List UInt8) : String := tag ++ "_" ++ hexEncode buf

/-- URL_SAFE_NO_PAD.decode: no padding, and no bits behind the last byte. -/
def urlSafeDecode (text : String) : Option (List UInt8) :=
  (Base64.urlDecode text.toList).filter fun bytes => Base64.urlEncode bytes = text.toList

inductive SettlementAnswer where
  | error (status : Nat) (text : String)
  | full (id branch body : String) (viewer : List Char)
  | brief (id branch : String) (viewer : List Char) (tick : Int)

def SettlementAnswer.status : SettlementAnswer → Nat
  | .error status _ => status
  | _ => 200

/-- settlements.rs: `read` -/
def readSettlement (env : Env) (state : AppState) (id : String) (viewer token : Option String) :
    SettlementAnswer :=
  let viewerB64 := viewer.getD ""
  let token := token.getD ""
  if viewerB64 = "" ∨ token = "" then .error 400 "missing_params"
  else
    match urlSafeDecode viewerB64 with
    | none => .error 400 "bad_viewer"
    | some viewerBytes =>
        if signSettlementToken env id viewerBytes ≠ token then .error 401 "bad_token"
        else
          match state.db.settlements.get? id with
          | none => .error 404 "not_found"
          | some row =>
              let viewerText := lossy viewerBytes
              let scopes := (viewerText.splitOn ',').map trim
              if scopes.any fun s => s = "admin".toList then .full id row.branch row.body viewerText
              else .brief id row.branch viewerText row.tick

/-! The text of an answer, as serde_json writes it: the keys are sorted. -/

def quoteMark : Char := Char.ofNat 34

def serdeChar (c : Char) : List Char :=
  let n := c.toNat
  if n = 34 ∨ n = 92 then ['\\', c]
  else if n = 8 then ['\\', 'b']
  else if n = 9 then ['\\', 't']
  else if n = 10 then ['\\', 'n']
  else if n = 12 then ['\\', 'f']
  else if n = 13 then ['\\', 'r']
  else if n < 32 then ['\\', 'u', '0', '0', hexDigit (n / 16), hexDigit (n % 16)]
  else [c]

def serdeString (text : List Char) : List Char := quoteMark :: text.flatMap serdeChar ++ [quoteMark]

def serdeObject (members : List (String × List Char)) : List Char :=
  '\x7b' :: [','].intercalate (members.map fun member => serdeString member.1.toList ++
    ':' :: member.2) ++ ['\x7d']

def SettlementAnswer.text : SettlementAnswer → List Char
  | .error _ text => serdeObject [("error", serdeString text.toList)]
  | .full id branch body viewer =>
      serdeObject [("body", serdeString body.toList), ("branch", serdeString branch.toList),
        ("id", serdeString id.toList), ("viewer", serdeString viewer)]
  | .brief id branch viewer tick =>
      serdeObject [("branch", serdeString branch.toList), ("id", serdeString id.toList),
        ("tick", (toString tick).toList), ("viewer", serdeString viewer)]

/-! _length_ext.py. -/

def mdPadding (messageLenBytes : Nat) : List UInt8 :=
  [0x80] ++ List.replicate ((56 - ((messageLenBytes + 1) % 64 : Nat) : Int) % 64).toNat 0 ++
    Sha256.bigEndian 8 (messageLenBytes * 8)

/-- None is a ValueError. The loop over the suffix stops before a block that is not whole. -/
def extend (originalDigestHex : String) (originalLen : Nat) (extension : List UInt8) :
    Option (List UInt8 × String) :=
  if originalDigestHex.toList.length ≠ 64 then none
  else
    (hexDecode originalDigestHex).bind fun digest =>
      (Sha256.stateOf digest).map fun state =>
        let glue := mdPadding originalLen
        let suffix := extension ++ mdPadding (originalLen + glue.length + extension.length)
        (glue, hexEncode (Sha256.absorbed state suffix).bytes)

def iterLengths : List Nat := (List.range 89).map (· + 8)

/-! exp2.py. -/

structure SettlementInfo where
  a : String
  b : String
  token : String
  p : Int

/-- What the service answers with when the checker plants a flag in a settlement. -/
def SettlementInfo.text (info : SettlementInfo) (tick : Int) : String :=
  objectText [("a", quoted info.a), ("b", quoted info.b), ("p", toString info.p), ("t", toString tick),
    ("token", quoted info.token)]

inductive Exit where
  | printed (flags : List (List Char))
  | code (status : Nat)
  | raised

def flagOpener : List Char := "FLAG\x7b".toList

def flagCloser : Char := '\x7d'

def flagOf (body : List Char) : List Char := flagOpener ++ body ++ [flagCloser]

/-- FLAG_RE.findall -/
def findFlags (text : List Char) : List (List Char) := brackets flagOpener flagCloser text

def adminScope : List UInt8 := utf8 ",admin"

/-- moments: the state that the request with each length of the secret finds. -/
def exp2Loop (env : Env) (moments : Nat → AppState) (info : SettlementInfo) : List Nat → Exit
  | [] => .code 1
  | secretLen :: rest =>
      let publicViewer := utf8 info.b
      let head := utf8 ("|" ++ info.a ++ "|")
      match extend info.token (secretLen + head.length + publicViewer.length) adminScope with
      | none => .raised
      | some (glue, newDigest) =>
          let viewerB64 := String.ofList (Base64.urlEncode (publicViewer ++ glue ++ adminScope))
          let r := readSettlement env (moments secretLen) info.a (some viewerB64) (some newDigest)
          if r.status ≠ 200 then exp2Loop env moments info rest
          else
            match findFlags r.text with
            | [] => exp2Loop env moments info rest
            | flags => .printed flags

def exp2 (env : Env) (moments : Nat → AppState) (info : SettlementInfo) : Exit :=
  if info.p ≠ 1 then .code 2 else exp2Loop env moments info iterLengths

/-! The padding. -/

theorem md_padding (length : Nat) : mdPadding length = Sha256.glue length := by
  have zeros : ((56 - ((length + 1) % 64 : Nat) : Int) % 64).toNat = (119 - length % 64) % 64 := by omega
  rw [mdPadding, Sha256.glue, zeros, Nat.mul_comm]

/-- No byte of the padding of a short message is an opening brace. -/
theorem glue_brace {length : Nat} (short : length < 128) :
    ∀ byte ∈ Sha256.glue length, byte.toNat ≠ 0x7b := by
  intro byte member
  rw [Sha256.glue, List.mem_append, List.mem_append, List.mem_singleton] at member
  rcases member with (rfl | zero) | counted
  · decide
  · rw [List.eq_of_mem_replicate zero]
    decide
  · obtain ⟨i, inside, rfl⟩ := List.mem_map.mp counted
    rw [List.mem_range] at inside
    rw [UInt8.toNat_ofNat']
    -- The last byte is a multiple of 8, the one before it at most 3, and the others are zero.
    have last : 256 ^ (8 - 1 - i) = 1 ∨ 256 ≤ 256 ^ (8 - 1 - i) := by
      rcases Nat.lt_or_ge i 7 with front | _
      · right
        exact Nat.le_self_pow (by omega) 256
      · left
        rw [show 8 - 1 - i = 0 by omega, Nat.pow_zero]
    rcases last with one | large
    · rw [one, Nat.div_one]
      omega
    · have few : 8 * length / 256 ^ (8 - 1 - i) ≤ 8 * length / 256 := Nat.div_le_div_left large (by decide)
      generalize 8 * length / 256 ^ (8 - 1 - i) = part at few ⊢
      omega

/-! The forged token. -/

section Forged
variable {env : Env} (real : env.sha = Sha256.sha256)

/-- What the token of a viewer is the hash of. -/
def signedBytes (env : Env) (id : String) (viewer : List UInt8) : List UInt8 :=
  utf8 env.checkerSecret ++ utf8 "|" ++ utf8 id ++ utf8 "|" ++ viewer

include real in
theorem sign_settlement (id : String) (viewer : List UInt8) :
    signSettlementToken env id viewer = hexEncode (Sha256.sha256 (signedBytes env id viewer)) := by
  have whole := List.take_of_length_le (Nat.le_of_eq (Sha256.sha256_length (signedBytes env id viewer)))
  rw [signSettlementToken, real, ← signedBytes, whole]

include real in
/-- A digest is extended from its hex text. -/
theorem extend_public (id : String) (length : Nat) (extension : List UInt8) : ∃ digest : List UInt8,
    extend (signSettlementToken env id (utf8 "public")) length extension =
      some (Sha256.glue length, hexEncode digest) ∧
      (length = (signedBytes env id (utf8 "public")).length →
        hexEncode digest = signSettlementToken env id (utf8 "public" ++ Sha256.glue length ++ extension)) ∧
      digest.length = 32 := by
  have size : ¬(hexEncode (Sha256.sha256 (signedBytes env id (utf8 "public")))).toList.length ≠ 64 := by
    rw [hex_text_length, Sha256.sha256_length]
    exact fun other => other rfl
  obtain ⟨state, found⟩ : ∃ state, Sha256.sha256 (signedBytes env id (utf8 "public")) =
    Sha256.Working.bytes state := ⟨_, rfl⟩
  refine ⟨(Sha256.absorbed state (extension ++
    Sha256.glue (length + (Sha256.glue length).length + extension.length))).bytes, ?_,
    fun measured => ?_, rfl⟩
  · rw [sign_settlement real, extend, if_neg size, hex_decode_encode, Option.bind_some, found,
      Sha256.state_of_bytes, Option.map_some]
    simp only [md_padding]
  · have extended := Sha256.extended_digest (signedBytes env id (utf8 "public")) extension
    rw [← measured, found, Sha256.extended, Sha256.state_of_bytes, Option.map_some,
      Option.some.injEq] at extended
    have same : signedBytes env id (utf8 "public" ++ Sha256.glue length ++ extension) =
        signedBytes env id (utf8 "public") ++ Sha256.glue length ++ extension := by
      simp only [signedBytes, List.append_assoc]
    rw [sign_settlement real, same, extended]

end Forged

/-! The texts of a token. -/

theorem part_sizes :
    (utf8 ("stl" ++ "_")).length = 4 ∧ (utf8 "|").length = 1 ∧ (utf8 "public").length = 6 := by
  decide +kernel

theorem admin_scope : adminScope = 44 :: utf8 "admin" ∧ lossy (utf8 "admin") = "admin".toList ∧
    trim "admin".toList = "admin".toList := by
  decide +kernel

theorem scopes_brace : ∀ byte ∈ utf8 "public" ++ adminScope, byte.toNat ≠ 0x7b := by
  decide +kernel

theorem url_safe_encode (bytes : List UInt8) :
    urlSafeDecode (String.ofList (Base64.urlEncode bytes)) = some bytes := by
  rw [urlSafeDecode, String.toList_ofList, Base64.url_decode_encode, Option.filter_some,
    if_pos (decide_eq_true rfl)]

/-- The text of a viewer that ends in the extension has the scope of an admin. -/
theorem extended_scopes (front : List UInt8) :
    (((lossy (front ++ adminScope)).splitOn ',').map trim).any (fun s => s = "admin".toList) = true := by
  obtain ⟨comma, tail, trimmed⟩ := admin_scope
  have text : lossy (front ++ adminScope) = lossy front ++ ',' :: "admin".toList := by
    rw [comma, lossy_mark (by decide), tail]
    rfl
  have parts : (lossy (front ++ adminScope)).splitOn ',' = (lossy front).splitOn ',' ++
      ["admin".toList] := by
    have filled : (lossy front).splitOn ',' ++ ["admin".toList] ≠ [] :=
      List.append_ne_nil_of_right_ne_nil _ (List.cons_ne_nil _ _)
    have free : ∀ part ∈ (lossy front).splitOn ',' ++ ["admin".toList], ',' ∉ part := by
      intro part member
      rcases List.mem_append.mp member with first | last
      · exact split_free _ part first
      · rw [List.mem_singleton.mp last]
        decide
    rw [← List.splitOn_intercalate ',' free filled, joined_snoc (List.splitOn_ne_nil _ _),
      List.intercalate_splitOn, text]
  have last : "admin".toList ∈ ((lossy (front ++ adminScope)).splitOn ',').map trim := by
    rw [parts, List.map_append]
    exact List.mem_append_right _ (List.mem_singleton.mpr trimmed.symm)
  exact List.any_eq_true.mpr ⟨_, last, decide_eq_true rfl⟩

/-! The printed flag. -/

theorem serde_plain {text : List Char} (plain : ∀ c ∈ text, 32 ≤ c.toNat ∧ c.toNat ≠ 34 ∧ c.toNat ≠ 92) :
    text.flatMap serdeChar = text := by
  induction text with
  | nil => rfl
  | cons c rest ih =>
      obtain ⟨low, quote, backslash⟩ := plain c List.mem_cons_self
      have here : serdeChar c = [c] := by
        unfold serdeChar
        dsimp only
        rw [if_neg (by omega), if_neg (by omega), if_neg (by omega), if_neg (by omega), if_neg (by omega),
          if_neg (by omega), if_neg (by omega)]
      rw [List.flatMap_cons, here, ih fun other member => plain other (List.mem_cons_of_mem _ member)]
      rfl

/-- What an escape is written with. -/
def escapeChars : List Char := '\\' :: ("btnfru".toList ++ hexDigits)

theorem serde_char_mem {c d : Char} (member : d ∈ serdeChar c) : d = c ∨ d ∈ escapeChars := by
  have digit (n : Nat) : hexDigit n ∈ escapeChars :=
    List.mem_cons_of_mem _ (List.mem_append_right _ (hex_digit_listed n))
  have letters : ['\\', 'b', 't', 'n', 'f', 'r', 'u', '0'] ⊆ escapeChars := by decide
  have short {letter : Char} (listed : letter ∈ ['b', 't', 'n', 'f', 'r'])
      (inside : d ∈ ['\\', letter]) : d ∈ escapeChars := by
    refine letters (List.mem_cons.mpr ((List.mem_cons.mp inside).imp_right fun last => ?_))
    rw [List.mem_singleton.mp last]
    exact List.mem_append_left ['u', '0'] listed
  unfold serdeChar at member
  dsimp only at member
  split_ifs at member
  · rcases List.mem_cons.mp member with rfl | last
    · exact .inr List.mem_cons_self
    · exact .inl (List.mem_singleton.mp last)
  · exact .inr (short (by decide) member)
  · exact .inr (short (by decide) member)
  · exact .inr (short (by decide) member)
  · exact .inr (short (by decide) member)
  · exact .inr (short (by decide) member)
  · right
    rcases List.mem_append.mp (show d ∈ ['\\', 'u', '0', '0'] ++
      [hexDigit (c.toNat / 16), hexDigit (c.toNat % 16)] from member) with
      front | digits
    · exact letters ((by decide : ['\\', 'u', '0', '0'] ⊆ ['\\', 'b', 't', 'n', 'f', 'r', 'u', '0']) front)
    · rcases List.mem_pair.mp digits with rfl | rfl <;> exact digit _
  · exact .inl (List.mem_singleton.mp member)

theorem serde_brace {text : List Char} (free : '\x7b' ∉ text) : '\x7b' ∉ serdeString text := by
  rw [serdeString, List.mem_append, List.mem_cons, List.mem_singleton]
  rintro ((quote | member) | quote)
  · exact absurd quote (by decide)
  · obtain ⟨c, listed, inside⟩ := List.mem_flatMap.mp member
    rcases serde_char_mem inside with same | escape
    · exact free (same ▸ listed)
    · exact absurd escape (by decide)
  · exact absurd quote (by decide)

section Printed
variable {body : List Char} (some_ : body ≠ []) (plain : ∀ c ∈ body, c ≠ flagCloser ∧ 32 ≤ c.toNat ∧
    c.toNat ≠ 34 ∧ c.toNat ≠ 92)
include some_ plain

/-- What stands behind the flag in a full answer. -/
def behindBody (id : String) (viewer : List Char) : List Char :=
  quoteMark :: ',' :: (serdeString "branch".toList ++ ':' :: (serdeString "settlement-note".toList ++ ',' ::
    (serdeString "id".toList ++
      ':' :: (serdeString id.toList ++ ',' :: (serdeString "viewer".toList ++ ':' ::
      (serdeString viewer ++ ['\x7d']))))))

omit some_ in
theorem full_text (id : String) (viewer : List Char) :
    (SettlementAnswer.full id "settlement-note" (String.ofList (flagOf body)) viewer).text =
      ('\x7b' :: (serdeString "body".toList ++ [':', quoteMark])) ++
      (flagOpener ++ body ++ flagCloser :: behindBody id viewer) := by
  have flagPlain : ∀ c ∈ flagOf body, 32 ≤ c.toNat ∧ c.toNat ≠ 34 ∧ c.toNat ≠ 92 := by
    intro c member
    rw [flagOf, List.mem_append, List.mem_append, List.mem_singleton] at member
    rcases member with (front | inside) | rfl
    · have table : flagOpener.all (fun c => decide (32 ≤ c.toNat ∧ c.toNat ≠ 34 ∧ c.toNat ≠ 92)) =
          true := by decide
      exact of_decide_eq_true (List.all_eq_true.mp table c front)
    · exact (plain c inside).2
    · decide
  have flag : serdeString (flagOf body) = quoteMark :: (flagOpener ++ body ++ [flagCloser]) ++
      [quoteMark] := by
    rw [serdeString, serde_plain flagPlain, flagOf]
  simp only [SettlementAnswer.text, serdeObject, List.map_cons, List.map_nil, List.intercalate_cons_cons,
    List.intercalate_singleton, String.toList_ofList]
  rw [flag]
  simp only [behindBody, List.append_assoc, List.cons_append, List.nil_append]

omit some_ plain in
theorem behind_brace {id : String} {viewer : List Char} (idFree : '\x7b' ∉ id.toList)
    (viewerFree : '\x7b' ∉ viewer) :
    '\x7b' ∉ behindBody id viewer := by
  simp only [behindBody, List.mem_cons, List.mem_append, List.not_mem_nil, or_false, not_or]
  exact ⟨by decide, by decide, serde_brace (by decide), by decide, serde_brace (by decide), by decide,
    serde_brace (by decide),
    by decide, serde_brace idFree, by decide, serde_brace (by decide), by decide,
    serde_brace viewerFree, by decide⟩

/-- The flag is the only match in the text of a full answer. -/
theorem full_flags {id : String} {viewer : List Char} (idFree : '\x7b' ∉ id.toList)
    (viewerFree : '\x7b' ∉ viewer) :
    findFlags (SettlementAnswer.full id "settlement-note" (String.ofList (flagOf body))
      viewer).text = [flagOf body] := by
  have opener : flagOpener = ['F', 'L', 'A', 'G', '\x7b'] := by decide
  have filled : flagOpener ≠ [] := opener ▸ List.cons_ne_nil _ _
  have used : '\x7b' ∈ flagOpener := opener ▸ by decide
  -- No F stands before the flag, and no opening brace behind it.
  have front : 'F' ∉ '\x7b' :: (serdeString "body".toList ++ [':', quoteMark]) := by decide
  have nothing : brackets flagOpener flagCloser (behindBody id viewer) = [] :=
    brackets_lacking filled used (behind_brace idFree viewerFree)
  have skipped := @brackets_skip _ _ flagCloser _ ['L', 'A', 'G', '\x7b'] _ front
    (flagOpener ++ body ++ flagCloser :: behindBody id viewer)
  rw [← opener] at skipped
  rw [findFlags, full_text plain, skipped,
    brackets_match filled some_ (fun member => (plain _ member).1 rfl), nothing]
  rfl

end Printed

/-! The loop. -/

/-- A forged viewer ends in the scope of an admin, so the only question is its token. -/
theorem read_extended {env : Env} {state : AppState} {id : String} {row : Settlement}
    (stored : state.db.settlements.get? id = some row) (front : List UInt8) {token : String}
    (filled : token ≠ "") :
    readSettlement env state id (some (String.ofList (Base64.urlEncode (front ++ adminScope))))
      (some token) = if signSettlementToken env id (front ++ adminScope) = token
      then .full id row.branch row.body (lossy (front ++ adminScope)) else .error 401 "bad_token" := by
  have decoded := url_safe_encode (front ++ adminScope)
  have viewer : String.ofList (Base64.urlEncode (front ++ adminScope)) ≠ "" := by
    intro none
    have empty : urlSafeDecode "" = some [] := by decide
    rw [none, empty, Option.some.injEq] at decoded
    have filled : adminScope ≠ [] := admin_scope.1 ▸ List.cons_ne_nil _ _
    exact filled (List.append_eq_nil_iff.mp decoded.symm).2
  simp only [readSettlement, Option.getD_some]
  rw [if_neg (not_or.mpr ⟨viewer, filled⟩), decoded]
  dsimp only
  by_cases right : signSettlementToken env id (front ++ adminScope) = token
  · rw [if_neg (not_not_intro right), if_pos right, stored]
    exact if_pos (extended_scopes front)
  · rw [if_pos right, if_neg right]

/-- The attack info of a settlement: its id, the public viewer, and that viewer's token. -/
def settlementInfo (env : Env) (id : String) : SettlementInfo :=
  ⟨id, "public", signSettlementToken env id (utf8 "public"), 1⟩

section Loop
variable {env : Env} (real : env.sha = Sha256.sha256) {buf : List UInt8} (drawn : buf.length = 8)
include drawn

theorem random_id_length : (utf8 (randomId "stl" buf)).length = 20 := by
  rw [randomId, utf8_append, List.length_append, part_sizes.1, utf8_hex_length, drawn]

omit drawn in
theorem random_id_brace : '\x7b' ∉ (randomId "stl" buf).toList := by
  rw [randomId, String.toList_append, List.mem_append]
  rintro (tag | digit)
  · exact absurd tag (by decide)
  · exact absurd (hex_text_digits buf _ digit) (by decide)

theorem head_length : (utf8 ("|" ++ randomId "stl" buf ++ "|")).length = 22 := by
  obtain ⟨-, bar, -⟩ := part_sizes
  rw [utf8_append, utf8_append, List.length_append, List.length_append, bar, random_id_length drawn]

theorem signed_length :
    (signedBytes env (randomId "stl" buf) (utf8 "public")).length =
      (utf8 env.checkerSecret).length + 28 := by
  obtain ⟨-, bar, scope⟩ := part_sizes
  simp only [signedBytes, List.length_append, bar, scope, random_id_length drawn]

omit drawn in
theorem crafted_brace {length : Nat} (short : length < 128) :
    '\x7b' ∉ lossy (utf8 "public" ++ Sha256.glue length ++ adminScope) := by
  intro member
  obtain ⟨byte, inside, value⟩ := lossy_from member (by decide)
  have brace : byte.toNat = 0x7b := value
  rcases List.mem_append.mp inside with front | last
  · rcases List.mem_append.mp front with first | middle
    · exact scopes_brace byte (List.mem_append_left _ first) brace
    · exact glue_brace short byte middle brace
  · exact scopes_brace byte (List.mem_append_right _ last) brace

variable {body : List Char} (some_ : body ≠ []) (plain : ∀ c ∈ body, c ≠ flagCloser ∧ 32 ≤ c.toNat ∧
    c.toNat ≠ 34 ∧ c.toNat ≠ 92)
include some_ plain real

/-- Every round either is refused or prints the flag, and the one with the length of the secret is
not refused. -/
theorem loop_prints {moments : Nat → AppState} {row : Settlement} (branch : row.branch = "settlement-note")
    (flag : row.body = String.ofList (flagOf body))
    (stored : ∀ n, (moments n).db.settlements.get? (randomId "stl" buf) = some row) {lengths : List Nat}
    (short : ∀ n ∈ lengths, n ≤ 96) (hit : (utf8 env.checkerSecret).length ∈ lengths) :
    exp2Loop env moments (settlementInfo env (randomId "stl" buf)) lengths =
      .printed [flagOf body] := by
  induction lengths with
  | nil => cases hit
  | cons n rest ih =>
      have bound := short n List.mem_cons_self
      obtain ⟨-, -, scope⟩ := part_sizes
      have whole : n + (utf8 ("|" ++ randomId "stl" buf ++ "|")).length + (utf8 "public").length =
          n + 28 := by
        rw [head_length drawn, scope]
      obtain ⟨digest, forged, matches_, size⟩ := extend_public real (randomId "stl" buf) (n + 28) adminScope
      have filled : hexEncode digest ≠ "" := by
        intro none
        have long := hex_text_length digest
        rw [none, size] at long
        cases long
      rw [settlementInfo] at ih ⊢
      simp only [exp2Loop]
      rw [whole, forged]
      dsimp only
      rw [read_extended (stored n) _ filled]
      by_cases right : signSettlementToken env (randomId "stl" buf)
          (utf8 "public" ++ Sha256.glue (n + 28) ++ adminScope) = hexEncode digest
      · rw [if_pos right, branch, flag, full_flags some_ plain random_id_brace (crafted_brace (by omega))]
        exact if_neg fun other => other rfl
      · have other : n ≠ (utf8 env.checkerSecret).length := fun same =>
          right (matches_ (by rw [same, signed_length drawn])).symm
        rw [if_neg right]
        refine (if_pos (show (401 : Nat) ≠ 200 by decide)).trans ?_
        exact ih (fun m member => short m (List.mem_cons_of_mem _ member))
          ((List.mem_cons.mp hit).resolve_left other.symm)

end Loop

/-- A settlement stays as it is. -/
theorem settlement_kept {env : Env} {state last : AppState} {id : String} {row : Settlement}
    (sound : Sound state) (stored : state.db.settlements.get? id = some row) {inputs : List Input}
    (ran : run env state inputs = some last) :
    last.db.settlements.get? id = some row :=
  (steps_invariant (fun state => Sound state ∧ state.db.settlements.get? id = some row)
    (fun _ _ _ kept _ taken => ⟨sound_after kept.1 taken,
      (flags_after kept.1.seeded taken).settlements id row kept.2⟩)
    ⟨sound, stored⟩ (exec_steps inputs state last ran)).2

/-- Where the secret has 8 to 96 bytes, the exploit reads every flag that the checker plants in a
settlement: whatever comes before the planting, between it and the exploit, and between the
exploit's requests. -/
theorem length_extension_prints (env : Env) (real : env.sha = Sha256.sha256)
    (long : 8 ≤ (utf8 env.checkerSecret).length)
    (short : (utf8 env.checkerSecret).length ≤ 96) {bootId : String} {bootNow : Int}
    {start before : AppState}
    (booted : boot env {} bootId bootNow = some start) {earlier : List Input}
    (reached : run env start earlier = some before)
    {buf : List UInt8} (drawn : buf.length = 8)
    (fresh : randomId "stl" buf ∉ before.db.settlements.keys) (tick now : Int)
    {body : List Char} (some_ : body ≠ []) (plain : ∀ c ∈ body, c ≠ flagCloser ∧ 32 ≤ c.toNat ∧
      c.toNat ≠ 34 ∧ c.toNat ≠ 92) {moments : Nat → AppState}
    (later : ∀ n, ∃ inputs,
      run env (putFlag env before tick 1 (String.ofList (flagOf body)) (randomId "stl" buf) now).1 inputs =
        some (moments n)) :
    (putFlag env before tick 1 (String.ofList (flagOf body)) (randomId "stl" buf) now).2 =
        (settlementInfo env (randomId "stl" buf)).text tick ∧
      exp2 env moments (settlementInfo env (randomId "stl" buf)) = .printed [flagOf body] := by
  have taken : step env before (.putFlag tick 1 (String.ofList (flagOf body)) (randomId "stl" buf) now) =
      some (putFlag env before tick 1 (String.ofList (flagOf body)) (randomId "stl" buf) now).1 := rfl
  have planted := sound_after (reached_sound (booted_sound booted) reached) taken
  have moment (n : Nat) : (moments n).db.settlements.get? (randomId "stl" buf) = some ⟨"settlement-note",
      String.ofList (flagOf body), "public", signSettlementToken env (randomId "stl" buf)
      (utf8 "public"), tick, now⟩ := by
    obtain ⟨inputs, ran⟩ := later n
    exact settlement_kept planted (put_settlement_stored fresh now) ran
  have one : ¬(1 : Int) ≠ 1 := fun other => other rfl
  refine ⟨rfl, (if_neg one).trans ?_⟩
  refine loop_prints real drawn some_ plain rfl rfl moment (fun n member => ?_) ?_
  · obtain ⟨i, inside, rfl⟩ := List.mem_map.mp member
    rw [List.mem_range] at inside
    omega
  · exact List.mem_map.mpr ⟨(utf8 env.checkerSecret).length - 8, List.mem_range.mpr (by omega), by omega⟩

/-- Behind a registration and noise. -/
def beforeSettlement : AppState :=
  (run mirrorEnv mirrorStart [.register 0 "mirror" "password" "password",
    .putNoise 1 0 "stl-1" 0]).get (by decide +kernel)

def settledState : AppState :=
  (putFlag mirrorEnv beforeSettlement 7 1 (String.ofList (flagOf "seven".toList))
    (randomId "stl" (List.replicate 8 7)) 0).1

/-- What comes behind the planting, one request before each of the exploit's. -/
def settlementTraffic : List Input :=
  [.commit (some "1.14400") 0 "public" "notes" none, .putNoise 2 0 "stl-2" 5, .cycle 1800001,
    .restart "stl-3" 1800002]

def settlementMoment (n : Nat) : AppState :=
  (run mirrorEnv settledState (settlementTraffic.take (n + 1))).getD settledState

theorem settlement_moments (n : Nat) :
    ∃ inputs, run mirrorEnv settledState inputs = some (settlementMoment n) := by
  have ran (front : List Input) (listed : front ∈ settlementTraffic.inits) :
      run mirrorEnv settledState front = some ((run mirrorEnv settledState front).getD settledState) := by
    have every : ∀ front ∈ settlementTraffic.inits, (run mirrorEnv settledState front).isSome = true :=
      by decide +kernel
    obtain ⟨last, done⟩ := Option.isSome_iff_exists.mp (every front listed)
    rw [done, Option.getD_some]
  exact ⟨settlementTraffic.take (n + 1), ran _ ((List.mem_inits _ _).mpr (List.take_prefix _ _))⟩

theorem mirror_settlement_read :
    (putFlag mirrorEnv beforeSettlement 7 1 (String.ofList (flagOf "seven".toList))
        (randomId "stl" (List.replicate 8 7)) 0).2 =
        (settlementInfo mirrorEnv (randomId "stl" (List.replicate 8 7))).text 7 ∧
      exp2 mirrorEnv settlementMoment (settlementInfo mirrorEnv (randomId "stl" (List.replicate 8 7))) =
        .printed ["FLAG\x7bseven\x7d".toList] := by
  have secret : (utf8 mirrorEnv.checkerSecret).length = 13 := by decide +kernel
  have fresh : randomId "stl" (List.replicate 8 7) ∉ beforeSettlement.db.settlements.keys := by
    decide +kernel
  have table :
      "seven".toList.all (fun c => decide (c ≠ flagCloser ∧ 32 ≤ c.toNat ∧ c.toNat ≠ 34 ∧
        c.toNat ≠ 92)) = true := by
    decide
  exact length_extension_prints mirrorEnv rfl (by omega) (by omega)
    (Option.some_get _).symm (Option.some_get _).symm
    rfl fresh 7 0 (by decide)
    (fun c member => of_decide_eq_true (List.all_eq_true.mp table c member)) settlement_moments

end KosSim.LedgerForge
