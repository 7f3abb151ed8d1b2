import KosSim.GameTimer
import KosSim.Library.Base64

/-!
flag_crypto.py: a flag is FLAG{body} with 32 characters of unpadded base64url
over 8 header bytes (four little-endian 16-bit fields) and 16 bytes of HMAC.
decode_flag checks the length of the body, the decoded length and the digest,
but base64.urlsafe_b64decode also reads `+` and `/`, which make_flag never emits.
-/

namespace KosSim.FlagCrypto
open Library.Base64

/-- A Python str; every flag string of the model is one. -/
abbrev Text := List Char

def flagPrefix : Text := ['F', 'L', 'A', 'G']
def macLength : Nat := 16
def headerLength : Nat := 8
def flagBodyLength : Nat := headerLength + macLength
def flagInnerChars : Nat := flagBodyLength * 4 / 3

def flagRegexPattern : String := "FLAG\\\x7b[A-Za-z0-9_\\-=]\x7b32,36\x7d\\\x7d"

structure FlagInfo where
  tick : Int
  teamId : Int
  serviceId : Int
  payload : Int
  deriving DecidableEq

/-- struct.pack("<H", value & 0xFFFF) -/
def packWord (value : Int) : List UInt8 :=
  let word := (value % 65536).toNat
  [UInt8.ofNat (word % 256), UInt8.ofNat (word / 256)]

def packHeader (tick teamId serviceId payload : Int) : List UInt8 :=
  packWord tick ++ packWord teamId ++ packWord serviceId ++ packWord payload

def unpackWord (low high : UInt8) : Int := (low.toNat + 256 * high.toNat : Nat)

/-- struct.unpack("<HHHH", header); decode_flag only calls it on 8 bytes. -/
def unpackHeader : List UInt8 → Option FlagInfo
  | [a, b, c, d, e, f, g, h] =>
      some ⟨unpackWord a b, unpackWord c d, unpackWord e f, unpackWord g h⟩
  | _ => none

def digest (env : Settings) (header : List UInt8) : List UInt8 := (env.hmac header).take macLength

def rstripPad (text : Text) : Text := (text.reverse.dropWhile (· == '=')).reverse

def makeFlag (env : Settings) (tick teamId serviceId payload : Int) : Text :=
  let header := packHeader tick teamId serviceId payload
  let body := rstripPad (urlsafeB64encode (header ++ digest env header))
  flagPrefix ++ ['{'] ++ body ++ ['}']

/-- body.encode("ascii") raises on any other character. -/
def ascii (c : Char) : Bool := decide (c.toNat < 128)

def flagBody (flag : Text) : Text := (flag.drop (flagPrefix.length + 1)).dropLast

def decodeFlag (env : Settings) (flag : Text) : Option FlagInfo :=
  if (flagPrefix ++ ['{']).isPrefixOf flag = false ∨ ['}'].isSuffixOf flag = false then none
  else
    let body := flagBody flag
    if body.length ≠ flagInnerChars then none
    else if body.all ascii = false then none
    else match urlsafeB64decode body with
      | none => none
      | some blob =>
          if blob.length ≠ flagBodyLength then none
          else
            let header := blob.take headerLength
            let mac := blob.drop headerLength
            if mac ≠ digest env header then none else unpackHeader header

/-! `Canonical` flags use only the alphabet that make_flag emits. -/

def canonical (flag : Text) : Bool := flag.all fun c => c != '+' && c != '/'

theorem word_injective (a b c d : UInt8) (same : unpackWord a b = unpackWord c d) : a = c ∧ b = d := by
  unfold unpackWord at same
  have boundA := a.toNat_lt
  have boundC := c.toNat_lt
  constructor
  · apply UInt8.toNat_inj.mp; omega
  · apply UInt8.toNat_inj.mp; omega

theorem header_injective (first second : List UInt8) (info : FlagInfo)
    (firstInfo : unpackHeader first = some info) (secondInfo : unpackHeader second = some info) :
    first = second := by
  unfold unpackHeader at firstInfo secondInfo
  split at firstInfo
  · split at secondInfo
    · next a b c d e f g h _ a' b' c' d' e' f' g' h' =>
      have same := (Option.some.inj firstInfo).trans (Option.some.inj secondInfo).symm
      simp only [FlagInfo.mk.injEq] at same
      obtain ⟨tick, team, service, payload⟩ := same
      obtain ⟨rfl, rfl⟩ := word_injective _ _ _ _ tick
      obtain ⟨rfl, rfl⟩ := word_injective _ _ _ _ team
      obtain ⟨rfl, rfl⟩ := word_injective _ _ _ _ service
      obtain ⟨rfl, rfl⟩ := word_injective _ _ _ _ payload
      rfl
    · cases secondInfo
  · cases firstInfo

/-- Everything decode_flag has checked when it returns a FlagInfo. -/
theorem decode_flag_some (env : Settings) (flag : Text) (info : FlagInfo)
    (decoded : decodeFlag env flag = some info) :
    flag = flagPrefix ++ ['{'] ++ flagBody flag ++ ['}'] ∧ (flagBody flag).length = flagInnerChars ∧
      ∃ blob, urlsafeB64decode (flagBody flag) = some blob ∧ blob.length = flagBodyLength ∧
        blob.drop headerLength = digest env (blob.take headerLength) ∧
        unpackHeader (blob.take headerLength) = some info := by
  unfold decodeFlag at decoded
  split at decoded
  · cases decoded
  · next shape =>
    simp only [not_or, Bool.not_eq_false] at shape
    dsimp only at decoded
    split at decoded
    · cases decoded
    · next length =>
      split at decoded
      · cases decoded
      · split at decoded
        · cases decoded
        · next blob decodedBlob =>
          split at decoded
          · cases decoded
          · next blobLength =>
            split at decoded
            · cases decoded
            · next mac =>
              refine ⟨?_, Decidable.not_not.mp length, blob, decodedBlob, Decidable.not_not.mp blobLength,
                Decidable.not_not.mp mac, decoded⟩
              obtain ⟨rest, starts⟩ := List.isPrefixOf_iff_prefix.mp shape.1
              obtain ⟨start, ends⟩ := List.isSuffixOf_iff_suffix.mp shape.2
              have body : flagBody flag = rest.dropLast := by
                rw [← starts, flagBody]
                rfl
              have nonempty : rest ≠ [] := by
                rintro rfl
                rw [body] at length
                exact length (by decide)
              have closing : rest.getLast nonempty = '}' := by
                have last : flag.getLast? = some '}' := by rw [← ends]; simp
                rw [← starts, List.getLast?_append_of_ne_nil _ nonempty] at last
                exact Option.some.inj ((List.getLast?_eq_some_getLast nonempty).symm.trans last)
              rw [body, List.append_assoc, ← closing, List.dropLast_append_getLast nonempty]
              exact starts.symm

theorem from_urlsafe_char (c d : Char) (plus : c ≠ '+') (slash : c ≠ '/') (plus' : d ≠ '+')
    (slash' : d ≠ '/') (same : fromUrlsafe c = fromUrlsafe d) : c = d := by
  unfold fromUrlsafe at same
  by_cases dash : c = '-'
  · by_cases dash' : d = '-'
    · rw [dash, dash']
    · by_cases low' : d = '_'
      · simp [dash, low'] at same
      · simp only [dash, dash', low', ↓reduceIte] at same
        exact absurd same.symm plus'
  · by_cases low : c = '_'
    · by_cases dash' : d = '-'
      · simp [low, dash'] at same
      · by_cases low' : d = '_'
        · rw [low, low']
        · simp only [low, dash', low', ↓reduceIte] at same
          exact absurd same.symm slash'
    · by_cases dash' : d = '-'
      · simp only [dash, low, dash', ↓reduceIte] at same
        exact absurd same plus
      · by_cases low' : d = '_'
        · simp [dash, low, low'] at same
          exact absurd same slash
        · simpa [dash, low, dash', low'] using same

theorem from_urlsafe_injective (first second : Text) (firstClean : canonical first = true)
    (secondClean : canonical second = true) (same : first.map fromUrlsafe = second.map fromUrlsafe) :
    first = second := by
  induction first generalizing second with
  | nil => exact (List.map_eq_nil_iff.mp same.symm).symm
  | cons c rest ih =>
      cases second with
      | nil => cases same
      | cons d others =>
          simp only [List.map_cons, List.cons.injEq] at same
          simp only [canonical, List.all_cons, Bool.and_eq_true, bne_iff_ne] at firstClean secondClean
          have tail := ih others firstClean.2 secondClean.2 same.2
          have head :=
            from_urlsafe_char c d firstClean.1.1 firstClean.1.2 secondClean.1.1 secondClean.1.2 same.1
          rw [head, tail]

/-- Canonical strings that decode to one FlagInfo are one string: the header is
determined by its fields, the digest by the header and the body by both. -/
theorem decode_flag_injective (env : Settings) (first second : Text) (info : FlagInfo)
    (firstClean : canonical first = true) (secondClean : canonical second = true)
    (firstDecoded : decodeFlag env first = some info) (secondDecoded : decodeFlag env second = some info) :
    first = second := by
  obtain ⟨firstShape, firstLength, blob, firstBlob, blobLength, blobMac, blobInfo⟩ :=
    decode_flag_some env first info firstDecoded
  obtain ⟨secondShape, secondLength, other, otherBlob, _, otherMac, otherInfo⟩ :=
    decode_flag_some env second info secondDecoded
  have header := header_injective _ _ info blobInfo otherInfo
  have sameBlob : other = blob := by
    rw [← List.take_append_drop headerLength other, ← List.take_append_drop headerLength blob, blobMac,
      otherMac, header]
  rw [sameBlob] at otherBlob
  have bodyClean (flag : Text) (clean : canonical flag = true) : canonical (flagBody flag) = true := by
    simp only [canonical, List.all_eq_true] at clean ⊢
    exact fun c member => clean c (List.mem_of_mem_drop (List.mem_of_mem_dropLast member))
  have mapped := b64decode_injective _ _ blob
    (by rw [List.length_map, List.length_map, firstLength, secondLength])
    (by rw [List.length_map, firstLength, blobLength]; decide) firstBlob otherBlob
  have body := from_urlsafe_injective _ _ (bodyClean first firstClean) (bodyClean second secondClean) mapped
  rw [firstShape, secondShape, body]

end KosSim.FlagCrypto
