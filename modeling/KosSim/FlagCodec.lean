import KosSim.Platform

/-!
make_flag against decode_flag. Every flag decodes to its own fields. A string
decodes to them as soon as it is the flag up to `+` for `-` and `/` for `_`, so
the two are inverse on every string but those respellings.
-/

namespace KosSim.FlagCodec
open Library.Base64 FlagCrypto Platform

def InRange (value : Int) : Prop := 0 ≤ value ∧ value ≤ 65535

structure Fits (info : FlagInfo) : Prop where
  tick : InRange info.tick
  teamId : InRange info.teamId
  serviceId : InRange info.serviceId
  payload : InRange info.payload

def flagOf (env : Settings) (info : FlagInfo) : Text :=
  makeFlag env info.tick info.teamId info.serviceId info.payload

/-- The flag as make_flag would spell it. -/
def spelled (flag : Text) : Text := flag.map toUrlsafe

/-- A flag of make_flag, but with `+` or `/` in it. -/
def Respelled (env : Settings) (flag : Text) : Prop :=
  canonical flag = false ∧ ∃ info, Fits info ∧ spelled flag = flagOf env info

/-! The header. -/

theorem unpack_pack (value : Int) (fits : InRange value) :
    ∃ low high, packWord value = [low, high] ∧ unpackWord low high = value := by
  obtain ⟨lower, upper⟩ := fits
  refine ⟨_, _, rfl, ?_⟩
  have word : ((value % 65536).toNat : Int) = value := by omega
  simp only [unpackWord, UInt8.toNat_ofNat']
  omega

theorem unpack_header (info : FlagInfo) (fits : Fits info) :
    unpackHeader (packHeader info.tick info.teamId info.serviceId info.payload) = some info := by
  obtain ⟨a, b, tick, sameTick⟩ := unpack_pack info.tick fits.tick
  obtain ⟨c, d, teamId, sameTeam⟩ := unpack_pack info.teamId fits.teamId
  obtain ⟨e, f, serviceId, sameService⟩ := unpack_pack info.serviceId fits.serviceId
  obtain ⟨g, h, payload, samePayload⟩ := unpack_pack info.payload fits.payload
  rw [packHeader, tick, teamId, serviceId, payload]
  simp only [List.cons_append, List.nil_append, unpackHeader, sameTick, sameTeam, sameService, samePayload]

theorem unpack_word_range (low high : UInt8) : InRange (unpackWord low high) := by
  have lowBound := low.toNat_lt
  have highBound := high.toNat_lt
  unfold unpackWord
  constructor <;> omega

theorem unpack_fits (header : List UInt8) (info : FlagInfo)
    (unpacked : unpackHeader header = some info) : Fits info := by
  unfold unpackHeader at unpacked
  split at unpacked
  · cases unpacked
    exact ⟨unpack_word_range _ _, unpack_word_range _ _, unpack_word_range _ _, unpack_word_range _ _⟩
  · cases unpacked

/-! decode_flag on a string of the right shape. -/

section Decode
variable {env : Settings}

theorem flag_body_of (body : Text) : flagBody (flagPrefix ++ ['{'] ++ body ++ ['}']) = body := by
  simp [flagBody, flagPrefix]

theorem shaped (body : Text) :
    ¬ ((flagPrefix ++ ['{']).isPrefixOf (flagPrefix ++ ['{'] ++ body ++ ['}']) = false ∨
      ['}'].isSuffixOf (flagPrefix ++ ['{'] ++ body ++ ['}']) = false) := by
  rw [not_or, Bool.not_eq_false, Bool.not_eq_false]
  constructor
  · rw [List.isPrefixOf_iff_prefix, List.append_assoc]
    exact List.prefix_append _ _
  · rw [List.isSuffixOf_iff_suffix]
    exact List.suffix_append _ _

theorem decode_body (body : Text) (blob : List UInt8) (info : FlagInfo)
    (length : body.length = flagInnerChars) (plainText : body.all ascii = true)
    (decoded : urlsafeB64decode body = some blob) (whole : blob.length = flagBodyLength)
    (mac : blob.drop headerLength = digest env (blob.take headerLength))
    (header : unpackHeader (blob.take headerLength) = some info) :
    decodeFlag env (flagPrefix ++ ['{'] ++ body ++ ['}']) = some info := by
  rw [decodeFlag, if_neg (shaped body), flag_body_of]
  simp only [length, plainText, decoded, whole, mac, header, ne_eq, not_true_eq_false,
    Bool.true_eq_false, ↓reduceIte]

end Decode

/-! What make_flag emits. -/

def emitted (c : Char) : Bool := ascii c && c != '=' && canonical [c]

theorem emitted_digit (v : Nat) : emitted (toUrlsafe (digit v)) = true := by
  by_cases bound : v < 64
  · have all : ∀ v < 64, emitted (toUrlsafe (digit v)) = true := by decide
    exact all v bound
  · rw [digit, if_neg (by omega), if_neg (by omega), if_neg (by omega), if_neg (by omega)]
    rfl

theorem emitted_body (blob : List UInt8) (whole : 3 ∣ blob.length) :
    ∀ c ∈ urlsafeB64encode blob, emitted c = true := by
  intro c member
  obtain ⟨d, inside, rfl⟩ := List.mem_map.mp member
  obtain ⟨v, rfl⟩ := (encode_whole blob whole).2 d inside
  exact emitted_digit v

theorem emitted_spec {c : Char} (written : emitted c = true) :
    ascii c = true ∧ c ≠ '=' ∧ c ≠ '+' ∧ c ≠ '/' := by
  simp only [emitted, canonical, List.all_cons, List.all_nil, Bool.and_true, Bool.and_eq_true,
    bne_iff_ne] at written
  exact ⟨written.1.1, written.1.2, written.2⟩

theorem rstrip_unpadded (text : Text) (unpadded : ∀ c ∈ text, c ≠ '=') : rstripPad text = text := by
  unfold rstripPad
  cases reversed : text.reverse with
  | nil => rw [List.reverse_eq_nil_iff.mp reversed]; rfl
  | cons last rest =>
      have other : last ≠ '=' :=
        unpadded last (List.mem_reverse.mp (by rw [reversed]; exact List.mem_cons_self))
      rw [List.dropWhile_cons_of_neg (by simpa using other), ← reversed, List.reverse_reverse]

/-- The bytes that the body of a flag encodes. -/
def flagBlob (env : Settings) (info : FlagInfo) : List UInt8 :=
  packHeader info.tick info.teamId info.serviceId info.payload ++
    digest env (packHeader info.tick info.teamId info.serviceId info.payload)

section Make
variable {env : Settings} (long : ∀ header, (env.hmac header).length = 32)
include long

theorem digest_length (header : List UInt8) : (digest env header).length = macLength := by
  rw [digest, List.length_take, long]
  rfl

theorem blob_length (info : FlagInfo) : (flagBlob env info).length = flagBodyLength := by
  rw [flagBlob, List.length_append, digest_length long]
  rfl

/-- 24 bytes are encoded without padding. -/
theorem blob_emitted (info : FlagInfo) {c : Char} (member : c ∈ urlsafeB64encode (flagBlob env info)) :
    emitted c = true := by
  have whole : 3 ∣ (flagBlob env info).length := by
    rw [blob_length long info]
    decide
  exact emitted_body _ whole c member

theorem make_flag_shape (info : FlagInfo) :
    flagOf env info = flagPrefix ++ ['{'] ++ urlsafeB64encode (flagBlob env info) ++ ['}'] := by
  rw [flagOf, makeFlag, rstrip_unpadded]
  · rfl
  · exact fun c member => (emitted_spec (blob_emitted long info member)).2.1

theorem body_length (info : FlagInfo) : (urlsafeB64encode (flagBlob env info)).length = flagInnerChars := by
  have whole := blob_length long info
  rw [urlsafeB64encode, List.length_map, (encode_whole _ (by rw [whole]; decide)).1, whole]
  rfl

theorem made_canonical (info : FlagInfo) : canonical (flagOf env info) = true := by
  rw [make_flag_shape long, canonical, List.all_append, List.all_append, Bool.and_eq_true, Bool.and_eq_true]
  refine ⟨⟨by decide, ?_⟩, by decide⟩
  rw [List.all_eq_true]
  intro c member
  rw [Bool.and_eq_true, bne_iff_ne, bne_iff_ne]
  exact (emitted_spec (blob_emitted long info member)).2.2

end Make

/-! Spellings. -/

theorem to_urlsafe_same (c : Char) (plus : c ≠ '+') (slash : c ≠ '/') : toUrlsafe c = c := by
  rw [toUrlsafe, if_neg plus, if_neg slash]

theorem to_from_urlsafe (c : Char) : toUrlsafe (fromUrlsafe c) = toUrlsafe c := by
  unfold fromUrlsafe
  split
  · next same => rw [same]; rfl
  split
  · next same => rw [same]; rfl
  rfl

theorem spelled_canonical (flag : Text) (clean : canonical flag = true) : spelled flag = flag := by
  refine (List.map_congr_left fun c member => ?_).trans (List.map_id flag)
  have outside := List.all_eq_true.mp clean c member
  rw [Bool.and_eq_true, bne_iff_ne, bne_iff_ne] at outside
  exact to_urlsafe_same c outside.1 outside.2

/-- A character that is not respelled is itself. -/
theorem to_urlsafe_eq {c d : Char} (same : toUrlsafe c = d) (dash : d ≠ '-') (low : d ≠ '_') : c = d := by
  unfold toUrlsafe at same
  split at same
  · exact absurd same.symm dash
  split at same
  · exact absurd same.symm low
  · exact same

theorem spelled_fixed {text other : Text} (same : spelled text = other)
    (plainText : other.all (fun c => c != '-' && c != '_') = true) : text = other := by
  induction text generalizing other with
  | nil => rw [← same]; rfl
  | cons c rest ih =>
      cases other with
      | nil => cases same
      | cons d others =>
          obtain ⟨head, tail⟩ := List.cons.inj same
          rw [List.all_cons, Bool.and_eq_true, Bool.and_eq_true, bne_iff_ne, bne_iff_ne] at plainText
          obtain ⟨⟨noDash, noScore⟩, others⟩ := plainText
          rw [to_urlsafe_eq head noDash noScore, ih tail others]

theorem ascii_spelled (c : Char) (plainText : ascii (toUrlsafe c) = true) : ascii c = true := by
  unfold toUrlsafe at plainText
  split at plainText
  · next same => rw [same]; decide
  split at plainText
  · next same => rw [same]; decide
  · exact plainText

/-! Decoding, up to the spelling. -/

section Codec
variable {env : Settings} (long : ∀ header, (env.hmac header).length = 32)
include long

omit long in
/-- The MAC covers the whole header, so what is accepted holds the blob of its own fields. -/
theorem decoded_blob {info : FlagInfo} {blob : List UInt8} (fits : Fits info)
    (mac : blob.drop headerLength = digest env (blob.take headerLength))
    (header : unpackHeader (blob.take headerLength) = some info) : blob = flagBlob env info := by
  have front : blob.take headerLength = packHeader info.tick info.teamId info.serviceId info.payload :=
    header_injective _ _ info header (unpack_header info fits)
  rw [← List.take_append_drop headerLength blob, mac, front]
  rfl

theorem decoded_spelled {flag : Text} {info : FlagInfo} (decoded : decodeFlag env flag = some info) :
    Fits info ∧ spelled flag = flagOf env info := by
  obtain ⟨shape, length, blob, decodedBlob, whole, mac, header⟩ := decode_flag_some env flag info decoded
  have fits := unpack_fits _ info header
  have bytes := decoded_blob fits mac header
  -- The standard decoder tells full bodies apart, so the translated body is the encoder's.
  have standard : (flagBody flag).map fromUrlsafe = b64encode blob := by
    have size := (encode_whole blob (by rw [whole]; decide)).1
    refine b64decode_injective _ _ blob ?_ ?_ decodedBlob (b64decode_encode blob)
    · rw [List.length_map, length, size, whole]
      rfl
    · rw [List.length_map, length, whole]
      decide
  have body : spelled (flagBody flag) = urlsafeB64encode blob := by
    rw [urlsafeB64encode, ← standard, List.map_map]
    exact List.map_congr_left fun c _ => (to_from_urlsafe c).symm
  refine ⟨fits, ?_⟩
  rw [make_flag_shape long, ← bytes, ← body, shape, flag_body_of]
  simp only [spelled, List.map_append]
  rfl

theorem spelled_decodes {flag : Text} {info : FlagInfo} (fits : Fits info)
    (same : spelled flag = flagOf env info) :
    decodeFlag env flag = some info := by
  rw [make_flag_shape long] at same
  obtain ⟨front, close, rfl, frontSame, closeSame⟩ := List.map_eq_append_iff.mp same
  obtain ⟨start, body, rfl, startSame, bodySame⟩ := List.map_eq_append_iff.mp frontSame
  rw [spelled_fixed startSame (by decide), spelled_fixed closeSame (by decide)]
  have front : (packHeader info.tick info.teamId info.serviceId info.payload).length = headerLength := rfl
  refine decode_body body (flagBlob env info) info ?_ ?_ ?_ (blob_length long info) ?_ ?_
  · rw [← body_length long info, ← bodySame, List.length_map]
  · rw [List.all_eq_true]
    intro c member
    have inside : toUrlsafe c ∈ body.map toUrlsafe := List.mem_map.mpr ⟨c, member, rfl⟩
    rw [bodySame] at inside
    exact ascii_spelled c (emitted_spec (blob_emitted long info inside)).1
  · -- translating back undoes every spelling
    have mapped : body.map fromUrlsafe = (body.map toUrlsafe).map fromUrlsafe := by
      rw [List.map_map]
      exact List.map_congr_left fun c _ => (from_to_urlsafe c).symm
    rw [urlsafeB64decode, mapped, bodySame]
    exact urlsafe_decode_encode _
  · rw [flagBlob, ← front, List.drop_left, List.take_left]
  · rw [flagBlob, ← front, List.take_left]
    exact unpack_header info fits

/-- decode_flag accepts exactly the flags, in any spelling. -/
theorem decode_flag_iff (flag : Text) (info : FlagInfo) :
    decodeFlag env flag = some info ↔ Fits info ∧ spelled flag = flagOf env info :=
  ⟨decoded_spelled long, fun held => spelled_decodes long held.1 held.2⟩

/-- The codec is an inverse pair on a string unless the string is a respelled flag. -/
theorem codec_exact_iff (flag : Text) :
    (∀ info, decodeFlag env flag = some info ↔ flag = flagOf env info ∧ Fits info) ↔
      ¬ Respelled env flag := by
  constructor
  · rintro exact_ ⟨unclean, info, fits, same⟩
    have decoded := (decode_flag_iff long flag info).mpr ⟨fits, same⟩
    rw [((exact_ info).mp decoded).1, made_canonical long info] at unclean
    cases unclean
  · intro plainText info
    rw [decode_flag_iff long, and_comm]
    refine and_congr_left fun fits => ⟨fun same => ?_, fun same => ?_⟩
    · cases clean : canonical flag with
      | true => rw [← spelled_canonical flag clean, same]
      | false => exact absurd ⟨clean, info, fits, same⟩ plainText
    · rw [same, spelled_canonical _ (made_canonical long info)]

end Codec

theorem sample_digests (header : List UInt8) : (sampleSettings.hmac header).length = 32 := by
  have same : sampleSettings.hmac header = sampleHmac header := rfl
  rw [same, sampleHmac]
  split
  · rfl
  split
  · rfl
  rfl

theorem beta_flag_exact : canonical betaFlag = true ∧
    ∀ info, decodeFlag sampleSettings betaFlag = some info ↔ betaFlag = flagOf sampleSettings info ∧
    Fits info := by
  have clean : canonical betaFlag = true := by decide +kernel
  refine ⟨clean, (codec_exact_iff sample_digests betaFlag).mpr fun respelled => ?_⟩
  have unclean := respelled.1
  rw [clean] at unclean
  cases unclean

/-- The flag of team 2 with its `_` written as `/`. -/
def slashFlag : Text := "FLAG{AQACAAEAAACvLwv8eu0G2xXUsC1uTwF/}".toList

theorem slash_flag_accepted :
    decodeFlag sampleSettings slashFlag = some ⟨1, 2, 1, 0⟩ ∧
      slashFlag ≠ flagOf sampleSettings ⟨1, 2, 1, 0⟩ ∧
      ¬ ∀ env : Settings, (∀ header, (env.hmac header).length = 32) → ∀ (flag : Text) (info : FlagInfo),
        decodeFlag env flag = some info ↔ flag = flagOf env info ∧ Fits info := by
  have accepted : decodeFlag sampleSettings slashFlag = some ⟨1, 2, 1, 0⟩ := by decide +kernel
  have other : slashFlag ≠ flagOf sampleSettings ⟨1, 2, 1, 0⟩ := by decide +kernel
  exact ⟨accepted, other,
    fun exact_ => other ((exact_ sampleSettings sample_digests slashFlag ⟨1, 2, 1, 0⟩).mp accepted).1⟩

end KosSim.FlagCodec
