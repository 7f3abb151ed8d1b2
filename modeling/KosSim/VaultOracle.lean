import KosSim.Library.Bracketed
import KosSim.Library.Dict
import KosSim.Library.Hex
import KosSim.Library.Json
import KosSim.Library.PaddingOracle
import KosSim.Library.Sha256Blocks
import KosSim.VaultCrypt

/-!
The manifests of VaultGrid: the routes of the crypt sidecar, and exploits/exp2.py, which asks its
decrypt route about masks. Every ciphertext is decrypted so, and every manifest that was stored is
read.
-/

namespace KosSim.VaultCrypt
open Library

/-! The sidecar. -/

structure Sidecar where
  secret : String
  aes : Aes
  /-- serde_json::from_slice -/
  parse : Bytes → Option Json

def tenantKey (side : Sidecar) (tenant : String) : AesBlock where
  bytes := (hmac Sha256.sha256 (utf8 side.secret) (utf8 "vaultgrid-crypt:" ++ utf8 tenant)).take 16
  size := by rw [List.length_take, hmac, Sha256.sha256_length]; rfl

structure Manifest where
  tenant : String
  iv : AesBlock
  ciphertext : Bytes

structure StoreReq where
  id : String
  tenant : String
  plaintext : String

structure DecryptParams where
  tenant : String
  iv : String
  ct : String

/-- iv: the random bytes that a store draws. -/
inductive Request where
  | store (checkerSecret : Option String) (body : StoreReq) (iv : AesBlock)
  | show_ (id : String) (tenant : Option String)
  | decrypt (params : DecryptParams)

inductive Answer where
  | error (status : Nat) (text : String)
  | stored (id tenant iv ciphertext : String)
  | row (id tenant iv ciphertext : String)
  | manifest (value : Json) (tenant : String)

def Answer.status : Answer → Nat
  | .error status _ => status
  | _ => 200

variable (side : Sidecar)

/-- The iv and the bytes as they are decoded; none is a panic. -/
def decrypt (p : DecryptParams) : Option Answer :=
  match (hexDecode p.iv).filter fun v => v.length = 16 with
  | none => some (.error 400 "bad_iv")
  | some iv =>
      match (hexDecode p.ct).filter fun v => !v.isEmpty && v.length % 16 = 0 with
      | none => some (.error 400 "bad_ct")
      | some ct => do
          let ivArr ← copyFromSlice iv
          match ← decryptCbc side.aes (tenantKey side p.tenant) ivArr ct with
          | .error _ => pure (.error 400 "bad_padding")
          | .ok pt =>
              match side.parse pt with
              | some v => pure (.manifest v p.tenant)
              | none => pure (.error 422 "non_json_plaintext")

abbrev Manifests := Dict String Manifest

def handle (db : Manifests) : Request → Option (Manifests × Answer)
  | .store checkerSecret body iv =>
      if checkerSecret = some side.secret then do
        let ct ← encryptCbc side.aes (tenantKey side body.tenant) iv (utf8 body.plaintext)
        return (db.set body.id ⟨body.tenant, iv, ct⟩,
          .stored body.id body.tenant (hexEncode iv.bytes) (hexEncode ct))
      else some (db, .error 403 "forbidden")
  | .show_ id tenant =>
      match db.get? id with
      | none => some (db, .error 404 "not_found")
      | some row =>
          if ∀ asked ∈ tenant, asked = row.tenant then
            some (db, .row id row.tenant (hexEncode row.iv.bytes) (hexEncode row.ciphertext))
          else some (db, .error 403 "wrong_tenant")
  | .decrypt params => (decrypt side params).map fun answer => (db, answer)

/-- Requests one after the other; none is a panic in one of them. -/
def serveAll (db : Manifests) : List Request → Option Manifests
  | [] => some db
  | request :: rest => (handle side db request).bind fun next => serveAll next.1 rest

/-! The exploit. -/

/-- oracle(base, tenant, iv, ct) -/
def oracle (tenant : String) (iv ct : Bytes) : Bool :=
  (decrypt side ⟨tenant, hexEncode iv, hexEncode ct⟩).any fun answer => answer.status ≠ 400

def decryptBlock (asked : Bytes → Bytes → Bool) (prev target : Bytes) : Option Bytes :=
  (recover 16 fun suffix => asked suffix target).map fun intermediate =>
    List.zipWith (· ^^^ ·) intermediate prev

def decryptBlocks (asked : Bytes → Bytes → Bool) : Bytes → Bytes → List Bytes → Option Bytes
  | _, pt, [] => some pt
  | prev, pt, blk :: rest =>
      (decryptBlock asked prev blk).bind fun found => decryptBlocks asked blk (pt ++ found) rest

/-- none: an error is raised. -/
def decryptCiphertext (asked : Bytes → Bytes → Bool) (iv ct : Bytes) : Option Bytes :=
  if ct.length % 16 ≠ 0 ∨ ct.length = 0 then none else decryptBlocks asked iv [] (chunks 16 ct)

def stripPkcs7 (pt : Bytes) : Bytes :=
  match pt.getLast? with
  | none => pt
  | some last =>
      let pad := last.toNat
      if 1 ≤ pad ∧ pad ≤ 16 ∧ pt.drop (pt.length - pad) =
        List.replicate pad last then pt.take (pt.length - pad) else pt

structure AttackInfo where
  a : String
  b : String
  iv : String
  ciphertext : String
  p : Int

inductive Exit where
  | printed (flags : List (List Char))
  | code (status : Nat)
  | raised

/-- pt.decode, with Latin-1 where it is no UTF-8 -/
def textOf (pt : Bytes) : List Char :=
  match String.fromUTF8? pt.toByteArray with
  | some text => text.toList
  | none => pt.map fun byte => Char.ofNat byte.toNat

def findFlags (text : List Char) : List (List Char) := brackets "FLAG\x7b".toList '\x7d' text

def exp2 (info : AttackInfo) : Exit :=
  if info.p ≠ 1 then .code 2
  else
    match hexDecode info.iv, hexDecode info.ciphertext with
    | some iv, some ct =>
        if iv.length ≠ 16 then .code 1
        else
          match decryptCiphertext (oracle side info.b) iv ct with
          | none => .raised
          | some pt =>
              match findFlags (textOf (stripPkcs7 pt)) with
              | [] => .code 1
              | flags => .printed flags
    | _, _ => .raised

/-! What the answers tell. -/

variable {side}

theorem padded_iff {out : Bytes} (size : out.length = 16) :
    Padded 16 out ↔ ∃ p, unpad out = some (.ok p) := by
  constructor
  · rintro ⟨count, some_, fits, copies⟩
    have tail := (tail_copies out (UInt8.ofNat count) count (by omega)).mp fun i inside => by
      have here := copies (out.length - 1 - i) (by omega) (by omega)
      rw [List.getD_eq_getElem _ _ (by omega)] at here
      rw [List.getElem?_eq_getElem (by omega), here]
    rw [tail]
    exact ⟨_, unpad_copies _ some_ fits⟩
  · rintro ⟨p, accepted⟩
    have filled : out ≠ [] := fun none => by rw [none] at size; cases size
    rcases unpad_cases (size ▸ Nat.dvd_refl 16) filled with ⟨found, _, padded⟩ | refused
    · obtain ⟨some_, fits⟩ := @pad_length_bounds 16 (by decide) found
      have long := size
      rw [padded, padBlock, List.length_append, List.length_replicate] at long
      refine ⟨padLength 16 found, some_, fits, fun k from_ inside => ?_⟩
      rw [padded, padBlock, List.getD_append_right _ _ _ _ (by omega), List.getD_replicate _ (by omega)]
    · rw [refused] at accepted
      cases accepted

/-- The oracle says whether a block is padded under a mask. -/
theorem oracle_exact (tenant : String) (target : AesBlock) {mask : Bytes} (size : mask.length = 16) :
    oracle side tenant mask target.bytes = true ↔
      Padded 16 (List.zipWith (· ^^^ ·) (side.aes.decryptBlock (tenantKey side tenant) target).bytes
        mask) := by
  let iv : AesBlock := ⟨mask, size⟩
  have whole : target.bytes = joinBlocks [target] := (List.append_nil _).symm
  have plain := @decrypt_blocks side.aes (tenantKey side tenant) iv [target] (List.cons_ne_nil _ _)
  have one : joinBlocks (unchain Block.xor (side.aes.decryptBlock (tenantKey side tenant)) iv [target]) =
      List.zipWith (· ^^^ ·) (side.aes.decryptBlock (tenantKey side tenant) target).bytes mask :=
      List.append_nil _
  rw [← whole, one] at plain
  have long : (List.zipWith (· ^^^ ·) (side.aes.decryptBlock (tenantKey side tenant) target).bytes
      mask).length = 16 :=
    ((side.aes.decryptBlock (tenantKey side tenant) target).xor iv).size
  have ivRead : (hexDecode (hexEncode mask)).filter (fun v => v.length = 16) = some mask := by
    rw [hex_decode_encode, Option.filter_some, if_pos (decide_eq_true size)]
  have filled : (!target.bytes.isEmpty && decide (target.bytes.length % 16 = 0)) = true := by
    rw [Bool.and_eq_true, Bool.not_eq_true', List.isEmpty_eq_false_iff, target.size]
    refine ⟨fun none => ?_, rfl⟩
    have none_ := congrArg List.length none
    rw [target.size] at none_
    cases none_
  have ctRead : (hexDecode (hexEncode target.bytes)).filter (fun v => !v.isEmpty &&
      v.length % 16 = 0) = some target.bytes := by
    rw [hex_decode_encode, Option.filter_some, if_pos filled]
  have copied : copyFromSlice mask = some iv := dif_pos size
  rw [padded_iff long, oracle, decrypt, ivRead]
  dsimp only
  rw [ctRead]
  dsimp only
  rw [copied]
  show Option.any _ ((decryptCbc side.aes (tenantKey side tenant) iv target.bytes).bind _) = true ↔ _
  rw [plain]
  have nonempty : List.zipWith (· ^^^ ·)
      (side.aes.decryptBlock (tenantKey side tenant) target).bytes mask ≠ [] :=
    fun none => by rw [none] at long; cases long
  rcases unpad_cases (long.symm ▸ Nat.dvd_refl 16) nonempty with ⟨p, accepted, -⟩ | refused
  · rw [accepted, Option.bind_some]
    refine iff_of_true ?_ ⟨p, rfl⟩
    dsimp only
    cases side.parse p <;> rfl
  · rw [refused, Option.bind_some]
    refine iff_of_false (fun wrong => by cases wrong) ?_
    rintro ⟨p, wrong⟩
    cases wrong

theorem decrypt_block (tenant : String) (prev target : AesBlock) :
    decryptBlock (oracle side tenant) prev.bytes target.bytes =
      some ((side.aes.decryptBlock (tenantKey side tenant) target).xor prev).bytes := by
  have found : recover 16 (fun suffix => oracle side tenant suffix target.bytes) =
      some (side.aes.decryptBlock (tenantKey side tenant) target).bytes :=
    recover_exact (by decide) (side.aes.decryptBlock (tenantKey side tenant) target).size fun mask size =>
      oracle_exact tenant target size
  rw [decryptBlock, found]
  rfl

theorem decrypt_blocks_asked (tenant : String) (prev : AesBlock) (pt : Bytes)
    (blocks : List AesBlock) :
    decryptBlocks (oracle side tenant) prev.bytes pt (blocks.map (·.bytes)) =
      some (pt ++ joinBlocks (unchain Block.xor (side.aes.decryptBlock (tenantKey side tenant)) prev
        blocks)) := by
  induction blocks generalizing prev pt with
  | nil => rw [unchain, joinBlocks, List.flatMap_nil, List.append_nil]; rfl
  | cons block rest ih =>
      rw [List.map_cons, decryptBlocks, decrypt_block, Option.bind_some, ih, List.append_assoc]
      rfl

/-- Whoever may ask the route decrypts every ciphertext, under the key of every tenant. -/
theorem oracle_decrypts (side : Sidecar) (tenant : String) (iv : AesBlock) (blocks : List AesBlock)
    (filled : blocks ≠ []) :
    decryptCiphertext (oracle side tenant) iv.bytes (joinBlocks blocks) =
      some (joinBlocks (unchain Block.xor (side.aes.decryptBlock (tenantKey side tenant)) iv blocks)) := by
  have size := join_length blocks
  have some_ := List.length_pos_iff.mpr filled
  rw [decryptCiphertext, if_neg (by omega), chunks_blocks, decrypt_blocks_asked, List.nil_append]

theorem strip_padded (message : Bytes) : stripPkcs7 (padBlock 16 message) = message := by
  obtain ⟨some_, fits⟩ := @pad_length_bounds 16 (by decide) message
  obtain ⟨less, same⟩ : ∃ less, padLength 16 message = less + 1 := ⟨padLength 16 message - 1, by omega⟩
  have last : (padBlock 16 message).getLast? = some (UInt8.ofNat (padLength 16 message)) := by
    rw [padBlock, same, List.replicate_succ', ← List.append_assoc, List.getLast?_append,
      List.getLast?_singleton]
    rfl
  have size : (padBlock 16 message).length - padLength 16 message = message.length := by
    rw [padBlock, List.length_append, List.length_replicate, Nat.add_sub_cancel]
  have back : (padBlock 16 message).drop message.length = List.replicate (padLength 16 message)
      (UInt8.ofNat (padLength 16 message)) :=
    List.drop_left
  unfold stripPkcs7
  rw [last]
  dsimp only
  rw [byte_value fits, size, if_pos ⟨some_, fits, back⟩]
  exact List.take_left

theorem text_of_utf8 (text : String) : textOf (utf8 text) = text.toList := by rw [textOf, from_utf8_utf8]

/-! Runs. -/

def stores (side : Sidecar) (id : String) (last : Option (StoreReq × AesBlock)) :
    Request → Option (StoreReq × AesBlock)
  | .store checkerSecret body iv =>
      if checkerSecret = some side.secret ∧ body.id = id then some (body, iv) else last
  | _ => last

/-- The manifest that was stored last under an id, with the vector that was drawn for it. -/
def lastStored (side : Sidecar) (requests : List Request) (id : String) : Option (StoreReq × AesBlock) :=
  requests.foldl (stores side id) none

/-- A row is the encryption of a manifest. -/
def Seals (side : Sidecar) (row : Manifest) (stored : StoreReq × AesBlock) : Prop :=
  row.tenant = stored.1.tenant ∧ row.iv = stored.2 ∧
    encryptCbc side.aes (tenantKey side stored.1.tenant) stored.2 (utf8 stored.1.plaintext) =
      some row.ciphertext

/-- Each row is the encryption of the last manifest. -/
def Sealed (side : Sidecar) (db : Manifests) (last : String → Option (StoreReq × AesBlock)) : Prop :=
  ∀ id, (db.get? id = none ∧ last id = none) ∨
    ∃ row stored, db.get? id = some row ∧ last id = some stored ∧ Seals side row stored

theorem encrypt_total (aes : Aes) (key iv : AesBlock) (plaintext : Bytes) : ∃ blocks, blocks ≠ [] ∧
    joinBlocks blocks = padBlock 16 plaintext ∧
      encryptCbc aes key iv plaintext =
        some (joinBlocks (chain Block.xor (aes.encryptBlock key) iv blocks)) := by
  obtain ⟨blocks, padded⟩ := whole_blocks (padBlock 16 plaintext) (pad_block_whole (by decide) plaintext)
  refine ⟨blocks, fun none => ?_, padded, encrypt_blocks padded⟩
  obtain ⟨some_, -⟩ := @pad_length_bounds 16 (by decide) plaintext
  rw [none] at padded
  have size := congrArg List.length padded
  rw [padBlock, List.length_append, List.length_replicate] at size
  have zero : (joinBlocks ([] : List AesBlock)).length = 0 := rfl
  omega

theorem decrypt_answers (p : DecryptParams) : ∃ answer, decrypt side p = some answer := by
  unfold decrypt
  split
  · exact ⟨_, rfl⟩
  next iv read =>
  split
  · exact ⟨_, rfl⟩
  next ct taken =>
  obtain ⟨-, long⟩ := Option.filter_eq_some_iff.mp read
  obtain ⟨-, whole⟩ := Option.filter_eq_some_iff.mp taken
  rw [Bool.and_eq_true, Bool.not_eq_true', List.isEmpty_eq_false_iff, decide_eq_true_iff] at whole
  have copied : copyFromSlice iv = some ⟨iv, of_decide_eq_true long⟩ := dif_pos (of_decide_eq_true long)
  obtain ⟨blocks, rfl⟩ := whole_blocks (n := 16) ct (Nat.dvd_of_mod_eq_zero whole.2)
  have filled : blocks ≠ [] := fun none => whole.1 (none ▸ rfl)
  rw [copied]
  show ∃ answer, (decryptCbc side.aes (tenantKey side p.tenant) _ (joinBlocks blocks)).bind _ = some answer
  rw [decrypt_blocks filled]
  have nonempty :
      joinBlocks (unchain Block.xor (side.aes.decryptBlock (tenantKey side p.tenant)) ⟨iv,
        of_decide_eq_true long⟩ blocks) ≠ [] := by
    rw [← List.length_pos_iff, join_length, unchain_length]
    exact Nat.mul_pos (by decide) (List.length_pos_iff.mpr filled)
  rcases unpad_cases (by rw [join_length]; exact Nat.dvd_mul_right 16 _) nonempty with ⟨found, accepted,
    -⟩ | refused
  · rw [accepted, Option.bind_some]
    dsimp only
    cases side.parse found with
    | some value => exact ⟨_, rfl⟩
    | none => exact ⟨_, rfl⟩
  · rw [refused]
    exact ⟨_, rfl⟩

theorem handle_sealed {db : Manifests} {last : String → Option (StoreReq × AesBlock)}
    (held : Sealed side db last) (request : Request) :
    ∃ next, handle side db request = some next ∧
      Sealed side next.1 fun id => stores side id (last id) request := by
  cases request with
  | store checkerSecret body iv =>
      by_cases right : checkerSecret = some side.secret
      · obtain ⟨blocks, -, -, encrypted⟩ :=
          encrypt_total side.aes (tenantKey side body.tenant) iv (utf8 body.plaintext)
        refine ⟨_, by rw [handle, if_pos right, encrypted]; rfl, fun id => ?_⟩
        dsimp only [stores]
        rw [Dict.get_set]
        by_cases same : body.id = id
        · rw [if_pos same, if_pos ⟨right, same⟩]
          exact .inr ⟨_, _, rfl, rfl, rfl, rfl, encrypted⟩
        · rw [if_neg same, if_neg fun both => same both.2]
          exact held id
      · refine ⟨_, by rw [handle, if_neg right], fun id => ?_⟩
        dsimp only [stores]
        rw [if_neg fun both => right both.1]
        exact held id
  | show_ id tenant =>
      cases found : db.get? id with
      | none => exact ⟨_, by rw [handle, found], held⟩
      | some row =>
          by_cases own : ∀ asked ∈ tenant, asked = row.tenant
          · exact ⟨_, by rw [handle, found]; exact if_pos own, held⟩
          · exact ⟨_, by rw [handle, found]; exact if_neg own, held⟩
  | decrypt params =>
      obtain ⟨answer, answered⟩ := @decrypt_answers side params
      exact ⟨_, by rw [handle, answered]; rfl, held⟩

theorem serve_all_sealed {db : Manifests} {last : String → Option (StoreReq × AesBlock)}
    (held : Sealed side db last) (requests : List Request) :
    ∃ after, serveAll side db requests = some after ∧
      Sealed side after fun id => requests.foldl (stores side id) (last id) := by
  induction requests generalizing db last with
  | nil => exact ⟨db, rfl, held⟩
  | cons request rest ih =>
      obtain ⟨next, served, kept⟩ := handle_sealed held request
      obtain ⟨after, run, later⟩ := ih kept
      exact ⟨after, by rw [serveAll, served, Option.bind_some, run], later⟩

/-- What the exploit does with the text of a manifest. -/
def outcome (plaintext : String) : Exit :=
  match findFlags plaintext.toList with
  | [] => .code 1
  | flags => .printed flags

theorem exp2_sealed {row : Manifest} {stored : StoreReq × AesBlock} (id : String)
    (undone : ∀ block, side.aes.decryptBlock (tenantKey side stored.1.tenant)
      (side.aes.encryptBlock (tenantKey side stored.1.tenant) block) = block)
    (seals : Seals side row stored) :
    exp2 side ⟨id, row.tenant, hexEncode row.iv.bytes, hexEncode row.ciphertext, 1⟩ =
      outcome stored.1.plaintext := by
  obtain ⟨tenant, iv, encrypted⟩ := seals
  obtain ⟨blocks, filled, padded, sealed_⟩ :=
    encrypt_total side.aes (tenantKey side stored.1.tenant) row.iv (utf8 stored.1.plaintext)
  rw [← iv] at encrypted
  have ciphertext := Option.some.inj (encrypted.symm.trans sealed_)
  have chained : chain Block.xor (side.aes.encryptBlock (tenantKey side stored.1.tenant)) row.iv
      blocks ≠ [] := by
    rw [← List.length_pos_iff, chain_length]
    exact List.length_pos_iff.mpr filled
  have plain := oracle_decrypts side row.tenant row.iv _ chained
  rw [tenant, unchain_chain block_xor_undo undone, padded] at plain
  have one : ¬(1 : Int) ≠ 1 := fun other => other rfl
  have long : ¬row.iv.bytes.length ≠ 16 := fun other => other row.iv.size
  unfold exp2
  rw [if_neg one, hex_decode_encode, hex_decode_encode]
  dsimp only
  rw [if_neg long, ciphertext, tenant, plain]
  dsimp only
  rw [strip_padded, text_of_utf8]
  rfl

/-- In every run of the sidecar, for a key whose block functions undo each other: what is shown
under an id is the encryption of the last manifest, and it is enough to read that one, without any
secret. -/
theorem exp2_reads (side : Sidecar)
    (undone : ∀ key block, side.aes.decryptBlock key (side.aes.encryptBlock key block) = block)
    (requests : List Request) :
    ∃ db, serveAll side Dict.empty requests = some db ∧ ∀ id,
      match lastStored side requests id with
      | none => handle side db (.show_ id none) = some (db, .error 404 "not_found")
      | some (body, iv) => ∃ ct,
          encryptCbc side.aes (tenantKey side body.tenant) iv (utf8 body.plaintext) = some ct ∧
          handle side db (.show_ id none) =
            some (db, .row id body.tenant (hexEncode iv.bytes) (hexEncode ct)) ∧
          exp2 side ⟨id, body.tenant, hexEncode iv.bytes, hexEncode ct, 1⟩ = outcome body.plaintext := by
  have start : Sealed side Dict.empty fun _ => none := fun id => .inl ⟨Dict.get_empty id, rfl⟩
  obtain ⟨db, run, held⟩ : ∃ db, serveAll side Dict.empty requests = some db ∧
    Sealed side db (lastStored side requests) :=
    serve_all_sealed start requests
  refine ⟨db, run, fun id => ?_⟩
  rcases held id with ⟨none_, last⟩ | ⟨row, ⟨body, iv⟩, found, last, seals⟩
  · rw [last]
    dsimp only
    rw [handle, none_]
  · obtain ⟨tenant, drawn, encrypted⟩ := seals
    rw [last]
    dsimp only at tenant drawn encrypted ⊢
    refine ⟨row.ciphertext, encrypted, ?_, ?_⟩
    · rw [handle, found, ← tenant, ← drawn]
      exact if_pos fun _ member => (Option.not_mem_none _ member).elim
    · have read := @exp2_sealed side row (body, iv) id (undone _) ⟨tenant, drawn, encrypted⟩
      rw [← tenant, ← drawn]
      exact read

/-! A manifest under the first secret, written over an older one. -/

/-- The block behind the first vector, and the blocks of the second manifest. -/
def manifestPairs : List (AesBlock × AesBlock) :=
  [(⟨[70, 76, 65, 71, 123, 111, 108, 100, 125, 7, 7, 7, 7, 7, 7, 7], rfl⟩,
      ⟨[128, 179, 73, 191, 250, 146, 135, 44, 165, 106, 39, 212, 220, 29, 252, 98], rfl⟩),
    (⟨[70, 77, 67, 68, 127, 99, 111, 117, 123, 125, 119, 43, 99, 107, 46, 123], rfl⟩,
      ⟨[192, 22, 234, 140, 232, 94, 58, 76, 66, 126, 198, 211, 238, 169, 43, 6], rfl⟩),
    (⟨[183, 121, 198, 172, 174, 18, 123, 11, 57, 13, 163, 176, 129, 199, 79, 123], rfl⟩,
      ⟨[143, 64, 184, 199, 165, 159, 193, 99, 106, 2, 221, 36, 2, 197, 24, 113], rfl⟩),
    (⟨[159, 80, 168, 215, 181, 143, 209, 115, 122, 18, 205, 52, 18, 213, 8, 97], rfl⟩,
      ⟨[76, 249, 253, 146, 48, 184, 70, 39, 101, 214, 30, 77, 25, 181, 94, 169], rfl⟩)]

/-- AES-128 under the key of the tenant checker, on these blocks. -/
def firstSidecar : Sidecar := ⟨"rotate-secret", pairedAes manifestPairs, Json.parse⟩

def secondVector : AesBlock := ⟨[0, 1, 2, 3, 4, 5, 6, 7, 8, 9, 10, 11, 12, 13, 14, 15], rfl⟩

def bothStored : List Request :=
  [.store (some "rotate-secret") ⟨"mf_00", "checker", "FLAG\x7bold\x7d"⟩ zeroBlock,
    .store (some "rotate-secret")
    ⟨"mf_00", "checker", "FLAG\x7bfirst\x7d of two, FLAG\x7bsecond\x7d"⟩ secondVector]

theorem manifest_read : ∃ db, serveAll firstSidecar Dict.empty bothStored = some db ∧ ∃ ct,
    handle firstSidecar db (.show_ "mf_00" none) =
      some (db, .row "mf_00" "checker" (hexEncode secondVector.bytes) (hexEncode ct)) ∧
    exp2 firstSidecar ⟨"mf_00", "checker", hexEncode secondVector.bytes, hexEncode ct, 1⟩ =
      .printed ["FLAG\x7bfirst\x7d".toList, "FLAG\x7bsecond\x7d".toList] := by
  obtain ⟨db, run, each⟩ := exp2_reads firstSidecar (fun _ => Equiv.symm_apply_apply _) bothStored
  obtain ⟨ct, -, shown, printed⟩ := each "mf_00"
  exact ⟨db, run, ct, shown, printed.trans rfl⟩

/-- The ciphertext of the second manifest, block by block. -/
def secondSealed : List AesBlock := (manifestPairs.drop 1).map (·.2)

theorem sealed_decrypts :
    decryptCiphertext (oracle firstSidecar "checker") secondVector.bytes (joinBlocks secondSealed) =
      some (padBlock 16 (utf8 "FLAG\x7bfirst\x7d of two, FLAG\x7bsecond\x7d")) :=
  (oracle_decrypts firstSidecar "checker" secondVector secondSealed (List.cons_ne_nil _ _)).trans
  (by decide +kernel)

end KosSim.VaultCrypt
