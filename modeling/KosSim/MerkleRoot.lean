import KosSim.Ledger

/-!
What the root of the ledger commits to. Leaves and inner nodes go through one hash without
tags, but the bytes of a leaf contain a NUL between id and body and the bytes of a node are
two hexadecimal texts: the preimages are apart, and each gives its parts back.
-/

namespace KosSim.Ledger
open Library

section Preimages

/-- Every byte string that is hashed for the root of a map. -/
def hashedBytes (sha : List UInt8 → List UInt8) (docs : Dict String Doc) : List (List UInt8) :=
  (docPairs docs).map (fun pair => leafBytes pair.1 pair.2) ++
    (hashedPairs (nodeHash sha) (sortedLeaves sha (docPairs docs)).length
      (sortedLeaves sha (docPairs docs))).map nodeBytes

/-- A leaf's bytes are split by their first NUL. -/
theorem leaf_bytes_injective {id other body text : String} (plain : 0 ∉ utf8 id)
    (otherPlain : 0 ∉ utf8 other) (same : leafBytes id body = leafBytes other text) :
    id = other ∧ body = text := by
  unfold leafBytes at same
  have before : ∀ {front : List UInt8} (back : List UInt8), 0 ∉ front →
      (front ++ 0 :: back).takeWhile (· ≠ 0) = front := by
    intro front back none
    rw [List.takeWhile_append_of_pos, List.takeWhile_cons_of_neg (by simp), List.append_nil]
    exact fun byte member => decide_eq_true fun zero => none (zero ▸ member)
  have ids : utf8 id = utf8 other := by
    rw [← before (utf8 body) plain, same, before (utf8 text) otherPlain]
  rw [ids, List.append_cancel_left_eq, List.cons.injEq] at same
  exact ⟨utf8_injective ids, utf8_injective same.2⟩

/-- The digests of the tree: texts of 32 bytes. -/
def IsDigest (text : String) : Prop := ∃ bytes : List UInt8, bytes.length = 32 ∧ text = hexEncode bytes

theorem node_bytes_injective {pair other : String × String} (left : IsDigest pair.1)
    (right : IsDigest other.1) (same : nodeBytes pair = nodeBytes other) : pair = other := by
  obtain ⟨bytes, long, text⟩ := left
  obtain ⟨others, otherLong, otherText⟩ := right
  have lengths : (utf8 pair.1).length = (utf8 other.1).length := by
    rw [text, otherText, utf8_hex_length, utf8_hex_length, long, otherLong]
  obtain ⟨first, second⟩ := List.append_inj same lengths
  exact Prod.ext (utf8_injective first) (utf8_injective second)

theorem node_bytes_nonzero {pair : String × String} (left : IsDigest pair.1) (right : IsDigest pair.2) :
    0 ∉ nodeBytes pair := by
  obtain ⟨bytes, _, text⟩ := left
  obtain ⟨others, _, otherText⟩ := right
  rw [nodeBytes, text, otherText, List.mem_append, not_or]
  exact ⟨utf8_hex_nonzero bytes, utf8_hex_nonzero others⟩

theorem leaf_bytes_zero (id body : String) : 0 ∈ leafBytes id body :=
  List.mem_append_right _ List.mem_cons_self

end Preimages

/-! One map. -/

section Tree
variable {sha : List UInt8 → List UInt8} (long : ∀ message, (sha message).length = 32)
    {docs : Dict String Doc}

def Keyed (docs : Dict String Doc) : Prop := ∀ entry ∈ docs.entries, entry.2.id = entry.1

def PlainIds (docs : Dict String Doc) : Prop := ∀ entry ∈ docs.entries, 0 ∉ utf8 entry.2.id

theorem mem_sorted {pairs : List (String × String)} {leaf : String} :
    leaf ∈ sortedLeaves sha pairs ↔ ∃ pair ∈ pairs, leafHash sha pair.1 pair.2 = leaf := by
  rw [sortedLeaves, List.mem_insertionSort, List.mem_map]

/-- The pairs that can be hashed without leaving the given byte strings. -/
def keptPairs (messages : Set (List UInt8)) : Set (String × String) :=
  {pair | nodeBytes pair ∈ messages ∧ IsDigest pair.1 ∧ IsDigest pair.2}

theorem node_injective {messages : Set (List UInt8)} (inj : Set.InjOn sha messages) :
    Set.InjOn (nodeHash sha) (keptPairs messages) := by
  intro pair kept other otherKept same
  exact node_bytes_injective kept.2.1 otherKept.2.1 (inj kept.1 otherKept.1 (hex_encode_injective same))

include long in
theorem hashed_kept {messages : Set (List UInt8)}
    (hashed : ∀ message ∈ hashedBytes sha docs, message ∈ messages) :
    ∀ pair ∈ hashedPairs (nodeHash sha) (sortedLeaves sha (docPairs docs)).length
        (sortedLeaves sha (docPairs docs)),
      pair ∈ keptPairs messages := by
  intro pair member
  refine ⟨hashed _ (List.mem_append_right _ (List.mem_map_of_mem member)), ?_⟩
  apply hashed_pairs_all _ (fun pair => ⟨sha (nodeBytes pair), long _, rfl⟩) _ _ pair member
  intro leaf listed
  obtain ⟨entry, _, rfl⟩ := mem_sorted.mp listed
  exact ⟨sha (leafBytes entry.1 entry.2), long _, rfl⟩

theorem leaf_message {messages : Set (List UInt8)}
    (hashed : ∀ message ∈ hashedBytes sha docs, message ∈ messages) {pair : String × String}
    (member : pair ∈ docPairs docs) : leafBytes pair.1 pair.2 ∈ messages :=
  hashed _ (List.mem_append_left _ (List.mem_map_of_mem member))

/-- No node is a leaf. -/
theorem nodes_apart {messages : Set (List UInt8)} (inj : Set.InjOn sha messages)
    (hashed : ∀ message ∈ hashedBytes sha docs, message ∈ messages) :
    ∀ pair ∈ keptPairs messages, nodeHash sha pair ∉ sortedLeaves sha (docPairs docs) := by
  intro pair kept leaf
  obtain ⟨entry, member, same⟩ := mem_sorted.mp leaf
  have bytes := inj (leaf_message hashed member) kept.1 (hex_encode_injective same)
  exact node_bytes_nonzero kept.2.1 kept.2.2 (bytes ▸ leaf_bytes_zero entry.1 entry.2)

theorem leaves_distinct {messages : Set (List UInt8)} (inj : Set.InjOn sha messages)
    (hashed : ∀ message ∈ hashedBytes sha docs, message ∈ messages) (keyed : Keyed docs)
    (plain : PlainIds docs) :
    (sortedLeaves sha (docPairs docs)).Nodup := by
  rw [sortedLeaves, (List.perm_insertionSort _ _).nodup_iff, docPairs, List.map_map]
  apply List.Nodup.map_on _ docs.distinct.of_map
  intro one oneMember other otherMember same
  have bytes := inj (leaf_message hashed (List.mem_map_of_mem oneMember))
    (leaf_message hashed (List.mem_map_of_mem otherMember)) (hex_encode_injective same)
  have ids := (leaf_bytes_injective (plain one oneMember) (plain other otherMember) bytes).1
  rw [keyed one oneMember, keyed other otherMember] at ids
  exact List.inj_on_of_nodup_map docs.distinct oneMember otherMember ids

variable (sha) in
/-- The root of a filled map is the text of a digest of one of the messages. -/
theorem root_digest (filled : docs.entries ≠ []) : ∃ message ∈ hashedBytes sha docs,
    merkleRoot sha docs = hexEncode (sha message) := by
  have leaves : sortedLeaves sha (docPairs docs) ≠ [] := by
    rw [← List.length_pos_iff, sortedLeaves, List.length_insertionSort, List.length_map, docPairs,
      List.length_map]
    exact List.length_pos_iff.mpr filled
  rcases root_made (nodeHash sha) leaves (String.ofList (List.replicate 64 '0')) with leaf | ⟨pair,
    member, made⟩
  · obtain ⟨pair, listed, made⟩ := mem_sorted.mp leaf
    exact ⟨_, List.mem_append_left _ (List.mem_map_of_mem listed), made.symm⟩
  · exact ⟨_, List.mem_append_right _ (List.mem_map_of_mem member), made⟩

theorem empty_root (nobody : docs.entries = []) :
    merkleRoot sha docs = hexEncode (List.replicate 32 0) := by
  have none : docPairs docs = [] := by rw [docPairs, nobody]; rfl
  rw [merkleRoot, merkleRootPairs, none]
  rfl

end Tree

/-! Two maps. -/

section Roots
variable {sha : List UInt8 → List UInt8} {one other : Dict String Doc} {messages : Set (List UInt8)}
  (inj : Set.InjOn sha messages) (ones : ∀ message ∈ hashedBytes sha one, message ∈ messages)
  (others : ∀ message ∈ hashedBytes sha other, message ∈ messages)

theorem sorted_filled {docs : Dict String Doc} (filled : docs.entries ≠ []) :
    sortedLeaves sha (docPairs docs) ≠ [] := by
  rw [← List.length_pos_iff, sortedLeaves, List.length_insertionSort, List.length_map, docPairs,
    List.length_map]
  exact List.length_pos_iff.mpr filled

include inj ones others

theorem same_leaves (long : ∀ message, (sha message).length = 32) (oneKeyed : Keyed one)
    (otherKeyed : Keyed other) (onePlain : PlainIds one) (otherPlain : PlainIds other)
    (oneFilled : one.entries ≠ []) (otherFilled : other.entries ≠ [])
    (same : merkleRoot sha one = merkleRoot sha other) :
    sortedLeaves sha (docPairs one) = sortedLeaves sha (docPairs other) := by
  refine collapse_injective (node_injective inj) (leaves_distinct inj ones oneKeyed onePlain)
    (leaves_distinct inj others otherKeyed otherPlain) (sorted_filled oneFilled) (sorted_filled otherFilled)
    (hashed_kept long ones) (hashed_kept long others) (nodes_apart inj ones) (nodes_apart inj others) ?_
  rw [collapse_root _ (sorted_filled oneFilled) (String.ofList (List.replicate 64 '0')),
    collapse_root _ (sorted_filled otherFilled) (String.ofList (List.replicate 64 '0'))]
  exact congrArg (fun root => [root]) same

theorem shared_doc (oneKeyed : Keyed one) (otherKeyed : Keyed other) (onePlain : PlainIds one)
    (otherPlain : PlainIds other)
    (leaves : sortedLeaves sha (docPairs one) = sortedLeaves sha (docPairs other)) {id : String}
    {doc : Doc} (held : one.get? id = some doc) :
    ∃ found, other.get? id = some found ∧ found.body = doc.body := by
  have member := (Dict.mem_entries_iff _ _ _).mpr held
  have listed : leafHash sha doc.id doc.body ∈ sortedLeaves sha (docPairs other) := by
    rw [← leaves]
    exact mem_sorted.mpr ⟨_, List.mem_map_of_mem member, rfl⟩
  obtain ⟨pair, inside, same⟩ := mem_sorted.mp listed
  obtain ⟨found, foundMember, rfl⟩ := List.mem_map.mp inside
  have bytes := inj (leaf_message others inside) (leaf_message ones (List.mem_map_of_mem member))
    (hex_encode_injective same)
  obtain ⟨ids, bodies⟩ := leaf_bytes_injective (otherPlain found foundMember)
    (onePlain (id, doc) member) bytes
  rw [otherKeyed found foundMember, oneKeyed (id, doc) member] at ids
  have key : found.1 = id := ids
  refine ⟨found.2, ?_, bodies⟩
  rw [← key]
  exact (Dict.mem_entries_iff _ _ _).mp foundMember

omit inj others in
/-- An empty map shares its root with no other: no digest is all zero. -/
theorem empty_apart (nonzero : ∀ message ∈ messages, sha message ≠ List.replicate 32 0)
    (filled : one.entries ≠ []) (nobody : other.entries = []) :
    merkleRoot sha one ≠ merkleRoot sha other := by
  obtain ⟨message, hashed, root⟩ := root_digest sha filled
  rw [root, empty_root nobody]
  exact fun same => nonzero message (ones message hashed) (hex_encode_injective same)

end Roots

/-- Equal roots, equal ids with equal bodies, as long as the hash keeps the messages of both maps
apart and makes none of them zero. -/
theorem merkle_root_commits (sha : List UInt8 → List UInt8) (one other : Dict String Doc)
    (long : ∀ message, (sha message).length = 32)
    (inj : Set.InjOn sha {message | message ∈ hashedBytes sha one ∨ message ∈ hashedBytes sha other})
    (nonzero : ∀ message, message ∈ hashedBytes sha one ∨ message ∈ hashedBytes sha other →
      sha message ≠ List.replicate 32 0)
    (oneKeyed : Keyed one) (otherKeyed : Keyed other) (onePlain : PlainIds one)
    (otherPlain : PlainIds other) (same : merkleRoot sha one = merkleRoot sha other) (id : String) :
    (one.get? id).map (·.body) = (other.get? id).map (·.body) := by
  have ones := fun message (member : message ∈ hashedBytes sha one) =>
    (.inl member : message ∈ hashedBytes sha one ∨ message ∈ hashedBytes sha other)
  have others := fun message (member : message ∈ hashedBytes sha other) =>
    (.inr member : message ∈ hashedBytes sha one ∨ message ∈ hashedBytes sha other)
  by_cases oneFilled : one.entries = []
  · by_cases otherFilled : other.entries = []
    · simp [Dict.get?, oneFilled, otherFilled]
    · exact absurd same.symm (empty_apart others nonzero otherFilled oneFilled)
  · by_cases otherFilled : other.entries = []
    · exact absurd same (empty_apart ones nonzero oneFilled otherFilled)
    · have leaves := same_leaves inj ones others long oneKeyed otherKeyed onePlain otherPlain oneFilled
          otherFilled same
      cases held : one.get? id with
      | some doc =>
          obtain ⟨found, there, body⟩ :=
            shared_doc inj ones others oneKeyed otherKeyed onePlain otherPlain leaves held
          rw [there, Option.map_some, Option.map_some, body]
      | none =>
          cases there : other.get? id with
          | none => rfl
          | some doc =>
              obtain ⟨found, here, _⟩ :=
                shared_doc inj others ones otherKeyed oneKeyed otherPlain onePlain leaves.symm there
              rw [here] at held
              cases held

/-- The map of a fresh service: the welcome document and a flag. -/
def bootDocs : Dict String Doc :=
  Dict.ofList [("welcome-ledger", ⟨"welcome-ledger", "/public/welcome", "public", "guest",
      "LedgerForge mirror online. Query window: 32 records.", true, "boot"⟩),
    ("0a", ⟨"0a", "/vault/0a", "wire-transfer", "checker", "FLAG\x7bBOOT\x7d", false, "0b"⟩)]

/-- The same documents in the other order of the map. -/
def bootDocsTurned : Dict String Doc :=
  Dict.ofList [("0a", ⟨"0a", "/vault/0a", "wire-transfer", "checker", "FLAG\x7bBOOT\x7d", false, "0b"⟩),
    ("welcome-ledger", ⟨"welcome-ledger", "/public/welcome", "public", "guest",
      "LedgerForge mirror online. Query window: 32 records.", true, "boot"⟩)]

instance (docs : Dict String Doc) : Decidable (Keyed docs) := by unfold Keyed; infer_instance

instance (docs : Dict String Doc) : Decidable (PlainIds docs) := by unfold PlainIds; infer_instance

theorem turned_boot_docs :
    ((bootDocs.get? "0a").map (·.body)) = (bootDocsTurned.get? "0a").map (·.body) := by
  have keep : ∀ message ∈ hashedBytes Sha256.sha256 bootDocs ++ hashedBytes Sha256.sha256 bootDocsTurned,
      ∀ other ∈ hashedBytes Sha256.sha256 bootDocs ++ hashedBytes Sha256.sha256 bootDocsTurned,
        Sha256.sha256 message = Sha256.sha256 other → message = other := by decide +kernel
  have nonzero : ∀ message ∈ hashedBytes Sha256.sha256 bootDocs ++ hashedBytes Sha256.sha256 bootDocsTurned,
      Sha256.sha256 message ≠ List.replicate 32 0 := by decide +kernel
  exact merkle_root_commits Sha256.sha256 bootDocs bootDocsTurned Sha256.sha256_length
    (fun message member other otherMember => keep message (List.mem_append.mpr member) other
      (List.mem_append.mpr otherMember))
    (fun message member => nonzero message (List.mem_append.mpr member)) (by decide +kernel)
    (by decide +kernel) (by decide +kernel) (by decide +kernel) (by decide +kernel) "0a"

end KosSim.Ledger
