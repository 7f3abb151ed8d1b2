import KosSim.Library.MerkleProof
import KosSim.MerkleRoot

/-!
merkle_path and cli_proof. The path is computed from pairs of id and leaf hash that are
sorted by the hash alone; its layers are those of the root, so the path leads a document's
leaf to the root wherever the leaf stands.
-/

namespace KosSim.Ledger
open Library

section Path
variable (sha : List UInt8 → List UInt8)

def sortedEntries (docs : Dict String Doc) : List (String × String) :=
  (docs.entries.map fun entry => (entry.2.id, leafHash sha entry.2.id entry.2.body)).insertionSort
    fun one other => one.2 ≤ other.2

def merklePath (docs : Dict String Doc) (docId : String) : Option (List String) :=
  let entries := sortedEntries sha docs
  (entries.findIdx? fun entry => entry.1 = docId).map fun targetIdx =>
    siblings (nodeHash sha) entries.length (entries.map (·.2)) targetIdx

structure ProofAnswer where
  leaf : String
  root : String
  path : String
  proof : List String
  deriving DecidableEq

/-- `cli_proof`; none is the 404. -/
def cliProof (docs : Dict String Doc) (doc : String) : Option ProofAnswer :=
  (docs.get? doc).map fun item =>
    { leaf := item.id
      root := merkleRoot sha docs
      path := item.path
      proof := (merklePath sha docs item.id).getD [] }

/-- The leaves of different documents are different. -/
def LeavesApart (docs : Dict String Doc) : Prop :=
  ∀ one ∈ docs.entries, ∀ other ∈ docs.entries,
    leafHash sha one.2.id one.2.body = leafHash sha other.2.id other.2.body → one = other

/-- What a verifier does with a proof: the digest it comes to, and the entries it has not used. -/
def foldProof (count index : Nat) (leaf : String) (path : List String) : Option (String × List String) :=
  climb (nodeHash sha) count count index leaf path

variable {sha} {docs : Dict String Doc}

theorem entries_leaves : (sortedEntries sha docs).map (·.2) = sortedLeaves sha (docPairs docs) := by
  have sorted := List.map_insertionSort (fun one other : String × String => one.2 ≤ other.2)
    (· ≤ ·) Prod.snd
    (docs.entries.map fun entry => (entry.2.id, leafHash sha entry.2.id entry.2.body))
    fun _ _ _ _ => Iff.rfl
  rw [sortedLeaves, docPairs, List.map_map]
  rw [List.map_map] at sorted
  exact sorted

theorem entries_length : (sortedEntries sha docs).length = docs.entries.length := by
  rw [sortedEntries, List.length_insertionSort, List.length_map]

theorem mem_sorted_entries {entry : String × String} : entry ∈ sortedEntries sha docs ↔
    ∃ stored ∈ docs.entries, (stored.2.id, leafHash sha stored.2.id stored.2.body) = entry := by
  rw [sortedEntries, List.mem_insertionSort, List.mem_map]

/-- The position that merkle_path starts from is the document's. -/
theorem position_found (sha : List UInt8 → List UInt8) (keyed : Keyed docs) {id : String}
    {doc : Doc} (held : docs.get? id = some doc) :
    ∃ index, (sortedEntries sha docs).findIdx? (fun entry => decide (entry.1 = id)) = some index ∧
      (sortedLeaves sha (docPairs docs))[index]? = some (leafHash sha doc.id doc.body) := by
  have member := (Dict.mem_entries_iff _ _ _).mpr held
  have named : doc.id = id := keyed _ member
  have listed : (id, leafHash sha doc.id doc.body) ∈ sortedEntries sha docs :=
    mem_sorted_entries.mpr ⟨_, member, by rw [named]⟩
  obtain ⟨index, found⟩ :
      ∃ index, (sortedEntries sha docs).findIdx? (fun entry => decide (entry.1 = id)) = some index :=
    Option.isSome_iff_exists.mp
      (by rw [List.findIdx?_isSome]; exact List.any_eq_true.mpr ⟨_, listed, decide_eq_true rfl⟩)
  refine ⟨index, found, ?_⟩
  obtain ⟨inside, same, _⟩ := List.findIdx?_eq_some_iff_getElem.mp found
  obtain ⟨stored, storedMember, entry⟩ := mem_sorted_entries.mp (List.getElem_mem inside)
  -- The ids are the keys of the map, so this is the only entry with the id.
  have key : stored.1 = id := by
    rw [← keyed stored storedMember, ← of_decide_eq_true same, ← entry]
  have row : stored.2 = doc := by
    have there := (Dict.mem_entries_iff _ _ _).mp storedMember
    rw [key, held] at there
    exact (Option.some.inj there).symm
  rw [← entries_leaves, List.getElem?_map, List.getElem?_eq_getElem inside, ← entry, row]
  rfl

/-- The path of a document leads from its position to the root. -/
theorem path_climbs {index : Nat} {leaf : String}
    (found : (sortedLeaves sha (docPairs docs))[index]? = some leaf) :
    climb (nodeHash sha) docs.entries.length docs.entries.length index leaf
      (siblings (nodeHash sha) docs.entries.length (sortedLeaves sha (docPairs docs)) index) =
        some (merkleRoot sha docs, []) := by
  have width : (sortedLeaves sha (docPairs docs)).length = docs.entries.length := by
    rw [← entries_leaves, List.length_map, entries_length]
  have filled : sortedLeaves sha (docPairs docs) ≠ [] := by
    intro none
    rw [none] at found
    cases found
  obtain ⟨root, climbed, last⟩ := climb_siblings (nodeHash sha) docs.entries.length (by omega) found
  have same := collapse_root (nodeHash sha) filled (String.ofList (List.replicate 64 '0'))
  rw [width, last] at same
  rw [width] at climbed
  rw [climbed, (List.cons.inj same).1]
  rfl

theorem leaves_single (apart : LeavesApart sha docs) : (sortedLeaves sha (docPairs docs)).Nodup := by
  rw [sortedLeaves, (List.perm_insertionSort _ _).nodup_iff, docPairs, List.map_map]
  exact List.Nodup.map_on apart docs.distinct.of_map

end Path

/-- The proof of a document, folded from its leaf along the leaf's place among the sorted ones,
gives the root and is used up. -/
theorem inclusion_proof_verifies (sha : List UInt8 → List UInt8) (docs : Dict String Doc)
    (keyed : Keyed docs) (apart : LeavesApart sha docs) (id : String) (doc : Doc)
    (held : docs.get? id = some doc) :
    ∃ path, merklePath sha docs id = some path ∧
      cliProof sha docs id = some ⟨id, merkleRoot sha docs, doc.path, path⟩ ∧
      foldProof sha docs.entries.length
        ((sortedLeaves sha (docPairs docs)).idxOf (leafHash sha doc.id doc.body))
        (leafHash sha doc.id doc.body) path = some (merkleRoot sha docs, []) := by
  obtain ⟨index, found, leaf⟩ := position_found sha keyed held
  have named : doc.id = id := keyed _ ((Dict.mem_entries_iff _ _ _).mpr held)
  obtain ⟨inside, at_⟩ := List.getElem?_eq_some_iff.mp leaf
  have place : (sortedLeaves sha (docPairs docs)).idxOf (leafHash sha doc.id doc.body) = index := by
    rw [← at_]
    exact (leaves_single apart).idxOf_getElem index inside
  have path : merklePath sha docs id =
      some (siblings (nodeHash sha) docs.entries.length (sortedLeaves sha (docPairs docs)) index) := by
    rw [merklePath, found, entries_leaves, entries_length]
    rfl
  refine ⟨_, path, ?_, ?_⟩
  · rw [cliProof, held, Option.map_some, named, path]
    rfl
  · rw [place]
    exact path_climbs leaf

instance (sha : List UInt8 → List UInt8) (docs : Dict String Doc) : Decidable (LeavesApart sha docs) := by
  unfold LeavesApart
  infer_instance

theorem welcome_proof_verifies :
    ∃ path, merklePath Sha256.sha256 bootDocs "welcome-ledger" = some path ∧
      cliProof Sha256.sha256 bootDocs "welcome-ledger" =
        some ⟨"welcome-ledger", merkleRoot Sha256.sha256 bootDocs, "/public/welcome", path⟩ ∧
      foldProof Sha256.sha256 bootDocs.entries.length
        ((sortedLeaves Sha256.sha256 (docPairs bootDocs)).idxOf (leafHash Sha256.sha256 "welcome-ledger"
          "LedgerForge mirror online. Query window: 32 records."))
        (leafHash Sha256.sha256 "welcome-ledger"
          "LedgerForge mirror online. Query window: 32 records.") path =
          some (merkleRoot Sha256.sha256 bootDocs, []) :=
  inclusion_proof_verifies Sha256.sha256 bootDocs (by decide +kernel) (by decide +kernel) "welcome-ledger"
    ⟨"welcome-ledger", "/public/welcome", "public", "guest",
      "LedgerForge mirror online. Query window: 32 records.", true, "boot"⟩ (by decide +kernel)

end KosSim.Ledger
