import KosSim.Library.Decimal
import KosSim.PlantedFlags

/-!
The path index of LedgerForge beside its documents. A document's path ends in its id, so
two documents never share a path; a document written under a stored id at another path
leaves the old path behind, and nothing else does.
-/

namespace KosSim.LedgerForge
open Library Ledger

variable {env : Env} {state before after : AppState} {input : Input} {doc : Doc} {tick now : Int}

structure PathsMatch (state : AppState) : Prop where
  indexed : ∀ id doc, state.docs.get? id = some doc → state.pathIndex.get? doc.path = some doc.id
  pointed : ∀ path id, state.pathIndex.get? path = some id → ∃ doc, state.docs.get? id = some doc ∧
    doc.path = path

/-- No stored document has the document's id and another path. -/
def SamePath (state : AppState) (doc : Doc) : Prop :=
  ∀ old, state.docs.get? doc.id = some old → old.path = doc.path

/-- What an input writes, if it writes a document, goes over no document of another path. -/
def KeepsPath (env : Env) (state : AppState) (input : Input) : Prop :=
  ∀ written ∈ writtenDoc env state input, SamePath state written.1

instance samePathDecidable (state : AppState) (doc : Doc) : Decidable (SamePath state doc) :=
  inferInstanceAs (Decidable (∀ old ∈ state.docs.get? doc.id, old.path = doc.path))

instance keepsPathDecidable (env : Env) (state : AppState) (input : Input) :
    Decidable (KeepsPath env state input) :=
  inferInstanceAs (Decidable (∀ written ∈ writtenDoc env state input, SamePath state written.1))

/-! A path ends in the id. -/

def NamedDoc (doc : Doc) : Prop :=
  doc.id = "welcome-ledger" ∧ doc.path = "/public/welcome" ∨
    ∃ text front, doc.id = hexEncode text ∧ doc.path = front ++ "/" ++ doc.id

def Named (state : AppState) : Prop := ∀ id doc, state.docs.get? id = some doc → NamedDoc doc

theorem slash_free (bytes : List UInt8) : '/' ∉ (hexEncode bytes).toList := fun member =>
  absurd (hex_text_digits bytes '/' member) (by decide)

theorem path_chars (front id : String) :
    (front ++ "/" ++ id).toList = front.toList ++ '/' :: id.toList := by
  simp

/-- Welcome is no hexadecimal text. -/
theorem welcome_path (front : String) (bytes : List UInt8) :
    "/public/welcome" ≠ front ++ "/" ++ hexEncode bytes := by
  intro same
  have chars := congrArg String.toList same
  rw [path_chars] at chars
  have split : "/public/welcome".toList = "/public".toList ++ '/' :: "welcome".toList := by decide
  have last := last_mark_inj (by decide) (slash_free bytes) (split.symm.trans chars)
  have listed := hex_text_digits bytes 'w' (by rw [← last]; decide)
  exact absurd listed (by decide)

theorem named_path_inj {one other : Doc} (oneNamed : NamedDoc one) (otherNamed : NamedDoc other)
    (same : one.path = other.path) : one.id = other.id := by
  rcases oneNamed with ⟨oneId, onePath⟩ | ⟨oneText, oneFront, oneId, onePath⟩ <;>
    rcases otherNamed with ⟨otherId, otherPath⟩ | ⟨otherText, otherFront, otherId, otherPath⟩
  · rw [oneId, otherId]
  · rw [onePath, otherPath, otherId] at same
    exact absurd same (welcome_path otherFront otherText)
  · rw [onePath, otherPath, oneId] at same
    exact absurd same.symm (welcome_path oneFront oneText)
  · rw [onePath, otherPath, oneId, otherId] at same
    have chars := congrArg String.toList same
    rw [path_chars, path_chars] at chars
    rw [oneId, otherId]
    exact String.toList_injective (last_mark_inj (slash_free oneText) (slash_free otherText) chars)

theorem written_named (wrote : writtenDoc env before input = some (doc, tick, now)) : NamedDoc doc := by
  cases input with
  | putFlag flagTick payload flag id moment =>
      obtain ⟨_, stored⟩ := Option.ite_none_left_eq_some.mp wrote
      cases stored
      exact .inr ⟨_, "/vault", rfl, by simp [vaultDoc]⟩
  | putNoise noiseTick payload id moment =>
      obtain ⟨_, stored⟩ := Option.ite_none_left_eq_some.mp wrote
      cases stored
      exact .inr ⟨_, "/public/noise", rfl, rfl⟩
  | commit cookie moment branch body signer =>
      obtain ⟨found, caller, stored⟩ := Option.map_eq_some_iff.mp wrote
      cases stored
      exact .inr ⟨_, "/public/branch/" ++ trimSlashes (normalizePath branch), rfl, rfl⟩
  | _ => cases wrote

theorem named_after (sound : Sound before) (named : Named before)
    (taken : step env before input = some after) :
    Named after := by
  intro id kept found
  cases docs_after sound.seeded taken with
  | kept _ same => exact named id kept (same.docs ▸ found)
  | written wrote same =>
      rw [same.docs, upsertDoc, Dict.get_set] at found
      split at found
      · rw [← Option.some.inj found]
        exact written_named wrote
      · exact named id kept found
  | pruned now _ same =>
      rw [same.docs, pruneNoise, prune_doc] at found
      split at found
      · cases found
      · exact named id kept found
  | reloaded _ same =>
      rw [same.docs, mirrored_reload before id] at found
      exact named id kept ((sound.mirrored id).trans found)

/-! The index, one shape of a step at a time. -/

theorem mirrored_id (mirrored : Mirrored state) {id : String}
    (found : state.docs.get? id = some doc) : doc.id = id := by
  rw [mirrored] at found
  obtain ⟨row, _, made⟩ := Option.map_eq_some_iff.mp found
  rw [← made]
  rfl

theorem paths_same (paths : PathsMatch before) (same : SameDocs before after) : PathsMatch after := by
  constructor
  · rw [same.docs, same.paths]
    exact paths.indexed
  · rw [same.docs, same.paths]
    exact paths.pointed

theorem paths_upsert (mirrored : Mirrored state) (named : Named state) (paths : PathsMatch state)
    (docNamed : NamedDoc doc) (tick now : Int) :
    PathsMatch (upsertDoc state doc tick now) ↔ SamePath state doc := by
  constructor
  -- The old path would lead to the new document, which has another path.
  · intro matched old stored
    by_contra apart
    have index : (upsertDoc state doc tick now).pathIndex.get? old.path = some doc.id := by
      rw [upsertDoc, Dict.get_set_other _ _ _ _ (Ne.symm apart), paths.indexed _ old stored,
        mirrored_id mirrored stored]
    obtain ⟨found, held, path⟩ := matched.pointed _ _ index
    rw [upsertDoc, Dict.get_set_self, Option.some.injEq] at held
    rw [held] at apart
    exact apart path.symm
  · intro same
    constructor
    · intro id kept found
      rw [upsertDoc, Dict.get_set] at found
      rw [upsertDoc, Dict.get_set]
      by_cases mine : doc.id = id
      · rw [if_pos mine, Option.some.injEq] at found
        rw [found, if_pos rfl]
      · rw [if_neg mine] at found
        -- Another document cannot have the new path: paths end in their ids.
        have path : doc.path ≠ kept.path := fun equal =>
          mine ((named_path_inj docNamed (named id kept found) equal).trans (mirrored_id mirrored found))
        rw [if_neg path]
        exact paths.indexed id kept found
    · intro path id found
      rw [upsertDoc, Dict.get_set] at found
      rw [upsertDoc]
      by_cases mine : doc.path = path
      · rw [if_pos mine, Option.some.injEq] at found
        exact ⟨doc, by rw [found, Dict.get_set_self], mine⟩
      · rw [if_neg mine] at found
        obtain ⟨kept, held, path⟩ := paths.pointed path id found
        refine ⟨kept, ?_, path⟩
        rw [Dict.get_set_other, held]
        rintro rfl
        exact mine ((same kept held).symm.trans path)

theorem paths_prune (sound : Sound state) (paths : PathsMatch state) (now retentionMs : Int) :
    PathsMatch (pruneNoise state now retentionMs) := by
  -- A pruned row is its document's, so its path is indexed under its id and no other.
  have held : ∀ entry : String × DocRow, state.db.docs.get? entry.1 = some entry.2 →
      state.docs.get? entry.1 = some (docOf entry.1 entry.2) ∧
      state.pathIndex.get? entry.2.path = some entry.1 := by
    intro entry stored
    have doc : state.docs.get? entry.1 = some (docOf entry.1 entry.2) := by rw [sound.mirrored, stored]; rfl
    exact ⟨doc, paths.indexed _ _ doc⟩
  constructor
  · intro id kept found
    rw [pruneNoise, prune_doc] at found
    rw [pruneNoise, prune_path]
    by_cases gone :
        id ∈ (state.db.docs.entries.filter fun entry => prunable (now - retentionMs) entry.2).map Prod.fst
    · rw [if_pos gone] at found
      cases found
    · rw [if_neg gone] at found
      have index := paths.indexed id kept found
      rw [if_neg, index]
      intro listed
      obtain ⟨entry, member, path⟩ := List.mem_map.mp listed
      have stored := held entry ((mem_prunable _ entry).mp member).1
      rw [path, index, mirrored_id sound.mirrored found] at stored
      exact gone (List.mem_map.mpr ⟨entry, member, (Option.some.inj stored.2).symm⟩)
  · intro path id found
    rw [pruneNoise, prune_path] at found
    rw [pruneNoise]
    by_cases gone :
        path ∈ (state.db.docs.entries.filter fun entry => prunable (now - retentionMs) entry.2).map
        fun entry => entry.2.path
    · rw [if_pos gone] at found
      cases found
    · rw [if_neg gone] at found
      obtain ⟨kept, stored, path⟩ := paths.pointed path id found
      refine ⟨kept, ?_, path⟩
      rw [prune_doc, if_neg, stored]
      intro listed
      obtain ⟨entry, member, rfl⟩ := List.mem_map.mp listed
      have doc := (held entry ((mem_prunable _ entry).mp member).1).1
      rw [stored, Option.some.injEq] at doc
      exact gone (List.mem_map.mpr ⟨entry, member, by rw [← path, doc]; rfl⟩)

theorem paths_reload (unique : ∀ one other row rows, state.db.docs.get? one = some row →
      state.db.docs.get? other = some rows → row.path = rows.path → one = other) :
      PathsMatch (reload state) := by
  constructor
  · intro id kept found
    rw [mirrored_reload state id] at found
    obtain ⟨row, stored, made⟩ := Option.map_eq_some_iff.mp found
    have listedRow : state.db.docs.get? id = some row := stored
    rw [← made]
    refine Dict.of_list_exact
      _ _ _ (List.mem_map.mpr ⟨(id, row), (Dict.mem_entries_iff _ _ _).mpr listedRow, rfl⟩) ?_
    intro other listed
    obtain ⟨⟨rowId, otherRow⟩, member, pair⟩ := List.mem_map.mp listed
    obtain ⟨path, rfl⟩ := Prod.mk.inj pair
    exact unique _ _ _ _ ((Dict.mem_entries_iff _ _ _).mp member) listedRow path
  · intro path id found
    obtain ⟨⟨rowId, row⟩, member, pair⟩ := List.mem_map.mp (Dict.of_list_some _ _ _ found)
    obtain ⟨same, rfl⟩ := Prod.mk.inj pair
    refine ⟨docOf rowId row, ?_, same⟩
    rw [mirrored_reload state rowId]
    exact congrArg (Option.map (docOf rowId)) ((Dict.mem_entries_iff _ _ _).mp member)

/-- One step keeps the index exactly where it writes over no document of another path. -/
theorem paths_after (sound : Sound before) (named : Named before) (paths : PathsMatch before)
    (taken : step env before input = some after) : PathsMatch after ↔ KeepsPath env before input := by
  have idle : writtenDoc env before input = none → KeepsPath env before input := by
    intro quiet written wrote
    rw [quiet] at wrote
    cases wrote
  cases docs_after sound.seeded taken with
  | kept quiet same => exact ⟨fun _ => idle quiet, fun _ => paths_same paths same⟩
  | @written doc tick now wrote same =>
      have upsert := paths_upsert sound.mirrored named paths (written_named wrote) tick now
      constructor
      · intro matched written wroteToo
        cases Option.mem_unique wroteToo wrote
        exact upsert.mp (paths_same matched ⟨same.rows.symm, same.docs.symm, same.paths.symm⟩)
      · intro keeps
        exact paths_same (upsert.mpr (keeps _ wrote)) same
  | pruned now quiet same =>
      exact ⟨fun _ => idle quiet, fun _ => paths_same (paths_prune sound paths now _) same⟩
  | reloaded quiet same =>
      -- A reload indexes in any order, so two rows of one path would be a choice; the old index
      -- rules them out.
      refine ⟨fun _ => idle quiet, fun _ => paths_same (paths_reload ?_) same⟩
      intro one other row rows oneRow otherRow equal
      have oneDoc : before.docs.get? one = some (docOf one row) := by rw [sound.mirrored, oneRow]; rfl
      have otherDoc : before.docs.get? other = some (docOf other rows) := by
        rw [sound.mirrored, otherRow]; rfl
      have index := paths.indexed one _ oneDoc
      rw [show (docOf one row).path = (docOf other rows).path from equal,
        paths.indexed other _ otherDoc] at index
      exact (Option.some.inj index).symm

theorem booted_paths {id : String} (booted : boot env {} id now = some state) :
    Named state ∧ PathsMatch state := by
  obtain ⟨first, docs, loaded, same⟩ := booted_docs booted
  have mirrored : Mirrored first := loaded ▸ mirrored_reload first
  have lone : ∀ id row, first.db.docs.get? id = some row → id = "welcome-ledger" ∧
      row = welcomeRow now := by
    intro id row stored
    rw [docs, Dict.get_set] at stored
    split at stored
    · next hit => exact ⟨hit.symm, (Option.some.inj stored).symm⟩
    · cases stored
  have named : Named first := by
    intro id kept found
    rw [mirrored id] at found
    obtain ⟨row, stored, made⟩ := Option.map_eq_some_iff.mp found
    obtain ⟨rfl, rfl⟩ := lone id row stored
    rw [← made]
    exact .inl ⟨rfl, rfl⟩
  have paths : PathsMatch first := by
    rw [← loaded]
    refine paths_reload fun one other row rows oneRow otherRow _ => ?_
    rw [(lone one row oneRow).1, (lone other rows otherRow).1]
  have vault : NamedDoc (vaultDoc env 0 env.bootFlag) := .inr ⟨_, "/vault", rfl, by simp [vaultDoc]⟩
  have apart : SamePath first (vaultDoc env 0 env.bootFlag) := by
    intro old stored
    rw [mirrored] at stored
    obtain ⟨row, found, _⟩ := Option.map_eq_some_iff.mp stored
    exact absurd (lone _ row found).1 (short_hash_welcome _)
  constructor
  · intro id kept found
    rw [same.docs, upsertDoc, Dict.get_set] at found
    split at found
    · rw [← Option.some.inj found]
      exact vault
    · exact named id kept found
  · exact paths_same ((paths_upsert mirrored named paths vault 0 now).mpr apart) same

/-! Reading, and whole runs. -/

theorem read_defined (paths : PathsMatch state) (path : String) (grant : Option String) :
    readDoc env state path grant ≠ .panicked := by
  intro panicked
  cases grant with
  | none => cases panicked
  | some scope =>
      rw [readDoc] at panicked
      by_cases inside : (utf8 scope).isPrefixOf (utf8 path) = true
      · simp only [inside, Bool.not_true, Bool.false_eq_true, if_false] at panicked
        cases index : state.pathIndex.get? (normalizePath path) with
        | none =>
            rw [index] at panicked
            cases panicked
        | some id =>
            obtain ⟨kept, stored, _⟩ := paths.pointed _ id index
            simp only [index, stored] at panicked
            cases panicked
      · simp only [inside, Bool.not_false, if_true] at panicked
        cases panicked

def Readable (env : Env) (state : AppState) : Prop :=
  PathsMatch state ∧ ∀ path grant, readDoc env state path grant ≠ .panicked

theorem readable_run (sound : Sound state) (named : Named state) (paths : PathsMatch state)
    (inputs : List Input) :
    Throughout (step env) (Readable env) state inputs ↔
      EachStep (step env) (KeepsPath env) state inputs := by
  induction inputs generalizing state with
  | nil => exact ⟨fun _ => trivial, fun _ => ⟨paths, read_defined paths⟩⟩
  | cons input rest ih =>
      obtain ⟨next, taken⟩ := step_taken env sound input
      have one := paths_after sound named paths taken
      have soundNext := sound_after sound taken
      have namedNext := named_after sound named taken
      rw [Throughout, EachStep, after_step taken (Throughout (step env) (Readable env) · rest),
        after_step taken (EachStep (step env) (KeepsPath env) · rest)]
      constructor
      · rintro ⟨_, through⟩
        have pathsNext : PathsMatch next := by
          cases rest with
          | nil => exact through.1
          | cons => exact through.1.1
        exact ⟨one.mp pathsNext, (ih soundNext namedNext pathsNext).mp through⟩
      · rintro ⟨keeps, met⟩
        exact ⟨⟨paths, read_defined paths⟩, (ih soundNext namedNext (one.mpr keeps)).mpr met⟩

/-- In a run from a first start every state reached is readable exactly when no step writes a
document over one of another path. -/
theorem readable_iff {bootId : String} {bootNow : Int} {start : AppState}
    (booted : boot env {} bootId bootNow = some start) (inputs : List Input) :
    Throughout (step env) (Readable env) start inputs ↔
      EachStep (step env) (KeepsPath env) start inputs := by
  obtain ⟨named, paths⟩ := booted_paths booted
  exact readable_run (booted_sound booted) named paths inputs

/-- A commit, and noise that is written twice under one path. -/
def noiseTwice : List Input :=
  [.register 0 "mirror" "password" "password", .putNoise 1 0 "stl-1" 0,
    .commit (some "1.14400") 0 "public" "notes" none, .putNoise 1 0 "stl-2" 5, .cycle 1800001,
    .restart "stl-3" 1800002]

theorem noise_twice_readable : Throughout (step mirrorEnv) (Readable mirrorEnv) mirrorStart noiseTwice :=
  (readable_iff (Option.some_get _).symm _).mpr (by decide +kernel)

example : ((run mirrorEnv mirrorStart (noiseTwice.take 4)).map fun state => state.docs.keys) =
    (run mirrorEnv mirrorStart (noiseTwice.take 3)).map fun state => state.docs.keys := by decide +kernel

/-- Two commits of one string under two branches, the second with the signer of noise: once it
is pruned the first one's path leads nowhere. -/
def shiftedCommits : List Input :=
  [.register 0 "mirror" "password" "password", .putNoise 1 0 "stl-1" 0,
    .commit (some "1.14400") 0 "public:b" "c" none, .cycle 1800001,
    .commit (some "1.14400") 1800001 "public" "b:c" (some "noise"), .cycle 3600002]

def shiftedState : AppState := (run mirrorEnv mirrorStart shiftedCommits).get (by decide +kernel)

theorem shifted_commit_panics :
    ∃ last, run mirrorEnv mirrorStart shiftedCommits = some last ∧ ¬ PathsMatch last ∧
      readDoc mirrorEnv last ("/public/branch/public:b/" ++ shortHash mirrorEnv "public:b:c:3")
      (some "/public") = .panicked ∧
      CollisionFree mirrorEnv (hashedTexts mirrorEnv ⟨{}, Dict.empty, Dict.empty, Dict.empty⟩
        (.restart "stl-0" 0) ++ hashed mirrorEnv mirrorStart shiftedCommits) := by
  have panics :
      readDoc mirrorEnv shiftedState ("/public/branch/public:b/" ++ shortHash mirrorEnv "public:b:c:3")
      (some "/public") = .panicked := by decide +kernel
  refine ⟨shiftedState, (Option.some_get _).symm, fun paths => read_defined paths _ _ panics, panics, ?_⟩
  unfold CollisionFree
  decide +kernel

end KosSim.LedgerForge
