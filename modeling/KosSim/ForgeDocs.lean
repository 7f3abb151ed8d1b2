import KosSim.Library.Runs
import KosSim.LedgerForge

/-!
What one input of LedgerForge does: to the documents (table, map and path index), to the
index of flags, and to the rows that other flags are kept in. Invariants of the store are
read off these, and no later proof opens a handler.
-/

namespace KosSim.LedgerForge
open Library Ledger

variable {env : Env} {state other before after : AppState} {input : Input}

def run (env : Env) : AppState → List Input → Option AppState := exec (step env) fun _ _ => True

/-- The document that an input writes, with its tick and time. -/
def writtenDoc (env : Env) (state : AppState) : Input → Option (Doc × Int × Int)
  | .putFlag tick payload flag _ now =>
      if payload = 1 ∨ payload = 2 then none else some (vaultDoc env tick flag, tick, now)
  | .putNoise tick payload _ now =>
      if payload = 1 ∨ payload = 2 then none else some (noiseDoc env state tick payload, tick, now)
  | .commit cookie now branch body signer =>
      (currentUser env state cookie now).map fun found =>
        (commitDoc env state branch body (signer.getD found.2.username), 0, now)
  | _ => none

structure SameDocs (one other : AppState) : Prop where
  rows : other.db.docs = one.db.docs
  docs : other.docs = one.docs
  paths : other.pathIndex = one.pathIndex

inductive DocsAfter (env : Env) (before : AppState) (input : Input) (after : AppState) : Prop where
  | kept (quiet : writtenDoc env before input = none) (same : SameDocs before after)
  | written {doc : Doc} {tick now : Int} (wrote : writtenDoc env before input = some (doc, tick, now))
      (same : SameDocs (upsertDoc before doc tick now) after)
  | pruned (now : Int) (quiet : writtenDoc env before input = none)
      (same : SameDocs (pruneNoise before now noiseRetentionMs) after)
  | reloaded (quiet : writtenDoc env before input = none) (same : SameDocs (reload before) after)

/-- What keeps a restart from seeding and planting again. -/
structure Seeded (state : AppState) : Prop where
  welcome : ∃ row, state.db.docs.get? "welcome-ledger" = some row ∧ row.owner = "guest"
  planted : state.db.flagIndex.contains (0, 0) = true
  counted : ∀ id ∈ state.db.treasuryReceipts.keys, id ≤ state.db.receiptSeq

/-! Pruning. -/

section Prune
variable (gone : List (String × DocRow))

theorem prune_rest :
    (gone.foldl pruneOne state).db = { state.db with docs := (gone.foldl pruneOne state).db.docs } ∧
      (gone.foldl pruneOne state).snapshots = state.snapshots := by
  induction gone generalizing state with
  | nil => exact ⟨rfl, rfl⟩
  | cons entry rest ih => exact ih

theorem prune_row (id : String) : (gone.foldl pruneOne state).db.docs.get? id =
    if id ∈ gone.map Prod.fst then none else state.db.docs.get? id := by
  induction gone generalizing state with
  | nil => rfl
  | cons entry rest ih =>
      rw [List.foldl_cons, ih, pruneOne, get_remove_key, List.map_cons]
      by_cases later : id ∈ rest.map Prod.fst <;> by_cases here : id = entry.1 <;> simp [later, here]

theorem prune_doc (id : String) : (gone.foldl pruneOne state).docs.get? id =
    if id ∈ gone.map Prod.fst then none else state.docs.get? id := by
  induction gone generalizing state with
  | nil => rfl
  | cons entry rest ih =>
      rw [List.foldl_cons, ih, pruneOne, get_remove_key, List.map_cons]
      by_cases later : id ∈ rest.map Prod.fst <;> by_cases here : id = entry.1 <;> simp [later, here]

theorem prune_path (path : String) : (gone.foldl pruneOne state).pathIndex.get? path =
    if path ∈ gone.map (fun entry => entry.2.path) then none else state.pathIndex.get? path := by
  induction gone generalizing state with
  | nil => rfl
  | cons entry rest ih =>
      rw [List.foldl_cons, ih, pruneOne, get_remove_key, List.map_cons]
      by_cases later : path ∈ rest.map (fun entry => entry.2.path) <;>
        by_cases here : path = entry.2.path <;> simp [later, here]

end Prune

/-- The rows of a cycle's query, by their lookups. -/
theorem mem_prunable (cutoff : Int) (entry : String × DocRow) :
    entry ∈ state.db.docs.entries.filter (fun entry => prunable cutoff entry.2) ↔
      state.db.docs.get? entry.1 = some entry.2 ∧ prunable cutoff entry.2 = true := by
  rw [List.mem_filter, ← Dict.mem_entries_iff]

theorem kept_row {id : String} {row : DocRow} (found : state.db.docs.get? id = some row)
    (firm : ∀ cutoff, prunable cutoff row = false) (now retentionMs : Int) :
    (pruneNoise state now retentionMs).db.docs.get? id = some row := by
  rw [pruneNoise, prune_row, if_neg, found]
  intro member
  obtain ⟨entry, listed, rfl⟩ := List.mem_map.mp member
  obtain ⟨stored, drop⟩ := (mem_prunable _ entry).mp listed
  rw [found] at stored
  rw [← Option.some.inj stored, firm] at drop
  cases drop

/-! The documents. -/

theorem put_flag_vault {payload : Nat} (settlement : payload ≠ 1) (treasury : payload ≠ 2) (tick : Int)
    (flag id : String) (now : Int) :
    putFlag env state tick payload flag id now = putFlagVault env state tick flag now := by
  unfold putFlag
  split
  · exact absurd rfl settlement
  · exact absurd rfl treasury
  · rfl

theorem put_noise_doc {payload : Nat} (settlement : payload ≠ 1) (treasury : payload ≠ 2)
    (tick : Int) (id : String) (now : Int) :
    putNoise env state tick payload id now =
      upsertDoc state (noiseDoc env state tick payload) tick now := by
  unfold putNoise
  split
  · exact absurd rfl settlement
  · exact absurd rfl treasury
  · rfl

theorem same_docs : SameDocs state state := ⟨rfl, rfl, rfl⟩

theorem insert_settlement_docs {id : String} {row : Settlement} {written : AppState}
    (inserted : insertSettlement state id row = some written) : SameDocs state written := by
  obtain ⟨table, _, rfl⟩ := Option.map_eq_some_iff.mp inserted
  exact ⟨rfl, rfl, rfl⟩

theorem settlement_docs (id : String) (row : Settlement) :
    SameDocs state ((insertSettlement state id row).getD state) := by
  cases inserted : insertSettlement state id row with
  | none => exact same_docs
  | some written => exact insert_settlement_docs inserted

theorem seed_again (seeded : Seeded state) (now : Int) : seed state.db now = some state.db := by
  obtain ⟨row, found, _⟩ := seeded.welcome
  exact if_pos ((Dict.contains_eq_some _ _).mpr ⟨row, found⟩)

/-- A restart reloads, and does nothing else. -/
theorem boot_again (seeded : Seeded state) (id : String) (now : Int) :
    boot env state.db id now = some (reload state) := by
  rw [boot, seed_again seeded now]
  exact congrArg some (if_pos seeded.planted)

/-! The requests that are about accounts, policies, viewers and replicas. -/

def flagRows (db : Tables) := (db.flagIndex, db.settlements, db.treasuryReceipts, db.receiptSeq)

/-- Nothing that a flag is kept in has changed. -/
structure Aside (one other : AppState) : Prop where
  docs : SameDocs one other
  flags : flagRows other.db = flagRows one.db

theorem same_aside : Aside state state := ⟨same_docs, rfl⟩

def isAside : Input → Bool
  | .createViewer .. | .deleteViewer .. | .updatePolicy .. | .register .. | .login .. | .logout
    .. | .havoc ..
  | .heartbeat .. | .since .. | .read .. => true
  | _ => false

/-- What holds of the old state and of what an admin does holds after the request. -/
theorem as_admin_keeps {α : Type} {cookie : Option String} {now : Int} {act : AppState × Except Refusal α}
    (holds : AppState → Prop) (own : holds state) (acted : holds act.1) :
    holds (asAdmin env state cookie now act).1 := by
  unfold asAdmin
  split
  · exact own
  · split
    · exact own
    · exact acted

theorem aside_after (aside : isAside input = true) (taken : step env before input = some after) :
    Aside before after := by
  cases input with
  | createViewer cookie now key scopes =>
      rw [← Option.some.inj taken]
      exact as_admin_keeps (Aside before) same_aside ⟨⟨rfl, rfl, rfl⟩, rfl⟩
  | deleteViewer cookie now key =>
      rw [← Option.some.inj taken]
      exact as_admin_keeps (Aside before) same_aside ⟨⟨rfl, rfl, rfl⟩, rfl⟩
  | updatePolicy cookie now name maxBodyBytes retentionTicks allowedSigners =>
      rw [← Option.some.inj taken]
      refine as_admin_keeps (Aside before) same_aside ?_
      split <;> exact ⟨⟨rfl, rfl, rfl⟩, rfl⟩
  | register now username password hash =>
      rw [← Option.some.inj taken]
      unfold register
      split
      · exact same_aside
      · split
        · exact same_aside
        · -- a taken name leaves the tables, a new one adds a user and a session
          split <;> exact ⟨⟨rfl, rfl, rfl⟩, rfl⟩
  | login now username password =>
      rw [← Option.some.inj taken]
      unfold login
      split
      · exact same_aside
      · split <;> exact ⟨⟨rfl, rfl, rfl⟩, rfl⟩
  | logout cookie =>
      rw [← Option.some.inj taken]
      cases cookie <;> exact ⟨⟨rfl, rfl, rfl⟩, rfl⟩
  | havoc _ _ | heartbeat _ _ _ | since _ _ _ | read _ _ =>
      rw [← Option.some.inj taken]
      exact ⟨⟨rfl, rfl, rfl⟩, rfl⟩
  | _ => cases aside

/-- The shapes of a step on the documents: every handler but three leaves them. -/
theorem docs_after (seeded : Seeded before) (taken : step env before input = some after) :
    DocsAfter env before input after := by
  cases input with
  | putFlag tick payload flag id now =>
      rw [← Option.some.inj taken]
      by_cases settlement : payload = 1
      · subst settlement
        have same : SameDocs before _ := settlement_docs id
          ⟨"settlement-note", flag, "public", signSettlementToken env id (utf8 "public"), tick, now⟩
        exact .kept rfl ⟨same.rows, same.docs, same.paths⟩
      by_cases treasury : payload = 2
      · subst treasury
        exact .kept rfl ⟨rfl, rfl, rfl⟩
      have wrote : writtenDoc env before (.putFlag tick payload flag id now) =
          some (vaultDoc env tick flag, tick, now) :=
        if_neg (not_or.mpr ⟨settlement, treasury⟩)
      refine .written wrote ?_
      -- Every other payload is the vault.
      rw [put_flag_vault settlement treasury]
      exact ⟨rfl, rfl, rfl⟩
  | putNoise tick payload id now =>
      rw [← Option.some.inj taken]
      by_cases settlement : payload = 1
      · subst settlement
        exact .kept rfl (settlement_docs id _)
      by_cases treasury : payload = 2
      · subst treasury
        exact .kept rfl ⟨rfl, rfl, rfl⟩
      have wrote : writtenDoc env before (.putNoise tick payload id now) =
          some (noiseDoc env before tick payload, tick, now) :=
        if_neg (not_or.mpr ⟨settlement, treasury⟩)
      refine .written wrote ?_
      rw [put_noise_doc settlement treasury]
      exact ⟨rfl, rfl, rfl⟩
  | cycle now =>
      rw [← Option.some.inj taken]
      exact .pruned now rfl ⟨rfl, rfl, rfl⟩
  | restart id now =>
      rw [step, boot_again seeded, Option.some.injEq] at taken
      rw [← taken]
      exact .reloaded rfl ⟨rfl, rfl, rfl⟩
  | commit cookie now branch body signer =>
      rw [← Option.some.inj taken]
      cases caller : currentUser env before cookie now with
      | none =>
          have out : cliCommit env before cookie now branch body signer =
              (before, .error (401, "auth_required")) := by
            rw [cliCommit, caller]
          rw [out]
          exact .kept (by rw [writtenDoc, caller]; rfl) same_docs
      | some found =>
          refine .written (by rw [writtenDoc, caller]; rfl) ?_
          rw [cliCommit, caller]
          exact ⟨rfl, rfl, rfl⟩
  | createSettlement cookie now branch body id =>
      rw [← Option.some.inj taken]
      refine .kept rfl ?_
      cases caller : currentUser env before cookie now with
      | none =>
          simp only [createSettlement, caller]
          exact same_docs
      | some found =>
          simp only [createSettlement, caller]
          split
          · exact same_docs
          · next written inserted => exact insert_settlement_docs inserted
  | createReceipt cookie now body scope =>
      rw [← Option.some.inj taken]
      refine .kept rfl ?_
      unfold createReceipt
      split
      · exact same_docs
      · split <;> exact ⟨rfl, rfl, rfl⟩
  | createViewer _ _ _ _ | deleteViewer _ _ _ | updatePolicy _ _ _ _ _ _ | register _ _ _ _
  | login _ _ _ | logout _
  | havoc _ _ | heartbeat _ _ _ | since _ _ _ | read _ _ =>
      exact .kept rfl (aside_after rfl taken).docs

/-! The index of flags, settlements and receipts. -/

def indexSlot (payload : Nat) : Nat := if payload = 1 ∨ payload = 2 then payload else 0

def indexAfter (index : Dict (Int × Nat) String) : Input → Dict (Int × Nat) String
  | .putFlag tick payload flag _ _ => index.set (tick, indexSlot payload) flag
  | _ => index

structure FlagsAfter (before : AppState) (input : Input) (after : AppState) : Prop where
  index : after.db.flagIndex = indexAfter before.db.flagIndex input
  settlements : Grown before.db.settlements after.db.settlements
  receipts : Grown before.db.treasuryReceipts after.db.treasuryReceipts
  counted : ∀ id ∈ after.db.treasuryReceipts.keys, id ≤ after.db.receiptSeq

/-- No flag is indexed, no receipt written, and settlements are at most added to. -/
structure LeftFlags (one other : AppState) : Prop where
  index : other.db.flagIndex = one.db.flagIndex
  settlements : Grown one.db.settlements other.db.settlements
  receipts : other.db.treasuryReceipts = one.db.treasuryReceipts
  counter : other.db.receiptSeq = one.db.receiptSeq

theorem left_flags (same : flagRows other.db = flagRows state.db) : LeftFlags state other := by
  simp only [flagRows, Prod.mk.injEq] at same
  obtain ⟨index, settlements, receipts, counter⟩ := same
  refine ⟨index, ?_, receipts, counter⟩
  rw [settlements]
  exact grown_refl _

theorem LeftFlags.counted (left : LeftFlags before after) (seeded : Seeded before) :
    ∀ id ∈ after.db.treasuryReceipts.keys, id ≤ after.db.receiptSeq := by
  rw [left.receipts, left.counter]
  exact seeded.counted

theorem LeftFlags.silent (left : LeftFlags before after) (seeded : Seeded before)
    (silent : indexAfter before.db.flagIndex input = before.db.flagIndex) :
    FlagsAfter before input after where
  index := left.index.trans silent.symm
  settlements := left.settlements
  receipts := by
    rw [left.receipts]
    exact grown_refl _
  counted := left.counted seeded

theorem insert_settlement_left {id : String} {row : Settlement} {written : AppState}
    (inserted : insertSettlement state id row = some written) : LeftFlags state written := by
  obtain ⟨table, fits, rfl⟩ := Option.map_eq_some_iff.mp inserted
  obtain ⟨fresh, rfl⟩ := insert_new_some fits
  exact ⟨rfl, grown_set fresh row, rfl, rfl⟩

theorem settlement_left (id : String) (row : Settlement) :
    LeftFlags state ((insertSettlement state id row).getD state) := by
  cases inserted : insertSettlement state id row with
  | none => exact left_flags rfl
  | some written => exact insert_settlement_left inserted

/-- The next rowid is above every row's, so no receipt is written over. -/
theorem insert_receipt_grown (counted : ∀ id ∈ state.db.treasuryReceipts.keys, id ≤ state.db.receiptSeq)
    (row : Receipt) :
    Grown state.db.treasuryReceipts (insertReceipt state row).1.db.treasuryReceipts ∧
      ∀ id ∈ (insertReceipt state row).1.db.treasuryReceipts.keys,
      id ≤ (insertReceipt state row).1.db.receiptSeq := by
  constructor
  · refine grown_set (fun member => ?_) row
    have bound := counted _ member
    omega
  · intro id member
    rcases (Dict.mem_keys_set _ _ _ row).mp member with rfl | old
    · exact le_rfl
    · exact (counted id old).trans (Nat.le_succ _)

theorem flags_after (seeded : Seeded before) (taken : step env before input = some after) :
    FlagsAfter before input after := by
  cases input with
  | putFlag tick payload flag id now =>
      rw [← Option.some.inj taken]
      by_cases settlement : payload = 1
      · subst settlement
        have left : LeftFlags before ((insertSettlement before id ⟨"settlement-note", flag, "public",
            signSettlementToken env id (utf8 "public"), tick, now⟩).getD before) := settlement_left id _
        have rest := left.silent seeded (rfl : indexAfter _ (.havoc tick 1) = _)
        exact ⟨congrArg (·.set (tick, 1) flag) left.index, left.settlements, rest.receipts, rest.counted⟩
      by_cases treasury : payload = 2
      · subst treasury
        obtain ⟨grown, counted⟩ := insert_receipt_grown seeded.counted ⟨flag, "treasury", tick, now⟩
        exact ⟨rfl, grown_refl _, grown, counted⟩
      rw [put_flag_vault settlement treasury]
      have slot : indexSlot payload = 0 := if_neg (not_or.mpr ⟨settlement, treasury⟩)
      exact ⟨by rw [indexAfter, slot]; rfl, grown_refl _, grown_refl _, seeded.counted⟩
  | putNoise tick payload id now =>
      rw [← Option.some.inj taken]
      by_cases settlement : payload = 1
      · subst settlement
        exact (settlement_left id _).silent seeded rfl
      by_cases treasury : payload = 2
      · subst treasury
        obtain ⟨grown, counted⟩ := insert_receipt_grown seeded.counted
          ⟨"treasury-noise:" ++ env.service ++ ":" ++ toString tick, "noise:" ++ toString tick, tick, now⟩
        exact ⟨rfl, grown_refl _, grown, counted⟩
      rw [put_noise_doc settlement treasury]
      exact LeftFlags.silent (left_flags rfl) seeded rfl
  | cycle now =>
      rw [← Option.some.inj taken]
      let gone := before.db.docs.entries.filter fun entry => prunable (now - noiseRetentionMs) entry.2
      have rest : (gone.foldl pruneOne before).db =
          { before.db with docs := (gone.foldl pruneOne before).db.docs } :=
        (prune_rest gone).1
      suffices left : LeftFlags before _ from left.silent seeded rfl
      refine left_flags ?_
      rw [cycle, pruneNoise, rest]
      rfl
  | restart id now =>
      rw [step, boot_again seeded, Option.some.injEq] at taken
      rw [← taken]
      exact LeftFlags.silent (left_flags rfl) seeded rfl
  | commit cookie now branch body signer =>
      rw [← Option.some.inj taken]
      suffices left : LeftFlags before _ from left.silent seeded rfl
      unfold cliCommit
      split <;> exact left_flags rfl
  | createSettlement cookie now branch body id =>
      rw [← Option.some.inj taken]
      cases caller : currentUser env before cookie now with
      | none =>
          simp only [createSettlement, caller]
          exact LeftFlags.silent (left_flags rfl) seeded rfl
      | some found =>
          simp only [createSettlement, caller]
          split
          · exact LeftFlags.silent (left_flags rfl) seeded rfl
          · next written inserted =>
            exact (insert_settlement_left inserted).silent seeded rfl
  | createReceipt cookie now body scope =>
      rw [← Option.some.inj taken]
      unfold createReceipt
      split
      · exact LeftFlags.silent (left_flags rfl) seeded rfl
      · split
        · exact LeftFlags.silent (left_flags rfl) seeded rfl
        · obtain ⟨grown, counted⟩ := insert_receipt_grown seeded.counted ⟨body, scope, 0, now⟩
          exact ⟨rfl, grown_refl _, grown, counted⟩
  | createViewer _ _ _ _ | deleteViewer _ _ _ | updatePolicy _ _ _ _ _ _ | register _ _ _ _
  | login _ _ _ | logout _
  | havoc _ _ | heartbeat _ _ _ | since _ _ _ | read _ _ =>
      exact (left_flags (aside_after rfl taken).flags).silent seeded rfl

/-! The ids that documents are written under. -/

/-- The strings that an input hands to short_hash. -/
def hashedTexts (env : Env) (state : AppState) : Input → List String
  | .putFlag tick payload flag _ _ =>
      if payload = 1 ∨ payload = 2 then [] else [vaultText env tick flag, snapText env tick flag]
  | .putNoise tick payload _ _ => if payload = 1 ∨ payload = 2 then [] else [noiseText env tick payload]
  | .commit cookie now branch body _ =>
      if (currentUser env state cookie now).isSome then [commitText state branch body] else []
  | .restart _ _ =>
      if state.db.flagIndex.contains (0, 0) then [] else [vaultText env 0 env.bootFlag,
        snapText env 0 env.bootFlag]
  | _ => []

theorem written_hashed {doc : Doc} {tick now : Int}
    (wrote : writtenDoc env before input = some (doc, tick, now)) :
    ∃ text ∈ hashedTexts env before input, doc.id = shortHash env text := by
  cases input with
  | putFlag tick payload flag id now =>
      obtain ⟨other, stored⟩ := Option.ite_none_left_eq_some.mp wrote
      cases stored
      refine ⟨vaultText env tick flag, ?_, rfl⟩
      rw [hashedTexts, if_neg other]
      exact List.mem_cons_self
  | putNoise tick payload id now =>
      obtain ⟨other, stored⟩ := Option.ite_none_left_eq_some.mp wrote
      cases stored
      refine ⟨noiseText env tick payload, ?_, rfl⟩
      rw [hashedTexts, if_neg other]
      exact List.mem_cons_self
  | commit cookie now branch body signer =>
      obtain ⟨found, caller, stored⟩ := Option.map_eq_some_iff.mp wrote
      cases stored
      refine ⟨commitText before branch body, ?_, rfl⟩
      rw [hashedTexts, caller]
      exact List.mem_cons_self
  | _ => cases wrote

/-- No document is written over the welcome page, whose name is no hash. -/
theorem short_hash_welcome (text : String) : shortHash env text ≠ "welcome-ledger" := by
  intro same
  have listed := hex_text_digits _ 'w' (by rw [← shortHash, same]; decide)
  exact absurd listed (by decide)

/-! What every reached state has. -/

/-- The map of documents is the table's. -/
def Mirrored (state : AppState) : Prop := ∀ id, state.docs.get? id = (state.db.docs.get? id).map (docOf id)

structure Sound (state : AppState) : Prop where
  seeded : Seeded state
  mirrored : Mirrored state

theorem mirrored_same (mirrored : Mirrored before) (same : SameDocs before after) : Mirrored after := by
  intro id
  rw [same.docs, same.rows, mirrored]

theorem mirrored_upsert (mirrored : Mirrored state) (doc : Doc) (tick now : Int) :
    Mirrored (upsertDoc state doc tick now) := by
  intro id
  rw [upsertDoc, Dict.get_set, Dict.get_set]
  by_cases same : doc.id = id
  · rw [if_pos same, if_pos same, ← same]
    rfl
  · rw [if_neg same, if_neg same, mirrored]

theorem mirrored_prune (mirrored : Mirrored state) (now retentionMs : Int) :
    Mirrored (pruneNoise state now retentionMs) := by
  intro id
  rw [pruneNoise, prune_doc, prune_row, mirrored]
  split <;> rfl

theorem mirrored_reload (state : AppState) : Mirrored (reload state) :=
  fun id => Dict.get_map_entries docOf _ id

theorem mirrored_after (sound : Sound before) (taken : step env before input = some after) :
    Mirrored after := by
  cases docs_after sound.seeded taken with
  | kept _ same => exact mirrored_same sound.mirrored same
  | written _ same => exact mirrored_same (mirrored_upsert sound.mirrored _ _ _) same
  | pruned now _ same => exact mirrored_same (mirrored_prune sound.mirrored now _) same
  | reloaded _ same => exact mirrored_same (mirrored_reload before) same

theorem welcome_after (seeded : Seeded before) (taken : step env before input = some after) :
    ∃ row, after.db.docs.get? "welcome-ledger" = some row ∧ row.owner = "guest" := by
  obtain ⟨row, found, guest⟩ := seeded.welcome
  refine ⟨row, ?_, guest⟩
  cases docs_after seeded taken with
  | kept _ same => rw [same.rows, found]
  | written wrote same =>
      obtain ⟨text, _, hashed⟩ := written_hashed wrote
      rw [same.rows, upsertDoc, hashed, Dict.get_set_other _ _ _ _ (short_hash_welcome text), found]
  | pruned now _ same =>
      rw [same.rows]
      refine kept_row found (fun cutoff => ?_) now _
      rw [prunable, guest]
      simp
  | reloaded _ same => rw [same.rows, ← found]; rfl

theorem sound_after (sound : Sound before) (taken : step env before input = some after) : Sound after where
  seeded := by
    have flags := flags_after sound.seeded taken
    refine ⟨welcome_after sound.seeded taken, ?_, flags.counted⟩
    rw [flags.index, Dict.contains_iff]
    have old := (Dict.contains_iff _ _).mp sound.seeded.planted
    cases input with
    | putFlag => exact (Dict.mem_keys_set _ _ _ _).mpr (.inr old)
    | _ => exact old
  mirrored := mirrored_after sound taken

/-! The first start, on an empty file. -/

theorem seed_empty {now : Int} {db : Tables} (seeded : seed {} now = some db) :
    db.docs = Dict.empty.set "welcome-ledger" (welcomeRow now) ∧ db.flagIndex = Dict.empty ∧
      db.treasuryReceipts = Dict.empty := by
  have fresh : db = _ := (Option.some.inj seeded).symm
  rw [fresh]
  exact ⟨rfl, rfl, rfl⟩

section BootFlags
variable (bare : state.db.flagIndex.contains (0, 0) = false) (id : String) (now : Int)
include bare

theorem boot_flags_bare : bootFlags env state id now =
    (putFlag env (putFlag env (putFlag env state 0 0 env.bootFlag id now).1 0 1 (env.bootFlag ++
      "_SETTLEMENT") id now).1
      0 2 (env.bootFlag ++ "_TREASURY") id now).1 := if_neg (ne_true_of_eq_false bare)

theorem boot_flags_docs :
    SameDocs (upsertDoc state (vaultDoc env 0 env.bootFlag) 0 now) (bootFlags env state id now) := by
  rw [boot_flags_bare bare]
  have same : SameDocs (putFlag env state 0 0 env.bootFlag id now).1 _ := settlement_docs id
    ⟨"settlement-note", env.bootFlag ++ "_SETTLEMENT", "public",
      signSettlementToken env id (utf8 "public"), 0, now⟩
  exact ⟨same.rows, same.docs, same.paths⟩

theorem boot_flags_seeded (none : state.db.treasuryReceipts = Dict.empty) :
    (bootFlags env state id now).db.flagIndex.contains (0, 0) = true ∧
      ∀ receipt ∈ (bootFlags env state id now).db.treasuryReceipts.keys,
        receipt ≤ (bootFlags env state id now).db.receiptSeq := by
  rw [boot_flags_bare bare]
  let vault := (putFlag env state 0 0 env.bootFlag id now).1
  have settled :
      LeftFlags vault
      ((insertSettlement vault id ⟨"settlement-note", env.bootFlag ++ "_SETTLEMENT", "public",
        signSettlementToken env id (utf8 "public"), 0, now⟩).getD vault) := settlement_left id _
  constructor
  · rw [Dict.contains_iff]
    refine (Dict.mem_keys_set _ (0, 2) _ _).mpr (.inr ((Dict.mem_keys_set _ (0, 1) _ _).mpr (.inr ?_)))
    rw [settled.index]
    exact (Dict.mem_keys_set _ (0, 0) _ _).mpr (.inl rfl)
  · refine (insert_receipt_grown (fun other member => ?_) _).2
    have empty : vault.db.treasuryReceipts = Dict.empty := none
    have listed := settled.receipts.trans empty ▸ member
    cases listed

end BootFlags

theorem booted_docs {id : String} {now : Int} (booted : boot env {} id now = some state) :
    ∃ first, first.db.docs = Dict.empty.set "welcome-ledger" (welcomeRow now) ∧ reload first = first ∧
      SameDocs (upsertDoc first (vaultDoc env 0 env.bootFlag) 0 now) state := by
  obtain ⟨db, seeded, planted⟩ := Option.map_eq_some_iff.mp booted
  obtain ⟨docs, index, _⟩ := seed_empty seeded
  have bare : db.flagIndex.contains (0, 0) = false := by rw [index]; rfl
  refine ⟨reload ⟨db, Dict.empty, Dict.empty, Dict.empty⟩, docs, rfl, ?_⟩
  rw [← planted]
  exact boot_flags_docs bare id now

theorem booted_sound {id : String} {now : Int} (booted : boot env {} id now = some state) :
    Sound state := by
  obtain ⟨first, docs, loaded, same⟩ := booted_docs booted
  obtain ⟨db, seeded, planted⟩ := Option.map_eq_some_iff.mp booted
  obtain ⟨_, index, receipts⟩ := seed_empty seeded
  have bare : db.flagIndex.contains (0, 0) = false := by rw [index]; rfl
  let opened := reload ⟨db, Dict.empty, Dict.empty, Dict.empty⟩
  have flags : (bootFlags env opened id now).db.flagIndex.contains (0, 0) = true ∧ _ :=
    boot_flags_seeded bare id now receipts
  rw [planted] at flags
  obtain ⟨flagged, counted⟩ := flags
  refine ⟨⟨⟨welcomeRow now, ?_, rfl⟩, flagged, counted⟩, ?_⟩
  · rw [same.rows]
    refine (Dict.get_set_other _ _ _ _ (short_hash_welcome _)).trans ?_
    rw [docs, Dict.get_set_self]
  · refine mirrored_same (mirrored_upsert ?_ _ _ _) same
    rw [← loaded]
    exact mirrored_reload first

theorem reached_sound {inputs : List Input} (sound : Sound before)
    (ran : run env before inputs = some after) :
    Sound after :=
  steps_invariant Sound (fun _ _ _ kept _ taken => sound_after kept taken) sound
  (exec_steps inputs before after ran)

/-- No input stops the service. -/
theorem step_taken (env : Env) (sound : Sound state) (input : Input) :
    ∃ next, step env state input = some next := by
  cases input with
  | restart id now => exact ⟨_, boot_again sound.seeded id now⟩
  | _ => exact ⟨_, rfl⟩

end KosSim.LedgerForge
