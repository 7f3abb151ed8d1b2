import KosSim.Library.Decimal
import KosSim.ForgeDocs

/-!
Planted flags of LedgerForge: a flag that put_flag has stored is found by get_flag after
every later run. Documents are written under hashes of strings that clients choose parts
of, so the hash is taken to tell the strings of the run apart.
-/

namespace KosSim.LedgerForge
open Library Ledger

variable {env : Env} {state before after : AppState} {input : Input} {tick : Int} {variant : Nat}
    {flag : String}

/-- The strings hashed in a run. -/
def hashed (env : Env) : AppState → List Input → List String
  | _, [] => []
  | state, input :: rest =>
      hashedTexts env state input ++
        match step env state input with
        | none => []
        | some next => hashed env next rest

def CollisionFree (env : Env) (texts : List String) : Prop :=
  ∀ one ∈ texts, ∀ other ∈ texts, shortHash env one = shortHash env other → one = other

/-- The checker plants no second flag for the pair, and knows three variants. -/
def Other (tick : Int) (variant : Nat) : Input → Prop
  | .putFlag otherTick payload _ _ _ => payload ≤ 2 ∧ (otherTick, payload) ≠ (tick, variant)
  | _ => True

/-- Where a variant keeps its flag. -/
def Stored (env : Env) (state : AppState) (tick : Int) (flag : String) : Nat → Prop
  | 0 => ∃ row, state.db.docs.get? (shortHash env (vaultText env tick flag)) = some row ∧
      row.className = "wire-transfer" ∧ row.body = flag
  | 1 => ∃ id row, state.db.settlements.get? id = some row ∧ row.body = flag
  | 2 => ∃ id row, state.db.treasuryReceipts.get? id = some row ∧ row.body = flag
  | _ => False

structure Planted (env : Env) (state : AppState) (tick : Int) (variant : Nat) (flag : String) : Prop where
  indexed : state.db.flagIndex.get? (tick, variant) = some flag
  stored : Stored env state tick flag variant

/-! The strings that are hashed. -/

theorem vault_text_chars (env : Env) (tick : Int) (flag : String) : (vaultText env tick flag).toList =
    ("vault:" ++ env.team ++ ":").toList ++ ((toString tick).toList ++ ':' :: flag.toList) := by
  simp [vaultText]

theorem vault_text_tick {other : Int} {flags : String}
    (same : vaultText env tick flag = vaultText env other flags) :
    tick = other := by
  have chars := congrArg String.toList same
  rw [vault_text_chars, vault_text_chars, List.append_cancel_left_eq] at chars
  have free : ∀ n : Int, ':' ∉ (toString n).toList := by
    intro n member
    rcases int_text_chars n ':' member with digit | sign
    · exact absurd digit (by decide)
    · exact absurd sign (by decide)
  exact int_text_injective (String.toList_injective (first_mark_inj (free tick) (free other) chars).1)

theorem noise_text_apart (payload : Nat) (other : Int) :
    noiseText env tick payload ≠ vaultText env other flag := by
  intro same
  have chars := congrArg (fun text => text.toList.head?) same
  simp [noiseText, vaultText] at chars

theorem snap_text_apart (other : Int) {flags : String} :
    snapText env other flags ≠ vaultText env tick flag := by
  intro same
  have chars := congrArg (fun text => text.toList.head?) same
  simp [snapText, vaultText] at chars

/-- A commit's string ends in a digit. -/
theorem commit_text_apart {branch body : String} (closed : flag.toList.getLast? = some '}') :
    commitText state branch body ≠ vaultText env tick flag := by
  intro same
  obtain ⟨c, last, digit⟩ := nat_text_last state.docs.entries.length
  have commit : (commitText state branch body).toList.getLast? = some c := by
    rw [commitText, String.toList_append, List.getLast?_append, last]
    rfl
  have vault : (vaultText env tick flag).toList.getLast? = some '}' := by
    rw [vaultText, String.toList_append, List.getLast?_append, closed]
    rfl
  rw [same, vault, Option.some.injEq] at commit
  rw [← commit] at digit
  exact absurd digit (by decide)

/-! One step. -/

/-- No later input hashes the string of a planted document. -/
theorem hashed_apart (seeded : Seeded before) (closed : flag.toList.getLast? = some '}')
    (other : Other tick 0 input) :
    vaultText env tick flag ∉ hashedTexts env before input := by
  cases input with
  | putFlag otherTick payload otherFlag id now =>
      obtain ⟨known, apart⟩ := other
      by_cases kept : payload = 1 ∨ payload = 2
      · rw [hashedTexts, if_pos kept]
        exact List.not_mem_nil
      rw [hashedTexts, if_neg kept, List.mem_cons, List.mem_singleton]
      rintro (vault | snap)
      · exact apart (Prod.ext (vault_text_tick vault).symm (by omega))
      · exact snap_text_apart otherTick snap.symm
  | putNoise noiseTick payload id now =>
      intro listed
      rw [hashedTexts] at listed
      split at listed
      · cases listed
      · exact noise_text_apart payload tick (List.mem_singleton.mp listed).symm
  | commit cookie now branch body signer =>
      intro listed
      rw [hashedTexts] at listed
      split at listed
      · exact commit_text_apart closed (List.mem_singleton.mp listed).symm
      · cases listed
  | restart id now =>
      rw [hashedTexts, if_pos seeded.planted]
      exact List.not_mem_nil
  | _ => exact List.not_mem_nil

/-- The hash tells the string of the planted document from what an input hashes. -/
def Clear (env : Env) (tick : Int) (flag : String) (texts : List String) : Prop :=
  ∀ text ∈ texts, shortHash env text = shortHash env (vaultText env tick flag) →
    text = vaultText env tick flag

theorem vault_row_kept (sound : Sound before) (closed : flag.toList.getLast? = some '}')
    (other : Other tick 0 input) (clear : Clear env tick flag (hashedTexts env before input))
    (taken : step env before input = some after) {row : DocRow}
    (found : before.db.docs.get? (shortHash env (vaultText env tick flag)) = some row)
    (className : row.className = "wire-transfer") :
    after.db.docs.get? (shortHash env (vaultText env tick flag)) = some row := by
  -- Only a write under the planted id could lose the row, and its string would have to be the planted one.
  cases docs_after sound.seeded taken with
  | kept _ same => rw [same.rows, found]
  | written wrote same =>
      obtain ⟨text, listed, named⟩ := written_hashed wrote
      rw [same.rows, upsertDoc, named, Dict.get_set_other, found]
      -- The same id means the same string, which this input does not hash.
      intro hit
      have equal := clear text listed hit
      exact hashed_apart sound.seeded closed other (equal ▸ listed)
  | pruned now _ same =>
      rw [same.rows]
      refine kept_row found (fun cutoff => ?_) now _
      rw [prunable, className]
      rfl
  | reloaded _ same =>
      rw [same.rows, ← found]
      rfl

theorem index_kept (other : Other tick variant input) (index : Dict (Int × Nat) String) :
    (indexAfter index input).get? (tick, variant) = index.get? (tick, variant) := by
  cases input with
  | putFlag otherTick payload otherFlag id now =>
      obtain ⟨known, apart⟩ := other
      have slot : indexSlot payload = payload := by
        unfold indexSlot
        split <;> omega
      rw [indexAfter, slot, Dict.get_set_other _ _ _ _ apart]
  | _ => rfl

theorem planted_after (sound : Sound before) (closed : flag.toList.getLast? = some '}')
    (other : Other tick variant input)
    (clear : variant = 0 → Clear env tick flag (hashedTexts env before input))
    (taken : step env before input = some after) (planted : Planted env before tick variant flag) :
    Planted env after tick variant flag := by
  have flags := flags_after sound.seeded taken
  constructor
  · rw [flags.index, index_kept other]
    exact planted.indexed
  · match variant, other, clear, planted.stored with
    | 0, other, clear, ⟨row, found, className, body⟩ =>
        exact ⟨row, vault_row_kept sound closed other (clear rfl) taken found className, className, body⟩
    | 1, _, _, ⟨id, row, found, body⟩ => exact ⟨id, row, flags.settlements id row found, body⟩
    | 2, _, _, ⟨id, row, found, body⟩ => exact ⟨id, row, flags.receipts id row found, body⟩

/-! Whole runs. -/

theorem planted_run {inputs : List Input} (sound : Sound state)
    (closed : flag.toList.getLast? = some '}') (others : ∀ input ∈ inputs, Other tick variant input)
    (clear : variant = 0 → Clear env tick flag (hashed env state inputs))
    (planted : Planted env state tick variant flag) :
    ∃ last, run env state inputs = some last ∧ Sound last ∧ Planted env last tick variant flag := by
  induction inputs generalizing state with
  | nil => exact ⟨state, rfl, sound, planted⟩
  | cons input rest ih =>
      obtain ⟨next, taken⟩ := step_taken env sound input
      have texts : hashed env state (input :: rest) = hashedTexts env state input ++
          hashed env next rest := by
        rw [hashed, taken]
      rw [texts] at clear
      have kept := planted_after sound closed (others input List.mem_cons_self)
        (fun vault text listed => clear vault text (List.mem_append_left _ listed)) taken planted
      obtain ⟨last, ran, soundLast, plantedLast⟩ := ih (sound_after sound taken)
        (fun later listed => others later (List.mem_cons_of_mem _ listed))
        (fun vault text listed => clear vault text (List.mem_append_right _ listed)) kept
      refine ⟨last, ?_, soundLast, plantedLast⟩
      rw [run, exec, if_pos trivial, taken]
      exact ran

theorem put_settlement_stored {id : String} (fresh : id ∉ state.db.settlements.keys) (now : Int) :
    (putFlag env state tick 1 flag id now).1.db.settlements.get? id =
      some ⟨"settlement-note", flag, "public", signSettlementToken env id (utf8 "public"), tick, now⟩ := by
  let row : Settlement :=
    ⟨"settlement-note", flag, "public", signSettlementToken env id (utf8 "public"), tick, now⟩
  have inserted : insertSettlement state id row =
      some { state with db := { state.db with settlements := state.db.settlements.set id row } } := by
    rw [insertSettlement, insert_new_fresh fresh]
    rfl
  show ((insertSettlement state id row).getD state).db.settlements.get? id = some row
  rw [inserted]
  exact Dict.get_set_self _ _ _

theorem put_flag_planted (listed : variant ≤ 2) {id : String}
    (fresh : variant = 1 → id ∉ state.db.settlements.keys) (now : Int) :
    Planted env (putFlag env state tick variant flag id now).1 tick variant flag := by
  match variant, listed with
  | 0, _ =>
      exact ⟨Dict.get_set_self _ _ _, rowOf (vaultDoc env tick flag) tick now, Dict.get_set_self _ _ _,
        rfl, rfl⟩
  | 1, _ => exact ⟨Dict.get_set_self _ _ _, id, _, put_settlement_stored (fresh rfl) now, rfl⟩
  | 2, _ => exact ⟨Dict.get_set_self _ _ _, state.db.receiptSeq + 1, _, Dict.get_set_self _ _ _, rfl⟩

/-- A stored flag is found: a document through the map, the others in their tables. -/
theorem get_flag_planted (sound : Sound state) (planted : Planted env state tick variant flag) :
    getFlag state tick variant flag = true := by
  obtain ⟨indexed, stored⟩ := planted
  match variant, indexed, stored with
  | 0, indexed, ⟨row, found, _, body⟩ =>
      have held := sound.mirrored (shortHash env (vaultText env tick flag))
      rw [found] at held
      rw [getFlag, indexed]
      refine (if_pos rfl).trans (List.any_eq_true.mpr ⟨_, (Dict.mem_entries_iff _ _ _).mpr held, ?_⟩)
      exact decide_eq_true body
  | 1, indexed, ⟨id, row, found, body⟩ =>
      rw [getFlag, indexed]
      refine (if_pos rfl).trans (List.any_eq_true.mpr ⟨_, (Dict.mem_entries_iff _ _ _).mpr found, ?_⟩)
      exact decide_eq_true body
  | 2, indexed, ⟨id, row, found, body⟩ =>
      rw [getFlag, indexed]
      refine (if_pos rfl).trans (List.any_eq_true.mpr ⟨_, (Dict.mem_entries_iff _ _ _).mpr found, ?_⟩)
      exact decide_eq_true body

/-- From every state that the service reaches, every flag that the checker plants is found
after every later run, which nothing stops. -/
theorem planted_flag_kept {bootId : String} {bootNow : Int} {start : AppState}
    (booted : boot env {} bootId bootNow = some start) {earlier : List Input}
    (reached : run env start earlier = some state) (listed : variant ≤ 2)
    (closed : flag.toList.getLast? = some '}') {id : String}
    (fresh : variant = 1 → id ∉ state.db.settlements.keys) (now : Int) {later : List Input}
    (others : ∀ input ∈ later, Other tick variant input)
    (apart : CollisionFree env (hashed env state (.putFlag tick variant flag id now :: later))) :
    ∃ last, run env state (.putFlag tick variant flag id now :: later) = some last ∧
      getFlag last tick variant flag = true := by
  have sound := reached_sound (booted_sound booted) reached
  have taken : step env state (.putFlag tick variant flag id now) =
      some (putFlag env state tick variant flag id now).1 := rfl
  have clear : variant = 0 →
      Clear env tick flag (hashed env (putFlag env state tick variant flag id now).1 later) := by
    rintro rfl text hashedLater same
    exact apart text (List.mem_append_right _ hashedLater)
      _ (List.mem_append_left _ List.mem_cons_self) same
  obtain ⟨last, ran, soundLast, plantedLast⟩ := planted_run (sound_after sound taken) closed others clear
    (put_flag_planted listed fresh now)
  refine ⟨last, ?_, get_flag_planted soundLast plantedLast⟩
  rw [run, exec, if_pos trivial, taken]
  exact ran

/-- Cookies of the form id.expiry; the password is its own hash. -/
def mirrorEnv : Env where
  verifyPassword hash password := decide (hash = password)
  signSession uid exp := toString uid ++ "." ++ toString exp
  verifySession token := if token = "1.14400" then some (1, 14400) else none

def mirrorStart : AppState := (boot mirrorEnv {} "stl-0" 0).get (by decide +kernel)

def mirrorState : AppState :=
  (run mirrorEnv mirrorStart [.register 0 "mirror" "password" "password"]).get (by decide +kernel)

/-- A commit that spells the planted string out, noise, a second flag, a cycle and a restart. -/
def mirrorLater : List Input :=
  [.commit (some "1.14400") 0 "vault:team:7" "FLAG\x7bseven\x7d" (some "noise"), .putNoise 7 0 "n-1" 0,
    .putFlag 8 0 "FLAG\x7beight\x7d" "n-2" 0, .cycle 1800001, .restart "n-3" 1800002]

theorem mirror_flag_kept : ∃ last,
    run mirrorEnv mirrorState (.putFlag 7 0 "FLAG\x7bseven\x7d" "n-0" 0 :: mirrorLater) = some last ∧
      getFlag last 7 0 "FLAG\x7bseven\x7d" = true := by
  refine planted_flag_kept (Option.some_get _).symm (Option.some_get _).symm (by decide) (by decide)
    (by decide) 0 ?_ ?_
  · simp [mirrorLater, Other]
  · unfold CollisionFree
    decide +kernel

end KosSim.LedgerForge
