import KosSim.SpecterLog

/-!
Planted flags of SpecterLog. Incidents are rows that nothing deletes, blobs and briefs are
written under generated ids and never again; one frame (`Keeps`) says so for every
operation, and the run lemma follows from it.
-/

namespace KosSim.SpecterLog
open Library

variable {env : Env} {store one other before after : Store} {input : Input}

/-- A text that the private stream has, in the table and in memory. -/
def Incident (store : Store) (text : String) : Prop :=
  (∃ row ∈ store.db.events, row.stream = "private" ∧ row.body = text) ∧
    ∃ event ∈ store.events, event.stream = "private" ∧ event.body = js text

/-- What an operation leaves in place; the index may change at the one pair. -/
structure Keeps (pair : Option (Int × Int)) (one other : Store) : Prop where
  incidents : ∀ text, Incident one text → Incident other text
  blobs : Grown one.blobs other.blobs
  briefs : Grown one.db.briefs other.db.briefs
  index : ∀ key, pair ≠ some key → other.db.flagIndex.get? key = one.db.flagIndex.get? key
  indexed : ∀ key ∈ one.db.flagIndex.keys, key ∈ other.db.flagIndex.keys

theorem Keeps.trans {pair : Option (Int × Int)} {last : Store} (first : Keeps pair one other)
    (second : Keeps pair other last) : Keeps pair one last where
  incidents text held := second.incidents text (first.incidents text held)
  blobs := grown_trans first.blobs second.blobs
  briefs := grown_trans first.briefs second.briefs
  index key apart := (second.index key apart).trans (first.index key apart)
  indexed key member := second.indexed key (first.indexed key member)

/-- The parts of a store that flags are kept in. -/
def flagParts (store : Store) :=
  (store.db.events, store.events, store.blobs, store.db.attachments, store.db.briefs, store.db.flagIndex)

theorem keeps_parts {pair : Option (Int × Int)} (same : flagParts other = flagParts one) :
    Keeps pair one other := by
  simp only [flagParts, Prod.mk.injEq] at same
  obtain ⟨rows, events, blobs, _, briefs, index⟩ := same
  constructor
  · intro text held
    rw [Incident, rows, events]
    exact held
  · rw [blobs]
    exact grown_refl _
  · rw [briefs]
    exact grown_refl _
  · intro key _
    rw [index]
  · rw [index]
    exact fun _ member => member

theorem keeps_refl (pair : Option (Int × Int)) (store : Store) : Keeps pair store store := keeps_parts rfl

/-- A method that may throw leaves what its first part leaves, or what its continuation does. -/
theorem and_then_holds {α β : Type} (holds : Store → Prop) {done : Store × Except String α}
    {next : Store → α → Store × Except String β} (first : holds done.1)
    (second : ∀ value, done.2 = .ok value → holds (next done.1 value).1) : holds (andThen done next).1 := by
  unfold andThen
  split
  · exact first
  · next value succeeded => exact second value succeeded

theorem and_then_keeps {α β : Type} {pair : Option (Int × Int)} {done : Store × Except String α}
    {next : Store → α → Store × Except String β} (first : Keeps pair store done.1)
    (second : ∀ value, done.2 = .ok value → Keeps pair done.1 (next done.1 value).1) :
    Keeps pair store (andThen done next).1 :=
  and_then_holds (Keeps pair store) first fun value succeeded => first.trans (second value succeeded)

theorem and_then_ok {α β : Type} {done : Store × Except String α}
    {next : Store → α → Store × Except String β} {value : β}
    (succeeded : (andThen done next).2 = .ok value) :
    ∃ middle, done.2 = .ok middle ∧ (next done.1 middle).2 = .ok value := by
  unfold andThen at succeeded
  split at succeeded
  · cases succeeded
  · next middle first => exact ⟨middle, first, succeeded⟩

theorem and_then_return {α β : Type} (done : Store × Except String α) (value : β) :
    (andThen done fun store _ => (store, .ok value)).1 = done.1 := by
  unfold andThen
  split <;> rfl

/-! The event log. -/

section Log
variable {pair : Option (Int × Int)}

theorem append_keeps (store : Store) (stream kind : String) (body : JsString) (isPublic : Bool)
    (payload tick now : Int) :
    Keeps pair store (append store stream kind body isPublic payload tick now).1 where
  incidents text held := by
    obtain ⟨⟨row, rowMember, rowHolds⟩, event, eventMember, eventHolds⟩ := held
    exact ⟨⟨row, List.mem_append_left _ rowMember, rowHolds⟩, event, List.mem_append_left _ eventMember,
      eventHolds⟩
  blobs := grown_refl _
  briefs := grown_refl _
  index _ _ := rfl
  indexed _ member := member

/-- The memory of a reload is made from the rows. -/
theorem reload_event {row : EventRow} (member : row ∈ store.db.events) :
    ∃ event ∈ (reload store).events, event.stream = row.stream ∧ event.body = js row.body := by
  obtain ⟨idx, bound, found⟩ := List.getElem_of_mem member
  refine ⟨toDomain row idx, List.mem_mapIdx.mpr ⟨idx, bound, by rw [found]⟩, rfl, rfl⟩

theorem reload_keeps (store : Store) : Keeps pair store (reload store) where
  incidents text held := by
    obtain ⟨⟨row, member, stream, body⟩, _⟩ := held
    obtain ⟨event, listed, eventStream, eventBody⟩ := reload_event member
    exact ⟨⟨row, member, stream, body⟩, event, listed, eventStream.trans stream, by rw [eventBody, body]⟩
  blobs := grown_refl _
  briefs := grown_refl _
  index _ _ := rfl
  indexed _ member := member

/-- Only the public stream is pruned. -/
theorem private_row_kept {row : EventRow} (member : row ∈ store.db.events)
    (stream : row.stream = "private") (cutoff : Int) :
    row ∈ store.db.events.filter fun row => !oldNoise cutoff row := by
  refine List.mem_filter.mpr ⟨member, ?_⟩
  rw [oldNoise, stream]
  simp

theorem prune_keeps (store : Store) (retentionMs now : Int) :
    Keeps pair store (pruneOldNoise store retentionMs now).1 := by
  have kept : Keeps pair store (deleteOldNoise store (now - retentionMs)) :=
    ⟨fun text held => by
      obtain ⟨⟨row, member, stream, body⟩, inMemory⟩ := held
      exact ⟨⟨row, private_row_kept member stream _, stream, body⟩, inMemory⟩,
      grown_refl _, grown_refl _, fun _ _ => rfl, fun _ member => member⟩
  unfold pruneOldNoise
  split
  · exact keeps_refl _ _
  · split
    · exact kept
    · exact kept.trans (reload_keeps _)

theorem cycle_keeps (store : Store) (now : Int) : Keeps pair store (cycle store now) :=
  (prune_keeps store noiseRetentionMs now).trans (keeps_parts rfl)

end Log

/-! Accounts and cases hold no flag. -/

section Parts

theorem create_user_parts (store : Store) (username password : JsString)
    (passwordHash role : String) (now : Int) :
    flagParts (createUser store username password passwordHash role now).1 = flagParts store := by
  unfold createUser
  split
  · rfl
  · split
    · rfl
    · split <;> rfl

theorem system_user_parts (store : Store) (draw : Draw) (now : Int) :
    flagParts (ensureSystemUser store draw now).1 = flagParts store := by
  unfold ensureSystemUser
  split
  · rfl
  · exact create_user_parts _ _ _ _ _ _

theorem system_case_parts (store : Store) (owner : Nat) (slot : String) (now : Int) :
    flagParts (ensureSystemCase store owner slot now).1 = flagParts store := by
  simp only [ensureSystemCase]
  split <;> rfl

theorem system_parts (store : Store) (owner : Nat) (slot : String) (draw : Draw) (now : Int) :
    flagParts (ensureSystemCase (ensureSystemUser store draw now).1 owner slot now).1 = flagParts store :=
  (system_case_parts _ _ _ _).trans (system_user_parts _ _ _)

/-- What holds of the old store and of what the user does holds after the request. -/
theorem as_user_keeps {α : Type} {cookie : Option String} {now : Int}
    {act : Nat × UserRow → Store × Except Refusal α} (holds : Store → Prop) (own : holds store)
    (acted : ∀ user, holds (act user).1) :
    holds (asUser env store cookie now act).1 := by
  unfold asUser
  split
  · exact own
  · exact acted _

theorem as_owner_keeps {α : Type} {user : Nat × UserRow} {id : String} {missing : Refusal}
    {act : CaseRow → Store × Except Refusal α} (holds : Store → Prop) (own : holds store)
    (acted : ∀ row, holds (act row).1) : holds (asOwner store user id missing act).1 := by
  unfold asOwner
  split
  · exact own
  · split
    · exact own
    · exact acted _

end Parts

/-! What is written under generated ids. -/

/-- No file and no row has the handle. -/
def Unused (store : Store) (handle : String) : Prop :=
  handle ∉ store.blobs.keys ∧ handle ∉ store.db.attachments.keys

instance (store : Store) (handle : String) : Decidable (Unused store handle) :=
  inferInstanceAs (Decidable (handle ∉ store.blobs.keys ∧ handle ∉ store.db.attachments.keys))

section Generated
variable {pair : Option (Int × Int)}

theorem brief_keeps (store : Store) (caseId : String) (authorId : Nat) (title body : JsString)
    (isPublic : Bool) (tick : Int) (bytes : List UInt8) (now : Int) :
    Keeps pair store (createBrief store caseId authorId title body isPublic tick bytes now).1 := by
  simp only [createBrief]
  split
  · exact keeps_refl _ _
  · next briefs inserted =>
    obtain ⟨fresh, rfl⟩ := insert_new_some inserted
    exact ⟨fun _ held => held, grown_refl _, grown_set fresh _, fun _ _ => rfl, fun _ member => member⟩

theorem attachment_keeps {caseId : String} {bytes : List UInt8} {now : Int}
    (unused : attachHandle caseId bytes now ∉ store.blobs.keys) (filename contentType : JsString)
    (body : List UInt8) (tick : Int) :
    Keeps pair store (createAttachment store caseId filename contentType body tick bytes now).1 := by
  have written : Grown store.blobs (store.blobs.set (attachHandle caseId bytes now) body) :=
    grown_set unused body
  simp only [createAttachment]
  split
  · exact keeps_refl _ _
  · split
    · exact ⟨fun _ held => held, written, grown_refl _, fun _ _ => rfl, fun _ member => member⟩
    · exact ⟨fun _ held => held, written, grown_refl _, fun _ _ => rfl, fun _ member => member⟩

end Generated

/-- The ids that an input generates are nobody's. -/
def Fresh (store : Store) : Input → Prop
  | .putFlag _ variant _ draw now =>
      (variant = 1 → Unused store (attachHandle "system_evidence" draw.bytes now)) ∧
        (variant = 2 → newId "brf" draw.bytes ∉ store.db.briefs.keys)
  | .putNoise _ variant draw now =>
      (variant = 1 → Unused store (attachHandle "system_noise-public" draw.bytes now)) ∧
        (variant = 2 → newId "brf" draw.bytes ∉ store.db.briefs.keys)
  | .postCase _ _ _ _ bytes _ => newId "case" bytes ∉ store.db.cases.keys
  | .postBrief _ _ _ _ _ bytes _ => newId "brf" bytes ∉ store.db.briefs.keys
  | .postAttachment _ caseId _ _ _ bytes now => Unused store (attachHandle caseId bytes now)
  | _ => True

instance (store : Store) : ∀ input, Decidable (Fresh store input)
  | .putFlag .. | .putNoise .. => inferInstanceAs (Decidable (_ ∧ _))
  | .postAttachment .. => inferInstanceAs (Decidable (_ ∧ _))
  | .postCase .. | .postBrief .. => inferInstanceAs (Decidable (_ ∉ _))
  | .havoc .. | .pruneOldNoise .. | .cycle .. | .restart .. | .register .. | .login .. | .logout
    .. | .patchCase ..
  | .postPublish .. | .rest => isTrue trivial

/-! The checker's methods. -/

section Checker
variable (store) (tick variant : Int)

theorem index_flag_keeps (flag : JsString) (ref : Ref) :
    Keeps (some (tick, variant)) store (indexFlag store tick variant flag ref) where
  incidents _ held := held
  blobs := grown_refl _
  briefs := grown_refl _
  index _ apart := Dict.get_set_other _ _ _ _ fun same => apart (congrArg some same)
  indexed _ member := (Dict.mem_keys_set _ _ _ _).mpr (.inr member)

theorem system_case_slug {store : Store} {owner : Nat} {slot : String} {now : Int} {made : String × CaseRow}
    (succeeded : (ensureSystemCase store owner slot now).2 = .ok made) : made.1 = "system_" ++ slot := by
  simp only [ensureSystemCase] at succeeded
  split at succeeded <;>
  · rw [← Except.ok.inj succeeded]

theorem parts_unused {one other : Store} {handle : String} (same : flagParts other = flagParts one)
    (unused : Unused one handle) : Unused other handle := by
  simp only [flagParts, Prod.mk.injEq] at same
  rw [Unused, same.2.2.1, same.2.2.2.1]
  exact unused

theorem put_flag_keeps (env : Env) (flag : JsString) (draw : Draw) (now : Int)
    (unused : variant = 1 → Unused store (attachHandle "system_evidence" draw.bytes now)) :
    Keeps (some (tick, variant)) store (putFlag env store tick variant flag draw now).1 := by
  unfold putFlag
  split
  · next incident =>
    subst incident
    have checked : Keeps (some (tick, 0)) store _ := append_keeps store "public" "checkpoint"
      (js ("checkpoint " ++ toString tick ++ "/0")) true 0 tick now
    exact ((checked.trans (append_keeps _ "private" "incident" flag false 0 tick now)).trans
      (index_flag_keeps _ tick 0 flag _)).trans (index_flag_keeps _ tick 0 flag _)
  · split
    · next evidence =>
      subst evidence
      refine and_then_keeps (keeps_parts (system_user_parts store draw now)) fun system _ => ?_
      refine and_then_keeps (keeps_parts (system_case_parts _ _ _ now)) fun made succeeded => ?_
      refine and_then_keeps (attachment_keeps ?_ _ _ _ tick) fun row _ => index_flag_keeps _ tick 1 flag _
      rw [system_case_slug succeeded]
      exact (parts_unused (system_parts store _ _ draw now) (unused rfl)).1
    · split
      · next directive =>
        subst directive
        refine and_then_keeps (keeps_parts (system_user_parts store draw now)) fun system _ => ?_
        refine and_then_keeps (keeps_parts (system_case_parts _ _ _ now)) fun made _ => ?_
        exact and_then_keeps (brief_keeps _ _ _ _ _ _ _ _ _) fun brief _ => index_flag_keeps _ tick 2 flag _
      · exact keeps_refl _ _

theorem noise_case_parts (draw : Draw) (now : Int) :
    flagParts (noiseCase store draw now).1 = flagParts store := by
  let same : Store → Prop := fun later => flagParts later = flagParts store
  have user : same (ensureSystemUser store draw now).1 := system_user_parts store draw now
  refine and_then_holds same user fun system _ => ?_
  refine and_then_holds same ((system_case_parts _ _ _ now).trans user) fun made _ => ?_
  refine Eq.trans ?_ ((system_case_parts _ system.1 "noise-public" now).trans user)
  split <;> rfl

theorem noise_case_slug {store : Store} {draw : Draw} {now : Int} {made : Nat × String}
    (succeeded : (noiseCase store draw now).2 = .ok made) : made.2 = "system_noise-public" := by
  obtain ⟨system, _, rest⟩ := and_then_ok succeeded
  obtain ⟨caseRow, found, last⟩ := and_then_ok rest
  cases last
  exact system_case_slug found

theorem put_noise_keeps {pair : Option (Int × Int)} (draw : Draw) (now : Int)
    (unused : variant = 1 → Unused store (attachHandle "system_noise-public" draw.bytes now)) :
    Keeps pair store (putNoise env store tick variant draw now).1 := by
  unfold putNoise
  split
  · exact append_keeps _ _ _ _ _ _ _ _
  · split
    · next attachment =>
      refine and_then_keeps (keeps_parts (noise_case_parts store draw now)) fun made succeeded => ?_
      rw [and_then_return]
      refine attachment_keeps ?_ _ _ _ tick
      rw [noise_case_slug succeeded]
      exact (parts_unused (noise_case_parts store draw now) (unused attachment)).1
    · split
      · refine and_then_keeps (keeps_parts (noise_case_parts store draw now)) fun made _ => ?_
        rw [and_then_return]
        exact brief_keeps _ _ _ _ _ _ _ _ _
      · exact keeps_refl _ _

end Checker

/-! One step. -/

/-- The pair that an input plants a flag for. -/
def plantedPair : Input → Option (Int × Int)
  | .putFlag tick variant _ _ _ => some (tick, variant)
  | _ => none

/-- Opening the store again keeps what it had. -/
theorem open_keeps (now : Int) : Keeps none before (openStore before.db before.blobs now) := by
  have loaded : Keeps none before (reload ⟨before.db, before.blobs, [], Dict.empty⟩) := reload_keeps before
  simp only [openStore]
  split
  · exact loaded.trans (append_keeps _ _ _ _ _ _ _ _)
  · exact loaded

/-- A restart plants no flag where the first start has. -/
theorem boot_again (planted : (0, 0) ∈ before.db.flagIndex.keys) (draws : Draw × Draw) (now : Int) :
    boot env before.db before.blobs draws now =
      some (cycle (openStore before.db before.blobs now) now) := by
  have kept := (Dict.contains_iff _ _).mpr ((open_keeps now).indexed (0, 0) planted)
  rw [boot, bootFlags, if_pos kept]
  rfl

theorem boot_keeps {draws : Draw × Draw} {now : Int} (planted : (0, 0) ∈ before.db.flagIndex.keys)
    (taken : boot env before.db before.blobs draws now = some after) : Keeps none before after := by
  rw [boot_again planted, Option.some.injEq] at taken
  rw [← taken]
  exact (open_keeps now).trans (cycle_keeps _ now)

/-- Every step keeps what flags are kept in, given that generated ids are fresh. -/
theorem step_keeps (planted : (0, 0) ∈ before.db.flagIndex.keys) (fresh : Fresh before input)
    (taken : step env before input = some after) : Keeps (plantedPair input) before after := by
  cases input with
  | putFlag tick variant flag draw now =>
      rw [← Option.some.inj taken]
      exact put_flag_keeps before tick variant env flag draw now fresh.1
  | putNoise tick variant draw now =>
      rw [← Option.some.inj taken]
      exact put_noise_keeps before tick variant draw now fresh.1
  | havoc tick variant now =>
      rw [← Option.some.inj taken]
      exact append_keeps _ _ _ _ _ _ _ _
  | pruneOldNoise retentionMs now =>
      rw [← Option.some.inj taken]
      exact prune_keeps _ _ _
  | cycle now =>
      rw [← Option.some.inj taken]
      exact cycle_keeps _ _
  | restart draws now => exact boot_keeps planted taken
  | register username password passwordHash now =>
      rw [← Option.some.inj taken]
      refine keeps_parts ?_
      simp only [register]
      split
      · rfl
      · have user := create_user_parts before (trim username) password passwordHash "analyst" now
        split
        · next made => rw [made] at user; exact user
        · next made => rw [made] at user; exact user
  | login username password now =>
      rw [← Option.some.inj taken]
      refine keeps_parts ?_
      unfold login
      split
      · rfl
      · split <;> rfl
  | logout cookie =>
      rw [← Option.some.inj taken]
      cases cookie <;> exact keeps_parts rfl
  | postCase cookie title summary isPublic bytes now =>
      rw [← Option.some.inj taken]
      refine as_user_keeps (Keeps none before) (keeps_refl _ _) fun user => ?_
      dsimp only
      split
      · exact keeps_refl _ _
      · split <;> exact keeps_parts rfl
  | patchCase cookie id title summary now =>
      rw [← Option.some.inj taken]
      refine as_user_keeps (Keeps none before) (keeps_refl _ _) fun user => ?_
      exact as_owner_keeps (Keeps none before) (keeps_refl _ _) fun row => keeps_parts rfl
  | postPublish cookie id isPublic now =>
      rw [← Option.some.inj taken]
      refine as_user_keeps (Keeps none before) (keeps_refl _ _) fun user => ?_
      exact as_owner_keeps (Keeps none before) (keeps_refl _ _) fun row => keeps_parts rfl
  | postBrief cookie caseId title body isPublic bytes now =>
      rw [← Option.some.inj taken]
      refine as_user_keeps (Keeps none before) (keeps_refl _ _) fun user => ?_
      refine as_owner_keeps (Keeps none before) (keeps_refl _ _) fun row => ?_
      have brief : Keeps none before _ :=
        brief_keeps before caseId user.1 (trim title) body isPublic 0 bytes now
      split
      · exact keeps_refl _ _
      · split
        · next made => rw [made] at brief; exact brief
        · next made => rw [made] at brief; exact brief
  | postAttachment cookie caseId filename contentType data bytes now =>
      rw [← Option.some.inj taken]
      refine as_user_keeps (Keeps none before) (keeps_refl _ _) fun user => ?_
      refine as_owner_keeps (Keeps none before) (keeps_refl _ _) fun row => ?_
      split
      · exact keeps_refl _ _
      · next body =>
        have attachment : Keeps none before _ :=
          attachment_keeps fresh.1 (cleanFilename filename) (contentType.take 80) body 0
        split
        · next made => rw [made] at attachment; exact attachment
        · next made => rw [made] at attachment; exact attachment
  | rest =>
      rw [← Option.some.inj taken]
      exact keeps_refl _ _

/-- No input stops the service. -/
theorem step_taken (env : Env) (planted : (0, 0) ∈ store.db.flagIndex.keys) (input : Input) :
    ∃ next, step env store input = some next := by
  cases input with
  | restart draws now => exact ⟨_, boot_again planted draws now⟩
  | _ => exact ⟨_, rfl⟩

/-! A planted flag. -/

/-- Where each variant keeps a flag, under the reference in the index. -/
inductive Stored (store : Store) (text : String) : Int → Ref → Prop where
  | event (id : Nat) (archive : String) (incident : Incident store text) :
      Stored store text 0 (.event id archive)
  | attachment (caseId handle : String) (named : handle ≠ "")
      (blob : store.blobs.get? handle = some (utf8 text)) :
      Stored store text 1 (.attachment caseId handle)
  | brief (id caseId : String) (named : id ≠ "") (row : BriefRow)
      (found : store.db.briefs.get? id = some row)
      (body : row.body = text) : Stored store text 2 (.brief id caseId)

def Planted (store : Store) (tick variant : Int) (text : String) : Prop :=
  ∃ ref, store.db.flagIndex.get? (tick, variant) = some ⟨text, ref⟩ ∧ Stored store text variant ref

section Planted
variable {tick variant : Int} {text : String}

theorem planted_kept {pair : Option (Int × Int)} (keeps : Keeps pair before after)
    (other : pair ≠ some (tick, variant)) (planted : Planted before tick variant text) :
    Planted after tick variant text := by
  obtain ⟨ref, found, stored⟩ := planted
  refine ⟨ref, (keeps.index _ other).trans found, ?_⟩
  cases stored with
  | event id archive incident => exact .event id archive (keeps.incidents text incident)
  | attachment caseId handle named blob => exact .attachment caseId handle named (keeps.blobs handle _ blob)
  | brief id caseId named row held body => exact .brief id caseId named row (keeps.briefs id row held) body

theorem get_flag_planted (replaced : List UInt8 → String) (planted : Planted store tick variant text) :
    getFlag replaced store tick variant (js text) = true := by
  obtain ⟨ref, found, stored⟩ := planted
  simp only [getFlag, found, ne_eq, not_true_eq_false, if_false]
  cases stored with
  | event id archive incident =>
      obtain ⟨_, event, member, stream, body⟩ := incident
      simp only [getIncident, found, ne_eq, not_true_eq_false, if_false, if_true]
      exact List.any_eq_true.mpr ⟨event, member, by rw [decide_eq_true body, decide_eq_true stream]; rfl⟩
  | attachment caseId handle named blob =>
      have read : textOf replaced (utf8 text) = js text := by rw [textOf, from_utf8_utf8, Option.getD_some]
      simp [refHandle, named, blob, read]
  | brief id caseId named row held body => simp [refBrief, named, held, body]

/-! Planting succeeds. -/

theorem and_then_run {α β : Type} {done : Store × Except String α}
    {next : Store → α → Store × Except String β} {value : α} (succeeded : done.2 = .ok value) :
    andThen done next = next done.1 value := by
  rw [andThen, succeeded]

theorem system_user_made (store : Store) (draw : Draw) (now : Int) :
    ∃ user, (ensureSystemUser store draw now).2 = .ok user := by
  unfold ensureSystemUser
  split
  · next existing _ => exact ⟨existing, rfl⟩
  · next missing =>
    have valid : validUsername (js "specterlog") = true := by decide
    have long : ¬ draw.password.length < 8 := by rw [draw.long]; decide
    simp [createUser, valid, long, missing]

theorem system_case_made (store : Store) (owner : Nat) (slot : String) (now : Int) :
    ∃ made, (ensureSystemCase store owner slot now).2 = .ok made := by
  simp only [ensureSystemCase]
  split
  · exact ⟨_, rfl⟩
  · exact ⟨_, rfl⟩

theorem hex_slice_filled (data : List UInt8) {count : Nat} (positive : 0 < count) :
    hexSlice data count ≠ "" := by
  intro empty
  have chars := congrArg (fun text => text.toList.length) empty
  have whole : (hexDigest data).toList.length = 64 := by
    rw [hexDigest, hex_text_length, Sha256.sha256_length]
  simp only [hexSlice, String.toList_ofList, List.length_take, whole] at chars
  have none : ("" : String).toList.length = 0 := rfl
  omega

theorem new_id_filled (head : String) (bytes : List UInt8) : newId head bytes ≠ "" := by
  intro empty
  have chars := congrArg (fun text => text.toList.length) empty
  simp [newId] at chars

theorem incident_planted (store : Store) (tick : Int) (text : String) (draw : Draw) (now : Int) :
    Planted (putFlag env store tick 0 (js text) draw now).1 tick 0 text := by
  have stored : toText (js text) = text := to_text_utf16 text
  refine ⟨_, (Dict.get_set_self _ _ _).trans (by rw [stored]),
    .event _ _ ⟨⟨_, List.mem_concat_self, rfl, stored⟩, ?_⟩⟩
  exact ⟨_, List.mem_concat_self, rfl, rfl⟩

theorem evidence_planted {draw : Draw} {now : Int} (short : (utf16 text).length ≤ bodyMax)
    (unused : Unused store (attachHandle "system_evidence" draw.bytes now)) :
    Planted (putFlag env store tick 1 (js text) draw now).1 tick 1 text := by
  have stored : toText (js text) = text := to_text_utf16 text
  obtain ⟨system, user⟩ := system_user_made store draw now
  obtain ⟨made, found⟩ := system_case_made (ensureSystemUser store draw now).1 system.1 "evidence" now
  have small : ¬ maxUploadBytes < (bufferOf (js text)).length := by
    have bytes := utf8_length_le text
    rw [bufferOf, stored, maxUploadBytes]
    rw [bodyMax] at short
    omega
  have slug : made.1 = "system_evidence" := system_case_slug found
  have free := parts_unused (system_parts store system.1 "evidence" draw now) unused
  rw [putFlag, if_neg (by decide), if_pos rfl, and_then_run user, and_then_run found, slug]
  simp only [createAttachment, if_neg small, insert_new_fresh free.2]
  have named : attachHandle "system_evidence" draw.bytes now ≠ "" := hex_slice_filled _ (by decide)
  have blob : bufferOf (js text) = utf8 text := congrArg utf8 stored
  refine ⟨.attachment "system_evidence" (attachHandle "system_evidence" draw.bytes now), ?_,
    .attachment _ _ named ?_⟩
  · exact (Dict.get_set_self _ _ _).trans (by rw [stored])
  · exact (Dict.get_set_self _ _ _).trans (congrArg some blob)

theorem directive_planted {draw : Draw} {now : Int} (short : (utf16 text).length ≤ bodyMax)
    (unused : newId "brf" draw.bytes ∉ store.db.briefs.keys) :
    Planted (putFlag env store tick 2 (js text) draw now).1 tick 2 text := by
  have stored : toText (js text) = text := to_text_utf16 text
  obtain ⟨system, user⟩ := system_user_made store draw now
  obtain ⟨made, found⟩ := system_case_made (ensureSystemUser store draw now).1 system.1 "directives" now
  have free : newId "brf" draw.bytes ∉
      (ensureSystemCase (ensureSystemUser store draw now).1 system.1 "directives"
        now).1.db.briefs.keys := by
    have same := system_parts store system.1 "directives" draw now
    simp only [flagParts, Prod.mk.injEq] at same
    rw [same.2.2.2.2.1]
    exact unused
  rw [putFlag, if_neg (by decide), if_neg (by decide), if_pos rfl, and_then_run user, and_then_run found]
  simp only [createBrief, insert_new_fresh free]
  refine ⟨_, (Dict.get_set_self _ _ _).trans (by rw [stored]),
    .brief _ _ (new_id_filled _ _) _ (Dict.get_set_self _ _ _) ?_⟩
  exact (congrArg toText (List.take_of_length_le short)).trans stored

/-- The flag is stored right after the checker has put it. -/
theorem put_flag_planted (known : variant = 0 ∨ variant = 1 ∨ variant = 2)
    (short : (utf16 text).length ≤ bodyMax) {draw : Draw} {now : Int}
    (fresh : Fresh store (.putFlag tick variant (js text) draw now)) :
    Planted (putFlag env store tick variant (js text) draw now).1 tick variant text := by
  rcases known with rfl | rfl | rfl
  · exact incident_planted store tick text draw now
  · exact evidence_planted short (fresh.1 rfl)
  · exact directive_planted short (fresh.2 rfl)

/-! Whole runs. -/

theorem run_cons {next : Store} (taken : step env store input = some next) (rest : List Input) :
    run env store (input :: rest) = run env next rest := by
  rw [run, exec, if_pos trivial, taken]
  rfl

theorem planted_run {inputs : List Input} (begun : (0, 0) ∈ store.db.flagIndex.keys)
    (others : ∀ input ∈ inputs, plantedPair input ≠ some (tick, variant))
    (fresh : EachStep (step env) Fresh store inputs) (planted : Planted store tick variant text) :
    ∃ last, run env store inputs = some last ∧ Planted last tick variant text := by
  induction inputs generalizing store with
  | nil => exact ⟨store, rfl, planted⟩
  | cons input rest ih =>
      obtain ⟨next, taken⟩ := step_taken env begun input
      have keeps := step_keeps begun fresh.1 taken
      rw [run_cons taken]
      exact ih (keeps.indexed _ begun) (fun later member => others later (List.mem_cons_of_mem _ member))
        (fresh.2 next taken) (planted_kept keeps (others input List.mem_cons_self) planted)

/-- The first start has planted the pair that later ones ask for. -/
theorem booted_begun {draws : Draw × Draw} {now : Int}
    (booted : boot env {} Dict.empty draws now = some store) :
    (0, 0) ∈ store.db.flagIndex.keys := by
  obtain ⟨flagged, planted, rfl⟩ := Option.map_eq_some_iff.mp booted
  have cycled : Keeps none flagged (cycle flagged now) := cycle_keeps flagged now
  refine cycled.indexed _ ?_
  simp only [bootFlags] at planted
  split at planted
  · next found =>
    cases planted
    exact (Dict.contains_iff _ _).mp found
  · split at planted
    · cases planted
    · cases planted
      refine and_then_holds (fun later => (0, 0) ∈ later.db.flagIndex.keys)
        ((Dict.mem_keys_set _ _ _ _).mpr (.inl rfl)) fun _ _ => ?_
      -- The incident of the empty store leaves no blob and no attachment.
      have evidence := put_flag_keeps
        (putFlag env (openStore {} Dict.empty now) 0 0 (js env.bootFlag) draws.1 now).1 0 1
        env (js (env.bootFlag ++ "_EVIDENCE")) draws.1 now fun _ => ⟨List.not_mem_nil, List.not_mem_nil⟩
      have begun := evidence.indexed (0, 0) ((Dict.mem_keys_set _ _ _ _).mpr (.inl rfl))
      refine and_then_holds (fun later => (0, 0) ∈ later.db.flagIndex.keys) begun fun _ _ => ?_
      exact (put_flag_keeps _ 0 2 env _ draws.2 now fun one => absurd one (by decide)).indexed (0, 0) begun

end Planted

/-- From the first start on, every flag that the checker plants is found after every later
run, which nothing stops. -/
theorem checker_flag_kept (replaced : List UInt8 → String) {draws : Draw × Draw} {bootNow : Int}
    {start : Store}
    (booted : boot env {} Dict.empty draws bootNow = some start) {earlier later : List Input}
    {tick variant : Int}
    (known : variant = 0 ∨ variant = 1 ∨ variant = 2) {flag : String}
    (short : (utf16 flag).length ≤ 16000) (draw : Draw)
    (now : Int) (others : ∀ input ∈ later, plantedPair input ≠ some (tick, variant))
    (fresh : EachStep (step env) Fresh start (earlier ++
      .putFlag tick variant (js flag) draw now :: later)) :
    ∃ last, run env start (earlier ++ .putFlag tick variant (js flag) draw now :: later) = some last ∧
      getFlag replaced last tick variant (js flag) = true := by
  have begun := booted_begun booted
  clear booted
  induction earlier generalizing start with
  | nil =>
      obtain ⟨free, freeLater⟩ := fresh
      have taken : step env start (.putFlag tick variant (js flag) draw now) =
          some (putFlag env start tick variant (js flag) draw now).1 := rfl
      have kept := (step_keeps begun free taken).indexed _ begun
      obtain ⟨last, ran, planted⟩ :=
        planted_run kept others (freeLater _ taken) (put_flag_planted known short free)
      exact ⟨last, (run_cons taken later).trans ran, get_flag_planted replaced planted⟩
  | cons input rest ih =>
      obtain ⟨next, taken⟩ := step_taken env begun input
      obtain ⟨last, ran, found⟩ :=
        ih (fresh.2 next taken) ((step_keeps begun fresh.1 taken).indexed _ begun)
      exact ⟨last, (run_cons taken _).trans ran, found⟩

/-! A watched service: an account with a public case beside the checker. -/

def watchEnv : Env where
  verifyPassword _ _ := true
  signSession uid exp := toString uid ++ "." ++ toString exp
  verifySession token := if token = "2.14400" then some (2, 14400) else none
  signDownload caseId handle exp := caseId ++ handle ++ toString exp

def watchDraw (byte : UInt8) : Draw := ⟨[byte], List.replicate 43 97, rfl, "hash"⟩

def watchStart : Store := (boot watchEnv {} Dict.empty (watchDraw 1, watchDraw 2) 0).get (by decide +kernel)

def watchLater : List Input :=
  [.postCase (some "2.14400") (js "notes") [] true [3] 0,
    .postAttachment (some "2.14400") "case_03" (js "a") (js "text/plain") (some [0x46]) [4] 0,
    .putNoise 7 1 (watchDraw 5) 0, .putFlag 7 2 (js "FLAG\x7bother\x7d") (watchDraw 6) 0,
    .putNoise 7 0 (watchDraw 7) 0, .pruneOldNoise 1 5, .restart (watchDraw 8, watchDraw 9) 6]

theorem watched_flag_kept : ∃ last,
    run watchEnv watchStart ([.register (js "watcher") (js "password") "hash" 0] ++
      .putFlag 7 1 (js "FLAG\x7bseven\x7d") (watchDraw 10) 0 :: watchLater) = some last ∧
      getFlag (fun _ => "") last 7 1 (js "FLAG\x7bseven\x7d") = true := by
  refine checker_flag_kept (fun _ => "") (Option.some_get _).symm (.inr (.inl rfl)) (by decide)
    (watchDraw 10) 0 ?_ ?_
  · decide
  · decide +kernel

end KosSim.SpecterLog
