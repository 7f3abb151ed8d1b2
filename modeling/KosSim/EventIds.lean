import KosSim.Library.LogPositions
import KosSim.SpecterFlags

/-!
The ids of SpecterLog's events. In memory an event is numbered by its position; the key of
its row is what stays. The log is read as positions of keys, every input is one move of it,
and the ids are stable exactly while no row is deleted.
-/

namespace KosSim.SpecterLog
open Library

variable {env : Env} {store one other before after : Store} {input : Input}

/-! Reading the log. -/

/-- What verifyCursor finds in a cursor; the service itself signs only position 0. -/
structure Cursor where
  stream : String := "public"
  after : Nat := 0

def eventsFrom (store : Store) (after : Nat) (shown : Event → Bool) : List Event :=
  store.events.filter fun ev => decide (after ≤ ev.id) && shown ev

/-- The condition of /api/replay beside the position, under the query's mode and stream. -/
def replayShown (cursor : Cursor) (mode stream : Option String) (ev : Event) : Bool :=
  let delta := decide (mode = some "delta")
  decide (ev.stream = if delta then stream.getD cursor.stream else cursor.stream) && (ev.isPublic || delta)

def replay (store : Store) (cursor : Option Cursor) (mode stream : Option String) :
    Except Refusal (List Event) :=
  match cursor with
  | none => .error (403, "bad_cursor")
  | some cursor => .ok (eventsFrom store cursor.after (replayShown cursor mode stream))

def subscribeShown (cursor : Cursor) (stream : Option String) (ev : Event) : Bool :=
  decide (ev.stream = stream.getD cursor.stream) && ev.isPublic

/-- The answer to a subscribe frame. -/
def subscribe (store : Store) (cursor : Option Cursor) (stream : Option String) :
    Except String (List Event) :=
  match cursor with
  | none => .error "bad_cursor"
  | some cursor => .ok (eventsFrom store cursor.after (subscribeShown cursor stream))

/-! Identity. -/

/-- The events in memory, each with the key of the row that it is. -/
def keyed (store : Store) : List (Event × Nat) := store.events.zip (store.db.events.map EventRow.id)

def Designates (store : Store) (id key : Nat) : Prop :=
  ∃ entry ∈ keyed store, entry.1.id = id ∧ entry.2 = key

def Exists (store : Store) (key : Nat) : Prop := ∃ entry ∈ keyed store, entry.2 = key

instance (store : Store) (id key : Nat) : Decidable (Designates store id key) :=
  inferInstanceAs (Decidable (∃ entry ∈ keyed store, entry.1.id = id ∧ entry.2 = key))

instance (store : Store) (key : Nat) : Decidable (Exists store key) :=
  inferInstanceAs (Decidable (∃ entry ∈ keyed store, entry.2 = key))

/-- The events that were there at one moment, before the id `after`. -/
def seenBefore (one : Store) (after key : Nat) : Bool :=
  (keyed one).any fun entry => decide (entry.1.id < after) && decide (entry.2 = key)

/-- What is there now and was not before the position at the earlier moment, each once. -/
def laterEvents (one other : Store) (after : Nat) (shown : Event → Bool) : List Event :=
  ((keyed other).filter fun entry => !seenBefore one after entry.2 && shown entry.1).map Prod.fst

/-- An id that was handed out at one moment, used at another. -/
structure SameIds (one other : Store) : Prop where
  designates : ∀ id key, Designates one id key → Exists other key → Designates other id key
  reused : ∀ id key next, Designates one id key → Designates other id next → next = key
  replayed : ∀ cursor mode stream, cursor.after ≤ one.events.length →
    replay other (some cursor) mode stream =
      .ok (laterEvents one other cursor.after (replayShown cursor mode stream))
  subscribed : ∀ cursor stream, cursor.after ≤ one.events.length →
    subscribe other (some cursor) stream =
      .ok (laterEvents one other cursor.after (subscribeShown cursor stream))

/-- Ids handed out anywhere in the run, used anywhere later in it. -/
def IdsStable (env : Env) (start : Store) (inputs : List Input) : Prop :=
  ∀ earlier later one other, earlier ++ later <+: inputs → run env start earlier = some one →
    run env one later = some other → SameIds one other

/-! Memory beside the table. -/

def eventData (event : Event) :=
  (event.stream, event.kind, toText event.body, event.isPublic, event.archive, event.payload)

def rowData (row : EventRow) := (row.stream, row.kind, row.body, row.isPublic, row.archive, row.payload)

structure Mirrored (store : Store) : Prop where
  numbered : store.events.map Event.id = List.range store.db.events.length
  copied : store.events.map eventData = store.db.events.map rowData

theorem Mirrored.length (mirrored : Mirrored store) : store.events.length = store.db.events.length := by
  have count := congrArg List.length mirrored.copied
  rwa [List.length_map, List.length_map] at count

/-- What an input does to the log: the rows that it deletes, and the next keys for those it adds. -/
structure Turned (gone : EventRow → Bool) (one other : Store) : Prop where
  mirrored : Mirrored one → Mirrored other
  rows : ∃ added, other.db.events = (one.db.events.filter fun row => !gone row) ++ added ∧
    added.map EventRow.id = List.range' (one.db.eventSeq + 1) added.length ∧
    other.db.eventSeq = one.db.eventSeq + added.length
  indexed : ∀ key ∈ one.db.flagIndex.keys, key ∈ other.db.flagIndex.keys

def nothing : EventRow → Bool := fun _ => false

theorem turned_rows {gone : EventRow → Bool}
    (rows : other.db.events = one.db.events.filter fun row => !gone row)
    (mirrored : Mirrored one → Mirrored other) (counter : other.db.eventSeq = one.db.eventSeq)
    (index : other.db.flagIndex = one.db.flagIndex) : Turned gone one other :=
  ⟨mirrored, ⟨[], by rw [rows, List.append_nil], rfl, counter⟩, fun _ member => index ▸ member⟩

theorem Turned.trans {gone : EventRow → Bool} {last : Store} (first : Turned gone one other)
    (second : Turned nothing other last) : Turned gone one last := by
  obtain ⟨begun, beginning, ids, counter⟩ := first.rows
  obtain ⟨added, rows, more, counts⟩ := second.rows
  refine ⟨second.mirrored ∘ first.mirrored, ⟨begun ++ added, ?_, ?_, ?_⟩,
    fun key member => second.indexed key (first.indexed key member)⟩
  · have all : other.db.events.filter (fun row => !nothing row) = other.db.events :=
      List.filter_eq_self.mpr fun _ _ => rfl
    rw [rows, all, beginning, List.append_assoc]
  · have next : one.db.eventSeq + begun.length + 1 = one.db.eventSeq + 1 + begun.length := by omega
    rw [List.map_append, ids, more, counter, next, List.length_append, List.range'_append_1]
  · rw [counts, counter, List.length_append, Nat.add_assoc]

theorem turned_congr {gone wanted : EventRow → Bool} (same : ∀ row ∈ one.db.events, gone row = wanted row)
    (turned : Turned gone one other) : Turned wanted one other := by
  obtain ⟨added, rows, ids, counter⟩ := turned.rows
  refine ⟨turned.mirrored, ⟨added, ?_, ids, counter⟩, turned.indexed⟩
  rw [rows]
  exact congrArg (· ++ added) (List.filter_congr fun row member => congrArg (!·) (same row member))

/-- The parts of a store that the log is kept in. -/
def logParts (store : Store) := (store.db.events, store.events, store.db.eventSeq, store.db.flagIndex)

theorem turned_parts (same : logParts other = logParts one) : Turned nothing one other := by
  simp only [logParts, Prod.mk.injEq] at same
  obtain ⟨rows, events, counter, index⟩ := same
  refine turned_rows ?_ ?_ counter index
  · rw [rows]
    exact (List.filter_eq_self.mpr fun _ _ => rfl).symm
  · intro mirrored
    constructor
    · rw [events, rows]
      exact mirrored.numbered
    · rw [events, rows]
      exact mirrored.copied

theorem append_turned (store : Store) (stream kind : String) (body : JsString) (isPublic : Bool)
    (payload tick now : Int) :
    Turned nothing store (append store stream kind body isPublic payload tick now).1 where
  mirrored mirrored := by
    constructor
    · simp only [append, List.map_append, List.length_append, mirrored.numbered, mirrored.length]
      exact List.range_succ.symm
    · simp only [append, List.map_append, mirrored.copied]
      rfl
  rows := by
    refine ⟨[_], congrArg (· ++ _) (List.filter_eq_self.mpr fun _ _ => rfl).symm, rfl, rfl⟩
  indexed _ member := member

theorem index_flag_turned (store : Store) (tick variant : Int) (flag : JsString) (ref : Ref) :
    Turned nothing store (indexFlag store tick variant flag ref) where
  mirrored mirrored := ⟨mirrored.numbered, mirrored.copied⟩
  rows := ⟨[], by rw [List.append_nil]; exact (List.filter_eq_self.mpr fun _ _ => rfl).symm, rfl, rfl⟩
  indexed _ member := (Dict.mem_keys_set _ _ _ _).mpr (.inr member)

theorem reload_mirrored (store : Store) : Mirrored (reload store) := by
  constructor
  · refine List.ext_getElem (by simp [reload]) fun position _ _ => ?_
    simp [reload, toDomain]
  · refine List.ext_getElem (by simp [reload]) fun position _ _ => ?_
    simp only [reload, toDomain, List.getElem_map, List.getElem_mapIdx, eventData, rowData, js,
      to_text_utf16]

/-! Accounts, cases, briefs and attachments are no part of the log. -/

/-- Only they and the files differ. -/
def Apart (one other : Store) : Prop :=
  ∃ db blobs, other = { one with db := db, blobs := blobs } ∧ db.events = one.db.events ∧
    db.eventSeq = one.db.eventSeq ∧ db.flagIndex = one.db.flagIndex

section Parts

theorem apart_refl (store : Store) : Apart store store := ⟨store.db, store.blobs, rfl, rfl, rfl, rfl⟩

theorem Apart.trans {last : Store} (first : Apart one other) (second : Apart other last) :
    Apart one last := by
  obtain ⟨db, blobs, rfl, rows, counter, index⟩ := first
  obtain ⟨later, files, rfl, rowsLater, counterLater, indexLater⟩ := second
  exact ⟨later, files, rfl, rowsLater.trans rows, counterLater.trans counter, indexLater.trans index⟩

theorem apart_log (apart : Apart one other) : logParts other = logParts one := by
  obtain ⟨db, blobs, rfl, rows, counter, index⟩ := apart
  simp only [logParts, rows, counter, index]

theorem create_user_apart (store : Store) (username password : JsString)
    (passwordHash role : String) (now : Int) :
    Apart store (createUser store username password passwordHash role now).1 := by
  unfold createUser
  split
  · exact apart_refl store
  · split
    · exact apart_refl store
    · split
      · exact apart_refl store
      · exact ⟨_, store.blobs, rfl, rfl, rfl, rfl⟩

theorem system_user_apart (store : Store) (draw : Draw) (now : Int) :
    Apart store (ensureSystemUser store draw now).1 := by
  unfold ensureSystemUser
  split
  · exact apart_refl store
  · exact create_user_apart _ _ _ _ _ _

theorem system_case_apart (store : Store) (owner : Nat) (slot : String) (now : Int) :
    Apart store (ensureSystemCase store owner slot now).1 := by
  simp only [ensureSystemCase]
  split
  · exact apart_refl store
  · exact ⟨_, store.blobs, rfl, rfl, rfl, rfl⟩

theorem brief_apart (store : Store) (caseId : String) (authorId : Nat) (title body : JsString)
    (isPublic : Bool) (tick : Int) (bytes : List UInt8) (now : Int) :
    Apart store (createBrief store caseId authorId title body isPublic tick bytes now).1 := by
  simp only [createBrief]
  split
  · exact apart_refl store
  · exact ⟨_, store.blobs, rfl, rfl, rfl, rfl⟩

theorem attachment_apart (store : Store) (caseId : String) (filename contentType : JsString)
    (body : List UInt8) (tick : Int) (bytes : List UInt8) (now : Int) :
    Apart store (createAttachment store caseId filename contentType body tick bytes now).1 := by
  simp only [createAttachment]
  split
  · exact apart_refl store
  · split
    · exact ⟨_, _, rfl, rfl, rfl, rfl⟩
    · exact ⟨_, _, rfl, rfl, rfl, rfl⟩

theorem noise_case_apart (store : Store) (draw : Draw) (now : Int) :
    Apart store (noiseCase store draw now).1 := by
  have user := system_user_apart store draw now
  refine and_then_holds (Apart store) user fun system _ => ?_
  refine and_then_holds (Apart store) (user.trans (system_case_apart _ _ _ now)) fun made _ => ?_
  refine (user.trans (system_case_apart _ system.1 "noise-public" now)).trans ?_
  split
  · exact apart_refl _
  · exact ⟨_, _, rfl, rfl, rfl, rfl⟩

/-- The requests of accounts, and those that only read. -/
def Quiet : Input → Prop
  | .putFlag .. | .putNoise .. | .havoc .. | .pruneOldNoise .. | .cycle .. | .restart .. => False
  | _ => True

theorem quiet_apart (taken : step env before input = some after) (quiet : Quiet input) :
    Apart before after := by
  cases input with
  | putFlag => exact quiet.elim
  | putNoise => exact quiet.elim
  | havoc => exact quiet.elim
  | pruneOldNoise => exact quiet.elim
  | cycle => exact quiet.elim
  | restart => exact quiet.elim
  | register username password passwordHash now =>
      rw [← Option.some.inj taken]
      simp only [register]
      split
      · exact apart_refl before
      · have user := create_user_apart before (trim username) password passwordHash "analyst" now
        split
        · next made => rw [made] at user; exact user
        · next made =>
          rw [made] at user
          exact user.trans ⟨_, _, rfl, rfl, rfl, rfl⟩
  | login username password now =>
      rw [← Option.some.inj taken]
      show Apart before (login env before username password now).1
      unfold login
      split
      · exact apart_refl before
      · split
        · exact ⟨_, _, rfl, rfl, rfl, rfl⟩
        · exact apart_refl before
  | logout cookie =>
      rw [← Option.some.inj taken]
      show Apart before (logout before cookie)
      unfold logout
      split
      · exact apart_refl before
      · exact ⟨_, _, rfl, rfl, rfl, rfl⟩
  | postCase cookie title summary isPublic bytes now =>
      rw [← Option.some.inj taken]
      refine as_user_keeps (Apart before) (apart_refl before) fun user => ?_
      dsimp only
      split
      · exact apart_refl before
      · split
        · exact apart_refl before
        · exact ⟨_, _, rfl, rfl, rfl, rfl⟩
  | patchCase cookie id title summary now =>
      rw [← Option.some.inj taken]
      refine as_user_keeps (Apart before) (apart_refl before) fun user => ?_
      exact as_owner_keeps (Apart before) (apart_refl before) fun row => ⟨_, _, rfl, rfl, rfl, rfl⟩
  | postPublish cookie id isPublic now =>
      rw [← Option.some.inj taken]
      refine as_user_keeps (Apart before) (apart_refl before) fun user => ?_
      exact as_owner_keeps (Apart before) (apart_refl before) fun row => ⟨_, _, rfl, rfl, rfl, rfl⟩
  | postBrief cookie caseId title body isPublic bytes now =>
      rw [← Option.some.inj taken]
      refine as_user_keeps (Apart before) (apart_refl before) fun user => ?_
      refine as_owner_keeps (Apart before) (apart_refl before) fun row => ?_
      have brief := brief_apart before caseId user.1 (trim title) body isPublic 0 bytes now
      split
      · exact apart_refl before
      · split
        · next made => rw [made] at brief; exact brief
        · next made => rw [made] at brief; exact brief
  | postAttachment cookie caseId filename contentType data bytes now =>
      rw [← Option.some.inj taken]
      refine as_user_keeps (Apart before) (apart_refl before) fun user => ?_
      refine as_owner_keeps (Apart before) (apart_refl before) fun row => ?_
      split
      · exact apart_refl before
      · next body =>
        have attachment := attachment_apart before caseId (cleanFilename filename)
          (contentType.take 80) body 0 bytes now
        split
        · next made => rw [made] at attachment; exact attachment
        · next made => rw [made] at attachment; exact attachment
  | rest =>
      rw [← Option.some.inj taken]
      exact apart_refl before

end Parts

/-! One step. -/

/-- What accounts, appends and the flag index keep, putFlag keeps. -/
theorem put_flag_holds (env : Env) (tick variant : Int) (flag : JsString) (draw : Draw) (now : Int)
    (holds : Store → Prop) (quiet : ∀ one other, Apart one other → holds one → holds other)
    (appended : ∀ one stream kind body isPublic payload tick now, variant = 0 ∧ body = flag ∨
      (∃ text, body = js text) → holds one →
      holds (append one stream kind body isPublic payload tick now).1)
    (indexed : ∀ one tick variant flag ref, holds one → holds (indexFlag one tick variant flag ref))
    (own : holds store) : holds (putFlag env store tick variant flag draw now).1 := by
  unfold putFlag
  split
  · next incident =>
    have checked :=
      appended store "public" "checkpoint" _ true 0 tick now
        (.inr ⟨"checkpoint " ++ toString tick ++ "/0", rfl⟩) own
    have written := appended _ "private" "incident" flag false 0 tick now (.inl ⟨incident, rfl⟩) checked
    exact indexed _ tick 0 flag _ (indexed _ tick 0 flag _ written)
  · have user := quiet _ _ (system_user_apart store draw now) own
    split
    · refine and_then_holds holds user fun system _ => ?_
      have made := quiet _ _ (system_case_apart _ system.1 "evidence" now) user
      refine and_then_holds holds made fun made' _ => ?_
      refine and_then_holds holds (quiet _ _ (attachment_apart _ _ _ _ _ _ _ _) made) fun row _ => ?_
      exact indexed _ tick 1 flag _ (quiet _ _ (attachment_apart _ _ _ _ _ _ _ _) made)
    · split
      · refine and_then_holds holds user fun system _ => ?_
        have made := quiet _ _ (system_case_apart _ system.1 "directives" now) user
        refine and_then_holds holds made fun made' _ => ?_
        refine and_then_holds holds (quiet _ _ (brief_apart _ _ _ _ _ _ _ _ _) made) fun brief _ => ?_
        exact indexed _ tick 2 flag _ (quiet _ _ (brief_apart _ _ _ _ _ _ _ _ _) made)
      · exact own

theorem put_noise_holds (env : Env) (tick variant : Int) (draw : Draw) (now : Int) (holds : Store → Prop)
    (quiet : ∀ one other, Apart one other → holds one → holds other)
    (appended : ∀ one stream kind text isPublic payload tick now, holds one →
      holds (append one stream kind (js text) isPublic payload tick now).1)
    (own : holds store) : holds (putNoise env store tick variant draw now).1 := by
  have noise := quiet _ _ (noise_case_apart store draw now) own
  unfold putNoise
  split
  · exact appended _ _ _ _ _ _ _ _ own
  · split
    · refine and_then_holds holds noise fun made _ => ?_
      rw [and_then_return]
      exact quiet _ _ (attachment_apart _ _ _ _ _ _ _ _) noise
    · split
      · refine and_then_holds holds noise fun made _ => ?_
        rw [and_then_return]
        exact quiet _ _ (brief_apart _ _ _ _ _ _ _ _ _) noise
      · exact own

theorem put_flag_turned (env : Env) (store : Store) (tick variant : Int) (flag : JsString)
    (draw : Draw) (now : Int) :
    Turned nothing store (putFlag env store tick variant flag draw now).1 :=
  put_flag_holds env tick variant flag draw now (Turned nothing store)
    (fun _ _ apart turned => turned.trans (turned_parts (apart_log apart)))
    (fun _ _ _ _ _ _ _ _ _ turned => turned.trans (append_turned _ _ _ _ _ _ _ _))
    (fun _ _ _ _ _ turned => turned.trans (index_flag_turned _ _ _ _ _)) (turned_parts rfl)

theorem put_noise_turned (env : Env) (store : Store) (tick variant : Int) (draw : Draw) (now : Int) :
    Turned nothing store (putNoise env store tick variant draw now).1 :=
  put_noise_holds env tick variant draw now (Turned nothing store)
    (fun _ _ apart turned => turned.trans (turned_parts (apart_log apart)))
    (fun _ _ _ _ _ _ _ _ turned => turned.trans (append_turned _ _ _ _ _ _ _ _)) (turned_parts rfl)

/-- What pruneOldNoise deletes. -/
def pruned (retentionMs now : Int) (row : EventRow) : Bool :=
  decide (0 < now - retentionMs) && oldNoise (now - retentionMs) row

/-- The rows that an input deletes. -/
def deleted : Input → EventRow → Bool
  | .pruneOldNoise retentionMs now => pruned retentionMs now
  | .cycle now => pruned noiseRetentionMs now
  | .restart _ now => pruned noiseRetentionMs now
  | _ => nothing

theorem prune_turned (store : Store) (retentionMs now : Int) :
    Turned (pruned retentionMs now) store (pruneOldNoise store retentionMs now).1 := by
  unfold pruneOldNoise
  split
  · next early =>
    refine turned_rows (List.filter_eq_self.mpr fun row _ => ?_).symm id rfl rfl
    rw [pruned, decide_eq_false (by omega)]
    rfl
  · next due =>
    have rows : (deleteOldNoise store (now - retentionMs)).db.events =
        store.db.events.filter fun row => !pruned retentionMs now row := by
      refine List.filter_congr fun row _ => ?_
      rw [pruned, decide_eq_true (by omega), Bool.true_and]
    split
    · next none =>
      -- Nothing is old, so that the table stays as the memory has it.
      have whole : store.db.events.filter (fun row => !oldNoise (now - retentionMs) row) =
          store.db.events := by
        refine List.filter_eq_self.mpr fun row member => ?_
        rw [Bool.eq_false_iff.mpr (List.countP_eq_zero.mp none row member)]
        rfl
      have same : logParts (deleteOldNoise store (now - retentionMs)) = logParts store := by
        rw [logParts, logParts, deleteOldNoise, whole]
      exact turned_rows rows (turned_parts same).mirrored rfl rfl
    · exact turned_rows rows (fun _ => reload_mirrored _) rfl rfl

theorem cycle_turned (store : Store) (now : Int) :
    Turned (pruned noiseRetentionMs now) store (cycle store now) :=
  (prune_turned store noiseRetentionMs now).trans (turned_parts rfl)

/-- The pass of the indexer on what opening the store gives. -/
theorem boot_turned (store : Store) (now : Int) :
    Turned (pruned noiseRetentionMs now) store (cycle (openStore store.db store.blobs now) now) := by
  let loaded := reload ⟨store.db, store.blobs, [], Dict.empty⟩
  have mirrored : Mirrored loaded := reload_mirrored _
  by_cases empty : loaded.events.length = 0
  · have opened : openStore store.db store.blobs now =
        (append loaded "public" "heartbeat" (js "specterlog collector booted") true 0 0 now).1 :=
        if_pos empty
    have none : store.db.events = [] := List.length_eq_zero_iff.mp (mirrored.length ▸ empty)
    have heartbeat :=
      append_turned loaded "public" "heartbeat" (js "specterlog collector booted") true 0 0 now
    have young :
        ∀ row ∈ (append loaded "public" "heartbeat" (js "specterlog collector booted") true 0 0
          now).1.db.events, pruned noiseRetentionMs now row = nothing row := by
      intro row member
      rcases List.mem_append.mp member with old | new
      · exact absurd (none ▸ old : row ∈ []) List.not_mem_nil
      · have kind : row.kind = "heartbeat" := congrArg EventRow.kind (List.mem_singleton.mp new)
        have sample : ¬ row.kind = noiseKind := by
          rw [kind]
          decide
        rw [pruned, oldNoise, decide_eq_false sample, Bool.false_and, Bool.false_and, Bool.and_false]
        rfl
    have all := heartbeat.trans (turned_congr young (cycle_turned _ now))
    rw [opened]
    refine turned_congr (fun row member => ?_) ⟨fun _ => all.mirrored mirrored, all.rows, all.indexed⟩
    exact absurd (none ▸ member : row ∈ []) List.not_mem_nil
  · have opened : openStore store.db store.blobs now = loaded := if_neg empty
    have cycled := cycle_turned loaded now
    rw [opened]
    exact ⟨fun _ => cycled.mirrored mirrored, cycled.rows, cycled.indexed⟩

theorem step_turned (begun : (0, 0) ∈ before.db.flagIndex.keys)
    (taken : step env before input = some after) :
    Turned (deleted input) before after := by
  cases input with
  | putFlag tick variant flag draw now =>
      rw [← Option.some.inj taken]
      exact put_flag_turned env before tick variant flag draw now
  | putNoise tick variant draw now =>
      rw [← Option.some.inj taken]
      exact put_noise_turned env before tick variant draw now
  | havoc tick variant now =>
      rw [← Option.some.inj taken]
      exact append_turned _ _ _ _ _ _ _ _
  | pruneOldNoise retentionMs now =>
      rw [← Option.some.inj taken]
      exact prune_turned before retentionMs now
  | cycle now =>
      rw [← Option.some.inj taken]
      exact cycle_turned before now
  | restart draws now =>
      have booted := taken.symm.trans (boot_again begun draws now)
      rw [Option.some.inj booted]
      exact boot_turned before now
  | _ => exact turned_parts (apart_log (quiet_apart taken trivial))

/-! The log as positions of keys. -/

def logOf (store : Store) : KeyedLog := ⟨store.db.events.map EventRow.id, store.db.eventSeq⟩

theorem turned_moved {gone : EventRow → Bool} (turned : Turned gone one other) :
    KeyedLog.Moved (logOf one) ((one.db.events.filter fun row => !gone row).map EventRow.id)
      (logOf other) := by
  obtain ⟨added, rows, ids, counter⟩ := turned.rows
  refine ⟨List.filter_sublist.map _, added.length, ?_, counter⟩
  simp only [logOf, rows, List.map_append, ids]

theorem turned_front {gone : EventRow → Bool} (turned : Turned gone one other)
    (whole : ∀ row ∈ one.db.events, gone row = false) : (logOf one).keys <+: (logOf other).keys := by
  obtain ⟨added, rows, _⟩ := turned.rows
  have all : one.db.events.filter (fun row => !gone row) = one.db.events := by
    refine List.filter_eq_self.mpr fun row member => ?_
    rw [whole row member]
    rfl
  rw [all] at rows
  exact ⟨added.map EventRow.id, by simp only [logOf, rows, List.map_append]⟩

/-- What every state of a run has. -/
structure Logged (store : Store) : Prop where
  begun : (0, 0) ∈ store.db.flagIndex.keys
  mirrored : Mirrored store
  ordered : (logOf store).Ordered

theorem step_logged (logged : Logged before) (taken : step env before input = some after) : Logged after :=
  have turned := step_turned logged.begun taken
  ⟨turned.indexed _ logged.begun, turned.mirrored logged.mirrored,
    KeyedLog.moved_ordered logged.ordered (turned_moved turned)⟩

/-- The nth event in memory has id n and the nth key. -/
theorem keyed_at (mirrored : Mirrored store) (event : Event) (key : Nat) :
    (event, key) ∈ keyed store ↔ store.events[event.id]? = some event ∧
      (logOf store).keys[event.id]? = some key := by
  rw [keyed, List.mem_iff_getElem?]
  constructor
  · rintro ⟨position, found⟩
    obtain ⟨inMemory, inTable⟩ := List.getElem?_zip_eq_some.mp found
    have numbers := congrArg (·[position]?) mirrored.numbered
    have bound := (List.getElem?_eq_some_iff.mp inMemory).1
    rw [mirrored.length] at bound
    simp only [List.getElem?_map, inMemory, List.getElem?_range bound, Option.map_some,
      Option.some.injEq] at numbers
    rw [numbers]
    exact ⟨inMemory, inTable⟩
  · rintro ⟨inMemory, inTable⟩
    exact ⟨event.id, List.getElem?_zip_eq_some.mpr ⟨inMemory, inTable⟩⟩

theorem designates_iff (mirrored : Mirrored store) (id key : Nat) :
    Designates store id key ↔ (logOf store).keys[id]? = some key := by
  constructor
  · rintro ⟨⟨event, _⟩, member, rfl, rfl⟩
    exact ((keyed_at mirrored event _).mp member).2
  · intro found
    have bound : id < store.events.length := by
      have inTable := (List.getElem?_eq_some_iff.mp found).1
      rwa [logOf, List.length_map, ← mirrored.length] at inTable
    have member : (store.events[id], key) ∈ keyed store :=
      List.mem_iff_getElem?.mpr ⟨id, List.getElem?_zip_eq_some.mpr ⟨List.getElem?_eq_getElem bound, found⟩⟩
    have numbers := congrArg (·[id]?) mirrored.numbered
    have inTable : id < store.db.events.length := mirrored.length ▸ bound
    simp only [List.getElem?_map, List.getElem?_eq_getElem bound, List.getElem?_range inTable,
      Option.map_some, Option.some.injEq] at numbers
    exact ⟨_, member, numbers, rfl⟩

/-- The id in the attack info of variant 0 is the incident's. -/
theorem attack_info_designates (env : Env) (mirrored : Mirrored store) (tick : Int)
    (flag : JsString) (draw : Draw) (now : Int) :
    ∃ event key, (putFlag env store tick 0 flag draw now).2 = .ok (.event event.id event.archive) ∧
      event.stream = "private" ∧ event.body = flag ∧
      (event, key) ∈ keyed (putFlag env store tick 0 flag draw now).1 := by
  have after := (put_flag_turned env store tick 0 flag draw now).mirrored mirrored
  have numbered : (putIncident store tick flag now).2.id = store.events.length + 1 := by
    simp [putIncident, append]
  refine ⟨(putIncident store tick flag now).2, store.db.eventSeq + 2, rfl, rfl, rfl,
    (keyed_at after _ _).mpr ?_⟩
  rw [numbered]
  constructor
  · simp [putFlag, putIncident, indexFlag, append]
  · simp [putFlag, putIncident, indexFlag, append, logOf, mirrored.length]

theorem exists_iff (mirrored : Mirrored store) (key : Nat) :
    Exists store key ↔ key ∈ (logOf store).keys := by
  rw [List.mem_iff_getElem?]
  constructor
  · rintro ⟨⟨event, _⟩, member, rfl⟩
    exact ⟨event.id, ((keyed_at mirrored event _).mp member).2⟩
  · rintro ⟨id, found⟩
    obtain ⟨entry, member, _, same⟩ := (designates_iff mirrored id key).mpr found
    exact ⟨entry, member, same⟩

theorem seen_before_iff (mirrored : Mirrored one) (after key : Nat) :
    seenBefore one after key = true ↔ key ∈ (logOf one).keys.take after := by
  simp only [seenBefore, List.any_eq_true, Bool.and_eq_true, decide_eq_true_eq]
  constructor
  · rintro ⟨⟨event, _⟩, member, early, rfl⟩
    have found := ((keyed_at mirrored event _).mp member).2
    exact List.mem_iff_getElem?.mpr ⟨event.id, (List.getElem?_take_of_lt early).trans found⟩
  · intro member
    obtain ⟨id, bound, found⟩ := List.getElem_of_mem member
    rw [List.length_take] at bound
    rw [List.getElem_take] at found
    obtain ⟨entry, listed, rfl, rfl⟩ :=
      (designates_iff mirrored id key).mpr (List.getElem?_eq_some_iff.mpr ⟨by omega, found⟩)
    exact ⟨entry, listed, by omega, rfl⟩

theorem later_events (first : Mirrored one) (second : Mirrored other)
    (ordered : (logOf other).Ordered) (same : KeyedLog.SamePositions (logOf one) (logOf other))
    {after : Nat} (within : after ≤ one.events.length) (shown : Event → Bool) :
    eventsFrom other after shown = laterEvents one other after shown := by
  have all : (keyed other).map Prod.fst = other.events := by
    refine List.map_fst_zip (Nat.le_of_eq ?_)
    rw [List.length_map, second.length]
  have bound : after ≤ (logOf one).keys.length := by rwa [logOf, List.length_map, ← first.length]
  rw [eventsFrom, ← all, List.filter_map]
  refine congrArg (List.map Prod.fst) (List.filter_congr fun entry member => ?_)
  have found := ((keyed_at second entry.1 entry.2).mp member).2
  have position : decide (after ≤ entry.1.id) = !seenBefore one after entry.2 := by
    rw [Bool.eq_iff_iff, decide_eq_true_eq, KeyedLog.later_iff ordered same bound found, Bool.not_eq_true',
      ← Bool.not_eq_true, seen_before_iff first]
  exact congrArg (· && shown entry.1) position

/-- Positions that keep their keys are ids that keep their events. -/
theorem same_ids (first : Mirrored one) (second : Mirrored other) (ordered : (logOf other).Ordered)
    (same : KeyedLog.SamePositions (logOf one) (logOf other)) : SameIds one other where
  designates id key named left := by
    rw [designates_iff second]
    exact same.kept id key ((designates_iff first id key).mp named) ((exists_iff second key).mp left)
  reused id key next named now :=
    same.unused id key next ((designates_iff first id key).mp named)
      ((designates_iff second id next).mp now)
  replayed cursor mode stream within := congrArg Except.ok (later_events first second ordered same within _)
  subscribed cursor stream within := congrArg Except.ok (later_events first second ordered same within _)

/-! Whole runs. -/

/-- The condition on a step: it deletes no row. -/
def DeletesNothing (store : Store) (input : Input) : Prop :=
  ∀ row ∈ store.db.events, deleted input row = false

instance (store : Store) (input : Input) : Decidable (DeletesNothing store input) :=
  inferInstanceAs (Decidable (∀ row ∈ store.db.events, deleted input row = false))

theorem run_logged {inputs : List Input} (logged : Logged store)
    (ran : run env store inputs = some other) : Logged other := by
  induction inputs generalizing store with
  | nil => exact Option.some.inj ran ▸ logged
  | cons input rest ih =>
      obtain ⟨next, taken⟩ := step_taken env logged.begun input
      rw [run_cons taken] at ran
      exact ih (step_logged logged taken) ran

/-- A run that deletes nothing only adds to the log. -/
theorem run_grows {inputs : List Input} (logged : Logged store)
    (kept : EachStep (step env) DeletesNothing store inputs)
    (ran : run env store inputs = some other) : (logOf store).keys <+: (logOf other).keys := by
  induction inputs generalizing store with
  | nil => exact Option.some.inj ran ▸ List.prefix_refl _
  | cons input rest ih =>
      obtain ⟨next, taken⟩ := step_taken env logged.begun input
      rw [run_cons taken] at ran
      exact (turned_front (step_turned logged.begun taken) kept.1).trans
        (ih (step_logged logged taken) (kept.2 next taken) ran)

theorem run_taken (logged : Logged store) (inputs : List Input) :
    ∃ other, run env store inputs = some other := by
  induction inputs generalizing store with
  | nil => exact ⟨store, rfl⟩
  | cons input rest ih =>
      obtain ⟨next, taken⟩ := step_taken env logged.begun input
      rw [run_cons taken]
      exact ih (step_logged logged taken)

theorem run_gone {inputs : List Input} (logged : Logged store)
    (ran : run env store inputs = some other) {key : Nat} (old : key ≤ store.db.eventSeq)
    (gone : key ∉ (logOf store).keys) : key ∉ (logOf other).keys := by
  induction inputs generalizing store with
  | nil => exact Option.some.inj ran ▸ gone
  | cons input rest ih =>
      obtain ⟨next, taken⟩ := step_taken env logged.begun input
      rw [run_cons taken] at ran
      obtain ⟨still, out⟩ := KeyedLog.gone_stays (turned_moved (step_turned logged.begun taken)) old gone
      exact ih (step_logged logged taken) ran still out

theorem run_append (logged : Logged store) (earlier later : List Input) :
    run env store (earlier ++ later) = (run env store earlier).bind fun middle => run env middle later := by
  induction earlier generalizing store with
  | nil => rfl
  | cons input rest ih =>
      obtain ⟨next, taken⟩ := step_taken env logged.begun input
      rw [List.cons_append, run_cons taken, run_cons taken]
      exact ih (step_logged logged taken)

/-- The condition holds of the part of a run between two moments. -/
theorem deletes_nothing_part {earlier later : List Input} {middle : Store} (logged : Logged store)
    (kept : EachStep (step env) DeletesNothing store (earlier ++ later))
    (ran : run env store earlier = some middle) :
    EachStep (step env) DeletesNothing middle later := by
  induction earlier generalizing store with
  | nil => exact Option.some.inj ran ▸ kept
  | cons input rest ih =>
      obtain ⟨next, taken⟩ := step_taken env logged.begun input
      rw [run_cons taken] at ran
      exact ih (step_logged logged taken) (kept.2 next taken) ran

theorem deletes_nothing_front {early rest : List Input}
    (kept : EachStep (step env) DeletesNothing store (early ++ rest)) :
    EachStep (step env) DeletesNothing store early := by
  induction early generalizing store with
  | nil => trivial
  | cons input later ih => exact ⟨kept.1, fun next taken => ih (kept.2 next taken)⟩

theorem stable_while_kept {inputs : List Input} (logged : Logged store)
    (kept : EachStep (step env) DeletesNothing store inputs) : IdsStable env store inputs := by
  rintro earlier later one other ⟨rest, rfl⟩ first second
  have reached := run_logged logged first
  have last := run_logged reached second
  have grown := run_grows reached (deletes_nothing_part logged (deletes_nothing_front kept) first) second
  exact same_ids reached.mirrored last.mirrored last.ordered (KeyedLog.same_of_prefix grown last.ordered)

theorem stable_tail {next : Store} {rest : List Input} (taken : step env store input = some next)
    (stable : IdsStable env store (input :: rest)) : IdsStable env next rest := by
  intro earlier later one other within first second
  refine stable (input :: earlier) later one other ?_ ((run_cons taken earlier).trans first) second
  exact List.cons_prefix_cons.mpr ⟨rfl, within⟩

/-- The first event after a deletion takes the id of an event that was there before. -/
theorem deletion_reuses {next last : Store} {rest : List Input} (logged : Logged store)
    (taken : step env store input = some next) (deletes : ¬ DeletesNothing store input)
    (ran : run env next rest = some last) (longer : (logOf next).keys.length < (logOf last).keys.length) :
    ¬ SameIds store last := by
  have turned := step_turned logged.begun taken
  have moved := turned_moved turned
  have after := step_logged logged taken
  let kept := (store.db.events.filter fun row => !deleted input row).map EventRow.id
  have fewer : kept.length < (logOf store).keys.length := by
    simp only [DeletesNothing, not_forall] at deletes
    obtain ⟨row, member, gone⟩ := deletes
    rw [List.length_map, logOf, List.length_map]
    exact List.length_filter_lt_length_iff_exists.mpr ⟨row,
      member, by rw [Bool.not_eq_false] at gone; simp [gone]⟩
  have left : kept.length ≤ (logOf next).keys.length := by
    obtain ⟨count, keys, _⟩ := moved.added
    rw [keys, List.length_append]
    exact Nat.le_add_right _ _
  have only : ∀ key ∈ (logOf store).keys, key ∈ (logOf last).keys → key ∈ kept := by
    intro key had has
    by_contra gone
    obtain ⟨old, out⟩ := KeyedLog.deleted_gone logged.ordered moved had gone
    exact run_gone after ran old out has
  obtain ⟨id, key, other, had, has, apart⟩ :=
    KeyedLog.deleted_reused logged.ordered fewer (Nat.lt_of_le_of_lt left longer) only
  intro same
  have final := run_logged after ran
  exact apart (same.reused id key other ((designates_iff logged.mirrored id key).mpr had)
    ((designates_iff final.mirrored id other).mpr has))

theorem kept_while_stable {inputs : List Input} (logged : Logged store) (tick variant now : Int)
    (stable : IdsStable env store (inputs ++ [.havoc tick variant now])) :
    EachStep (step env) DeletesNothing store inputs := by
  induction inputs generalizing store with
  | nil => trivial
  | cons input rest ih =>
      obtain ⟨next, taken⟩ := step_taken env logged.begun input
      have after := step_logged logged taken
      have kept := ih after (stable_tail taken stable)
      refine ⟨?_, fun other same => Option.some.inj (taken.symm.trans same) ▸ kept⟩
      by_contra deletes
      obtain ⟨middle, ran⟩ : ∃ other, run env next rest = some other := run_taken after rest
      let last := (havoc middle tick variant now).1
      have walked : run env next (rest ++ [.havoc tick variant now]) = some last := by
        rw [run_append after, ran]
        rfl
      have longer : (logOf next).keys.length < (logOf last).keys.length := by
        have grown := (run_grows after kept ran).length_le
        have one : (logOf last).keys.length = (logOf middle).keys.length + 1 := by
          simp [last, havoc, havocWalk, append, logOf]
        omega
      refine deletion_reuses logged taken deletes walked longer ?_
      exact stable [] (input :: (rest ++ [.havoc tick variant now])) store last (List.prefix_refl _) rfl
        ((run_cons taken _).trans walked)

/-! The first start. -/

theorem boot_flags_holds {draws : Draw × Draw} {now : Int}
    (flagged : bootFlags env store draws now = some other)
    (holds : Store → Prop) (own : holds store) (planted : ∀ one variant text draw, holds one →
      holds (putFlag env one 0 variant (js text) draw now).1) : holds other := by
  simp only [bootFlags] at flagged
  split at flagged
  · cases flagged
    exact own
  · split at flagged
    · cases flagged
    · cases flagged
      have first := planted store 0 env.bootFlag draws.1 own
      refine and_then_holds holds first fun _ _ => ?_
      have second := planted _ 1 (env.bootFlag ++ "_EVIDENCE") draws.1 first
      exact and_then_holds holds second fun _ _ => planted _ 2 _ draws.2 second

theorem boot_flags_turned {draws : Draw × Draw} {now : Int}
    (flagged : bootFlags env store draws now = some other) :
    Turned nothing store other :=
  boot_flags_holds flagged (Turned nothing store) (turned_parts rfl) fun _ variant text draw turned =>
    turned.trans (put_flag_turned env _ 0 variant (js text) draw now)

theorem booted_logged {draws : Draw × Draw} {now : Int}
    (booted : boot env {} Dict.empty draws now = some store) :
    Logged store := by
  have begun := booted_begun booted
  obtain ⟨flagged, planted, rfl⟩ := Option.map_eq_some_iff.mp booted
  let empty : Store := ⟨{}, Dict.empty, [], Dict.empty⟩
  have mirrored : Mirrored empty := ⟨rfl, rfl⟩
  have ordered : (logOf empty).Ordered :=
    ⟨List.Pairwise.nil, fun _ member => absurd member List.not_mem_nil⟩
  have opened : Turned nothing empty (openStore {} Dict.empty now) :=
    append_turned empty "public" "heartbeat" (js "specterlog collector booted") true 0 0 now
  have started := opened.trans (boot_flags_turned planted)
  have cycled := cycle_turned flagged now
  exact ⟨begun, cycled.mirrored (started.mirrored mirrored),
    KeyedLog.moved_ordered (KeyedLog.moved_ordered ordered (turned_moved started)) (turned_moved cycled)⟩

/-- Event ids of the service are stable over a run exactly while no step deletes a row: a run
that deletes none keeps every id, and one more event after a run that deletes some has an id
of another event. -/
theorem event_ids_stable {draws : Draw × Draw} {bootNow : Int} {start : Store}
    (booted : boot env {} Dict.empty draws bootNow = some start) (inputs : List Input) :
    (EachStep (step env) DeletesNothing start inputs → IdsStable env start inputs) ∧
      ∀ tick variant now, IdsStable env start (inputs ++ [.havoc tick variant now]) →
        EachStep (step env) DeletesNothing start inputs :=
  ⟨stable_while_kept (booted_logged booted), kept_while_stable (booted_logged booted)⟩

theorem watched_ids_stable : IdsStable watchEnv watchStart
    [.putNoise 7 0 (watchDraw 5) 0, .putFlag 7 0 (js "FLAG\x7bseven\x7d") (watchDraw 6) 60000,
      .restart (watchDraw 8, watchDraw 9) 120000, .havoc 7 0 120000, .cycle 1800000] :=
  (event_ids_stable (Option.some_get _).symm _).1 (by decide +kernel)

/-! A sample of the first minute is pruned half an hour later: the incident behind it moves up. -/

def prunedPast : List Input :=
  [.putNoise 1 0 (watchDraw 5) 0, .putFlag 1 0 (js "FLAG\x7bone\x7d") (watchDraw 6) 60000]

def beforePruning : Store := (run watchEnv watchStart prunedPast).get (by decide +kernel)

theorem pruned_id_moves : ¬ IdsStable watchEnv watchStart (prunedPast ++ [.cycle 1800001]) := by
  intro stable
  have same := stable prunedPast [.cycle 1800001] beforePruning (cycle beforePruning 1800001)
    (List.prefix_refl _) (Option.some_get _).symm rfl
  have incident : Designates beforePruning 5 6 ∧ Exists (cycle beforePruning 1800001) 6 := by decide +kernel
  have moved : ¬ Designates (cycle beforePruning 1800001) 5 6 := by decide +kernel
  exact moved (same.designates 5 6 incident.1 incident.2)

end KosSim.SpecterLog
