import KosSim.EventIds

/-!
SpecterLog's memory beside its tables. The list and the map that `append` keeps up are what `reload`
would build, as long as every text comes back from the database as it was.
-/

namespace KosSim.SpecterLog
open Library

variable {env : Env} {store one other before after : Store} {input : Input}

/-- /api/archive; an id without an event is a TypeError. -/
def apiArchive (store : Store) (archive window : String) : Except Refusal (List Event) :=
  match store.archives.get? archive with
  | none => .error (404, "missing_archive")
  | some ids =>
      match ids.mapM fun id => store.events[id]? with
      | none => .error (500, "undefined is not an object")
      | some events => .ok (events.filter fun ev => ev.isPublic || window.startsWith "public:../private")

/-- The ids of the events with the name, in their order. -/
def idsOf (events : List Event) (archive : String) : List Nat :=
  (events.filter fun event => event.archive = archive).map Event.id

/-- Ids are positions, the map has exactly the events of each name, and every id of it is one. -/
structure Listed (store : Store) : Prop where
  numbered : ∀ (position : Nat) (event : Event), store.events[position]? = some event → event.id = position
  archived : ∀ archive ids, store.archives.get? archive = some ids ↔
    ids ≠ [] ∧ ids = idsOf store.events archive
  ascending : ∀ archive ids, store.archives.get? archive = some ids → ids.Pairwise (· < ·)
  defined : ∀ archive ids id, store.archives.get? archive = some ids → id ∈ ids →
    ∃ event, store.events[id]? = some event
  answered : ∀ archive window error, apiArchive store archive window = .error error →
    error = (404, "missing_archive")

/-- A reload at this moment changes nothing. -/
def Rebuilt (store : Store) : Prop :=
  (reload store).events = store.events ∧ (reload store).archives = store.archives

/-! The map. -/

theorem fold_archives (events : List Event) (archives : Dict String (List Nat)) (archive : String) :
    (events.foldl pushArchive archives).get? archive =
      if idsOf events archive = [] then archives.get? archive
      else some ((archives.get? archive).getD [] ++ idsOf events archive) := by
  induction events generalizing archives with
  | nil => rfl
  | cons event rest ih =>
      rw [List.foldl_cons, ih, pushArchive, Dict.get_set]
      by_cases same : event.archive = archive
      · have ids : idsOf (event :: rest) archive = event.id :: idsOf rest archive := by
          rw [idsOf, List.filter_cons_of_pos (by rw [same]; exact decide_eq_true rfl), List.map_cons]
          rfl
        rw [if_pos same, ids, if_neg (List.cons_ne_nil _ _), same]
        split
        · next none => rw [none]
        · rw [Option.getD_some, List.append_assoc, List.singleton_append]
      · have ids : idsOf (event :: rest) archive = idsOf rest archive := by
          rw [idsOf, List.filter_cons_of_neg (by rw [decide_eq_true_eq]; exact same)]
          rfl
        rw [if_neg same, ids]

/-- The map is what the loop of `reload` makes of the events. -/
def Archived (store : Store) : Prop := store.archives = store.events.foldl pushArchive Dict.empty

theorem archived_exact (archived : Archived store) (archive : String) (ids : List Nat) :
    store.archives.get? archive = some ids ↔ ids ≠ [] ∧ ids = idsOf store.events archive := by
  rw [archived, fold_archives, Dict.get_empty]
  split
  · next none =>
    rw [none]
    exact ⟨fun same => (nomatch same), fun both => absurd both.2 both.1⟩
  · next filled =>
    rw [Option.getD_none, List.nil_append, Option.some.injEq]
    exact ⟨fun same => ⟨same ▸ filled, same.symm⟩, fun both => both.2.symm⟩

theorem mapM_defined {ids : List Nat} {f : Nat → Option Event}
    (each : ∀ id ∈ ids, ∃ event, f id = some event) :
    ∃ events, ids.mapM f = some events := by
  induction ids with
  | nil => exact ⟨[], rfl⟩
  | cons id rest ih =>
      obtain ⟨event, first⟩ := each id List.mem_cons_self
      obtain ⟨events, others⟩ := ih fun other member => each other (List.mem_cons_of_mem _ member)
      exact ⟨event :: events, by rw [List.mapM_cons, first, others]; rfl⟩

theorem listed (mirrored : Mirrored store) (archived : Archived store) : Listed store := by
  have numbered (position : Nat) (event : Event) (found : store.events[position]? = some event) :
      event.id = position := by
    have here := congrArg (fun ids : List Nat => ids[position]?) mirrored.numbered
    have inside : position < store.db.events.length := by
      rw [← mirrored.length]
      exact (List.getElem?_eq_some_iff.mp found).1
    rw [List.getElem?_map, found, List.getElem?_range inside] at here
    exact Option.some.inj here
  have exactly := archived_exact archived
  have defined (archive : String) (ids : List Nat) (id : Nat)
      (found : store.archives.get? archive = some ids)
      (member : id ∈ ids) : ∃ event, store.events[id]? = some event := by
    rw [((exactly archive ids).mp found).2] at member
    obtain ⟨event, inside, rfl⟩ := List.mem_map.mp member
    obtain ⟨position, here⟩ := List.mem_iff_getElem?.mp (List.mem_filter.mp inside).1
    exact ⟨event, by rw [numbered position event here]; exact here⟩
  refine ⟨numbered, exactly, ?_, defined, ?_⟩
  · intro archive ids found
    have ordered : (store.events.map Event.id).Pairwise (· < ·) := by
      rw [mirrored.numbered]
      exact List.pairwise_lt_range
    rw [((exactly archive ids).mp found).2]
    exact ordered.sublist (List.filter_sublist.map Event.id)
  · intro archive window error refused
    unfold apiArchive at refused
    cases found : store.archives.get? archive with
    | none =>
        rw [found] at refused
        exact (Except.error.inj refused).symm
    | some ids =>
        obtain ⟨events, whole⟩ := mapM_defined fun id member => defined archive ids id found member
        rw [found] at refused
        dsimp only at refused
        rw [whole] at refused
        cases refused

/-! One step. -/

theorem apart_archived (apart : Apart one other) (archived : Archived one) : Archived other := by
  obtain ⟨db, blobs, rfl, -⟩ := apart
  exact archived

theorem append_archived (archived : Archived one) (stream kind : String) (body : JsString) (isPublic : Bool)
    (payload tick now : Int) : Archived (append one stream kind body isPublic payload tick now).1 := by
  unfold Archived append
  dsimp only
  rw [List.foldl_concat, ← archived]

theorem prune_archived (archived : Archived one) (retentionMs now : Int) :
    Archived (pruneOldNoise one retentionMs now).1 := by
  unfold pruneOldNoise
  split
  · exact archived
  · split
    · exact archived
    · rfl

/-- The texts of the memory are those that the database gives back. -/
def Readable (store : Store) : Prop := ∀ event ∈ store.events, js (toText event.body) = event.body

theorem apart_readable (apart : Apart one other) (readable : Readable one) : Readable other := by
  obtain ⟨db, blobs, rfl, -⟩ := apart
  exact readable

theorem append_readable (readable : Readable one) (stream kind : String) {body : JsString}
    (whole : js (toText body) = body) (isPublic : Bool) (payload tick now : Int) :
    Readable (append one stream kind body isPublic payload tick now).1 := by
  intro event member
  rcases List.mem_append.mp member with old | new
  · exact readable event old
  · rw [List.mem_singleton.mp new]
    exact whole

theorem text_readable (text : String) : js (toText (js text)) = js text :=
  congrArg js (to_text_utf16 text)

theorem reload_readable (store : Store) : Readable (reload store) := by
  intro event member
  obtain ⟨position, inside, rfl⟩ := List.mem_mapIdx.mp member
  exact text_readable _

theorem prune_readable (readable : Readable one) (retentionMs now : Int) :
    Readable (pruneOldNoise one retentionMs now).1 := by
  unfold pruneOldNoise
  split
  · exact readable
  · split
    · exact readable
    · exact reload_readable _

theorem to_domain_copy {event : Event} {row : EventRow} {id : Nat} (numbered : event.id = id)
    (copied : eventData event = rowData row) (whole : js (toText event.body) = event.body) :
    toDomain row id = event := by
  simp only [eventData, rowData, Prod.mk.injEq] at copied
  obtain ⟨stream, kind, body, isPublic, archive, payload⟩ := copied
  rw [toDomain, ← stream, ← kind, ← body, ← isPublic, ← archive, ← payload, whole, ← numbered]

/-- With the list in step with the table, a reload changes nothing exactly where the texts survive it. -/
theorem rebuilt_iff (mirrored : Mirrored store) (archived : Archived store) :
    Rebuilt store ↔ Readable store := by
  constructor
  · rintro ⟨same, -⟩ event member
    rw [← same] at member
    exact reload_readable store event member
  · intro readable
    have events : (reload store).events = store.events := by
      refine List.ext_getElem ?_ fun position here there => ?_
      · rw [mirrored.length]
        exact List.length_mapIdx
      · have row : position < store.db.events.length := mirrored.length ▸ there
        have copied := congrArg (fun list => list[position]?) mirrored.copied
        have numbered := congrArg (fun list : List Nat => list[position]?) mirrored.numbered
        rw [List.getElem?_map, List.getElem?_map, List.getElem?_eq_getElem there,
          List.getElem?_eq_getElem row] at copied
        rw [List.getElem?_map, List.getElem?_eq_getElem there, List.getElem?_range row] at numbered
        have loaded : (reload store).events[position] = toDomain store.db.events[position] position :=
          List.getElem_mapIdx
        rw [loaded]
        exact to_domain_copy (Option.some.inj numbered) (Option.some.inj copied)
          (readable _ (List.getElem_mem there))
    refine ⟨events, ?_⟩
    have rebuilt : (reload store).archives = (reload store).events.foldl pushArchive Dict.empty := rfl
    rw [rebuilt, events]
    exact archived.symm

/-! Runs. -/

/-- The flag of an incident comes back from a TEXT column as it was; lone surrogates do not. -/
def isTextInput : Input → Bool
  | .putFlag _ variant flag _ _ => decide (variant = 0 → js (toText flag) = flag)
  | _ => true

/-- What a first start, and every restart, makes of the tables. -/
theorem open_archived (db : Tables) (blobs : Dict String (List UInt8)) (now : Int) :
    Archived (openStore db blobs now) ∧ Readable (openStore db blobs now) := by
  have readable := reload_readable ⟨db, blobs, [], Dict.empty⟩
  have archived : Archived (reload ⟨db, blobs, [], Dict.empty⟩) := rfl
  unfold openStore
  dsimp only
  split
  · exact ⟨append_archived archived _ _ _ _ _ _ _, append_readable readable _ _ (text_readable _) _ _ _ _⟩
  · exact ⟨archived, readable⟩

theorem put_flag_archived (archived : Archived one) (tick variant : Int) (flag : JsString)
    (draw : Draw) (now : Int) :
    Archived (putFlag env one tick variant flag draw now).1 :=
  put_flag_holds env tick variant flag draw now Archived (fun _ _ => apart_archived)
    (fun _ _ _ _ _ _ _ _ _ held => append_archived held _ _ _ _ _ _ _) (fun _ _ _ _ _ held => held) archived

theorem put_flag_readable (readable : Readable one) (tick variant : Int) {flag : JsString}
    (whole : variant = 0 → js (toText flag) = flag) (draw : Draw) (now : Int) :
    Readable (putFlag env one tick variant flag draw now).1 := by
  refine put_flag_holds env tick variant flag draw now Readable (fun _ _ => apart_readable) ?_
    (fun _ _ _ _ _ held => held) readable
  intro one stream kind body isPublic payload tick now either held
  refine append_readable held stream kind ?_ isPublic payload tick now
  rcases either with ⟨incident, rfl⟩ | ⟨text, rfl⟩
  · exact whole incident
  · exact text_readable text

theorem step_archived (begun : (0, 0) ∈ before.db.flagIndex.keys) (archived : Archived before)
    (taken : step env before input = some after) : Archived after := by
  cases input with
  | putFlag tick variant flag draw now =>
      rw [← Option.some.inj taken]
      exact put_flag_archived archived tick variant flag draw now
  | putNoise tick variant draw now =>
      rw [← Option.some.inj taken]
      exact put_noise_holds env tick variant draw now Archived (fun _ _ => apart_archived)
        (fun _ _ _ _ _ _ _ _ held => append_archived held _ _ _ _ _ _ _) archived
  | havoc tick variant now =>
      rw [← Option.some.inj taken]
      exact append_archived archived _ _ _ _ _ _ _
  | pruneOldNoise retentionMs now =>
      rw [← Option.some.inj taken]
      exact prune_archived archived retentionMs now
  | cycle now =>
      rw [← Option.some.inj taken]
      exact prune_archived archived noiseRetentionMs now
  | restart draws now =>
      rw [Option.some.inj (taken.symm.trans (boot_again begun draws now))]
      exact prune_archived (open_archived _ _ now).1 noiseRetentionMs now
  | _ => exact apart_archived (quiet_apart taken trivial) archived

theorem step_readable (begun : (0, 0) ∈ before.db.flagIndex.keys) (whole : isTextInput input = true)
    (readable : Readable before) (taken : step env before input = some after) : Readable after := by
  cases input with
  | putFlag tick variant flag draw now =>
      rw [← Option.some.inj taken]
      exact put_flag_readable readable tick variant (of_decide_eq_true whole) draw now
  | putNoise tick variant draw now =>
      rw [← Option.some.inj taken]
      exact put_noise_holds env tick variant draw now Readable (fun _ _ => apart_readable)
        (fun _ _ _ text _ _ _ _ held => append_readable held _ _ (text_readable text) _ _ _ _) readable
  | havoc tick variant now =>
      rw [← Option.some.inj taken]
      exact append_readable readable _ _ (text_readable _) _ _ _ _
  | pruneOldNoise retentionMs now =>
      rw [← Option.some.inj taken]
      exact prune_readable readable retentionMs now
  | cycle now =>
      rw [← Option.some.inj taken]
      exact prune_readable readable noiseRetentionMs now
  | restart draws now =>
      rw [Option.some.inj (taken.symm.trans (boot_again begun draws now))]
      exact prune_readable (open_archived _ _ now).2 noiseRetentionMs now
  | _ => exact apart_readable (quiet_apart taken trivial) readable

theorem booted_archived {draws : Draw × Draw} {now : Int}
    (booted : boot env {} Dict.empty draws now = some store) :
    Archived store ∧ Readable store := by
  obtain ⟨flagged, planted, rfl⟩ := Option.map_eq_some_iff.mp booted
  have opened := open_archived {} Dict.empty now
  have archived : Archived flagged :=
    boot_flags_holds planted Archived opened.1 fun _ variant text draw held =>
    put_flag_archived held 0 variant (js text) draw now
  have readable : Readable flagged :=
    boot_flags_holds planted Readable opened.2 fun _ variant text draw held =>
    put_flag_readable held 0 variant (fun _ => text_readable text) draw now
  exact ⟨prune_archived archived noiseRetentionMs now, prune_readable readable noiseRetentionMs now⟩

theorem run_archived {inputs : List Input} (logged : Logged store) (archived : Archived store)
    (ran : run env store inputs = some other) :
    Logged other ∧ Archived other ∧ ((∀ input ∈ inputs, isTextInput input = true) → Readable store →
      Readable other) := by
  induction inputs generalizing store with
  | nil =>
      cases ran
      exact ⟨logged, archived, fun _ readable => readable⟩
  | cons input rest ih =>
      obtain ⟨next, taken⟩ := step_taken env logged.begun input
      rw [run_cons taken] at ran
      obtain ⟨loggedLast, archivedLast, readableLast⟩ :=
        ih (step_logged logged taken) (step_archived logged.begun archived taken) ran
      refine ⟨loggedLast, archivedLast, fun texts readable => ?_⟩
      exact readableLast (fun later member => texts later (List.mem_cons_of_mem _ member))
        (step_readable logged.begun (texts input List.mem_cons_self) readable taken)

/-- After any run from the first start the list and the map are in order; and while every flag is a
text that the database gives back, both are what a reload would build. -/
theorem memory_mirrors_tables {draws : Draw × Draw} {bootNow : Int} {start : Store}
    (booted : boot env {} Dict.empty draws bootNow = some start) {inputs : List Input} {last : Store}
    (ran : run env start inputs = some last) :
    Listed last ∧ ((∀ input ∈ inputs, isTextInput input = true) → Rebuilt last) := by
  obtain ⟨archived, readable⟩ := booted_archived booted
  obtain ⟨logged, archived, readableLast⟩ := run_archived (booted_logged booted) archived ran
  refine ⟨listed logged.mirrored archived, fun texts => ?_⟩
  exact (rebuilt_iff logged.mirrored archived).mpr (readableLast texts readable)

/-! A run of the watched service, and a flag that is no text. -/

theorem watched_memory_mirrors :
    ∃ last, run watchEnv watchStart watchLater = some last ∧ Listed last ∧ Rebuilt last := by
  have booted : boot watchEnv {} Dict.empty (watchDraw 1, watchDraw 2) 0 = some watchStart :=
    (Option.some_get _).symm
  obtain ⟨last, ran⟩ := run_taken (booted_logged booted) watchLater
  have mirrors := memory_mirrors_tables booted ran
  exact ⟨last, ran, mirrors.1, mirrors.2 (by decide +kernel)⟩

theorem incident_held (env : Env) (store : Store) (tick : Int) (flag : JsString) (draw : Draw) (now : Int) :
    ∃ event ∈ (putFlag env store tick 0 flag draw now).1.events, event.body = flag :=
  ⟨_, List.mem_append_right _ (List.mem_singleton.mpr rfl), rfl⟩

theorem lone_surrogate_reloads_apart : ∃ last,
    boot watchEnv {} Dict.empty (watchDraw 1, watchDraw 2) 0 = some watchStart ∧
      run watchEnv watchStart [.putFlag 7 0 [0xD800] (watchDraw 3) 0] = some last ∧ ¬Rebuilt last := by
  have booted : boot watchEnv {} Dict.empty (watchDraw 1, watchDraw 2) 0 = some watchStart :=
    (Option.some_get _).symm
  have taken : step watchEnv watchStart (.putFlag 7 0 [0xD800] (watchDraw 3) 0) =
      some (putFlag watchEnv watchStart 7 0 [0xD800] (watchDraw 3) 0).1 := rfl
  have logged := booted_logged booted
  have after := step_logged logged taken
  have archived := step_archived logged.begun (booted_archived booted).1 taken
  refine ⟨_, booted, run_cons taken [], fun rebuilt => ?_⟩
  obtain ⟨event, member, body⟩ := incident_held watchEnv watchStart 7 [0xD800] (watchDraw 3) 0
  have whole := (rebuilt_iff after.mirrored archived).mp rebuilt event member
  rw [body] at whole
  exact absurd whole (by decide)

end KosSim.SpecterLog
