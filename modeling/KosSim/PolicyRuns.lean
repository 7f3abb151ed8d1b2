import KosSim.PolicyForge

/-!
Runs of PolicyForge: any requests, their handlers in any order of calls, and restarts. What the
agent holds, under the condition that no id is written with another object than the one it has: two
texts whose hashes agree would do that.
-/

namespace KosSim.PolicyForge
open Library Library.Base64
open PolicyDsl (Text CaseMap Rule)

variable (env : Env)

/-- The objects that an act writes, each under its id. -/
def Act.objects : Act → List Obj
  | .putFlag tick payload flag => [flagObject env tick payload flag]
  | .putNoise tick payload => [noiseObject env tick payload]
  | .allowed _ _ => []
  | .init => (bootFlags env).map fun flag => flagObject env 0 flag.1 flag.2

/-- No id is written with another object than it has. -/
def Apart (state : State) (act : Act) : Prop :=
  ∀ obj ∈ act.objects env, (∀ old ∈ state.mem.objects.get? obj.id, old = obj) ∧
    ∀ other ∈ act.objects env, other.id = obj.id → other = obj

instance apartDecidable (state : State) (act : Act) : Decidable (Apart env state act) :=
  inferInstanceAs (Decidable (∀ obj ∈ act.objects env, (∀ old ∈ state.mem.objects.get? obj.id, old = obj) ∧
    ∀ other ∈ act.objects env, other.id = obj.id → other = obj))

/-- The agent; `more` is what a result asks of its acts besides. -/
def agentUnder (more : State → Act → Prop) : System State Act where
  apply := apply env
  meets state act := Apart env state act ∧ more state act
  outer act := act = .init

instance agentDecidable (more : State → Act → Prop) [∀ state act, Decidable (more state act)]
    (state : State) (act : Act) :
    Decidable ((agentUnder env more).meets state act) :=
  inferInstanceAs (Decidable (Apart env state act ∧ more state act))

abbrev agent : System State Act := agentUnder env fun _ _ => True

/-- The objects a service is first started with have ids of their own. -/
def BootApart : Prop :=
  ∀ one ∈ Act.objects env .init, ∀ other ∈ Act.objects env .init, other.id = one.id → other = one

/-- So have their snapshots. -/
def BootSealed : Prop :=
  ∀ one ∈ Act.objects env .init, ∀ other ∈ Act.objects env .init, other.snapshot = one.snapshot →
    other = one

/-- The service as it is first started. -/
def started {ι α : Type} : Pool State ι Act α := { state := init env none, acts := [.init] }

/-! Ids. -/

theorem hash_digits (text : Text) : ∀ c ∈ hash env text, c ∈ hexDigits := fun c member =>
  hex_text_digits _ c (List.mem_of_mem_take member)

theorem hash_apart {name : Text} {c : Char} (member : c ∈ name) (other : c ∉ hexDigits)
    (text : Text) : hash env text ≠ name :=
  fun same => other (hash_digits env text c (same ▸ member))

theorem hash_public (text : Text) : hash env text ≠ publicObject :=
  hash_apart env (c := 'p') (by decide) (by decide) text

theorem hash_snapshot (text : Text) : hash env text ≠ publicSnapshot :=
  hash_apart env (c := 'p') (by decide) (by decide) text

/-! What the agent holds. -/

/-- The objects that the service makes. -/
inductive Made : Obj → Prop where
  | seed : Made (seedObject env)
  | noise (tick payload : Int) : Made (noiseObject env tick payload)
  | flag (tick payload : Int) (flag : Text) : Made (flagObject env tick payload flag)

/-- A private object alone in its snapshot, or the public pair. -/
inductive Sealed (objects : Dict Text Obj) : Text → Snap → Prop where
  | seed : Sealed objects publicSnapshot (seedSnap env)
  | flag (obj : Obj) (hidden : obj.isPublic = false) (stored : objects.get? obj.id = some obj) :
      Sealed objects obj.snapshot ⟨obj.snapshot, env.team, [obj.id]⟩

structure Held (mem : Stored) : Prop where
  ids : ∀ id obj, mem.objects.get? id = some obj → obj.id = id
  made : ∀ id obj, mem.objects.get? id = some obj → Made env obj
  seed : mem.objects.get? publicObject = some (seedObject env)
  snapshots : ∀ name snap, mem.snapshots.get? name = some snap → Sealed env mem.objects name snap
  seedSnap : mem.snapshots.get? publicSnapshot = some (seedSnap env)

/-- Of what stands in the file, only the cache may be behind. -/
structure Sane (state : State) : Prop where
  held : Held env state.mem
  file : ∃ disk, state.disk = some disk ∧ disk.flags = state.mem.flags ∧ disk.objects = state.mem.objects ∧
    disk.snapshots = state.mem.snapshots

variable {env}

theorem sealed_grows {objects more : Dict Text Obj} (grown : Grown objects more) {name : Text} {snap : Snap}
    (kept : Sealed env objects name snap) : Sealed env more name snap := by
  cases kept with
  | seed => exact .seed
  | flag obj hidden stored => exact .flag obj hidden (grown _ _ stored)

/-- Writing an object where none or itself stands. -/
theorem grown_write {objects : Dict Text Obj} {obj : Obj} (apart : ∀ old ∈ objects.get? obj.id, old = obj) :
    Grown objects (objects.set obj.id obj) := by
  intro id row found
  rw [Dict.get_set]
  by_cases same : obj.id = id
  · rw [if_pos same, apart row (by rw [same]; exact found)]
  · rw [if_neg same]
    exact found

theorem write_stored (objects : Dict Text Obj) (obj : Obj) :
    (objects.set obj.id obj).get? obj.id = some obj := by
  rw [Dict.get_set, if_pos rfl]

theorem get_write {objects : Dict Text Obj} {obj row : Obj} {id : Text}
    (found : (objects.set obj.id obj).get? id = some row) :
    (obj.id = id ∧ row = obj) ∨ objects.get? id = some row := by
  rw [Dict.get_set] at found
  by_cases same : obj.id = id
  · rw [if_pos same] at found
    exact .inl ⟨same, (Option.some.inj found).symm⟩
  · rw [if_neg same] at found
    exact .inr found

/-- An object of the service is written, with a snapshot of its own or none. -/
theorem held_write {mem : Stored} (held : Held env mem) {obj : Obj} (made : Made env obj)
    (apart : ∀ old ∈ mem.objects.get? obj.id, old = obj) {snapshots : Dict Text Snap}
    (kept : ∀ name snap, snapshots.get? name = some snap → mem.snapshots.get? name = some snap ∨
      (obj.isPublic = false ∧ name = obj.snapshot ∧ snap = ⟨name, env.team, [obj.id]⟩))
    (seedSnap_ : snapshots.get? publicSnapshot = some (seedSnap env))
    (flags : Dict (Int × Int) Text) (cache : Dict Text Bool) :
    Held env ⟨flags, mem.objects.set obj.id obj, cache, snapshots⟩ := by
  have grown := grown_write apart
  refine ⟨fun id row found => ?_, fun id row found => ?_, grown _ _ held.seed,
    fun name snap found => ?_, seedSnap_⟩
  · rcases get_write found with ⟨same, rfl⟩ | old
    · exact same
    · exact held.ids id row old
  · rcases get_write found with ⟨-, rfl⟩ | old
    · exact made
    · exact held.made id row old
  · rcases kept name snap found with old | ⟨hidden, rfl, rfl⟩
    · exact sealed_grows grown (held.snapshots name snap old)
    · exact .flag obj hidden (by rw [Dict.get_set, if_pos rfl])

theorem put_flag_held {mem : Stored} (held : Held env mem) {tick payload : Int} {flag : Text}
    (apart : ∀ old ∈ mem.objects.get? (flagObject env tick payload flag).id,
      old = flagObject env tick payload flag) :
    Held env (putFlagState env mem tick payload flag) := by
  refine held_write held (.flag tick payload flag) apart (fun name snap found => ?_) ?_ _ _
  · rw [Dict.get_set] at found
    by_cases same : (flagObject env tick payload flag).snapshot = name
    · rw [if_pos same, Option.some.injEq] at found
      exact .inr ⟨rfl, same.symm, by rw [← found, same]⟩
    · rw [if_neg same] at found
      exact .inl found
  · have other : (flagObject env tick payload flag).snapshot ≠ publicSnapshot := hash_snapshot env _
    rw [Dict.get_set, if_neg other]
    exact held.seedSnap

theorem put_noise_held {mem : Stored} (held : Held env mem) {tick payload : Int}
    (apart : ∀ old ∈ mem.objects.get? (noiseObject env tick payload).id,
      old = noiseObject env tick payload) : Held env (putNoiseState env mem tick payload) :=
  held_write held (.noise tick payload) apart (fun _ _ found => .inl found) held.seedSnap _ _

/-- The flags of a start, one after the other. -/
theorem put_flags_held {mem : Stored} (held : Held env mem) (flags : List (Int × Text))
    (apart : ∀ one ∈ flags, (∀ old ∈ mem.objects.get? (flagObject env 0 one.1 one.2).id,
      old = flagObject env 0 one.1 one.2) ∧
      ∀ other ∈ flags, (flagObject env 0 other.1 other.2).id = (flagObject env 0 one.1 one.2).id →
        flagObject env 0 other.1 other.2 = flagObject env 0 one.1 one.2) :
    Held env (flags.foldl (fun mem flag => putFlagState env mem 0 flag.1 flag.2) mem) ∧
      Grown mem.objects (flags.foldl (fun mem flag => putFlagState env mem 0 flag.1 flag.2) mem).objects ∧
      ∀ one ∈ flags, (flags.foldl (fun mem flag => putFlagState env mem 0 flag.1 flag.2) mem).objects.get?
        (flagObject env 0 one.1 one.2).id = some (flagObject env 0 one.1 one.2) := by
  induction flags generalizing mem with
  | nil => exact ⟨held, grown_refl _, fun _ member => (List.not_mem_nil member).elim⟩
  | cons first rest ih =>
      obtain ⟨fresh, alike⟩ := apart first List.mem_cons_self
      have tail := ih (put_flag_held held fresh) fun one member => ⟨fun old found => ?_, fun other there =>
        (apart one (List.mem_cons_of_mem _ member)).2 other (List.mem_cons_of_mem _ there)⟩
      · refine ⟨tail.1, grown_trans (grown_write fresh) tail.2.1,
          List.forall_mem_cons.mpr ⟨tail.2.1 _ _ ?_, tail.2.2⟩⟩
        exact write_stored _ _
      · rcases get_write found with ⟨same, rfl⟩ | before
        · exact (apart one (List.mem_cons_of_mem _ member)).2 first List.mem_cons_self same
        · exact (apart one (List.mem_cons_of_mem _ member)).1 old before

/-- Each of the flags is alone in its snapshot. -/
theorem put_flags_snapshots (mem : Stored) (flags : List (Int × Text))
    (apart : ∀ one ∈ flags, ∀ other ∈ flags,
      (flagObject env 0 other.1 other.2).snapshot = (flagObject env 0 one.1 one.2).snapshot →
      flagObject env 0 other.1 other.2 = flagObject env 0 one.1 one.2) :
    ∀ one ∈ flags, (flags.foldl (fun mem flag => putFlagState env mem 0 flag.1 flag.2) mem).snapshots.get?
      (flagObject env 0 one.1 one.2).snapshot =
        some ⟨(flagObject env 0 one.1 one.2).snapshot, env.team, [(flagObject env 0 one.1 one.2).id]⟩ := by
  have keeps (obj : Obj) (rest : List (Int × Text)) (mem : Stored)
      (alike : ∀ other ∈ rest, (flagObject env 0 other.1 other.2).snapshot = obj.snapshot →
        flagObject env 0 other.1 other.2 = obj)
      (there : mem.snapshots.get? obj.snapshot = some ⟨obj.snapshot, env.team, [obj.id]⟩) :
      (rest.foldl (fun mem flag => putFlagState env mem 0 flag.1 flag.2) mem).snapshots.get? obj.snapshot =
        some ⟨obj.snapshot, env.team, [obj.id]⟩ := by
    induction rest generalizing mem with
    | nil => exact there
    | cons other rest ih =>
        obtain ⟨here, later⟩ := List.forall_mem_cons.mp alike
        refine ih _ later ((Dict.get_set _ _ _ _).trans ?_)
        by_cases same : (flagObject env 0 other.1 other.2).snapshot = obj.snapshot
        · rw [if_pos same, here same]
        · exact (if_neg same).trans there
  induction flags generalizing mem with
  | nil => exact fun _ member => (List.not_mem_nil member).elim
  | cons first rest ih =>
      obtain ⟨here, later⟩ := List.forall_mem_cons.mp apart
      refine List.forall_mem_cons.mpr ⟨?_, ih _ fun one member => ?_⟩
      · refine keeps _ rest _ (fun other member => here other (List.mem_cons_of_mem _ member)) ?_
        exact (Dict.get_set _ _ _ _).trans (if_pos rfl)
      · exact fun other there => later one member other (List.mem_cons_of_mem _ there)

theorem started_snapshots (apart : BootSealed env) : ∀ obj ∈ Act.objects env .init,
    (init env none).mem.snapshots.get? obj.snapshot = some ⟨obj.snapshot, env.team, [obj.id]⟩ := by
  intro obj member
  obtain ⟨flag, listed, rfl⟩ := List.mem_map.mp member
  refine put_flags_snapshots _ (bootFlags env) (fun one here other there same => ?_) flag listed
  exact apart _ (List.mem_map_of_mem here) _ (List.mem_map_of_mem there) same

theorem put_new_there {κ α : Type} [DecidableEq κ] {dict : Dict κ α} {key : κ} {value : α}
    (there : dict.get? key = some value) (other : α) : putNew dict key other = dict := by
  rw [putNew, if_pos (by rw [Dict.contains, there]; rfl)]

theorem seed_public_held {mem : Stored} (held : Held env mem) : seedPublic env mem = mem := by
  rw [seedPublic, put_new_there held.seed, put_new_there held.seedSnap]

theorem seed_blank_held : Held env (seedPublic env {}) := by
  have object (id : Text) (obj : Obj) (found : (seedPublic env {}).objects.get? id = some obj) :
      id = publicObject ∧ obj = seedObject env := by
    have alone : ((Dict.empty : Dict Text Obj).set (seedObject env).id (seedObject env)).get? id =
        some obj := found
    rcases get_write alone with ⟨same, rfl⟩ | none
    · exact ⟨same.symm, rfl⟩
    · cases none
  refine ⟨fun id obj found => ?_, fun id obj found => ?_, ?_, fun name snap found => ?_, ?_⟩
  · obtain ⟨rfl, rfl⟩ := object id obj found
    rfl
  · obtain ⟨-, rfl⟩ := object id obj found
    exact .seed
  · have written : (Dict.empty.set publicObject (seedObject env)).get? publicObject =
        some (seedObject env) := by
      rw [Dict.get_set, if_pos rfl]
    exact written
  · have only : (Dict.empty.set publicSnapshot (seedSnap env)).get? name = some snap := found
    rw [Dict.get_set] at only
    by_cases same : publicSnapshot = name
    · rw [if_pos same, Option.some.injEq] at only
      rw [← same, ← only]
      exact .seed
    · rw [if_neg same] at only
      cases only
  · have written : (Dict.empty.set publicSnapshot (seedSnap env)).get? publicSnapshot =
        some (seedSnap env) := by
      rw [Dict.get_set, if_pos rfl]
    exact written

theorem persist_sane {mem : Stored} (held : Held env mem) : Sane env (persist mem) :=
  ⟨held, mem, rfl, rfl, rfl, rfl⟩

theorem boot_apart {mem : Stored} (apart : ∀ obj ∈ Act.objects env .init,
    (∀ old ∈ mem.objects.get? obj.id, old = obj) ∧
      ∀ other ∈ Act.objects env .init, other.id = obj.id → other = obj) :
    ∀ one ∈ bootFlags env, (∀ old ∈ mem.objects.get? (flagObject env 0 one.1 one.2).id,
      old = flagObject env 0 one.1 one.2) ∧
      ∀ other ∈ bootFlags env, (flagObject env 0 other.1 other.2).id = (flagObject env 0 one.1 one.2).id →
        flagObject env 0 other.1 other.2 = flagObject env 0 one.1 one.2 := by
  intro one member
  obtain ⟨fresh, alike⟩ := apart _ (List.mem_map_of_mem member)
  exact ⟨fresh, fun other there => alike _ (List.mem_map_of_mem there)⟩

/-- A restart has everything that was there. -/
theorem boot_sane {state : State} (sane : Sane env state) (apart : Apart env state .init) :
    Sane env (init env state.disk) ∧ Grown state.mem.objects (init env state.disk).mem.objects ∧
      ∀ obj ∈ Act.objects env .init, (init env state.disk).mem.objects.get? obj.id = some obj := by
  obtain ⟨held, disk, file, flags, objects, snapshots⟩ := sane
  have same : Held env disk := by
    refine ⟨fun id obj found => held.ids id obj (objects ▸ found),
      fun id obj found => held.made id obj (objects ▸ found), objects.symm ▸ held.seed,
      fun name snap found => ?_, snapshots.symm ▸ held.seedSnap⟩
    rw [objects]
    exact held.snapshots name snap (snapshots ▸ found)
  have booted := put_flags_held same (bootFlags env) (boot_apart (by rw [objects]; exact apart))
  rw [init, file, Option.getD_some, seed_public_held same]
  refine ⟨persist_sane booted.1, objects ▸ booted.2.1, fun obj member => ?_⟩
  obtain ⟨flag, listed, rfl⟩ := List.mem_map.mp member
  exact booted.2.2 flag listed

theorem started_sane (apart : BootApart env) : Sane env (init env none) ∧
    ∀ obj ∈ Act.objects env .init, (init env none).mem.objects.get? obj.id = some obj := by
  have booted := put_flags_held seed_blank_held (bootFlags env)
    (boot_apart fun obj member => ⟨?_, apart obj member⟩)
  · refine ⟨persist_sane booted.1, fun obj member => ?_⟩
    obtain ⟨flag, listed, rfl⟩ := List.mem_map.mp member
    exact booted.2.2 flag listed
  · intro old found
    obtain ⟨flag, -, rfl⟩ := List.mem_map.mp member
    have alone : ((Dict.empty : Dict Text Obj).set publicObject (seedObject env)).get? _ = some old := found
    have other : publicObject ≠ (flagObject env 0 flag.1 flag.2).id := (hash_public env _).symm
    rw [Dict.get_set, if_neg other] at alone
    cases alone

/-- The agent is asked about objects that are there. -/
def Known (state : State) (act : Act) : Prop :=
  ∀ session id, act = .allowed session id → state.mem.objects.contains id = true

/-- What each act keeps of the agent's state, and that no object is lost. -/
theorem apply_sane {state : State} (sane : Sane env state) {act : Act} (apart : Apart env state act)
    (known : Known state act) : Sane env (apply env state act) ∧
      Grown state.mem.objects (apply env state act).mem.objects ∧
      ∀ obj ∈ act.objects env, (apply env state act).mem.objects.get? obj.id = some obj := by
  cases act with
  | putFlag tick payload flag =>
      have fresh := (apart (flagObject env tick payload flag) (List.mem_singleton.mpr rfl)).1
      refine ⟨persist_sane (put_flag_held sane.held fresh), grown_write fresh, fun obj member => ?_⟩
      rw [List.mem_singleton.mp member]
      exact write_stored _ _
  | putNoise tick payload =>
      have fresh := (apart (noiseObject env tick payload) (List.mem_singleton.mpr rfl)).1
      refine ⟨persist_sane (put_noise_held sane.held fresh), grown_write fresh, fun obj member => ?_⟩
      rw [List.mem_singleton.mp member]
      exact write_stored _ _
  | allowed session id =>
      have there := known session id rfl
      rw [Dict.contains] at there
      obtain ⟨obj, found⟩ := Option.isSome_iff_exists.mp there
      have nothing : ∀ obj ∈ (Act.allowed session id).objects env,
          (allowedState env state session id).mem.objects.get? obj.id = some obj :=
          fun _ member => (List.not_mem_nil member).elim
      refine and_assoc.mp ⟨?_, nothing⟩
      show Sane env (allowedState env state session id) ∧
        Grown state.mem.objects (allowedState env state session id).mem.objects
      unfold allowedState
      rw [found]
      dsimp only
      cases state.mem.cache.get? (cacheKeyOf env session obj) with
      | some made => exact ⟨sane, grown_refl _⟩
      | none =>
          obtain ⟨held, disk, file, rest⟩ := sane
          exact ⟨⟨⟨held.ids, held.made, held.seed, held.snapshots, held.seedSnap⟩, disk, file, rest⟩,
            grown_refl _⟩
  | init => exact boot_sane sane apart

variable (env) in
/-- What every handler relies on, and does in turn: nobody asks about an object that is not there. -/
def tended (more : State → Act → Prop) : Contract (agentUnder env more) where
  keeps := Sane env
  grows one other := Grown one.mem.objects other.mem.objects
  ok := Known
  refl state := grown_refl _
  trans := grown_trans
  step _ _ sane met known := ⟨(apply_sane sane met.1 known).1, (apply_sane sane met.1 known).2.1⟩
  outside _ _ _ outer _ _ _ same := by
    cases same
    cases outer

end KosSim.PolicyForge
