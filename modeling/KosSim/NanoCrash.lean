import KosSim.NanoStore

/-!
Crashes of svc4-nanofleet while it saves. os.WriteFile empties state.json before it writes, so a
crash leaves the old file, a front of the new one, or the new one; a front that is not the whole
file does not parse, and Load passes it over.
-/

namespace KosSim.NanoFleet
open Library

/-- The save that the crash falls into, and how much of the file it has written: nothing yet, or so
many bytes after the file was emptied. -/
structure Crash where
  save : Nat
  written : Option Nat

section Model
variable (sha : List UInt8 → List UInt8)

/-- The stores that an operation saves, one after the other. -/
def saves (state : State) : Input → List Store
  | .restart boot =>
      let loaded : State := ⟨load (emptyStore boot) state.disk, state.disk⟩
      let first := (putFlag sha loaded 0 0 (bootFlag boot)).1
      let second := (putFlag sha first 0 1 (bootFlag boot ++ "_MANIFEST")).1
      let third := (putFlag sha second 0 2 (bootFlag boot ++ "_DIAGNOSTIC")).1
      [first.store, second.store, third.store, addNode third.store publicDrone]
  | input => [(step sha state input).store]

/-- What the operations before the crash have returned. -/
def settled (state : State) (input : Input) (crash : Crash) : Store :=
  match crash.save with
  | 0 => state.store
  | done + 1 => ((saves sha state input)[done]?).getD state.store

/-- The file before the save. -/
def fileBefore (state : State) (input : Input) (crash : Crash) : Option Json.Bytes :=
  match crash.save with
  | 0 => state.disk
  | done + 1 => ((saves sha state input)[done]?).map marshal

def savedText (state : State) (input : Input) (crash : Crash) : Json.Bytes :=
  (((saves sha state input)[crash.save]?).map marshal).getD []

def fileAfter (state : State) (input : Input) (crash : Crash) : Option Json.Bytes :=
  match crash.written with
  | none => fileBefore sha state input crash
  | some count => some ((savedText sha state input crash).take count)

/-- The crash leaves state.json cut short. -/
def torn (state : State) (input : Input) (crash : Crash) : Bool :=
  match crash.written with
  | none => false
  | some count => decide (count < (savedText sha state input crash).length)

/-- Before the first start. -/
def off (boot : Boot) : State := ⟨emptyStore boot, none⟩

end Model

section Crashes
variable {sha : List UInt8 → List UInt8} {hashed teams : List String} {state : State}
    {input : Input} {crash : Crash}

/-- A part of an operation's writes, on the maps that it met or went on with. -/
def PartOf (sha : List UInt8 → List UInt8) (state : State) (input : Input) (before after : Store) : Prop :=
  ∃ (all : List Write) (base : Store), (∀ write ∈ all, write ∈ writes sha state.store input) ∧
    SameMaps base before ∧ after = all.foldl apply base

theorem same_maps_refl (store : Store) : SameMaps store store :=
  ⟨fun _ => rfl, fun _ => rfl, fun _ => rfl, fun _ => rfl⟩

/-- The stores that a start saves: one batch of writes after the other. -/
theorem boot_saves (boot : Boot) : saves sha state (.restart boot) =
    let loaded := load (emptyStore boot) state.disk
    let first := (flagWrites sha (bootTeam boot) 0 0 (bootFlag boot)).foldl apply loaded
    let second := (flagWrites sha (bootTeam boot) 0 1 (bootFlag boot ++ "_MANIFEST")).foldl apply first
    let third := (flagWrites sha (bootTeam boot) 0 2 (bootFlag boot ++ "_DIAGNOSTIC")).foldl apply second
    [first, second, third, apply third (.node publicDrone)] := by
  have team : (load (emptyStore boot) state.disk).team = bootTeam boot := load_team _ _
  simp only [saves, putFlag, persist, addNode, team, flagWrites, List.foldl_cons, List.foldl_nil, apply]

theorem save_part (reached : Reached sha hashed teams state)
    (which : crash.save < (saves sha state input).length) :
    ∃ target, (saves sha state input)[crash.save]? = some target ∧
      PartOf sha state input (settled sha state input crash) target := by
  obtain ⟨save, written⟩ := crash
  cases input with
  | restart boot =>
      rw [boot_saves] at which ⊢
      have parts : ∀ write ∈ flagWrites sha (bootTeam boot) 0 0 (bootFlag boot) ++
          flagWrites sha (bootTeam boot) 0 1 (bootFlag boot ++ "_MANIFEST") ++
          flagWrites sha (bootTeam boot) 0 2 (bootFlag boot ++ "_DIAGNOSTIC") ++ [.node publicDrone],
          write ∈ writes sha state.store (.restart boot) := fun _ member => member
      simp only [List.mem_append] at parts
      unfold settled
      rw [boot_saves]
      match save, which with
      | 0, _ =>
          exact ⟨_, rfl, ⟨_, _, fun write member => parts write (.inl (.inl (.inl member))),
            reached.saved boot, rfl⟩⟩
      | 1, _ =>
          exact ⟨_, rfl, ⟨_, _, fun write member => parts write (.inl (.inl (.inr member))),
            same_maps_refl _, rfl⟩⟩
      | 2, _ =>
          exact ⟨_, rfl, ⟨_, _, fun write member => parts write (.inl (.inr member)),
            same_maps_refl _, rfl⟩⟩
      | 3, _ =>
          exact ⟨_, rfl, ⟨[.node publicDrone], _, fun write member => parts write (.inr member),
            same_maps_refl _, rfl⟩⟩
  | _ =>
      obtain rfl : save = 0 := Nat.lt_one_iff.mp which
      exact ⟨_, rfl, ⟨_, _, fun write member => member, same_maps_refl _, by rw [step_writes]; rfl⟩⟩

/-- What each part of the operation keeps is there when the crash comes, and after its save. -/
theorem saves_keep (reached : Reached sha hashed teams state) (keeps : Store → Prop)
    (begins : keeps state.store)
    (kept : ∀ before after, PartOf sha state input before after → keeps before → keeps after) :
    ∀ (save : Nat) (written : Option Nat), save < (saves sha state input).length →
      keeps (settled sha state input ⟨save, written⟩) ∧
        ∃ target, (saves sha state input)[save]? = some target ∧ keeps target := by
  intro save
  induction save with
  | zero =>
      intro written which
      obtain ⟨target, found, part⟩ := @save_part sha hashed teams state input ⟨0, written⟩ reached which
      exact ⟨begins, target, found, kept _ _ part begins⟩
  | succ done ih =>
      intro written which
      obtain ⟨_, before, foundBefore, heldBefore⟩ := ih written (Nat.lt_of_succ_lt which)
      obtain ⟨target, found, part⟩ :=
        @save_part sha hashed teams state input ⟨done + 1, written⟩ reached which
      have last : settled sha state input ⟨done + 1, written⟩ = before := by
        show ((saves sha state input)[done]?).getD state.store = before
        rw [foundBefore]
        rfl
      have held : keeps (settled sha state input ⟨done + 1, written⟩) := by
        rw [last]
        exact heldBefore
      exact ⟨held, target, found, kept _ _ part held⟩

theorem part_nodes {before after : Store} (part : PartOf sha state input before after) {id : String}
    (member : id ∈ before.nodes.keys) : id ∈ after.nodes.keys := by
  obtain ⟨all, base, _, same, rfl⟩ := part
  refine foldl_keeps (fun acc : Store => id ∈ acc.nodes.keys) (fun acc write _ held => ?_) ?_
  · cases write with
    | flag name flag => exact held
    | node node => exact (Dict.mem_keys_set _ _ _ _).mpr (.inr held)
    | job job => exact held
  · rw [Dict.mem_keys_iff] at member ⊢
    rwa [same.nodes]

/-! A restart on what the crash has left. -/

/-- A file that was not torn loads as what it was saved from. -/
theorem whole_file (reached : Reached sha hashed teams state)
    (which : crash.save < (saves sha state input).length)
    (whole : torn sha state input crash = false) (boot : Boot) :
    SameMaps (load (emptyStore boot) (fileAfter sha state input crash)) (settled sha state input crash) ∨
      ∃ target, (saves sha state input)[crash.save]? = some target ∧
        SameMaps (load (emptyStore boot) (fileAfter sha state input crash)) target := by
  obtain ⟨save, written⟩ := crash
  cases written with
  | none =>
      refine .inl ?_
      show SameMaps (load (emptyStore boot) (fileBefore sha state input ⟨save, none⟩)) _
      cases save with
      | zero => exact reached.saved boot
      | succ done =>
          have found := List.getElem?_eq_getElem (Nat.lt_of_succ_lt which)
          show SameMaps (load (emptyStore boot) (((saves sha state input)[done]?).map marshal))
            (((saves sha state input)[done]?).getD state.store)
          rw [found]
          exact load_marshal _ _
  | some count =>
      have found := List.getElem?_eq_getElem which
      refine .inr ⟨_, found, ?_⟩
      have long := of_decide_eq_false whole
      have text : savedText sha state input ⟨save, some count⟩ = marshal (saves sha state input)[save] := by
        show (((saves sha state input)[save]?).map marshal).getD [] = _
        rw [found]
        rfl
      show SameMaps (load _ (some ((savedText sha state input ⟨save, some count⟩).take count))) _
      rw [List.take_of_length_le (by omega), text]
      exact load_marshal _ _

/-- A file that was torn is as good as none. -/
theorem torn_file (which : crash.save < (saves sha state input).length)
    (cut : torn sha state input crash = true) (boot : Boot) :
    load (emptyStore boot) (fileAfter sha state input crash) = emptyStore boot := by
  obtain ⟨save, written⟩ := crash
  cases written with
  | none => cases cut
  | some count =>
      have found := List.getElem?_eq_getElem which
      have short := of_decide_eq_true cut
      have text : savedText sha state input ⟨save, some count⟩ = marshal (saves sha state input)[save] := by
        show (((saves sha state input)[save]?).map marshal).getD [] = _
        rw [found]
        rfl
      show load _ (some ((savedText sha state input ⟨save, some count⟩).take count)) = _
      rw [text] at short ⊢
      refine load_cut _ _ (List.take_append_drop count _) fun none => ?_
      have lengths := congrArg List.length none
      rw [List.length_drop, List.length_nil] at lengths
      omega

theorem write_node {store : Store} {all : List Write} {id : String}
    (member : id ∈ (all.foldl apply store).nodes.keys) :
    id ∈ store.nodes.keys ∨ ∃ node, .node node ∈ all ∧ node.id = id := by
  refine foldl_keeps (fun acc : Store => id ∈ acc.nodes.keys → id ∈ store.nodes.keys ∨
    ∃ node, .node node ∈ all ∧ node.id = id) (fun acc write inside held here => ?_) .inl member
  cases write with
  | flag name flag => exact held here
  | node node =>
      rcases (Dict.mem_keys_set _ _ _ _).mp here with same | old
      · exact .inr ⟨node, inside, same.symm⟩
      · exact held old
  | job job => exact held here

theorem boot_jobs (boot : Boot) (id : String) : ∀ write ∈ bootWrites sha boot, JobAside id write := by
  intro write member
  simp only [bootWrites, flagWrites, List.mem_append, List.mem_cons, List.not_mem_nil, or_false] at member
  rcases member with (((rfl | rfl) | (rfl | rfl)) | (rfl | rfl)) | rfl <;> trivial

/-- Only a scheduled job is new, and it is not saved before the last save. -/
theorem settled_job (reached : Reached sha hashed teams state)
    (which : crash.save < (saves sha state input).length) (id : String) :
    (settled sha state input crash).jobs.get? id = state.store.jobs.get? id := by
  obtain ⟨save, written⟩ := crash
  cases save with
  | zero => rfl
  | succ done =>
      cases input with
      | restart boot =>
          refine (saves_keep reached (fun store => store.jobs.get? id = state.store.jobs.get? id)
            rfl ?_ _ written which).1
          rintro before after ⟨all, base, inside, same, rfl⟩ held
          exact (writes_job fun write member => boot_jobs boot id write (inside write member)).trans
            ((same.jobs id).trans held)
      | _ => exact absurd which (by simp [saves])

end Crashes

/-! What a crash leaves. -/

section Recovery
variable (sha : List UInt8 → List UInt8) (boot : Boot) (inputs : List Input) (input : Input)
    (crash : Crash) (next : Boot)

/-- The operations before the one that the crash interrupts; the first of a real run is a start. -/
def ran : State := inputs.foldl (step sha) (off boot)

def recovered : Store := (new sha next (fileAfter sha (ran sha boot inputs) input crash)).store

/-- What had returned is there after the restart. -/
structure Survives : Prop where
  flags : ∀ front tick payload flag rest, inputs = front ++ .putFlag tick payload flag :: rest → 1 ≤ tick →
    (∀ other ∈ rest ++ [input], replaces tick payload other = false) →
      getFlag (recovered sha boot inputs input crash next) tick payload flag = true
  nodes : ∀ id ∈ (settled sha (ran sha boot inputs) input crash).nodes.keys,
    id ∈ (recovered sha boot inputs input crash next).nodes.keys
  jobs : ∀ id job, (settled sha (ran sha boot inputs) input crash).jobs.get? id = some job →
    (recovered sha boot inputs input crash next).jobs.get? id = some job

/-- There is no job, and no node but those that a start on an empty directory writes. -/
def Rewritten (store : Store) : Prop :=
  (∀ id ∈ store.nodes.keys, id ∈ (new sha next none).store.nodes.keys) ∧ ∀ id, store.jobs.get? id = none

end Recovery

section Survival
variable {sha : List UInt8 → List UInt8} {boot : Boot} {inputs : List Input} {input : Input}
    {crash : Crash} {next : Boot}

/-- Everything that the run, the interrupted operation and the restart hash. -/
def crashTexts (sha : List UInt8 → List UInt8) (boot : Boot) (inputs : List Input) (input : Input)
    (next : Boot) : List String :=
  hashedFrom sha (off boot) (inputs ++ [input, .restart next])

def crashTeams (boot : Boot) (inputs : List Input) (input : Input) (next : Boot) : List String :=
  teamsOf boot (inputs ++ [input, .restart next])

theorem off_reached (hashed : List String) {teams : List String} (known : bootTeam boot ∈ teams) :
    Reached sha hashed teams (off boot) where
  saved := fun _ => ⟨fun _ => rfl, fun _ => rfl, fun _ => rfl, fun _ => rfl⟩
  sound := sound_empty boot
  team := known

section Scene
variable (apart : HashesApart sha (crashTexts sha boot inputs input next))
include apart

theorem crash_reached :
    Reached sha (crashTexts sha boot inputs input next) (crashTeams boot inputs input next)
      (ran sha boot inputs) ∧
      Within sha (crashTexts sha boot inputs input next) (crashTeams boot inputs input next)
      (ran sha boot inputs) [input, .restart next] := by
  have within : Within sha (crashTexts sha boot inputs input next)
      (crashTeams boot inputs input next) (off boot) (inputs ++ [input, .restart next]) :=
    ⟨fun _ member => member, fun other member => List.mem_map_of_mem (List.mem_cons_of_mem _ member)⟩
  exact ⟨run_reached apart (off_reached _ List.mem_cons_self) (within_front within), within_rest within⟩

/-- A flag that was put and not replaced is kept up to the crash. -/
theorem flag_before (teamsApart : TeamsApart (crashTeams boot inputs input next))
    {front rest : List Input} {tick payload : Int64} {flag : String}
    (whole : inputs = front ++ .putFlag tick payload flag :: rest) (positive : 1 ≤ tick)
    (alone : ∀ other ∈ rest ++ [input], replaces tick payload other = false) :
    ∃ team ∈ crashTeams boot inputs input next, flagText team tick payload flag ∈
      crashTexts sha boot inputs input next ∧
      Kept sha team tick payload flag (ran sha boot inputs).store := by
  have within : Within sha (crashTexts sha boot inputs input next)
      (crashTeams boot inputs input next) (off boot)
      (front ++ .putFlag tick payload flag :: (rest ++ [input, .restart next])) := by
    refine ⟨fun text member => ?_, fun other member => List.mem_map_of_mem (List.mem_cons_of_mem _ ?_)⟩
    · rw [crashTexts, whole, List.append_assoc, List.cons_append]
      exact member
    · rw [whole, List.append_assoc, List.cons_append]
      exact member
  have before := run_reached apart (off_reached _ List.mem_cons_self) (within_front within)
  have start := within_rest within
  obtain ⟨inside, known⟩ := within_head start
  refine ⟨_, before.team, inside _ List.mem_cons_self, ?_⟩
  have shape : ran sha boot inputs =
      rest.foldl (step sha)
      (step sha (front.foldl (step sha) (off boot)) (.putFlag tick payload flag)) := by
    rw [ran, whole, List.foldl_append, List.foldl_cons]
  rw [shape]
  refine (run_keeps apart (fun state => Kept sha _ tick payload flag state.store)
    (reached_step apart before inside known)
    (within_front (within_tail start))
    (put_kept sha _ tick payload flag) fun state other member reached texts names kept => ?_).2
  rw [step_writes]
  exact kept_writes (kept_same (opened_same reached other) kept)
    (input_aside apart teamsApart (inside _ List.mem_cons_self)
    before.team positive reached texts names (alone other (List.mem_append_left _ member)))

end Scene

theorem part_kept {before after : Store} {state : State} {team flag : String} {tick payload : Int64}
    (aside : ∀ write ∈ writes sha state.store input, Aside sha team tick payload flag write)
    (part : PartOf sha state input before after) (kept : Kept sha team tick payload flag before) :
    Kept sha team tick payload flag after := by
  obtain ⟨all, base, inside, same, rfl⟩ := part
  exact kept_writes (kept_same same kept) fun write member => aside write (inside write member)

theorem part_job {before after : Store} {state : State} {id : String} {job : Job}
    (aside : ∀ write ∈ writes sha state.store input, JobAside id write)
    (part : PartOf sha state input before after) (found : before.jobs.get? id = some job) :
    after.jobs.get? id = some job := by
  obtain ⟨all, base, inside, same, rfl⟩ := part
  exact (writes_job fun write member => aside write (inside write member)).trans
    ((same.jobs id).trans found)

/-- The restart, on a file that loads as the given store. -/
theorem recovered_part {left : Store}
    (loads : SameMaps (load (emptyStore next) (fileAfter sha (ran sha boot inputs) input crash)) left)
    (state : State) :
    PartOf sha state (.restart next) left (recovered sha boot inputs input crash next) := by
  refine ⟨bootWrites sha next, _, fun _ member => member, loads, ?_⟩
  rw [recovered, new_writes]
  rfl

theorem torn_recovered (which : crash.save < (saves sha (ran sha boot inputs) input).length)
    (cut : torn sha (ran sha boot inputs) input crash = true) :
    recovered sha boot inputs input crash next = (new sha next none).store := by
  rw [recovered, new_writes, new_writes, torn_file which cut]
  rfl

section Outcome
variable (which : crash.save < (saves sha (ran sha boot inputs) input).length)
  (apart : HashesApart sha (crashTexts sha boot inputs input next))
  (teamsApart : TeamsApart (crashTeams boot inputs input next))
include which apart teamsApart

theorem whole_survives (whole : torn sha (ran sha boot inputs) input crash = false) :
    Survives sha boot inputs input crash next := by
  obtain ⟨reached, within⟩ := crash_reached apart
  obtain ⟨inside, known⟩ := within_head within
  obtain ⟨bootInside, bootKnown⟩ := within_head (within_tail within)
  obtain ⟨target, found, part⟩ := save_part reached which
  -- The file is that of the last save, or that of this one.
  have kept (keeps : Store → Prop) (held : keeps (settled sha (ran sha boot inputs) input crash))
      (goes : ∀ before after, PartOf sha (ran sha boot inputs) input before after → keeps before →
        keeps after)
      (starts : ∀ before after, PartOf sha (ran sha boot inputs) (.restart next) before after →
        keeps before → keeps after) : keeps (recovered sha boot inputs input crash next) := by
    rcases whole_file reached which whole next with loads | ⟨saved, also, loads⟩
    · exact starts _ _ (recovered_part loads _) held
    · obtain rfl := Option.some.inj (also.symm.trans found)
      exact starts _ _ (recovered_part loads _) (goes _ _ part held)
  refine ⟨?_, ?_, ?_⟩
  · intro front tick payload flag rest shape positive alone
    obtain ⟨team, teamKnown, own, stored⟩ := flag_before apart teamsApart shape positive alone
    have aside := input_aside apart teamsApart own teamKnown positive reached inside known
      (alone input (List.mem_append_right _ List.mem_cons_self))
    have bootAside := boot_aside apart teamsApart own teamKnown (bootKnown next rfl) rfl bootInside positive
    have held :=
      (saves_keep reached (Kept sha team tick payload flag) stored (fun _ _ => part_kept aside)
        _ crash.written which).1
    exact kept_found (kept (Kept sha team tick payload flag) held (fun _ _ => part_kept aside)
      fun _ _ => part_kept bootAside)
  · intro id member
    exact kept (fun store => id ∈ store.nodes.keys) member
      (fun _ _ part here => part_nodes part here) fun _ _ part here =>
      part_nodes part here
  · intro id job stored
    have aside := input_job_aside apart reached inside ((settled_job reached which id).symm.trans stored)
    exact kept (fun store => store.jobs.get? id = some job) stored (fun _ _ => part_job aside) fun _ _ =>
      part_job (boot_jobs next id)

theorem torn_survives_iff (cut : torn sha (ran sha boot inputs) input crash = true) :
    Survives sha boot inputs input crash next ↔
      Rewritten sha next (settled sha (ran sha boot inputs) input crash) := by
  obtain ⟨reached, within⟩ := crash_reached apart
  obtain ⟨inside, known⟩ := within_head within
  obtain ⟨bootInside, bootKnown⟩ := within_head (within_tail within)
  have fresh : recovered sha boot inputs input crash next = _ := torn_recovered which cut
  have jobless (id : String) : (new sha next none).store.jobs.get? id = none := by
    rw [new_writes]
    exact writes_job (boot_jobs next id)
  constructor
  · intro survives
    refine ⟨fun id member => fresh ▸ survives.nodes id member, fun id => ?_⟩
    rw [Option.eq_none_iff_forall_ne_some]
    intro job stored
    have lost := survives.jobs id job stored
    rw [fresh, jobless] at lost
    cases lost
  · rintro ⟨nodes, jobs⟩
    refine ⟨?_, fun id member => fresh ▸ nodes id member, fun id job stored => ?_⟩
    · intro front tick payload flag rest shape positive alone
      -- The flag's node is there before the crash, and no start writes it.
      obtain ⟨team, teamKnown, own, stored⟩ := flag_before apart teamsApart shape positive alone
      have aside := input_aside apart teamsApart own teamKnown positive reached inside known
        (alone input (List.mem_append_right _ List.mem_cons_self))
      have held :=
        (saves_keep reached (Kept sha team tick payload flag) stored (fun _ _ => part_kept aside)
          _ crash.written which).1
      obtain ⟨node, present, _⟩ := held.node
      have again := nodes _ (Dict.mem_keys_of_get present)
      rw [new_writes] at again
      rcases write_node again with old | ⟨other, listed, same⟩
      · cases old
      · exact absurd same (boot_aside apart teamsApart own teamKnown (bootKnown next rfl) rfl
          bootInside positive _ listed)
    · rw [jobs] at stored
      cases stored

/-- What had returned survives the crash exactly where the file is not cut short, or where a start
writes it all again. -/
theorem crash_survived_iff : Survives sha boot inputs input crash next ↔
    torn sha (ran sha boot inputs) input crash = false ∨
    Rewritten sha next (settled sha (ran sha boot inputs) input crash) := by
  cases cut : torn sha (ran sha boot inputs) input crash with
  | false => exact iff_of_true (whole_survives which apart teamsApart cut) (.inl rfl)
  | true =>
      rw [torn_survives_iff which apart teamsApart cut]
      exact ⟨.inr, fun either => either.resolve_left (by decide)⟩

end Outcome

end Survival

/-! A crash while the first job of the morning is saved, before and after state.json was emptied. -/

def crashRun : List Input := [.restart plainBoot, .putFlag 1 0 "FLAG\x7bone\x7d"]

def crashInput : Input := .schedule "public-drone" "noop"

theorem crash_run_apart :
    HashesApart Sha256.sha256 (crashTexts Sha256.sha256 plainBoot crashRun crashInput plainBoot) :=
  morning_apart

theorem crash_run_teams : TeamsApart (crashTeams plainBoot crashRun crashInput plainBoot) :=
  @same_team_apart "team" _ (by decide)

theorem early_crash_survived :
    getFlag (recovered Sha256.sha256 plainBoot crashRun crashInput ⟨0, none⟩ plainBoot)
      1 0 "FLAG\x7bone\x7d" = true := by
  have which : (⟨0, none⟩ : Crash).save <
      (saves Sha256.sha256 (ran Sha256.sha256 plainBoot crashRun) crashInput).length :=
    Nat.one_pos
  have survives := (crash_survived_iff which crash_run_apart crash_run_teams).mpr (.inl rfl)
  exact survives.flags [.restart plainBoot] 1 0 _ [] rfl (by decide) (by decide)

theorem emptied_file_loses :
    getFlag (recovered Sha256.sha256 plainBoot crashRun crashInput ⟨0, some 0⟩ plainBoot) 1 0
      "FLAG\x7bone\x7d" = false ∧
      ¬ ∀ (sha : List UInt8 → List UInt8) (boot : Boot) (inputs : List Input) (input : Input)
          (crash : Crash) (next : Boot),
        crash.save < (saves sha (ran sha boot inputs) input).length →
        HashesApart sha (crashTexts sha boot inputs input next) →
          TeamsApart (crashTeams boot inputs input next) → Survives sha boot inputs input crash next := by
  have which : (⟨0, some 0⟩ : Crash).save <
      (saves Sha256.sha256 (ran Sha256.sha256 plainBoot crashRun) crashInput).length :=
    Nat.one_pos
  have lost : getFlag (recovered Sha256.sha256 plainBoot crashRun crashInput ⟨0, some 0⟩ plainBoot)
      1 0 "FLAG\x7bone\x7d" = false := by
    have filled : savedText Sha256.sha256 (ran Sha256.sha256 plainBoot crashRun) crashInput ⟨0,
        some 0⟩ ≠ [] := by
      show marshal _ ≠ []
      rw [marshal, Json.encode]
      exact List.append_ne_nil_of_left_ne_nil (List.cons_ne_nil _ _) _
    have cut : torn Sha256.sha256 (ran Sha256.sha256 plainBoot crashRun) crashInput ⟨0, some 0⟩ = true :=
      decide_eq_true (List.length_pos_of_ne_nil filled)
    rw [torn_recovered which cut]
    decide +kernel
  refine ⟨lost, fun claim => ?_⟩
  have survives := claim Sha256.sha256 plainBoot crashRun crashInput ⟨0, some 0⟩ plainBoot which
    crash_run_apart crash_run_teams
  have found := survives.flags [.restart plainBoot] 1 0 _ [] rfl (by decide) (by decide)
  rw [lost] at found
  cases found

end KosSim.NanoFleet
