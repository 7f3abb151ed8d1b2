import KosSim.Library.Folds
import KosSim.Library.Sha256
import KosSim.NanoFleet

/-!
The store of svc4-nanofleet over whole runs. Every operation is a few writes to the four maps, and
a restart reads the same maps back before it writes its own. Where no two strings that the run
hashes share a short hash, a write meets an old entry only under the string that it was made of.
-/

namespace KosSim.NanoFleet
open Library

/-! The operations as writes. -/

inductive Write where
  | flag (name flag : String)
  | node (node : Node)
  | job (job : Job)

def apply (store : Store) : Write → Store
  | .flag name flag => { store with flags := store.flags.set name flag }
  | .node node => addNode store node
  | .job job => { store with jobs := store.jobs.set job.id job }

section Runs
variable (sha : List UInt8 → List UInt8)

def flagWrites (team : String) (tick payload : Int64) (flag : String) : List Write :=
  [.flag (key tick payload) flag, .node (flagNode sha team tick payload flag)]

def bootWrites (boot : Boot) : List Write :=
  let team := orDefault boot.team "team"
  flagWrites sha team 0 0 (bootFlag boot) ++ flagWrites sha team 0 1 (bootFlag boot ++ "_MANIFEST") ++
    flagWrites sha team 0 2 (bootFlag boot ++ "_DIAGNOSTIC") ++ [.node publicDrone]

def writes (store : Store) : Input → List Write
  | .putFlag tick payload flag => flagWrites sha store.team tick payload flag
  | .putNoise tick payload | .havoc tick payload =>
      [.node (noiseNode sha store.team store.service tick payload)]
  | .registerNode label => [.node (agentNode sha store.team label)]
  | .schedule nodeId template => [.job (scheduled sha store nodeId template)]
  | .restart boot => bootWrites sha boot

/-- The store that an operation writes to. -/
def opened (state : State) : Input → Store
  | .restart boot => load (emptyStore boot) state.disk
  | _ => state.store

theorem new_writes (boot : Boot) (disk : Option Json.Bytes) :
    new sha boot disk = persist ((bootWrites sha boot).foldl apply (load (emptyStore boot) disk)) := by
  have team : (load (emptyStore boot) disk).team = orDefault boot.team "team" := load_team _ _
  unfold new
  dsimp only
  simp only [putFlag, persist, addNode, team, bootWrites, flagWrites, List.cons_append, List.nil_append,
    List.foldl_cons, List.foldl_nil, apply]

theorem step_writes (state : State) (input : Input) :
    step sha state input = persist ((writes sha state.store input).foldl apply (opened state input)) := by
  cases input with
  | restart boot => exact new_writes sha boot state.disk
  | _ => rfl

/-- The strings that an operation hands to ShortHash. -/
def nodeTexts (text : String) : List String := [text, "blob:" ++ shortHash sha text]

def bootTexts (boot : Boot) : List String :=
  let team := orDefault boot.team "team"
  nodeTexts sha (flagText team 0 0 (bootFlag boot)) ++
    nodeTexts sha (flagText team 0 1 (bootFlag boot ++ "_MANIFEST")) ++
    nodeTexts sha (flagText team 0 2 (bootFlag boot ++ "_DIAGNOSTIC"))

def hashedTexts (store : Store) : Input → List String
  | .putFlag tick payload flag => nodeTexts sha (flagText store.team tick payload flag)
  | .putNoise tick payload | .havoc tick payload => nodeTexts sha (noiseText store.team tick payload)
  | .registerNode label => nodeTexts sha (agentText store.team label)
  | .schedule nodeId template => [jobText store.team nodeId template store.jobs.entries.length]
  | .restart boot => bootTexts sha boot

def hashedFrom : State → List Input → List String
  | _, [] => []
  | state, input :: rest => hashedTexts sha state.store input ++ hashedFrom (step sha state input) rest

/-- Everything that a run hashes. -/
def hashedRun (boot : Boot) (inputs : List Input) : List String :=
  bootTexts sha boot ++ hashedFrom sha (new sha boot none) inputs

/-- No two of the strings share a short hash. -/
def HashesApart (texts : List String) : Prop :=
  ∀ one ∈ texts, ∀ other ∈ texts, shortHash sha one = shortHash sha other → one = other

end Runs

def bootTeam (boot : Boot) : String := orDefault boot.team "team"

def restarted : Input → Option Boot
  | .restart boot => some boot
  | _ => none

/-- The team names of the starts. -/
def teamsOf (boot : Boot) (inputs : List Input) : List String :=
  (boot :: inputs.filterMap restarted).map bootTeam

/-- No team name goes on from one of them with a colon. A container keeps its TEAM_NAME, and the
platform's names have no colon. -/
def TeamsApart (teams : List String) : Prop :=
  ∀ one ∈ teams, ∀ other ∈ teams, ∀ rest : String, other ≠ one ++ ":" ++ rest

/-! The strings are told apart by their parts. -/

theorem int_colonless (n : Int) : ':' ∉ (toString n).toList := by
  intro member
  rcases int_text_chars n ':' member with digit | sign
  · exact absurd digit (by decide)
  · exact absurd sign (by decide)

theorem key_injective {tick payload otherTick otherPayload : Int64}
    (same : key tick payload = key otherTick otherPayload) :
    tick = otherTick ∧ payload = otherPayload := by
  have chars := congrArg String.toList same
  simp only [key, String.toList_append, List.append_assoc] at chars
  obtain ⟨first, second⟩ := first_mark_inj (int_colonless _) (int_colonless _) chars
  exact ⟨Int64.toInt_inj.mp (int_text_injective (String.toList_injective first)),
    Int64.toInt_inj.mp (int_text_injective (String.toList_injective second))⟩

theorem team_injective {teams : List String} (apart : TeamsApart teams) {one other : String}
    (oneTeam : one ∈ teams) (otherTeam : other ∈ teams) {rest rests : String}
    (same : one ++ ":" ++ rest = other ++ ":" ++ rests) :
    one = other ∧ rest = rests := by
  have longer {short long : String} (shortTeam : short ∈ teams) (longTeam : long ∈ teams)
      {middle : List Char}
      {after : List Char} (front : long.toList = short.toList ++ middle)
      (begins : ':' :: after = middle ++ ':' :: rests.toList ∨
        ':' :: after = middle ++ ':' :: rest.toList) : middle = [] := by
    cases middle with
    | nil => rfl
    | cons c middle =>
        have colon : c = ':' := by
          rcases begins with begins | begins <;> exact (List.cons.inj begins).1.symm
        refine absurd (String.toList_injective ?_)
          (apart short shortTeam long longTeam (String.ofList middle))
        simp [front, colon, String.toList_append]
  have chars := congrArg String.toList same
  simp only [String.toList_append, List.append_assoc] at chars
  have finish (teamSame : one = other) : one = other ∧ rest = rests := by
    subst teamSame
    exact ⟨rfl, String.toList_injective (List.append_cancel_left (List.append_cancel_left chars))⟩
  rcases List.append_eq_append_iff.mp chars with ⟨middle, front, after⟩ | ⟨middle, front, after⟩
  · have none := longer oneTeam otherTeam front (.inl after)
    rw [none, List.append_nil] at front
    exact finish (String.toList_injective front).symm
  · have none := longer otherTeam oneTeam front (.inr after)
    rw [none, List.append_nil] at front
    exact finish (String.toList_injective front)

theorem flag_text_shape (team : String) (tick payload : Int64) (flag : String) :
    flagText team tick payload flag = team ++ ":" ++ (key tick payload ++ ":" ++ flag) := by
  simp only [flagText, String.append_assoc]

/-- A tick is no word. -/
theorem tick_no_word (tick : Int64) {word : String}
    (letter : ∃ c ∈ word.toList, c.isDigit = false ∧ c ≠ '-') (colonless : ':' ∉ word.toList)
    (rest rests : List Char) :
    (toString tick.toInt).toList ++ ':' :: rest ≠ word.toList ++ ':' :: rests := by
  intro same
  obtain ⟨c, member, noDigit, noSign⟩ := letter
  rw [← (first_mark_inj (int_colonless _) colonless same).1] at member
  rcases int_text_chars _ c member with digit | sign
  · rw [noDigit] at digit
    cases digit
  · exact noSign sign

section Texts
variable {teams : List String} (apart : TeamsApart teams) {one other : String} (oneTeam : one ∈ teams)
  (otherTeam : other ∈ teams) {tick payload : Int64} {flag : String}
include apart oneTeam otherTeam

theorem flag_text_injective {otherTick otherPayload : Int64} {otherFlag : String}
    (same : flagText one tick payload flag = flagText other otherTick otherPayload otherFlag) :
    tick = otherTick ∧ payload = otherPayload := by
  rw [flag_text_shape, flag_text_shape] at same
  have rest := congrArg String.toList (team_injective apart oneTeam otherTeam same).2
  simp only [key, String.toList_append, List.append_assoc] at rest
  obtain ⟨first, after⟩ := first_mark_inj (int_colonless _) (int_colonless _) rest
  obtain ⟨second, _⟩ := first_mark_inj (int_colonless _) (int_colonless _) after
  exact ⟨Int64.toInt_inj.mp (int_text_injective (String.toList_injective first)),
    Int64.toInt_inj.mp (int_text_injective (String.toList_injective second))⟩

theorem flag_text_no_noise (otherTick otherPayload : Int64) :
    flagText one tick payload flag ≠ noiseText other otherTick otherPayload := by
  intro same
  have shape : noiseText other otherTick otherPayload = other ++ ":" ++
      ("noise:" ++ key otherTick otherPayload) := by
    simp only [noiseText, String.append_assoc]
    rfl
  rw [flag_text_shape, shape] at same
  have rest := congrArg String.toList (team_injective apart oneTeam otherTeam same).2
  simp only [key, String.toList_append, List.append_assoc] at rest
  exact @tick_no_word tick "noise" ⟨'n', by decide, by decide, by decide⟩ (by decide) _ _ rest

theorem flag_text_no_agent (label : String) : flagText one tick payload flag ≠ agentText other label := by
  intro same
  have shape : agentText other label = other ++ ":" ++ ("agent:" ++ label) := by
    simp only [agentText, String.append_assoc]
    rfl
  rw [flag_text_shape, shape] at same
  have rest := congrArg String.toList (team_injective apart oneTeam otherTeam same).2
  simp only [key, String.toList_append, List.append_assoc] at rest
  exact @tick_no_word tick "agent" ⟨'a', by decide, by decide, by decide⟩ (by decide) _ _ rest

end Texts

/-! What every store has that a run reaches. -/

section Invariant
variable {sha : List UInt8 → List UInt8} {hashed : List String}

/-- The public drone, or a node under a hash whose blob is hashed from it. -/
def Named (sha : List UInt8 → List UInt8) (hashed : List String) (node : Node) : Prop :=
  node.id = "public-drone" ∧ node.blob = "public-blob" ∨
    (∃ text, node.id = shortHash sha text) ∧ "blob:" ++ node.id ∈ hashed ∧ node.blob = blobOf sha node.id

/-- A job is kept under the hash of its number, which is below the number of jobs. -/
def Numbered (sha : List UInt8 → List UInt8) (hashed : List String) (count : Nat) (id : String) : Prop :=
  ∃ front number, number < count ∧ front ++ ":" ++ toString number ∈ hashed ∧
    id = shortHash sha (front ++ ":" ++ toString number)

structure Sound (sha : List UInt8 → List UInt8) (hashed : List String) (store : Store) : Prop where
  nodes : ∀ id node, store.nodes.get? id = some node → node.id = id ∧ Named sha hashed node
  blobs : ∀ blob id, store.blobToId.get? blob = some id ↔ ∃ node, store.nodes.get? id = some node ∧
    node.blob = blob
  jobs : ∀ id job, store.jobs.get? id = some job → job.id = id ∧
    Numbered sha hashed store.jobs.entries.length id

theorem short_hash_digits (text : String) : ∀ c ∈ (shortHash sha text).toList, c ∈ hexDigits := by
  intro c member
  rw [shortHash, String.toList_ofList] at member
  exact hex_text_digits _ c (List.mem_of_mem_take member)

theorem short_hash_word {word : String} (letter : ∃ c ∈ word.toList, c ∉ hexDigits) (text : String) :
    shortHash sha text ≠ word := by
  rintro rfl
  obtain ⟨c, member, other⟩ := letter
  exact other (short_hash_digits text c member)

theorem public_id (text : String) : shortHash sha text ≠ "public-drone" :=
  short_hash_word ⟨'p', by decide, by decide⟩ text

theorem public_blob (text : String) : shortHash sha text ≠ "public-blob" :=
  short_hash_word ⟨'p', by decide, by decide⟩ text

theorem named_blob {one other : Node} (first : Named sha hashed one) (second : Named sha hashed other)
    (same : one.id = other.id) : one.blob = other.blob := by
  rcases first with ⟨oneId, oneBlob⟩ | ⟨⟨oneText, oneId⟩, _, oneBlob⟩
  · rcases second with ⟨_, otherBlob⟩ | ⟨⟨text, otherId⟩, _⟩
    · rw [oneBlob, otherBlob]
    · exact absurd (otherId.symm.trans (same.symm.trans oneId)) (public_id text)
  · rcases second with ⟨otherId, _⟩ | ⟨_, _, otherBlob⟩
    · exact absurd (oneId.symm.trans (same.trans otherId)) (public_id oneText)
    · rw [oneBlob, otherBlob, same]

theorem named_id (apart : HashesApart sha hashed) {one other : Node} (first : Named sha hashed one)
    (second : Named sha hashed other) (same : one.blob = other.blob) : one.id = other.id := by
  rcases first with ⟨oneId, oneBlob⟩ | ⟨_, oneHashed, oneBlob⟩
  · rcases second with ⟨otherId, _⟩ | ⟨_, _, otherBlob⟩
    · rw [oneId, otherId]
    · exact absurd (otherBlob.symm.trans (same.symm.trans oneBlob)) (public_blob _)
  · rcases second with ⟨_, otherBlob⟩ | ⟨_, otherHashed, otherBlob⟩
    · exact absurd (oneBlob.symm.trans (same.trans otherBlob)) (public_blob _)
    · have texts := apart _ oneHashed _ otherHashed (oneBlob.symm.trans (same.trans otherBlob))
      exact String.toList_injective (List.append_cancel_left (by
        simpa only [String.toList_append] using congrArg String.toList texts))

theorem sound_empty (boot : Boot) : Sound sha hashed (emptyStore boot) where
  nodes := fun _ _ found => by cases found
  blobs := fun _ _ => by
    constructor
    · intro found
      cases found
    · rintro ⟨_, found, _⟩
      cases found
  jobs := fun _ _ found => by cases found

theorem sound_same {one other : Store} (same : SameMaps one other) (sound : Sound sha hashed other) :
    Sound sha hashed one where
  nodes := fun id node found => sound.nodes id node ((same.nodes id).symm.trans found)
  blobs := fun blob id => by simp only [same.blobToId, same.nodes, sound.blobs]
  jobs := fun id job found => by
    rw [length_same same.jobs]
    exact sound.jobs id job ((same.jobs id).symm.trans found)

theorem sound_flag {store : Store} (sound : Sound sha hashed store) (name flag : String) :
    Sound sha hashed (apply store (.flag name flag)) := ⟨sound.nodes, sound.blobs, sound.jobs⟩

theorem sound_node (apart : HashesApart sha hashed) {store : Store} (sound : Sound sha hashed store)
    {node : Node} (named : Named sha hashed node) :
    Sound sha hashed (apply store (.node node)) where
  nodes := fun id found stored => by
    rw [apply, addNode, Dict.get_set] at stored
    split at stored
    next same =>
      obtain rfl := Option.some.inj stored
      exact ⟨same, named⟩
    next => exact sound.nodes id found stored
  blobs := fun blob id => by
    rw [apply, addNode, Dict.get_set, Dict.get_set]
    constructor
    · intro stored
      split at stored
      next same =>
        obtain rfl := Option.some.inj stored
        exact ⟨node, if_pos rfl, same⟩
      next other =>
        obtain ⟨old, found, owns⟩ := (sound.blobs blob id).mp stored
        obtain ⟨oldId, oldNamed⟩ := sound.nodes id old found
        refine ⟨old, ?_, owns⟩
        rw [if_neg, found]
        rintro rfl
        exact other ((named_blob oldNamed named oldId).symm.trans owns)
    · rintro ⟨found, stored, owns⟩
      split at stored
      next same =>
        obtain rfl := Option.some.inj stored
        rw [if_pos owns, same]
      next other =>
        obtain ⟨foundId, foundNamed⟩ := sound.nodes id found stored
        rw [if_neg, (sound.blobs blob id).mpr ⟨found, stored, owns⟩]
        intro same
        exact other ((named_id apart foundNamed named (owns.trans same.symm)).symm.trans foundId)
  jobs := sound.jobs

/-- A job gets a number that no job has. -/
theorem job_fresh (apart : HashesApart sha hashed) {store : Store} (sound : Sound sha hashed store)
    {front : String} (inside : front ++ ":" ++ toString store.jobs.entries.length ∈ hashed) :
    shortHash sha (front ++ ":" ++ toString store.jobs.entries.length) ∉ store.jobs.keys := by
  intro member
  obtain ⟨job, found⟩ := Option.ne_none_iff_exists'.mp ((Dict.mem_keys_iff _ _).mp member)
  obtain ⟨_, other, number, below, otherInside, same⟩ := sound.jobs _ job found
  have texts := congrArg String.toList (apart _ inside _ otherInside same)
  simp only [String.toList_append, List.append_assoc] at texts
  have colonless (n : Nat) : ':' ∉ (toString n).toList :=
    fun colon => absurd (nat_text_digits n ':' colon) (by decide)
  have numbers := last_mark_inj (colonless _) (colonless _) texts
  exact absurd (nat_text_injective (String.toList_injective numbers)) (Nat.ne_of_gt below)

theorem sound_job (apart : HashesApart sha hashed) {store : Store} (sound : Sound sha hashed store)
    {front : String} (inside : front ++ ":" ++ toString store.jobs.entries.length ∈ hashed)
    {job : Job}
    (named : job.id = shortHash sha (front ++ ":" ++ toString store.jobs.entries.length)) :
    Sound sha hashed (apply store (.job job)) where
  nodes := sound.nodes
  blobs := sound.blobs
  jobs := fun id found stored => by
    have fresh : job.id ∉ store.jobs.keys := named ▸ job_fresh apart sound inside
    rw [apply, length_set_fresh fresh]
    rw [apply, Dict.get_set] at stored
    split at stored
    next same =>
      obtain rfl := Option.some.inj stored
      exact ⟨same, front, _, Nat.lt_succ_self _, inside, same.symm.trans named⟩
    next =>
      obtain ⟨own, other, number, below, otherInside, otherNamed⟩ := sound.jobs id found stored
      exact ⟨own, other, number, Nat.lt_succ_of_lt below, otherInside, otherNamed⟩

/-! One operation. -/

theorem apply_team (store : Store) (write : Write) : (apply store write).team = store.team :=
  by cases write <;> rfl

theorem writes_team (store : Store) (all : List Write) : (all.foldl apply store).team = store.team :=
  foldl_keeps (fun acc : Store => acc.team = store.team)
    (fun acc write _ same => (apply_team acc write).trans same) rfl

def Proper (sha : List UInt8 → List UInt8) (hashed : List String) : Write → Prop
  | .flag _ _ => True
  | .node node => Named sha hashed node
  | .job _ => False

theorem proper_sound (apart : HashesApart sha hashed) {store : Store}
    (sound : Sound sha hashed store) {all : List Write}
    (proper : ∀ write ∈ all, Proper sha hashed write) :
    Sound sha hashed (all.foldl apply store) := by
  refine foldl_keeps (Sound sha hashed) (fun acc write member held => ?_) sound
  have ok := proper write member
  cases write with
  | flag name flag => exact sound_flag held name flag
  | node node => exact sound_node apart held ok
  | job job => exact ok.elim

theorem text_named {text : String} (inside : ∀ other ∈ nodeTexts sha text, other ∈ hashed)
    {node : Node} (id : node.id = shortHash sha text) (blob : node.blob = blobOf sha node.id) :
    Named sha hashed node := by
  refine .inr ⟨⟨text, id⟩, inside _ ?_, blob⟩
  rw [id]
  exact List.mem_cons_of_mem _ List.mem_cons_self

theorem flag_proper {team flag : String} {tick payload : Int64}
    (inside : ∀ other ∈ nodeTexts sha (flagText team tick payload flag), other ∈ hashed) :
    ∀ write ∈ flagWrites sha team tick payload flag, Proper sha hashed write := by
  intro write member
  simp only [flagWrites, List.mem_cons, List.not_mem_nil, or_false] at member
  rcases member with rfl | rfl
  · trivial
  · exact text_named inside rfl rfl

theorem boot_proper {boot : Boot} (inside : ∀ other ∈ bootTexts sha boot, other ∈ hashed) :
    ∀ write ∈ bootWrites sha boot, Proper sha hashed write := by
  intro write member
  simp only [bootWrites, List.mem_append, List.mem_singleton] at member
  simp only [bootTexts, List.mem_append] at inside
  rcases member with ((first | second) | third) | rfl
  · exact flag_proper (fun other also => inside other (.inl (.inl also))) write first
  · exact flag_proper (fun other also => inside other (.inl (.inr also))) write second
  · exact flag_proper (fun other also => inside other (.inr also)) write third
  · exact .inl ⟨rfl, rfl⟩

/-- A state that a run reaches: its file loads as its store. -/
structure Reached (sha : List UInt8 → List UInt8) (hashed teams : List String) (state : State) : Prop where
  saved : ∀ boot, SameMaps (load (emptyStore boot) state.disk) state.store
  sound : Sound sha hashed state.store
  team : state.store.team ∈ teams

variable {teams : List String}

theorem reached_first (apart : HashesApart sha hashed) {boot : Boot}
    (inside : ∀ other ∈ bootTexts sha boot, other ∈ hashed) (known : bootTeam boot ∈ teams) :
    Reached sha hashed teams (new sha boot none) where
  saved := fun _ => load_marshal _ _
  sound := by
    rw [new_writes]
    exact proper_sound apart (sound_empty boot) (boot_proper inside)
  team := by
    rw [new_writes]
    show ((bootWrites sha boot).foldl apply _).team ∈ teams
    rw [writes_team, load_team]
    exact known

theorem reached_step (apart : HashesApart sha hashed) {state : State}
    (reached : Reached sha hashed teams state) {input : Input}
    (inside : ∀ other ∈ hashedTexts sha state.store input, other ∈ hashed)
    (known : ∀ boot, input = .restart boot → bootTeam boot ∈ teams) :
    Reached sha hashed teams (step sha state input) where
  saved := by
    rw [step_writes]
    exact fun _ => load_marshal _ _
  sound := by
    rw [step_writes]
    cases input with
    | putFlag tick payload flag => exact proper_sound apart reached.sound (flag_proper inside)
    | putNoise tick payload => exact sound_node apart reached.sound (text_named inside rfl rfl)
    | havoc tick payload => exact sound_node apart reached.sound (text_named inside rfl rfl)
    | registerNode label => exact sound_node apart reached.sound (text_named inside rfl rfl)
    | schedule nodeId template => exact sound_job apart reached.sound (inside _ List.mem_cons_self) rfl
    | restart boot =>
        exact proper_sound apart (sound_same (reached.saved boot) reached.sound) (boot_proper inside)
  team := by
    rw [step_writes]
    show ((writes sha state.store input).foldl apply _).team ∈ teams
    rw [writes_team]
    cases input with
    | restart boot =>
        show (load (emptyStore boot) state.disk).team ∈ teams
        rw [load_team]
        exact known boot rfl
    | _ => exact reached.team

/-! What was stored stays. -/

/-- GetFlag finds the flag, and its own node. -/
structure Kept (sha : List UInt8 → List UInt8) (team : String) (tick payload : Int64)
    (flag : String) (store : Store) : Prop where
  listed : store.flags.get? (key tick payload) = some flag
  node : ∃ node, store.nodes.get? (shortHash sha (flagText team tick payload flag)) = some node ∧
  node.data = flag ∧ node.payload = payload

/-- The write is about another flag and another node. -/
def Aside (sha : List UInt8 → List UInt8) (team : String) (tick payload : Int64) (flag : String) :
    Write → Prop
  | .flag name _ => name ≠ key tick payload
  | .node node => node.id ≠ shortHash sha (flagText team tick payload flag)
  | .job _ => True

section Flag
variable {team flag : String} {tick payload : Int64}

theorem kept_found {store : Store} (kept : Kept sha team tick payload flag store) :
    getFlag store tick payload flag = true := by
  obtain ⟨node, stored, data, number⟩ := kept.node
  rw [getFlag, kept.listed, Bool.and_eq_true]
  refine ⟨decide_eq_true rfl, List.any_eq_true.mpr ⟨_, (Dict.mem_entries_iff _ _ _).mpr stored, ?_⟩⟩
  rw [Bool.and_eq_true, decide_eq_true_eq, decide_eq_true_eq]
  exact ⟨data, number⟩

theorem kept_same {one other : Store} (same : SameMaps one other)
    (kept : Kept sha team tick payload flag other) :
    Kept sha team tick payload flag one where
  listed := (same.flags _).trans kept.listed
  node := by
    obtain ⟨node, stored, owns⟩ := kept.node
    exact ⟨node, (same.nodes _).trans stored, owns⟩

theorem kept_writes {store : Store} (kept : Kept sha team tick payload flag store)
    {all : List Write} (aside : ∀ write ∈ all, Aside sha team tick payload flag write) :
    Kept sha team tick payload flag (all.foldl apply store) := by
  refine foldl_keeps (Kept sha team tick payload flag) (fun acc write member held => ?_) kept
  have other := aside write member
  cases write with
  | flag name value => exact ⟨(Dict.get_set_other _ _ _ _ other).trans held.listed, held.node⟩
  | node node =>
      obtain ⟨own, stored, owns⟩ := held.node
      exact ⟨held.listed, own, (Dict.get_set_other _ _ _ _ other).trans stored, owns⟩
  | job job => exact ⟨held.listed, held.node⟩

theorem put_kept (sha : List UInt8 → List UInt8) (state : State) (tick payload : Int64) (flag : String) :
    Kept sha state.store.team tick payload flag ((putFlag sha state tick payload flag).1).store where
  listed := Dict.get_set_self _ _ _
  node := ⟨_, Dict.get_set_self _ _ _, rfl, rfl⟩

section Others
variable (apart : HashesApart sha hashed) (teamsApart : TeamsApart teams)
    (own : flagText team tick payload flag ∈ hashed)
  (ownTeam : team ∈ teams) {other : String} (otherTeam : other ∈ teams)
include apart teamsApart own ownTeam otherTeam

theorem flag_aside {otherTick otherPayload : Int64} {otherFlag : String}
    (inside : ∀ text ∈ nodeTexts sha (flagText other otherTick otherPayload otherFlag), text ∈ hashed)
    (apartFlags : ¬ (otherTick = tick ∧ otherPayload = payload)) :
    ∀ write ∈ flagWrites sha other otherTick otherPayload otherFlag,
      Aside sha team tick payload flag write := by
  intro write member
  simp only [flagWrites, List.mem_cons, List.not_mem_nil, or_false] at member
  rcases member with rfl | rfl
  · exact fun same => apartFlags (key_injective same)
  · intro same
    have texts := apart _ (inside _ List.mem_cons_self) _ own same
    exact apartFlags (flag_text_injective teamsApart otherTeam ownTeam texts)

theorem boot_aside {boot : Boot} (isTeam : bootTeam boot = other)
    (inside : ∀ text ∈ bootTexts sha boot, text ∈ hashed) (positive : 1 ≤ tick) :
    ∀ write ∈ bootWrites sha boot, Aside sha team tick payload flag write := by
  have later (number : Int64) : ¬ ((0 : Int64) = tick ∧ number = payload) := by
    rintro ⟨rfl, _⟩
    exact absurd positive (by decide)
  subst isTeam
  intro write member
  simp only [bootWrites, List.mem_append, List.mem_singleton] at member
  simp only [bootTexts, List.mem_append] at inside
  rcases member with ((first | second) | third) | rfl
  · exact flag_aside apart teamsApart own ownTeam otherTeam
      (fun text also => inside text (.inl (.inl also))) (later 0) write first
  · exact flag_aside apart teamsApart own ownTeam otherTeam
      (fun text also => inside text (.inl (.inr also))) (later 1) write second
  · exact flag_aside apart teamsApart own ownTeam otherTeam
      (fun text also => inside text (.inr also)) (later 2) write third
  · exact fun same => public_id _ same.symm

end Others

/-- The operation puts another flag in the place of this one. -/
def replaces (tick payload : Int64) : Input → Bool
  | .putFlag otherTick otherPayload _ => decide (otherTick = tick) && decide (otherPayload = payload)
  | _ => false

/-- No other operation writes to the flag or to its node. -/
theorem input_aside (apart : HashesApart sha hashed) (teamsApart : TeamsApart teams)
    (own : flagText team tick payload flag ∈ hashed) (ownTeam : team ∈ teams) (positive : 1 ≤ tick)
    {state : State} (reached : Reached sha hashed teams state) {input : Input}
    (inside : ∀ other ∈ hashedTexts sha state.store input, other ∈ hashed)
    (known : ∀ boot, input = .restart boot → bootTeam boot ∈ teams)
    (aside : replaces tick payload input = false) :
    ∀ write ∈ writes sha state.store input, Aside sha team tick payload flag write := by
  cases input with
  | putFlag otherTick otherPayload otherFlag =>
      refine flag_aside apart teamsApart own ownTeam reached.team inside fun same => ?_
      rw [replaces, same.1, same.2] at aside
      simp at aside
  | putNoise otherTick otherPayload | havoc otherTick otherPayload =>
      intro write member
      obtain rfl := List.mem_singleton.mp member
      intro same
      have texts := apart _ own _ (inside _ List.mem_cons_self) same.symm
      exact flag_text_no_noise teamsApart ownTeam reached.team _ _ texts
  | registerNode label =>
      intro write member
      obtain rfl := List.mem_singleton.mp member
      intro same
      have texts := apart _ own _ (inside _ List.mem_cons_self) same.symm
      exact flag_text_no_agent teamsApart ownTeam reached.team _ texts
  | schedule nodeId template =>
      intro write member
      obtain rfl := List.mem_singleton.mp member
      trivial
  | restart boot => exact boot_aside apart teamsApart own ownTeam (known boot rfl) rfl inside positive

end Flag

theorem opened_same {state : State} (reached : Reached sha hashed teams state) (input : Input) :
    SameMaps (opened state input) state.store := by
  cases input with
  | restart boot => exact reached.saved boot
  | _ => exact ⟨fun _ => rfl, fun _ => rfl, fun _ => rfl, fun _ => rfl⟩

/-- The write is about another job. -/
def JobAside (id : String) : Write → Prop
  | .job job => job.id ≠ id
  | _ => True

theorem writes_job {store : Store} {id : String} {all : List Write}
    (aside : ∀ write ∈ all, JobAside id write) :
    (all.foldl apply store).jobs.get? id = store.jobs.get? id := by
  refine foldl_keeps (fun acc : Store => acc.jobs.get? id = store.jobs.get? id)
    (fun acc write member held => ?_) rfl
  have other := aside write member
  cases write with
  | flag name flag => exact held
  | node node => exact held
  | job job => exact (Dict.get_set_other _ _ _ _ other).trans held

/-- A later job gets another id. -/
theorem input_job_aside (apart : HashesApart sha hashed) {state : State}
    (reached : Reached sha hashed teams state) {input : Input}
    (inside : ∀ other ∈ hashedTexts sha state.store input, other ∈ hashed) {id : String} {job : Job}
    (found : state.store.jobs.get? id = some job) :
    ∀ write ∈ writes sha state.store input, JobAside id write := by
  intro write member
  cases write with
  | flag name flag => trivial
  | node node => trivial
  | job other =>
      cases input with
      | schedule nodeId template =>
          obtain rfl := Write.job.inj (List.mem_singleton.mp member)
          rintro rfl
          have fresh := job_fresh apart reached.sound (inside _ List.mem_cons_self)
          exact fresh (Dict.mem_keys_of_get found)
      | _ => simp [writes, flagWrites, bootWrites] at member

/-- A job stays as it is. -/
theorem job_step (apart : HashesApart sha hashed) {state : State}
    (reached : Reached sha hashed teams state) {input : Input}
    (inside : ∀ other ∈ hashedTexts sha state.store input, other ∈ hashed) {id : String} {job : Job}
    (found : state.store.jobs.get? id = some job) :
    (step sha state input).store.jobs.get? id = some job := by
  rw [step_writes]
  exact (writes_job (input_job_aside apart reached inside found)).trans
    (((opened_same reached input).jobs id).trans found)

end Invariant

/-! Runs. -/

section Runs
variable {sha : List UInt8 → List UInt8} {hashed teams : List String}

theorem hashed_append (state : State) (front rest : List Input) : hashedFrom sha state (front ++ rest) =
    hashedFrom sha state front ++ hashedFrom sha (front.foldl (step sha) state) rest := by
  induction front generalizing state with
  | nil => rfl
  | cons input front ih =>
      rw [List.cons_append, hashedFrom, hashedFrom, ih, List.append_assoc, List.foldl_cons]

/-- The strings and the team names of a run are among the given ones. -/
structure Within (sha : List UInt8 → List UInt8) (hashed teams : List String) (state : State)
    (inputs : List Input) : Prop where
  texts : ∀ text ∈ hashedFrom sha state inputs, text ∈ hashed
  names : ∀ boot ∈ inputs.filterMap restarted, bootTeam boot ∈ teams

variable {state : State} {input : Input} {front rest : List Input}

theorem within_front (within : Within sha hashed teams state (front ++ rest)) :
    Within sha hashed teams state front where
  texts := fun text member => within.texts text (by
    rw [hashed_append]
    exact List.mem_append_left _ member)
  names := fun boot member => within.names boot (by
    rw [List.filterMap_append]
    exact List.mem_append_left _ member)

theorem within_rest (within : Within sha hashed teams state (front ++ rest)) :
    Within sha hashed teams (front.foldl (step sha) state) rest where
  texts := fun text member => within.texts text (by
    rw [hashed_append]
    exact List.mem_append_right _ member)
  names := fun boot member => within.names boot (by
    rw [List.filterMap_append]
    exact List.mem_append_right _ member)

theorem within_tail (within : Within sha hashed teams state (input :: rest)) :
    Within sha hashed teams (step sha state input) rest :=
  @within_rest sha hashed teams state [input] rest within

theorem within_head (within : Within sha hashed teams state (input :: rest)) :
    (∀ text ∈ hashedTexts sha state.store input, text ∈ hashed) ∧ ∀ boot, input = .restart boot →
      bootTeam boot ∈ teams := by
  refine ⟨fun text member => within.texts text (List.mem_append_left _ member), ?_⟩
  rintro boot rfl
  exact within.names boot List.mem_cons_self

/-- Induction over the operations of a run: what every operation keeps in a reached state. -/
theorem run_keeps (apart : HashesApart sha hashed) (keeps : State → Prop)
    (reached : Reached sha hashed teams state)
    (within : Within sha hashed teams state rest) (begins : keeps state)
    (kept : ∀ before input, input ∈ rest → Reached sha hashed teams before →
      (∀ text ∈ hashedTexts sha before.store input, text ∈ hashed) →
      (∀ boot, input = .restart boot → bootTeam boot ∈ teams) → keeps before →
      keeps (step sha before input)) :
    Reached sha hashed teams (rest.foldl (step sha) state) ∧ keeps (rest.foldl (step sha) state) := by
  induction rest generalizing state with
  | nil => exact ⟨reached, begins⟩
  | cons input rest ih =>
      obtain ⟨inside, known⟩ := within_head within
      refine ih (reached_step apart reached inside known) (within_tail within)
        (kept state input List.mem_cons_self reached inside known begins) fun before other member => ?_
      exact kept before other (List.mem_cons_of_mem _ member)

theorem run_reached (apart : HashesApart sha hashed) (reached : Reached sha hashed teams state)
    (within : Within sha hashed teams state rest) :
    Reached sha hashed teams (rest.foldl (step sha) state) :=
  (run_keeps apart (fun _ => True) reached within trivial fun _ _ _ _ _ _ _ => trivial).1

end Runs

/-- Each blob leads to the node that has it, and each node is led to. -/
def Inverse (store : Store) : Prop :=
  (∀ id node, store.nodes.get? id = some node → store.blobToId.get? node.blob = some node.id) ∧
    ∀ blob id, store.blobToId.get? blob = some id → ∃ node, store.nodes.get? id = some node ∧
    node.blob = blob

theorem sound_inverse {sha : List UInt8 → List UInt8} {hashed : List String} {store : Store}
    (sound : Sound sha hashed store) : Inverse store := by
  refine ⟨fun id node found => ?_, fun blob id found => (sound.blobs blob id).mp found⟩
  rw [(sound.nodes id node found).1]
  exact (sound.blobs node.blob id).mpr ⟨node, found, rfl⟩

section Invariants
variable {sha : List UInt8 → List UInt8} {boot : Boot} {inputs : List Input}

theorem run_within (sha : List UInt8 → List UInt8) (boot : Boot) (inputs : List Input) :
    (∀ text ∈ bootTexts sha boot, text ∈ hashedRun sha boot inputs) ∧ bootTeam boot ∈ teamsOf boot inputs ∧
      Within sha (hashedRun sha boot inputs) (teamsOf boot inputs) (new sha boot none) inputs := by
  refine ⟨fun text member => List.mem_append_left _ member, List.mem_cons_self, ?_⟩
  exact ⟨fun text member => List.mem_append_right _ member,
    fun other member => List.mem_map_of_mem (List.mem_cons_of_mem _ member)⟩

/-- In every state of every run: a flag that was put under a key of its own is found, the nodes and
the blobs lead to each other, and a job is found as it was returned, under an id that no other job
gets. -/
theorem store_invariants (apart : HashesApart sha (hashedRun sha boot inputs))
    (teamsApart : TeamsApart (teamsOf boot inputs)) :
    (∀ front tick payload flag rest, inputs = front ++ .putFlag tick payload flag :: rest → 1 ≤ tick →
      (∀ input ∈ front ++ rest, replaces tick payload input = false) →
        getFlag (run sha boot inputs).store tick payload flag = true) ∧
    Inverse (run sha boot inputs).store ∧
    (∀ front nodeId template rest, inputs = front ++ .schedule nodeId template :: rest →
      let job := (schedule sha (run sha boot front) nodeId template).2
      (run sha boot inputs).store.jobs.get? job.id = some job) ∧
    ∀ front nodeId template middle otherId other rest,
      inputs = front ++ .schedule nodeId template :: (middle ++ .schedule otherId other :: rest) →
        (schedule sha (run sha boot front) nodeId template).2.id ≠
          (schedule sha (run sha boot (front ++ .schedule nodeId template :: middle)) otherId
            other).2.id := by
  obtain ⟨bootInside, bootKnown, within⟩ := run_within sha boot inputs
  have first := reached_first apart bootInside bootKnown
  -- A job is there in every state after its operation.
  have jobs (front middle : List Input) (nodeId template : String) (rest : List Input)
      (whole : inputs = front ++ .schedule nodeId template :: (middle ++ rest)) :
      Reached sha (hashedRun sha boot inputs) (teamsOf boot inputs)
        (run sha boot (front ++ .schedule nodeId template :: middle)) ∧
        (run sha boot (front ++ .schedule nodeId template :: middle)).store.jobs.get?
          (schedule sha (run sha boot front) nodeId template).2.id =
            some (schedule sha (run sha boot front) nodeId template).2 := by
    have part : Within sha (hashedRun sha boot inputs) (teamsOf boot inputs) (new sha boot none)
        (front ++ .schedule nodeId template :: middle) := by
      have all : Within sha (hashedRun sha boot inputs) (teamsOf boot inputs) (new sha boot none)
          ((front ++ .schedule nodeId template :: middle) ++ rest) := by
        rw [List.append_assoc, List.cons_append, ← whole]
        exact within
      exact within_front all
    have before := run_reached apart first (within_front part)
    have start := within_rest part
    obtain ⟨inside, known⟩ := within_head start
    have stored : (schedule sha (run sha boot front) nodeId template).1.store.jobs.get? _ = _ :=
      Dict.get_set_self _ _ _
    have shape : run sha boot (front ++ .schedule nodeId template :: middle) =
        middle.foldl (step sha) (step sha (run sha boot front) (.schedule nodeId template)) := by
      rw [run, List.foldl_append, List.foldl_cons, run]
    rw [shape]
    refine run_keeps apart (fun state => state.store.jobs.get? _ = some _)
      (reached_step apart before inside known)
      (within_tail start) stored fun state input _ reached texts _ found => ?_
    exact job_step apart reached texts found
  refine ⟨?_, ?_, ?_, ?_⟩
  · rintro front tick payload flag rest whole positive alone
    have part : Within sha (hashedRun sha boot inputs) (teamsOf boot inputs) (new sha boot none)
        (front ++ .putFlag tick payload flag :: rest) := by
      rw [← whole]
      exact within
    have before := run_reached apart first (within_front part)
    have start := within_rest part
    obtain ⟨inside, known⟩ := within_head start
    have shape : run sha boot inputs =
        rest.foldl (step sha) (step sha (run sha boot front) (.putFlag tick payload flag)) := by
      rw [whole, run, List.foldl_append, List.foldl_cons, run]
    rw [shape]
    refine kept_found (run_keeps apart
      (fun state => Kept sha (run sha boot front).store.team tick payload flag state.store)
      (reached_step apart before inside known) (within_tail start)
      (put_kept sha (run sha boot front) tick payload flag)
      fun state input member reached texts names kept => ?_).2
    rw [step_writes]
    exact kept_writes (kept_same (opened_same reached input) kept)
      (input_aside apart teamsApart (inside _ List.mem_cons_self)
      before.team positive reached texts names (alone input (List.mem_append_right _ member)))
  · exact sound_inverse (run_reached apart first within).sound
  · rintro front nodeId template rest whole
    have found := (jobs front rest nodeId template [] (by rw [List.append_nil]; exact whole)).2
    rw [← whole] at found
    exact found
  · rintro front nodeId template middle otherId other rest whole
    obtain ⟨reached, found⟩ := jobs front middle nodeId template (.schedule otherId other :: rest) whole
    have part : Within sha (hashedRun sha boot inputs) (teamsOf boot inputs) (new sha boot none)
        ((front ++ .schedule nodeId template :: middle) ++ .schedule otherId other :: rest) := by
      rw [List.append_assoc, List.cons_append, ← whole]
      exact within
    have inside := (within_head (within_rest part)).1
    intro same
    have fresh := job_fresh apart reached.sound (inside _ List.mem_cons_self)
    have present := Dict.mem_keys_of_get found
    rw [same] at present
    exact fresh present

end Invariants

theorem distinct_apart {sha : List UInt8 → List UInt8} {firsts texts : List String}
    (distinct : (firsts.map (shortHash sha)).Nodup) (all : ∀ text ∈ texts, text ∈ firsts) :
    HashesApart sha texts := by
  intro one oneText other otherText same
  exact List.inj_on_of_nodup_map distinct (all one oneText) (all other otherText) same

theorem same_team_apart {team : String} {teams : List String} (same : ∀ one ∈ teams, one = team) :
    TeamsApart teams := by
  intro one oneTeam other otherTeam rest longer
  rw [same one oneTeam, same other otherTeam] at longer
  have lengths := congrArg String.length longer
  rw [String.length_append, String.length_append] at lengths
  have colon : ":".length = 1 := rfl
  omega

def plainBoot : Boot := ⟨"", "", "", ""⟩

/-- A flag, a job and a restart. -/
def morning : List Input :=
  [.putFlag 1 0 "FLAG\x7bone\x7d", .schedule "public-drone" "noop", .restart plainBoot]

/-- The restart hashes what the first start has hashed. -/
def morningTexts : List String :=
  bootTexts Sha256.sha256 plainBoot ++ nodeTexts Sha256.sha256 (flagText "team" 1 0 "FLAG\x7bone\x7d") ++
    [jobText "team" "public-drone" "noop" 0]

theorem morning_apart : HashesApart Sha256.sha256 (hashedRun Sha256.sha256 plainBoot morning) := by
  refine distinct_apart (show (morningTexts.map (shortHash Sha256.sha256)).Nodup by decide +kernel)
    fun text member => ?_
  have shape : hashedRun Sha256.sha256 plainBoot morning =
      bootTexts Sha256.sha256 plainBoot ++
      (nodeTexts Sha256.sha256 (flagText "team" 1 0 "FLAG\x7bone\x7d") ++
        ([jobText "team" "public-drone" "noop" 0] ++ (bootTexts Sha256.sha256 plainBoot ++ []))) := by
    have team : (new Sha256.sha256 plainBoot none).store.team = "team" := by
      rw [new_writes]
      exact (writes_team _ _).trans (load_team _ _)
    simp only [hashedRun, morning, hashedFrom, hashedTexts, step, team]
    rfl
  rw [shape] at member
  simp only [List.mem_append, List.not_mem_nil, or_false] at member
  simp only [morningTexts, List.mem_append]
  rcases member with boot | flag | job | boot
  · exact .inl (.inl boot)
  · exact .inl (.inr flag)
  · exact .inr job
  · exact .inl (.inl boot)

theorem morning_teams : TeamsApart (teamsOf plainBoot morning) := @same_team_apart "team" _ (by decide)

theorem morning_flag_kept :
    getFlag (run Sha256.sha256 plainBoot morning).store 1 0 "FLAG\x7bone\x7d" = true ∧
      Inverse (run Sha256.sha256 plainBoot morning).store := by
  obtain ⟨flags, inverse, _⟩ := store_invariants morning_apart morning_teams
  exact ⟨flags [] 1 0 _ _ rfl (by decide) (by decide), inverse⟩

end KosSim.NanoFleet
