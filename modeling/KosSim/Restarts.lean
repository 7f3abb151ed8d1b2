import KosSim.AdminTeams
import KosSim.InitDb
import KosSim.Library.Folds
import KosSim.Library.Runs
import KosSim.Library.UniqueColumn
import KosSim.Platform

/-!
bootstrap_database runs again at every start of a process. Its upserts write the
environment's values over whatever the admin has set since, so a restart keeps
the settings only where they still are those values.
-/

namespace KosSim.Restarts
open Library Schema AdminTeams InitDb Platform

inductive AdminOp where
  | create (body : TeamCreateBody)
  | update (teamId : Int) (body : TeamUpdateBody)
  | delete (teamId : Int)
  | rotateToken (teamId : Int) (secret : String)
  | toggle (pair : Int × Int) (enabled : Bool)
  deriving DecidableEq

def operate (env : Settings) (db : Db) : AdminOp → Db
  | .create body => (apiTeamCreate env db body).1
  | .update teamId body => (apiTeamUpdate db teamId body).1
  | .delete teamId => (apiTeamDelete db teamId).1
  | .rotateToken teamId secret => (apiTeamRotateToken db teamId secret).1
  | .toggle pair enabled => apiServicesToggle db pair enabled

def AdminRun (env : Settings) : Db → Db → Prop :=
  Steps (fun db op => some (operate env db op)) fun _ _ => True

/-- A bootstrap that raises is rolled back. -/
def restart (env : Settings) (deployment : Deployment) (db : Db) : Db :=
  match bootstrapDatabase env deployment db with
  | .ok after => after
  | .error _ => db

/-- Same teams with the same columns, and no check is switched on or off. -/
structure KeepsSettings (before after : Db) : Prop where
  teams : ∀ teamId, after.teams.get? teamId = before.teams.get? teamId
  enabled : ∀ pair row, before.teamServices.get? pair = some row →
    ∃ kept, after.teamServices.get? pair = some kept ∧ kept.enabled = row.enabled

def envNames (deployment : Deployment) : List String := deployment.teams ++ [deployment.nopName]

/-- The environment's team is there, with the environment's values. -/
def AtDefault (env : Settings) (deployment : Deployment) (db : Db) (name : String) : Prop :=
  ∃ teamId, db.teams.get? teamId = some (bootTeam env deployment name)

/-- A default token is held by another team, whose own turn does not come before. -/
def TokenHeld (env : Settings) (names : List String) (db : Db) : Prop :=
  ∃ before name after, names = before ++ name :: after ∧ ∃ teamId team, db.teams.get? teamId = some team ∧
    team.submitToken = env.teamTokenPrefix ++ name ∧ team.name ≠ name ∧ team.name ∉ before

/-- The constraints of the schema and what the first bootstrap establishes. -/
structure Sound (deployment : Deployment) (db : Db) : Prop where
  names : UniqueBy Team.name db.teams
  tokens : UniqueBy Team.submitToken db.teams
  drawn : ∀ teamId ∈ db.teams.keys, teamId ≤ db.teamSeq
  serviceNames : UniqueBy Service.name db.services
  serviceDrawn : ∀ serviceId ∈ db.services.keys, serviceId ≤ db.serviceSeq
  served : ∀ serviceId service, db.services.get? serviceId = some service →
    service.name ∈ deployment.services
  pairs : ∀ pair ∈ db.teamServices.keys, pair.1 ∈ db.teams.keys ∧ pair.2 ∈ db.services.keys

/-! Lookup by a UNIQUE name. -/

section Find
variable {α : Type} {name : α → String} {dict : Dict Int α} {wanted : String}

theorem find_some {id : Int} (found : findByName name dict wanted = some id) :
    ∃ value, dict.get? id = some value ∧ name value = wanted := by
  obtain ⟨entry, search, same⟩ := Option.map_eq_some_iff.mp found
  have named : decide (name entry.2 = wanted) = true :=
    List.find?_some (p := fun entry : Int × α => decide (name entry.2 = wanted)) search
  refine ⟨entry.2, ?_, of_decide_eq_true named⟩
  rw [← same]
  exact (Dict.mem_entries_iff dict entry.1 entry.2).mp (List.mem_of_find?_eq_some search)

theorem find_none (missed : findByName name dict wanted = none) (id : Int) (value : α)
    (found : dict.get? id = some value) : name value ≠ wanted := by
  have search := Option.map_eq_none_iff.mp missed
  have passed := List.find?_eq_none.mp search (id, value) ((Dict.mem_entries_iff dict id value).mpr found)
  exact fun same => passed (decide_eq_true same)

theorem find_unique (unique : UniqueBy name dict) {id : Int} {value : α}
    (found : dict.get? id = some value) :
    findByName name dict (name value) = some id := by
  cases search : findByName name dict (name value) with
  | none => exact absurd rfl (find_none search id value found)
  | some other =>
      obtain ⟨stored, here, same⟩ := find_some search
      rw [unique other id stored value here found same]

end Find

/-! One team of the environment. -/

section Upsert
variable {env : Settings} {deployment : Deployment} {db after : Db} {name : String}

def rowFor (db : Db) (name : String) : Int := (findByName Team.name db.teams name).getD (db.teamSeq + 1)

/-- The row is the one with the name, or a fresh one. -/
theorem row_for_iff (sound : Sound deployment db) {teamId : Int} {team : Team}
    (found : db.teams.get? teamId = some team) : teamId = rowFor db name ↔ team.name = name := by
  unfold rowFor
  constructor
  · intro same
    cases search : findByName Team.name db.teams name with
    | none =>
        rw [search, Option.getD_none] at same
        have drawn := sound.drawn teamId (Dict.mem_keys_of_get found)
        omega
    | some id =>
        rw [search, Option.getD_some] at same
        obtain ⟨value, stored, named⟩ := find_some search
        rw [← same, found] at stored
        rw [Option.some.inj stored, named]
  · rintro rfl
    rw [find_unique sound.names found, Option.getD_some]

theorem upsert_ok (done : upsertTeam env deployment db name = .ok after) :
    tokenTaken db (rowFor db name) (env.teamTokenPrefix ++ name) = false ∧
      after.teams = db.teams.set (rowFor db name) (bootTeam env deployment name) ∧
      after.teamSeq = db.teamSeq + 1 ∧ after.services = db.services ∧ after.serviceSeq = db.serviceSeq ∧
      after.teamServices = db.teamServices := by
  unfold upsertTeam at done
  dsimp only at done
  split at done
  · cases done
  · next free =>
    cases done
    refine ⟨Bool.eq_false_iff.mpr free, ?_⟩
    unfold addScore
    split <;> exact ⟨rfl, rfl, rfl, rfl, rfl⟩

theorem upsert_error_iff : (∃ error, upsertTeam env deployment db name = .error error) ↔
    tokenTaken db (rowFor db name) (env.teamTokenPrefix ++ name) = true := by
  unfold upsertTeam
  dsimp only
  constructor
  · rintro ⟨error, failed⟩
    split at failed
    · next taken => exact taken
    · cases failed
  · intro taken
    exact ⟨.uniqueViolation, if_pos taken⟩

theorem token_taken_iff (env : Settings) (name : String) (sound : Sound deployment db) :
    tokenTaken db (rowFor db name) (env.teamTokenPrefix ++ name) = true ↔
      ∃ teamId team, db.teams.get? teamId = some team ∧ team.submitToken = env.teamTokenPrefix ++ name ∧
        team.name ≠ name := by
  rw [tokenTaken, List.any_eq_true]
  constructor
  · rintro ⟨entry, member, held⟩
    rw [Bool.and_eq_true, decide_eq_true_eq, decide_eq_true_eq] at held
    have found := (Dict.mem_entries_iff db.teams entry.1 entry.2).mp member
    exact ⟨entry.1, entry.2, found, held.2, fun same => held.1 ((row_for_iff sound found).mpr same)⟩
  · rintro ⟨teamId, team, found, held, apart⟩
    refine ⟨(teamId, team), (Dict.mem_entries_iff _ _ _).mpr found, ?_⟩
    rw [Bool.and_eq_true, decide_eq_true_eq, decide_eq_true_eq]
    exact ⟨fun same => apart ((row_for_iff sound found).mp same), held⟩

/-- The other rows keep their names and tokens apart from the new one. -/
theorem upsert_fresh (sound : Sound deployment db)
    (done : upsertTeam env deployment db name = .ok after) (teamId : Int) (team : Team)
    (apart : teamId ≠ rowFor db name) (found : db.teams.get? teamId = some team) :
    team.name ≠ name ∧ team.submitToken ≠ env.teamTokenPrefix ++ name := by
  have named : team.name ≠ name := fun same => apart ((row_for_iff sound found).mpr same)
  refine ⟨named, fun held => ?_⟩
  have taken := (token_taken_iff env name sound).mpr ⟨teamId, team, found, held, named⟩
  rw [(upsert_ok done).1] at taken
  cases taken

theorem upsert_drawn (drawn : ∀ teamId ∈ db.teams.keys, teamId ≤ db.teamSeq)
    (done : upsertTeam env deployment db name = .ok after) :
    ∀ teamId ∈ after.teams.keys, teamId ≤ after.teamSeq := by
  obtain ⟨_, teams, seq, _⟩ := upsert_ok done
  intro teamId member
  rw [teams, Dict.mem_keys_set] at member
  rw [seq]
  rcases member with here | old
  · rw [here, rowFor]
    cases search : findByName Team.name db.teams name with
    | none => exact le_refl _
    | some id =>
        obtain ⟨value, found, _⟩ := find_some search
        have below := drawn id (Dict.mem_keys_of_get found)
        rw [Option.getD_some]
        omega
  · have below := drawn teamId old
    omega

theorem upsert_sound (sound : Sound deployment db) (done : upsertTeam env deployment db name = .ok after) :
    Sound deployment after := by
  obtain ⟨_, teams, _, services, serviceSeq, pairs⟩ := upsert_ok done
  have fresh := upsert_fresh sound done
  refine ⟨?_, ?_, ?_, services ▸ sound.serviceNames, ?_, services ▸ sound.served, ?_⟩
  · rw [teams]
    exact unique_set sound.names fun other stored apart found => (fresh other stored apart found).1
  · rw [teams]
    exact unique_set sound.tokens fun other stored apart found => (fresh other stored apart found).2
  · exact upsert_drawn sound.drawn done
  · rw [services, serviceSeq]
    exact sound.serviceDrawn
  · intro pair member
    rw [pairs] at member
    rw [teams, services, Dict.mem_keys_set]
    exact ⟨Or.inr (sound.pairs pair member).1, (sound.pairs pair member).2⟩

theorem upsert_default (sound : Sound deployment db) (done : upsertTeam env deployment db name = .ok after)
    (other : String) (held : AtDefault env deployment db other ∨ other = name) :
    AtDefault env deployment after other := by
  have teams := (upsert_ok done).2.1
  rcases held with ⟨teamId, found⟩ | rfl
  · refine ⟨teamId, ?_⟩
    rw [teams, Dict.get_set]
    split
    · next same =>
      have named := (row_for_iff sound found).mp same.symm
      exact congrArg (fun name => some (bootTeam env deployment name)) named.symm
    · exact found
  · exact ⟨rowFor db other, by rw [teams, Dict.get_set_self]⟩

/-- A team at its default is written as it is. -/
theorem upsert_same (sound : Sound deployment db) (held : AtDefault env deployment db name) :
    ∃ after, upsertTeam env deployment db name = .ok after ∧ after.teams = db.teams := by
  obtain ⟨teamId, found⟩ := held
  have here : teamId = rowFor db name := (row_for_iff sound found).mpr rfl
  cases done : upsertTeam env deployment db name with
  | error error =>
      obtain ⟨other, team, there, token, apart⟩ :=
        (token_taken_iff env name sound).mp (upsert_error_iff.mp ⟨error, done⟩)
      have same := sound.tokens other teamId team _ there found token
      rw [same, found] at there
      exact absurd (congrArg Team.name (Option.some.inj there)).symm apart
  | ok after =>
      refine ⟨after, rfl, ?_⟩
      rw [(upsert_ok done).2.1, ← here]
      exact Dict.set_same _ _ _ found

end Upsert

/-! All teams of the environment. -/

section Names
variable {env : Settings} {deployment : Deployment}

theorem names_ok (names : List String) {db after : Db} (sound : Sound deployment db)
    (done : names.foldlM (upsertTeam env deployment) db = .ok after) :
    Sound deployment after ∧ (∀ name, AtDefault env deployment db name ∨ name ∈ names →
      AtDefault env deployment after name) ∧
      after.services = db.services ∧ after.teamServices = db.teamServices := by
  induction names generalizing db with
  | nil =>
      rw [← Except.ok.inj done]
      exact ⟨sound, fun name held => held.resolve_right List.not_mem_nil, rfl, rfl⟩
  | cons name rest ih =>
      rw [List.foldlM_cons] at done
      obtain ⟨middle, first, others⟩ := bind_ok_iff.mp done
      obtain ⟨kept, defaults, services, pairs⟩ := ih (upsert_sound sound first) others
      obtain ⟨_, _, _, same, _, unpaired⟩ := upsert_ok first
      refine ⟨kept, ?_, services.trans same, pairs.trans unpaired⟩
      rintro other (held | member)
      · exact defaults other (Or.inl (upsert_default sound first other (Or.inl held)))
      · rcases List.mem_cons.mp member with here | later
        · exact defaults other (Or.inl (upsert_default sound first other (Or.inr here)))
        · exact defaults other (Or.inr later)

theorem names_same (names : List String) {db : Db} (sound : Sound deployment db)
    (defaults : ∀ name ∈ names, AtDefault env deployment db name) :
    ∃ after, names.foldlM (upsertTeam env deployment) db = .ok after ∧ after.teams = db.teams := by
  induction names generalizing db with
  | nil => exact ⟨db, rfl, rfl⟩
  | cons name rest ih =>
      obtain ⟨middle, first, same⟩ := upsert_same sound (defaults name List.mem_cons_self)
      have later : ∀ other ∈ rest, AtDefault env deployment middle other := by
        intro other member
        obtain ⟨teamId, found⟩ := defaults other (List.mem_cons_of_mem _ member)
        exact ⟨teamId, by rw [same, found]⟩
      obtain ⟨after, done, kept⟩ := ih (upsert_sound sound first) later
      refine ⟨after, ?_, kept.trans same⟩
      rw [List.foldlM_cons, first]
      exact done

/-- Once a name has had its turn, its row holds no other name's token. -/
theorem token_held_cons {db middle : Db} {name : String} (sound : Sound deployment db)
    (first : upsertTeam env deployment db name = .ok middle) (rest : List String) :
    TokenHeld env rest middle ↔ TokenHeld env (name :: rest) db := by
  have teams := (upsert_ok first).2.1
  constructor
  · rintro ⟨before, other, after, split_, teamId, team, found, token, apart, unseen⟩
    rw [teams, Dict.get_set] at found
    split at found
    · cases found
      exact absurd ((String.append_right_inj _).mp token) apart
    · next elsewhere =>
      refine ⟨name :: before, other, after, by rw [split_]; rfl, teamId, team, found, token, apart, ?_⟩
      rw [List.mem_cons, not_or]
      exact ⟨fun same => elsewhere ((row_for_iff sound found).mpr same).symm, unseen⟩
  · rintro ⟨before, other, after, split_, teamId, team, found, token, apart, unseen⟩
    cases before with
    | nil =>
        obtain ⟨rfl, _⟩ := List.cons.inj split_
        have taken := (token_taken_iff env name sound).mpr ⟨teamId, team, found, token, apart⟩
        rw [(upsert_ok first).1] at taken
        cases taken
    | cons head before =>
        obtain ⟨rfl, tail⟩ := List.cons.inj split_
        rw [List.mem_cons, not_or] at unseen
        refine ⟨before, other, after, tail, teamId, team, ?_, token, apart, unseen.2⟩
        rw [teams, Dict.get_set, if_neg fun same => unseen.1 ((row_for_iff sound found).mp same.symm)]
        exact found

theorem names_error_iff (names : List String) {db : Db} (sound : Sound deployment db) :
    (∃ error, names.foldlM (upsertTeam env deployment) db = .error error) ↔ TokenHeld env names db := by
  induction names generalizing db with
  | nil =>
      constructor
      · rintro ⟨error, failed⟩
        cases failed
      · rintro ⟨before, name, after, split_, _⟩
        cases before <;> cases split_
  | cons name rest ih =>
      rw [List.foldlM_cons]
      cases first : upsertTeam env deployment db name with
      | error error =>
          obtain ⟨teamId, team, found, token, apart⟩ :=
            (token_taken_iff env name sound).mp (upsert_error_iff.mp ⟨error, first⟩)
          constructor
          · exact fun _ => ⟨[], name, rest, rfl, teamId, team, found, token, apart, List.not_mem_nil⟩
          · exact fun _ => ⟨error, rfl⟩
      | ok middle =>
          rw [← token_held_cons sound first]
          exact ih (upsert_sound sound first)

end Names

/-! Services and pairs. -/

section Pairs
variable {deployment : Deployment}

theorem service_names_unique {db : Db} (unique : UniqueBy Service.name db.services) (name : String) :
    UniqueBy Service.name (upsertService deployment db name).services := by
  refine unique_set unique ?_
  rintro other service apart found rfl
  rw [find_unique unique found, Option.getD_some] at apart
  exact apart rfl

theorem service_ids_drawn {db : Db} (drawn : ∀ serviceId ∈ db.services.keys, serviceId ≤ db.serviceSeq)
    (name : String) : ∀ serviceId ∈ (upsertService deployment db name).services.keys,
      serviceId ≤ (upsertService deployment db name).serviceSeq := by
  have later : ∀ id ∈ db.services.keys, id ≤ db.serviceSeq + 1 := by
    intro id present
    have below := drawn id present
    omega
  intro serviceId member
  rcases (Dict.mem_keys_set _ _ _ _).mp member with here | old
  · rw [here]
    cases search : findByName Service.name db.services name with
    | none => exact le_refl _
    | some id =>
        obtain ⟨service, found, _⟩ := find_some search
        exact later id (Dict.mem_keys_of_get found)
  · exact later serviceId old

theorem service_sound {db : Db} {name : String} (sound : Sound deployment db)
    (listed : name ∈ deployment.services) :
    Sound deployment (upsertService deployment db name) := by
  refine ⟨sound.names, sound.tokens, sound.drawn, service_names_unique sound.serviceNames name,
    service_ids_drawn sound.serviceDrawn name, ?_, ?_⟩
  · intro serviceId service found
    rw [upsertService] at found
    dsimp only at found
    rw [Dict.get_set] at found
    split at found
    · cases found
      exact listed
    · exact sound.served serviceId service found
  · intro pair member
    obtain ⟨team, service⟩ := sound.pairs pair member
    exact ⟨team, (Dict.mem_keys_set _ _ _ _).mpr (Or.inr service)⟩

/-- A service keeps its id and its name. -/
theorem service_kept {db : Db} (drawn : ∀ serviceId ∈ db.services.keys, serviceId ≤ db.serviceSeq)
    (name : String) {serviceId : Int} {service : Service}
    (found : db.services.get? serviceId = some service) :
    ∃ kept, (upsertService deployment db name).services.get? serviceId = some kept ∧
      kept.name = service.name := by
  rw [upsertService]
  dsimp only
  rw [Dict.get_set]
  split
  · next same =>
    refine ⟨_, rfl, ?_⟩
    cases search : findByName Service.name db.services name with
    | none =>
        rw [search, Option.getD_none] at same
        have below := drawn serviceId (Dict.mem_keys_of_get found)
        omega
    | some id =>
        rw [search, Option.getD_some] at same
        obtain ⟨stored, here, named⟩ := find_some search
        rw [same, found] at here
        rw [Option.some.inj here, named]
  · exact ⟨service, found, rfl⟩

def addPairs (deployment : Deployment) (db : Db) (team : Int × Team) : Db :=
  deployment.services.zipIdx.foldl (fun db service => upsertTeamService deployment db team service) db

/-- The pairing only writes team_services. -/
structure OnlyPairs (before after : Db) : Prop where
  teams : after.teams = before.teams
  services : after.services = before.services
  teamSeq : after.teamSeq = before.teamSeq
  serviceSeq : after.serviceSeq = before.serviceSeq
  known : ∀ pair ∈ after.teamServices.keys, pair ∈ before.teamServices.keys ∨
    pair.1 ∈ before.teams.keys ∧ pair.2 ∈ before.services.keys

theorem OnlyPairs.refl (db : Db) : OnlyPairs db db := ⟨rfl, rfl, rfl, rfl, fun _ member => Or.inl member⟩

theorem pair_written {start db : Db} {team : Int × Team} (present : team.1 ∈ start.teams.keys)
    (only : OnlyPairs start db) (service : String × Nat) :
    OnlyPairs start (upsertTeamService deployment db team service) := by
  unfold upsertTeamService
  split
  · exact only
  · next serviceId search =>
    refine ⟨only.teams, only.services, only.teamSeq, only.serviceSeq, ?_⟩
    intro pair member
    rcases (Dict.mem_keys_set _ _ _ _).mp member with here | old
    · obtain ⟨value, found, _⟩ := find_some search
      rw [only.services] at found
      rw [here]
      exact Or.inr ⟨present, Dict.mem_keys_of_get found⟩
    · exact only.known pair old

theorem pairs_written {start db : Db} {team : Int × Team} (present : team.1 ∈ start.teams.keys)
    (only : OnlyPairs start db) : OnlyPairs start (addPairs deployment db team) :=
  foldl_keeps (OnlyPairs start) (fun _ service _ held => pair_written present held service) only

theorem all_pairs_written (deployment : Deployment) (start : Db) :
    OnlyPairs start (start.teams.entries.foldl (addPairs deployment) start) :=
  foldl_keeps (OnlyPairs start)
    (fun _ team member held => pairs_written (List.mem_map.mpr ⟨team, member, rfl⟩) held)
    (OnlyPairs.refl start)

def Enabled (pair : Int × Int) (db : Db) : Prop :=
  ∃ row, db.teamServices.get? pair = some row ∧ row.enabled = true

theorem pair_enabled {db : Db} {team : Int × Team} {service : String × Nat} {pair : Int × Int}
    (held : Enabled pair db) : Enabled pair (upsertTeamService deployment db team service) := by
  obtain ⟨row, found, on⟩ := held
  unfold upsertTeamService
  split
  · exact ⟨row, found, on⟩
  · next serviceId _ =>
    by_cases same : (team.1, serviceId) = pair
    · exact ⟨_, by rw [Dict.get_set, if_pos same], rfl⟩
    · exact ⟨row, by rw [Dict.get_set, if_neg same]; exact found, on⟩

theorem pair_services (db : Db) (team : Int × Team) (service : String × Nat) :
    (upsertTeamService deployment db team service).services = db.services := by
  unfold upsertTeamService
  split <;> rfl

theorem pairs_services (db : Db) (team : Int × Team) :
    (addPairs deployment db team).services = db.services :=
  foldl_keeps (fun acc : Db => acc.services = db.services)
    (fun acc service _ kept => (pair_services acc team service).trans kept) rfl

theorem pairs_enabled {db : Db} {team : Int × Team} {pair : Int × Int} (held : Enabled pair db) :
    Enabled pair (addPairs deployment db team) :=
  foldl_keeps (Enabled pair) (fun _ _ _ held => pair_enabled held) held

/-- Every pair of a team and a listed service ends up enabled. -/
theorem all_pairs_enabled {start : Db} (unique : UniqueBy Service.name start.services)
    {pair : Int × Int} {service : Service} (team : pair.1 ∈ start.teams.keys)
    (found : start.services.get? pair.2 = some service)
    (served : service.name ∈ deployment.services) :
    Enabled pair (start.teams.entries.foldl (addPairs deployment) start) := by
  obtain ⟨entry, member, same⟩ := List.mem_map.mp team
  obtain ⟨index, listed⟩ := List.mem_iff_getElem?.mp served
  have numbered : (service.name, index) ∈ deployment.services.zipIdx :=
    List.mk_mem_zipIdx_iff_getElem?.mpr listed
  refine foldl_reaches (fun db => db.services = start.services) (Enabled pair) member ?_ ?_ ?_ rfl
  · exact fun db other kept => (pairs_services db other).trans kept
  · exact fun db other _ held => pairs_enabled held
  · intro db kept
    refine foldl_reaches (fun acc => acc.services = start.services) (Enabled pair) numbered ?_ ?_ ?_ kept
    · exact fun acc other same => (pair_services acc entry other).trans same
    · exact fun acc other _ held => pair_enabled held
    · intro acc here
      have known : findByName Service.name acc.services service.name = some pair.2 := by
        rw [here]
        exact find_unique unique found
      have named : (entry.1, pair.2) = pair := by rw [same]
      let target := deployment.host entry.2.name service.name index
      refine ⟨⟨target.1, target.2, true⟩, ?_, rfl⟩
      rw [upsertTeamService]
      dsimp only
      rw [known]
      dsimp only
      rw [named, Dict.get_set_self]

end Pairs

/-! A whole bootstrap. -/

section Bootstrap
variable {env : Settings} {deployment : Deployment} {db after : Db}

theorem sound_congr {before : Db} (sound : Sound deployment before) (only : OnlyPairs before after) :
    Sound deployment after := by
  refine ⟨only.teams ▸ sound.names, only.teams ▸ sound.tokens, ?_, only.services ▸ sound.serviceNames, ?_,
    only.services ▸ sound.served, ?_⟩
  · rw [only.teams, only.teamSeq]
    exact sound.drawn
  · rw [only.services, only.serviceSeq]
    exact sound.serviceDrawn
  · intro pair member
    rw [only.teams, only.services]
    exact (only.known pair member).elim (sound.pairs pair) id

theorem services_sound (sound : Sound deployment db) :
    Sound deployment (deployment.services.foldl (upsertService deployment) db) :=
  foldl_keeps (Sound deployment) (fun _ _ listed held => service_sound held listed) sound

theorem services_only_services (deployment : Deployment) (before : Db) :
    (deployment.services.foldl (upsertService deployment) before).teams = before.teams ∧
      (deployment.services.foldl (upsertService deployment) before).teamServices = before.teamServices := by
  refine foldl_keeps (fun acc : Db => acc.teams = before.teams ∧
    acc.teamServices = before.teamServices) ?_ ⟨rfl, rfl⟩
  exact fun _ _ _ held => held

/-- The parts of a bootstrap: its names, its services, its pairs. -/
theorem bootstrap_ok_iff : bootstrapDatabase env deployment db = .ok after ↔
    ∃ named, (envNames deployment).foldlM (upsertTeam env deployment) db = .ok named ∧
      bootScores env ((deployment.services.foldl (upsertService deployment) named).teams.entries.foldl
        (addPairs deployment) (deployment.services.foldl (upsertService deployment) named)) = after := by
  rw [bootstrapDatabase, bind_ok_iff]
  refine exists_congr fun named => and_congr_right fun _ => ?_
  exact ⟨fun same => Except.ok.inj same, fun same => congrArg Except.ok same⟩

theorem bootstrap_sound (sound : Sound deployment db)
    (done : bootstrapDatabase env deployment db = .ok after) :
    Sound deployment after := by
  obtain ⟨named, names, rfl⟩ := bootstrap_ok_iff.mp done
  have served := services_sound (names_ok _ sound names).1
  obtain ⟨named, tokens, drawn, serviceNames, serviceDrawn, listed, pairs⟩ :=
    sound_congr served (all_pairs_written deployment _)
  exact ⟨named, tokens, drawn, serviceNames, serviceDrawn, listed, pairs⟩

theorem bootstrap_teams (done : bootstrapDatabase env deployment db = .ok after) :
    ∃ named, (envNames deployment).foldlM (upsertTeam env deployment) db = .ok named ∧
      after.teams = named.teams := by
  obtain ⟨named, names, rfl⟩ := bootstrap_ok_iff.mp done
  exact ⟨named, names, (all_pairs_written deployment _).teams.trans
    (services_only_services deployment named).1⟩

/-- ON CONFLICT .. SET enabled = TRUE, for every pair there is. -/
theorem bootstrap_enables (sound : Sound deployment db)
    (done : bootstrapDatabase env deployment db = .ok after) {pair : Int × Int}
    (present : pair ∈ db.teamServices.keys) : Enabled pair after := by
  obtain ⟨named, names, rfl⟩ := bootstrap_ok_iff.mp done
  obtain ⟨kept, _, _, unpaired⟩ := names_ok _ sound names
  have served := services_sound kept
  rw [← unpaired, ← (services_only_services deployment named).2] at present
  obtain ⟨team, service⟩ := served.pairs pair present
  obtain ⟨row, found⟩ := Option.ne_none_iff_exists'.mp ((Dict.mem_keys_iff _ _).mp service)
  exact all_pairs_enabled served.serviceNames team found (served.served pair.2 row found)

theorem bootstrap_error_iff (sound : Sound deployment db) :
    (∃ error, bootstrapDatabase env deployment db = .error error) ↔
      TokenHeld env (envNames deployment) db := by
  rw [← names_error_iff _ sound, envNames, bootstrapDatabase]
  cases (deployment.teams ++ [deployment.nopName]).foldlM (upsertTeam env deployment) db with
  | error error => exact Iff.rfl
  | ok named =>
      constructor
      · rintro ⟨error, failed⟩
        cases failed
      · rintro ⟨error, failed⟩
        cases failed

theorem empty_sound (deployment : Deployment) : Sound deployment emptyDb where
  names := unique_empty Team.name
  tokens := unique_empty Team.submitToken
  drawn := fun _ member => absurd member List.not_mem_nil
  serviceNames := unique_empty Service.name
  serviceDrawn := fun _ member => absurd member List.not_mem_nil
  served := fun _ _ found => by cases found
  pairs := fun _ member => absurd member List.not_mem_nil

end Bootstrap

/-! The admin's commands. -/

section Operate
variable {env : Settings} {deployment : Deployment} {db : Db}

theorem free_of_not_taken {except : Int → Bool} {name token : String}
    (free : taken db except name token = false) {teamId : Int} {team : Team}
    (found : db.teams.get? teamId = some team) (counted : except teamId = false) :
    team.name ≠ name ∧ team.submitToken ≠ token := by
  have passed := List.any_eq_false.mp free (teamId, team) ((Dict.mem_entries_iff _ _ _).mpr found)
  rw [counted, Bool.not_false, Bool.true_and, Bool.or_eq_true, decide_eq_true_eq, decide_eq_true_eq,
    not_or] at passed
  exact passed

/-- A write that breaks no UNIQUE column, on a row drawn from the sequence. -/
theorem write_sound (sound : Sound deployment db) {teamId seq : Int} {team : Team}
    (later : db.teamSeq ≤ seq)
    (drawn : teamId ≤ seq) (fresh : ∀ other stored, other ≠ teamId → db.teams.get? other = some stored →
      stored.name ≠ team.name ∧ stored.submitToken ≠ team.submitToken) :
    Sound deployment { db with teamSeq := seq, teams := db.teams.set teamId team } := by
  refine ⟨unique_set sound.names fun other stored apart found => (fresh other stored apart found).1,
    unique_set sound.tokens fun other stored apart found => (fresh other stored apart found).2, ?_,
    sound.serviceNames, sound.serviceDrawn, sound.served, ?_⟩
  · intro other member
    rcases (Dict.mem_keys_set _ _ _ _).mp member with here | old
    · exact le_of_eq_of_le here drawn
    · exact (sound.drawn other old).trans later
  · intro pair member
    obtain ⟨team, service⟩ := sound.pairs pair member
    exact ⟨(Dict.mem_keys_set _ _ _ _).mpr (Or.inr team), service⟩

theorem create_sound (sound : Sound deployment db) (body : TeamCreateBody) :
    Sound deployment (apiTeamCreate env db body).1 := by
  have later : ∀ id ∈ db.teams.keys, id ≤ db.teamSeq + 1 := by
    intro id member
    have drawn := sound.drawn id member
    omega
  unfold apiTeamCreate
  dsimp only
  split
  · exact sound
  split
  · exact sound
  · split
    · exact ⟨sound.names, sound.tokens, later, sound.serviceNames, sound.serviceDrawn, sound.served,
        sound.pairs⟩
    · next free =>
      refine write_sound sound (by omega) (le_refl _) ?_
      exact fun other stored _ there => free_of_not_taken (Bool.eq_false_iff.mpr free) there rfl

theorem update_sound (sound : Sound deployment db) (teamId : Int) (body : TeamUpdateBody) :
    Sound deployment (apiTeamUpdate db teamId body).1 := by
  unfold apiTeamUpdate
  split
  · exact sound
  split
  · exact sound
  · split
    · exact sound
    · split
      · exact sound
      · next old found =>
        dsimp only
        split
        · exact sound
        · next free =>
          refine write_sound sound (le_refl _) (sound.drawn teamId (Dict.mem_keys_of_get found)) ?_
          exact fun other stored apart there =>
            free_of_not_taken (Bool.eq_false_iff.mpr free) there (decide_eq_false apart)

theorem rotate_sound (sound : Sound deployment db) (teamId : Int) (secret : String) :
    Sound deployment (apiTeamRotateToken db teamId secret).1 := by
  unfold apiTeamRotateToken
  split
  · exact sound
  · next old found =>
    dsimp only
    split
    · exact sound
    · next free =>
      refine write_sound sound (le_refl _) (sound.drawn teamId (Dict.mem_keys_of_get found)) ?_
      exact fun other stored apart there =>
        free_of_not_taken (Bool.eq_false_iff.mpr free) there (decide_eq_false apart)

theorem delete_sound (sound : Sound deployment db) (teamId : Int) :
    Sound deployment (apiTeamDelete db teamId).1 := by
  unfold apiTeamDelete
  split
  · exact sound
  · refine ⟨unique_filter sound.names _, unique_filter sound.tokens _, ?_, sound.serviceNames,
      sound.serviceDrawn, sound.served, ?_⟩
    · intro other member
      exact sound.drawn other ((Dict.mem_keys_filter _ _ _).mp member).1
    · intro pair member
      obtain ⟨old, kept⟩ :=
        (Dict.mem_keys_filter (fun key : Int × Int => decide (key.1 ≠ teamId)) _ pair).mp member
      exact ⟨(Dict.mem_keys_filter _ _ _).mpr ⟨(sound.pairs pair old).1, kept⟩, (sound.pairs pair old).2⟩

theorem toggle_sound (sound : Sound deployment db) (pair : Int × Int) (enabled : Bool) :
    Sound deployment (apiServicesToggle db pair enabled) := by
  refine ⟨sound.names, sound.tokens, sound.drawn, sound.serviceNames, sound.serviceDrawn, sound.served, ?_⟩
  intro other member
  rw [apiServicesToggle, Dict.keys_modify] at member
  exact sound.pairs other member

theorem operate_sound (sound : Sound deployment db) (op : AdminOp) :
    Sound deployment (operate env db op) := by
  cases op with
  | create body => exact create_sound sound body
  | update teamId body => exact update_sound sound teamId body
  | delete teamId => exact delete_sound sound teamId
  | rotateToken teamId secret => exact rotate_sound sound teamId secret
  | toggle pair enabled => exact toggle_sound sound pair enabled

end Operate

/-! What a restart keeps. -/

section Restart
variable {env : Settings} {deployment : Deployment} {first db : Db}

theorem operated_sound (started : bootstrapDatabase env deployment emptyDb = .ok first)
    (run : AdminRun env first db) : Sound deployment db := by
  refine steps_invariant (Sound deployment) ?_ (bootstrap_sound (empty_sound deployment) started) run
  intro before op after sound _ taken
  cases taken
  exact operate_sound sound op

/-- A restart overwrites every setting that is not the environment's, unless the
environment's token of one team is in another team's hands: then it fails whole. -/
theorem restart_keeps_iff (started : bootstrapDatabase env deployment emptyDb = .ok first)
    (run : AdminRun env first db) :
    KeepsSettings db (restart env deployment db) ↔
      TokenHeld env (envNames deployment) db ∨
        (∀ name ∈ envNames deployment, AtDefault env deployment db name) ∧
          ∀ pair row, db.teamServices.get? pair = some row → row.enabled = true := by
  have sound := operated_sound started run
  unfold restart
  cases done : bootstrapDatabase env deployment db with
  | error error =>
      have held := (bootstrap_error_iff sound).mp ⟨error, done⟩
      exact ⟨fun _ => Or.inl held, fun _ => ⟨fun _ => rfl, fun _ row found => ⟨row, found, rfl⟩⟩⟩
  | ok after =>
      have enables (pair : Int × Int) (row : TeamService) (found : db.teamServices.get? pair = some row) :=
        bootstrap_enables sound done (Dict.mem_keys_of_get found)
      obtain ⟨named, names, teams⟩ := bootstrap_teams done
      constructor
      · intro kept
        refine Or.inr ⟨fun name listed => ?_, fun pair row found => ?_⟩
        · obtain ⟨teamId, there⟩ := (names_ok _ sound names).2.1 name (Or.inr listed)
          exact ⟨teamId, by rw [← kept.teams, teams, there]⟩
        · obtain ⟨written, there, on⟩ := enables pair row found
          obtain ⟨other, here, same⟩ := kept.enabled pair row found
          rw [there] at here
          rw [← same, ← Option.some.inj here, on]
      · rintro (held | ⟨defaults, on⟩)
        · obtain ⟨error, failed⟩ := (bootstrap_error_iff sound).mpr held
          rw [done] at failed
          cases failed
        · obtain ⟨same, again, unchanged⟩ := names_same _ sound defaults
          rw [names] at again
          cases again
          refine ⟨fun teamId => by rw [teams, unchanged], fun pair row found => ?_⟩
          obtain ⟨written, there, enabled⟩ := enables pair row found
          exact ⟨written, there, enabled.trans (on pair row found).symm⟩

end Restart

def sampleBoot : Db :=
  match bootstrapDatabase sampleSettings sampleDeployment emptyDb with
  | .ok db => db
  | .error _ => emptyDb

def sampleSecret : String := "k3Jx0vQe8sT2mZ5yLw7aBg"

/-- Not a team of the environment, and its token is rotated. -/
def addedTeam : Db :=
  operate sampleSettings (operate sampleSettings sampleBoot (.create ⟨"gamma", none, "DE", false, none⟩))
    (.rotateToken 4 sampleSecret)

theorem added_team_kept : KeepsSettings addedTeam (restart sampleSettings sampleDeployment addedTeam) := by
  have started : bootstrapDatabase sampleSettings sampleDeployment emptyDb = .ok sampleBoot := by
    decide +kernel
  have created : AdminRun sampleSettings sampleBoot _ :=
    Steps.snoc (Steps.refl sampleBoot) (.create ⟨"gamma", none, "DE", false, none⟩) trivial rfl
  refine (restart_keeps_iff started (Steps.snoc created (.rotateToken 4 sampleSecret) trivial rfl)).mpr
    (Or.inr ⟨?_, ?_⟩)
  · have ids : ∀ name ∈ envNames sampleDeployment, ∃ teamId ∈ [1, 2, 3],
        addedTeam.teams.get? teamId = some (bootTeam sampleSettings sampleDeployment name) := by
          decide +kernel
    intro name listed
    obtain ⟨teamId, _, found⟩ := ids name listed
    exact ⟨teamId, found⟩
  · have rows : ∀ entry ∈ addedTeam.teamServices.entries, entry.2.enabled = true := by decide +kernel
    exact fun pair row found => rows (pair, row) ((Dict.mem_entries_iff _ _ _).mpr found)

/-- The token of a team of the environment is rotated and a check is switched off. -/
def rotatedTeam : Db :=
  operate sampleSettings (operate sampleSettings sampleBoot (.rotateToken 1 sampleSecret))
    (.toggle (2, 1) false)

/-- The old token is back, and the check runs again. -/
theorem restart_resets_settings :
    rotatedTeam.teams.get? 1 = some ⟨"alpha", "submit-k3Jx0vQe8sT2mZ5yLw7aBg", "alpha-nat", false, "XK"⟩ ∧
      (restart sampleSettings sampleDeployment rotatedTeam).teams.get? 1 =
        some ⟨"alpha", "submit-alpha", "alpha-nat", false, "XK"⟩ ∧
      rotatedTeam.teamServices.get? (2, 1) = some ⟨"beta-svc", 8080, false⟩ ∧
      (restart sampleSettings sampleDeployment rotatedTeam).teamServices.get? (2, 1) =
        some ⟨"beta-svc", 8080, true⟩ ∧
      ¬ ∀ (env : Settings) (deployment : Deployment) (first db : Db),
        bootstrapDatabase env deployment emptyDb = .ok first →
        AdminRun env first db →
        KeepsSettings db (restart env deployment db) := by
  have reset : (restart sampleSettings sampleDeployment rotatedTeam).teams.get? 1 ≠
      rotatedTeam.teams.get? 1 := by
    decide +kernel
  refine ⟨by decide +kernel, by decide +kernel, by decide +kernel, by decide +kernel, fun keeps => ?_⟩
  have started : bootstrapDatabase sampleSettings sampleDeployment emptyDb = .ok sampleBoot := by
    decide +kernel
  have rotated : AdminRun sampleSettings sampleBoot _ :=
    Steps.snoc (Steps.refl sampleBoot) (.rotateToken 1 sampleSecret) trivial rfl
  exact reset ((keeps sampleSettings sampleDeployment sampleBoot _ started
    (Steps.snoc rotated (.toggle (2, 1) false) trivial rfl)).teams 1)

end KosSim.Restarts
