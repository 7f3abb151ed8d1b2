import KosSim.Restarts
import KosSim.Scoreboard

/-!
Who takes part: teams, scores and team_services under bootstrap_database and the team
commands of the admin. bootstrap_database writes the scores row of the environment's
teams and the pairs of all teams; api_team_create writes neither.
-/

namespace KosSim.TeamRosters
open Library Schema Rotator AdminTeams InitDb Restarts Scoreboard Platform

/-- The database, and the services of the environment it was bootstrapped with last. -/
structure Roster where
  db : Db
  services : List String

inductive RosterOp where
  | bootstrap (env : Settings) (deployment : Deployment)
  | create (env : Settings) (body : TeamCreateBody)
  | update (teamId : Int) (body : TeamUpdateBody)
  | delete (teamId : Int)

def rosterStep (state : Roster) : RosterOp → Roster
  | .bootstrap env deployment =>
      match bootstrapDatabase env deployment state.db with
      | .ok after => ⟨after, deployment.services⟩
      | .error _ => state
  | .create env body => { state with db := (apiTeamCreate env state.db body).1 }
  | .update teamId body => { state with db := (apiTeamUpdate state.db teamId body).1 }
  | .delete teamId => { state with db := (apiTeamDelete state.db teamId).1 }

/-- A create request that is valid and breaks no UNIQUE column. -/
def addsTeam (state : Roster) : RosterOp → Bool
  | .create env body =>
      validName body.name && validCountry body.countryCode && maxLength 63 body.natAlias &&
        maxLength 128 body.submitToken && !(unsendable body.natAlias || unsendable body.submitToken) &&
        !taken state.db (fun _ => false) (createdTeam env body).name (createdTeam env body).submitToken
  | _ => false

def ServiceNamed (db : Db) (name : String) (serviceId : Int) : Prop :=
  ∃ service, db.services.get? serviceId = some service ∧ service.name = name

/-- One scores row, one pair for each configured service, and what the readers make of them.
The rows of a table are told apart by their keys. -/
structure TakesPart (state : Roster) (teamId : Int) (team : Team) : Prop where
  scored : teamId ∈ state.db.scoring.scores.keys
  paired : ∀ name ∈ state.services, ∃! serviceId,
    ServiceNamed state.db name serviceId ∧ (teamId, serviceId) ∈ state.db.teamServices.keys
  enumerated : ∀ name ∈ state.services, ∃ item ∈ enumerateTeamServices state.db,
    item.teamId = teamId ∧ ServiceNamed state.db name item.serviceId
  refreshed : ∀ env : Settings, (refreshScoresSummary env state.db).scoring.scores.get? teamId =
    some (summaryOf env state.db.services.entries.length
      (latestRows state.db.scoring.teamTickPoints teamId))
  listed : ∀ includeNop, shown includeNop team = true → ∃ row ∈ scoreboardRows state.db includeNop,
    row.teamId = teamId

def AllTakePart (state : Roster) : Prop :=
  ∀ teamId team, state.db.teams.get? teamId = some team → TakesPart state teamId team

structure Rostered (state : Roster) : Prop where
  drawn : ∀ teamId ∈ state.db.teams.keys, teamId ≤ state.db.teamSeq
  scoresDrawn : ∀ teamId ∈ state.db.scoring.scores.keys, teamId ≤ state.db.teamSeq
  serviceNames : UniqueBy Service.name state.db.services
  serviceDrawn : ∀ serviceId ∈ state.db.services.keys, serviceId ≤ state.db.serviceSeq
  configured : ∀ name ∈ state.services, ∃ serviceId, ServiceNamed state.db name serviceId
  enabled : ∀ pair row, state.db.teamServices.get? pair = some row → row.enabled = true
  scored : ∀ teamId ∈ state.db.teams.keys, teamId ∈ state.db.scoring.scores.keys
  paired : ∀ teamId ∈ state.db.teams.keys, ∀ serviceId service, state.db.services.get? serviceId =
    some service → service.name ∈ state.services → (teamId, serviceId) ∈ state.db.teamServices.keys

theorem Rostered.takes_part {state : Roster} (rostered : Rostered state) : AllTakePart state := by
  intro teamId team found
  have member := Dict.mem_keys_of_get found
  obtain ⟨score, stored⟩ :=
    Option.ne_none_iff_exists'.mp ((Dict.mem_keys_iff _ _).mp (rostered.scored teamId member))
  refine ⟨rostered.scored teamId member, ?_, ?_, ?_, ?_⟩
  · -- services.name is UNIQUE, so no second row of the name has a pair
    intro name listed
    obtain ⟨serviceId, service, there, named⟩ := rostered.configured name listed
    refine ⟨serviceId,
      ⟨⟨service, there, named⟩, rostered.paired teamId member serviceId service there (named ▸ listed)⟩, ?_⟩
    rintro other ⟨⟨second, here, same⟩, _⟩
    exact rostered.serviceNames other serviceId second service here there (same.trans named.symm)
  · intro name listed
    obtain ⟨serviceId, service, there, named⟩ := rostered.configured name listed
    have paired := rostered.paired teamId member serviceId service there (named ▸ listed)
    obtain ⟨row, kept⟩ := Option.ne_none_iff_exists'.mp ((Dict.mem_keys_iff _ _).mp paired)
    have inList := mem_enumerate kept (rostered.enabled _ row kept) ((Dict.contains_iff _ _).mpr member)
      ((Dict.contains_iff _ _).mpr (Dict.mem_keys_of_get there))
    exact ⟨_, inList, rfl, service, there, named⟩
  · intro env
    rw [refreshScoresSummary]
    dsimp only
    rw [Dict.get_map_entries, stored, Option.map_some, if_pos ((Dict.contains_iff _ _).mpr member)]
  · intro includeNop visible
    refine ⟨teamRow (teamId, team) score.total, ?_, rfl⟩
    rw [scoreboardRows, List.mem_insertionSort, List.mem_filterMap]
    refine ⟨(teamId, team), List.mem_filter.mpr ⟨(Dict.mem_entries_iff _ _ _).mpr found, visible⟩, ?_⟩
    rw [stored, Option.map_some]

/-! A whole bootstrap writes both tables for every team. -/

section Bootstrap
variable {env : Settings} {deployment : Deployment} {db after : Db}

/-- The scores of the teams, while the names have their turns. -/
structure Scored (db : Db) : Prop where
  drawn : ∀ teamId ∈ db.teams.keys, teamId ≤ db.teamSeq
  scoresDrawn : ∀ teamId ∈ db.scoring.scores.keys, teamId ≤ db.teamSeq
  scored : ∀ teamId ∈ db.teams.keys, teamId ∈ db.scoring.scores.keys

theorem mem_add_score (db : Db) (teamId other : Int) :
    other ∈ (addScore db teamId).scoring.scores.keys ↔ other = teamId ∨ other ∈ db.scoring.scores.keys := by
  unfold addScore
  split
  · next present =>
    constructor
    · exact Or.inr
    · rintro (rfl | old)
      · exact (Dict.contains_iff _ _).mp present
      · exact old
  · exact Dict.mem_keys_set _ _ _ _

theorem upsert_scores {name : String} (done : upsertTeam env deployment db name = .ok after)
    (teamId : Int) :
    teamId ∈ after.scoring.scores.keys ↔ teamId = rowFor db name ∨ teamId ∈ db.scoring.scores.keys := by
  unfold upsertTeam at done
  dsimp only at done
  split at done
  · cases done
  · cases done
    exact mem_add_score _ _ _

theorem upsert_scored {name : String} (scored : Scored db)
    (done : upsertTeam env deployment db name = .ok after) :
    Scored after := by
  obtain ⟨_, teams, seq, _⟩ := upsert_ok done
  have drawn := upsert_drawn scored.drawn done
  refine ⟨drawn, ?_, ?_⟩
  · intro teamId member
    rcases (upsert_scores done teamId).mp member with here | old
    · exact drawn teamId (by rw [teams, Dict.mem_keys_set]; exact Or.inl here)
    · have below := scored.scoresDrawn teamId old
      omega
  · intro teamId member
    rw [teams, Dict.mem_keys_set] at member
    exact (upsert_scores done teamId).mpr (member.imp_right (scored.scored teamId))

theorem names_scored {names : List String} (scored : Scored db)
    (done : names.foldlM (upsertTeam env deployment) db = .ok after) :
    Scored after ∧ after.services = db.services ∧ after.serviceSeq = db.serviceSeq ∧
      after.teamServices = db.teamServices := by
  refine foldlM_keeps (fun acc : Db => Scored acc ∧ acc.services = db.services ∧
    acc.serviceSeq = db.serviceSeq ∧
    acc.teamServices = db.teamServices) ?_ ⟨scored, rfl, rfl, rfl⟩ done
  rintro acc name next _ ⟨held, services, seq, pairs⟩ one
  obtain ⟨_, _, _, sameServices, sameSeq, samePairs⟩ := upsert_ok one
  exact ⟨upsert_scored held one, sameServices.trans services, sameSeq.trans seq, samePairs.trans pairs⟩

/-- The tables that the services' upserts keep in order. -/
structure Served (db : Db) : Prop where
  names : UniqueBy Service.name db.services
  drawn : ∀ serviceId ∈ db.services.keys, serviceId ≤ db.serviceSeq

theorem services_served (deployment : Deployment) (served : Served db) :
    Served (deployment.services.foldl (upsertService deployment) db) :=
  foldl_keeps Served
    (fun _ name _ held => ⟨service_names_unique held.names name, service_ids_drawn held.drawn name⟩) served

theorem service_named (deployment : Deployment) {name other : String} (served : Served db)
    {serviceId : Int} (named : ServiceNamed db name serviceId) :
    ServiceNamed (upsertService deployment db other) name serviceId := by
  obtain ⟨service, found, same⟩ := named
  obtain ⟨kept, there, again⟩ := @service_kept deployment db served.drawn other _ _ found
  exact ⟨kept, there, again.trans same⟩

theorem services_configured (deployment : Deployment) (served : Served db) (name : String)
    (listed : name ∈ deployment.services) :
    ∃ serviceId, ServiceNamed (deployment.services.foldl (upsertService deployment) db) name serviceId := by
  refine foldl_reaches Served (fun acc => ∃ serviceId, ServiceNamed acc name serviceId) listed ?_
    ?_ ?_ served
  · exact fun acc other held => ⟨service_names_unique held.names other, service_ids_drawn held.drawn other⟩
  · exact fun acc other held named => named.imp fun serviceId there => service_named deployment held there
  · intro acc _
    refine ⟨(findByName Service.name acc.services name).getD (acc.serviceSeq + 1),
      ⟨name, some (deployment.displayName name), 8080, deployment.payloads name,
        deployment.payloads name⟩, ?_, rfl⟩
    rw [upsertService, Dict.get_set_self]

theorem services_scoring (deployment : Deployment) (before : Db) :
    (deployment.services.foldl (upsertService deployment) before).scoring = before.scoring ∧
      (deployment.services.foldl (upsertService deployment) before).teamSeq = before.teamSeq := by
  refine foldl_keeps (fun acc : Db => acc.scoring = before.scoring ∧ acc.teamSeq = before.teamSeq)
    ?_ ⟨rfl, rfl⟩
  exact fun _ _ _ held => held

theorem pair_scoring (start : Db) (team : Int × Team) (service : String × Nat) :
    (upsertTeamService deployment start team service).scoring = start.scoring := by
  unfold upsertTeamService
  split <;> rfl

theorem pairs_scoring (deployment : Deployment) (start : Db) :
    (start.teams.entries.foldl (addPairs deployment) start).scoring = start.scoring :=
  foldl_keeps (fun acc : Db => acc.scoring = start.scoring)
    (fun _ team _ held => foldl_keeps (fun acc : Db => acc.scoring = start.scoring)
      (fun acc service _ same => (pair_scoring acc team service).trans same) held) rfl

def AllEnabled (db : Db) : Prop := ∀ pair row, db.teamServices.get? pair = some row → row.enabled = true

theorem pair_all_enabled {start : Db} (team : Int × Team) (service : String × Nat)
    (held : AllEnabled start) :
    AllEnabled (upsertTeamService deployment start team service) := by
  unfold upsertTeamService
  split
  · exact held
  · intro pair row found
    rw [Dict.get_set] at found
    split at found
    · cases found
      rfl
    · exact held pair row found

theorem pairs_all_enabled {start : Db} (held : AllEnabled start) :
    AllEnabled (start.teams.entries.foldl (addPairs deployment) start) :=
  foldl_keeps AllEnabled
    (fun _ team _ enabled => foldl_keeps AllEnabled
      (fun _ service _ same => pair_all_enabled team service same) enabled) held

/-- The last loops: a pair of every team with every configured service, then the scores again. -/
theorem pairs_rostered (scored : Scored db) (served : Served db) (enabled : AllEnabled db)
    (configured : ∀ name ∈ deployment.services, ∃ serviceId, ServiceNamed db name serviceId) :
    Rostered ⟨bootScores env (db.teams.entries.foldl (addPairs deployment) db), deployment.services⟩ := by
  have only := all_pairs_written deployment db
  have scoring := pairs_scoring deployment db
  have still : AllEnabled (db.teams.entries.foldl (addPairs deployment) db) := pairs_all_enabled enabled
  have complete (pair : Int × Int) (service : Service) (team : pair.1 ∈ db.teams.keys)
      (found : db.services.get? pair.2 = some service) (listed : service.name ∈ deployment.services) :=
    all_pairs_enabled served.names team found listed
  generalize db.teams.entries.foldl (addPairs deployment) db = paired at only scoring still complete ⊢
  -- Refreshing the scores changes no key.
  have scores : (bootScores env paired).scoring.scores.keys = db.scoring.scores.keys := by
    rw [bootScores]
    dsimp only
    rw [Dict.keys_map_entries, scoring]
  have teams : (bootScores env paired).teams = db.teams := only.teams
  have seq : (bootScores env paired).teamSeq = db.teamSeq := only.teamSeq
  refine ⟨?_, ?_, only.services ▸ served.names, ?_, ?_, still, ?_, ?_⟩
  · rw [teams, seq]
    exact scored.drawn
  · rw [scores, seq]
    exact scored.scoresDrawn
  · rw [bootScores, only.services, only.serviceSeq]
    exact served.drawn
  · intro name listed
    obtain ⟨serviceId, service, found, same⟩ := configured name listed
    exact ⟨serviceId, service, only.services ▸ found, same⟩
  · rw [teams, scores]
    exact scored.scored
  · intro teamId member serviceId service found listed
    rw [teams] at member
    rw [bootScores, only.services] at found
    obtain ⟨row, there, _⟩ := complete (teamId, serviceId) service member found listed
    exact Dict.mem_keys_of_get there

theorem bootstrap_rostered {state : Roster} (rostered : Rostered state)
    (done : bootstrapDatabase env deployment state.db = .ok after) :
    Rostered ⟨after, deployment.services⟩ := by
  obtain ⟨named, names, rfl⟩ := bootstrap_ok_iff.mp done
  obtain ⟨scored, services, serviceSeq, teamServices⟩ :=
    names_scored ⟨rostered.drawn, rostered.scoresDrawn, rostered.scored⟩ names
  have served : Served named := by
    refine ⟨services ▸ rostered.serviceNames, ?_⟩
    rw [services, serviceSeq]
    exact rostered.serviceDrawn
  obtain ⟨teams, pairs⟩ := services_only_services deployment named
  obtain ⟨scoring, teamSeq⟩ := services_scoring deployment named
  refine pairs_rostered ⟨?_, ?_, ?_⟩
    (services_served deployment served) ?_ (services_configured deployment served)
  · rw [teams, teamSeq]
    exact scored.drawn
  · rw [scoring, teamSeq]
    exact scored.scoresDrawn
  · rw [teams, scoring]
    exact scored.scored
  · intro pair row found
    rw [pairs, teamServices] at found
    exact rostered.enabled pair row found

end Bootstrap

/-! The admin's commands keep both tables, except a creation. -/

section Commands
variable {state : Roster}

theorem create_rostered (rostered : Rostered state) {env : Settings} {body : TeamCreateBody}
    (refused : addsTeam state (.create env body) = false) :
    Rostered (rosterStep state (.create env body)) := by
  unfold addsTeam at refused
  unfold rosterStep apiTeamCreate
  dsimp only at refused ⊢
  split
  · exact rostered
  · next valid =>
    rw [Bool.not_eq_true, Bool.not_eq_false'] at valid
    split
    · exact rostered
    next sendable =>
    rw [valid, Bool.eq_false_iff.mpr sendable, Bool.not_false, Bool.true_and, Bool.true_and,
      Bool.not_eq_false'] at refused
    have later (id : Int) (below : id ≤ state.db.teamSeq) : id ≤ state.db.teamSeq + 1 := by omega
    rw [if_pos refused]
    exact ⟨fun id member => later id (rostered.drawn id member),
      fun id member => later id (rostered.scoresDrawn id member), rostered.serviceNames,
      rostered.serviceDrawn, rostered.configured, rostered.enabled, rostered.scored, rostered.paired⟩

theorem update_rostered (rostered : Rostered state) (teamId : Int) (body : TeamUpdateBody) :
    Rostered (rosterStep state (.update teamId body)) := by
  unfold rosterStep apiTeamUpdate
  dsimp only
  split
  · exact rostered
  split
  · exact rostered
  · split
    · exact rostered
    · split
      · exact rostered
      · next old found =>
        split
        · exact rostered
        · have keys (id : Int) (team : Team) (member : id ∈ (state.db.teams.set teamId team).keys) :
              id ∈ state.db.teams.keys := by
            rcases (Dict.mem_keys_set _ _ _ _).mp member with rfl | old
            · exact Dict.mem_keys_of_get found
            · exact old
          exact ⟨fun id member => rostered.drawn id (keys id _ member), rostered.scoresDrawn,
            rostered.serviceNames, rostered.serviceDrawn, rostered.configured, rostered.enabled,
            fun id member => rostered.scored id (keys id _ member),
            fun id member => rostered.paired id (keys id _ member)⟩

theorem delete_rostered (rostered : Rostered state) (teamId : Int) :
    Rostered (rosterStep state (.delete teamId)) := by
  unfold rosterStep apiTeamDelete
  dsimp only
  split
  · exact rostered
  · refine ⟨?_, ?_, rostered.serviceNames, rostered.serviceDrawn, rostered.configured, ?_, ?_, ?_⟩
    · intro id member
      exact rostered.drawn id ((Dict.mem_keys_filter (fun key => decide (key ≠ teamId)) _ id).mp member).1
    · intro id member
      exact rostered.scoresDrawn id
        ((Dict.mem_keys_filter (fun key => decide (key ≠ teamId)) _ id).mp member).1
    · intro pair row found
      rw [dropTeam, Dict.get_filter] at found
      exact rostered.enabled pair row (Option.filter_eq_some_iff.mp found).1
    · intro id member
      obtain ⟨there, kept⟩ := (Dict.mem_keys_filter (fun key => decide (key ≠ teamId)) _ id).mp member
      exact (Dict.mem_keys_filter (fun key => decide (key ≠ teamId)) _ id).mpr
        ⟨rostered.scored id there, kept⟩
    · intro id member serviceId service found listed
      obtain ⟨there, kept⟩ := (Dict.mem_keys_filter (fun key => decide (key ≠ teamId)) _ id).mp member
      exact (Dict.mem_keys_filter (fun key : Int × Int => decide (key.1 ≠ teamId)) _ (id, serviceId)).mpr
        ⟨rostered.paired id there serviceId service found listed, kept⟩

theorem roster_step_rostered (rostered : Rostered state) (op : RosterOp)
    (refused : addsTeam state op = false) :
    Rostered (rosterStep state op) := by
  cases op with
  | bootstrap env deployment =>
      unfold rosterStep
      dsimp only
      split
      · next after done => exact bootstrap_rostered rostered done
      · exact rostered
  | create env body => exact create_rostered rostered refused
  | update teamId body => exact update_rostered rostered teamId body
  | delete teamId => exact delete_rostered rostered teamId

/-- The new team has a fresh id, so nothing of it is in the scores. -/
theorem added_left_out (rostered : Rostered state) (op : RosterOp) (adds : addsTeam state op = true) :
    ¬ AllTakePart (rosterStep state op) := by
  intro all
  cases op with
  | create env body =>
      -- Ids of teams and of scores stay below the sequence, and the new id is above it.
      unfold addsTeam at adds
      rw [Bool.and_eq_true, Bool.and_eq_true, Bool.not_eq_true', Bool.not_eq_true'] at adds
      obtain ⟨⟨valid, sendable⟩, free⟩ := adds
      have stored : (rosterStep state (.create env body)).db.teams.get? (state.db.teamSeq + 1) =
          some (createdTeam env body) := by
        unfold rosterStep apiTeamCreate
        simp only [valid, sendable, free, Bool.not_true, Bool.false_eq_true, ↓reduceIte, Dict.get_set_self]
      have scores : (rosterStep state (.create env body)).db.scoring = state.db.scoring := by
        unfold rosterStep apiTeamCreate
        simp only [valid, sendable, free, Bool.not_true, Bool.false_eq_true, ↓reduceIte]
      have member := (all _ _ stored).scored
      rw [scores] at member
      have below := rostered.scoresDrawn _ member
      omega
  | bootstrap env deployment => cases adds
  | update teamId body => cases adds
  | delete teamId => cases adds

end Commands

def emptyRoster : Roster := ⟨emptyDb, []⟩

theorem empty_rostered : Rostered emptyRoster where
  drawn := fun _ member => absurd member List.not_mem_nil
  scoresDrawn := fun _ member => absurd member List.not_mem_nil
  serviceNames := unique_empty Service.name
  serviceDrawn := fun _ member => absurd member List.not_mem_nil
  configured := fun _ listed => absurd listed List.not_mem_nil
  enabled := fun _ _ found => by cases found
  scored := fun _ member => absurd member List.not_mem_nil
  paired := fun _ member => absurd member List.not_mem_nil

/-- As long as the admin creates no team every team takes part, and the first creation ends it. -/
theorem teams_take_part {state : Roster}
    (run : Steps (fun state op => some (rosterStep state op)) (fun state op => addsTeam state op = false)
      emptyRoster state) :
    AllTakePart state ∧ ∀ op, AllTakePart (rosterStep state op) ↔ addsTeam state op = false := by
  have rostered : Rostered state := by
    refine steps_invariant Rostered ?_ empty_rostered run
    intro before op after held refused taken
    cases taken
    exact roster_step_rostered held op refused
  refine ⟨rostered.takes_part, fun op => ⟨fun all => ?_, fun refused => ?_⟩⟩
  · rw [Bool.eq_false_iff]
    exact fun adds => added_left_out rostered op adds all
  · exact (roster_step_rostered rostered op refused).takes_part

/-- A team is renamed and another deleted; the next bootstrap takes both names in again. -/
theorem renamed_teams_take_part :
    AllTakePart (rosterStep
      (rosterStep (rosterStep (rosterStep emptyRoster (.bootstrap sampleSettings sampleDeployment))
      (.update 1 ⟨some "omega", none, none, none, none⟩)) (.delete 2))
      (.bootstrap sampleSettings sampleDeployment)) :=
  (teams_take_part (Steps.snoc (Steps.snoc (Steps.snoc (Steps.snoc (Steps.refl emptyRoster)
    (.bootstrap sampleSettings sampleDeployment) rfl rfl)
    (.update 1 ⟨some "omega", none, none, none, none⟩) rfl rfl)
    (.delete 2) rfl rfl) (.bootstrap sampleSettings sampleDeployment) rfl rfl)).1

def gammaCreated : Roster :=
  rosterStep (rosterStep emptyRoster (.bootstrap sampleSettings sampleDeployment))
    (.create sampleSettings ⟨"gamma", none, "DE", false, none⟩)

/-- The new team is not checked until the next bootstrap, and not on the scoreboard even after it. -/
theorem created_team_left_out :
    (gammaCreated.db.teams.get? 4).map (·.name) = some "gamma" ∧
      (enumerateTeamServices gammaCreated.db).map (·.teamId) = [1, 2, 3] ∧
      (scoreboardRows gammaCreated.db true).map (·.teamId) = [1, 2, 3] ∧
      (enumerateTeamServices
        (rosterStep gammaCreated (.bootstrap sampleSettings sampleDeployment)).db).map (·.teamId) =
        [1, 2, 4, 3] ∧
      (scoreboardRows (rosterStep gammaCreated (.bootstrap sampleSettings sampleDeployment)).db
        true).map (·.teamId) = [1, 2, 3] ∧
      ¬ ∀ state, Steps (fun state op => some (rosterStep state op)) (fun _ _ => True) emptyRoster state →
        AllTakePart state := by
  refine ⟨by decide +kernel, by decide +kernel, by decide +kernel, by decide +kernel, by decide +kernel,
    fun all => ?_⟩
  have stored : gammaCreated.db.teams.contains 4 = true := by decide +kernel
  have missing : 4 ∉ gammaCreated.db.scoring.scores.keys := by decide +kernel
  obtain ⟨team, found⟩ := (Dict.contains_eq_some _ _).mp stored
  exact missing (all gammaCreated (Steps.snoc (Steps.snoc (Steps.refl emptyRoster)
    (.bootstrap sampleSettings sampleDeployment) trivial rfl)
    (.create sampleSettings ⟨"gamma", none, "DE", false, none⟩) trivial rfl) 4 team found).scored

end KosSim.TeamRosters
