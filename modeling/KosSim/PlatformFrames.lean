import KosSim.Library.Folds
import KosSim.Platform

/-!
Which tables a step may write. The rotator never touches teams, services or
submissions; bootstrap_database never touches what the game has recorded.
-/

namespace KosSim.PlatformFrames
open Library Schema CheckerJobs FlagSubmit Rotator InitDb AdminTeams Platform

/-- The tables that only administration writes, and the submissions. -/
structure SameEntries (before after : Db) : Prop where
  teams : after.teams = before.teams
  services : after.services = before.services
  teamServices : after.teamServices = before.teamServices
  teamSeq : after.teamSeq = before.teamSeq
  submissions : after.submissions = before.submissions

theorem SameEntries.refl (db : Db) : SameEntries db db := ⟨rfl, rfl, rfl, rfl, rfl⟩

theorem snapshot_frame {env : Settings} {db after : Db} {tick : Int}
    (done : snapshotToScoreTable env db tick = .ok after) :
    ∃ snapshots, after = { db with scoring := { db.scoring with scoreSnapshots := snapshots } } := by
  unfold snapshotToScoreTable at done
  split at done
  · cases done
    exact ⟨db.scoring.scoreSnapshots, rfl⟩
  split at done
  · cases done
  · next snapshots _ =>
    cases done
    exact ⟨snapshots, rfl⟩

/-- What a _score_tick that goes past its guards does. -/
theorem score_tick_cases {env : Settings} {db after : Db} {tick retention : Int}
    (done : scoreTick env db tick retention = .ok after) :
    (after = db ∧ (tick < 1 ∨ db.services.entries = [] ∨ db.teams.entries = [])) ∨
    (1 ≤ tick ∧ db.services.entries ≠ [] ∧ db.teams.entries ≠ [] ∧
      ∃ flags table snapshots scores, loadFlagsForTick db tick = .ok flags ∧
        persistTickPoints env db tick (scoredPoints db tick retention flags) = .ok table ∧
        after = { db with scoring := ⟨table, snapshots, scores⟩ }) := by
  unfold scoreTick at done
  split at done
  · next early =>
    cases done
    exact Or.inl ⟨rfl, Or.inl early⟩
  next late =>
  split at done
  · next nobody =>
    cases done
    rw [Bool.or_eq_true, List.isEmpty_iff, List.isEmpty_iff] at nobody
    exact Or.inl ⟨rfl, Or.inr nobody⟩
  next somebody =>
  rw [Bool.or_eq_true, List.isEmpty_iff, List.isEmpty_iff, not_or] at somebody
  refine Or.inr ⟨by omega, somebody.1, somebody.2, ?_⟩
  cases flagsRead : loadFlagsForTick db tick with
  | error error => rw [flagsRead] at done; cases done
  | ok flags =>
      rw [flagsRead] at done
      simp only [bind, Except.bind] at done
      split at done
      · cases stored : persistTickPoints env db tick (scoredPoints db tick retention flags) with
        | error error => rw [stored] at done; cases done
        | ok table =>
            rw [stored] at done
            simp only [] at done
            split at done
            · cases done
            · next mirrored copied =>
              obtain ⟨snapshots, same⟩ := snapshot_frame copied
              cases done
              subst same
              exact ⟨flags, table, snapshots, _, rfl, stored, rfl⟩
      · cases done

theorem score_tick_frame {env : Settings} {db after : Db} {tick retention : Int}
    (done : scoreTick env db tick retention = .ok after) :
    ∃ scoring, after = { db with scoring := scoring } := by
  rcases score_tick_cases done with ⟨same, _⟩ | ⟨_, _, _, _, _, _, _, _, _, same⟩
  · exact ⟨db.scoring, same⟩
  · exact ⟨_, same⟩

theorem close_previous_frame {env : Settings} {db after : Db} {startedAt tick : Int}
    (done : closePrevious env db startedAt tick = .ok after) :
    ∃ scoring, after = { finalizeTick db tick startedAt with scoring := scoring } := by
  unfold closePrevious at done
  dsimp only at done
  split at done
  · exact score_tick_frame done
  · cases done
    exact ⟨db.scoring, rfl⟩

theorem ensure_flag_round_frame (env : Settings) (db : Db) (roundId startsAt endsAt : Int) :
    ∃ rounds, (ensureFlagRound env db roundId startsAt endsAt).1 = { db with flagRounds := rounds } := by
  unfold ensureFlagRound
  split
  · exact ⟨db.flagRounds, rfl⟩
  · exact ⟨_, rfl⟩

/-- The boundary's transaction is the round, then the closing of the tick before it. -/
theorem run_tick_boundary_cases {env : Settings} {db : Db} {startedAt roundId startsAt endsAt : Int}
    {boundary : Boundary} (done : runTickBoundary env db startedAt roundId startsAt endsAt = .ok boundary) :
    boundary.tick = (ensureFlagRound env db roundId startsAt endsAt).2 ∧
      boundary.teamServices = enumerateTeamServices boundary.db ∧
      (boundary.tick ≤ 1 ∧ boundary.db = (ensureFlagRound env db roundId startsAt endsAt).1 ∨
        1 < boundary.tick ∧ closePrevious env (ensureFlagRound env db roundId startsAt endsAt).1 startedAt
          (boundary.tick - 1) = .ok boundary.db) := by
  unfold runTickBoundary at done
  dsimp only at done
  split at done
  · next later =>
    split at done
    · cases done
    · next closed finished =>
      cases done
      exact ⟨rfl, rfl, Or.inr ⟨later, finished⟩⟩
  · next first =>
    cases done
    exact ⟨rfl, rfl, Or.inl ⟨Int.not_lt.mp first, rfl⟩⟩

theorem run_tick_boundary_frame {env : Settings} {db : Db} {startedAt roundId startsAt endsAt : Int}
    {boundary : Boundary} (done : runTickBoundary env db startedAt roundId startsAt endsAt = .ok boundary) :
    SameEntries db boundary.db ∧ boundary.db.gameState = db.gameState ∧
      boundary.db.flagRounds = (ensureFlagRound env db roundId startsAt endsAt).1.flagRounds := by
  obtain ⟨_, _, opened⟩ := run_tick_boundary_cases done
  obtain ⟨rounds, same⟩ := ensure_flag_round_frame env db roundId startsAt endsAt
  rcases opened with ⟨_, first⟩ | ⟨_, closed⟩
  · rw [first, same]
    exact ⟨⟨rfl, rfl, rfl, rfl, rfl⟩, rfl, rfl⟩
  · obtain ⟨scoring, after⟩ := close_previous_frame closed
    rw [after, same]
    exact ⟨⟨rfl, rfl, rfl, rfl, rfl⟩, rfl, rfl⟩

theorem rotator_entries {env : Settings} {clock : Int} {db after : Db} {loop next : Loop}
    {event : RotatorEvent} (taken : rotatorStep env clock db loop event = some (after, next)) :
    SameEntries db after := by
  unfold rotatorStep at taken
  split at taken
  · cases taken
    exact SameEntries.refl db
  · cases taken
    exact SameEntries.refl db
  · split at taken <;> (cases taken; exact SameEntries.refl db)
  · split at taken
    · cases taken
      exact SameEntries.refl db
    · next boundary done =>
      cases taken
      exact (run_tick_boundary_frame done).1
  · split at taken
    · cases taken
      exact ⟨rfl, rfl, rfl, rfl, rfl⟩
    · cases taken
      exact SameEntries.refl db
  · cases taken
    exact SameEntries.refl db
  · cases taken
    exact ⟨rfl, rfl, rfl, rfl, rfl⟩
  · cases taken
    exact ⟨rfl, rfl, rfl, rfl, rfl⟩
  · split at taken
    · cases taken
      exact SameEntries.refl db
    · cases taken
      exact ⟨rfl, rfl, rfl, rfl, rfl⟩
  · cases taken
    exact ⟨rfl, rfl, rfl, rfl, rfl⟩
  · cases taken

/-! bootstrap_database. -/

/-- The tables that bootstrap_database leaves alone, and the keys that it keeps. -/
structure SameRecords (before after : Db) : Prop where
  flagRounds : after.flagRounds = before.flagRounds
  submissions : after.submissions = before.submissions
  checker : after.checker = before.checker
  gameState : after.gameState = before.gameState
  teamTickPoints : after.scoring.teamTickPoints = before.scoring.teamTickPoints
  scoreSnapshots : after.scoring.scoreSnapshots = before.scoring.scoreSnapshots
  teams : ∀ teamId, teamId ∈ before.teams.keys → teamId ∈ after.teams.keys
  services : ∀ serviceId, serviceId ∈ before.services.keys → serviceId ∈ after.services.keys

theorem SameRecords.refl (db : Db) : SameRecords db db :=
  ⟨rfl, rfl, rfl, rfl, rfl, rfl, fun _ member => member, fun _ member => member⟩

theorem SameRecords.trans {first middle last : Db} (one : SameRecords first middle)
    (two : SameRecords middle last) : SameRecords first last :=
  ⟨two.1.trans one.1, two.2.trans one.2, two.3.trans one.3, two.4.trans one.4, two.5.trans one.5,
    two.6.trans one.6, fun key member => two.7 key (one.7 key member),
    fun key member => two.8 key (one.8 key member)⟩

theorem upsert_team_records {env : Settings} {deployment : Deployment} {db after : Db} {name : String}
    (done : upsertTeam env deployment db name = .ok after) : SameRecords db after := by
  unfold upsertTeam at done
  dsimp only at done
  split at done
  · cases done
  · cases done
    unfold addScore
    split
    · exact ⟨rfl, rfl, rfl, rfl, rfl, rfl,
        fun key member => (Dict.mem_keys_set _ _ _ _).mpr (Or.inr member), fun _ member => member⟩
    · exact ⟨rfl, rfl, rfl, rfl, rfl, rfl,
        fun key member => (Dict.mem_keys_set _ _ _ _).mpr (Or.inr member), fun _ member => member⟩

theorem upsert_teams_records {env : Settings} {deployment : Deployment} (names : List String)
    {db after : Db} (done : names.foldlM (upsertTeam env deployment) db = .ok after) :
    SameRecords db after :=
  foldlM_keeps (SameRecords db) (fun _ _ _ _ same upserted => same.trans (upsert_team_records upserted))
    (SameRecords.refl db) done

theorem upsert_service_records (deployment : Deployment) (db : Db) (name : String) :
    SameRecords db (upsertService deployment db name) :=
  ⟨rfl, rfl, rfl, rfl, rfl, rfl, fun _ member => member,
    fun _ member => (Dict.mem_keys_set _ _ _ _).mpr (Or.inr member)⟩

theorem upsert_team_service_records (deployment : Deployment) (db : Db) (team : Int × Team)
    (service : String × Nat) : SameRecords db (upsertTeamService deployment db team service) := by
  unfold upsertTeamService
  split
  · exact SameRecords.refl db
  · exact ⟨rfl, rfl, rfl, rfl, rfl, rfl, fun _ member => member, fun _ member => member⟩

theorem fold_records {α : Type} (change : Db → α → Db) (kept : ∀ db item, SameRecords db (change db item))
    (items : List α) (db : Db) : SameRecords db (items.foldl change db) :=
  foldl_keeps (SameRecords db) (fun acc item _ same => same.trans (kept acc item)) (SameRecords.refl db)

theorem bootstrap_records {env : Settings} {deployment : Deployment} {db after : Db}
    (done : bootstrapDatabase env deployment db = .ok after) : SameRecords db after := by
  unfold bootstrapDatabase at done
  cases named : (deployment.teams ++ [deployment.nopName]).foldlM (upsertTeam env deployment) db with
  | error error => rw [named] at done; cases done
  | ok middle =>
      rw [named] at done
      cases done
      have served := fold_records (upsertService deployment) (upsert_service_records deployment)
        deployment.services middle
      have paired := fold_records (fun db team => deployment.services.zipIdx.foldl
          (fun db service => upsertTeamService deployment db team service) db)
        (fun db team => fold_records (fun db service => upsertTeamService deployment db team service)
          (fun db service => upsert_team_service_records deployment db team service)
          deployment.services.zipIdx db)
        (deployment.services.foldl (upsertService deployment) middle).teams.entries
        (deployment.services.foldl (upsertService deployment) middle)
      have stored := ((upsert_teams_records _ named).trans served).trans paired
      exact ⟨stored.1, stored.2, stored.3, stored.4, stored.5, stored.6, stored.7, stored.8⟩

/-! The admin's team commands other than a deletion. -/

theorem create_team_records (env : Settings) (db : Db) (body : TeamCreateBody) :
    SameRecords db (apiTeamCreate env db body).1 := by
  unfold apiTeamCreate
  split
  · exact SameRecords.refl db
  dsimp only
  split
  · exact SameRecords.refl db
  split
  · exact ⟨rfl, rfl, rfl, rfl, rfl, rfl, fun _ member => member, fun _ member => member⟩
  · exact ⟨rfl, rfl, rfl, rfl, rfl, rfl, fun key member => (Dict.mem_keys_set _ _ _ _).mpr (Or.inr member),
      fun _ member => member⟩

theorem update_team_records (db : Db) (teamId : Int) (body : TeamUpdateBody) :
    SameRecords db (apiTeamUpdate db teamId body).1 := by
  unfold apiTeamUpdate
  split
  · exact SameRecords.refl db
  split
  · exact SameRecords.refl db
  split
  · exact SameRecords.refl db
  split
  · exact SameRecords.refl db
  dsimp only
  split
  · exact SameRecords.refl db
  · exact ⟨rfl, rfl, rfl, rfl, rfl, rfl, fun key member => (Dict.mem_keys_set _ _ _ _).mpr (Or.inr member),
      fun _ member => member⟩

end KosSim.PlatformFrames
