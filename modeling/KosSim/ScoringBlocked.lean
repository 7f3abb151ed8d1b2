import KosSim.Library.Folds
import KosSim.ScoringLedger
import KosSim.SubmitSessions

/-!
When _score_tick can raise. The keys and references that it relies on hold in
every reachable database; what is left is int(target_team_id) of an accepted
submission whose target team has been deleted since.
-/

namespace KosSim.ScoringBlocked
open Library Schema Scoring ScoringLedger Rotator CheckerJobs FlagSubmit AdminTeams Platform PlatformFrames
open SubmitSessions

/-! The keys of the new points are the known pairs. -/

theorem record_capture_keys (currentTick retention : Int) (nopTeamId : Option Int)
    (services : List ServiceSpec) (state : CaptureState) (flag : StolenFlag) :
    (recordCapture currentTick retention nopTeamId services state flag).points.keys =
      state.points.keys := by
  unfold recordCapture
  split
  · rfl
  split
  · dsimp only
    split <;> simp only [Dict.keys_modify]
  · rfl

theorem captures_keys (currentTick retention : Int) (nopTeamId : Option Int) (services : List ServiceSpec)
    (flags : List StolenFlag) (state : CaptureState) :
    (flags.foldl (recordCapture currentTick retention nopTeamId services) state).points.keys =
      state.points.keys := by
  induction flags generalizing state with
  | nil => rfl
  | cons flag rest ih => rw [List.foldl_cons, ih, record_capture_keys]

theorem scored_keys (currentTick : Int) (services : List ServiceSpec) (teamIds : List Int)
    (nopTeamId : Option Int) (retention : Int) (checkerResults : CheckerResults)
    (lastTickPoints : TickPoints) (prevAttacking : Attacking) (flags : List StolenFlag) :
    (calculateScoringForTick currentTick services teamIds nopTeamId retention checkerResults lastTickPoints
      prevAttacking flags).1.keys = (initialPoints currentTick services teamIds).keys := by
  unfold calculateScoringForTick
  simp only [Dict.keys_map_entries, captures_keys]

theorem mem_by_key {α : Type} (dict : Dict Int α) (key : Int) :
    key ∈ (byKey dict).map (·.1) ↔ key ∈ dict.keys := by
  rw [Dict.keys]
  exact ((List.perm_insertionSort _ dict.entries).map Prod.fst).mem_iff

theorem load_services_ids (db : Db) : (loadServices db).map (·.id) = (byKey db.services).map (·.1) := by
  rw [loadServices, List.map_map]
  rfl

/-- Every key of the new points names a team and a service of the database. -/
theorem scored_pair_known (db : Db) (tick retention : Int) (flags : List StolenFlag) (pair : Pair)
    (member : pair ∈ (scoredPoints db tick retention flags).keys) :
    db.teams.contains pair.1 = true ∧ db.services.contains pair.2 = true ∧
      (servicesById (loadServices db)).contains pair.2 = true := by
  rw [scoredPoints, scored_keys, Dict.mem_keys_iff] at member
  obtain ⟨points, found⟩ := Option.ne_none_iff_exists'.mp member
  obtain ⟨team, service⟩ := initial_points_some _ _ _ _ _ found
  refine ⟨?_, ?_, ?_⟩
  · exact (Dict.contains_iff _ _).mpr ((mem_by_key db.teams pair.1).mp team)
  · rw [load_services_ids] at service
    exact (Dict.contains_iff _ _).mpr ((mem_by_key db.services pair.2).mp service)
  · rw [Dict.contains_iff, Dict.mem_keys_iff]
    exact (services_by_id_known _ _).mpr service

theorem services_keyed (db : Db) (tick retention : Int) (flags : List StolenFlag) :
    servicesKeyed (loadServices db) (scoredPoints db tick retention flags) = true := by
  rw [servicesKeyed, List.all_eq_true]
  exact fun pair member => (scored_pair_known db tick retention flags pair member).2.2

/-! References of the points table. -/

def PointRefs (db : Db) (table : Dict (Int × Int × Int) TeamTickPoints) : Prop :=
  ∀ key ∈ table.keys, db.teams.contains key.2.1 = true ∧ db.services.contains key.2.2 = true

theorem persist_total (env : Settings) (db : Db) (tick retention : Int) (flags : List StolenFlag) :
    ∃ table, persistTickPoints env db tick (scoredPoints db tick retention flags) = .ok table := by
  apply foldlM_total
  intro table entry member
  obtain ⟨team, service, _⟩ := scored_pair_known db tick retention flags entry.1
    (List.mem_map.mpr ⟨entry, member, rfl⟩)
  exact ⟨_, by rw [persistOne, team, service]; rfl⟩

theorem persist_one_cases {env : Settings} {db : Db} {tick : Int}
    {table next : Dict (Int × Int × Int) TeamTickPoints} {entry : Pair × TeamPointsLite}
    (done : persistOne env db tick table entry = .ok next) :
    db.teams.contains entry.1.1 = true ∧ db.services.contains entry.1.2 = true ∧
      next = table.set (tick, entry.1.1, entry.1.2) (toRow env entry.2) := by
  unfold persistOne at done
  split at done
  · next refs =>
    cases done
    rw [Bool.and_eq_true] at refs
    exact ⟨refs.1, refs.2, rfl⟩
  · cases done

theorem persist_refs {env : Settings} {db : Db} {tick : Int} {points : TickPoints}
    {table : Dict (Int × Int × Int) TeamTickPoints} (refs : PointRefs db db.scoring.teamTickPoints)
    (done : persistTickPoints env db tick points = .ok table) : PointRefs db table := by
  refine foldlM_keeps (PointRefs db) ?_ refs done
  intro before entry next _ kept stored key member
  obtain ⟨team, service, same⟩ := persist_one_cases stored
  rw [same, Dict.mem_keys_set] at member
  rcases member with here | old
  · rw [here]
    exact ⟨team, service⟩
  · exact kept key old

theorem snapshot_total (env : Settings) (db : Db) (tick : Int)
    (refs : PointRefs db db.scoring.teamTickPoints) :
    ∃ after, snapshotToScoreTable env db tick = .ok after := by
  unfold snapshotToScoreTable
  split
  · exact ⟨db, rfl⟩
  · next roundId _ =>
    obtain ⟨snapshots, copied⟩ := foldlM_total (f := snapshotOne env db roundId tick)
      (pointsOfTick db tick).entries db.scoring.scoreSnapshots (by
        intro table entry member
        have inside : entry.1 ∈ db.scoring.teamTickPoints.keys :=
          List.mem_map.mpr ⟨entry, (List.mem_filter.mp member).1, rfl⟩
        obtain ⟨team, service⟩ := refs entry.1 inside
        exact ⟨_, by rw [snapshotOne, team, service]; rfl⟩)
    rw [copied]
    exact ⟨_, rfl⟩

/-! The flags of the tick. -/

theorem stolen_flag_ok_iff (before thisTick : List Submission) (row : Submission)
    (counted : scorable row = true) :
    (∃ flag, stolenFlag before thisTick row = .ok flag) ↔ row.targetTeamId ≠ none := by
  simp only [scorable, Bool.and_eq_true, Option.isSome_iff_exists] at counted
  obtain ⟨⟨⟨_, tick, hasTick⟩, service, hasService⟩, payload, hasPayload⟩ := counted
  unfold stolenFlag
  rw [hasTick, hasService, hasPayload]
  cases row.targetTeamId with
  | none => exact ⟨fun ⟨_, done⟩ => (by cases done), fun present => absurd rfl present⟩
  | some target => exact ⟨fun _ => Option.some_ne_none target, fun _ => ⟨_, rfl⟩⟩

theorem landed_scorable {db : Db} {tick : Int} {row : Submission} (member : row ∈ landed db tick) :
    row ∈ db.submissions ∧ scorable row = true := by
  unfold landed at member
  split at member
  · cases member
  · obtain ⟨stored, kept⟩ := List.mem_filter.mp member
    simp only [Bool.and_eq_true] at kept
    exact ⟨stored, kept.1.1⟩

theorem load_flags_ok_iff (db : Db) (tick : Int) :
    (∃ flags, loadFlagsForTick db tick = .ok flags) ↔ ∀ row ∈ landed db tick, row.targetTeamId ≠ none := by
  rw [loadFlagsForTick, mapM_ok_iff]
  constructor
  · exact fun total row member => (stolen_flag_ok_iff _ _ row (landed_scorable member).2).mp
      (total row member)
  · exact fun targets row member => (stolen_flag_ok_iff _ _ row (landed_scorable member).2).mpr
      (targets row member)

/-- _score_tick raises only for a landed submission without target team. -/
theorem score_tick_ok_iff (env : Settings) (db : Db) (tick retention : Int)
    (refs : PointRefs db db.scoring.teamTickPoints) :
    (∃ after, scoreTick env db tick retention = .ok after) ↔
      tick < 1 ∨ db.services.entries = [] ∨ db.teams.entries = [] ∨
        ∀ row ∈ landed db tick, row.targetTeamId ≠ none := by
  constructor
  · rintro ⟨after, done⟩
    rcases score_tick_cases done with ⟨_, early | nobody⟩ | ⟨_, _, _, flags, _, _, _, read, _⟩
    · exact Or.inl early
    · exact Or.inr (nobody.imp_right Or.inl)
    · exact Or.inr (Or.inr (Or.inr ((load_flags_ok_iff db tick).mp ⟨flags, read⟩)))
  · intro condition
    by_cases early : tick < 1
    · exact ⟨db, by rw [scoreTick, if_pos early]⟩
    by_cases nobody : (db.services.entries.isEmpty || db.teams.entries.isEmpty) = true
    · exact ⟨db, by rw [scoreTick, if_neg early, if_pos nobody]⟩
    have targets : ∀ row ∈ landed db tick, row.targetTeamId ≠ none := by
      rw [Bool.or_eq_true, List.isEmpty_iff, List.isEmpty_iff, not_or] at nobody
      rcases condition with first | none_ | none_ | targets
      · exact absurd first early
      · exact absurd none_ nobody.1
      · exact absurd none_ nobody.2
      · exact targets
    obtain ⟨flags, read⟩ := (load_flags_ok_iff db tick).mpr targets
    obtain ⟨table, stored⟩ := persist_total env db tick retention flags
    have kept : PointRefs db table := persist_refs refs stored
    obtain ⟨mirrored, copied⟩ := snapshot_total env
      { db with scoring := { db.scoring with teamTickPoints := table } } tick kept
    refine ⟨refreshScoresSummary env mirrored, ?_⟩
    rw [scoreTick, if_neg early, if_neg nobody, read]
    simp only [bind, Except.bind, services_keyed, ↓reduceIte, stored, copied]
    rfl

/-! The references hold in every reachable state. -/

theorem refs_grow {before after : Db} (same : SameRecords before after)
    (refs : PointRefs before before.scoring.teamTickPoints) :
    PointRefs after after.scoring.teamTickPoints := by
  intro key member
  rw [same.teamTickPoints] at member
  obtain ⟨team, service⟩ := refs key member
  rw [Dict.contains_iff] at team service
  exact ⟨(Dict.contains_iff _ _).mpr (same.teams _ team),
    (Dict.contains_iff _ _).mpr (same.services _ service)⟩

theorem close_previous_refs {env : Settings} {db after : Db} {startedAt tick : Int}
    (refs : PointRefs db db.scoring.teamTickPoints)
    (done : closePrevious env db startedAt tick = .ok after) :
    PointRefs db after.scoring.teamTickPoints := by
  unfold closePrevious at done
  dsimp only at done
  split at done
  · rcases score_tick_cases done with ⟨same, _⟩ | ⟨_, _, _, flags, table, _, _, _, stored, same⟩
    · rw [same]
      exact refs
    · rw [same]
      exact @persist_refs env (finalizeTick db tick startedAt) _ _ _ refs stored
  · cases done
    exact refs

theorem boundary_refs {env : Settings} {db : Db} {startedAt roundId startsAt endsAt : Int}
    {boundary : Boundary} (refs : PointRefs db db.scoring.teamTickPoints)
    (done : runTickBoundary env db startedAt roundId startsAt endsAt = .ok boundary) :
    PointRefs db boundary.db.scoring.teamTickPoints := by
  obtain ⟨_, _, opened⟩ := run_tick_boundary_cases done
  obtain ⟨rounds, same⟩ := ensure_flag_round_frame env db roundId startsAt endsAt
  rw [same] at opened
  rcases opened with ⟨_, first⟩ | ⟨_, closed⟩
  · rw [first]
    exact refs
  · exact @close_previous_refs env { db with flagRounds := rounds } _ _ _ refs closed

theorem rotator_refs {env : Settings} {clock : Int} {db after : Db} {loop next : Loop}
    {event : RotatorEvent} (refs : PointRefs db db.scoring.teamTickPoints)
    (taken : rotatorStep env clock db loop event = some (after, next)) :
    PointRefs db after.scoring.teamTickPoints := by
  unfold rotatorStep at taken
  split at taken
  · cases taken; exact refs
  · cases taken; exact refs
  · split at taken <;> (cases taken; exact refs)
  · split at taken
    · cases taken; exact refs
    · next boundary done =>
      cases taken
      exact boundary_refs refs done
  · split at taken <;> (cases taken; exact refs)
  · cases taken; exact refs
  · cases taken; exact refs
  · cases taken; exact refs
  · split at taken <;> (cases taken; exact refs)
  · cases taken; exact refs
  · cases taken

theorem drop_team_refs {db : Db} (teamId : Int) (refs : PointRefs db db.scoring.teamTickPoints) :
    PointRefs (dropTeam db teamId) (dropTeam db teamId).scoring.teamTickPoints := by
  intro key member
  obtain ⟨entry, inside, same⟩ := List.mem_map.mp member
  obtain ⟨stored, kept⟩ := List.mem_filter.mp inside
  obtain ⟨team, service⟩ := refs key (List.mem_map.mpr ⟨entry, stored, same⟩)
  refine ⟨?_, service⟩
  rw [same] at kept
  obtain ⟨row, found⟩ := (Dict.contains_eq_some _ _).mp team
  refine (Dict.contains_eq_some _ _).mpr ⟨row, ?_⟩
  show (db.teams.filter fun key _ => decide (key ≠ teamId)).get? key.2.1 = some row
  rw [Dict.get_filter, found, Option.filter_some, if_pos kept]

theorem refs_step {env : Settings} {deployment : InitDb.Deployment} {before after : State} {event : Event}
    (refs : PointRefs before.db before.db.scoring.teamTickPoints)
    (taken : step env deployment before event = some after) :
    PointRefs after.db after.db.scoring.teamTickPoints := by
  cases event with
  | clock now => cases taken; exact refs
  | rotator event =>
      obtain ⟨⟨db, loop⟩, moved, same⟩ := Option.map_eq_some_iff.mp taken
      subst same
      have entries := rotator_entries moved
      intro key member
      show db.teams.contains _ = true ∧ db.services.contains _ = true
      rw [entries.teams, entries.services]
      exact rotator_refs refs moved key member
  | submit event =>
      obtain ⟨_, _, same⟩ := Option.map_eq_some_iff.mp taken
      subst same
      exact refs
  | worker event =>
      simp only [step] at taken
      split at taken
      · obtain ⟨_, _, same⟩ := Option.map_eq_some_iff.mp taken
        subst same
        exact refs
      · cases taken
  | admin event =>
      obtain ⟨db, moved, same⟩ := Option.map_eq_some_iff.mp taken
      subst same
      cases event with
      | setDesired desired =>
          simp only [adminStep] at moved
          split at moved
          · cases moved; exact refs
          · cases moved
      | schedule startAt stopAfterTick scoreboardFreezeTick =>
          simp only [adminStep] at moved
          split at moved
          · cases moved; exact refs
          · cases moved
      | createTeam body =>
          cases moved
          exact refs_grow (create_team_records env before.db body) refs
      | updateTeam teamId body =>
          cases moved
          exact refs_grow (update_team_records before.db teamId body) refs
      | deleteTeam teamId =>
          simp only [adminStep] at moved
          split at moved
          · cases moved
          · cases moved
            unfold apiTeamDelete
            split
            · exact refs
            · exact drop_team_refs teamId refs
  | publicSync =>
      simp only [step] at taken
      split at taken
      · cases taken; exact refs
      · cases taken
  | bootstrap =>
      simp only [step] at taken
      split at taken
      · next db done =>
        cases taken
        exact refs_grow (bootstrap_records done) refs
      · cases taken

theorem run_refs {env : Settings} {deployment : InitDb.Deployment} {allowed : State → Event → Prop}
    {clock : Int} {state : State} (run : Steps (step env deployment) allowed (initial clock) state) :
    PointRefs state.db state.db.scoring.teamTickPoints :=
  steps_invariant (fun state => PointRefs state.db state.db.scoring.teamTickPoints)
    (fun _ _ _ refs _ taken => refs_step refs taken) (fun _ member => by cases member) run

/-! Deletions that spare the targets of accepted submissions. -/

def targetsKept (state : State) : Event → Bool
  | .admin (.deleteTeam teamId) =>
      !state.db.submissions.any fun row => row.result = .accepted && row.targetTeamId = some teamId
  | _ => true

def HasTarget (row : Submission) : Prop := row.targetTeamId ≠ none

theorem has_target_step {env : Settings} {deployment : InitDb.Deployment} {before after : State}
    {event : Event} (all : AcceptedAll HasTarget before.db.submissions before.sessions)
    (met : targetsKept before event = true) (taken : step env deployment before event = some after) :
    AcceptedAll HasTarget after.db.submissions after.sessions := by
  rcases step_submissions taken with ⟨submit, _, _, submits⟩ | ⟨teamId, same, _, sessions,
    rows⟩ | ⟨rows, sessions⟩
  · refine accepted_submits all submits ?_
    intro id session context progress flag remaining row _ _ _ new accepted
    obtain ⟨info, _, _, target, _⟩ := new.decoded accepted
    rw [HasTarget, target]
    exact Option.some_ne_none _
  · rw [sessions, rows]
    refine ⟨?_, all.pending⟩
    intro row member accepted
    obtain ⟨old, kept, changed⟩ := List.mem_map.mp member
    have stored := (List.mem_filter.mp kept).1
    rw [same, targetsKept, Bool.not_eq_true', List.any_eq_false] at met
    split at changed
    · next target =>
      subst changed
      exact absurd (by simp [target, show old.result = .accepted from accepted]) (met old stored)
    · subst changed
      exact all.stored old stored accepted
  · rw [sessions, rows]
    exact all

/-- Where deletions spare the targets, _score_tick succeeds for every tick of every
reached state. Without that condition it fails exactly on the ticks in whose window
an accepted submission has lost its target. -/
theorem scoring_blocked_iff (env : Settings) (deployment : InitDb.Deployment) (clock : Int)
    (state : State) :
    (Steps (step env deployment) (fun state event => targetsKept state event = true) (initial clock) state →
      ∀ tick, ∃ after, scoreTick env state.db tick (retentionTicks env) = .ok after) ∧
    (Steps (step env deployment) (fun _ _ => True) (initial clock) state →
      ∀ tick, (∃ after, scoreTick env state.db tick (retentionTicks env) = .ok after) ↔
        tick < 1 ∨ state.db.services.entries = [] ∨ state.db.teams.entries = [] ∨
          ∀ row ∈ landed state.db tick, row.targetTeamId ≠ none) := by
  constructor
  · intro run tick
    have all : AcceptedAll HasTarget state.db.submissions state.sessions := steps_invariant
      (fun state => AcceptedAll HasTarget state.db.submissions state.sessions)
      (fun _ _ _ kept met taken => has_target_step kept met taken) (accepted_initial HasTarget) run
    refine (score_tick_ok_iff env state.db tick _ (run_refs run)).mpr (Or.inr (Or.inr (Or.inr ?_)))
    intro row member
    obtain ⟨stored, counted⟩ := landed_scorable member
    simp only [scorable, Bool.and_eq_true, decide_eq_true_eq] at counted
    exact all.stored row stored counted.1.1.1
  · exact fun run tick => score_tick_ok_iff env state.db tick _ (run_refs run)

/-- Team 1 captures beta's flag in tick 1, a team is deleted, and tick 1 ends. -/
def deletionRun (teamId : Int) : List Event :=
  firstTick ++ submission 0 1 betaFlag ++ [.admin (.deleteTeam teamId), .clock 1120000000] ++ endIteration

def ranWith (teamId : Int) : State :=
  (exec (step sampleSettings sampleDeployment) (fun state event => targetsKept state event = true)
    (initial 1000000000) (deletionRun teamId)).getD (initial 0)

/-- Deleting the NOP team, which nobody captured, leaves tick 1 scorable. -/
theorem spared_target_scores :
    ∃ after, scoreTick sampleSettings (ranWith 3).db 1 (retentionTicks sampleSettings) = .ok after :=
  (scoring_blocked_iff sampleSettings sampleDeployment 1000000000 (ranWith 3)).1
    (exec_steps (deletionRun 3) _ _ (by decide +kernel)) 1

/-- Deleting beta: the next boundary raises, and the iteration ends where it began. -/
theorem deleted_target_blocks :
    ∃ state after, exec (step sampleSettings sampleDeployment) (fun _ _ => True) (initial 1000000000)
        (deletionRun 2 ++ rotate 2) = some state ∧
      step sampleSettings sampleDeployment state (.rotator .next) = some after ∧
      (∃ access round startedAt, state.loop = .boundary .bootstrap access round startedAt ∧
        round.roundId = 2) ∧
      scoreTick sampleSettings state.db 1 (retentionTicks sampleSettings) = .error .typeError ∧
      after.loop = .idle ∧ after.db = state.db := by
  refine ⟨_, _, rfl, rfl, ⟨_, _, _, rfl, rfl⟩, ?_⟩
  decide +kernel

end KosSim.ScoringBlocked
