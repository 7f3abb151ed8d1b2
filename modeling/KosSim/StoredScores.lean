import KosSim.Library.Rounding
import KosSim.ScoringInputs
import KosSim.SeasonScores

/-!
The columns of team_tick_points hold four decimals. _score_tick reads the points of the
tick before from them, adds the captures of the tick and writes the sum back, so the
attack score of a service is a sum rounded once for every tick.
-/

namespace KosSim.StoredScores
open Library Schema Scoring ScoringLedger Rotator PlatformFrames ScoringBlocked ScoringInputs Finset
open SeasonScores.Season (attack_points_nonneg)

def fourthDecimal : Rat := 1 / 10000

/-- NUMERIC(14, 4). -/
def numericSettings (env : Settings) : Settings := { env with numeric := roundTo fourthDecimal }

def loadedSpec (serviceId : Int) (row : Service) : ServiceSpec :=
  ⟨serviceId, row.name, orOne row.numPayloads, orOne row.flagsPerTick⟩

/-- _score_tick on the ticks 1 .. n. Between two of them anything may change but the service
and the points that the next one reads back. -/
structure ScoredRun (env : Settings) (retention serviceId : Int) (row : Service) (n : Nat) where
  before : Nat → Db
  after : Nat → Db
  scored : ∀ tick : Nat, 1 ≤ tick → tick ≤ n → scoreTick env (before tick) tick retention = .ok (after tick)
  readBack : ∀ tick : Nat, 1 ≤ tick → tick < n →
    pointsOfTick (before (tick + 1)) tick = pointsOfTick (after tick) tick
  served : ∀ tick : Nat, 1 ≤ tick → tick ≤ n → (before tick).services.get? serviceId = some row

namespace ScoredRun
variable {env : Settings} {retention serviceId : Int} {row : Service} {n : Nat}
  (run : ScoredRun env retention serviceId row n)

def Plays (teamId : Int) : Prop := ∀ tick : Nat, 1 ≤ tick → tick ≤ n → teamId ∈ (run.before tick).teams.keys

def stored (tick : Nat) (teamId : Int) : Option TeamTickPoints :=
  (run.after tick).scoring.teamTickPoints.get? (tick, teamId, serviceId)

end ScoredRun

/-- The stored attack score is within half a unit of the count's worth, and a function of the count. -/
structure NoDrift (env : Settings) (serviceId : Int) (row : Service) : Prop where
  near : ∀ retention n (run : ScoredRun env retention serviceId row n) (tick : Nat) teamId,
    1 ≤ tick → tick ≤ n → run.Plays teamId → ∃ points, run.stored tick teamId = some points ∧
      |points.offPoints - attackPoints (loadedSpec serviceId row) * points.flagCapturedCount| ≤
        fourthDecimal / 2
  fair : ∀ retention n (run : ScoredRun env retention serviceId row n) (tick : Nat) one other
      onePoints otherPoints,
    1 ≤ tick → tick ≤ n → run.Plays one → run.Plays other →
      run.stored tick one = some onePoints → run.stored tick other = some otherPoints →
        onePoints.flagCapturedCount = otherPoints.flagCapturedCount →
        onePoints.offPoints = otherPoints.offPoints

/-! What is read back. -/

theorem loaded_last (db : Db) {prior : Int} (first : 1 ≤ prior) (pair : Pair) :
    (loadLastTickPoints db prior).get? pair =
      ((pointsOfTick db prior).get? (prior, pair.1, pair.2)).map fun row =>
        (toPoints prior ((prior, pair.1, pair.2), row)).2 := by
  rw [loadLastTickPoints, if_neg (by omega)]
  have ofPrior : ∀ entry ∈ (pointsOfTick db prior).entries, entry.1.1 = prior := by
    intro entry member
    exact of_decide_eq_true (List.mem_filter.mp member).2
  cases found : (pointsOfTick db prior).get? (prior, pair.1, pair.2) with
  | some row =>
      apply Dict.of_list_exact
      · exact List.mem_map.mpr ⟨_, (Dict.mem_entries_iff _ _ _).mpr found, rfl⟩
      · intro other listed
        obtain ⟨entry, member, same⟩ := List.mem_map.mp listed
        have key : entry.1 = (prior, pair.1, pair.2) := by
          rw [← ofPrior entry member, ← (Prod.mk.inj same).1]
        have held := (Dict.mem_entries_iff _ entry.1 entry.2).mp member
        rw [key, found] at held
        rw [← (Prod.mk.inj same).2, Option.some.inj held, ← key]
        rfl
  | none =>
      rw [Option.map_none, ← Option.not_isSome_iff_eq_none, Option.isSome_iff_exists]
      rintro ⟨points, held⟩
      obtain ⟨entry, member, same⟩ := List.mem_map.mp (Dict.of_list_some _ _ _ held)
      have key : entry.1 = (prior, pair.1, pair.2) := by
        rw [← ofPrior entry member, ← (Prod.mk.inj same).1]
      have there := (Dict.mem_entries_iff _ entry.1 entry.2).mp member
      rw [key, found] at there
      cases there

/-! One tick. -/

def capturesAt (db : Db) (tick retention teamId serviceId : Int) : Nat :=
  match loadFlagsForTick db tick with
  | .ok flags =>
      flags.countP (isCapture tick retention (loadTeamIds db).2 (loadTeamIds db).1 teamId serviceId)
  | .error _ => 0

def lastOff (last : TickPoints) (pair : Pair) : Rat := ((last.get? pair).map (·.offPoints)).getD 0

def lastCount (last : TickPoints) (pair : Pair) : Int := ((last.get? pair).map (·.flagCapturedCount)).getD 0

theorem accumulate_totals (tick : Int) (last : TickPoints) (pair : Pair) (points : TeamPointsLite) :
    (accumulate tick last pair points).offPoints = points.offPoints + lastOff last pair ∧
      (accumulate tick last pair points).flagCapturedCount =
        points.flagCapturedCount + lastCount last pair := by
  unfold accumulate lastOff lastCount
  cases last.get? pair <;> simp

theorem load_services_distinct (db : Db) : ((loadServices db).map (·.id)).Nodup := by
  rw [load_services_ids]
  exact ((List.perm_insertionSort _ db.services.entries).map Prod.fst).nodup_iff.mpr db.services.distinct

theorem loaded_service {db : Db} {serviceId : Int} {row : Service}
    (found : db.services.get? serviceId = some row) :
    loadedSpec serviceId row ∈ loadServices db := by
  refine List.mem_map.mpr ⟨(serviceId, row), ?_, rfl⟩
  exact (List.mem_insertionSort _).mpr ((Dict.mem_entries_iff _ _ _).mpr found)

section Tick
variable {env : Settings} {db after : Db} {tick retention serviceId teamId : Int} {row : Service}

/-- The stored row of a scored pair: the rounded sum, and the count. -/
theorem score_tick_stored (first : 1 ≤ tick) (served : db.services.get? serviceId = some row)
    (team : teamId ∈ db.teams.keys) (done : scoreTick env db tick retention = .ok after) :
    ∃ points, after.scoring.teamTickPoints.get? (tick, teamId, serviceId) = some points ∧
      points.offPoints = env.numeric (attackPoints (loadedSpec serviceId row) *
        capturesAt db tick retention teamId serviceId + lastOff (loadLastTickPoints db (tick - 1))
        (teamId, serviceId)) ∧
      points.flagCapturedCount = capturesAt db tick retention teamId serviceId +
        lastCount (loadLastTickPoints db (tick - 1)) (teamId, serviceId) := by
  rcases score_tick_cases done with ⟨_, early | nobody⟩ | ⟨_, _, _, flags, table, _, _, read, stored, same⟩
  · omega
  · rcases nobody with services | teams
    · have member := Dict.mem_keys_of_get served
      rw [Dict.keys, services] at member
      cases member
    · rw [Dict.keys, teams] at team
      cases team
  -- The capture count is the one that the closed form of the scores is stated with.
  · obtain ⟨stolen, scored⟩ := scored_pair tick (loadServices db)
      (loadTeamIds db).1 (loadTeamIds db).2 retention
      (loadCheckerResults db (ticksToLoad tick retention)) (loadLastTickPoints db (tick - 1))
      (loadPrevAttacking db tick retention) flags (load_services_distinct db) (loadedSpec serviceId row)
      (loaded_service served) teamId ((mem_by_key db.teams teamId).mpr team)
    have written := persist_written stored (teamId, serviceId) _ scored
    have counted : capturesAt db tick retention teamId serviceId =
        flags.countP (isCapture tick retention (loadTeamIds db).2 (loadTeamIds db).1 teamId serviceId) := by
      rw [capturesAt, read]
    refine ⟨_, by rw [same]; exact written, ?_, ?_⟩
    · rw [toRow, (accumulate_totals _ _ _ _).1, counted]
      rfl
    · rw [toRow, (accumulate_totals _ _ _ _).2, counted]
      rfl

end Tick

/-! The run. -/

namespace ScoredRun
variable {env : Settings} {retention serviceId : Int} {row : Service} {n : Nat}
  (run : ScoredRun env retention serviceId row n)

def captures (teamId : Int) (tick : Nat) : Nat :=
  capturesAt (run.before tick) tick retention teamId serviceId

/-- The attack points of a tick by themselves. -/
def worth (teamId : Int) (tick : Nat) : Rat :=
  attackPoints (loadedSpec serviceId row) * run.captures teamId tick

end ScoredRun

section Run
variable {env : Settings} {retention serviceId : Int} {row : Service} {n : Nat}
  (run : ScoredRun (numericSettings env) retention serviceId row n)

theorem worth_nonneg (teamId : Int) (tick : Nat) : 0 ≤ run.worth teamId tick :=
  mul_nonneg (attack_points_nonneg _) (Nat.cast_nonneg _)

/-- The stored score of a run is the sum rounded after every tick. -/
theorem stored_rounded {teamId : Int} (plays : run.Plays teamId) (tick : Nat) (first : 1 ≤ tick)
    (last : tick ≤ n) :
    ∃ points, run.stored tick teamId = some points ∧
      points.offPoints = roundedSum fourthDecimal (run.worth teamId) tick ∧
      points.flagCapturedCount = ∑ i ∈ Icc 1 tick, (run.captures teamId i : Int) := by
  induction tick, first using Nat.le_induction with
  | base =>
      obtain ⟨points, stored, off, count⟩ := score_tick_stored le_rfl (run.served 1 le_rfl last)
        (plays 1 le_rfl last) (run.scored 1 le_rfl last)
      have nothing : loadLastTickPoints (run.before 1) (1 - 1) = Dict.empty := by
        rw [loadLastTickPoints, if_pos (by omega)]
      refine ⟨points, stored, ?_, ?_⟩
      · rw [off, nothing]
        rfl
      · rw [count, nothing, Icc_self, sum_singleton]
        exact add_zero _
  | succ tick first ih =>
      obtain ⟨prior, held, priorOff, priorCount⟩ := ih (by omega)
      obtain ⟨points, stored, off, count⟩ := score_tick_stored (by omega)
        (run.served (tick + 1) (by omega) last)
        (plays (tick + 1) (by omega) last) (run.scored (tick + 1) (by omega) last)
      -- What the tick before has stored is what this one reads back.
      have readBack : (loadLastTickPoints (run.before (tick + 1)) ((tick + 1 : Nat) - 1 : Int)).get?
          (teamId, serviceId) = some (toPoints tick ((tick, teamId, serviceId), prior)).2 := by
        have before : ((tick + 1 : Nat) - 1 : Int) = tick := by push_cast; ring
        rw [before, loaded_last _ (by omega), run.readBack tick first (by omega), points_get]
        exact congrArg _ held
      refine ⟨points, stored, ?_, ?_⟩
      · rw [off, lastOff, readBack, roundedSum, ← priorOff]
        rfl
      · rw [count, lastCount, readBack, sum_Icc_succ_top (by omega), ← priorCount, add_comm]
        rfl

theorem four_decimals : 0 < fourthDecimal := by norm_num [fourthDecimal]

/-- A worth of four decimals is stored without rounding, and with it every multiple. -/
theorem kept_worth (kept : roundTo fourthDecimal (attackPoints (loadedSpec serviceId row)) =
    attackPoints (loadedSpec serviceId row)) (teamId : Int) (tick : Nat) :
    roundTo fourthDecimal (run.worth teamId tick) = run.worth teamId tick := by
  obtain ⟨units, whole, same⟩ := (round_to_eq_iff four_decimals (attack_points_nonneg _)).mp kept
  apply (round_to_eq_iff four_decimals (worth_nonneg run teamId tick)).mpr
  refine ⟨units * run.captures teamId tick, by positivity, ?_⟩
  rw [ScoredRun.worth, same]
  push_cast
  ring

theorem stored_exact
    (kept : roundTo fourthDecimal (attackPoints (loadedSpec serviceId row)) = attackPoints
      (loadedSpec serviceId row))
    {teamId : Int} (plays : run.Plays teamId) (tick : Nat) (first : 1 ≤ tick) (last : tick ≤ n) :
    ∃ points, run.stored tick teamId = some points ∧
      points.offPoints = attackPoints (loadedSpec serviceId row) * points.flagCapturedCount := by
  obtain ⟨points, stored, off, count⟩ := stored_rounded run plays tick first last
  refine ⟨points, stored, ?_⟩
  rw [off, rounded_sum_exact four_decimals (worth_nonneg run teamId) (kept_worth run kept teamId), count,
    Int.cast_sum, mul_sum]
  exact sum_congr rfl fun i _ => by rw [ScoredRun.worth, Int.cast_natCast]

end Run

/-! A duel with one capture in every tick, to show the drift. -/

section Duel
variable (env : Settings) (serviceId : Int) (row : Service)

def duelTeams : Dict Int Team :=
  Dict.ofList [(1, ⟨"team1", "submit-team1", "team1-nat", false, "XK"⟩),
    (2, ⟨"team2", "submit-team2", "team2-nat", false, "XK"⟩)]

/-- Team 1 submits the flag of team 2 in the tick that issues it. -/
def duelCapture (tick : Nat) : Submission where
  submitterTeamId := 1
  targetTeamId := some 2
  serviceId := some serviceId
  roundId := some tick
  tickIssued := some tick
  payload := some 0
  flag := []
  result := .accepted
  pointsAwarded := 1
  isFirstblood := false
  sourceIp := none
  submittedAt := 0

def duelDb (tick : Nat) (points : Dict (Int × Int × Int) TeamTickPoints) : Db :=
  { emptyDb with
    teams := duelTeams
    services := Dict.empty.set serviceId row
    flagRounds := Dict.empty.set tick ⟨0, 1, 1, some tick⟩
    submissions := [duelCapture serviceId tick]
    scoring := ⟨points, Dict.empty, Dict.empty⟩ }

def duelScored (tick : Nat) (points : Dict (Int × Int × Int) TeamTickPoints) : Db :=
  match scoreTick env (duelDb serviceId row tick points) tick 5 with
  | .ok after => after
  | .error _ => duelDb serviceId row tick points

def duelPoints : Nat → Dict (Int × Int × Int) TeamTickPoints
  | 0 => Dict.empty
  | tick + 1 => (duelScored env serviceId row (tick + 1) (duelPoints tick)).scoring.teamTickPoints

theorem duel_landed (tick : Nat) (points : Dict (Int × Int × Int) TeamTickPoints) :
    landed (duelDb serviceId row tick points) tick = [duelCapture serviceId tick] := by
  have round : (duelDb serviceId row tick points).roundOfTick tick =
      some ((tick : Int), ⟨0, 1, 1, some (tick : Int)⟩) :=
    List.find?_cons_of_pos (decide_eq_true rfl)
  rw [landed, round]
  exact List.filter_cons_of_pos rfl

theorem duel_captures (tick : Nat) (points : Dict (Int × Int × Int) TeamTickPoints) :
    capturesAt (duelDb serviceId row tick points) tick 5 1 serviceId = 1 := by
  have teams : loadTeamIds (duelDb serviceId row tick points) = ([1, 2], none) := by
    show loadTeamIds { emptyDb with teams := duelTeams } = ([1, 2], none)
    decide
  rw [capturesAt, loadFlagsForTick, duel_landed serviceId row]
  simp only [duelCapture, List.mapM_cons, List.mapM_nil, stolenFlag]
  rw [teams]
  simp [bind, Except.bind, pure, Except.pure, isCapture, validFlagSubmission]

theorem duel_ok (tick : Nat) {points : Dict (Int × Int × Int) TeamTickPoints}
    (refs : PointRefs (duelDb serviceId row tick points) points) :
    scoreTick env (duelDb serviceId row tick points) tick 5 =
      .ok (duelScored env serviceId row tick points) := by
  have targets : ∀ submission ∈ landed (duelDb serviceId row tick points) tick,
      submission.targetTeamId ≠ none := by
    rw [duel_landed serviceId row]
    intro submission member
    rw [List.mem_singleton.mp member]
    exact Option.some_ne_none _
  obtain ⟨after, done⟩ := (score_tick_ok_iff env _ tick 5 refs).mpr (.inr (.inr (.inr targets)))
  rw [duelScored, done]

theorem duel_refs (tick : Nat) :
    PointRefs (duelDb serviceId row tick Dict.empty) (duelPoints env serviceId row tick) := by
  induction tick with
  | zero => exact fun key member => (List.not_mem_nil member).elim
  | succ tick ih =>
      rcases score_tick_cases (duel_ok env serviceId row (tick + 1) ih) with
        ⟨same, _⟩ | ⟨_, _, _, flags, table, _, _, _, stored, same⟩
      · rw [duelPoints, same]
        exact ih
      · rw [duelPoints, same]
        have kept : PointRefs (duelDb serviceId row (tick + 1) (duelPoints env serviceId row tick)) table :=
          persist_refs ih stored
        exact kept

def duelRun (n : Nat) : ScoredRun env 5 serviceId row n where
  before := fun tick => duelDb serviceId row tick (duelPoints env serviceId row (tick - 1))
  after := fun tick => duelScored env serviceId row tick (duelPoints env serviceId row (tick - 1))
  scored := fun tick _ _ => duel_ok env serviceId row tick (duel_refs env serviceId row (tick - 1))
  readBack := by
    intro tick first _
    obtain ⟨before, rfl⟩ := Nat.exists_eq_add_of_le' first
    rfl
  served := fun tick _ _ => Dict.get_set_self _ _ _

theorem duel_plays (n : Nat) : (duelRun env serviceId row n).Plays 1 :=
  fun _ _ _ => show (1 : Int) ∈ duelTeams.keys by decide

end Duel

/-- Stored attack scores keep to the count exactly for the services whose attack points fit the column. -/
theorem no_drift_iff (env : Settings) (serviceId : Int) (row : Service) :
    NoDrift (numericSettings env) serviceId row ↔
      roundTo fourthDecimal (attackPoints (loadedSpec serviceId row)) =
        attackPoints (loadedSpec serviceId row) := by
  constructor
  · intro keeps
    -- The duel captures once a tick, so its stored score is n roundings of one addend.
    by_contra lost
    obtain ⟨n, first, drift⟩ :=
      rounded_sum_drifts four_decimals (attack_points_nonneg _) lost (fourthDecimal / 2)
    let run := duelRun (numericSettings env) serviceId row n
    obtain ⟨points, stored, near⟩ := keeps.near 5 n run n 1 first le_rfl (duel_plays _ _ _ n)
    obtain ⟨same, held, off, count⟩ := stored_rounded run (duel_plays _ _ _ n) n first le_rfl
    have single : ∀ tick, run.captures 1 tick = 1 := fun tick => duel_captures serviceId row tick _
    have worth : run.worth 1 = fun _ => attackPoints (loadedSpec serviceId row) := by
      funext tick
      rw [ScoredRun.worth, single, Nat.cast_one, mul_one]
    rw [stored, Option.some.injEq] at held
    rw [held, off, worth, count] at near
    simp only [single, Nat.cast_one, sum_const, Nat.card_Icc, nsmul_eq_mul, mul_one, Nat.add_sub_cancel,
      Int.cast_natCast] at near
    exact absurd near (not_le.mpr drift)
  · intro kept
    constructor
    · intro retention n run tick teamId first last plays
      obtain ⟨points, stored, off⟩ := stored_exact run kept plays tick first last
      refine ⟨points, stored, ?_⟩
      rw [off, sub_self, abs_zero]
      exact (half_pos four_decimals).le
    · intro retention n run tick one other onePoints otherPoints first last onePlays otherPlays
          oneStored otherStored same
      obtain ⟨points, stored, off⟩ := stored_exact run kept onePlays tick first last
      obtain ⟨otherRow, otherHeld, otherOff⟩ := stored_exact run kept otherPlays tick first last
      rw [oneStored, Option.some.injEq] at stored
      rw [otherStored, Option.some.injEq] at otherHeld
      rw [stored, otherHeld, off, otherOff, ← stored, ← otherHeld, same]

def thirds : Service := ⟨"svc", none, 8000, 3, 3⟩

def thirdsRun : ScoredRun (numericSettings (defaultSettings fun _ => [])) 5 7 thirds 2 :=
  duelRun _ 7 thirds 2

/-- Three flag stores and one capture in each of two ticks: 6.6666 is stored for 20/3. -/
theorem thirds_drift : ∃ points, thirdsRun.stored 2 1 = some points ∧ points.flagCapturedCount = 2 ∧
    points.offPoints = 33333 / 5000 ∧
    ¬|points.offPoints - attackPoints (loadedSpec 7 thirds) * points.flagCapturedCount| ≤
      fourthDecimal / 2 := by
  obtain ⟨points, stored, off, count⟩ := stored_rounded thirdsRun (duel_plays _ _ _ 2) 2 (by omega) le_rfl
  have single : ∀ tick, thirdsRun.captures 1 tick = 1 := fun tick => duel_captures 7 thirds tick _
  have spec : attackPoints (loadedSpec 7 thirds) = 10 / 3 := by
    norm_num [attackPoints, baseAttackPoints, flagstoreCount, firstNonzero, loadedSpec, orOne, thirds]
  have worth : thirdsRun.worth 1 = fun _ => 10 / 3 := by
    funext tick
    rw [ScoredRun.worth, single, spec, Nat.cast_one, mul_one]
  have rounded : roundedSum fourthDecimal (fun _ => 10 / 3) 2 = 33333 / 5000 := by
    norm_num [roundedSum, roundTo, roundHalfAway, fourthDecimal]
  have two : points.flagCapturedCount = 2 := by simp [count, single]
  rw [worth, rounded] at off
  refine ⟨points, stored, two, off, ?_⟩
  rw [off, two, spec, fourthDecimal]
  norm_num [abs_le]

end KosSim.StoredScores
