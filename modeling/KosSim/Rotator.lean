import Mathlib.Data.List.Sort
import Mathlib.Data.List.Dedup
import Mathlib.Algebra.BigOperators.Group.List.Basic
import KosSim.CheckerJobs
import KosSim.Scoring

/-!
rotator.py: the transaction of a tick boundary. It allocates the flag round,
closes the overdue checker jobs of the tick before, and scores that tick from
service_health, submissions and the points of the tick before it. A Python
exception or a broken constraint is an error, and then nothing is written.
-/

namespace KosSim.Rotator
open Library EnoChecker FlagCrypto Schema CheckerJobs Scoring

def byKey {α : Type} (dict : Dict Int α) : List (Int × α) :=
  dict.entries.insertionSort fun one other => one.1 ≤ other.1

/-! Flag rounds. -/

def ensureFlagRound (env : Settings) (db : Db) (roundId startsAt endsAt : Int) : Db × Int :=
  match (db.flagRounds.get? roundId).bind (·.tick) with
  | some tick => (db, tick)
  | none =>
      let nextTick := db.maxTick + 1
      let round : FlagRound := match db.flagRounds.get? roundId with
        | none => ⟨startsAt, endsAt, env.rotationSeconds, some nextTick⟩
        | some row => { row with tick := some nextTick }
      ({ db with flagRounds := db.flagRounds.set roundId round }, nextTick)

def roundIdForTick (db : Db) (tick : Int) : Option Int := (db.roundOfTick tick).map (·.1)

/-! The loaders of _score_tick. -/

def orOne (value : Int) : Int := if value ≠ 0 then value else 1

def loadServices (db : Db) : List ServiceSpec :=
  (byKey db.services).map fun row => ⟨row.1, row.2.name, orOne row.2.numPayloads, orOne row.2.flagsPerTick⟩

def loadTeamIds (db : Db) : List Int × Option Int :=
  let rows := byKey db.teams
  (rows.map (·.1), (rows.filter (·.2.isNop)).getLast?.map (·.1))

def toPoints (tick : Int) (entry : (Int × Int × Int) × TeamTickPoints) : Pair × TeamPointsLite :=
  ((entry.1.2.1, entry.1.2.2),
    ⟨entry.1.2.1, entry.1.2.2, tick, entry.2.offPoints, entry.2.defPoints, entry.2.slaPoints,
      entry.2.slaDelta, entry.2.flagCapturedCount, entry.2.flagStolenCount⟩)

def pointsOfTick (db : Db) (tick : Int) : Dict (Int × Int × Int) TeamTickPoints :=
  db.scoring.teamTickPoints.filter fun key _ => decide (key.1 = tick)

def loadLastTickPoints (db : Db) (priorTick : Int) : TickPoints :=
  if priorTick < 1 then Dict.empty
  else Dict.ofList ((pointsOfTick db priorTick).entries.map (toPoints priorTick))

def storeResult (out : CheckerResults) (entry : HealthKey × ServiceHealth) : CheckerResults :=
  match entry.2.tick with
  | none => out
  | some tick =>
      let bucket := (out.get? tick).getD Dict.empty
      out.set tick (bucket.set (entry.1.1, entry.1.2.1) (entry.2.status, some entry.2.flagAvail))

def loadCheckerResults (db : Db) (ticks : List Int) : CheckerResults :=
  (db.checker.serviceHealth.entries.filter fun entry => ticks.any fun tick =>
    entry.2.tick = some tick).foldl storeResult Dict.empty

/-- Accepted, with tick_issued, service_id and payload all set. -/
def scorable (row : Submission) : Bool :=
  row.result = .accepted && row.tickIssued.isSome && row.serviceId.isSome && row.payload.isSome

def earlier (db : Db) (tick : Int) (row : Submission) : Bool :=
  match db.roundOfTick tick with
  | none => false
  | some (_, round) => decide (row.submittedAt < round.startsAt)

/-- The accepted submissions in the window of the tick's flag round. -/
def landed (db : Db) (tick : Int) : List Submission :=
  match db.roundOfTick tick with
  | none => []
  | some (_, round) => db.submissions.filter fun row =>
      scorable row && decide (round.startsAt ≤ row.submittedAt) && decide (row.submittedAt < round.endsAt)

def addVictim (out : Attacking) (key : FlagKey) (attacker victim : Int) : Attacking :=
  let bucket := (out.get? key).getD Dict.empty
  out.set key (bucket.set attacker (insert victim ((bucket.get? attacker).getD ∅)))

def storeAttack (windowMin retention : Int) (out : Attacking) (row : Submission) : Attacking :=
  match row.tickIssued, row.serviceId, row.payload, row.targetTeamId with
  | some tickIssued, some serviceId, some payload, some target =>
      if tickIssued ≤ windowMin - retention then out
      else addVictim out (tickIssued, serviceId, payload) row.submitterTeamId target
  | _, _, _, _ => out

def loadPrevAttacking (db : Db) (currentTick retention : Int) : Attacking :=
  if currentTick ≤ 1 then Dict.empty
  else
    let windowMin := max 1 (currentTick - retention + 1) - 1
    (db.submissions.filter fun row => scorable row && earlier db currentTick row).foldl
      (storeAttack windowMin retention) Dict.empty

/-- The accepted submissions before the tick's window, whatever their columns. -/
def acceptedBefore (db : Db) (tick : Int) : List Submission :=
  db.submissions.filter fun row => row.result = .accepted && earlier db tick row

def submittersOf (rows : List Submission) (flag : Text) : List Int :=
  ((rows.filter fun row => row.flag = flag).map (·.submitterTeamId)).dedup

/-- One row of _load_flags_for_tick; int(None) raises. -/
def stolenFlag (before thisTick : List Submission) (row : Submission) : Except DbError StolenFlag :=
  match row.targetTeamId, row.serviceId, row.tickIssued, row.payload with
  | some target, some serviceId, some tickIssued, some payload => .ok
      { targetTeamId := target
        submitterTeamId := row.submitterTeamId
        serviceId := serviceId
        tickIssued := tickIssued
        payload := payload
        flag := row.flag
        numPreviousSubmissions := (submittersOf before row.flag).length
        numSubmissions := (submittersOf thisTick row.flag).length
        previousSubmitterIds := (submittersOf before row.flag).insertionSort (· ≤ ·) }
  | _, _, _, _ => .error .typeError

def loadFlagsForTick (db : Db) (currentTick : Int) : Except DbError (List StolenFlag) :=
  (landed db currentTick).mapM (stolenFlag (acceptedBefore db currentTick) (landed db currentTick))

/-! Persistence. -/

def toRow (env : Settings) (points : TeamPointsLite) : TeamTickPoints :=
  ⟨env.numeric points.offPoints, env.numeric points.defPoints, env.numeric points.slaPoints,
    env.numeric points.slaDelta, points.flagCapturedCount, points.flagStolenCount⟩

def persistOne (env : Settings) (db : Db) (tick : Int) (table : Dict (Int × Int × Int) TeamTickPoints)
    (entry : Pair × TeamPointsLite) : Except DbError (Dict (Int × Int × Int) TeamTickPoints) :=
  if db.teams.contains entry.1.1 && db.services.contains entry.1.2 then
    .ok (table.set (tick, entry.1.1, entry.1.2) (toRow env entry.2))
  else .error .foreignKey

def persistTickPoints (env : Settings) (db : Db) (tick : Int) (newPoints : TickPoints) :
    Except DbError (Dict (Int × Int × Int) TeamTickPoints) :=
  newPoints.entries.foldlM (persistOne env db tick) db.scoring.teamTickPoints

/-- DISTINCT ON (team_id, service_id) .. ORDER BY tick DESC -/
def latestRow (table : Dict (Int × Int × Int) TeamTickPoints) (teamId serviceId : Int) :
    Option (Int × TeamTickPoints) :=
  table.entries.foldl (fun best entry =>
    if entry.1.2 = (teamId, serviceId) then
      match best with
      | some (tick, row) => if tick < entry.1.1 then some (entry.1.1, entry.2) else some (tick, row)
      | none => some (entry.1.1, entry.2)
    else best) none

def latestRows (table : Dict (Int × Int × Int) TeamTickPoints) (teamId : Int) : List TeamTickPoints :=
  ((table.entries.filter fun entry => entry.1.2.1 = teamId).map (·.1.2.2)).dedup.filterMap fun serviceId =>
    (latestRow table teamId serviceId).map (·.2)

def summaryOf (env : Settings) (serviceCount : Nat) (rows : List TeamTickPoints) : Score where
  attackPoints := env.numeric (rows.map (·.offPoints)).sum
  defensePoints := env.numeric (rows.map (·.defPoints)).sum
  uptimePoints := env.numeric (rows.map (·.slaPoints)).sum
  hackedPenaltyPoints := 0
  challengePoints := env.numeric (rows.map fun row => row.offPoints + row.defPoints).sum
  slaPoints := if serviceCount = 0 then 0 else env.numeric ((rows.map (·.slaPoints)).sum / serviceCount)
  total := env.numeric (rows.map fun row => (row.offPoints + row.defPoints) * row.slaPoints).sum

def refreshScoresSummary (env : Settings) (db : Db) : Db :=
  let scores := db.scoring.scores.mapEntries fun teamId score =>
    if db.teams.contains teamId then
      summaryOf env db.services.entries.length (latestRows db.scoring.teamTickPoints teamId)
    else score
  { db with scoring := { db.scoring with scores := scores } }

def attackersCount (db : Db) (teamId serviceId : Int) : Int :=
  ((db.submissions.filter fun row => row.result = .accepted && row.targetTeamId = some teamId &&
    row.serviceId = some serviceId).map (·.submitterTeamId)).dedup.length

def healthCount (db : Db) (tick teamId serviceId : Int) (counted : ServiceHealth → Bool) : Int :=
  db.checker.serviceHealth.entries.countP fun entry =>
    entry.1.1 = teamId && entry.1.2.1 = serviceId && counted entry.2 &&
      match entry.2.tick with
      | none => false
      | some healthTick => decide (healthTick ≤ tick)

def snapshotOf (env : Settings) (db : Db) (tick : Int) (entry : (Int × Int × Int) × TeamTickPoints) :
    ScoreSnapshot where
  attackPoints := entry.2.offPoints
  defensePoints := entry.2.defPoints
  uptimePoints := entry.2.slaPoints
  hackedPenaltyPoints := 0
  challengePoints := env.numeric (entry.2.offPoints + entry.2.defPoints)
  serviceTotal := env.numeric ((entry.2.offPoints + entry.2.defPoints) * entry.2.slaPoints)
  flagsCaptured := entry.2.flagCapturedCount
  attackersCount := attackersCount db entry.1.2.1 entry.1.2.2
  victimsCount := entry.2.flagStolenCount
  slaUpCount := healthCount db tick entry.1.2.1 entry.1.2.2 fun health =>
    health.status = .success || health.status = .recovering
  slaTotalCount := healthCount db tick entry.1.2.1 entry.1.2.2 fun _ => true

def snapshotOne (env : Settings) (db : Db) (roundId tick : Int)
    (table : Dict (Int × Int × Int) ScoreSnapshot) (entry : (Int × Int × Int) × TeamTickPoints) :
    Except DbError (Dict (Int × Int × Int) ScoreSnapshot) :=
  if db.teams.contains entry.1.2.1 && db.services.contains entry.1.2.2 then
    .ok (table.set (roundId, entry.1.2.1, entry.1.2.2) (snapshotOf env db tick entry))
  else .error .foreignKey

def snapshotToScoreTable (env : Settings) (db : Db) (tick : Int) : Except DbError Db :=
  match roundIdForTick db tick with
  | none => .ok db
  | some roundId =>
      match (pointsOfTick db tick).entries.foldlM (snapshotOne env db roundId tick)
        db.scoring.scoreSnapshots with
      | .error error => .error error
      | .ok snapshots => .ok { db with scoring := { db.scoring with scoreSnapshots := snapshots } }

/-! _score_tick. -/

def ticksToLoad (tick retention : Int) : List Int := intRange (max 1 (tick - retention + 1)) (tick + 1)

/-- services_by_id[service_id] raises where a key of the new points has no service. -/
def servicesKeyed (services : List ServiceSpec) (points : TickPoints) : Bool :=
  points.keys.all fun pair => (servicesById services).contains pair.2

def scoredPoints (db : Db) (tick retention : Int) (flags : List StolenFlag) : TickPoints :=
  (calculateScoringForTick tick (loadServices db) (loadTeamIds db).1 (loadTeamIds db).2 retention
    (loadCheckerResults db (ticksToLoad tick retention)) (loadLastTickPoints db (tick - 1))
    (loadPrevAttacking db tick retention) flags).1

def scoreTick (env : Settings) (db : Db) (tick retention : Int) : Except DbError Db :=
  if tick < 1 then .ok db
  else if db.services.entries.isEmpty || db.teams.entries.isEmpty then .ok db
  else do
    let flags ← loadFlagsForTick db tick
    let newPoints := scoredPoints db tick retention flags
    if servicesKeyed (loadServices db) newPoints then
      let table ← persistTickPoints env db tick newPoints
      let scored := { db with scoring := { db.scoring with teamTickPoints := table } }
      let mirrored ← snapshotToScoreTable env scored tick
      return refreshScoresSummary env mirrored
    else .error .keyError

/-! The boundary. -/

def enumerateTeamServices (db : Db) : List TeamServiceItem :=
  let joined := db.teamServices.entries.filterMap fun entry =>
    match db.teams.get? entry.1.1, db.services.get? entry.1.2 with
    | some team, some service =>
        if entry.2.enabled then
          some ((team.name, service.name),
            (⟨entry.1.1, entry.1.2, entry.2.host, entry.2.port⟩ : TeamServiceItem))
        else none
    | _, _ => none
  (joined.insertionSort fun one other => one.1.1 < other.1.1 ∨ one.1.1 = other.1.1 ∧
    one.1.2 ≤ other.1.2).map (·.2)

theorem mem_enumerate {db : Db} {pair : Int × Int} {entry : TeamService}
    (found : db.teamServices.get? pair = some entry) (enabled : entry.enabled = true)
    (team : db.teams.contains pair.1 = true) (service : db.services.contains pair.2 = true) :
    (⟨pair.1, pair.2, entry.host, entry.port⟩ : TeamServiceItem) ∈ enumerateTeamServices db := by
  obtain ⟨teamRow, teamFound⟩ := (Dict.contains_eq_some _ _).mp team
  obtain ⟨serviceRow, serviceFound⟩ := (Dict.contains_eq_some _ _).mp service
  unfold enumerateTeamServices
  apply List.mem_map.mpr
  refine ⟨((teamRow.name, serviceRow.name), ⟨pair.1, pair.2, entry.host, entry.port⟩), ?_, rfl⟩
  rw [List.mem_insertionSort, List.mem_filterMap]
  refine ⟨(pair, entry), (Dict.mem_entries_iff _ _ _).mpr found, ?_⟩
  simp only [teamFound, serviceFound, enabled, ↓reduceIte]

structure Boundary where
  db : Db
  tick : Int
  teamServices : List TeamServiceItem
  deriving DecidableEq

def finalizeTick (db : Db) (tick startedAt : Int) : Db :=
  { db with checker := finalizeOverdueCheckerJobs db.checker tick startedAt }

/-- The closing of the tick before the boundary's tick: finalize, then score or defer. -/
def closePrevious (env : Settings) (db : Db) (startedAt tick : Int) : Except DbError Db :=
  let finalized := finalizeTick db tick startedAt
  if checkerTickReady finalized.checker tick then scoreTick env finalized tick (retentionTicks env)
  else .ok finalized

/-- The first transaction of _run_tick_boundary. -/
def runTickBoundary (env : Settings) (db : Db) (startedAt roundId startsAt endsAt : Int) :
    Except DbError Boundary :=
  let (opened, tick) := ensureFlagRound env db roundId startsAt endsAt
  if 1 < tick then
    match closePrevious env opened startedAt (tick - 1) with
    | .error error => .error error
    | .ok closed => .ok ⟨closed, tick, enumerateTeamServices closed⟩
  else .ok ⟨opened, tick, enumerateTeamServices opened⟩

end KosSim.Rotator
