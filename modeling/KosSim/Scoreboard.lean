import KosSim.Rotator

/-!
main.py and scoreboard_api.py: what the public scoreboard shows. Every part of an
answer comes from its own query. Floats are exact rationals until `_points` and
the other roundings, which are parameters, as are the weights of the environment.
-/

namespace KosSim.Scoreboard
open Library EnoChecker FlagCrypto Schema Rotator

structure View where
  points : Rat → Rat                       -- round(float(value), 4)
  percent : Rat → Rat                      -- round(value, 2)
  attackPoints : Rat                       -- ATTACK_POINTS
  defenseSuccessPoints : Rat               -- DEFENSE_SUCCESS_POINTS
  maxAcceptedPerRound : Int

/-- The database with the columns that only the scoreboard reads, and the constraints it relies on. -/
structure Board where
  db : Db
  submissionIds : List Int                 -- submissions.id, row by row
  checkedAt : HealthKey → Int              -- service_health.checked_at
  aligned : submissionIds.length = db.submissions.length
  idsDistinct : submissionIds.Nodup
  flagsDistinct : (db.submissions.map fun row => (row.submitterTeamId, row.flag)).Nodup
  references : ∀ row ∈ db.submissions, submissionRefs db row = true
  ticksDistinct : (db.flagRounds.entries.filterMap fun entry => entry.2.tick).Nodup

def Board.submissions (board : Board) : List (Int × Submission) :=
  board.submissionIds.zip board.db.submissions

/-! Ranking. -/

structure TeamRow where
  teamId : Int
  teamName : String
  natAlias : String
  countryCode : String
  total : Rat
  deriving DecidableEq

def shown (includeNop : Bool) (team : Team) : Bool := includeNop || !team.isNop

/-- ORDER BY total DESC, t.name ASC -/
def ranksBefore (one other : TeamRow) : Prop :=
  other.total < one.total ∨ one.total = other.total ∧ one.teamName ≤ other.teamName

instance (one other : TeamRow) : Decidable (ranksBefore one other) := inferInstanceAs (Decidable (_ ∨ _))

def teamRow (entry : Int × Team) (total : Rat) : TeamRow :=
  ⟨entry.1, entry.2.name, entry.2.natAlias, entry.2.countryCode, total⟩

def scoreboardRows (db : Db) (includeNop : Bool) : List TeamRow :=
  ((db.teams.entries.filter fun entry => shown includeNop entry.2).filterMap fun entry =>
    (db.scoring.scores.get? entry.1).map fun score => teamRow entry score.total).insertionSort ranksBefore

/-- The round's tick, as JOIN flag_rounds fr ON fr.round_id = .. reads it. -/
def tickOf (db : Db) (roundId : Int) : Option Int := (db.flagRounds.get? roundId).bind (·.tick)

def snapshotsAtTick (db : Db) (tick : Int) : Dict (Int × Int × Int) ScoreSnapshot :=
  db.scoring.scoreSnapshots.filter fun key _ => decide (tickOf db key.1 = some tick)

def totalAtTick (db : Db) (tick teamId : Int) : Rat :=
  (((snapshotsAtTick db tick).entries.filter fun entry => entry.1.2.1 = teamId).map (·.2.serviceTotal)).sum

def scoreboardRowsAtTick (db : Db) (tick : Int) (includeNop : Bool) : List TeamRow :=
  ((db.teams.entries.filter fun entry => shown includeNop entry.2).map fun entry =>
    teamRow entry (totalAtTick db tick entry.1)).insertionSort ranksBefore

def snapshotTicks (db : Db) : List Int :=
  db.scoring.scoreSnapshots.entries.filterMap fun entry => tickOf db entry.1.1

def latestScoredTick (db : Db) : Option Int → Option Int
  | none => (snapshotTicks db).max?
  | some currentTick => ((snapshotTicks db).filter fun tick => tick ≤ currentTick).max?

/-! The numbers of one team on one service. -/

structure Stats where
  attackPoints : Rat := 0
  defensePoints : Rat := 0
  uptimePoints : Rat := 0
  challengePoints : Rat := 0
  serviceTotal : Rat := 0
  flagsCaptured : Int := 0
  attackersCount : Int := 0
  victimsCount : Int := 0
  slaUpCount : Int := 0
  slaTotalCount : Int := 0
  deriving DecidableEq

abbrev StatsTable := Dict (Int × Int) Stats

def snapshotStats (view : View) (row : ScoreSnapshot) : Stats where
  attackPoints := view.points row.attackPoints
  defensePoints := view.points row.defensePoints
  uptimePoints := view.points row.uptimePoints
  challengePoints := view.points row.challengePoints
  serviceTotal := view.points row.serviceTotal
  flagsCaptured := row.flagsCaptured
  attackersCount := row.attackersCount
  victimsCount := row.victimsCount
  slaUpCount := row.slaUpCount
  slaTotalCount := row.slaTotalCount

/-- int(row["sla_total_count"] or 1) -/
def atLeastOneCheck (stats : Stats) : Stats := { stats with slaTotalCount := orOne stats.slaTotalCount }

def shownTeam (db : Db) (includeNop : Bool) (teamId : Int) : Bool :=
  match db.teams.get? teamId with
  | some team => shown includeNop team
  | none => false

def statsAtTick (view : View) (db : Db) (tick : Int) (includeNop : Bool) : StatsTable :=
  Dict.ofList (((snapshotsAtTick db tick).entries.filter fun entry =>
    shownTeam db includeNop entry.1.2.1).map
    fun entry => (entry.1.2, atLeastOneCheck (snapshotStats view entry.2)))

def previousTickSnapshots (view : View) (db : Db) : Option Int → StatsTable
  | none => Dict.empty
  | some currentTick =>
      if currentTick ≤ 1 then Dict.empty
      else Dict.ofList ((snapshotsAtTick db (currentTick - 1)).entries.map fun entry =>
        (entry.1.2, snapshotStats view entry.2))

def accepted (db : Db) : List Submission := db.submissions.filter fun row => row.result = .accepted

/-- Whether a flag of the team's service was captured in the round of the health row. -/
def captured (db : Db) (key : HealthKey) : Bool :=
  (accepted db).any fun row => row.targetTeamId = some key.1 && row.serviceId = some key.2.1 &&
    row.roundId = some key.2.2

def healthRows (db : Db) (teamId serviceId : Int) : List (HealthKey × ServiceHealth) :=
  db.checker.serviceHealth.entries.filter fun entry => entry.1.1 = teamId && entry.1.2.1 = serviceId

def fallbackStats (view : View) (db : Db) (teamId serviceId : Int) : Stats :=
  let service := db.services.get? serviceId
  let perTick := max ((service.map (·.flagsPerTick)).getD 1) 1
  let captures := (accepted db).filter fun row =>
    row.submitterTeamId = teamId && row.serviceId = some serviceId && service.isSome
  let attackers := (accepted db).filter fun row =>
    row.targetTeamId = some teamId && row.serviceId = some serviceId
  let checks := healthRows db teamId serviceId
  let defended := checks.filter fun entry => entry.2.isUp && !captured db entry.1 && service.isSome
  let up := (checks.filter fun entry => entry.2.isUp).length
  let attack : Rat := captures.length * (view.attackPoints / perTick)
  let defense : Rat := defended.length * view.defenseSuccessPoints * perTick
  let sla : Rat := if checks.length = 0 then 0 else up / checks.length
  { attackPoints := view.points attack
    defensePoints := view.points defense
    uptimePoints := view.points sla
    challengePoints := view.points (attack + defense)
    serviceTotal := view.points ((attack + defense) * sla)
    flagsCaptured := captures.length
    attackersCount := (attackers.map (·.submitterTeamId)).dedup.length
    victimsCount := (captures.filterMap (·.targetTeamId)).dedup.length
    slaUpCount := up
    slaTotalCount := checks.length }

/-- The fallback without snapshots: it counts the whole tables. -/
def perServiceStats (view : View) (db : Db) (includeNop : Bool) : StatsTable :=
  Dict.ofList ((db.teamServices.entries.filter fun entry => shownTeam db includeNop entry.1.1).map
    fun entry =>
    (entry.1, fallbackStats view db entry.1.1 entry.1.2))

structure ServiceRow where
  id : Int
  slug : String
  displayName : String
  deriving DecidableEq

/-- COALESCE(NULLIF(display_name, ''), name) -/
def serviceLabel (service : Service) : String :=
  match service.displayName with
  | some label => if label = "" then service.name else label
  | none => service.name

def servicesList (db : Db) : List ServiceRow :=
  (byKey db.services).map fun entry => ⟨entry.1, entry.2.name, serviceLabel entry.2⟩

/-! Checker status. -/

structure CheckInfo where
  status : CheckerStatus
  flagAvail : List ((Int × Int) × FlagAvail)
  deriving DecidableEq

/-- DISTINCT ON (team_id, service_id) .. WHERE sh.tick = .. ORDER BY checked_at DESC -/
def checkerStatusAtTick (board : Board) (tick teamId serviceId : Int) : Option CheckInfo :=
  let rows := ((healthRows board.db teamId serviceId).filter fun entry => entry.2.tick = some tick).map
    fun entry => (board.checkedAt entry.1, entry.2)
  (rows.insertionSort fun one other => other.1 ≤ one.1).head?.map
    fun row => ⟨row.2.status, row.2.flagAvail.entries⟩

/-! Submissions on the board. -/

structure CaptureEvent where
  id : Int
  timestamp : Int
  attackerTeam : String
  attackerCountry : String
  victimTeam : Option String
  victimCountry : Option String
  serviceId : Option Int
  serviceName : Option String              -- and service_display_name
  serviceSlug : Option String
  tickIssued : Option Int
  payload : Option Int
  isFirstblood : Bool
  deriving DecidableEq

/-- JOIN teams attacker, LEFT JOIN teams victim -/
def parties (db : Db) (row : Submission) : Option (Team × Option Team) :=
  (db.teams.get? row.submitterTeamId).map fun attacker => (attacker, row.targetTeamId.bind db.teams.get?)

def shownParties (db : Db) (includeNop : Bool) (row : Submission) : Bool :=
  match parties db row with
  | some (attacker, victim) => shown includeNop attacker && (victim.map (shown includeNop)).getD true
  | none => false

def eventFromRow (db : Db) (row : Int × Submission) : Option CaptureEvent :=
  (parties db row.2).map fun teams =>
    let service := row.2.serviceId.bind db.services.get?
    { id := row.1
      timestamp := row.2.submittedAt
      attackerTeam := teams.1.name
      attackerCountry := teams.1.countryCode
      victimTeam := teams.2.map (·.name)
      victimCountry := teams.2.map (·.countryCode)
      serviceId := service.bind fun _ => row.2.serviceId
      serviceName := service.map serviceLabel
      serviceSlug := service.map (·.name)
      tickIssued := row.2.tickIssued
      payload := row.2.payload
      isFirstblood := row.2.isFirstblood }

/-- The accepted rows between teams that are shown. -/
def shownCaptures (board : Board) (includeNop : Bool) : List (Int × Submission) :=
  board.submissions.filter fun row => row.2.result = .accepted && shownParties board.db includeNop row.2

def oldestFirst (one other : Int × Submission) : Prop :=
  one.2.submittedAt < other.2.submittedAt ∨ one.2.submittedAt = other.2.submittedAt ∧ one.1 ≤ other.1

def newestFirst (one other : Int × Submission) : Prop := oldestFirst other one

instance (one other : Int × Submission) : Decidable (oldestFirst one other) :=
  inferInstanceAs (Decidable (_ ∨ _))

instance (one other : Int × Submission) : Decidable (newestFirst one other) :=
  inferInstanceAs (Decidable (_ ∨ _))

def serviceFirstBloods (board : Board) (includeNop : Bool) (serviceId : Int) : Option CaptureEvent :=
  let rows := (shownCaptures board includeNop).filter fun row =>
    row.2.isFirstblood && row.2.serviceId = some serviceId && board.db.services.contains serviceId
  (rows.insertionSort oldestFirst).head?.bind (eventFromRow board.db)

structure Activity where
  attackersCount : Int
  victimsCount : Int
  deriving DecidableEq

def activityOf (rows : List (Int × Submission)) : Activity :=
  ⟨(rows.map (·.2.submitterTeamId)).dedup.length, (rows.filterMap (·.2.targetTeamId)).dedup.length⟩

/-- A group without service makes int(None) raise. -/
def serviceActivityCounts (board : Board) (includeNop : Bool) :
    Except DbError (Int → Option Activity) :=
  if (shownCaptures board includeNop).any fun row => row.2.serviceId.isNone then .error .typeError
  else .ok fun serviceId =>
    let rows := (shownCaptures board includeNop).filter fun row => row.2.serviceId = some serviceId
    if rows = [] then none else some (activityOf rows)

structure TickActivity where
  tick : Option Int
  captureCount : Int
  firstBloodCount : Int
  activity : Activity
  captures : List CaptureEvent
  firstBloods : List CaptureEvent
  deriving DecidableEq

def landedCaptures (board : Board) (includeNop : Bool) (tick : Int) : List (Int × Submission) :=
  match board.db.roundOfTick tick with
  | none => []
  | some (_, round) => (shownCaptures board includeNop).filter fun row =>
      decide (round.startsAt ≤ row.2.submittedAt) && decide (row.2.submittedAt < round.endsAt)

/-- The limits are the defaults: 24 captures and 8 first bloods. -/
def tickActivity (board : Board) (includeNop : Bool) : Option Int → TickActivity
  | none => ⟨none, 0, 0, ⟨0, 0⟩, [], []⟩
  | some tick =>
      let rows := landedCaptures board includeNop tick
      let firsts := rows.filter (·.2.isFirstblood)
      { tick := some tick
        captureCount := rows.length
        firstBloodCount := firsts.length
        activity := activityOf rows
        captures := ((rows.insertionSort newestFirst).take 24).filterMap (eventFromRow board.db)
        firstBloods := ((firsts.insertionSort newestFirst).take 8).filterMap (eventFromRow board.db) }

/-! _build_scoreboard_data. -/

structure Cell where
  serviceName : String                     -- and service_display_name
  serviceSlug : String
  stats : Stats                            -- its two SLA counts only give slaPct
  serviceDelta : Rat
  attackDelta : Rat
  defenseDelta : Rat
  uptimeDelta : Rat
  challengeDelta : Rat
  flagsDelta : Int
  attackersDelta : Int
  victimsDelta : Int
  slaPct : Rat
  slaDelta : Rat
  checkerStatus : CheckerStatus
  isUp : Bool
  putStatus : MethodStatus
  getStatus : MethodStatus
  havocStatus : MethodStatus
  deriving DecidableEq

def slaPct (view : View) (up total : Int) : Rat :=
  if total ≤ 0 then 100 else view.percent ((up : Rat) / total * 100)

def serviceCell (view : View) (service : ServiceRow) (cur prev : Stats) (check : Option CheckInfo)
    (displayTick : Option Int) : Cell :=
  let now := slaPct view cur.slaUpCount cur.slaTotalCount
  let before := slaPct view prev.slaUpCount prev.slaTotalCount
  let status := (check.map (·.status)).getD .offline
  let methods := deriveMethodStatuses status ((check.map (·.flagAvail)).getD []) displayTick
  let attack := max (view.points (cur.attackPoints - prev.attackPoints)) 0
  let defense := max (view.points (cur.defensePoints - prev.defensePoints)) 0
  { serviceName := service.displayName
    serviceSlug := service.slug
    stats := cur
    serviceDelta := view.points (cur.serviceTotal - prev.serviceTotal)
    attackDelta := attack
    defenseDelta := defense
    uptimeDelta := max (view.points (cur.uptimePoints - prev.uptimePoints)) 0
    challengeDelta := view.points (attack + defense)
    flagsDelta := cur.flagsCaptured - prev.flagsCaptured
    attackersDelta := cur.attackersCount - prev.attackersCount
    victimsDelta := cur.victimsCount - prev.victimsCount
    slaPct := now
    slaDelta := view.percent (now - before)
    checkerStatus := status
    isUp := EnoChecker.isUp status
    putStatus := methods.1
    getStatus := methods.2.1
    havocStatus := methods.2.2 }

structure Totals where
  attackPoints : Rat
  defensePoints : Rat
  uptimePoints : Rat
  serviceTotal : Rat
  flagsCaptured : Int
  attackersCount : Int
  victimsCount : Int
  deriving DecidableEq

def totalsOf (cells : List Cell) : Totals where
  attackPoints := (cells.map (·.stats.attackPoints)).sum
  defensePoints := (cells.map (·.stats.defensePoints)).sum
  uptimePoints := (cells.map (·.stats.uptimePoints)).sum
  serviceTotal := (cells.map (·.stats.serviceTotal)).sum
  flagsCaptured := (cells.map (·.stats.flagsCaptured)).sum
  attackersCount := (cells.map (·.stats.attackersCount)).sum
  victimsCount := (cells.map (·.stats.victimsCount)).sum

structure BoardRow where
  rank : Nat
  teamId : Int
  teamName : String
  natAlias : String
  countryCode : String
  total : Rat
  totalDelta : Rat
  serviceCells : List (Int × Cell)
  totals : Totals
  deriving DecidableEq

def orXK (code : String) : String := if code = "" then "XK" else code

def boardRow (view : View) (services : List ServiceRow) (cell : Int → ServiceRow → Cell)
    (ranked : TeamRow × Nat) :
    BoardRow :=
  let cells := services.map fun service => (service.id, cell ranked.1.teamId service)
  { rank := ranked.2 + 1
    teamId := ranked.1.teamId
    teamName := ranked.1.teamName
    natAlias := ranked.1.natAlias
    countryCode := orXK ranked.1.countryCode
    total := view.points ranked.1.total
    totalDelta := view.points ((cells.map (·.2.serviceDelta)).sum)
    serviceCells := cells
    totals := totalsOf (cells.map (·.2)) }

structure ServiceTop where
  teamName : String
  countryCode : String
  attackersCount : Int
  victimsCount : Int
  serviceTotal : Rat
  firstBlood : Option CaptureEvent
  deriving DecidableEq

/-- The row with the greatest service_total above -1; the first one wins a tie. -/
def bestRow (serviceId : Int) (best : Option (BoardRow × Rat)) (row : BoardRow) : Option (BoardRow × Rat) :=
  match row.serviceCells.lookup serviceId with
  | none => best
  | some cell =>
      if (best.map (·.2)).getD (-1) <
        cell.stats.serviceTotal then some (row, cell.stats.serviceTotal) else best

def fromFirstBlood (activity : Activity) (event : CaptureEvent) : ServiceTop where
  teamName := event.attackerTeam
  countryCode := orXK event.attackerCountry
  attackersCount := max activity.attackersCount 1
  victimsCount := max activity.victimsCount (if (event.victimTeam.getD "") = "" then 0 else 1)
  serviceTotal := 0
  firstBlood := some event

def serviceTopTeam (rows : List BoardRow) (serviceId : Int) (firstBlood : Option CaptureEvent)
    (activity : Option Activity) : Option ServiceTop :=
  let seen := activity.getD ⟨0, 0⟩
  match rows.foldl (bestRow serviceId) none with
  | none => firstBlood.map (fromFirstBlood seen)
  | some (row, score) =>
      if score ≤ 0 ∧ seen.attackersCount ≤ 0 ∧ seen.victimsCount ≤ 0 ∧ firstBlood = none then none
      else some ⟨row.teamName, row.countryCode, seen.attackersCount, seen.victimsCount, score, firstBlood⟩

def effectiveFreezeTick (env : Settings) (db : Db) : Option Int :=
  let timer := (GameTimer.loadTimer env db.gameState).timer
  match timer.scoreboardFreezeTick with
  | none => none
  | some freeze => if freeze < 1 then none else if freeze ≤ timer.currentTick then some freeze else none

structure ScoreboardData where
  services : List ServiceRow
  rows : List BoardRow
  serviceTops : List (Int × Option ServiceTop)
  displayTick : Option Int
  activity : TickActivity
  frozen : Bool
  freezeTick : Option Int
  deriving DecidableEq

def liveTick (env : Settings) (db : Db) : Option Int :=
  let timer := (GameTimer.loadTimer env db.gameState).timer
  if 1 ≤ timer.currentTick then some timer.currentTick else none

def displayTick (env : Settings) (db : Db) (freezeTick : Option Int) : Option Int :=
  match freezeTick with
  | some freeze => latestScoredTick db (some freeze)
  | none => latestScoredTick db (liveTick env db)

def teamsShown (db : Db) (includeNop : Bool) : Option Int → List TeamRow
  | some tick => scoreboardRowsAtTick db tick includeNop
  | none => scoreboardRows db includeNop

def statsShown (view : View) (db : Db) (includeNop : Bool) : Option Int → StatsTable
  | some tick => statsAtTick view db tick includeNop
  | none => perServiceStats view db includeNop

/-- No statuses where display_tick is 0 or None. -/
def checkShown (board : Board) (tick : Option Int) (teamId serviceId : Int) : Option CheckInfo :=
  match tick with
  | some tick => if tick = 0 then none else checkerStatusAtTick board tick teamId serviceId
  | none => none

def cellShown (view : View) (board : Board) (includeNop : Bool) (tick : Option Int) (teamId : Int)
    (service : ServiceRow) : Cell :=
  serviceCell view service (((statsShown view board.db includeNop tick).get? (teamId, service.id)).getD {})
    (((previousTickSnapshots view board.db tick).get? (teamId, service.id)).getD {})
    (checkShown board tick teamId service.id) tick

def boardRows (view : View) (board : Board) (includeNop : Bool) (tick : Option Int) : List BoardRow :=
  (teamsShown board.db includeNop tick).zipIdx.map
    (boardRow view (servicesList board.db) (cellShown view board includeNop tick))

def buildScoreboardData (env : Settings) (view : View) (board : Board) (includeNop frozen : Bool) :
    Except DbError ScoreboardData :=
  let freezeTick := if frozen then effectiveFreezeTick env board.db else none
  let tick := displayTick env board.db freezeTick
  let rows := boardRows view board includeNop tick
  match serviceActivityCounts board includeNop with
  | .error error => .error error
  | .ok activity => .ok
      { services := servicesList board.db
        rows := rows
        serviceTops := (servicesList board.db).map fun service => (service.id,
          serviceTopTeam rows service.id (serviceFirstBloods board includeNop service.id)
          (activity service.id))
        displayTick := tick
        activity := tickActivity board includeNop tick
        frozen := freezeTick.isSome
        freezeTick := freezeTick }

/-! scoreboard_api.py. Times of the answer are epoch seconds, `now` is time.time(). -/

structure Answer where
  generatedAt : Int
  rotationSeconds : Int
  roundId : Int
  gameState : CTFState
  desiredState : CTFState
  startAt : Option Int
  stopAfterTick : Option Int
  nextTickAtEpoch : Int
  secondsToNextTick : Int
  maxAcceptedPerTeamPerRound : Int
  data : ScoreboardData
  deriving DecidableEq

/-- _scoreboard_timing commits the sync of a scheduled start. -/
def syncedTimer (env : Settings) (db : Db) (now : Int) : GameTimer.Access :=
  let access := GameTimer.loadTimer env db.gameState
  GameTimer.syncScheduledStart env access.timer (some access.row) now

def synced (env : Settings) (board : Board) (now : Int) : Board :=
  { board with
    db := { board.db with gameState := some (syncedTimer env board.db now).row }
    references := board.references }

inductive ScoreboardError where
  | unauthorized                           -- 401, "Admin authentication required"
  | failed (error : DbError)
  deriving DecidableEq

/-- `value or default` on an optional epoch. -/
def orEpoch (value : Option Int) (default : Int) : Int :=
  match value with
  | some epoch => if epoch = 0 then default else epoch
  | none => default

def scoreboard (env : Settings) (view : View) (board : Board) (now : Int)
    (internal includeNop isPublic : Bool) :
    Except ScoreboardError Answer :=
  if includeNop && !internal then .error .unauthorized
  else
    let after := synced env board now
    let timer :=
      GameTimer.load (syncedTimer env board.db now).timer (some (syncedTimer env board.db now).row)
    let nextTick := orEpoch timer.tickEnd (now + env.rotationSeconds)
    match buildScoreboardData env view after (includeNop && internal) (isPublic || !internal) with
    | .error error => .error (.failed error)
    | .ok data => .ok
        { generatedAt := now
          rotationSeconds := env.rotationSeconds
          roundId := if 1 ≤ timer.currentTick then timer.currentTick else 0
          gameState := timer.state
          desiredState := timer.desiredState
          startAt := timer.startAt
          stopAfterTick := timer.stopAfterTick
          nextTickAtEpoch := nextTick
          secondsToNextTick := if orEpoch timer.tickEnd 0 = 0 then 0 else max 0 (nextTick - now)
          maxAcceptedPerTeamPerRound := view.maxAcceptedPerRound
          data := data }

structure FirstbloodEvent where
  id : Int
  timestamp : Int
  submitterTeam : String
  submitterCountry : String
  targetTeam : Option String
  targetCountry : Option String
  service : Option String                  -- and service_display_name
  serviceSlug : Option String
  tickIssued : Option Int
  payload : Option Int
  deriving DecidableEq

def firstbloodEvent (event : CaptureEvent) : FirstbloodEvent :=
  ⟨event.id, event.timestamp, event.attackerTeam, event.attackerCountry, event.victimTeam,
    event.victimCountry, event.serviceName, event.serviceSlug, event.tickIssued, event.payload⟩

/-- The toast feed; `since` is in microseconds here. -/
def firstbloods (board : Board) (since : Option Int) (limit : Int) : List FirstbloodEvent :=
  let rows := board.submissions.filter fun row => row.2.isFirstblood &&
    match since with
    | some since => decide (since ≤ 0) || decide (since < row.2.submittedAt)
    | none => true
  let joined := rows.filter fun row => (parties board.db row.2).isSome
  ((joined.insertionSort fun one other => other.2.submittedAt ≤ one.2.submittedAt).take
    (max 1 (min limit 200)).toNat).filterMap fun row => (eventFromRow board.db row).map firstbloodEvent

end KosSim.Scoreboard
