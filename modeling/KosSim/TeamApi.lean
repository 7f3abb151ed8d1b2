import KosSim.Scoreboard

/-!
team_api.py: the per-tick score history of a team. The rows of the newest ticks are read with one
tick more, which is only there to take the differences from, and the loop subtracts from each row
the row of its service that it met last.
-/

namespace KosSim.TeamApi
open Library Schema Rotator

/-- A row of team_tick_points with its key (tick, team, service). -/
abbrev PointsRow := (Int × Int × Int) × TeamTickPoints

structure Cumulative where
  off : Rat
  dfn : Rat
  sla : Rat
  cap : Int

/-- An absent entry of prev_per_service. -/
def Cumulative.zero : Cumulative := ⟨0, 0, 0, 0⟩

/-- A service in a tick, and the totals of a tick. -/
structure ServiceBlock where
  attackPoints : Rat
  attackDelta : Rat
  defensePoints : Rat
  defenseDelta : Rat
  uptimePoints : Rat
  uptimeDelta : Rat
  serviceScore : Rat
  serviceDelta : Rat
  flagsCaptured : Int
  flagsCapturedDelta : Int
  deriving DecidableEq

structure Totals where
  sums : ServiceBlock
  score : Rat
  scoreDelta : Rat
  deriving DecidableEq

structure TickEntry where
  tick : Int
  services : Dict Int ServiceBlock
  totals : Totals
  deriving DecidableEq

structure HistoryTeam where
  id : Int
  name : String
  countryCode : String
  natAlias : String
  isNop : Bool

structure TeamHistory where
  team : HistoryTeam
  services : List (Int × String)
  ticks : List TickEntry

/-! The query. -/

/-- The WHERE of both parts: the team's rows up to the freeze tick. -/
def teamRows (db : Db) (teamId : Int) (freezeTick : Option Int) : List PointsRow :=
  db.scoring.teamTickPoints.entries.filter fun entry =>
    decide (entry.1.2.1 = teamId) && freezeTick.all fun freeze => decide (entry.1.1 ≤ freeze)

def recentTicks (rows : List PointsRow) (limit : Nat) : List Int :=
  ((rows.map (·.1.1)).dedup.insertionSort (· ≥ ·)).take limit

/-- `COALESCE(MIN(tick) - 1, 0)` -/
def windowBound (recent : List Int) : Int := (recent.min?.map (· - 1)).getD 0

/-- `ORDER BY ttp.tick ASC, ttp.service_id ASC` -/
def rowOrder (one other : PointsRow) : Prop :=
  one.1.1 < other.1.1 ∨ one.1.1 = other.1.1 ∧ one.1.2.2 ≤ other.1.2.2

instance : DecidableRel rowOrder := fun _ _ => inferInstanceAs (Decidable (_ ∨ _))

def historyRows (db : Db) (teamId : Int) (limit : Nat) (freezeTick : Option Int) : List PointsRow :=
  let mine := teamRows db teamId freezeTick
  let bound := windowBound (recentTicks mine limit)
  (mine.filter fun row => decide (bound ≤ row.1.1)).insertionSort rowOrder

/-! The loop. -/

structure Progress where
  prevPerService : Dict Int Cumulative
  byTick : Dict Int (Dict Int ServiceBlock)
  ticksSeen : List Int

def cumulative (row : PointsRow) : Cumulative :=
  ⟨row.2.offPoints, row.2.defPoints, row.2.slaPoints, row.2.flagCapturedCount⟩

section Points
variable (points : Rat → Rat)

def serviceBlock (prev : Cumulative) (row : PointsRow) : ServiceBlock :=
  let prevServiceScore := (prev.off + prev.dfn) * prev.sla
  let serviceScore := (row.2.offPoints + row.2.defPoints) * row.2.slaPoints
  { attackPoints := points row.2.offPoints
    attackDelta := points (row.2.offPoints - prev.off)
    defensePoints := points row.2.defPoints
    defenseDelta := points (row.2.defPoints - prev.dfn)
    uptimePoints := points row.2.slaPoints
    uptimeDelta := points row.2.slaDelta
    serviceScore := points serviceScore
    serviceDelta := points (serviceScore - prevServiceScore)
    flagsCaptured := row.2.flagCapturedCount
    flagsCapturedDelta := row.2.flagCapturedCount - prev.cap }

def readRow (progress : Progress) (row : PointsRow) : Progress :=
  let tick := row.1.1
  let sid := row.1.2.2
  let prev := (progress.prevPerService.get? sid).getD Cumulative.zero
  { prevPerService := progress.prevPerService.set sid (cumulative row)
    byTick := progress.byTick.set tick
      (((progress.byTick.get? tick).getD Dict.empty).set sid (serviceBlock points prev row))
    ticksSeen := if progress.byTick.contains tick then progress.ticksSeen else progress.ticksSeen ++
    [tick] }

def readRows (rows : List PointsRow) : Progress := rows.foldl (readRow points) ⟨Dict.empty, Dict.empty, []⟩

def addBlock (agg sb : ServiceBlock) : ServiceBlock where
  attackPoints := agg.attackPoints + sb.attackPoints
  attackDelta := agg.attackDelta + sb.attackDelta
  defensePoints := agg.defensePoints + sb.defensePoints
  defenseDelta := agg.defenseDelta + sb.defenseDelta
  uptimePoints := agg.uptimePoints + sb.uptimePoints
  uptimeDelta := agg.uptimeDelta + sb.uptimeDelta
  serviceScore := agg.serviceScore + sb.serviceScore
  serviceDelta := agg.serviceDelta + sb.serviceDelta
  flagsCaptured := agg.flagsCaptured + sb.flagsCaptured
  flagsCapturedDelta := agg.flagsCapturedDelta + sb.flagsCapturedDelta

/-- The counts of flags are not passed through points(). -/
def totalsOf (services : Dict Int ServiceBlock) : Totals :=
  let agg := (services.entries.map (·.2)).foldl addBlock ⟨0, 0, 0, 0, 0, 0, 0, 0, 0, 0⟩
  { sums :=
      { attackPoints := points agg.attackPoints
        attackDelta := points agg.attackDelta
        defensePoints := points agg.defensePoints
        defenseDelta := points agg.defenseDelta
        uptimePoints := points agg.uptimePoints
        uptimeDelta := points agg.uptimeDelta
        serviceScore := points agg.serviceScore
        serviceDelta := points agg.serviceDelta
        flagsCaptured := agg.flagsCaptured
        flagsCapturedDelta := agg.flagsCapturedDelta }
    score := points agg.serviceScore
    scoreDelta := points agg.serviceDelta }

def tickEntry (progress : Progress) (tick : Int) : TickEntry :=
  let services := (progress.byTick.get? tick).getD Dict.empty
  ⟨tick, services, totalsOf points services⟩

def clampLimit (limit : Int) : Nat := (max 1 (min limit 500)).toNat

/-- None is the 404 for an unknown team. The caller is internal, or sees no tick after the freeze tick. -/
def teamTickHistory (env : Settings) (db : Db) (isInternal : Bool) (teamId limit : Int) :
    Option TeamHistory :=
  let limit := clampLimit limit
  let freezeTick := if isInternal then none else Scoreboard.effectiveFreezeTick env db
  (db.teams.get? teamId).map fun team =>
    let progress := readRows points (historyRows db teamId limit freezeTick)
    let ticksDesc := (progress.ticksSeen.insertionSort (· ≥ ·)).take limit
    { team := ⟨teamId, team.name, (if team.countryCode = "" then "XK" else team.countryCode).toUpper,
        team.natAlias, team.isNop⟩
      services := (byKey db.services).map fun row => (row.1, row.2.name)
      ticks := ticksDesc.map (tickEntry points progress) }

end Points

end KosSim.TeamApi
