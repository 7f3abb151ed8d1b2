import Mathlib.Data.List.Defs
import KosSim.Rotator

/-!
init_db.py: bootstrap_database, one transaction that upserts teams, services and
their pairing and refreshes the score summary. It runs at every start of a process.
-/

namespace KosSim.InitDb
open Library Schema Rotator

/-- The environment of bootstrap_database after parsing, with its lookups as functions. -/
structure Deployment where
  teams : List String
  services : List String
  nopName : String
  country : String → String
  payloads : String → Int
  displayName : String → String
  host : String → String → Nat → String × Int

def findByName {α : Type} (name : α → String) (dict : Dict Int α) (wanted : String) : Option Int :=
  (dict.entries.find? fun entry => name entry.2 = wanted).map (·.1)

def bootTeam (env : Settings) (deployment : Deployment) (name : String) : Team where
  name := name
  submitToken := env.teamTokenPrefix ++ name
  natAlias := name ++ "-nat"
  isNop := decide (name = deployment.nopName)
  countryCode := deployment.country name

def tokenTaken (db : Db) (teamId : Int) (token : String) : Bool :=
  db.teams.entries.any fun entry => decide (entry.1 ≠ teamId) && entry.2.submitToken = token

def addScore (db : Db) (teamId : Int) : Db :=
  if db.scoring.scores.contains teamId then db
  else { db with scoring := { db.scoring with scores := db.scoring.scores.set teamId {} } }

/-- INSERT .. ON CONFLICT (name) for one team, and its scores row. -/
def upsertTeam (env : Settings) (deployment : Deployment) (db : Db) (name : String) : Except DbError Db :=
  let team := bootTeam env deployment name
  let teamId := (findByName Team.name db.teams name).getD (db.teamSeq + 1)
  if tokenTaken db teamId team.submitToken then .error .uniqueViolation
  else .ok (addScore { db with teamSeq := db.teamSeq + 1, teams := db.teams.set teamId team } teamId)

def upsertService (deployment : Deployment) (db : Db) (name : String) : Db :=
  let serviceId := (findByName Service.name db.services name).getD (db.serviceSeq + 1)
  let service : Service :=
    ⟨name, some (deployment.displayName name), 8080, deployment.payloads name, deployment.payloads name⟩
  { db with serviceSeq := db.serviceSeq + 1, services := db.services.set serviceId service }

def upsertTeamService (deployment : Deployment) (db : Db) (team : Int × Team)
    (service : String × Nat) : Db :=
  match findByName Service.name db.services service.1 with
  | none => db
  | some serviceId =>
      let target := deployment.host team.2.name service.1 service.2
      { db with teamServices := db.teamServices.set (team.1, serviceId) ⟨target.1, target.2, true⟩ }

/-- COALESCE(p.column, old value): a team without points keeps its row's columns. -/
def bootSummary (env : Settings) (db : Db) (teamId : Int) (score : Score) : Score :=
  let rows := latestRows db.scoring.teamTickPoints teamId
  if rows.isEmpty then
    { score with
      hackedPenaltyPoints := 0
      challengePoints := env.numeric (score.attackPoints + score.defensePoints)
      slaPoints := if db.services.entries.length = 0 then 0
        else env.numeric (score.slaPoints * db.services.entries.length / db.services.entries.length)
      total := env.numeric ((score.attackPoints + score.defensePoints) * score.slaPoints) }
  else summaryOf env db.services.entries.length rows

def bootScores (env : Settings) (db : Db) : Db :=
  let scores := db.scoring.scores.mapEntries fun teamId score =>
    if db.teams.contains teamId then bootSummary env db teamId score else score
  { db with scoring := { db.scoring with scores := scores } }

def bootstrapDatabase (env : Settings) (deployment : Deployment) (db : Db) : Except DbError Db := do
  let named ← (deployment.teams ++ [deployment.nopName]).foldlM (upsertTeam env deployment) db
  let served := deployment.services.foldl (upsertService deployment) named
  let paired := served.teams.entries.foldl (fun db team =>
    deployment.services.zipIdx.foldl
      (fun db service => upsertTeamService deployment db team service) db) served
  return bootScores env paired

end KosSim.InitDb
