import KosSim.Schema

/-!
admin_api.py: the team commands of the admin. Creation and update may break the
UNIQUE name or submit token; a deletion runs the ON DELETE rules of schema.sql.
-/

namespace KosSim.AdminTeams
open Library Schema

def asciiLetter (c : Char) : Bool := ('a' ≤ c && c ≤ 'z') || ('A' ≤ c && c ≤ 'Z')

def asciiAlnum (c : Char) : Bool := asciiLetter c || ('0' ≤ c && c ≤ '9')

/-- _TEAM_NAME_RE and the length limits of the request body. -/
def validName (name : String) : Bool :=
  match name.toList with
  | [] => false
  | first :: rest =>
      asciiAlnum first && decide (rest.length ≤ 62) && rest.all fun c => asciiAlnum c || c = '_' || c = '-'

/-- _COUNTRY_RE -/
def validCountry (code : String) : Bool := code.toList.length = 2 && code.toList.all asciiLetter

def maxLength (limit : Nat) : Option String → Bool
  | none => true
  | some text => decide (text.length ≤ limit)

structure TeamCreateBody where
  name : String
  natAlias : Option String := none
  countryCode : String := "XK"
  isNop : Bool := false
  submitToken : Option String := none
  deriving DecidableEq

structure TeamUpdateBody where
  name : Option String := none
  natAlias : Option String := none
  countryCode : Option String := none
  isNop : Option Bool := none
  submitToken : Option String := none
  deriving DecidableEq

inductive ApiError where
  | validation                   -- 422, from the body's constraints
  | status (code : Nat) (detail : String)
  deriving DecidableEq

def taken (db : Db) (except : Int → Bool) (name token : String) : Bool :=
  db.teams.entries.any fun entry => !except entry.1 && (entry.2.name = name || entry.2.submitToken = token)

/-- Python's `value or default` on a string. -/
def orDefault (value : Option String) (default : String) : String :=
  match value with
  | some text => if text = "" then default else text
  | none => default

def createdTeam (env : Settings) (body : TeamCreateBody) : Team where
  name := body.name
  submitToken := orDefault body.submitToken (env.teamTokenPrefix ++ body.name)
  natAlias := orDefault body.natAlias (body.name ++ "-nat")
  isNop := body.isNop
  countryCode := body.countryCode.toUpper

/-- A parameter that psycopg2 refuses before it sends the statement. -/
def unsendable : Option String → Bool
  | none => false
  | some text => hasNul text.toList

/-- The database after the request (a failed INSERT has used its sequence value) and the answer. -/
def apiTeamCreate (env : Settings) (db : Db) (body : TeamCreateBody) : Db × Except ApiError (Int × Team) :=
  if !(validName body.name && validCountry body.countryCode && maxLength 63 body.natAlias &&
      maxLength 128 body.submitToken) then (db, .error .validation)
  else
    let teamId := db.teamSeq + 1
    let team := createdTeam env body
    let drawn := { db with teamSeq := teamId }
    if unsendable body.natAlias ||
      unsendable body.submitToken then (db, .error (.status 400 "create failed"))
    else if taken db (fun _ => false) team.name team.submitToken then (drawn,
      .error (.status 400 "create failed"))
    else ({ drawn with teams := db.teams.set teamId team }, .ok (teamId, team))

def updatedTeam (team : Team) (body : TeamUpdateBody) : Team where
  name := body.name.getD team.name
  submitToken := body.submitToken.getD team.submitToken
  natAlias := body.natAlias.getD team.natAlias
  isNop := body.isNop.getD team.isNop
  countryCode := (body.countryCode.map String.toUpper).getD team.countryCode

def emptyUpdate (body : TeamUpdateBody) : Bool :=
  body.name.isNone && body.natAlias.isNone && body.countryCode.isNone && body.isNop.isNone &&
    body.submitToken.isNone

def validUpdate (body : TeamUpdateBody) : Bool :=
  (body.name.map validName).getD true && (body.countryCode.map validCountry).getD true &&
    maxLength 63 body.natAlias && maxLength 128 body.submitToken

def apiTeamUpdate (db : Db) (teamId : Int) (body : TeamUpdateBody) : Db × Except ApiError Team :=
  if !validUpdate body then (db, .error .validation)
  else if emptyUpdate body then (db, .error (.status 400 "no fields to update"))
  else if unsendable body.natAlias ||
    unsendable body.submitToken then (db, .error (.status 400 "update failed"))
  else match db.teams.get? teamId with
    | none => (db, .error (.status 404 "team not found"))
    | some old =>
        let team := updatedTeam old body
        if taken db (fun other => decide (other = teamId)) team.name team.submitToken then
          (db, .error (.status 400 "update failed"))
        else ({ db with teams := db.teams.set teamId team }, .ok team)

/-- The secret is secrets.token_urlsafe(16); a broken UNIQUE is not caught here. -/
def apiTeamRotateToken (db : Db) (teamId : Int) (secret : String) : Db × Except ApiError Team :=
  match db.teams.get? teamId with
  | none => (db, .error (.status 404 "team not found"))
  | some old =>
      let team := { old with submitToken := "submit-" ++ secret }
      if taken db (fun other => decide (other = teamId)) team.name team.submitToken then
        (db, .error (.status 500 "Internal Server Error"))
      else ({ db with teams := db.teams.set teamId team }, .ok team)

/-- The row of team_services is named by its pair, not by its id. The answer is always ok. -/
def apiServicesToggle (db : Db) (pair : Int × Int) (enabled : Bool) : Db :=
  { db with teamServices := db.teamServices.modify pair fun row => { row with enabled := enabled } }

/-! ON DELETE of teams: submissions of the team go, submissions against it lose their target. -/

def dropSubmissions (teamId : Int) (rows : List Submission) : List Submission :=
  (rows.filter fun row => row.submitterTeamId ≠ teamId).map fun row =>
    if row.targetTeamId = some teamId then { row with targetTeamId := none } else row

def dropChecker (teamId : Int) (tables : CheckerTables) : CheckerTables where
  checkerJobs := tables.checkerJobs.filter fun key _ => decide (key.2.1 ≠ teamId)
  checkerAttempts := tables.checkerAttempts.filter fun key _ => decide (key.1.2.1 ≠ teamId)
  serviceHealth := tables.serviceHealth.filter fun key _ => decide (key.1 ≠ teamId)

def dropScoring (teamId : Int) (tables : ScoreTables) : ScoreTables where
  teamTickPoints := tables.teamTickPoints.filter fun key _ => decide (key.2.1 ≠ teamId)
  scoreSnapshots := tables.scoreSnapshots.filter fun key _ => decide (key.2.1 ≠ teamId)
  scores := tables.scores.filter fun key _ => decide (key ≠ teamId)

def dropTeam (db : Db) (teamId : Int) : Db :=
  { db with
    teams := db.teams.filter fun key _ => decide (key ≠ teamId)
    teamServices := db.teamServices.filter fun key _ => decide (key.1 ≠ teamId)
    submissions := dropSubmissions teamId db.submissions
    checker := dropChecker teamId db.checker
    scoring := dropScoring teamId db.scoring }

def apiTeamDelete (db : Db) (teamId : Int) : Db × Except ApiError Int :=
  match db.teams.get? teamId with
  | none => (db, .error (.status 404 "team not found"))
  | some _ => (dropTeam db teamId, .ok teamId)

end KosSim.AdminTeams
