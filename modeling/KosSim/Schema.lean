import Mathlib.Algebra.Order.Ring.Rat
import KosSim.EnoChecker
import KosSim.FlagCrypto
import KosSim.Library.Dict

/-!
schema.sql: the tables of the control plane, each a dictionary under its unique
key. Times are microseconds. A statement that breaks a constraint is an error of
`DbError`, and so is an exception of the Python code between the statements.
-/

namespace KosSim.Schema
open Library EnoChecker FlagCrypto

inductive DbError where
  | foreignKey
  | uniqueViolation
  | indexRowSize               -- ProgramLimitExceeded: a btree entry has no room for the row
  | typeError                  -- int(None)
  | keyError
  | zeroDivision
  | valueError (text : String)
  deriving DecidableEq

/-- psycopg2 refuses to send a str with a NUL character. -/
def hasNul (text : Text) : Bool := text.contains '\x00'

def nulError : DbError := .valueError "A string literal cannot contain NUL (0x00) characters."

def second : Int := 1000000

structure Team where
  name : String
  submitToken : String
  natAlias : String
  isNop : Bool
  countryCode : String
  deriving DecidableEq

structure Service where
  name : String
  displayName : Option String
  internalPort : Int
  numPayloads : Int
  flagsPerTick : Int
  deriving DecidableEq

structure TeamService where
  host : String
  port : Int
  enabled : Bool
  deriving DecidableEq

structure FlagRound where
  startsAt : Int
  endsAt : Int
  rotationSeconds : Int
  tick : Option Int
  deriving DecidableEq

/-- The texts of submissions.result and of the answers; the last five only answer. -/
inductive SubmitStatus where
  | accepted
  | duplicate
  | expired
  | ownFlag
  | invalid
  | nopTarget
  | futureFlag
  | roundLimit
  | offline
  | badLength
  | badFormat
  | badIp
  | nopSubmitter
  deriving DecidableEq, Repr

structure Submission where
  submitterTeamId : Int
  targetTeamId : Option Int
  serviceId : Option Int
  roundId : Option Int
  tickIssued : Option Int
  payload : Option Int
  flag : Text
  result : SubmitStatus
  pointsAwarded : Int
  isFirstblood : Bool
  sourceIp : Option String
  submittedAt : Int
  deriving DecidableEq

structure Score where
  attackPoints : Rat := 0
  defensePoints : Rat := 0
  uptimePoints : Rat := 0
  hackedPenaltyPoints : Rat := 0
  challengePoints : Rat := 0
  slaPoints : Rat := 1
  total : Rat := 0
  deriving DecidableEq

structure ServiceHealth where
  tick : Option Int
  isUp : Bool
  status : CheckerStatus
  message : Option String
  attackInfo : Option String
  flagAvail : Dict (Int × Int) FlagAvail
  deriving DecidableEq

structure TeamTickPoints where
  offPoints : Rat
  defPoints : Rat
  slaPoints : Rat
  slaDelta : Rat
  flagCapturedCount : Int
  flagStolenCount : Int
  deriving DecidableEq

structure ScoreSnapshot where
  attackPoints : Rat
  defensePoints : Rat
  uptimePoints : Rat
  hackedPenaltyPoints : Rat
  challengePoints : Rat
  serviceTotal : Rat
  flagsCaptured : Int
  attackersCount : Int
  victimsCount : Int
  slaUpCount : Int
  slaTotalCount : Int
  deriving DecidableEq

inductive JobStatus where
  | queued
  | running
  | retrying
  | done (status : CheckerStatus)
  deriving DecidableEq, Repr

structure CheckerJob where
  roundId : Int
  host : String
  port : Int
  status : JobStatus
  attempts : Int
  maxAttempts : Int
  celeryTaskId : Option String
  deadlineAt : Int
  lastError : Option String
  resultStatus : Option CheckerStatus
  deriving DecidableEq

inductive AttemptStatus where
  | running
  | retrying
  | done (status : CheckerStatus)
  deriving DecidableEq

structure CheckerAttempt where
  celeryTaskId : Option String
  status : AttemptStatus
  error : Option String
  deriving DecidableEq

/-- checker_jobs is keyed by (tick, team, service), service_health by (team, service, round). -/
abbrev JobKey := Int × Int × Int
abbrev HealthKey := Int × Int × Int

structure CheckerTables where
  checkerJobs : Dict JobKey CheckerJob
  checkerAttempts : Dict (JobKey × Int) CheckerAttempt
  serviceHealth : Dict HealthKey ServiceHealth
  deriving DecidableEq

structure ScoreTables where
  teamTickPoints : Dict (Int × Int × Int) TeamTickPoints
  scoreSnapshots : Dict (Int × Int × Int) ScoreSnapshot
  scores : Dict Int Score
  deriving DecidableEq

structure Db where
  teams : Dict Int Team
  services : Dict Int Service
  teamServices : Dict (Int × Int) TeamService
  teamSeq : Int                         -- the sequence behind teams.id
  serviceSeq : Int
  flagRounds : Dict Int FlagRound
  submissions : List Submission
  checker : CheckerTables
  scoring : ScoreTables
  gameState : Option GameTimer
  deriving DecidableEq

def emptyDb : Db where
  teams := Dict.empty
  services := Dict.empty
  teamServices := Dict.empty
  teamSeq := 0
  serviceSeq := 0
  flagRounds := Dict.empty
  submissions := []
  checker := ⟨Dict.empty, Dict.empty, Dict.empty⟩
  scoring := ⟨Dict.empty, Dict.empty, Dict.empty⟩
  gameState := none

namespace Db

/-- SELECT round_id, .. FROM flag_rounds WHERE tick = .. (UNIQUE, so one row at most). -/
def roundOfTick (db : Db) (tick : Int) : Option (Int × FlagRound) :=
  db.flagRounds.entries.find? fun entry => entry.2.tick = some tick

/-- SELECT COALESCE(MAX(tick), 0) FROM flag_rounds. -/
def maxTick (db : Db) : Int :=
  match db.flagRounds.entries.filterMap fun entry => entry.2.tick with
  | [] => 0
  | first :: rest => rest.foldl max first

end Db

/-! FOREIGN KEY checks of the inserted rows. -/

def nullOr (present : Int → Bool) : Option Int → Bool
  | none => true
  | some key => present key

def submissionRefs (db : Db) (row : Submission) : Bool :=
  db.teams.contains row.submitterTeamId && nullOr db.teams.contains row.targetTeamId &&
    nullOr db.services.contains row.serviceId && nullOr db.flagRounds.contains row.roundId

def submitted (rows : List Submission) (teamId : Int) (flag : Text) : Bool :=
  rows.any fun row => row.submitterTeamId = teamId && row.flag = flag

theorem submitted_append (one two : List Submission) (teamId : Int) (flag : Text) :
    submitted (one ++ two) teamId flag = (submitted one teamId flag || submitted two teamId flag) :=
  List.any_append

/-- INSERT INTO submissions, on top of the rows that the transaction sees. The UNIQUE
constraint is a btree over the whole flag. -/
def insertSubmission (env : Settings) (db : Db) (pending : List Submission) (row : Submission) :
    Except DbError (List Submission) :=
  if submitted (db.submissions ++ pending) row.submitterTeamId row.flag then .error .uniqueViolation
  else if env.indexFits row.flag = false then .error .indexRowSize
  else if submissionRefs db row then .ok (pending ++ [row])
  else .error .foreignKey

end KosSim.Schema
