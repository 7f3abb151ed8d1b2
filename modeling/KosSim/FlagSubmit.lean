import Mathlib.Data.List.Flatten
import KosSim.Schema

/-!
flag_submit.py. The transaction of submit_flags is cut at the statements between
which other transactions can commit: the gate, the team lookup, the reads under
the advisory lock, and one pass of the loop for each flag. `submitFlags` runs the
pieces without interruption.
-/

namespace KosSim.FlagSubmit
open Library FlagCrypto Schema

def loadedTimer (env : Settings) (db : Db) : GameTimer := GameTimer.load (GameTimer.new env) db.gameState

def gameRunning (env : Settings) (db : Db) : Bool := (loadedTimer env db).state = .running

def currentTick (env : Settings) (db : Db) : Int :=
  let timer := loadedTimer env db
  if 1 ≤ timer.currentTick then timer.currentTick else db.maxTick + 1

/-- int(time.time() // ROTATION_SECONDS) -/
def clockRoundId (env : Settings) (now : Int) : Except DbError Int :=
  if env.rotationSeconds = 0 then .error .zeroDivision
  else .ok (now.fdiv (env.rotationSeconds * second))

def currentRoundId (env : Settings) (db : Db) (now : Int) : Except DbError Int :=
  if 1 ≤ currentTick env db then .ok (currentTick env db) else clockRoundId env now

def tcpLineForStatus : SubmitStatus → String
  | .accepted => "[OK]\n"
  | .duplicate => "[ERR] Already submitted\n"
  | .expired => "[ERR] Expired\n"
  | .ownFlag => "[ERR] This is your own flag\n"
  | .invalid => "[ERR] Invalid flag\n"
  | .nopTarget => "[ERR] Can't submit flag from NOP team\n"
  | .futureFlag => "[ERR] Invalid flag (future)\n"
  | .roundLimit => "[ERR] Round limit\n"
  | .offline => "[OFFLINE] CTF not running\n"
  | .badLength => "[ERR] Wrong length\n"
  | .badFormat => "[ERR] Invalid flag (wrong format)\n"
  | .badIp => "[ERR] Invalid source IP\n"
  | .nopSubmitter => "[ERR] Can't submit flag as NOP team\n"

/-- The characters that str.strip removes. -/
def isSpace (c : Char) : Bool :=
  let n := c.toNat
  (9 ≤ n && n ≤ 13) || (28 ≤ n && n ≤ 32) || n = 0x85 || n = 0xA0 || n = 0x1680 ||
    (0x2000 ≤ n && n ≤ 0x200A) || n = 0x2028 || n = 0x2029 || n = 0x202F || n = 0x205F || n = 0x3000

def strip (text : Text) : Text := ((text.dropWhile isSpace).reverse.dropWhile isSpace).reverse

structure ResultRow where
  flag : Text
  status : SubmitStatus
  tcpLine : String
  targetTeam : Option String
  service : Option String
  tickIssued : Option Int
  payload : Option Int
  pointsAwarded : Int
  isFirstblood : Bool
  deriving DecidableEq

def resultRow (flag : Text) (status : SubmitStatus) (targetTeam service : Option String) (points : Int)
    (isFirstblood : Bool) (tickIssued payload : Option Int) : ResultRow :=
  ⟨flag, status, tcpLineForStatus status, targetTeam, service, tickIssued, payload, points, isFirstblood⟩

structure OfflineRow where
  flag : Text
  status : SubmitStatus := .offline
  tcpLine : String := tcpLineForStatus .offline
  deriving DecidableEq

def offlineRows (flags : List Text) : List OfflineRow :=
  (flags.filter fun flag => strip flag ≠ []).map fun flag => { flag := flag }

/-- What the transaction knows before its loop: the submitter and the reads under the lock. -/
structure Context where
  submitterId : Int
  submitterName : String
  sourceIp : String
  startedAt : Int                  -- NOW() of the transaction
  tickNow : Int
  currentRoundId : Int
  teamMeta : Dict Int Team
  serviceMeta : Dict Int Service
  deriving DecidableEq

/-- The variables of the loop. `firstbloodKeys` are the advisory locks taken so far. -/
structure Progress where
  acceptedThisRound : Int
  acceptedCount : Int
  totalPoints : Int
  pending : List Submission
  firstbloodKeys : List (Int × Int)
  resultRows : List ResultRow
  deriving DecidableEq

def oldestAcceptableTick (env : Settings) (tickNow : Int) : Int := max 1 (tickNow - retentionTicks env + 1)

/-- SELECT .. FROM teams and the two checks on its row. -/
def identify (db : Db) (teamId : Int) : Except DbError String :=
  match db.teams.get? teamId with
  | none => .error (.valueError "invalid submitter")
  | some team => if team.isNop then .error (.valueError "nop submitter") else .ok team.name

def acceptedInRound (rows : List Submission) (teamId roundId : Int) : Int :=
  rows.countP fun row => row.submitterTeamId = teamId && row.roundId = some roundId &&
    row.result = .accepted

def prepare (env : Settings) (db : Db) (now startedAt teamId : Int) (name sourceIp : String) :
    Except DbError (Context × Progress) :=
  match currentRoundId env db now with
  | .error error => .error error
  | .ok roundId => .ok
      (⟨teamId, name, sourceIp, startedAt, currentTick env db, roundId, db.teams, db.services⟩,
        ⟨acceptedInRound db.submissions teamId roundId, 0, 0, [], [], []⟩)

/-- The status of a decoded flag. -/
def classify (env : Settings) (context : Context) (progress : Progress) (info : FlagInfo) : SubmitStatus :=
  match context.teamMeta.get? info.teamId, context.serviceMeta.get? info.serviceId with
  | some target, some _ =>
      if info.teamId = context.submitterId then .ownFlag
      else if target.isNop then .nopTarget
      else if info.tick < oldestAcceptableTick env context.tickNow then .expired
      else if context.tickNow < info.tick then .futureFlag
      else if 0 < env.maxAcceptedPerRound ∧
        env.maxAcceptedPerRound ≤ progress.acceptedThisRound then .roundLimit
      else .accepted
  | _, _ => .invalid

/-- `busy` are the first-blood locks of other open transactions; the lock is kept to the end. -/
def resolveFirstblood (db : Db) (busy : Int × Int → Bool) (progress : Progress)
    (targetTeamId serviceId : Int) :
    Bool × List (Int × Int) :=
  if busy (targetTeamId, serviceId) then (false, progress.firstbloodKeys)
  else
    (!(db.submissions ++ progress.pending).any fun row =>
        row.result = .accepted && row.targetTeamId = some targetTeamId && row.serviceId = some serviceId,
      insert (targetTeamId, serviceId) progress.firstbloodKeys)

def processDecoded (env : Settings) (db : Db) (busy : Int × Int → Bool) (context : Context)
    (progress : Progress) (flag : Text) (info : FlagInfo) : Except DbError Progress :=
  let status := classify env context progress info
  let points := if status = .accepted then env.submissionPoints else 0
  let blood := if status = .accepted then resolveFirstblood db busy progress info.teamId info.serviceId
    else (false, progress.firstbloodKeys)
  let target := context.teamMeta.get? info.teamId
  let service := context.serviceMeta.get? info.serviceId
  let row : Submission :=
    { submitterTeamId := context.submitterId
      targetTeamId := target.map fun _ => info.teamId
      serviceId := service.map fun _ => info.serviceId
      roundId := (db.roundOfTick info.tick).map (·.1)
      tickIssued := some info.tick
      payload := some info.payload
      flag := flag
      result := status
      pointsAwarded := points
      isFirstblood := blood.1
      sourceIp := some context.sourceIp
      submittedAt := context.startedAt }
  match insertSubmission env db progress.pending row with
  | .error error => .error error
  | .ok pending => .ok
      { acceptedThisRound := progress.acceptedThisRound + if status = .accepted then 1 else 0
        acceptedCount := progress.acceptedCount + if status = .accepted then 1 else 0
        totalPoints := progress.totalPoints + points
        pending := pending
        firstbloodKeys := blood.2
        resultRows := progress.resultRows ++
        [resultRow flag status (target.map (·.name)) (service.map (·.name))
          points blood.1 (some info.tick) (some info.payload)] }

/-- An undecodable flag is stored under the round of the current tick. -/
def processInvalid (env : Settings) (db : Db) (context : Context) (progress : Progress)
    (flag : Text) : Except DbError Progress :=
  let row : Submission :=
    { submitterTeamId := context.submitterId
      targetTeamId := none
      serviceId := none
      roundId := some context.currentRoundId
      tickIssued := none
      payload := none
      flag := flag
      result := .invalid
      pointsAwarded := 0
      isFirstblood := false
      sourceIp := some context.sourceIp
      submittedAt := context.startedAt }
  match insertSubmission env db progress.pending row with
  | .error error => .error error
  | .ok pending => .ok
      { progress with
        pending := pending
        resultRows := progress.resultRows ++ [resultRow flag .invalid none none 0 false none none] }

/-- One pass of the loop. The INSERT of the duplicate branch meets the row that made it
a duplicate, so ON CONFLICT DO NOTHING leaves the table as it is. -/
def processFlag (env : Settings) (db : Db) (busy : Int × Int → Bool) (context : Context)
    (progress : Progress) (rawFlag : Text) : Except DbError Progress :=
  let flag := strip rawFlag
  if flag = [] then .ok progress
  else if hasNul flag then .error nulError
  else if submitted (db.submissions ++ progress.pending) context.submitterId flag then .ok
    { progress with
      resultRows := progress.resultRows ++ [resultRow flag .duplicate none none 0 false none none] }
  else match decodeFlag env flag with
    | none => processInvalid env db context progress flag
    | some info => processDecoded env db busy context progress flag info

structure SubmitResponse where
  submitterTeam : String
  sourceIp : String
  roundId : Int
  tick : Int
  retentionTicks : Int
  maxAcceptedPerTeamPerRound : Int
  acceptedThisRoundAfterSubmit : Int
  acceptedCount : Int
  totalPointsAwarded : Int
  flagRegex : String
  results : List ResultRow
  deriving DecidableEq

inductive Answer where
  | offline (results : List OfflineRow)
  | done (response : SubmitResponse)
  deriving DecidableEq

def answer (env : Settings) (context : Context) (progress : Progress) : SubmitResponse where
  submitterTeam := context.submitterName
  sourceIp := context.sourceIp
  roundId := context.currentRoundId
  tick := context.tickNow
  retentionTicks := retentionTicks env
  maxAcceptedPerTeamPerRound := env.maxAcceptedPerRound
  acceptedThisRoundAfterSubmit := progress.acceptedThisRound
  acceptedCount := progress.acceptedCount
  totalPointsAwarded := progress.totalPoints
  flagRegex := flagRegexPattern
  results := progress.resultRows

/-- submit_flags with no other transaction in between; `now` is its start. -/
def submitFlags (env : Settings) (db : Db) (now submitterTeamId : Int) (flags : List Text)
    (sourceIp : String) (requireRunning : Bool) : Except DbError (Db × Answer) :=
  if requireRunning && !gameRunning env db then .ok (db, .offline (offlineRows flags))
  else do
    let name ← identify db submitterTeamId
    let (context, start) ← prepare env db now now submitterTeamId name sourceIp
    let last ← flags.foldlM (processFlag env db (fun _ => false) context) start
    return ({ db with submissions := db.submissions ++ last.pending }, .done (answer env context last))

end KosSim.FlagSubmit
