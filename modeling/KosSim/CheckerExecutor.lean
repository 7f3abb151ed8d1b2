import KosSim.CheckerJobs
import KosSim.Library.Folds
import KosSim.Scoring

/-!
checker_executor.py: run_checks_for, the check of one service in one tick. `World`
is what the run meets outside: the service's info, the response to each task, and
at which points of the loops the budget has run out. A task that raises ends the
run, and nothing is recorded.
-/

namespace KosSim.CheckerExecutor
open Library EnoChecker FlagCrypto Schema CheckerJobs Scoring

inductive Method where
  | putflag
  | getflag
  | putnoise
  | getnoise
  | havoc
  deriving DecidableEq

structure Call where
  method : Method
  relatedTick : Int
  payload : Int
  deriving DecidableEq

/-- The places of budget_exceeded: before a task, and at the head of a loop over payloads. -/
inductive Point where
  | task (call : Call)
  | row (method : Method) (relatedTick : Int)

structure World where
  info : Option CheckerInfo
  response : Call → Response
  expired : Point → Bool

structure ExecutorSettings where
  budget : Option String           -- SERVICE_CHECK_BUDGET_SECONDS as printed, none for no budget
  havocEnabled : Bool              -- RUN_HAVOC
  noiseEnabled : Bool              -- RUN_NOISE

/-- A row of flags, under its UNIQUE (team_id, service_id, round_id, payload). -/
structure FlagRow where
  flag : Text
  attackInfo : Option String
  active : Bool
  expiresAt : Int
  deriving DecidableEq

abbrev FlagTable := Dict (Int × Int × Int × Int) FlagRow

/-- The arguments of run_checks_for, with flag_rounds as it reads them. -/
structure Check where
  teamId : Int
  service : ServiceSpec
  tick : Int
  roundId : Int
  expiresAt : Int
  retention : Int
  roundIdForTick : Int → Option Int

structure Progress where
  overall : CheckerStatus
  flagAvail : Dict (Int × Int) FlagAvail
  lastAttackInfo : Option String
  lastMessage : Option String
  flags : FlagTable

def serviceInfoFor (world : World) (service : ServiceSpec) : CheckerInfo :=
  world.info.getD ⟨"", service.numPayloads, 0, 0⟩

/-- The number of flag stores that the run looks at. -/
def variants (world : World) (service : ServiceSpec) : Int :=
  let info := serviceInfoFor world service
  min service.numPayloads (if info.flagVariants ≠ 0 then info.flagVariants else service.numPayloads)

def budgetExceeded (settings : ExecutorSettings) (world : World) (point : Point) : Bool :=
  settings.budget.isSome && world.expired point

/-- Python's `one or other` on texts. -/
def orText (one other : Option String) : Option String :=
  match one with
  | some text => if text = "" then other else some text
  | none => other

def markTimeout (settings : ExecutorSettings) (progress : Progress) : Progress :=
  { progress with
    overall := downgrade progress.overall .timeout
    lastMessage := orText progress.lastMessage
      (settings.budget.map fun seconds => "service check budget exceeded (" ++ seconds ++ "s)") }

/-- _run_step; the call of a task that raises is the error. -/
def runStep (world : World) (call : Call) : Except Call TaskResult :=
  match postTask (world.response call) with
  | some result => .ok result
  | none => .error call

/-- The common shape of a task: run it, and go on by whether the reply is OK. -/
def judged (world : World) (call : Call) (fine bad : TaskResult → Progress) : Except Call Progress :=
  match runStep world call with
  | .error error => .error error
  | .ok result => if result.result = "OK" then .ok (fine result) else .ok (bad result)

/-- A reply other than OK pulls the status down to the reply's own. -/
def degrade (result : TaskResult) (progress : Progress) : Progress :=
  { progress with
    overall := downgrade progress.overall (normalize result.result)
    lastMessage := orText result.message progress.lastMessage }

/-- A reply other than OK about an earlier tick only ends SUCCESS. -/
def soften (result : TaskResult) (progress : Progress) : Progress :=
  { progress with
    overall := if progress.overall = .success then .recovering else progress.overall
    lastMessage := orText result.message progress.lastMessage }

def note (progress : Progress) (tick payload : Int) (avail : FlagAvail) : Progress :=
  { progress with flagAvail := progress.flagAvail.set (tick, payload) avail }

def flagKey (check : Check) (roundId payload : Int) : Int × Int × Int × Int :=
  (check.teamId, check.service.id, roundId, payload)

/-- The older active flags of the store are retired, and the round's row is written. -/
def storePutflagResult (check : Check) (flags : FlagTable) (payload : Int) (flag : Text)
    (attackInfo : Option String) : FlagTable :=
  let retired := flags.mapEntries fun key row =>
    if key.1 = check.teamId ∧ key.2.1 = check.service.id ∧ key.2.2.2 = payload then { row with
      active := false }
    else row
  retired.set (flagKey check check.roundId payload) ⟨flag, attackInfo, true, check.expiresAt⟩

def putFlag (env : Settings) (world : World) (check : Check) (progress : Progress) (payload : Int) :
    Except Call Progress :=
  let flag := makeFlag env check.tick check.teamId check.service.id payload
  judged world ⟨.putflag, check.tick, payload⟩
    (fun result => note
      { progress with
        lastAttackInfo := orText result.attackInfo progress.lastAttackInfo
        flags := storePutflagResult check progress.flags payload flag result.attackInfo }
      check.tick payload .ok)
    (fun result => note (degrade result progress) check.tick payload .missing)

/-- SELECT .. FROM flags; a NULL round finds nothing. -/
def storedFlag (check : Check) (flags : FlagTable) (relatedTick payload : Int) : Option FlagRow :=
  (check.roundIdForTick relatedTick).bind fun roundId => flags.get? (flagKey check roundId payload)

def getFlag (world : World) (check : Check) (relatedTick : Int) (progress : Progress) (payload : Int) :
    Except Call Progress :=
  match storedFlag check progress.flags relatedTick payload with
  | none => .ok (note progress relatedTick payload .missing)
  | some _ =>
      judged world ⟨.getflag, relatedTick, payload⟩
        (fun _ => note progress relatedTick payload .ok)
        (fun result => soften result (note progress relatedTick payload .missing))

/-- PUTNOISE and HAVOC. -/
def gradedTask (world : World) (progress : Progress) (call : Call) : Except Call Progress :=
  judged world call (fun _ => progress) (fun result => degrade result progress)

def getNoise (world : World) (progress : Progress) (call : Call) : Except Call Progress :=
  judged world call (fun _ => progress) (fun result => soften result progress)

def windowStart (check : Check) : Int := max 1 (check.tick - check.retention + 1)

/-- The earlier ticks of the retention window. -/
def window (check : Check) : List Int := intRange (windowStart check) check.tick

def tasks (method : Method) (relatedTick count : Int) : List Call :=
  (intRange 0 count).map fun payload => ⟨method, relatedTick, payload⟩

section Run
variable (env : Settings) (settings : ExecutorSettings) (world : World) (check : Check)

def putFlags (progress : Progress) : Except Call Progress :=
  budgeted (fun payload => budgetExceeded settings world (.task ⟨.putflag, check.tick, payload⟩))
    (markTimeout settings) (putFlag env world check) (intRange 0 (variants world check.service)) progress

def getFlagsOf (progress : Progress) (relatedTick : Int) : Except Call Progress :=
  budgeted (fun payload => budgetExceeded settings world (.task ⟨.getflag, relatedTick, payload⟩))
    (markTimeout settings) (getFlag world check relatedTick)
    (intRange 0 (variants world check.service)) progress

def getFlags (progress : Progress) : Except Call Progress :=
  budgeted (fun relatedTick => budgetExceeded settings world (.row .getflag relatedTick))
    (markTimeout settings) (getFlagsOf settings world check) (window check) progress

def gradedTasks (method : Method) (count : Int) (progress : Progress) : Except Call Progress :=
  budgeted (fun call => budgetExceeded settings world (.task call)) (markTimeout settings)
    (gradedTask world) (tasks method check.tick count) progress

def getNoiseOf (count : Int) (progress : Progress) (relatedTick : Int) : Except Call Progress :=
  budgeted (fun call => budgetExceeded settings world (.task call)) (markTimeout settings)
    (getNoise world) (tasks .getnoise relatedTick count) progress

def runNoise (progress : Progress) : Except Call Progress :=
  let count := (serviceInfoFor world check.service).noiseVariants
  if settings.noiseEnabled && decide (0 < count) then
    match gradedTasks settings world check .putnoise count progress with
    | .error error => .error error
    | .ok put =>
        budgeted (fun relatedTick => budgetExceeded settings world (.row .getnoise relatedTick))
          (markTimeout settings) (getNoiseOf settings world count) (window check) put
  else .ok progress

def runHavoc (progress : Progress) : Except Call Progress :=
  let count := (serviceInfoFor world check.service).havocVariants
  if settings.havocEnabled && decide (0 < count) then gradedTasks settings world check .havoc count progress
  else .ok progress

def runChecksFor (flags : FlagTable) : Except Call (FlagTable × Outcome) := do
  let put ← putFlags env settings world check ⟨.success, Dict.empty, none, none, flags⟩
  let got ← getFlags settings world check put
  let noisy ← runNoise settings world check got
  let last ← runHavoc settings world check noisy
  return (last.flags, ⟨last.overall, last.lastMessage, last.lastAttackInfo, last.flagAvail⟩)

end Run

end KosSim.CheckerExecutor
