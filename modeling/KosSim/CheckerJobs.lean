import KosSim.Schema

/-!
checker_jobs.py and record_health of checker_executor.py. Each definition is one
transaction on the three checker tables. `scheduleJob` to `enqueued` run in the
rotator, `startAttempt` to `retryFailed` in a worker that keeps the job row it
read (`Task`); only some of the updates look at the status that is there.
-/

namespace KosSim.CheckerJobs
open Library EnoChecker Schema

/-- TERMINAL_STATUSES; FLAGMISSING is neither terminal nor active. -/
def terminal : JobStatus → Bool
  | .done .success | .done .recovering | .done .mumble => true
  | .done .offline | .done .timeout | .done .crashed => true
  | _ => false

/-- ACTIVE_STATUSES -/
def active : JobStatus → Bool
  | .queued | .running | .retrying => true
  | .done _ => false

def checkerMaxAttempts (env : Settings) : Int := max 1 env.checkerMaxAttempts

def healthKey (key : JobKey) (roundId : Int) : HealthKey := (key.2.1, key.2.2, roundId)

def recordHealth (tables : CheckerTables) (key : JobKey) (roundId : Int) (status : CheckerStatus)
    (message attackInfo : Option String) (flagAvail : Dict (Int × Int) FlagAvail) : CheckerTables :=
  let row : ServiceHealth := ⟨some key.1, isUp status, status, message, attackInfo, flagAvail⟩
  { tables with serviceHealth := tables.serviceHealth.set (healthKey key roundId) row }

def updateJob (tables : CheckerTables) (key : JobKey) (change : CheckerJob → CheckerJob) : CheckerTables :=
  { tables with checkerJobs := tables.checkerJobs.modify key change }

def materializeJobStatus (tables : CheckerTables) (key : JobKey) (roundId : Int) (status : CheckerStatus)
    (message : String) : CheckerTables :=
  updateJob (recordHealth tables key roundId status (some message) none Dict.empty) key fun job =>
    { job with status := .done status, resultStatus := some status, lastError := some message }

structure TeamServiceItem where
  teamId : Int
  serviceId : Int
  host : String
  port : Int
  deriving DecidableEq

/-- The INSERT .. ON CONFLICT of schedule_checker_jobs for one item. -/
def scheduleJob (env : Settings) (tick roundId deadlineAt : Int) (tables : CheckerTables)
    (item : TeamServiceItem) : CheckerTables :=
  let key := (tick, item.teamId, item.serviceId)
  match tables.checkerJobs.get? key with
  | none =>
      let job : CheckerJob :=
        ⟨roundId, item.host, item.port, .queued, 0, checkerMaxAttempts env, none, deadlineAt, none, none⟩
      { tables with checkerJobs := tables.checkerJobs.set key job }
  | some job =>
      if terminal job.status then tables
      else updateJob tables key fun job =>
        { job with roundId := roundId, host := item.host, port := item.port, deadlineAt := deadlineAt,
                   maxAttempts := checkerMaxAttempts env }

def needsEnqueue (tables : CheckerTables) (key : JobKey) : Bool :=
  match tables.checkerJobs.get? key with
  | none => false
  | some job => !terminal job.status && job.celeryTaskId.isNone

/-- The first transaction of schedule_checker_jobs: the tables and the jobs to enqueue. -/
def scheduleCheckerJobs (env : Settings) (tick roundId deadlineAt : Int) (tables : CheckerTables)
    (items : List TeamServiceItem) : CheckerTables × List JobKey :=
  let scheduled := items.foldl (scheduleJob env tick roundId deadlineAt) tables
  (scheduled, (items.map fun item => (tick, item.teamId, item.serviceId)).filter (needsEnqueue scheduled))

def enqueued (tables : CheckerTables) (key : JobKey) (taskId : String) : CheckerTables :=
  updateJob tables key fun job =>
    if job.status = .queued ∨ job.status = .retrying then { job with celeryTaskId := some taskId } else job

/-- The row is read again before it is materialized; a missing row is skipped. -/
def crashJob (tables : CheckerTables) (key : JobKey) (message : String) : CheckerTables :=
  match tables.checkerJobs.get? key with
  | none => tables
  | some job => materializeJobStatus tables key job.roundId .crashed message

def enqueueFailed (tables : CheckerTables) (key : JobKey) (error : String) : CheckerTables :=
  crashJob tables key ("enqueue failed: " ++ error)

/-- What _start_attempt hands to the worker: the job row as read, and the attempt. -/
structure Task where
  key : JobKey
  roundId : Int
  maxAttempts : Int
  deadlineAt : Int
  attemptNo : Int
  deriving DecidableEq

def beginAttempt (tables : CheckerTables) (key : JobKey) (job : CheckerJob) (celeryTaskId : Option String) :
    CheckerTables × Task :=
  let attemptNo := job.attempts + 1
  let attempt : CheckerAttempt := ⟨celeryTaskId, .running, none⟩
  let started := updateJob tables key fun job =>
    { job with status := .running, attempts := attemptNo,
               celeryTaskId := celeryTaskId.or job.celeryTaskId, lastError := none }
  ({ started with checkerAttempts := started.checkerAttempts.set (key, attemptNo) attempt },
    ⟨key, job.roundId, job.maxAttempts, job.deadlineAt, attemptNo⟩)

def startAttempt (tables : CheckerTables) (now : Int) (key : JobKey) (celeryTaskId : Option String) :
    CheckerTables × Option Task :=
  match tables.checkerJobs.get? key with
  | none => (tables, none)
  | some job =>
      if terminal job.status ∨ job.status = .running then (tables, none)
      else if job.deadlineAt ≤ now then
        (materializeJobStatus tables key job.roundId .timeout "checker job expired before worker start",
          none)
      else
        let begun := beginAttempt tables key job celeryTaskId
        (begun.1, some begun.2)

/-- CheckerExecutionOutcome, the health row that run_checks_for records. -/
structure Outcome where
  status : CheckerStatus
  message : Option String
  attackInfo : Option String
  flagAvail : Dict (Int × Int) FlagAvail
  deriving DecidableEq

/-- The transaction of run_checks_for, which ends with record_health. -/
def runChecks (tables : CheckerTables) (task : Task) (outcome : Outcome) : CheckerTables :=
  recordHealth tables task.key task.roundId outcome.status outcome.message outcome.attackInfo
    outcome.flagAvail

def finishAttempt (tables : CheckerTables) (task : Task) (status : AttemptStatus) (error : Option String) :
    CheckerTables :=
  { tables with checkerAttempts := tables.checkerAttempts.modify (task.key, task.attemptNo) fun attempt =>
      { attempt with status := status, error := error.or attempt.error } }

def finishSuccess (tables : CheckerTables) (task : Task) (status : CheckerStatus) : CheckerTables :=
  updateJob (finishAttempt tables task (.done status) none) task.key fun job =>
    { job with status := .done status, resultStatus := some status, lastError := none }

/-- An exception of the worker: its formatted traceback and its repr. -/
structure Raised where
  trace : String
  repr : String
  deriving DecidableEq

def shouldRetryException (attemptNo maxAttempts deadlineAt now : Int) : Bool :=
  decide (attemptNo < maxAttempts) && decide (now < deadlineAt)

def willRetry (env : Settings) (task : Task) (now : Int) : Bool :=
  let maxAttempts := if task.maxAttempts ≠ 0 then task.maxAttempts else checkerMaxAttempts env
  shouldRetryException task.attemptNo maxAttempts task.deadlineAt now

def lastChars (count : Nat) (text : String) : String :=
  String.ofList (text.toList.drop (text.length - count))

/-- The first transaction of _finish_exception. -/
def finishException (env : Settings) (tables : CheckerTables) (now : Int) (task : Task) (exc : Raised) :
    CheckerTables :=
  if willRetry env task now then
    updateJob (finishAttempt tables task .retrying (some exc.trace)) task.key fun job =>
      { job with status := .retrying, celeryTaskId := none, lastError := some (lastChars 8000 exc.trace) }
  else
    materializeJobStatus (finishAttempt tables task (.done .crashed) (some exc.trace)) task.key task.roundId
      .crashed ("runner exception: " ++ exc.repr)

def retryEnqueued (tables : CheckerTables) (key : JobKey) (taskId : String) : CheckerTables :=
  updateJob tables key fun job => { job with celeryTaskId := some taskId }

def retryFailed (tables : CheckerTables) (key : JobKey) (error : String) : CheckerTables :=
  crashJob tables key ("retry enqueue failed: " ++ error)

def overdue (tick now : Int) (key : JobKey) (job : CheckerJob) : Bool :=
  decide (key.1 = tick) && active job.status && decide (job.deadlineAt ≤ now)

def finalizeJob (tables : CheckerTables) (entry : JobKey × CheckerJob) : CheckerTables :=
  let stopped := materializeJobStatus tables entry.1 entry.2.roundId .timeout
    "checker job exceeded tick deadline"
  { stopped with checkerAttempts := stopped.checkerAttempts.mapEntries fun key attempt =>
      if key.1 = entry.1 ∧ attempt.status = .running then
        { attempt with status := .done .timeout, error := attempt.error.or (some "tick deadline exceeded") }
      else attempt }

def finalizeOverdueCheckerJobs (tables : CheckerTables) (tick now : Int) : CheckerTables :=
  (tables.checkerJobs.filter (overdue tick now)).entries.foldl finalizeJob tables

def checkerTickReady (tables : CheckerTables) (tick : Int) : Bool :=
  tables.checkerJobs.entries.all fun entry => !(decide (entry.1.1 = tick) && active entry.2.status)

end KosSim.CheckerJobs
