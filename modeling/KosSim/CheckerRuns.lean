import KosSim.CheckerJobs
import KosSim.Library.Runs

/-!
Rotator and workers on the jobs of one tick. A worker keeps its task through
_start_attempt, the check transaction and the final update; it may die between
any two of them, be redelivered, or go on after the rotator has given up on it.
finalize_overdue_checker_jobs is one step with all its jobs: its selection and its
writes commit together with the boundary's transaction.
The run theorem is about one job: a terminal status is final, and the health row
agrees with it, as long as the updates without a status guard come in time.
-/

namespace KosSim.CheckerRuns
open Library EnoChecker Schema CheckerJobs

inductive Stage where
  | checking                       -- _start_attempt has committed
  | checked (outcome : Outcome)    -- the transaction of run_checks_for has committed
  | retrying                       -- _finish_exception has committed RETRYING
  deriving DecidableEq

abbrev Tasks := Dict Nat (Task × Stage)

inductive WorkerEvent where
  | start (worker : Nat) (key : JobKey) (celeryTaskId : Option String)
  | checks (worker : Nat) (outcome : Outcome)
  | success (worker : Nat)
  | exception (worker : Nat) (exc : Raised)
  | retryEnqueued (worker : Nat) (taskId : String)
  | retryFailed (worker : Nat) (error : String)
  | die (worker : Nat)
  deriving DecidableEq

def leave (tasks : Tasks) (worker : Nat) : Tasks := tasks.filter fun other _ => decide (other ≠ worker)

/-- run_checker_job, one transaction at a time. -/
def workerStep (env : Settings) (now : Int) (tables : CheckerTables) (tasks : Tasks) :
    WorkerEvent → Option (CheckerTables × Tasks)
  | .start worker key celeryTaskId =>
      if tasks.contains worker then none
      else match startAttempt tables now key celeryTaskId with
        | (started, some task) => some (started, tasks.set worker (task, .checking))
        | (started, none) => some (started, tasks)
  | .checks worker outcome =>
      match tasks.get? worker with
      | some (task, .checking) =>
          some (runChecks tables task outcome, tasks.set worker (task, .checked outcome))
      | _ => none
  | .success worker =>
      match tasks.get? worker with
      | some (task, .checked outcome) => some (finishSuccess tables task outcome.status, leave tasks worker)
      | _ => none
  | .exception worker exc =>
      match tasks.get? worker with
      | some (task, .checking) =>
          some (finishException env tables now task exc,
            if willRetry env task now then tasks.set worker (task, .retrying) else leave tasks worker)
      | _ => none
  | .retryEnqueued worker taskId =>
      match tasks.get? worker with
      | some (task, .retrying) => some (retryEnqueued tables task.key taskId, leave tasks worker)
      | _ => none
  | .retryFailed worker error =>
      match tasks.get? worker with
      | some (task, .retrying) => some (retryFailed tables task.key error, leave tasks worker)
      | _ => none
  | .die worker => if tasks.contains worker then some (tables, leave tasks worker) else none

structure System where
  clock : Int
  tables : CheckerTables
  tasks : Tasks
  deriving DecidableEq

inductive Event where
  | clock (now : Int)
  | schedule (tick roundId deadlineAt : Int) (items : List TeamServiceItem)
  | enqueued (key : JobKey) (taskId : String)
  | enqueueFailed (key : JobKey) (error : String)
  | worker (event : WorkerEvent)
  | finalize (tick : Int)
  deriving DecidableEq

def step (env : Settings) (system : System) : Event → Option System
  | .clock now => some { system with clock := now }
  | .schedule tick roundId deadlineAt items =>
      some { system with tables := (scheduleCheckerJobs env tick roundId deadlineAt system.tables items).1 }
  | .enqueued key taskId => some { system with tables := enqueued system.tables key taskId }
  | .enqueueFailed key error => some { system with tables := enqueueFailed system.tables key error }
  | .worker event =>
      (workerStep env system.clock system.tables system.tasks event).map fun after =>
        { system with tables := after.1, tasks := after.2 }
  | .finalize tick =>
      some { system with tables := finalizeOverdueCheckerJobs system.tables tick system.clock }

def initial (now : Int) : System := ⟨now, ⟨Dict.empty, Dict.empty, Dict.empty⟩, Dict.empty⟩

def jobStatus (tables : CheckerTables) (key : JobKey) : Option JobStatus :=
  (tables.checkerJobs.get? key).map (·.status)

def healthStatus (tables : CheckerTables) (key : JobKey) (roundId : Int) : Option CheckerStatus :=
  (tables.serviceHealth.get? (healthKey key roundId)).map (·.status)

def unfinished (tables : CheckerTables) (key : JobKey) : Bool :=
  match jobStatus tables key with
  | some status => !terminal status
  | none => true

/-- The job that a worker's next update writes. -/
def taskKey (tasks : Tasks) (worker : Nat) : Option JobKey := (tasks.get? worker).map (·.1.key)

def taskUnfinished (system : System) (worker : Nat) : Bool :=
  match taskKey system.tasks worker with
  | some key => unfinished system.tables key
  | none => true

/-- An update without a guard on the job's status finds the job not terminal. -/
def inTime (system : System) : Event → Bool
  | .enqueueFailed key _ => unfinished system.tables key
  | .worker (.checks worker _) | .worker (.success worker) => taskUnfinished system worker
  | .worker (.exception worker _) | .worker (.retryFailed worker _) => taskUnfinished system worker
  | _ => true

/-- The events of one job: its tick is scheduled under its round, and the tasks are its own. -/
def ofJob (key : JobKey) (roundId : Int) : Event → Bool
  | .schedule tick round _ _ => decide (tick = key.1 ∧ round = roundId)
  | .worker (.start _ started _) => decide (started = key)
  | _ => true

def allowed (key : JobKey) (roundId : Int) (system : System) (event : Event) : Prop :=
  ofJob key roundId event = true ∧ inTime system event = true

/-! What each transaction does to the status of the job and of its health row. -/

section Views
variable (tables : CheckerTables) (key other : JobKey) (roundId : Int)

theorem update_job_status (change : CheckerJob → CheckerJob) :
    jobStatus (updateJob tables other change) key =
      if key = other then (tables.checkerJobs.get? key).map (fun job => (change job).status)
      else jobStatus tables key := by
  rw [jobStatus, updateJob, Dict.get_modify]
  split
  · rw [Option.map_map]
    rfl
  · rfl

theorem update_job_health (change : CheckerJob → CheckerJob) :
    healthStatus (updateJob tables other change) key roundId = healthStatus tables key roundId := rfl

theorem record_health_job (round : Int) (status : CheckerStatus) (message attackInfo : Option String)
    (flagAvail : Dict (Int × Int) FlagAvail) :
    jobStatus (recordHealth tables other round status message attackInfo flagAvail) key =
      jobStatus tables key := rfl

theorem record_health_status (status : CheckerStatus) (message attackInfo : Option String)
    (flagAvail : Dict (Int × Int) FlagAvail) (sameTick : other.1 = key.1) :
    healthStatus (recordHealth tables other roundId status message attackInfo flagAvail) key roundId =
      if other = key then some status else healthStatus tables key roundId := by
  have same : healthKey other roundId = healthKey key roundId ↔ other = key := by
    constructor
    · intro equal
      simp only [healthKey, Prod.mk.injEq, and_true] at equal
      exact Prod.ext sameTick (Prod.ext equal.1 equal.2)
    · exact fun equal => equal ▸ rfl
  rw [healthStatus, recordHealth, Dict.get_set]
  by_cases hit : other = key
  · rw [if_pos (same.mpr hit), if_pos hit]
    rfl
  · rw [if_neg (fun equal => hit (same.mp equal)), if_neg hit]
    rfl

theorem materialize_job (round : Int) (status : CheckerStatus) (message : String) :
    jobStatus (materializeJobStatus tables other round status message) key =
      if key = other then (jobStatus tables key).map fun _ => .done status else jobStatus tables key := by
  rw [materializeJobStatus, update_job_status, record_health_job]
  split
  · rw [jobStatus, Option.map_map]
    rfl
  · rfl

theorem materialize_health (status : CheckerStatus) (message : String) (sameTick : other.1 = key.1) :
    healthStatus (materializeJobStatus tables other roundId status message) key roundId =
      if other = key then some status else healthStatus tables key roundId := by
  rw [materializeJobStatus, update_job_health, record_health_status _ _ _ _ _ _ _ _ sameTick]

end Views

/-- The rows of the job's tick carry that tick and its round. -/
def Keyed (tick roundId : Int) (tables : CheckerTables) : Prop :=
  ∀ key job, tables.checkerJobs.get? key = some job → key.1 = tick ∧ job.roundId = roundId

section Keyed
variable {tick roundId : Int} {tables : CheckerTables}

theorem keyed_update (keyed : Keyed tick roundId tables) (key : JobKey) (change : CheckerJob → CheckerJob)
    (round : ∀ job, job.roundId = roundId → (change job).roundId = roundId) :
    Keyed tick roundId (updateJob tables key change) := by
  intro other job found
  rw [updateJob, Dict.get_modify] at found
  split at found
  · obtain ⟨old, present, rfl⟩ := Option.map_eq_some_iff.mp found
    exact ⟨(keyed other old present).1, round old (keyed other old present).2⟩
  · exact keyed other job found

theorem keyed_materialize (keyed : Keyed tick roundId tables) (key : JobKey) (round : Int)
    (status : CheckerStatus) (message : String) :
    Keyed tick roundId (materializeJobStatus tables key round status message) :=
  keyed_update
  (show Keyed tick roundId (recordHealth tables key round status (some message) none Dict.empty)
    from keyed) key _ fun _ same => same

theorem keyed_schedule (env : Settings) (deadlineAt : Int) (items : List TeamServiceItem)
    (keyed : Keyed tick roundId tables) :
    Keyed tick roundId (scheduleCheckerJobs env tick roundId deadlineAt tables items).1 := by
  show Keyed tick roundId (items.foldl (scheduleJob env tick roundId deadlineAt) tables)
  induction items generalizing tables with
  | nil => exact keyed
  | cons item rest ih =>
      refine ih ?_
      unfold scheduleJob
      dsimp only
      split
      · intro other job found
        rw [Dict.get_set] at found
        split at found
        · next same =>
          cases found
          exact ⟨same ▸ rfl, rfl⟩
        · exact keyed other job found
      · split
        · exact keyed
        · exact keyed_update keyed _ _ fun _ _ => rfl

/-- A schedule changes no status; it may add the job. -/
theorem schedule_status (env : Settings) (deadlineAt : Int) (items : List TeamServiceItem) (key : JobKey) :
    jobStatus (scheduleCheckerJobs env tick roundId deadlineAt tables items).1 key = jobStatus tables key ∨
      jobStatus tables key = none ∧
        jobStatus (scheduleCheckerJobs env tick roundId deadlineAt tables items).1 key = some .queued := by
  show jobStatus (items.foldl (scheduleJob env tick roundId deadlineAt) tables) key = _ ∨ _ ∧
    jobStatus (items.foldl (scheduleJob env tick roundId deadlineAt) tables) key = _
  induction items generalizing tables with
  | nil => exact Or.inl rfl
  | cons item rest ih =>
      have one : jobStatus (scheduleJob env tick roundId deadlineAt tables item) key =
          jobStatus tables key ∨ jobStatus tables key = none ∧
            jobStatus (scheduleJob env tick roundId deadlineAt tables item) key = some .queued := by
        unfold scheduleJob
        dsimp only
        split
        · next absent =>
          by_cases hit : (tick, item.teamId, item.serviceId) = key
          · refine Or.inr ⟨?_, ?_⟩
            · rw [jobStatus, ← hit, absent]
              rfl
            · rw [jobStatus, hit, Dict.get_set_self]
              rfl
          · left
            rw [jobStatus, Dict.get_set_other _ _ _ _ hit]
            rfl
        · split
          · exact Or.inl rfl
          · left
            rw [update_job_status]
            split <;> rfl
      rcases @ih (scheduleJob env tick roundId deadlineAt tables item) with same | ⟨absent, added⟩
      · rcases one with before | ⟨absent, added⟩
        · exact Or.inl (same.trans before)
        · exact Or.inr ⟨absent, same.trans added⟩
      · rcases one with before | ⟨_, present⟩
        · exact Or.inr ⟨before ▸ absent, added⟩
        · rw [present] at absent
          cases absent

theorem schedule_health (env : Settings) (deadlineAt : Int) (items : List TeamServiceItem) :
    (scheduleCheckerJobs env tick roundId deadlineAt tables items).1.serviceHealth =
      tables.serviceHealth := by
  show (items.foldl (scheduleJob env tick roundId deadlineAt) tables).serviceHealth = _
  induction items generalizing tables with
  | nil => rfl
  | cons item rest ih =>
      rw [List.foldl_cons, ih]
      unfold scheduleJob
      dsimp only
      split
      · rfl
      · split <;> rfl

/-- One entry of the list that finalize_overdue_checker_jobs works through. -/
theorem finalize_job_views (entry : JobKey × CheckerJob) (key : JobKey)
    (sameTick : entry.1.1 = key.1) (sameRound : entry.2.roundId = roundId) :
    jobStatus (finalizeJob tables entry) key =
        (if key = entry.1 then (jobStatus tables key).map fun _ => .done .timeout else jobStatus
          tables key) ∧
      healthStatus (finalizeJob tables entry) key roundId =
        (if entry.1 = key then some .timeout else healthStatus tables key roundId) := by
  subst sameRound
  exact ⟨materialize_job tables key entry.1 _ _ _, materialize_health tables key entry.1 _ _ _ sameTick⟩

theorem finalize_fold (entries : List (JobKey × CheckerJob)) (key : JobKey)
    (shaped : ∀ entry ∈ entries, entry.1.1 = key.1 ∧ entry.2.roundId = roundId)
    (keyed : Keyed key.1 roundId tables) :
    Keyed key.1 roundId (entries.foldl finalizeJob tables) ∧
      (key ∈ entries.map Prod.fst →
        jobStatus (entries.foldl finalizeJob tables) key =
            (jobStatus tables key).map (fun _ => .done .timeout) ∧
          healthStatus (entries.foldl finalizeJob tables) key roundId = some .timeout) ∧
      (key ∉ entries.map Prod.fst →
        jobStatus (entries.foldl finalizeJob tables) key = jobStatus tables key ∧
          healthStatus (entries.foldl finalizeJob tables) key roundId =
            healthStatus tables key roundId) := by
  induction entries generalizing tables with
  | nil => exact ⟨keyed, fun member => absurd member (by simp), fun _ => ⟨rfl, rfl⟩⟩
  | cons entry rest ih =>
      obtain ⟨sameTick, sameRound⟩ := shaped entry List.mem_cons_self
      obtain ⟨job, health⟩ := @finalize_job_views roundId tables entry key sameTick sameRound
      have keyedNext : Keyed key.1 roundId (finalizeJob tables entry) :=
        keyed_materialize keyed entry.1 entry.2.roundId .timeout _
      obtain ⟨keyedAfter, hit, miss⟩ :=
        ih (fun other member => shaped other (List.mem_cons_of_mem entry member)) keyedNext
      rw [List.foldl_cons]
      refine ⟨keyedAfter, ?_, ?_⟩
      · intro member
        by_cases again : key ∈ rest.map Prod.fst
        · obtain ⟨jobAfter, healthAfter⟩ := hit again
          refine ⟨?_, healthAfter⟩
          rw [jobAfter, job]
          split
          · rw [Option.map_map]
            rfl
          · rfl
        · have here : key = entry.1 := by
            rw [List.map_cons, List.mem_cons] at member
            exact member.resolve_right again
          obtain ⟨jobAfter, healthAfter⟩ := miss again
          rw [jobAfter, healthAfter, job, health, if_pos here, if_pos here.symm]
          exact ⟨rfl, rfl⟩
      · intro outside
        rw [List.map_cons, List.mem_cons, not_or] at outside
        obtain ⟨jobAfter, healthAfter⟩ := miss outside.2
        rw [jobAfter, healthAfter, job, health, if_neg outside.1, if_neg (Ne.symm outside.1)]
        exact ⟨rfl, rfl⟩

/-- finalize_overdue_checker_jobs touches the job only while it is active. -/
theorem finalize_status (otherTick now : Int) (key : JobKey) (keyed : Keyed key.1 roundId tables) :
    Keyed key.1 roundId (finalizeOverdueCheckerJobs tables otherTick now) ∧
      (jobStatus (finalizeOverdueCheckerJobs tables otherTick now) key = jobStatus tables key ∧
          healthStatus (finalizeOverdueCheckerJobs tables otherTick now) key roundId =
            healthStatus tables key roundId ∨
        unfinished tables key = true ∧
          jobStatus (finalizeOverdueCheckerJobs tables otherTick now) key = some (.done .timeout) ∧
          healthStatus (finalizeOverdueCheckerJobs tables otherTick now) key roundId = some .timeout) := by
  have selected : ∀ entry ∈ (tables.checkerJobs.filter (overdue otherTick now)).entries,
      tables.checkerJobs.get? entry.1 = some entry.2 ∧ active entry.2.status = true := by
    intro entry member
    obtain ⟨inside, kept⟩ := List.mem_filter.mp member
    simp only [overdue, Bool.and_eq_true] at kept
    exact ⟨(Dict.mem_entries_iff _ _ _).mp inside, kept.1.2⟩
  obtain ⟨keyedAfter, hit, miss⟩ := @finalize_fold roundId tables
    (tables.checkerJobs.filter (overdue otherTick now)).entries key
    (fun entry member => keyed entry.1 entry.2 (selected entry member).1) keyed
  refine ⟨keyedAfter, ?_⟩
  by_cases member : key ∈ (tables.checkerJobs.filter (overdue otherTick now)).entries.map Prod.fst
  · obtain ⟨entry, inside, same⟩ := List.mem_map.mp member
    obtain ⟨found, running⟩ := selected entry inside
    rw [same] at found
    have status : jobStatus tables key = some entry.2.status := by rw [jobStatus, found]; rfl
    have open_ : unfinished tables key = true := by
      rw [unfinished, status]
      cases shape : entry.2.status with
      | done result => rw [shape] at running; cases running
      | queued => rfl
      | running => rfl
      | retrying => rfl
    obtain ⟨job, health⟩ := hit member
    rw [status] at job
    exact Or.inr ⟨open_, job, health⟩
  · exact Or.inl (miss member)

end Keyed

def inFlight : Stage → Bool
  | .checking | .checked _ => true
  | .retrying => false

/-- The invariant of the runs: while the job is not terminal at most one task is in
flight, the job is RUNNING for it, and a committed outcome is the recorded health. -/
structure Consistent (key : JobKey) (roundId : Int) (system : System) : Prop where
  keyed : Keyed key.1 roundId system.tables
  owned : ∀ worker task stage, system.tasks.get? worker = some (task, stage) →
    task.key = key ∧ task.roundId = roundId
  agrees : ∀ status, jobStatus system.tables key = some (.done status) → terminal (.done status) = true →
    healthStatus system.tables key roundId = some status
  busy : ∀ worker task stage, system.tasks.get? worker = some (task, stage) → inFlight stage = true →
    unfinished system.tables key = true →
      jobStatus system.tables key = some .running ∧
      (∀ other otherTask otherStage, system.tasks.get? other = some (otherTask, otherStage) →
        inFlight otherStage = true → other = worker) ∧
      ∀ outcome, stage = .checked outcome → healthStatus system.tables key roundId = some outcome.status

section Steps
variable {key : JobKey} {roundId : Int} {system : System}

theorem leave_some {tasks : Tasks} {worker other : Nat} {found : Task × Stage}
    (present : (leave tasks worker).get? other = some found) :
    tasks.get? other = some found ∧ other ≠ worker := by
  rw [leave, Dict.get_filter] at present
  obtain ⟨stored, kept⟩ := Option.filter_eq_some_iff.mp present
  exact ⟨stored, of_decide_eq_true kept⟩

theorem unfinished_of_status {tables after : CheckerTables}
    (same : jobStatus after key = jobStatus tables key) :
    unfinished after key = unfinished tables key := by
  simp only [unfinished, same]

/-- Transactions that leave both views and the tasks alone. -/
theorem consistent_same (consistent : Consistent key roundId system) (clock : Int) (tables : CheckerTables)
    (keyed : Keyed key.1 roundId tables) (job : jobStatus tables key = jobStatus system.tables key)
    (health : healthStatus tables key roundId = healthStatus system.tables key roundId) :
    Consistent key roundId ⟨clock, tables, system.tasks⟩ where
  keyed := keyed
  owned := consistent.owned
  agrees := by
    intro status found final
    rw [job] at found
    rw [health]
    exact consistent.agrees status found final
  busy := by
    intro worker task stage found flying open_
    rw [unfinished_of_status job] at open_
    rw [job, health]
    exact consistent.busy worker task stage found flying open_

/-- Transactions that materialize a terminal status, with any tasks left of the job. -/
theorem consistent_final (tables : CheckerTables) (tasks : Tasks) (clock : Int) (status : CheckerStatus)
    (keyed : Keyed key.1 roundId tables) (final : terminal (.done status) = true)
    (owned : ∀ worker task stage, tasks.get? worker = some (task, stage) →
      task.key = key ∧ task.roundId = roundId)
    (job : jobStatus tables key = some (.done status))
    (health : healthStatus tables key roundId = some status) :
    Consistent key roundId ⟨clock, tables, tasks⟩ where
  keyed := keyed
  owned := owned
  agrees := by
    intro other found _
    rw [job, Option.some.injEq, JobStatus.done.injEq] at found
    rw [← found]
    exact health
  busy := by
    intro worker task stage found flying open_
    have closed : unfinished tables key = false := by
      rw [unfinished, job]
      show (!terminal (.done status)) = false
      rw [final]
      rfl
    rw [closed] at open_
    cases open_

theorem owned_leave (consistent : Consistent key roundId system) (worker : Nat) :
    ∀ other task stage, (leave system.tasks worker).get? other = some (task, stage) →
      task.key = key ∧ task.roundId = roundId :=
  fun other task stage present => consistent.owned other task stage (leave_some present).1

/-- A task that leaves takes no view with it. -/
theorem consistent_leave (consistent : Consistent key roundId system) (worker : Nat)
    (tables : CheckerTables) (keyed : Keyed key.1 roundId tables)
    (job : jobStatus tables key = jobStatus system.tables key)
    (health : healthStatus tables key roundId = healthStatus system.tables key roundId) :
    Consistent key roundId ⟨system.clock, tables, leave system.tasks worker⟩ where
  keyed := keyed
  owned := owned_leave consistent worker
  agrees := (consistent_same consistent system.clock tables keyed job health).agrees
  busy := by
    intro other task stage found flying open_
    rw [unfinished_of_status job] at open_
    rw [job, health]
    obtain ⟨running, alone, recorded⟩ :=
      consistent.busy other task stage (leave_some found).1 flying open_
    refine ⟨running, ?_, recorded⟩
    intro third thirdTask thirdStage present inAir
    exact alone third thirdTask thirdStage (leave_some present).1 inAir

/-- What _start_attempt can do: skip, time the job out, or start an attempt. -/
theorem start_attempt_cases (tables : CheckerTables) (now : Int) (celeryTaskId : Option String) :
    startAttempt tables now key celeryTaskId = (tables, none) ∨
    (∃ job, tables.checkerJobs.get? key = some job ∧ unfinished tables key = true ∧
      startAttempt tables now key celeryTaskId = (materializeJobStatus tables key job.roundId .timeout
        "checker job expired before worker start", none)) ∨
    ∃ job started task, tables.checkerJobs.get? key = some job ∧ unfinished tables key = true ∧
      job.status ≠ .running ∧ startAttempt tables now key celeryTaskId = (started, some task) ∧
      task.key = key ∧ task.roundId = job.roundId ∧ jobStatus started key = some .running ∧
      started.serviceHealth = tables.serviceHealth ∧
      (∀ tick, Keyed tick roundId tables → Keyed tick roundId started) := by
  cases found : tables.checkerJobs.get? key with
  | none => exact Or.inl (by simp only [startAttempt, found])
  | some job =>
      by_cases blocked : terminal job.status ∨ job.status = .running
      · exact Or.inl (by simp only [startAttempt, found, if_pos blocked])
      · have open_ : unfinished tables key = true := by
          simp only [unfinished, jobStatus, found, Option.map_some]
          rw [not_or, Bool.not_eq_true] at blocked
          rw [blocked.1]
          rfl
        by_cases late : job.deadlineAt ≤ now
        · exact Or.inr (Or.inl ⟨job, rfl, open_, by
            simp only [startAttempt, found, if_neg blocked, if_pos late]⟩)
        · refine Or.inr (Or.inr ⟨job, (beginAttempt tables key job celeryTaskId).1,
            (beginAttempt tables key job celeryTaskId).2, rfl, open_,
            fun running => blocked (Or.inr running), by
              simp only [startAttempt, found, if_neg blocked, if_neg late], rfl, rfl, ?_, rfl, ?_⟩)
          · show jobStatus (updateJob tables key _) key = some .running
            rw [update_job_status, if_pos rfl, found]
            rfl
          · intro tick keyed
            exact keyed_update keyed key _ fun _ same => same

theorem start_consistent (env : Settings) (worker : Nat) (celeryTaskId : Option String) (after : System)
    (consistent : Consistent key roundId system)
    (taken : step env system (.worker (.start worker key celeryTaskId)) = some after) :
    Consistent key roundId after ∧ (unfinished system.tables key = false →
      jobStatus after.tables key = jobStatus system.tables key) := by
  simp only [step, workerStep] at taken
  split at taken
  · cases taken
  next free =>
  have absent : system.tasks.get? worker = none := by
    cases held : system.tasks.get? worker with
    | none => rfl
    | some found => exact absurd ((Dict.contains_eq_some _ _).mpr ⟨found, held⟩) free
  rcases @start_attempt_cases key roundId system.tables system.clock celeryTaskId with
    skipped | ⟨job, found, open_, expired⟩ |
      ⟨job, started, task, found, open_, idle, result, sameKey, sameRound, running, health, keyedNext⟩
  · rw [skipped] at taken
    cases taken
    exact ⟨consistent, fun _ => rfl⟩
  · rw [expired] at taken
    cases taken
    have status : jobStatus system.tables key = some job.status := by rw [jobStatus, found]; rfl
    have round : job.roundId = roundId := (consistent.keyed key job found).2
    refine ⟨?_, fun closed => absurd (closed.symm.trans open_) (by simp)⟩
    refine consistent_final _ system.tasks system.clock .timeout
      (keyed_materialize consistent.keyed _ _ _ _) rfl consistent.owned ?_ ?_
    · rw [materialize_job, if_pos rfl, status]
      rfl
    · rw [round, materialize_health _ _ _ _ _ _ rfl, if_pos rfl]
  · rw [result] at taken
    cases taken
    refine ⟨?_, fun closed => absurd (closed.symm.trans open_) (by simp)⟩
    have round : task.roundId = roundId := sameRound.trans (consistent.keyed key job found).2
    -- A task already in flight would have found the job RUNNING.
    have nobody : ∀ other otherTask otherStage, system.tasks.get? other = some (otherTask, otherStage) →
        inFlight otherStage = true → False := by
      intro other otherTask otherStage present flying
      obtain ⟨busy, _⟩ := consistent.busy other otherTask otherStage present flying open_
      rw [jobStatus, found, Option.map_some, Option.some.injEq] at busy
      exact idle busy
    constructor
    · exact keyedNext key.1 consistent.keyed
    · intro other otherTask otherStage present
      rw [Dict.get_set] at present
      split at present
      · cases present
        exact ⟨sameKey, round⟩
      · exact consistent.owned other otherTask otherStage present
    · intro status done
      rw [running] at done
      cases done
    · intro other otherTask otherStage present flying _
      rw [Dict.get_set] at present
      split at present
      · next same =>
        cases present
        refine ⟨running, ?_, fun outcome checked => by cases checked⟩
        intro third thirdTask thirdStage thirdPresent thirdFlying
        rw [Dict.get_set] at thirdPresent
        split at thirdPresent
        · next sameThird => exact sameThird.symm.trans same
        · exact absurd thirdFlying fun inAir => nobody third thirdTask thirdStage thirdPresent inAir
      · exact absurd flying fun inAir => nobody other otherTask otherStage present inAir

/-- The state of a task whose worker's next update comes in time. -/
theorem task_in_time {worker : Nat} {task : Task} {stage : Stage}
    (consistent : Consistent key roundId system)
    (present : system.tasks.get? worker = some (task, stage))
    (timely : taskUnfinished system worker = true) :
    unfinished system.tables key = true := by
  have same := (consistent.owned worker task stage present).1
  simpa only [taskUnfinished, taskKey, present, Option.map_some, same] using timely

theorem run_checks_views (tables : CheckerTables) (task : Task) (outcome : Outcome)
    (sameKey : task.key = key) (sameRound : task.roundId = roundId) :
    jobStatus (runChecks tables task outcome) key = jobStatus tables key ∧
      healthStatus (runChecks tables task outcome) key roundId = some outcome.status := by
  subst sameKey sameRound
  refine ⟨rfl, ?_⟩
  rw [runChecks, record_health_status _ _ _ _ _ _ _ _ rfl, if_pos rfl]

theorem checks_consistent (env : Settings) (worker : Nat) (outcome : Outcome) (after : System)
    (consistent : Consistent key roundId system) (timely : taskUnfinished system worker = true)
    (taken : step env system (.worker (.checks worker outcome)) = some after) :
    Consistent key roundId after ∧ jobStatus after.tables key = jobStatus system.tables key := by
  simp only [step, workerStep] at taken
  split at taken
  · next task present =>
    cases taken
    obtain ⟨sameKey, sameRound⟩ := consistent.owned worker task .checking present
    have open_ := task_in_time consistent present timely
    obtain ⟨running, alone, _⟩ := consistent.busy worker task .checking present rfl open_
    obtain ⟨job, health⟩ := @run_checks_views key roundId system.tables task outcome
      sameKey sameRound
    refine ⟨⟨consistent.keyed, ?_, ?_, ?_⟩, job⟩
    · intro other otherTask otherStage found
      rw [Dict.get_set] at found
      split at found
      · cases found
        exact ⟨sameKey, sameRound⟩
      · exact consistent.owned other otherTask otherStage found
    · intro status done
      rw [job, running] at done
      cases done
    · intro other otherTask otherStage found flying _
      have here : other = worker := by
        rw [Dict.get_set] at found
        split at found
        · next same => exact same.symm
        · exact alone other otherTask otherStage found flying
      subst here
      rw [Dict.get_set_self] at found
      cases found
      refine ⟨job.trans running, ?_, ?_⟩
      · intro third thirdTask thirdStage thirdFound thirdFlying
        rw [Dict.get_set] at thirdFound
        split at thirdFound
        · next same => exact same.symm
        · exact alone third thirdTask thirdStage thirdFound thirdFlying
      · intro recorded same
        cases same
        exact health
  · cases taken

theorem finish_success_views (tables : CheckerTables) (task : Task) (status : CheckerStatus)
    (sameKey : task.key = key) :
    jobStatus (finishSuccess tables task status) key = (jobStatus tables key).map (fun _ => .done status) ∧
      healthStatus (finishSuccess tables task status) key roundId = healthStatus tables key roundId := by
  subst sameKey
  refine ⟨?_, rfl⟩
  rw [finishSuccess, update_job_status, if_pos rfl, jobStatus, Option.map_map]
  rfl

theorem success_consistent (env : Settings) (worker : Nat) (after : System)
    (consistent : Consistent key roundId system) (timely : taskUnfinished system worker = true)
    (taken : step env system (.worker (.success worker)) = some after) : Consistent key roundId after := by
  simp only [step, workerStep] at taken
  split at taken
  · next task outcome present =>
    cases taken
    obtain ⟨sameKey, _⟩ := consistent.owned worker task _ present
    obtain ⟨running, alone, recorded⟩ :=
      consistent.busy worker task _ present rfl (task_in_time consistent present timely)
    obtain ⟨job, health⟩ := @finish_success_views key roundId system.tables task
      outcome.status sameKey
    rw [running, Option.map_some] at job
    rw [recorded outcome rfl] at health
    have keyed : Keyed key.1 roundId (finishAttempt system.tables task (.done outcome.status) none) :=
      consistent.keyed
    refine ⟨keyed_update keyed _ _ fun _ same => same, owned_leave consistent worker, ?_, ?_⟩
    · intro status done _
      rw [job, Option.some.injEq, JobStatus.done.injEq] at done
      rw [← done]
      exact health
    · intro other otherTask otherStage found flying
      obtain ⟨stored, apart⟩ := leave_some found
      exact absurd (alone other otherTask otherStage stored flying) apart
  · cases taken

theorem exception_consistent (env : Settings) (worker : Nat) (exc : Raised) (after : System)
    (consistent : Consistent key roundId system) (timely : taskUnfinished system worker = true)
    (taken : step env system (.worker (.exception worker exc)) = some after) :
    Consistent key roundId after := by
  simp only [step, workerStep] at taken
  split at taken
  · next task present =>
    cases taken
    obtain ⟨sameKey, sameRound⟩ := consistent.owned worker task .checking present
    obtain ⟨running, alone, _⟩ :=
      consistent.busy worker task .checking present rfl (task_in_time consistent present timely)
    cases retry : willRetry env task system.clock with
    | true =>
        simp only [finishException, retry, ↓reduceIte]
        have job : jobStatus
            (updateJob (finishAttempt system.tables task .retrying (some exc.trace)) task.key
            fun job => { job with status := .retrying, celeryTaskId := none,
                                  lastError := some (lastChars 8000 exc.trace) }) key = some .retrying := by
          rw [update_job_status, if_pos sameKey.symm]
          show Option.map _ (system.tables.checkerJobs.get? key) = _
          cases found : system.tables.checkerJobs.get? key with
          | none => rw [jobStatus, found] at running; cases running
          | some row => rfl
        have keyed : Keyed key.1 roundId (finishAttempt system.tables task .retrying (some exc.trace)) :=
          consistent.keyed
        refine ⟨keyed_update keyed _ _ fun _ same => same, ?_, ?_, ?_⟩
        · intro other otherTask otherStage found
          rw [Dict.get_set] at found
          split at found
          · cases found
            exact ⟨sameKey, sameRound⟩
          · exact consistent.owned other otherTask otherStage found
        · intro status done
          rw [job] at done
          cases done
        · intro other otherTask otherStage found flying
          rw [Dict.get_set] at found
          split at found
          · cases found
            cases flying
          · next apart => exact absurd (alone other otherTask otherStage found flying).symm apart
    | false =>
        simp only [finishException, retry, Bool.false_eq_true, ↓reduceIte]
        have keyed :
            Keyed key.1 roundId (finishAttempt system.tables task (.done .crashed) (some exc.trace)) :=
          consistent.keyed
        refine consistent_final _ _ system.clock .crashed (keyed_materialize keyed _ _ _ _) rfl
          (owned_leave consistent worker) ?_ ?_
        · rw [materialize_job, if_pos sameKey.symm]
          show Option.map _ (jobStatus system.tables key) = _
          rw [running]
          rfl
        · rw [sameRound, materialize_health _ _ _ _ _ _ (congrArg Prod.fst sameKey), if_pos sameKey]
  · cases taken

theorem crash_job_cases (tables : CheckerTables) (other : JobKey) (message : String)
    (keyed : Keyed key.1 roundId tables) : Keyed key.1 roundId (crashJob tables other message) ∧
      (jobStatus (crashJob tables other message) key = jobStatus tables key ∧
          healthStatus (crashJob tables other message) key roundId = healthStatus tables key roundId ∨
        other = key ∧ jobStatus (crashJob tables other message) key = some (.done .crashed) ∧
          healthStatus (crashJob tables other message) key roundId = some .crashed) := by
  unfold crashJob
  split
  · exact ⟨keyed, Or.inl ⟨rfl, rfl⟩⟩
  · next job found =>
    obtain ⟨sameTick, sameRound⟩ := keyed other job found
    refine ⟨keyed_materialize keyed _ _ _ _, ?_⟩
    rw [sameRound, materialize_job, materialize_health _ _ _ _ _ _ sameTick]
    by_cases hit : other = key
    · refine Or.inr ⟨hit, ?_, if_pos hit⟩
      rw [if_pos hit.symm, jobStatus, ← hit, found]
      rfl
    · exact Or.inl ⟨if_neg (Ne.symm hit), if_neg hit⟩

theorem worker_consistent (env : Settings) (event : WorkerEvent) (after : System)
    (consistent : Consistent key roundId system) (met : allowed key roundId system (.worker event))
    (taken : step env system (.worker event) = some after) :
    Consistent key roundId after ∧ (unfinished system.tables key = false →
      jobStatus after.tables key = jobStatus system.tables key) := by
  obtain ⟨own, timely⟩ := met
  -- A task whose update has to come in time belongs to an unfinished job.
  have late (worker : Nat) (found : Task × Stage) (present : system.tasks.get? worker = some found)
      (inTime : taskUnfinished system worker = true) (finished : unfinished system.tables key = false) :
      False := by
    rw [task_in_time consistent present inTime] at finished
    cases finished
  cases event with
  | start worker started celeryTaskId =>
      have same : started = key := of_decide_eq_true own
      subst same
      exact start_consistent env worker celeryTaskId after consistent taken
  | checks worker outcome =>
      obtain ⟨next, same⟩ := checks_consistent env worker outcome after consistent timely taken
      exact ⟨next, fun _ => same⟩
  | success worker =>
      refine ⟨success_consistent env worker after consistent timely taken, fun finished => ?_⟩
      simp only [step, workerStep] at taken
      split at taken
      · next task outcome present => exact (late worker _ present timely finished).elim
      · cases taken
  | exception worker exc =>
      refine ⟨exception_consistent env worker exc after consistent timely taken, fun finished => ?_⟩
      simp only [step, workerStep] at taken
      split at taken
      · next task present => exact (late worker _ present timely finished).elim
      · cases taken
  | retryEnqueued worker taskId =>
      simp only [step, workerStep] at taken
      split at taken
      · next task present =>
        cases taken
        have job : jobStatus (retryEnqueued system.tables task.key taskId) key =
            jobStatus system.tables key := by
          rw [retryEnqueued, update_job_status]
          split <;> rfl
        exact ⟨consistent_leave consistent worker
          _ (keyed_update consistent.keyed _ _ fun _ same => same) job rfl, fun _ => job⟩
      · cases taken
  | retryFailed worker error =>
      simp only [step, workerStep] at taken
      split at taken
      · next task present =>
        cases taken
        obtain ⟨keyed, views⟩ := crash_job_cases system.tables task.key
          ("retry enqueue failed: " ++ error) consistent.keyed
        refine ⟨?_, fun finished => (late worker _ present timely finished).elim⟩
        rcases views with ⟨job, health⟩ | ⟨_, job, health⟩
        · exact consistent_leave consistent worker _ keyed job health
        · exact consistent_final _ _ system.clock .crashed keyed rfl
            (owned_leave consistent worker) job health
      · cases taken
  | die worker =>
      simp only [step, workerStep] at taken
      split at taken
      · cases taken
        exact ⟨consistent_leave consistent worker system.tables consistent.keyed rfl rfl, fun _ => rfl⟩
      · cases taken

theorem step_consistent (env : Settings) (event : Event) (after : System)
    (consistent : Consistent key roundId system) (met : allowed key roundId system event)
    (taken : step env system event = some after) :
    Consistent key roundId after ∧ (unfinished system.tables key = false →
      jobStatus after.tables key = jobStatus system.tables key) := by
  cases event with
  | clock now =>
      cases taken
      exact ⟨consistent_same consistent now system.tables consistent.keyed rfl rfl, fun _ => rfl⟩
  | schedule tick round deadlineAt items =>
      cases taken
      obtain ⟨sameTick, sameRound⟩ := of_decide_eq_true met.1
      subst sameTick sameRound
      have keyed := keyed_schedule env deadlineAt items consistent.keyed
      have health :
          healthStatus (scheduleCheckerJobs env key.1 round deadlineAt system.tables items).1 key round =
          healthStatus system.tables key round := by rw [healthStatus, schedule_health]; rfl
      rcases @schedule_status key.1 round system.tables env deadlineAt items key
        with job | ⟨absent, added⟩
      · exact ⟨consistent_same consistent system.clock _ keyed job health, fun _ => job⟩
      · refine ⟨⟨keyed, consistent.owned, ?_, ?_⟩, ?_⟩
        · intro status done
          rw [added] at done
          cases done
        · intro worker task stage found flying _
          have open_ : unfinished system.tables key = true := by rw [unfinished, absent]
          rw [(consistent.busy worker task stage found flying open_).1] at absent
          cases absent
        · intro finished
          rw [unfinished, absent] at finished
          cases finished
  | enqueued other taskId =>
      cases taken
      have job : jobStatus (enqueued system.tables other taskId) key = jobStatus system.tables key := by
        rw [enqueued, update_job_status]
        split
        · rw [jobStatus]
          congr 1
          funext row
          split <;> rfl
        · rfl
      refine ⟨consistent_same consistent system.clock _ (keyed_update consistent.keyed _ _ ?_) job rfl,
        fun _ => job⟩
      intro row same
      split <;> exact same
  | enqueueFailed other error =>
      cases taken
      obtain ⟨keyed, views⟩ :=
        crash_job_cases system.tables other ("enqueue failed: " ++ error) consistent.keyed
      rcases views with ⟨job, health⟩ | ⟨same, job, health⟩
      · exact ⟨consistent_same consistent system.clock _ keyed job health, fun _ => job⟩
      · refine ⟨consistent_final _ system.tasks system.clock .crashed keyed rfl consistent.owned job
          health, ?_⟩
        intro finished
        have open_ : unfinished system.tables other = true := met.2
        rw [same, finished] at open_
        cases open_
  | worker event => exact worker_consistent env event after consistent met taken
  | finalize tick =>
      cases taken
      obtain ⟨keyed, ⟨job, health⟩ | ⟨open_, job, health⟩⟩ :=
        @finalize_status roundId system.tables tick system.clock key consistent.keyed
      · exact ⟨consistent_same consistent system.clock _ keyed job health, fun _ => job⟩
      · refine ⟨consistent_final _ system.tasks system.clock .timeout keyed rfl consistent.owned job
          health, ?_⟩
        intro finished
        rw [open_] at finished
        cases finished

theorem initial_consistent (now : Int) : Consistent key roundId (initial now) where
  keyed := fun _ _ found => by cases found
  owned := fun _ _ _ found => by cases found
  agrees := fun _ found => by cases found
  busy := fun _ _ _ found => by cases found

end Steps

abbrev Run (env : Settings) (key : JobKey) (roundId : Int) : System → System → Prop :=
  Steps (step env) (allowed key roundId)

theorem run_consistent (env : Settings) (key : JobKey) (roundId now : Int) (system : System)
    (run : Run env key roundId (initial now) system) : Consistent key roundId system :=
  steps_invariant (Consistent key roundId)
    (fun _ event after consistent met taken => (step_consistent env event after consistent met taken).1)
    (initial_consistent now) run

/-- In a run whose unguarded updates all find the job unfinished, a terminal status
stays for the rest of the run and the health row of the job has that status. -/
theorem finished_job_stays (env : Settings) (key : JobKey) (roundId now : Int) (first last : System)
    (run : Run env key roundId (initial now) first) (rest : Run env key roundId first last)
    (status : CheckerStatus) (done : jobStatus first.tables key = some (.done status))
    (final : terminal (.done status) = true) :
    jobStatus last.tables key = some (.done status) ∧
      healthStatus last.tables key roundId = some status := by
  have reached : Consistent key roundId last ∧ jobStatus last.tables key = some (.done status) := by
    refine steps_invariant (fun system => Consistent key roundId system ∧
      jobStatus system.tables key = some (.done status)) ?_
      ⟨run_consistent env key roundId now first run, done⟩ rest
    rintro before event after ⟨consistent, kept⟩ met taken
    obtain ⟨next, same⟩ := step_consistent env event after consistent met taken
    have finished : unfinished before.tables key = false := by
      rw [unfinished, kept]
      show (!terminal (.done status)) = false
      rw [final]
      rfl
    exact ⟨next, (same finished).trans kept⟩
  exact ⟨reached.2, reached.1.agrees status reached.2 final⟩

def onTime : List Event :=
  [.schedule 1 1 120 [⟨2, 7, "host", 8080⟩], .worker (.start 0 (1, 2, 7) none),
    .worker (.checks 0 ⟨.success, none, none, Dict.empty⟩), .worker (.success 0)]

def healthy : CheckerTables where
  checkerJobs := Dict.empty.set (1, 2, 7)
    ⟨1, "host", 8080, .done .success, 1, 2, none, 120, none, some .success⟩
  checkerAttempts := Dict.empty.set ((1, 2, 7), 1) ⟨none, .done .success, none⟩
  serviceHealth := Dict.empty.set (2, 7, 1) ⟨some 1, true, .success, none, none, Dict.empty⟩

instance (key : JobKey) (roundId : Int) (system : System) (event : Event) :
    Decidable (allowed key roundId system event) := inferInstanceAs (Decidable (_ ∧ _))

/-- A check that ends in time; the later finalize of the tick finds the job done. -/
theorem healthy_job_stays :
    jobStatus healthy (1, 2, 7) = some (.done .success) ∧
      healthStatus healthy (1, 2, 7) 1 = some .success :=
  finished_job_stays (defaultSettings id) (1, 2, 7) 1 100 ⟨100, healthy, Dict.empty⟩
  ⟨130, healthy, Dict.empty⟩ (exec_steps onTime _ _ (by decide +kernel))
    (exec_steps [.clock 130, .finalize 1] _ _ (by decide +kernel)) .success (by decide +kernel) rfl

def beforeDeadline : List Event :=
  [.schedule 1 1 120 [⟨2, 7, "host", 8080⟩], .worker (.start 0 (1, 2, 7) none), .clock 130, .finalize 1]

def afterDeadline : List Event :=
  [.worker (.checks 0 ⟨.success, none, none, Dict.empty⟩), .worker (.success 0)]

/-- The worker outlives its deadline: TIMEOUT is overwritten, first in service_health only. -/
theorem late_worker_overwrites_timeout :
    ∃ first middle last,
      exec (step (defaultSettings id)) (fun _ event => ofJob (1, 2, 7) 1 event = true) (initial 100)
        beforeDeadline = some first ∧
      exec (step (defaultSettings id)) (fun _ event => ofJob (1, 2, 7) 1 event = true) first
        (afterDeadline.take 1) = some middle ∧
      exec (step (defaultSettings id)) (fun _ event => ofJob (1, 2, 7) 1 event = true) first
        afterDeadline = some last ∧
      jobStatus first.tables (1, 2, 7) = some (.done .timeout) ∧ terminal (.done .timeout) = true ∧
      jobStatus middle.tables (1, 2, 7) = some (.done .timeout) ∧
      healthStatus middle.tables (1, 2, 7) 1 = some .success ∧
      jobStatus last.tables (1, 2, 7) = some (.done .success) :=
  ⟨_, _, _, rfl, rfl, rfl, by decide +kernel, rfl, by decide +kernel, by decide +kernel, by decide +kernel⟩

end KosSim.CheckerRuns
