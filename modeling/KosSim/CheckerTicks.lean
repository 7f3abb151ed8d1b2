import KosSim.CheckerRuns
import KosSim.ScoringInputs

/-!
The checker tables by tick. Where jobs and tasks carry the round of their tick, a
transaction on a job writes health rows of that tick only. The updates of a worker
that comes late for a tick are the ones that can change the health it is scored from.
-/

namespace KosSim.CheckerTicks
open Library EnoChecker Schema CheckerJobs CheckerRuns ScoringInputs

structure Aligned (tables : CheckerTables) : Prop where
  jobs : ∀ key job, tables.checkerJobs.get? key = some job → job.roundId = key.1
  health : ∀ key row, tables.serviceHealth.get? key = some row → row.tick = some key.2.2

def TasksAligned (tasks : Tasks) : Prop :=
  ∀ worker task stage, tasks.get? worker = some (task, stage) → task.roundId = task.key.1

def Inactive (tick : Int) (tables : CheckerTables) : Prop :=
  ∀ key job, tables.checkerJobs.get? key = some job → key.1 = tick → active job.status = false

/-- The tick's health is the same, and none of its jobs has become active. -/
structure Spares (tick : Int) (before after : CheckerTables) : Prop where
  health : after.serviceHealth.filter (ofTick tick) = before.serviceHealth.filter (ofTick tick)
  inactive : Inactive tick before → Inactive tick after

theorem Spares.refl (tick : Int) (tables : CheckerTables) : Spares tick tables tables := ⟨rfl, id⟩

theorem Spares.trans {tick : Int} {first middle last : CheckerTables} (one : Spares tick first middle)
    (two : Spares tick middle last) : Spares tick first last :=
  ⟨two.health.trans one.health, fun idle => two.inactive (one.inactive idle)⟩

/-- What a transaction on the jobs of one tick keeps. -/
structure Touches (touched : Int) (before after : CheckerTables) : Prop where
  aligned : Aligned after
  spares : ∀ tick, tick ≠ touched → Spares tick before after

theorem Touches.trans {touched : Int} {first middle last : CheckerTables}
    (one : Touches touched first middle) (two : Touches touched middle last) :
    Touches touched first last :=
  ⟨two.aligned, fun tick apart => (one.spares tick apart).trans (two.spares tick apart)⟩

section Tables
variable {tables : CheckerTables}

theorem touches_refl (aligned : Aligned tables) (touched : Int) : Touches touched tables tables :=
  ⟨aligned, fun tick _ => Spares.refl tick tables⟩

theorem record_touches (aligned : Aligned tables) (key : JobKey) {roundId : Int} (round : roundId = key.1)
    (status : CheckerStatus) (message attackInfo : Option String) (flagAvail : Dict (Int × Int) FlagAvail) :
    Touches key.1 tables (recordHealth tables key roundId status message attackInfo flagAvail) := by
  subst round
  refine ⟨⟨aligned.jobs, ?_⟩, fun tick apart => ⟨?_, id⟩⟩
  · intro other row found
    rw [recordHealth, Dict.get_set] at found
    split at found
    · next same =>
      cases found
      rw [← same]
      rfl
    · exact aligned.health other row found
  · apply Dict.filter_set
    · exact decide_eq_false fun same => apart (Option.some.inj same).symm
    · intro old found
      rw [ofTick, aligned.health _ old found]
      exact decide_eq_false fun same => apart (Option.some.inj same).symm

theorem update_aligned (aligned : Aligned tables) (key : JobKey) {change : CheckerJob → CheckerJob}
    (round : ∀ job, job.roundId = key.1 → (change job).roundId = key.1) :
    Aligned (updateJob tables key change) := by
  refine ⟨?_, aligned.health⟩
  intro other job found
  rw [updateJob, Dict.get_modify] at found
  split at found
  · next same =>
    obtain ⟨old, present, rfl⟩ := Option.map_eq_some_iff.mp found
    rw [same]
    exact round old (same ▸ aligned.jobs other old present)
  · exact aligned.jobs other job found

theorem update_spares (key : JobKey) {change : CheckerJob → CheckerJob} {tick : Int}
    (idle : tick = key.1 → ∀ job, active job.status = false → active (change job).status = false) :
    Spares tick tables (updateJob tables key change) := by
  refine ⟨rfl, ?_⟩
  intro inactive other job found ticked
  rw [updateJob, Dict.get_modify] at found
  split at found
  · next same =>
    obtain ⟨old, present, rfl⟩ := Option.map_eq_some_iff.mp found
    exact idle (same ▸ ticked.symm) old (inactive other old present ticked)
  · exact inactive other job found ticked

theorem update_touches (aligned : Aligned tables) (key : JobKey) {change : CheckerJob → CheckerJob}
    (round : ∀ job, job.roundId = key.1 → (change job).roundId = key.1) :
    Touches key.1 tables (updateJob tables key change) :=
  ⟨update_aligned aligned key round, fun _ apart => update_spares key fun same => absurd same apart⟩

theorem materialize_touches (aligned : Aligned tables) (key : JobKey) {roundId : Int}
    (round : roundId = key.1) (status : CheckerStatus) (message : String) :
    Touches key.1 tables (materializeJobStatus tables key roundId status message) := by
  have recorded := record_touches aligned key round status (some message) none Dict.empty
  exact recorded.trans (update_touches recorded.aligned key fun _ same => same)

theorem crash_touches (aligned : Aligned tables) (key : JobKey) (message : String) :
    Touches key.1 tables (crashJob tables key message) := by
  unfold crashJob
  split
  · exact touches_refl aligned key.1
  · next job found => exact materialize_touches aligned key (aligned.jobs key job found) _ _

theorem schedule_job_touches (env : Settings) (aligned : Aligned tables) (tick deadlineAt : Int)
    (item : TeamServiceItem) : Touches tick tables (scheduleJob env tick tick deadlineAt tables item) := by
  unfold scheduleJob
  dsimp only
  split
  · refine ⟨⟨?_, aligned.health⟩, fun other apart => ⟨rfl, ?_⟩⟩
    · intro key job found
      rw [Dict.get_set] at found
      split at found
      · next same =>
        cases found
        rw [← same]
      · exact aligned.jobs key job found
    · intro inactive key job found ticked
      rw [Dict.get_set] at found
      split at found
      · next same =>
        rw [← same] at ticked
        exact absurd ticked.symm apart
      · exact inactive key job found ticked
  · split
    · exact touches_refl aligned tick
    · exact update_touches aligned (tick, item.teamId, item.serviceId) fun _ _ => rfl

theorem schedule_touches (env : Settings) (aligned : Aligned tables) (tick deadlineAt : Int)
    (items : List TeamServiceItem) :
    Touches tick tables (scheduleCheckerJobs env tick tick deadlineAt tables items).1 := by
  show Touches tick tables (items.foldl (scheduleJob env tick tick deadlineAt) tables)
  induction items generalizing tables with
  | nil => exact touches_refl aligned tick
  | cons item rest ih =>
      have first := schedule_job_touches env aligned tick deadlineAt item
      exact first.trans (ih first.aligned)

/-- The attempts table is not read here. -/
theorem attempts_touches {touched : Int} {after : CheckerTables} (touches : Touches touched tables after)
    (attempts : Dict (JobKey × Int) CheckerAttempt) :
    Touches touched tables { after with checkerAttempts := attempts } :=
  ⟨⟨touches.aligned.jobs, touches.aligned.health⟩,
    fun tick apart => ⟨(touches.spares tick apart).health, (touches.spares tick apart).inactive⟩⟩

theorem finalize_job_touches (aligned : Aligned tables) (entry : JobKey × CheckerJob)
    (round : entry.2.roundId = entry.1.1) : Touches entry.1.1 tables (finalizeJob tables entry) :=
  attempts_touches (materialize_touches aligned entry.1 round .timeout
    "checker job exceeded tick deadline") _

theorem finalize_touches (aligned : Aligned tables) (tick now : Int) :
    Touches tick tables (finalizeOverdueCheckerJobs tables tick now) := by
  have selected : ∀ entry ∈ (tables.checkerJobs.filter (overdue tick now)).entries,
      entry.1.1 = tick ∧ entry.2.roundId = entry.1.1 := by
    intro entry member
    obtain ⟨inside, kept⟩ := List.mem_filter.mp member
    simp only [overdue, Bool.and_eq_true, decide_eq_true_eq] at kept
    exact ⟨kept.1.1, aligned.jobs entry.1 entry.2 ((Dict.mem_entries_iff _ _ _).mp inside)⟩
  unfold finalizeOverdueCheckerJobs
  generalize (tables.checkerJobs.filter (overdue tick now)).entries = entries at selected
  induction entries generalizing tables with
  | nil => exact touches_refl aligned tick
  | cons entry rest ih =>
      obtain ⟨sameTick, round⟩ := selected entry List.mem_cons_self
      have first := finalize_job_touches aligned entry round
      rw [sameTick] at first
      exact first.trans (ih first.aligned fun other member =>
        selected other (List.mem_cons_of_mem _ member))

/-- With no active job left there is nothing to finalize. -/
theorem finalize_idle {tick : Int} (inactive : Inactive tick tables) (now : Int) :
    finalizeOverdueCheckerJobs tables tick now = tables := by
  have nobody : (tables.checkerJobs.filter (overdue tick now)).entries = [] := by
    rw [Dict.filter, List.filter_eq_nil_iff]
    intro entry member kept
    simp only [overdue, Bool.and_eq_true, decide_eq_true_eq] at kept
    have idle := inactive entry.1 entry.2 ((Dict.mem_entries_iff _ _ _).mp member) kept.1.1
    rw [kept.1.2] at idle
    cases idle
  rw [finalizeOverdueCheckerJobs, nobody]
  rfl

theorem ready_inactive {tick : Int} : checkerTickReady tables tick = true ↔ Inactive tick tables := by
  rw [checkerTickReady, List.all_eq_true]
  constructor
  · intro ready key job found ticked
    have here := ready (key, job) ((Dict.mem_entries_iff _ _ _).mpr found)
    simpa [ticked] using here
  · intro inactive entry member
    by_cases ticked : entry.1.1 = tick
    · simp [inactive entry.1 entry.2 ((Dict.mem_entries_iff _ _ _).mp member) ticked]
    · simp [ticked]

/-! Workers. -/

theorem begin_touches (aligned : Aligned tables) (key : JobKey) (job : CheckerJob)
    (celeryTaskId : Option String) :
    Touches key.1 tables (beginAttempt tables key job celeryTaskId).1 := by
  unfold beginAttempt
  refine attempts_touches (update_touches aligned key ?_) _
  exact fun _ same => same

theorem start_touches (aligned : Aligned tables) (now : Int) (key : JobKey) (celeryTaskId : Option String) :
    Touches key.1 tables (startAttempt tables now key celeryTaskId).1 ∧
      ∀ task, (startAttempt tables now key celeryTaskId).2 = some task → task.roundId = task.key.1 := by
  unfold startAttempt
  split
  · exact ⟨touches_refl aligned key.1, fun task never => by cases never⟩
  next job found =>
  have round := aligned.jobs key job found
  split
  · exact ⟨touches_refl aligned key.1, fun task never => by cases never⟩
  split
  · exact ⟨materialize_touches aligned key round _ _, fun task never => by cases never⟩
  · refine ⟨begin_touches aligned key job celeryTaskId, ?_⟩
    intro task begun
    cases begun
    exact round

/-- A job that _start_attempt does not turn away. -/
def startable (tables : CheckerTables) (key : JobKey) : Bool :=
  match tables.checkerJobs.get? key with
  | some job => !terminal job.status && decide (job.status ≠ .running)
  | none => false

theorem start_turned_away {key : JobKey} (refused : startable tables key = false) (now : Int)
    (celeryTaskId : Option String) : startAttempt tables now key celeryTaskId = (tables, none) := by
  unfold startable at refused
  unfold startAttempt
  split at refused
  · next job found =>
    have closed : terminal job.status = true ∨ job.status = .running := by
      cases done : terminal job.status with
      | true => exact Or.inl rfl
      | false =>
          right
          simpa [done] using refused
    rw [found]
    simp only [if_pos closed]
  · next missing => rw [missing]

theorem finish_success_touches (aligned : Aligned tables) (task : Task) (status : CheckerStatus) :
    Touches task.key.1 tables (finishSuccess tables task status) := by
  have attempted := attempts_touches (touches_refl aligned task.key.1)
    (finishAttempt tables task (.done status) none).checkerAttempts
  exact attempted.trans (update_touches attempted.aligned task.key fun _ same => same)

theorem finish_success_spares (tick : Int) (task : Task) (status : CheckerStatus) :
    Spares tick tables (finishSuccess tables task status) := by
  have attempted : Spares tick tables (finishAttempt tables task (.done status) none) := ⟨rfl, id⟩
  refine attempted.trans (update_spares task.key ?_)
  exact fun _ _ _ => rfl

theorem finish_exception_touches (env : Settings) (aligned : Aligned tables) (now : Int) (task : Task)
    (exc : Raised) (round : task.roundId = task.key.1) :
    Touches task.key.1 tables (finishException env tables now task exc) := by
  unfold finishException
  split
  · have attempted := attempts_touches (touches_refl aligned task.key.1)
      (finishAttempt tables task .retrying (some exc.trace)).checkerAttempts
    exact attempted.trans (update_touches attempted.aligned task.key fun _ same => same)
  · have attempted := attempts_touches (touches_refl aligned task.key.1)
      (finishAttempt tables task (.done .crashed) (some exc.trace)).checkerAttempts
    exact attempted.trans (materialize_touches attempted.aligned task.key round _ _)

/-- The worker events that can change what a tick is scored from do not come for it. -/
def sparesTick (tick : Int) (tables : CheckerTables) (tasks : Tasks) : WorkerEvent → Bool
  | .start _ key _ => !(decide (key.1 = tick) && startable tables key)
  | .checks worker _ | .exception worker _ | .retryFailed worker _ =>
      match taskKey tasks worker with
      | some key => decide (key.1 ≠ tick)
      | none => true
  | _ => true

theorem tasks_set {tasks : Tasks} (aligned : TasksAligned tasks) (worker : Nat) (task : Task)
    (stage : Stage) (round : task.roundId = task.key.1) :
    TasksAligned (tasks.set worker (task, stage)) := by
  intro other found otherStage present
  rw [Dict.get_set] at present
  split at present
  · cases present
    exact round
  · exact aligned other found otherStage present

theorem tasks_leave {tasks : Tasks} (aligned : TasksAligned tasks) (worker : Nat) :
    TasksAligned (leave tasks worker) :=
  fun other task stage present => aligned other task stage (leave_some present).1

theorem task_key_apart {tasks : Tasks} {worker : Nat} {task : Task} {stage : Stage} {tick : Int}
    (present : tasks.get? worker = some (task, stage))
    (spared : (match taskKey tasks worker with
      | some key => decide (key.1 ≠ tick)
      | none => true) = true) : tick ≠ task.key.1 := by
  simp only [taskKey, present, Option.map_some, decide_eq_true_eq] at spared
  exact Ne.symm spared

/-- One transaction of a worker. -/
theorem worker_ticks {env : Settings} {now : Int} {tasks next : Tasks} {after : CheckerTables}
    {event : WorkerEvent} (aligned : Aligned tables) (tasksAligned : TasksAligned tasks)
    (worked : workerStep env now tables tasks event = some (after, next)) :
    Aligned after ∧ TasksAligned next ∧
      ∀ tick, sparesTick tick tables tasks event = true → Spares tick tables after := by
  cases event with
  | start worker key celeryTaskId =>
      obtain ⟨touches, round⟩ := start_touches aligned now key celeryTaskId
      have spared : ∀ tick, sparesTick tick tables tasks (.start worker key celeryTaskId) = true →
          Spares tick tables (startAttempt tables now key celeryTaskId).1 := by
        intro tick met
        by_cases here : key.1 = tick
        · have refused : startable tables key = false := by simpa [sparesTick, here] using met
          rw [start_turned_away refused now celeryTaskId]
          exact Spares.refl tick tables
        · exact touches.spares tick (Ne.symm here)
      simp only [workerStep] at worked
      split at worked
      · cases worked
      split at worked
      · next started task shape =>
        cases worked
        rw [shape] at touches spared round
        exact ⟨touches.aligned, tasks_set tasksAligned worker task .checking (round task rfl), spared⟩
      · next started shape =>
        cases worked
        rw [shape] at touches spared
        exact ⟨touches.aligned, tasksAligned, spared⟩
  | checks worker outcome =>
      simp only [workerStep] at worked
      split at worked
      · next task present =>
        cases worked
        have round := tasksAligned worker task .checking present
        have touches := record_touches aligned task.key round outcome.status outcome.message
          outcome.attackInfo outcome.flagAvail
        exact ⟨touches.aligned, tasks_set tasksAligned worker task _ round,
          fun tick spared => touches.spares tick (task_key_apart present spared)⟩
      · cases worked
  | success worker =>
      simp only [workerStep] at worked
      split at worked
      · next task outcome present =>
        cases worked
        exact ⟨(finish_success_touches aligned task outcome.status).aligned,
          tasks_leave tasksAligned worker, fun tick _ =>
          finish_success_spares tick task outcome.status⟩
      · cases worked
  | exception worker exc =>
      simp only [workerStep] at worked
      split at worked
      · next task present =>
        cases worked
        have round := tasksAligned worker task .checking present
        have touches := finish_exception_touches env aligned now task exc round
        refine ⟨touches.aligned, ?_, fun tick spared => touches.spares tick (task_key_apart present spared)⟩
        split
        · exact tasks_set tasksAligned worker task .retrying round
        · exact tasks_leave tasksAligned worker
      · cases worked
  | retryEnqueued worker taskId =>
      simp only [workerStep] at worked
      split at worked
      · next task present =>
        cases worked
        exact ⟨update_aligned aligned task.key fun _ same => same, tasks_leave tasksAligned worker,
          fun tick _ => update_spares task.key fun _ _ idle => idle⟩
      · cases worked
  | retryFailed worker error =>
      simp only [workerStep] at worked
      split at worked
      · next task present =>
        cases worked
        have touches := crash_touches aligned task.key ("retry enqueue failed: " ++ error)
        exact ⟨touches.aligned, tasks_leave tasksAligned worker,
          fun tick spared => touches.spares tick (task_key_apart present spared)⟩
      · cases worked
  | die worker =>
      simp only [workerStep] at worked
      split at worked
      · cases worked
        exact ⟨aligned, tasks_leave tasksAligned worker, fun tick _ => Spares.refl tick tables⟩
      · cases worked

end Tables

end KosSim.CheckerTicks
