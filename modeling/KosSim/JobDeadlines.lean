import KosSim.CheckerRuns

/-!
The deadlines of the checker jobs. Only schedule_checker_jobs writes a deadline, and
it leaves a job of the tick behind for every item that it is given; every other
transaction of the rotator and of the workers keeps the jobs and their deadlines.
-/

namespace KosSim.JobDeadlines
open Library EnoChecker Schema CheckerJobs CheckerRuns

def deadlineOf (tables : CheckerTables) (key : JobKey) : Option Int :=
  (tables.checkerJobs.get? key).map (·.deadlineAt)

def SameDeadlines (before after : CheckerTables) : Prop :=
  ∀ key, deadlineOf after key = deadlineOf before key

theorem SameDeadlines.refl (tables : CheckerTables) : SameDeadlines tables tables := fun _ => rfl

theorem SameDeadlines.trans {first middle last : CheckerTables} (one : SameDeadlines first middle)
    (two : SameDeadlines middle last) : SameDeadlines first last := fun key => (two key).trans (one key)

section Tables
variable (tables : CheckerTables)

theorem update_deadlines (key : JobKey) (change : CheckerJob → CheckerJob)
    (kept : ∀ job, (change job).deadlineAt = job.deadlineAt) :
    SameDeadlines tables (updateJob tables key change) := by
  intro other
  unfold deadlineOf updateJob
  rw [Dict.get_modify]
  split
  · next same =>
    rw [same, Option.map_map]
    exact congrArg (fun change => (tables.checkerJobs.get? key).map change) (funext kept)
  · rfl

theorem materialize_deadlines (key : JobKey) (roundId : Int) (status : CheckerStatus) (message : String) :
    SameDeadlines tables (materializeJobStatus tables key roundId status message) :=
  update_deadlines (recordHealth tables key roundId status (some message) none Dict.empty) key
  _ fun _ => rfl

theorem crash_deadlines (key : JobKey) (message : String) :
    SameDeadlines tables (crashJob tables key message) := by
  unfold crashJob
  split
  · exact SameDeadlines.refl tables
  · exact materialize_deadlines tables key _ _ _

theorem enqueued_deadlines (key : JobKey) (taskId : String) :
    SameDeadlines tables (enqueued tables key taskId) := by
  apply update_deadlines
  intro job
  split <;> rfl

theorem start_deadlines (now : Int) (key : JobKey) (celeryTaskId : Option String) :
    SameDeadlines tables (startAttempt tables now key celeryTaskId).1 := by
  unfold startAttempt
  split
  · exact SameDeadlines.refl tables
  split
  · exact SameDeadlines.refl tables
  split
  · exact materialize_deadlines tables key _ _ _
  · exact update_deadlines tables key _ fun _ => rfl

theorem finish_exception_deadlines (env : Settings) (now : Int) (task : Task) (exc : Raised) :
    SameDeadlines tables (finishException env tables now task exc) := by
  unfold finishException
  split
  · exact update_deadlines (finishAttempt tables task .retrying (some exc.trace)) task.key _ fun _ => rfl
  · exact materialize_deadlines (finishAttempt tables task (.done .crashed) (some exc.trace)) task.key _ _ _

theorem finalize_deadlines (tick now : Int) :
    SameDeadlines tables (finalizeOverdueCheckerJobs tables tick now) := by
  unfold finalizeOverdueCheckerJobs
  generalize (tables.checkerJobs.filter (overdue tick now)).entries = entries
  induction entries generalizing tables with
  | nil => exact SameDeadlines.refl tables
  | cons entry rest ih =>
      have first : SameDeadlines tables (finalizeJob tables entry) :=
        materialize_deadlines tables entry.1 entry.2.roundId .timeout "checker job exceeded tick deadline"
      exact first.trans (ih (finalizeJob tables entry))

theorem worker_deadlines {env : Settings} {now : Int} {tables after : CheckerTables} {tasks next : Tasks}
    {event : WorkerEvent} (worked : workerStep env now tables tasks event = some (after, next)) :
    SameDeadlines tables after := by
  cases event with
  | start worker key celeryTaskId =>
      have started := start_deadlines tables now key celeryTaskId
      simp only [workerStep] at worked
      split at worked
      · cases worked
      split at worked
      · next shape =>
        cases worked
        rw [shape] at started
        exact started
      · next shape =>
        cases worked
        rw [shape] at started
        exact started
  | checks worker outcome =>
      simp only [workerStep] at worked
      split at worked
      · cases worked
        exact SameDeadlines.refl tables
      · cases worked
  | success worker =>
      simp only [workerStep] at worked
      split at worked
      · next task outcome _ =>
        cases worked
        exact update_deadlines (finishAttempt tables task (.done outcome.status) none) task.key
          _ fun _ => rfl
      · cases worked
  | exception worker exc =>
      simp only [workerStep] at worked
      split at worked
      · next task _ =>
        cases worked
        exact finish_exception_deadlines tables env now task exc
      · cases worked
  | retryEnqueued worker taskId =>
      simp only [workerStep] at worked
      split at worked
      · next task _ =>
        cases worked
        exact update_deadlines tables task.key _ fun _ => rfl
      · cases worked
  | retryFailed worker error =>
      simp only [workerStep] at worked
      split at worked
      · next task _ =>
        cases worked
        exact crash_deadlines tables task.key _
      · cases worked
  | die worker =>
      simp only [workerStep] at worked
      split at worked
      · cases worked
        exact SameDeadlines.refl tables
      · cases worked

/-! schedule_checker_jobs. -/

def itemKey (tick : Int) (item : TeamServiceItem) : JobKey := (tick, item.teamId, item.serviceId)

/-- An item gets a job with the deadline, if the jobs of the tick that are there have it already. -/
theorem schedule_job_deadline (env : Settings) (tick roundId deadlineAt : Int) (item : TeamServiceItem)
    (agreed : ∀ key deadline, key.1 = tick → deadlineOf tables key = some deadline → deadline = deadlineAt)
    (key : JobKey) : deadlineOf (scheduleJob env tick roundId deadlineAt tables item) key =
      if itemKey tick item = key then some deadlineAt else deadlineOf tables key := by
  unfold scheduleJob
  dsimp only
  cases found : tables.checkerJobs.get? (tick, item.teamId, item.serviceId) with
  | none =>
      unfold deadlineOf itemKey
      dsimp only
      rw [Dict.get_set]
      split <;> rfl
  | some job =>
      have here : deadlineOf tables (itemKey tick item) = some job.deadlineAt := by
        show (tables.checkerJobs.get? (tick, item.teamId, item.serviceId)).map _ = _
        rw [found]
        rfl
      have same := agreed _ _ rfl here
      dsimp only
      split
      · split
        · next this =>
          rw [← this, here, same]
        · rfl
      · unfold deadlineOf updateJob itemKey
        rw [Dict.get_modify]
        by_cases this : (tick, item.teamId, item.serviceId) = key
        · rw [if_pos this, if_pos this.symm, ← this, found]
          rfl
        · rw [if_neg this, if_neg (Ne.symm this)]

theorem schedule_deadlines (env : Settings) (tick roundId deadlineAt : Int) (items : List TeamServiceItem)
    (agreed : ∀ key deadline, key.1 = tick → deadlineOf tables key = some deadline → deadline = deadlineAt)
    (key : JobKey) : deadlineOf (scheduleCheckerJobs env tick roundId deadlineAt tables items).1 key =
      if key ∈ items.map (itemKey tick) then some deadlineAt else deadlineOf tables key := by
  show deadlineOf (items.foldl (scheduleJob env tick roundId deadlineAt) tables) key = _
  induction items generalizing tables with
  | nil => rfl
  | cons item rest ih =>
      have one := schedule_job_deadline tables env tick roundId deadlineAt item agreed
      have still : ∀ other deadline, other.1 = tick →
          deadlineOf (scheduleJob env tick roundId deadlineAt tables item) other = some deadline →
            deadline = deadlineAt := by
        intro other deadline ticked found
        rw [one other] at found
        split at found
        · exact (Option.some.inj found).symm
        · exact agreed other deadline ticked found
      rw [List.foldl_cons, ih _ still, one key, List.map_cons]
      by_cases later : key ∈ rest.map (itemKey tick)
      · rw [if_pos later, if_pos (List.mem_cons_of_mem _ later)]
      · by_cases this : itemKey tick item = key
        · rw [if_neg later, if_pos this, if_pos (this ▸ List.mem_cons_self)]
        · rw [if_neg later, if_neg this, if_neg]
          intro member
          rcases List.mem_cons.mp member with same | inside
          · exact this same.symm
          · exact later inside

/-- Whatever the tick's jobs had before: a deadline is an old one, or the new one of the tick. -/
theorem schedule_deadline_cases (env : Settings) (tick roundId deadlineAt : Int)
    (items : List TeamServiceItem) {key : JobKey} {deadline : Int}
    (found : deadlineOf (scheduleCheckerJobs env tick roundId deadlineAt tables items).1 key = some
      deadline) : deadlineOf tables key = some deadline ∨ key.1 = tick ∧ deadline = deadlineAt := by
  change deadlineOf (items.foldl (scheduleJob env tick roundId deadlineAt) tables) key = _ at found
  induction items generalizing tables with
  | nil => exact Or.inl found
  | cons item rest ih =>
      rcases ih (scheduleJob env tick roundId deadlineAt tables item) found with here | new
      · unfold scheduleJob deadlineOf updateJob at here
        dsimp only at here
        split at here
        · rw [Dict.get_set] at here
          split at here
          · next same =>
            rw [← same]
            exact Or.inr ⟨rfl, (Option.some.inj here).symm⟩
          · exact Or.inl here
        · split at here
          · exact Or.inl here
          · rw [Dict.get_modify] at here
            split at here
            · next same =>
              rw [Option.map_map] at here
              obtain ⟨job, _, made⟩ := Option.map_eq_some_iff.mp here
              rw [same, ← made]
              exact Or.inr ⟨rfl, rfl⟩
            · exact Or.inl here
      · exact Or.inr new

end Tables
end KosSim.JobDeadlines
