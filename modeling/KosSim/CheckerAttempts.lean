import KosSim.CheckerRuns
import KosSim.Library.AttemptBook

/-!
The attempts of the checker jobs. Every transaction of the rotator and of the workers is
a move in the book of each job. A job whose result is FLAGMISSING is loose, since
TERMINAL_STATUSES does not list that result: a task that is delivered again starts one
more attempt, however many there have been.
-/

namespace KosSim.CheckerAttempts
open Library EnoChecker Schema CheckerJobs CheckerRuns

def phaseOf : JobStatus → Phase
  | .queued | .retrying => .waiting
  | .running => .busy
  | .done status => if terminal (.done status) then .closed else .loose

/-- What the book tells of a job row: its status, its counter, and whether it has a result. -/
def jobView (tables : CheckerTables) (key : JobKey) : Option (JobStatus × Int × Bool) :=
  (tables.checkerJobs.get? key).map fun job => (job.status, job.attempts, job.resultStatus.isSome)

def attemptView (tables : CheckerTables) (key : JobKey) (number : Int) : Option Bool :=
  (tables.checkerAttempts.get? (key, number)).map fun attempt => attempt.status = .running

/-- The attempt of the job that a worker has in flight. -/
def heldBy (tasks : Tasks) (key : JobKey) (worker : Nat) : Option Int :=
  match tasks.get? worker with
  | some (task, stage) => if task.key = key ∧ inFlight stage = true then some task.attemptNo else none
  | none => none

/-- A job that is not there has the book of a new one. -/
def bookOf (tables : CheckerTables) (tasks : Tasks) (key : JobKey) : AttemptBook Nat where
  phase := (jobView tables key).elim .waiting fun view => phaseOf view.1
  started := (jobView tables key).elim 0 fun view => view.2.1
  attempt := attemptView tables key
  held := heldBy tasks key
  final := (jobView tables key).elim false fun view => view.2.2

/-- The job has a result that TERMINAL_STATUSES does not list, as FLAGMISSING. -/
def looseResult (tables : CheckerTables) (key : JobKey) : Bool :=
  match jobStatus tables key with
  | some (.done status) => !terminal (.done status)
  | _ => false

/-- No task is started for a job with such a result, and no worker puts a finished job back to RETRYING. -/
def inOrder (env : Settings) (system : System) : Event → Bool
  | .worker (.start _ key _) => !looseResult system.tables key
  | .worker (.exception worker _) =>
      match system.tasks.get? worker with
      | some (task, _) => !willRetry env task system.clock || unfinished system.tables task.key
      | none => true
  | _ => true

/-! The views after each transaction. -/

section Views
variable (tables : CheckerTables) (key other : JobKey)

theorem view_update (change : CheckerJob → CheckerJob) :
    jobView (updateJob tables other change) key =
      if key = other then
        (tables.checkerJobs.get? key).map fun job =>
          ((change job).status, (change job).attempts, (change job).resultStatus.isSome)
      else jobView tables key := by
  rw [jobView, updateJob, Dict.get_modify]
  split
  · rw [Option.map_map]
    rfl
  · rfl

theorem view_kept (change : CheckerJob → CheckerJob)
    (kept : ∀ job, ((change job).status, (change job).attempts, (change job).resultStatus.isSome) =
      (job.status, job.attempts, job.resultStatus.isSome)) :
    jobView (updateJob tables other change) key = jobView tables key := by
  rw [view_update]
  split
  · exact congrArg (fun view => (tables.checkerJobs.get? key).map view) (funext kept)
  · rfl

theorem view_materialize (roundId : Int) (status : CheckerStatus) (message : String) :
    jobView (materializeJobStatus tables other roundId status message) key =
      if key = other then (jobView tables key).map fun view => (.done status, view.2.1, true)
      else jobView tables key := by
  rw [materializeJobStatus, view_update]
  split
  · rw [jobView, Option.map_map]
    rfl
  · rfl

theorem view_added (job : CheckerJob) :
    jobView { tables with checkerJobs := tables.checkerJobs.set other job } key =
      if other = key then some (job.status, job.attempts, job.resultStatus.isSome) else jobView
      tables key := by
  rw [jobView, Dict.get_set]
  split <;> rfl

end Views

/-! The moves. -/

section Moves
variable {limit : Int} {strict : Prop} {tables after : CheckerTables} {tasks next : Tasks} {key : JobKey}

theorem book_fades (started : (bookOf after next key).started = (bookOf tables tasks key).started)
    (attempts : ∀ number, attemptView after key number = attemptView tables key number ∨
      attemptView tables key number = some true ∧ attemptView after key number = some false)
    (held : ∀ worker number, heldBy next key worker = some number → heldBy tasks key worker = some number) :
    AttemptBook.Fades (bookOf tables tasks key) (bookOf after next key) := by
  refine ⟨started, ?_, ?_, held⟩
  · intro number
    show (attemptView after key number).isSome = (attemptView tables key number).isSome
    rcases attempts number with same | ⟨ran, stopped⟩
    · rw [same]
    · rw [ran, stopped]
      rfl
  · intro number running
    change attemptView after key number = some true at running
    show attemptView tables key number = some true
    rcases attempts number with same | ⟨_, stopped⟩
    · exact same ▸ running
    · rw [stopped] at running
      cases running

/-- The job row says the same, up to what the book does not tell. -/
theorem moves_rest (view : jobView after key = jobView tables key)
    (attempts : ∀ number, attemptView after key number = attemptView tables key number)
    (held : ∀ worker number, heldBy next key worker = some number → heldBy tasks key worker = some number) :
    AttemptBook.Quiet limit strict (bookOf tables tasks key) (bookOf after next key) := by
  refine .rests (book_fades ?_ (fun number => Or.inl (attempts number)) held) ?_ ?_
  · show (jobView after key).elim _ _ = (jobView tables key).elim _ _
    rw [view]
  · show (jobView after key).elim _ _ = (jobView tables key).elim _ _
    rw [view]
  · show (jobView after key).elim _ _ = (jobView tables key).elim _ _
    rw [view]

/-- A terminal status closes the job, if it is there. -/
theorem moves_close {status : CheckerStatus} (final : terminal (.done status) = true)
    (view : jobView after key = (jobView tables key).map fun view => (.done status, view.2.1, true))
    (attempts : ∀ number, attemptView after key number = attemptView tables key number ∨
      attemptView tables key number = some true ∧ attemptView after key number = some false)
    (held : ∀ worker number, heldBy next key worker = some number → heldBy tasks key worker = some number) :
    AttemptBook.Quiet limit strict (bookOf tables tasks key) (bookOf after next key) := by
  have started : (bookOf after next key).started = (bookOf tables tasks key).started := by
    show (jobView after key).elim _ _ = (jobView tables key).elim _ _
    rw [view]
    cases jobView tables key <;> rfl
  have fades := book_fades started attempts held
  cases found : jobView tables key with
  | none =>
      rw [found] at view
      refine .rests fades ?_ ?_
      · show (jobView after key).elim _ _ = (jobView tables key).elim _ _
        rw [view, found]
        rfl
      · show (jobView after key).elim _ _ = (jobView tables key).elim _ _
        rw [view, found]
        rfl
  | some old =>
      rw [found] at view
      refine .closes fades ?_
      show (jobView after key).elim _ _ = _
      rw [view]
      exact if_pos final

theorem moves_materialize (other : JobKey) (roundId : Int) {status : CheckerStatus} (message : String)
    (final : terminal (.done status) = true)
    (held : ∀ worker number, heldBy next key worker = some number → heldBy tasks key worker = some number) :
    AttemptBook.Quiet limit strict (bookOf tables tasks key)
      (bookOf (materializeJobStatus tables other roundId status message) next key) := by
  have view := view_materialize tables key other roundId status message
  split at view
  · exact moves_close final view (fun _ => Or.inl rfl) held
  · exact moves_rest view (fun _ => rfl) held

theorem moves_crash (other : JobKey) (message : String)
    (held : ∀ worker number, heldBy next key worker = some number → heldBy tasks key worker = some number) :
    AttemptBook.Quiet limit strict (bookOf tables tasks key)
      (bookOf (crashJob tables other message) next key) := by
  unfold crashJob
  split
  · exact moves_rest rfl (fun _ => rfl) held
  · exact moves_materialize other _ message rfl held

theorem moves_schedule (env : Settings) (tick roundId deadlineAt : Int) (items : List TeamServiceItem) :
    Relation.ReflTransGen (AttemptBook.Quiet limit strict) (bookOf tables tasks key)
      (bookOf (scheduleCheckerJobs env tick roundId deadlineAt tables items).1 tasks key) := by
  show Relation.ReflTransGen
    _ _ (bookOf (items.foldl (scheduleJob env tick roundId deadlineAt) tables) tasks key)
  induction items generalizing tables with
  | nil => exact .refl
  | cons item rest ih =>
      refine .head ?_ ih
      unfold scheduleJob
      dsimp only
      split
      · next absent =>
        have none_ : jobView tables (tick, item.teamId, item.serviceId) = none := by
          rw [jobView, absent]
          rfl
        by_cases here : (tick, item.teamId, item.serviceId) = key
        · rw [here] at none_
          refine .rests (book_fades ?_ (fun _ => Or.inl rfl) fun _ _ => id) ?_ ?_
          all_goals
            simp only [bookOf, view_added, here, none_, ↓reduceIte]
            rfl
        · refine moves_rest ?_ (fun _ => rfl) fun _ _ => id
          rw [view_added, if_neg here]
      · split
        · exact moves_rest rfl (fun _ => rfl) fun _ _ => id
        · exact moves_rest (view_kept tables key _ _ fun _ => rfl) (fun _ => rfl) fun _ _ => id

theorem moves_finalize_job (entry : JobKey × CheckerJob) :
    AttemptBook.Quiet limit strict (bookOf tables tasks key)
      (bookOf (finalizeJob tables entry) tasks key) := by
  have view : jobView (finalizeJob tables entry) key =
      if key = entry.1 then (jobView tables key).map fun view => (.done .timeout, view.2.1, true)
      else jobView tables key :=
    view_materialize tables key entry.1 entry.2.roundId .timeout "checker job exceeded tick deadline"
  have attempts (number : Int) : (finalizeJob tables entry).checkerAttempts.get? (key, number) =
      (tables.checkerAttempts.get? (key, number)).map fun attempt =>
        if key = entry.1 ∧ attempt.status = .running then
          { attempt with
            status := .done .timeout, error := attempt.error.or (some "tick deadline exceeded") }
        else attempt := Dict.get_map_entries _ _ _
  split at view
  · next here =>
    refine moves_close rfl view ?_ fun _ _ => id
    intro number
    unfold attemptView
    rw [attempts]
    cases tables.checkerAttempts.get? (key, number) with
    | none => exact Or.inl rfl
    | some attempt =>
        by_cases ran : attempt.status = .running
        · right
          simp [ran, here]
        · left
          simp [ran]
  · next elsewhere =>
    refine moves_rest view ?_ fun _ _ => id
    intro number
    unfold attemptView
    rw [attempts, Option.map_map]
    congr 1
    funext attempt
    simp [elsewhere]

theorem moves_finalize (tick now : Int) :
    Relation.ReflTransGen (AttemptBook.Quiet limit strict) (bookOf tables tasks key)
      (bookOf (finalizeOverdueCheckerJobs tables tick now) tasks key) := by
  unfold finalizeOverdueCheckerJobs
  generalize (tables.checkerJobs.filter (overdue tick now)).entries = entries
  induction entries generalizing tables with
  | nil => exact .refl
  | cons entry rest ih => exact .head (moves_finalize_job entry) ih

end Moves

/-! A worker. -/

section Worker
variable {tasks : Tasks} {key : JobKey} {worker : Nat}

theorem held_leave (tasks : Tasks) (key : JobKey) (worker other : Nat) :
    heldBy (leave tasks worker) key other = if other = worker then none else heldBy tasks key other := by
  unfold heldBy leave
  rw [Dict.get_filter]
  by_cases here : other = worker
  · rw [if_pos here]
    cases tasks.get? other <;> simp [here]
  · rw [if_neg here]
    cases tasks.get? other <;> simp [here, Option.filter]

theorem held_set (tasks : Tasks) (key : JobKey) (worker other : Nat) (task : Task) (stage : Stage) :
    heldBy (tasks.set worker (task, stage)) key other =
      if worker = other then (if task.key = key ∧ inFlight stage = true then some task.attemptNo else none)
      else heldBy tasks key other := by
  unfold heldBy
  rw [Dict.get_set]
  by_cases here : worker = other
  · rw [if_pos here, if_pos here]
  · rw [if_neg here, if_neg here]

theorem held_of_leave (other : Nat) (number : Int)
    (holds : heldBy (leave tasks worker) key other = some number) :
    heldBy tasks key other = some number := by
  rw [held_leave] at holds
  split at holds
  · cases holds
  · exact holds

variable {env : Settings} {strict : Prop} {now : Int} {tables after : CheckerTables}

theorem startable_iff (status : JobStatus) :
    (phaseOf status).startable = true ↔ terminal status = false ∧ status ≠ .running := by
  cases status with
  | queued => exact ⟨fun _ => ⟨rfl, by simp⟩, fun _ => rfl⟩
  | running => exact ⟨fun never => (by cases never), fun never => absurd rfl never.2⟩
  | retrying => exact ⟨fun _ => ⟨rfl, by simp⟩, fun _ => rfl⟩
  | done result =>
      show (if terminal (.done result) = true then Phase.closed else .loose).startable = true ↔ _
      cases terminal (.done result) with
      | true => exact ⟨fun never => (by cases never), fun never => (by cases never.1)⟩
      | false => exact ⟨fun _ => ⟨rfl, by simp⟩, fun _ => rfl⟩

theorem loose_iff (tables : CheckerTables) (tasks : Tasks) (key : JobKey) :
    looseResult tables key = true ↔ (bookOf tables tasks key).phase = .loose := by
  show _ ↔ (jobView tables key).elim _ _ = _
  unfold looseResult jobStatus jobView
  cases tables.checkerJobs.get? key with
  | none => simp
  | some job =>
      cases shape : job.status with
      | queued => simp [shape, phaseOf]
      | running => simp [shape, phaseOf]
      | retrying => simp [shape, phaseOf]
      | done result => cases final : terminal (.done result) <;> simp [shape, phaseOf, final]

theorem view_begin (tables : CheckerTables) (key started : JobKey) (job : CheckerJob)
    (celeryTaskId : Option String) :
    jobView (beginAttempt tables started job celeryTaskId).1 key =
      if key = started then (jobView tables key).map fun view => (.running, job.attempts + 1, view.2.2)
      else jobView tables key := by
  show jobView (updateJob tables started _) key = _
  rw [view_update]
  split
  · rw [jobView, Option.map_map]
    rfl
  · rfl

theorem attempts_begin (tables : CheckerTables) (key started : JobKey) (job : CheckerJob)
    (celeryTaskId : Option String) (number : Int) :
    attemptView (beginAttempt tables started job celeryTaskId).1 key number =
      if key = started ∧ number = job.attempts + 1 then some true else attemptView tables key number := by
  show ((tables.checkerAttempts.set (started, job.attempts + 1) _).get? (key, number)).map _ = _
  rw [Dict.get_set]
  by_cases here : key = started ∧ number = job.attempts + 1
  · rw [if_pos here, if_pos (by rw [here.1, here.2])]
    rfl
  · rw [if_neg here, if_neg]
    · rfl
    · intro same
      exact here ⟨(Prod.mk.inj same).1.symm, (Prod.mk.inj same).2.symm⟩

/-- An attempt begins in the book of its job, and the other books rest. -/
theorem moves_begin (celeryTaskId : Option String) {started : JobKey} {job : CheckerJob}
    (found : tables.checkerJobs.get? started = some job) (free : (phaseOf job.status).startable = true)
    (fit : strict → looseResult tables started = false) :
    AttemptBook.Moves (checkerMaxAttempts env) strict (bookOf tables tasks key)
      (bookOf (beginAttempt tables started job celeryTaskId).1
        (tasks.set worker ((beginAttempt tables started job celeryTaskId).2, .checking)) key) := by
  by_cases here : key = started
  · subst here
    have view : jobView tables key = some (job.status, job.attempts, job.resultStatus.isSome) := by
      rw [jobView, found]
      rfl
    have begun : jobView (beginAttempt tables key job celeryTaskId).1 key =
        some (.running, job.attempts + 1, job.resultStatus.isSome) := by
      rw [view_begin, if_pos rfl, view]
      rfl
    have phase : (bookOf tables tasks key).phase = phaseOf job.status := by
      simp only [bookOf, view, Option.elim_some]
    have count : (bookOf tables tasks key).started = job.attempts := by
      simp only [bookOf, view, Option.elim_some]
    refine Or.inr ⟨worker, ?_, ?_, ?_, ?_, ?_, ?_, ?_⟩
    · rw [phase]
      exact free
    · intro met
      have tight := fit met
      rw [← Bool.not_eq_true, loose_iff tables tasks] at tight
      rw [phase] at tight ⊢
      cases shape : phaseOf job.status with
      | waiting => rfl
      | loose => exact absurd shape tight
      | busy => rw [shape] at free; cases free
      | closed => rw [shape] at free; cases free
    · simp only [bookOf, begun, Option.elim_some]
      rfl
    · rw [count]
      simp only [bookOf, begun, Option.elim_some]
    · intro number
      show attemptView _ key number = _
      rw [attempts_begin, count]
      simp only [true_and]
      rfl
    · intro other number holds
      change heldBy _ key other = some number at holds
      rw [held_set] at holds
      split at holds
      · next same =>
        left
        refine ⟨same.symm, ?_⟩
        rw [if_pos ⟨rfl, rfl⟩] at holds
        rw [count]
        exact (Option.some.inj holds).symm
      · exact Or.inr holds
    · simp only [bookOf, begun, view, Option.elim_some]
  · refine Or.inl (.single (moves_rest ?_ ?_ ?_))
    · rw [view_begin, if_neg here]
    · intro number
      rw [attempts_begin, if_neg fun both => here both.1]
    · intro other number holds
      rw [held_set] at holds
      split at holds
      · rw [if_neg fun both => here both.1.symm] at holds
        cases holds
      · exact holds

theorem moves_start (celeryTaskId : Option String) (started : JobKey) {next : Tasks}
    (fit : strict → looseResult tables started = false)
    (worked : workerStep env now tables tasks (.start worker started celeryTaskId) = some (after, next)) :
    AttemptBook.Moves (checkerMaxAttempts env) strict (bookOf tables tasks key)
      (bookOf after next key) := by
  simp only [workerStep, startAttempt] at worked
  split at worked
  · cases worked
  cases found : tables.checkerJobs.get? started with
  | none =>
      simp only [found] at worked
      cases worked
      exact Or.inl .refl
  | some job =>
      simp only [found] at worked
      by_cases blocked : terminal job.status ∨ job.status = .running
      · simp only [if_pos blocked] at worked
        cases worked
        exact Or.inl .refl
      by_cases late : job.deadlineAt ≤ now
      · simp only [if_neg blocked, if_pos late] at worked
        cases worked
        exact Or.inl (.single (moves_materialize started job.roundId _ rfl fun _ _ => id))
      · simp only [if_neg blocked, if_neg late] at worked
        cases worked
        rw [not_or, Bool.not_eq_true] at blocked
        exact moves_begin celeryTaskId found ((startable_iff _).mpr blocked) fit

/-- The end of an attempt: it does not run any more, and the others are as they were. -/
theorem attempts_finish (tables : CheckerTables) (key : JobKey) (task : Task)
    {status : AttemptStatus} (error : Option String) (ended : status ≠ .running) (number : Int) :
    (attemptView (finishAttempt tables task status error) key number = attemptView tables key number ∨
        attemptView tables key number = some true ∧
          attemptView (finishAttempt tables task status error) key number = some false) ∧
      attemptView (finishAttempt tables task status error) task.key task.attemptNo ≠ some true := by
  have modified (other : JobKey) (place : Int) :
      attemptView (finishAttempt tables task status error) other place =
      if (other, place) = (task.key, task.attemptNo) then (attemptView tables other place).map
      fun _ => false else attemptView tables other place := by
    unfold attemptView finishAttempt
    rw [Dict.get_modify]
    split
    · rw [Option.map_map, Option.map_map]
      congr 1
      funext attempt
      exact decide_eq_false ended
    · rfl
  constructor
  · rw [modified]
    split
    · cases attemptView tables key number with
      | none => exact Or.inl rfl
      | some ran =>
          cases ran with
          | true => exact Or.inr ⟨rfl, rfl⟩
          | false => exact Or.inl rfl
    · exact Or.inl rfl
  · rw [modified, if_pos rfl]
    cases attemptView tables task.key task.attemptNo <;> simp

theorem attempts_elsewhere (tables : CheckerTables) (task : Task) (status : AttemptStatus)
    (error : Option String) (elsewhere : key ≠ task.key) (number : Int) :
    attemptView (finishAttempt tables task status error) key number = attemptView tables key number := by
  unfold attemptView finishAttempt
  rw [Dict.get_modify, if_neg fun same => elsewhere (Prod.mk.inj same).1]

/-- The job of an attempt in flight is there. -/
theorem held_job {task : Task} {stage : Stage} (sound : (bookOf tables tasks task.key).Sound)
    (present : tasks.get? worker = some (task, stage)) (flying : inFlight stage = true) :
    (bookOf tables tasks task.key).held worker = some task.attemptNo ∧
      ∃ view, jobView tables task.key = some view := by
  have holds : heldBy tasks task.key worker = some task.attemptNo := by
    rw [heldBy, present]
    exact if_pos ⟨rfl, flying⟩
  refine ⟨holds, ?_⟩
  cases view : jobView tables task.key with
  | some row => exact ⟨row, rfl⟩
  | none =>
      have closed := (sound.holding worker _ holds).2
      have open_ : (bookOf tables tasks task.key).phase = .waiting := by
        show (jobView tables task.key).elim _ _ = _
        rw [view]
        rfl
      rw [open_] at closed
      cases closed

theorem moves_success (sound : (bookOf tables tasks key).Sound) {next : Tasks}
    (worked : workerStep env now tables tasks (.success worker) = some (after, next)) :
    AttemptBook.Quiet (checkerMaxAttempts env) strict (bookOf tables tasks key)
      (bookOf after next key) := by
  simp only [workerStep] at worked
  split at worked
  · next task outcome present =>
    cases worked
    have ended : AttemptStatus.done outcome.status ≠ .running := by simp
    have attempts := attempts_finish tables key task none ended
    have view : jobView (finishSuccess tables task outcome.status) key =
        if key = task.key then (jobView tables key).map fun view => (.done outcome.status, view.2.1, true)
        else jobView tables key := by
      rw [finishSuccess, view_update]
      split
      · rw [jobView, Option.map_map]
        rfl
      · rfl
    by_cases here : key = task.key
    · subst here
      obtain ⟨holds, row, there⟩ := held_job sound present rfl
      rw [if_pos rfl] at view
      cases final : terminal (.done outcome.status) with
      | true => exact moves_close final view (fun number => (attempts number).1) held_of_leave
      | false =>
          have fades : AttemptBook.Fades (bookOf tables tasks task.key)
              (bookOf (finishSuccess tables task outcome.status) (leave tasks worker) task.key) := by
            refine book_fades ?_ (fun number => (attempts number).1) held_of_leave
            show (jobView _ task.key).elim _ _ = (jobView tables task.key).elim _ _
            rw [view, there]
            rfl
          refine .settles worker task.attemptNo fades holds ?_ (attempts 0).2 (Or.inl ?_)
          · show heldBy (leave tasks worker) task.key worker = none
            rw [held_leave, if_pos rfl]
          · show (jobView _ task.key).elim _ _ = _
            rw [view, there]
            show (if terminal (.done outcome.status) = true then Phase.closed else .loose) = _
            rw [final]
            rfl
    · rw [if_neg here] at view
      exact moves_rest view (attempts_elsewhere tables task _ none here) held_of_leave
  · cases worked

theorem will_retry_below {task : Task} (limit : task.maxAttempts = checkerMaxAttempts env)
    (retry : willRetry env task now = true) : task.attemptNo < checkerMaxAttempts env := by
  unfold willRetry shouldRetryException at retry
  rw [limit, ite_self, Bool.and_eq_true] at retry
  exact of_decide_eq_true retry.1

theorem unfinished_phase {row : JobStatus × Int × Bool} (there : jobView tables key = some row)
    (open_ : unfinished tables key = true) : (bookOf tables tasks key).phase ≠ .closed := by
  show (jobView tables key).elim _ _ ≠ _
  rw [there]
  unfold jobView at there
  obtain ⟨job, found, same⟩ := Option.map_eq_some_iff.mp there
  unfold unfinished jobStatus at open_
  rw [found] at open_
  subst same
  intro closed
  change phaseOf job.status = .closed at closed
  cases shape : job.status with
  | queued => rw [shape] at closed; cases closed
  | running => rw [shape] at closed; cases closed
  | retrying => rw [shape] at closed; cases closed
  | done status =>
      simp only [Option.map_some, shape, Bool.not_eq_true'] at open_
      rw [shape] at closed
      change (if terminal (.done status) = true then Phase.closed else .loose) = .closed at closed
      rw [open_] at closed
      cases closed

/-- The attempt is settled and the job waits for the next one. -/
theorem moves_reopen {task : Task} {next : Tasks} (sound : (bookOf tables tasks task.key).Sound)
    (present : tasks.get? worker = some (task, .checking))
    (view : jobView after task.key = (jobView tables task.key).map fun view =>
      (.retrying, view.2.1, view.2.2))
    (attempts : ∀ number, attemptView after task.key number = attemptView tables task.key number ∨
      attemptView tables task.key number = some true ∧ attemptView after task.key number = some false)
    (stopped : attemptView after task.key task.attemptNo ≠ some true)
    (held : ∀ other number, heldBy next task.key other = some number →
      heldBy tasks task.key other = some number)
    (left : heldBy next task.key worker = none) (below : task.attemptNo < checkerMaxAttempts env)
    (order : strict → unfinished tables task.key = true) :
    AttemptBook.Quiet (checkerMaxAttempts env) strict (bookOf tables tasks task.key)
      (bookOf after next task.key) := by
  obtain ⟨holds, row, there⟩ := held_job sound present rfl
  rw [there, Option.map_some] at view
  have fades : AttemptBook.Fades (bookOf tables tasks task.key) (bookOf after next task.key) := by
    refine book_fades ?_ attempts held
    simp only [bookOf, view, there, Option.elim_some]
  refine .settles worker task.attemptNo fades holds left stopped (Or.inr ⟨?_, below, ?_, ?_⟩)
  · simp only [bookOf, view, Option.elim_some]
    rfl
  · simp only [bookOf, view, there, Option.elim_some]
  · exact fun met => unfinished_phase there (order met)

theorem moves_exception (sound : (bookOf tables tasks key).Sound) (exc : Raised) {next : Tasks}
    (limits : ∀ task stage, tasks.get? worker = some (task, stage) →
      task.maxAttempts = checkerMaxAttempts env)
    (order : strict → ∀ task stage, tasks.get? worker = some (task, stage) → willRetry env task now = true →
      unfinished tables task.key = true)
    (worked : workerStep env now tables tasks (.exception worker exc) = some (after, next)) :
    AttemptBook.Quiet (checkerMaxAttempts env) strict (bookOf tables tasks key)
      (bookOf after next key) := by
  simp only [workerStep] at worked
  split at worked
  · next task present =>
    cases worked
    cases retry : willRetry env task now with
    | false =>
        have attempts := attempts_finish tables key task (some exc.trace)
          (show AttemptStatus.done .crashed ≠ .running by simp)
        simp only [finishException, retry, Bool.false_eq_true, ↓reduceIte]
        have view := view_materialize (finishAttempt tables task (.done .crashed) (some exc.trace))
          key task.key task.roundId .crashed ("runner exception: " ++ exc.repr)
        split at view
        · exact moves_close rfl view (fun number => (attempts number).1) held_of_leave
        · next elsewhere =>
          exact moves_rest view (attempts_elsewhere tables task _ (some exc.trace) elsewhere) held_of_leave
    | true =>
        have attempts := attempts_finish tables key task (some exc.trace)
          (show AttemptStatus.retrying ≠ .running by simp)
        simp only [finishException, retry, ↓reduceIte]
        have held (other : Nat) (number : Int)
            (holds : heldBy (tasks.set worker (task, .retrying)) key other = some number) :
            heldBy tasks key other = some number := by
          rw [held_set] at holds
          split at holds
          · simp [inFlight] at holds
          · exact holds
        have view : jobView
            (updateJob (finishAttempt tables task .retrying (some exc.trace)) task.key fun job =>
            { job with
                status := .retrying, celeryTaskId := none, lastError := some (lastChars 8000 exc.trace) }) key =
            if key = task.key then (jobView tables key).map fun view => (.retrying, view.2.1, view.2.2)
            else jobView tables key := by
          rw [view_update]
          split
          · rw [jobView, Option.map_map]
            rfl
          · rfl
        by_cases here : key = task.key
        · subst here
          rw [if_pos rfl] at view
          refine moves_reopen sound present view (fun number => (attempts number).1) (attempts 0).2 held ?_
            (will_retry_below (limits task _ present) retry) fun met => order met task _ present retry
          rw [held_set, if_pos rfl]
          exact if_neg fun flying => (by cases flying.2)
        · rw [if_neg here] at view
          exact moves_rest view (attempts_elsewhere tables task _ (some exc.trace) here) held
  · cases worked

end Worker

/-! max_attempts. -/

/-- Only schedule_checker_jobs writes max_attempts. -/
def JobLimits (env : Settings) (tables : CheckerTables) : Prop :=
  ∀ key job, tables.checkerJobs.get? key = some job → job.maxAttempts = checkerMaxAttempts env

def TaskLimits (env : Settings) (tasks : Tasks) : Prop :=
  ∀ worker task stage, tasks.get? worker = some (task, stage) → task.maxAttempts = checkerMaxAttempts env

section Limits
variable {env : Settings} {tables : CheckerTables}

theorem limits_update (limits : JobLimits env tables) (key : JobKey) (change : CheckerJob → CheckerJob)
    (kept : ∀ job, job.maxAttempts = checkerMaxAttempts env →
      (change job).maxAttempts = checkerMaxAttempts env) :
    JobLimits env (updateJob tables key change) := by
  intro other job found
  rw [updateJob, Dict.get_modify] at found
  split at found
  · obtain ⟨old, present, rfl⟩ := Option.map_eq_some_iff.mp found
    exact kept old (limits other old present)
  · exact limits other job found

theorem limits_materialize (limits : JobLimits env tables) (key : JobKey) (roundId : Int)
    (status : CheckerStatus) (message : String) :
    JobLimits env (materializeJobStatus tables key roundId status message) :=
  limits_update
  (show JobLimits env (recordHealth tables key roundId status (some message) none Dict.empty) from limits)
    key _ fun _ => id

theorem limits_finish (limits : JobLimits env tables) (task : Task) (status : AttemptStatus)
    (error : Option String) :
    JobLimits env (finishAttempt tables task status error) :=
  limits

theorem limits_crash (limits : JobLimits env tables) (key : JobKey) (message : String) :
    JobLimits env (crashJob tables key message) := by
  unfold crashJob
  split
  · exact limits
  · exact limits_materialize limits key _ _ _

theorem limits_schedule (limits : JobLimits env tables) (tick roundId deadlineAt : Int)
    (items : List TeamServiceItem) :
    JobLimits env (scheduleCheckerJobs env tick roundId deadlineAt tables items).1 := by
  show JobLimits env (items.foldl (scheduleJob env tick roundId deadlineAt) tables)
  induction items generalizing tables with
  | nil => exact limits
  | cons item rest ih =>
      refine ih ?_
      unfold scheduleJob
      dsimp only
      split
      · intro key job found
        rw [Dict.get_set] at found
        split at found
        · cases found
          rfl
        · exact limits key job found
      split
      · exact limits
      · exact limits_update limits _ _ fun _ _ => rfl

theorem limits_finalize (limits : JobLimits env tables) (tick now : Int) :
    JobLimits env (finalizeOverdueCheckerJobs tables tick now) := by
  unfold finalizeOverdueCheckerJobs
  generalize (tables.checkerJobs.filter (overdue tick now)).entries = entries
  induction entries generalizing tables with
  | nil => exact limits
  | cons entry rest ih =>
      have one : JobLimits env (finalizeJob tables entry) :=
        limits_materialize limits entry.1 entry.2.roundId .timeout "checker job exceeded tick deadline"
      exact ih one

theorem limits_leave {tasks : Tasks} (limits : TaskLimits env tasks) (worker : Nat) :
    TaskLimits env (leave tasks worker) :=
  fun other task stage present => limits other task stage (leave_some present).1

theorem limits_set {tasks : Tasks} (limits : TaskLimits env tasks) (worker : Nat) (task : Task)
    (stage : Stage) (own : task.maxAttempts = checkerMaxAttempts env) :
    TaskLimits env (tasks.set worker (task, stage)) := by
  intro other found foundStage present
  rw [Dict.get_set] at present
  split at present
  · cases present
    exact own
  · exact limits other found foundStage present

theorem limits_worker {now : Int} {after : CheckerTables} {tasks next : Tasks} {event : WorkerEvent}
    (jobs : JobLimits env tables) (limits : TaskLimits env tasks)
    (worked : workerStep env now tables tasks event = some (after, next)) :
    JobLimits env after ∧ TaskLimits env next := by
  cases event with
  | start worker key celeryTaskId =>
      simp only [workerStep, startAttempt] at worked
      split at worked
      · cases worked
      cases found : tables.checkerJobs.get? key with
      | none =>
          simp only [found] at worked
          cases worked
          exact ⟨jobs, limits⟩
      | some job =>
          simp only [found] at worked
          by_cases blocked : terminal job.status ∨ job.status = .running
          · simp only [if_pos blocked] at worked
            cases worked
            exact ⟨jobs, limits⟩
          by_cases late : job.deadlineAt ≤ now
          · simp only [if_neg blocked, if_pos late] at worked
            cases worked
            exact ⟨limits_materialize jobs key _ _ _, limits⟩
          · simp only [if_neg blocked, if_neg late] at worked
            cases worked
            refine ⟨?_, limits_set limits worker _ _ (jobs key job found)⟩
            change JobLimits env (updateJob tables key _)
            exact limits_update jobs key _ fun _ => id
  | checks worker outcome =>
      simp only [workerStep] at worked
      split at worked
      · next task present =>
        cases worked
        exact ⟨jobs, limits_set limits worker task _ (limits worker task _ present)⟩
      · cases worked
  | success worker =>
      simp only [workerStep] at worked
      split at worked
      · next task outcome present =>
        cases worked
        exact ⟨limits_update (limits_finish jobs task (.done outcome.status) none) task.key _ fun _ => id,
          limits_leave limits worker⟩
      · cases worked
  | exception worker exc =>
      simp only [workerStep] at worked
      split at worked
      · next task present =>
        cases worked
        have own := limits worker task _ present
        unfold finishException
        cases willRetry env task now with
        | true =>
            exact ⟨limits_update (limits_finish jobs task .retrying (some exc.trace)) task.key
              _ fun _ => id, limits_set limits worker task _ own⟩
        | false =>
            exact ⟨limits_materialize (limits_finish jobs task (.done .crashed) (some exc.trace)) _ _ _ _,
              limits_leave limits worker⟩
      · cases worked
  | retryEnqueued worker taskId =>
      simp only [workerStep] at worked
      split at worked
      · next task present =>
        cases worked
        exact ⟨limits_update jobs task.key _ fun _ => id, limits_leave limits worker⟩
      · cases worked
  | retryFailed worker error =>
      simp only [workerStep] at worked
      split at worked
      · next task present =>
        cases worked
        exact ⟨limits_crash jobs task.key _, limits_leave limits worker⟩
      · cases worked
  | die worker =>
      simp only [workerStep] at worked
      split at worked
      · cases worked
        exact ⟨jobs, limits_leave limits worker⟩
      · cases worked

theorem limits_step {before after : System} {event : Event} (jobs : JobLimits env before.tables)
    (limits : TaskLimits env before.tasks) (taken : step env before event = some after) :
    JobLimits env after.tables ∧ TaskLimits env after.tasks := by
  cases event with
  | clock now =>
      cases taken
      exact ⟨jobs, limits⟩
  | schedule tick roundId deadlineAt items =>
      cases taken
      exact ⟨limits_schedule jobs tick roundId deadlineAt items, limits⟩
  | enqueued key taskId =>
      cases taken
      refine ⟨limits_update jobs key _ fun job own => ?_, limits⟩
      split <;> exact own
  | enqueueFailed key error =>
      cases taken
      exact ⟨limits_crash jobs key _, limits⟩
  | worker event =>
      obtain ⟨⟨tables, tasks⟩, worked, same⟩ := Option.map_eq_some_iff.mp taken
      subst same
      exact limits_worker jobs limits worked
  | finalize tick =>
      cases taken
      exact ⟨limits_finalize jobs tick _, limits⟩

end Limits

/-! Runs. -/

section Runs
variable {env : Settings} {strict : Prop} {before after : System} {event : Event} {key : JobKey}

theorem worker_moves {tables : CheckerTables} {next : Tasks} {event : WorkerEvent}
    (sound : (bookOf before.tables before.tasks key).Sound) (limits : TaskLimits env before.tasks)
    (order : strict → inOrder env before (.worker event) = true)
    (worked : workerStep env before.clock before.tables before.tasks event = some (tables, next)) :
    AttemptBook.Moves (checkerMaxAttempts env) strict (bookOf before.tables before.tasks key)
      (bookOf tables next key) := by
  cases event with
  | start worker started celeryTaskId =>
      refine moves_start celeryTaskId started (fun met => ?_) worked
      exact Bool.not_eq_true' _ ▸ order met
  | checks worker outcome =>
      simp only [workerStep] at worked
      split at worked
      · next task present =>
        cases worked
        refine Or.inl (.single (moves_rest rfl (fun _ => rfl) ?_))
        intro other number holds
        rw [held_set] at holds
        split at holds
        · next same =>
          subst same
          rw [heldBy, present]
          exact holds
        · exact holds
      · cases worked
  | success worker => exact Or.inl (.single (moves_success sound worked))
  | exception worker exc =>
      refine Or.inl
        (.single (moves_exception sound exc (limits worker)
          (fun met task stage present retry => ?_) worked))
      have timely := order met
      simp only [inOrder, present, retry, Bool.not_true, Bool.false_or] at timely
      exact timely
  | retryEnqueued worker taskId =>
      simp only [workerStep] at worked
      split at worked
      · next task present =>
        cases worked
        exact Or.inl
          (.single (moves_rest (view_kept before.tables key task.key _ fun _ => rfl) (fun _ => rfl)
            held_of_leave))
      · cases worked
  | retryFailed worker error =>
      simp only [workerStep] at worked
      split at worked
      · next task present =>
        cases worked
        exact Or.inl (.single (moves_crash task.key _ held_of_leave))
      · cases worked
  | die worker =>
      simp only [workerStep] at worked
      split at worked
      · cases worked
        exact Or.inl (.single (moves_rest rfl (fun _ => rfl) held_of_leave))
      · cases worked

theorem step_moves (strict : Prop) (sound : (bookOf before.tables before.tasks key).Sound)
    (limits : TaskLimits env before.tasks) (order : strict → inOrder env before event = true)
    (taken : step env before event = some after) :
    AttemptBook.Moves (checkerMaxAttempts env) strict (bookOf before.tables before.tasks key)
      (bookOf after.tables after.tasks key) := by
  cases event with
  | clock now =>
      cases taken
      exact Or.inl .refl
  | schedule tick roundId deadlineAt items =>
      cases taken
      exact Or.inl (moves_schedule env tick roundId deadlineAt items)
  | enqueued other taskId =>
      cases taken
      refine Or.inl
        (.single (moves_rest (view_kept before.tables key other _ fun job => ?_) (fun _ => rfl)
          fun _ _ => id))
      split <;> rfl
  | enqueueFailed other error =>
      cases taken
      exact Or.inl (.single (moves_crash other _ fun _ _ => id))
  | worker event =>
      obtain ⟨⟨tables, tasks⟩, worked, same⟩ := Option.map_eq_some_iff.mp taken
      subst same
      exact worker_moves sound limits order worked
  | finalize tick =>
      cases taken
      exact Or.inl (moves_finalize tick _)

structure Numbered (env : Settings) (system : System) : Prop where
  sound : ∀ key, (bookOf system.tables system.tasks key).Sound
  jobs : JobLimits env system.tables
  tasks : TaskLimits env system.tasks

theorem initial_sound (now : Int) (key : JobKey) :
    (bookOf (initial now).tables (initial now).tasks key).Sound where
  nonneg := Int.le_refl 0
  numbered number := by
    show (none : Option Bool).isSome = true ↔ 1 ≤ number ∧ number ≤ 0
    simp only [Option.isSome_none, Bool.false_eq_true, false_iff]
    omega
  running number never := by cases never
  holding worker number never := by cases never
  alone worker other number another never := by cases never

theorem initial_numbered (env : Settings) (now : Int) : Numbered env (initial now) :=
  ⟨initial_sound now, fun _ _ never => (by cases never), fun _ _ _ never => (by cases never)⟩

theorem numbered_step (numbered : Numbered env before) (taken : step env before event = some after) :
    Numbered env after := by
  obtain ⟨jobs, tasks⟩ := limits_step numbered.jobs numbered.tasks taken
  refine ⟨fun key => ?_, jobs, tasks⟩
  exact (numbered.sound key).moves (step_moves False (numbered.sound key) numbered.tasks False.elim taken)

end Runs

/-- The attempts of a job are numbered from 1 to its counter, and only the last one may run. -/
structure Bookkept (tables : CheckerTables) (key : JobKey) (job : CheckerJob) : Prop where
  numbered : ∀ number, tables.checkerAttempts.contains (key, number) = true ↔
    1 ≤ number ∧ number ≤ job.attempts
  running : ∀ one other first second, tables.checkerAttempts.get? (key, one) = some first →
    tables.checkerAttempts.get? (key, other) = some second → first.status = .running →
    second.status = .running → one = other

section Bookkept
variable {tables : CheckerTables} {tasks : Tasks} {key : JobKey} {job : CheckerJob}

theorem book_of_job (tasks : Tasks) (found : tables.checkerJobs.get? key = some job) :
    (bookOf tables tasks key).phase = phaseOf job.status ∧
      (bookOf tables tasks key).started = job.attempts ∧
      (bookOf tables tasks key).final = job.resultStatus.isSome := by
  have view : jobView tables key = some (job.status, job.attempts, job.resultStatus.isSome) := by
    rw [jobView, found]
    rfl
  simp only [bookOf, view, Option.elim_some, and_self]

theorem bookkept_of_sound (sound : (bookOf tables tasks key).Sound)
    (found : tables.checkerJobs.get? key = some job) :
    Bookkept tables key job := by
  obtain ⟨_, started, _⟩ := book_of_job tasks found
  have last {number : Int} {attempt : CheckerAttempt}
      (present : tables.checkerAttempts.get? (key, number) = some attempt)
      (ran : attempt.status = .running) : number = (bookOf tables tasks key).started := by
    refine (sound.running number ?_).1
    show attemptView tables key number = some true
    rw [attemptView, present]
    exact congrArg some (decide_eq_true ran)
  constructor
  · intro number
    rw [← started, ← sound.numbered]
    show _ ↔ (attemptView tables key number).isSome = true
    rw [attemptView, Option.isSome_map]
    rfl
  · intro one other first second presentOne presentOther ranOne ranOther
    exact (last presentOne ranOne).trans (last presentOther ranOther).symm

end Bookkept

/-- In every run the attempts of a job are numbered without gap, and one of them may run. -/
theorem attempts_numbered (env : Settings) (now : Int) (system : System)
    (run : Steps (step env) (fun _ _ => True) (initial now) system) (key : JobKey) (job : CheckerJob)
    (found : system.tables.checkerJobs.get? key = some job) : Bookkept system.tables key job := by
  have numbered := steps_invariant (Numbered env) (fun _ _ _ kept _ taken => numbered_step kept taken)
    (initial_numbered env now) run
  exact bookkept_of_sound (numbered.sound key) found

structure Orderly (env : Settings) (system : System) : Prop where
  numbered : Numbered env system
  fair : ∀ key, (bookOf system.tables system.tasks key).Fair (checkerMaxAttempts env)

theorem initial_orderly (env : Settings) (now : Int) : Orderly env (initial now) := by
  refine ⟨initial_numbered env now, fun key => ?_⟩
  have positive : 0 < checkerMaxAttempts env :=
    lt_of_lt_of_le Int.one_pos (le_max_left 1 env.checkerMaxAttempts)
  exact ⟨positive.le, fun _ => positive, fun _ => rfl⟩

theorem orderly_step {env : Settings} {before after : System} {event : Event}
    (orderly : Orderly env before) (met : inOrder env before event = true)
    (taken : step env before event = some after) : Orderly env after := by
  refine ⟨numbered_step orderly.numbered taken, fun key => ?_⟩
  have moves := step_moves True (orderly.numbered.sound key) orderly.numbered.tasks (fun _ => met) taken
  exact (orderly.fair key).moves trivial (orderly.numbered.sound key) moves

/-- A step that adds an attempt finds the job without a result. -/
def StartsFresh (before after : System) : Prop :=
  ∀ key job later, before.tables.checkerJobs.get? key = some job →
    after.tables.checkerJobs.get? key = some later →
    job.attempts < later.attempts → job.resultStatus = none

theorem starts_fresh {env : Settings} {before after : System} {event : Event}
    (orderly : Orderly env before) (met : inOrder env before event = true)
    (taken : step env before event = some after) : StartsFresh before after := by
  intro key job later found present more
  obtain ⟨_, started, final⟩ := book_of_job before.tasks found
  obtain ⟨_, counted, _⟩ := book_of_job after.tasks present
  rcases step_moves True (orderly.numbered.sound key) orderly.numbered.tasks (fun _ => met) taken with
    quiet | ⟨worker, begins⟩
  · have same := AttemptBook.quiet_started quiet
    rw [started, counted] at same
    omega
  · have fresh := (orderly.fair key).fresh (Or.inl (begins.fit trivial))
    rw [final] at fresh
    exact Option.not_isSome_iff_eq_none.mp (Bool.not_eq_true _ ▸ fresh)

/-- In a run in which no task starts on a job with a result outside TERMINAL_STATUSES, and no worker puts
a finished job back to RETRYING, the books are kept, the attempts stay within max_attempts, and none starts
once there is a result. -/
theorem attempts_in_order (env : Settings) (now : Int) (system : System)
    (run : Steps (step env) (fun system event => inOrder env system event = true) (initial now) system) :
    (∀ key job, system.tables.checkerJobs.get? key = some job →
      Bookkept system.tables key job ∧ job.attempts ≤ job.maxAttempts) ∧
    ∀ event after, inOrder env system event = true → step env system event = some after →
    StartsFresh system after := by
  have orderly := steps_invariant (Orderly env) (fun _ _ _ kept met taken => orderly_step kept met taken)
    (initial_orderly env now) run
  constructor
  · intro key job found
    refine ⟨bookkept_of_sound (orderly.numbered.sound key) found, ?_⟩
    obtain ⟨_, started, _⟩ := book_of_job system.tasks found
    rw [orderly.numbered.jobs key job found, ← started]
    exact (orderly.fair key).bounded
  · exact fun event after met taken => starts_fresh orderly met taken

/-! One job, one attempt allowed. -/

def oneAttempt : Settings := { defaultSettings id with checkerMaxAttempts := 1 }

def firstAttempt (status : CheckerStatus) : List Event :=
  [.schedule 1 1 120 [⟨2, 7, "host", 8080⟩], .worker (.start 0 (1, 2, 7) none),
    .worker (.checks 0 ⟨status, none, none, Dict.empty⟩), .worker (.success 0)]

def ranAttempt (status : CheckerStatus) : System :=
  (exec (step oneAttempt) (fun system event => inOrder oneAttempt system event = true) (initial 100)
    (firstAttempt status)).getD (initial 0)

/-- A second delivery of the task is skipped when the first one has ended with MUMBLE. -/
theorem mumble_is_final :
    ∃ after, step oneAttempt (ranAttempt .mumble) (.worker (.start 1 (1, 2, 7) none)) = some after ∧
      StartsFresh (ranAttempt .mumble) after := by
  refine ⟨_, rfl, ?_⟩
  exact (attempts_in_order oneAttempt 100 (ranAttempt .mumble)
    (exec_steps (firstAttempt .mumble) _ _ (by decide +kernel))).2
    (.worker (.start 1 (1, 2, 7) none)) _ (by decide +kernel) rfl

/-- A second delivery starts another attempt when the first one has ended with FLAGMISSING. -/
theorem flag_missing_restarts :
    ∃ first last, exec (step oneAttempt) (fun _ _ => True) (initial 100)
      (firstAttempt .flagMissing) = some first ∧
      step oneAttempt first (.worker (.start 1 (1, 2, 7) none)) = some last ∧
      (first.tables.checkerJobs.get? (1, 2, 7)).map
      (fun job => (job.status, job.attempts, job.maxAttempts, job.resultStatus)) =
        some (.done .flagMissing, 1, 1, some .flagMissing) ∧
      (last.tables.checkerJobs.get? (1, 2, 7)).map
      (fun job => (job.status, job.attempts, job.maxAttempts, job.resultStatus)) =
        some (.running, 2, 1, some .flagMissing) := by
  refine ⟨_, _, rfl, rfl, ?_⟩
  decide +kernel

end KosSim.CheckerAttempts
