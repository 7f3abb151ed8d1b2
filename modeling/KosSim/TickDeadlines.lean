import KosSim.CheckerTicks
import KosSim.FlagRounds

/-!
The checker jobs of a game that stays wanted. The jobs of a tick have the end of its
window as their deadline, and the next tick opens after that end. So a boundary finds
every job of the tick before it finished or overdue, and never defers its scoring.
-/

namespace KosSim.TickDeadlines
open Library Schema EnoChecker CheckerJobs Rotator Platform PlatformFrames TickRounds RoundWindows
    JobDeadlines
open FlagRounds (boundary_deadlines)
open TickClosing (scoresPrevious)
open CheckerTicks (Inactive ready_inactive)

/-! Overdue jobs. -/

section Tables
variable {tables : CheckerTables}

def IdleJob (key : JobKey) (tables : CheckerTables) : Prop :=
  ∀ job, tables.checkerJobs.get? key = some job → active job.status = false

theorem finalize_job_get (entry : JobKey × CheckerJob) (key : JobKey) {job : CheckerJob}
    (found : (finalizeJob tables entry).checkerJobs.get? key = some job) :
    (key = entry.1 ∧ active job.status = false) ∨
      (key ≠ entry.1 ∧ tables.checkerJobs.get? key = some job) := by
  change (updateJob (recordHealth tables entry.1 entry.2.roundId .timeout _ none Dict.empty) entry.1
    _).checkerJobs.get? key = _ at found
  rw [updateJob, Dict.get_modify] at found
  split at found
  · next same =>
    obtain ⟨old, _, made⟩ := Option.map_eq_some_iff.mp found
    rw [← made]
    exact Or.inl ⟨same, rfl⟩
  · next other => exact Or.inr ⟨other, found⟩

theorem finalize_job_idle {key : JobKey} (entry : JobKey × CheckerJob) (idle : IdleJob key tables) :
    IdleJob key (finalizeJob tables entry) := by
  intro job found
  rcases finalize_job_get entry key found with ⟨_, closed⟩ | ⟨_, same⟩
  · exact closed
  · exact idle job same

/-- Closing the overdue jobs of a tick whose deadlines have passed leaves none of them active. -/
theorem finalize_inactive {tick now : Int}
    (passed : ∀ key deadline, deadlineOf tables key = some deadline → key.1 = tick → deadline ≤ now) :
    Inactive tick (finalizeOverdueCheckerJobs tables tick now) := by
  intro key job found ticked
  have idle : IdleJob key (finalizeOverdueCheckerJobs tables tick now) := by
    by_cases before : IdleJob key tables
    · exact foldl_keeps (IdleJob key) (fun _ entry _ idle => finalize_job_idle entry idle) before
    -- An active job is overdue, so the loop comes to it.
    simp only [IdleJob, not_forall, Bool.not_eq_false] at before
    obtain ⟨old, stored, running⟩ := before
    have deadline : old.deadlineAt ≤ now :=
      passed key old.deadlineAt (by rw [deadlineOf, stored]; rfl) ticked
    have late : overdue tick now key old = true := by
      simp only [overdue, ticked, running, deadline, decide_true, Bool.and_self]
    have listed : (key, old) ∈ (tables.checkerJobs.filter (overdue tick now)).entries :=
      List.mem_filter.mpr ⟨(Dict.mem_entries_iff _ _ _).mpr stored, late⟩
    apply foldl_reaches (fun _ => True) (IdleJob key) listed (fun _ _ _ => trivial)
      (fun _ entry _ idle => finalize_job_idle entry idle) ?_ trivial
    intro reached _ job found
    rcases finalize_job_get (key, old) key found with ⟨_, closed⟩ | ⟨other, _⟩
    · exact closed
    · exact absurd rfl other
  exact idle job found

end Tables

/-! The deadlines of a row's ticks. -/

/-- No job of a later tick, and the deadlines of the earlier ticks are over by the given second. -/
def JobsReach (env : Settings) (db : Db) (tick origin : Int) : Prop :=
  ∀ key deadline, deadlineOf db.checker key = some deadline → 1 ≤ key.1 ∧ key.1 ≤ tick ∧
    (key.1 < tick → deadline ≤ origin * second) ∧
    (key.1 = tick → deadline ≤ (origin + env.rotationSeconds) * second)

def JobsFit (env : Settings) (clock : Int) (db : Db) (row : GameTimer) : Prop :=
  (row.currentTick < 1 ∧ ∀ key deadline, deadlineOf db.checker key = some deadline →
      key.1 = 1 ∧ deadline ≤ (seconds clock + env.rotationSeconds) * second) ∨
    ∃ start, 1 ≤ row.currentTick ∧ row.tickStart = some start ∧ JobsReach env db row.currentTick start

/-- The boundary under way was called after the start of its tick. -/
def Called : Loop → Prop
  | .boundary _ access _ startedAt => ∀ start, access.row.tickStart = some start → start ≤ seconds startedAt
  | _ => True

structure Deadlined (env : Settings) (state : State) : Prop where
  timed : Timed env state
  committed : JobsFit env state.clock state.db (storedRow env state.db)
  held : ∀ row, heldRow state.loop = some row → JobsFit env state.clock state.db row
  called : Called state.loop

section Rows
variable {env : Settings} {clock : Int} {db : Db} {row : GameTimer}

theorem jobs_later {now : Int} (fit : JobsFit env clock db row) (le : clock ≤ now) :
    JobsFit env now db row := by
  have later := seconds_mono le
  rcases fit with ⟨unopened, jobs⟩ | opened
  · refine Or.inl ⟨unopened, fun key deadline found => ?_⟩
    obtain ⟨first, before⟩ := jobs key deadline found
    unfold second at *
    exact ⟨first, by omega⟩
  · exact Or.inr opened

theorem jobs_same {other : GameTimer} (fit : JobsFit env clock db row)
    (tick : other.currentTick = row.currentTick) (starts : other.tickStart = row.tickStart) :
    JobsFit env clock db other := by
  unfold JobsFit
  rw [tick, starts]
  exact fit

theorem jobs_frame {after : Db} (fit : JobsFit env clock db row)
    (deadlines : SameDeadlines db.checker after.checker) :
    JobsFit env clock after row := by
  unfold JobsFit JobsReach
  simp only [deadlines _]
  exact fit

theorem jobs_opened (fit : JobsFit env clock db row) (unopened : row.currentTick < 1) (self : GameTimer) :
    JobsFit env clock db (GameTimer.openTick env self (seconds clock) 1) := by
  rcases fit with ⟨_, jobs⟩ | ⟨_, opened, _⟩
  -- Tick 1 opens now; jobs before it come from a bootstrap whose iteration has not committed.
  · refine Or.inr ⟨seconds clock, le_refl 1, rfl, fun key deadline found => ?_⟩
    obtain ⟨first, before⟩ := jobs key deadline found
    exact ⟨first.ge, first.le, fun earlier_ => absurd (first ▸ earlier_) (lt_irrefl 1), fun _ => before⟩
  · omega

theorem sync_jobs (self : GameTimer) (fit : JobsFit env clock db row) :
    JobsFit env clock db (GameTimer.syncScheduledStart env self (some row) (seconds clock)).row := by
  rcases sync_row_cases env self row (seconds clock) with same | ⟨_, _, same⟩ | ⟨_, unopened, same⟩
  · rw [same]
    exact fit
  · rw [same]
    exact jobs_same fit rfl rfl
  · rw [same]
    exact jobs_opened fit unopened _

/-- The jobs of the closed tick are due when the next one opens. -/
theorem finished_jobs {access : GameTimer.Access} (wanted : Wanted access.row)
    (opened : 1 ≤ access.row.currentTick) (fitting : Fitting env clock db access.row)
    (fit : JobsFit env clock db access.row)
    (due : ∃ stop, access.row.tickEnd = some stop ∧ stop ≤ seconds clock) :
    JobsFit env clock db (finishedRow env access (seconds clock)) := by
  rw [finished_next wanted opened]
  obtain ⟨stop, stopSet, past⟩ := due
  rcases fitting with ⟨unopened, _⟩ | ⟨start, _, starts, ends, begun, _, _⟩
  · omega
  rcases fit with ⟨unopened, _⟩ | ⟨origin, _, originSet, jobs⟩
  · omega
  rw [starts, Option.some.injEq] at originSet
  rw [stopSet, Option.some.injEq] at ends
  subst originSet ends
  refine Or.inr ⟨seconds clock, by show 1 ≤ access.row.currentTick + 1; omega, rfl,
    fun key deadline found => ?_⟩
  obtain ⟨first, last, before, own⟩ := jobs key deadline found
  show 1 ≤ key.1 ∧ key.1 ≤ access.row.currentTick + 1 ∧ (key.1 < access.row.currentTick + 1 → _) ∧
    (key.1 = access.row.currentTick + 1 → _)
  refine ⟨first, by omega, fun _ => ?_, fun next => by omega⟩
  unfold second at *
  -- The jobs of earlier ticks were due at the closed tick's start, its own at its end.
  rcases lt_or_eq_of_le last with earlier_ | same
  · have ended := before earlier_
    omega
  · have ended := own same
    omega

/-- Scheduling gives the jobs of the row's tick the end of its window. -/
theorem scheduled_jobs {access : GameTimer.Access} {round : Round} (items : List TeamServiceItem)
    (opened : 1 ≤ access.row.currentTick) (fitting : Fitting env clock db access.row)
    (fit : JobsFit env clock db access.row) (window : WindowOf access round) :
    JobsFit env clock { db with checker :=
      (scheduleCheckerJobs env access.row.currentTick round.roundId round.endsAt db.checker
        items).1 } access.row := by
  obtain ⟨start, starts, _, _, _, same⟩ := window_of_fitting opened fitting window
  rcases fit with ⟨unopened, _⟩ | ⟨origin, _, originSet, jobs⟩
  · omega
  rw [starts, Option.some.injEq] at originSet
  subst originSet
  have ends : round.endsAt = (start + env.rotationSeconds) * second := by rw [same]; rfl
  refine Or.inr ⟨start, opened, starts, fun key deadline found => ?_⟩
  -- A job that was there keeps its deadline; a new one gets the end of the round.
  rcases schedule_deadline_cases db.checker env _ _ _ items found with old | ⟨here, new⟩
  · exact jobs key deadline old
  · exact ⟨here ▸ opened, here.le, fun earlier_ => absurd here earlier_.ne, fun _ => (new.trans ends).le⟩

/-- The committed row fits if the row of an iteration on an open tick does. -/
theorem jobs_committed {access : GameTimer.Access} (follows : Follows db access)
    (opened : 1 ≤ access.row.currentTick) (fitting : Fitting env clock db access.row)
    (fit : JobsFit env clock db access.row) : JobsFit env clock db (storedRow env db) := by
  unfold storedRow
  rcases follows with ⟨committed, stored, _, tick, starts, _⟩ | ⟨early, first⟩
  · rw [stored]
    exact jobs_same fit tick.symm starts.symm
  · rcases fitting with ⟨unopened, _⟩ | ⟨start, _, starts, _, begun, _, _⟩
    · omega
    rcases fit with ⟨unopened, _⟩ | ⟨origin, _, originSet, jobs⟩
    · omega
    rw [starts, Option.some.injEq] at originSet
    subst originSet
    refine Or.inl ⟨?_, fun key deadline found => ?_⟩
    · cases stored : db.gameState with
      | none => exact Int.zero_lt_one
      | some committed => exact early committed stored
    · obtain ⟨positive, last, _, own⟩ := jobs key deadline found
      have deadline_ := own (by omega)
      unfold second at *
      exact ⟨by omega, by omega⟩

theorem called_of {access : GameTimer.Access} (opened : 1 ≤ access.row.currentTick)
    (fitting : Fitting env clock db access.row) {kind : Kind} {round : Round} :
    Called (.boundary kind access round clock) := by
  intro start starts
  rcases fitting with ⟨unopened, _⟩ | ⟨origin, _, originSet, _, begun, _, _⟩
  · omega
  · rw [starts, Option.some.injEq] at originSet
    exact originSet ▸ begun

end Rows

theorem deadlined_rotates {env : Settings} {state : State} {event : RotatorEvent} {db : Db} {loop : Loop}
    (deadlined : Deadlined env state) (timed : Timed env { state with db := db, loop := loop })
    (rotates : Rotates env state.clock state.db event state.loop db loop) :
    Deadlined env { state with db := db, loop := loop } := by
  have working := deadlined.timed.paced.working
  have rows := deadlined.timed.held
  have due := deadlined.timed.due
  have held := deadlined.held
  have committed := deadlined.committed
  generalize state.loop = before at rotates working rows due held
  cases rotates with
  | failed event loop => exact ⟨timed, committed, fun _ never => (by cases never), trivial⟩
  | polled =>
      refine ⟨timed, committed, ?_, trivial⟩
      intro row same
      cases same
      exact sync_jobs _ committed
  | bootstraps access round ready =>
      have holding : Holding state.db access := working
      have onTick := (bootstrap_round_some holding.loaded ready).1
      exact ⟨timed, committed, held, called_of onTick.opened (rows access.row rfl).2⟩
  | skips access => exact ⟨timed, committed, held, trivial⟩
  | bounded kind access round startedAt boundary done =>
      have deadlines := boundary_deadlines done
      have state_ := (run_tick_boundary_frame done).2.1
      have stored : storedRow env boundary.db = storedRow env state.db := by rw [storedRow, state_]; rfl
      refine ⟨timed, ?_, fun row same => jobs_frame (held row same) deadlines, trivial⟩
      show JobsFit env state.clock boundary.db (storedRow env boundary.db)
      rw [stored]
      exact jobs_frame committed deadlines
  | queued kind access round tick items =>
      obtain ⟨holding, onTick, window, ticked, _⟩ := working
      subst ticked
      have fitting := (rows access.row rfl).2
      have fit := scheduled_jobs items onTick.opened fitting (held access.row rfl) window
      refine ⟨timed, ?_, ?_, trivial⟩
      · exact jobs_committed (follows_same holding.follows rfl) onTick.opened
          (fitting_frame fitting rfl) fit
      · intro row same
        cases same
        exact fit
  | drained kind access =>
      refine ⟨timed, committed, ?_, ?_⟩
      · cases kind <;> exact held
      · cases kind <;> trivial
  | enqueued kind access job rest taskId =>
      have deadlines := enqueued_deadlines state.db.checker job taskId
      exact ⟨timed, jobs_frame committed deadlines,
        fun row same => jobs_frame (held row same) deadlines, trivial⟩
  | notEnqueued kind access job rest error =>
      have deadlines := crash_deadlines state.db.checker job ("enqueue failed: " ++ error)
      exact ⟨timed, jobs_frame committed deadlines,
        fun row same => jobs_frame (held row same) deadlines, trivial⟩
  | ends access round ready =>
      have holding : Holding state.db access := working
      have onTick := (end_round_some holding.loaded ready).1
      exact ⟨timed, committed, held, called_of onTick.opened (rows access.row rfl).2⟩
  | commits access =>
      exact ⟨timed, jobs_frame (held access.row rfl) (SameDeadlines.refl _),
        fun _ never => (by cases never), trivial⟩
  | closes access =>
      obtain ⟨_, onTick, _⟩ := working
      obtain ⟨wanted, fitting⟩ := rows access.row rfl
      exact ⟨timed,
        jobs_frame (finished_jobs wanted onTick.opened fitting (held access.row rfl) due)
        (SameDeadlines.refl _), fun _ never => (by cases never), trivial⟩

theorem command_jobs {env : Settings} {before : State} {event : Event} {row : GameTimer}
    (met : steadily before event = true)
    (commands : Commands env before.db (seconds before.clock) event row)
    (fit : JobsFit env before.clock before.db (storedRow env before.db)) :
    JobsFit env before.clock before.db row := by
  cases commands with
  | synced => exact sync_jobs _ fit
  | desired state =>
      cases of_decide_eq_true met
      show JobsFit _ _ _ (GameTimer.afterDesired _ .running)
      unfold GameTimer.afterDesired
      dsimp only
      split <;> exact jobs_same fit rfl rfl
  | scheduled startAt stopAfterTick scoreboardFreezeTick => exact jobs_same fit rfl rfl

theorem deadlined_step {env : Settings} {deployment : InitDb.Deployment} {before after : State}
    {event : Event} (deadlined : Deadlined env before) (met : steadily before event = true)
    (taken : step env deployment before event = some after) : Deadlined env after := by
  have timed := timed_step deadlined.timed met taken
  cases play_cases (steadily_playing met) taken with
  | clock now =>
      have le : before.clock ≤ now := of_decide_eq_true met
      exact ⟨timed, jobs_later deadlined.committed le,
        fun row same => jobs_later (deadlined.held row same) le, deadlined.called⟩
  | rotator event db loop rotates => exact deadlined_rotates deadlined timed rotates
  | submit event rows sessions submits =>
      exact ⟨timed, deadlined.committed, deadlined.held, deadlined.called⟩
  | worker event checker tasks worked =>
      have deadlines := worker_deadlines worked
      exact ⟨timed, jobs_frame deadlined.committed deadlines,
        fun row same => jobs_frame (deadlined.held row same) deadlines, deadlined.called⟩
  | command event row idle commands =>
      have fit := command_jobs met commands deadlined.committed
      exact ⟨timed, jobs_frame fit (SameDeadlines.refl _),
        fun other same => jobs_frame (deadlined.held other same) (SameDeadlines.refl _), deadlined.called⟩

theorem deadlined_start {env : Settings} {state : State} (timed : Timed env state)
    (idle : state.loop = .idle) (unstarted : (storedRow env state.db).currentTick < 1)
    (jobless : state.db.checker.checkerJobs = Dict.empty) :
    Deadlined env state := by
  refine ⟨timed, Or.inl ⟨unstarted, ?_⟩, ?_, ?_⟩
  · intro key deadline found
    rw [deadlineOf, jobless] at found
    cases found
  · rw [idle]
    exact fun row never => by cases never
  · rw [idle]
    trivial

/-- In a game that stays wanted no boundary defers the scoring of the tick before it. -/
theorem never_deferred {env : Settings} {state : State} (deadlined : Deadlined env state) (event : Event) :
    scoresPrevious env state event = true := by
  unfold scoresPrevious
  split
  · split
    · next kind access round startedAt held =>
      have working := deadlined.timed.paced.working
      have called := deadlined.called
      have fit := deadlined.held access.row (by rw [held]; rfl)
      rw [held] at working called
      obtain ⟨holding, onTick, window⟩ := working
      obtain ⟨start, starts, _, _, _, same⟩ := window_of_fitting onTick.opened
        (deadlined.timed.held access.row (by rw [held]; rfl)).2 window
      have named : round.roundId = access.row.currentTick := by rw [same]; rfl
      have numbered := deadlined.timed.paced.numbered
      have ticked : (ensureFlagRound env state.db round.roundId round.startsAt round.endsAt).2 =
          round.roundId := by
        by_cases old : round.roundId ≤ state.db.maxTick
        · rw [ensure_present env numbered _ _ (named ▸ onTick.opened) old]
        · have reach := holding.reach
          rw [ensure_next numbered _ _ (by omega)]
      obtain ⟨rounds, shape⟩ :=
        ensure_flag_round_frame env state.db round.roundId round.startsAt round.endsAt
      dsimp only
      rw [ticked, shape, Bool.or_eq_true, decide_eq_true_eq]
      by_cases first : round.roundId ≤ 1
      · exact Or.inl first
      right
      apply ready_inactive.mpr
      apply finalize_inactive
      intro key deadline found here
      -- Deadlines of the tick before are not after the start of this one, and the boundary is called later.
      have begun := called start starts
      rcases fit with ⟨unopened, _⟩ | ⟨origin, _, originSet, jobs⟩
      · have opened := onTick.opened
        omega
      rw [starts, Option.some.injEq] at originSet
      have ended := (jobs key deadline found).2.2.1 (by omega)
      unfold seconds second at *
      rw [Int.fdiv_eq_ediv_of_nonneg _ (by decide)] at begun
      omega
    · rfl
  · rfl

end KosSim.TickDeadlines
