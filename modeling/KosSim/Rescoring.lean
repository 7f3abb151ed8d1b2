import KosSim.CheckerTicks
import KosSim.TickRounds

/-!
The second scoring of a tick. From the boundary that first scores a tick, its
inputs change only through transactions that come late for it: a worker's result
for one of its jobs, or a submission that began before the end of its window.
Without these every later scoring writes the rows that are there.
-/

namespace KosSim.Rescoring
open Library Schema CheckerJobs Rotator Platform PlatformFrames SubmitSessions TickRounds
    TickClosing ScoringInputs
open CheckerTicks

/-- The rotator, submissions, workers and the public; no command of the admin. -/
def unattended : Event → Bool
  | .admin _ | .bootstrap => false
  | _ => true

theorem unattended_playing {event : Event} (met : unattended event = true) : playing event = true := by
  cases event with
  | admin event => cases met
  | bootstrap => cases met
  | clock | rotator | submit | worker | publicSync => rfl

/-! What holds in every unattended run. -/

/-- Only a game that is wanted runs. -/
def Steady (row : GameTimer) : Prop := row.state = .running → row.desiredState = .running

structure Undisturbed (state : State) : Prop where
  paced : Paced state
  aligned : Aligned state.db.checker
  tasks : TasksAligned state.tasks
  committed : ∀ row, state.db.gameState = some row → Steady row
  held : ∀ row, heldRow state.loop = some row → Steady row

section Undisturbed
variable {env : Settings}

theorem steady_sync {self row : GameTimer} {now : Int} (steady : Steady row) :
    Steady (GameTimer.syncScheduledStart env self (some row) now).row := by
  rcases sync_row_cases env self row now with same | ⟨desired, _, same⟩ | ⟨desired, _, same⟩
  · rw [same]
    exact steady
  · rw [same]
    exact fun _ => desired
  · rw [same]
    exact fun _ => desired

theorem steady_stored {db : Db} (committed : ∀ row, db.gameState = some row → Steady row) :
    Steady (storedRow env db) := by
  unfold storedRow
  cases stored : db.gameState with
  | none => exact id
  | some row => exact committed row stored

theorem steady_finished (access : GameTimer.Access) (now : Int) : Steady (finishedRow env access now) := by
  have finished : finishedRow env access now =
      GameTimer.afterBoundary env (GameTimer.load access.timer (some access.row)) now := rfl
  rw [finished, GameTimer.afterBoundary]
  split
  · exact id
  next desired =>
  split
  · intro never
    cases never
  · exact fun _ => Decidable.not_not.mp desired

/-- A wanted game never goes back to tick 0. -/
theorem finish_wanted (env : Settings) (access : GameTimer.Access) (now : Int)
    (wanted : access.row.desiredState = .running) :
    access.row.currentTick ≤ (finishedRow env access now).currentTick := by
  have finished : finishedRow env access now =
      GameTimer.afterBoundary env (GameTimer.load access.timer (some access.row)) now := rfl
  rw [finished, GameTimer.afterBoundary]
  split
  · next unwanted => exact absurd wanted unwanted
  split
  · exact le_refl _
  · exact Int.le_add_one (le_refl _)

theorem boundary_checker {db : Db} {startedAt roundId startsAt endsAt : Int} {boundary : Boundary}
    (done : runTickBoundary env db startedAt roundId startsAt endsAt = .ok boundary) :
    boundary.db.checker = db.checker ∨ 1 < boundary.tick ∧
      boundary.db.checker = finalizeOverdueCheckerJobs db.checker (boundary.tick - 1) startedAt := by
  obtain ⟨_, _, opened⟩ := run_tick_boundary_cases done
  obtain ⟨rounds, same⟩ := ensure_flag_round_frame env db roundId startsAt endsAt
  rw [same] at opened
  rcases opened with ⟨_, first⟩ | ⟨later, closed⟩
  · rw [first]
    exact Or.inl rfl
  · obtain ⟨scoring, after⟩ := close_previous_frame closed
    rw [after]
    exact Or.inr ⟨later, rfl⟩

theorem undisturbed_rotates {state : State} {event : RotatorEvent} {db : Db} {loop : Loop}
    (undisturbed : Undisturbed state)
    (rotates : Rotates env state.clock state.db event state.loop db loop) :
    Undisturbed { state with db := db, loop := loop } := by
  have paced := (paced_rotates undisturbed.paced rotates).1
  have working := undisturbed.paced.working
  have held := undisturbed.held
  have aligned := undisturbed.aligned
  have committed := undisturbed.committed
  generalize state.loop = before at rotates working held
  cases rotates with
  | failed event loop => exact ⟨paced, aligned, undisturbed.tasks, committed, fun _ never => by cases never⟩
  | polled =>
      refine ⟨paced, aligned, undisturbed.tasks, committed, ?_⟩
      intro row same
      cases same
      exact steady_sync (steady_stored committed)
  | bootstraps access round due => exact ⟨paced, aligned, undisturbed.tasks, committed, held⟩
  | skips access => exact ⟨paced, aligned, undisturbed.tasks, committed, held⟩
  | bounded kind access round startedAt boundary done =>
      refine ⟨paced, ?_, undisturbed.tasks, ?_, held⟩
      · show Aligned boundary.db.checker
        rcases boundary_checker done with same | ⟨_, same⟩
        · rw [same]
          exact aligned
        · rw [same]
          exact (finalize_touches aligned _ startedAt).aligned
      · show ∀ row, boundary.db.gameState = some row → Steady row
        rw [(run_tick_boundary_frame done).2.1]
        exact committed
  | queued kind access round tick items =>
      obtain ⟨_, _, ⟨start, stop, _, _, same⟩, ticked, _⟩ := working
      have named : round.roundId = tick := by rw [same, ticked]; rfl
      refine ⟨paced, ?_, undisturbed.tasks, committed, held⟩
      rw [named]
      exact (schedule_touches env aligned tick round.endsAt items).aligned
  | drained kind access =>
      refine ⟨paced, aligned, undisturbed.tasks, committed, ?_⟩
      cases kind <;> exact held
  | enqueued kind access job rest taskId =>
      refine ⟨paced, update_aligned aligned job ?_, undisturbed.tasks, committed, held⟩
      intro old round
      split <;> exact round
  | notEnqueued kind access job rest error =>
      exact ⟨paced, (crash_touches aligned job _).aligned, undisturbed.tasks, committed, held⟩
  | ends access round due => exact ⟨paced, aligned, undisturbed.tasks, committed, held⟩
  | commits access =>
      refine ⟨paced, aligned, undisturbed.tasks, ?_, fun _ never => by cases never⟩
      intro row same
      cases same
      exact held access.row rfl
  | closes access =>
      refine ⟨paced, aligned, undisturbed.tasks, ?_, fun _ never => by cases never⟩
      intro row same
      cases same
      exact steady_finished access (seconds state.clock)

theorem undisturbed_step {deployment : InitDb.Deployment} {before after : State} {event : Event}
    (undisturbed : Undisturbed before) (met : unattended event = true)
    (taken : step env deployment before event = some after) : Undisturbed after := by
  have paced := (paced_step undisturbed.paced (unattended_playing met) taken).1
  cases play_cases (unattended_playing met) taken with
  | clock now =>
      exact ⟨paced, undisturbed.aligned, undisturbed.tasks, undisturbed.committed, undisturbed.held⟩
  | rotator event db loop rotates => exact undisturbed_rotates undisturbed rotates
  | submit event rows sessions submits =>
      exact ⟨paced, undisturbed.aligned, undisturbed.tasks, undisturbed.committed, undisturbed.held⟩
  | worker event checker tasks worked =>
      obtain ⟨aligned, tasksAligned, _⟩ := worker_ticks undisturbed.aligned undisturbed.tasks worked
      exact ⟨paced, aligned, tasksAligned, undisturbed.committed, undisturbed.held⟩
  | command event row idle commands =>
      refine ⟨paced, undisturbed.aligned, undisturbed.tasks, ?_, undisturbed.held⟩
      intro other same
      cases same
      cases commands with
      | synced => exact steady_sync (steady_stored undisturbed.committed)
      | desired state => cases met
      | scheduled startAt stopAfterTick scoreboardFreezeTick => cases met

/-- An unplayed game without checker jobs, which may be set to start. -/
structure Prepared (state : State) : Prop where
  unplayed : Unplayed state
  unchecked : state.db.checker = ⟨Dict.empty, Dict.empty, Dict.empty⟩
  jobless : state.tasks = Dict.empty
  steady : ∀ row, state.db.gameState = some row → Steady row

theorem undisturbed_start {state : State} (prepared : Prepared state) : Undisturbed state := by
  refine ⟨paced_start prepared.unplayed, ?_, ?_, prepared.steady, ?_⟩
  · rw [prepared.unchecked]
    exact ⟨fun _ _ found => (by cases found), fun _ _ found => (by cases found)⟩
  · rw [prepared.jobless]
    exact fun _ _ _ found => by cases found
  · rw [prepared.unplayed.idle]
    exact fun _ never => by cases never

end Undisturbed

/-! The inputs of a tick after its first scoring. -/

def within (db : Db) (tick : Int) (row : Submission) : Bool :=
  match db.roundOfTick tick with
  | none => false
  | some (_, round) => decide (round.startsAt ≤ row.submittedAt) && decide (row.submittedAt < round.endsAt)

/-- An accepted row that the scoring of the tick reads. -/
def countsFor (db : Db) (tick : Int) (row : Submission) : Bool :=
  row.result = .accepted && (earlier db tick row || within db tick row)

/-- No worker's result for a job of the tick, and no commit of a submission that it reads. -/
def keepsInputs (tick : Int) (state : State) : Event → Bool
  | .worker event => sparesTick tick state.db.checker state.tasks event
  | .submit (.commit id) =>
      match state.sessions.get? id with
      | some session => !(pendingOf session).any (countsFor state.db tick)
      | none => true
  | _ => true

def settling (tick : Int) (state : State) (event : Event) : Prop :=
  unattended event = true ∧ keepsInputs tick state event = true

instance (tick : Int) (state : State) (event : Event) : Decidable (settling tick state event) :=
  inferInstanceAs (Decidable (_ ∧ _))

section Inputs
variable {env : Settings} {tick : Int} {one two : Db}

theorem inputs_of (teams : two.teams = one.teams) (services : two.services = one.services)
    (rows : two.submissions = one.submissions) (round : two.roundOfTick tick = one.roundOfTick tick)
    (health : Spares tick one.checker two.checker)
    (prior : pointsOfTick two (tick - 1) = pointsOfTick one (tick - 1)) : SameInputs tick one two := by
  refine ⟨teams, services, health.health, ?_, ?_, prior⟩
  · unfold landed
    rw [round, rows]
  · unfold acceptedBefore
    rw [rows]
    apply List.filter_congr
    intro row _
    rw [earlier, earlier, round]

theorem filter_late {rows pending : List Submission} {keep : Submission → Bool}
    (late : ∀ row ∈ pending, keep row = false) : (rows ++ pending).filter keep = rows.filter keep := by
  rw [List.filter_append]
  have nobody : pending.filter keep = [] := by
    rw [List.filter_eq_nil_iff]
    intro row member
    rw [late row member]
    exact Bool.false_ne_true
  rw [nobody, List.append_nil]

theorem inputs_commit {db : Db} {pending : List Submission}
    (late : ∀ row ∈ pending, countsFor db tick row = false) :
    SameInputs tick db { db with submissions := db.submissions ++ pending } := by
  refine ⟨rfl, rfl, rfl, ?_, ?_, rfl⟩
  · have round : Db.roundOfTick { db with
        submissions := db.submissions ++ pending } tick = db.roundOfTick tick := rfl
    unfold landed
    rw [round]
    cases found : db.roundOfTick tick with
    | none => rfl
    | some entry =>
        apply filter_late
        intro row member
        have uncounted := late row member
        simp only [countsFor, within, found] at uncounted
        unfold scorable
        grind
  · apply filter_late
    intro row member
    have uncounted := late row member
    have before : earlier { db with
        submissions := db.submissions ++ pending } tick row = earlier db tick row := rfl
    simp only [countsFor] at uncounted
    grind

theorem score_tick_own {db after : Db} {scored retention : Int}
    (done : scoreTick env db scored retention = .ok after) (apart : tick ≠ scored) :
    pointsOfTick after tick = pointsOfTick db tick := by
  rcases score_tick_cases done with ⟨same, _⟩ | ⟨_, _, _, flags, table, _, _, _, stored, same⟩
  · rw [same]
  · rw [same]
    exact persist_points_other apart stored

/-- Closing a later tick, or the tick itself again, leaves its inputs and points. -/
theorem close_previous_settled {db after : Db} {startedAt closed : Int} (later : tick ≤ closed)
    (aligned : Aligned db.checker) (idle : Inactive tick db.checker)
    (scored : Scored env db tick (retentionTicks env))
    (done : closePrevious env db startedAt closed = .ok after) :
    SameInputs tick db after ∧ pointsOfTick after tick = pointsOfTick db tick ∧
      Inactive tick after.checker := by
  have finalized : Spares tick db.checker (finalizeTick db closed startedAt).checker := by
    by_cases again : closed = tick
    · have same := finalize_idle idle startedAt
      show Spares tick db.checker (finalizeOverdueCheckerJobs db.checker closed startedAt)
      rw [again, same]
      exact Spares.refl tick db.checker
    · exact (finalize_touches aligned closed startedAt).spares tick (Ne.symm again)
  have inputs : SameInputs tick db (finalizeTick db closed startedAt) :=
    inputs_of rfl rfl rfl rfl finalized rfl
  have inactive := finalized.inactive idle
  unfold closePrevious at done
  dsimp only at done
  split at done
  · obtain ⟨scoring, frame⟩ := score_tick_frame done
    refine ⟨inputs.trans (score_tick_inputs done (by omega)), ?_, ?_⟩
    · by_cases again : closed = tick
      · rw [again] at done inputs
        have kept := score_tick_again (scored_same inputs rfl scored) done
        rw [pointsOfTick, kept]
        rfl
      · exact (score_tick_own done (Ne.symm again)).trans rfl
    · rw [frame]
      exact inactive
  · cases done
    exact ⟨inputs, rfl, inactive⟩

end Inputs

/-- After the first scoring: the game is past the tick, and its inputs are those of `base`. -/
structure Settled (tick : Int) (base : Db) (state : State) : Prop where
  undisturbed : Undisturbed state
  past : ∃ row, state.db.gameState = some row ∧ tick + 1 ≤ row.currentTick
  opened : tick + 1 ≤ state.db.maxTick
  idle : Inactive tick state.db.checker
  inputs : SameInputs tick base state.db
  own : pointsOfTick state.db tick = pointsOfTick base tick

section Settled
variable {env : Settings} {tick : Int} {base : Db}

theorem later_access {db : Db} {access : GameTimer.Access} (positive : 1 ≤ tick)
    (past : ∃ row, db.gameState = some row ∧ tick + 1 ≤ row.currentTick) (follows : Follows db access) :
    tick + 1 ≤ access.row.currentTick := by
  obtain ⟨row, stored, later⟩ := past
  rcases follows with ⟨other, also, _, same, _⟩ | ⟨early, _⟩
  · rw [stored, Option.some.injEq] at also
    rw [same, ← also]
    exact later
  · have first := early row stored
    omega

theorem round_kept {db : Db} {roundId startedAt startsAt endsAt : Int} {boundary : Boundary}
    (numbered : Numbered db) (first : 1 ≤ roundId) (last : roundId ≤ db.maxTick + 1)
    (opened : tick + 1 ≤ db.maxTick)
    (done : runTickBoundary env db startedAt roundId startsAt endsAt = .ok boundary) :
    boundary.db.roundOfTick tick = db.roundOfTick tick := by
  obtain ⟨_, numberedAfter, _, rounds⟩ := boundary_rounds numbered first last done
  rw [numbered_round numberedAfter, numbered_round numbered]
  rcases rounds with ⟨_, _, same, _⟩ | ⟨next, _, same⟩
  · rw [same]
  · rw [same, Dict.get_set_other _ _ _ _ (by omega)]

/-- A boundary after the first scoring closes the tick again, or a later one. -/
theorem boundary_settled {state : State} {roundId startedAt startsAt endsAt : Int}
    {boundary : Boundary} (positive : 1 ≤ tick) (scored : Scored env base tick (retentionTicks env))
    (settled : Settled tick base state) (later : tick + 1 ≤ roundId)
    (last : roundId ≤ state.db.maxTick + 1)
    (done : runTickBoundary env state.db startedAt roundId startsAt endsAt = .ok boundary) :
    Inactive tick boundary.db.checker ∧ SameInputs tick base boundary.db ∧
      pointsOfTick boundary.db tick = pointsOfTick base tick := by
  have numbered := settled.undisturbed.paced.numbered
  have round := round_kept numbered (by omega) last settled.opened done
  have ticked := (boundary_rounds numbered (by omega) last done).1
  have frame := (run_tick_boundary_frame done).2.2
  obtain ⟨_, _, closed⟩ := run_tick_boundary_cases done
  obtain ⟨rounds, same⟩ := ensure_flag_round_frame env state.db roundId startsAt endsAt
  rw [same] at closed frame
  rcases closed with ⟨first, _⟩ | ⟨_, closed⟩
  · omega
  have opened : SameInputs tick state.db { state.db with flagRounds := rounds } := by
    refine inputs_of rfl rfl rfl ?_ (Spares.refl tick _) rfl
    rw [← round]
    unfold Db.roundOfTick
    rw [frame]
  obtain ⟨inputs, own, idle⟩ := @close_previous_settled env tick { state.db with
    flagRounds := rounds } _ _ _ (by omega) settled.undisturbed.aligned settled.idle
    (scored_same (settled.inputs.trans opened) settled.own scored) closed
  exact ⟨idle, (settled.inputs.trans opened).trans inputs, own.trans settled.own⟩

theorem settled_rotates {state : State} {event : RotatorEvent} {db : Db} {loop : Loop} (positive : 1 ≤ tick)
    (scored : Scored env base tick (retentionTicks env)) (settled : Settled tick base state)
    (rotates : Rotates env state.clock state.db event state.loop db loop) :
    Settled tick base { state with db := db, loop := loop } := by
  have undisturbed := undisturbed_rotates settled.undisturbed rotates
  have grown := (paced_rotates settled.undisturbed.paced rotates).2
  have opened : tick + 1 ≤ db.maxTick := settled.opened.trans grown
  have working := settled.undisturbed.paced.working
  have held := settled.undisturbed.held
  generalize state.loop = before at rotates working held
  cases rotates with
  | failed | polled | bootstraps | skips | drained | ends =>
      exact ⟨undisturbed, settled.past, opened, settled.idle, settled.inputs, settled.own⟩
  | bounded kind access round startedAt boundary done =>
      obtain ⟨holding, onTick, start, stop, _, _, same⟩ := working
      have named : round.roundId = access.row.currentTick := by rw [same]; rfl
      have later := later_access positive settled.past holding.follows
      obtain ⟨idle, inputs, own⟩ := boundary_settled positive scored settled (named ▸ later)
        (named ▸ holding.reach) done
      refine ⟨undisturbed, ?_, opened, idle, inputs, own⟩
      rw [show boundary.db.gameState = state.db.gameState from (run_tick_boundary_frame done).2.1]
      exact settled.past
  | queued kind access round number items =>
      obtain ⟨holding, onTick, ⟨start, stop, _, _, same⟩, ticked, _⟩ := working
      have named : round.roundId = number := by rw [same, ticked]; rfl
      have later := later_access positive settled.past holding.follows
      have spared := (schedule_touches env settled.undisturbed.aligned number round.endsAt
        items).spares tick (by omega)
      rw [named]
      exact ⟨named ▸ undisturbed, settled.past, opened, spared.inactive settled.idle,
        settled.inputs.trans (inputs_of rfl rfl rfl rfl spared rfl), settled.own⟩
  | enqueued kind access job rest taskId =>
      have spared : Spares tick state.db.checker (enqueued state.db.checker job taskId) := by
        refine update_spares job fun _ old idle => ?_
        split <;> exact idle
      exact ⟨undisturbed, settled.past, opened, spared.inactive settled.idle,
        settled.inputs.trans (inputs_of rfl rfl rfl rfl spared rfl), settled.own⟩
  | notEnqueued kind access job rest error =>
      obtain ⟨holding, _, _, keys⟩ := working
      have later := later_access positive settled.past holding.follows
      have named := keys job List.mem_cons_self
      have spared := (crash_touches settled.undisturbed.aligned job ("enqueue failed: " ++
        error)).spares tick (by omega)
      exact ⟨undisturbed, settled.past, opened, spared.inactive settled.idle,
        settled.inputs.trans (inputs_of rfl rfl rfl rfl spared rfl), settled.own⟩
  | commits access =>
      have holding : Holding state.db access := working
      exact ⟨undisturbed, ⟨access.row, rfl, later_access positive settled.past holding.follows⟩, opened,
        settled.idle, settled.inputs.trans (inputs_of rfl rfl rfl rfl (Spares.refl tick _) rfl),
        settled.own⟩
  | closes access =>
      obtain ⟨holding, onTick, _⟩ := working
      have later := later_access positive settled.past holding.follows
      have wanted := held access.row rfl onTick.running
      have ticks := finish_wanted env access (seconds state.clock) wanted
      exact ⟨undisturbed, ⟨_, rfl, by omega⟩, opened,
        settled.idle, settled.inputs.trans (inputs_of rfl rfl rfl rfl (Spares.refl tick _) rfl),
        settled.own⟩

theorem sync_later {db : Db} {now : Int} (positive : 1 ≤ tick)
    (past : ∃ row, db.gameState = some row ∧ tick + 1 ≤ row.currentTick) :
    tick + 1 ≤ (GameTimer.syncScheduledStart env (loadedAccess env db).timer
      (some (loadedAccess env db).row) now).row.currentTick := by
  obtain ⟨row, stored, later⟩ := past
  have loaded : (loadedAccess env db).row = row := by
    show db.gameState.getD _ = row
    rw [stored]
    rfl
  rcases sync_tick env (loadedAccess env db).timer (loadedAccess env db).row now with same | ⟨unopened, _⟩
  · rw [same, loaded]
    exact later
  · have opened : 1 ≤ row.currentTick := positive.trans ((Int.le_add_one le_rfl).trans later)
    rw [loaded] at unopened
    omega

theorem settled_step {deployment : InitDb.Deployment} {before after : State} {event : Event}
    (positive : 1 ≤ tick) (scored : Scored env base tick (retentionTicks env))
    (settled : Settled tick base before) (met : settling tick before event)
    (taken : step env deployment before event = some after) :
    Settled tick base after := by
  obtain ⟨alone, keeps⟩ := met
  have undisturbed := undisturbed_step settled.undisturbed alone taken
  have opened :=
    settled.opened.trans (paced_step settled.undisturbed.paced (unattended_playing alone) taken).2
  cases play_cases (unattended_playing alone) taken with
  | clock now => exact ⟨undisturbed, settled.past, opened, settled.idle, settled.inputs, settled.own⟩
  | rotator event db loop rotates => exact settled_rotates positive scored settled rotates
  | submit event rows sessions submits =>
      cases submits with
      | opened id teamId flags sourceIp fresh =>
          exact ⟨undisturbed, settled.past, opened, settled.idle, settled.inputs, settled.own⟩
      | closed event id =>
          exact ⟨undisturbed, settled.past, opened, settled.idle, settled.inputs, settled.own⟩
      | moved event id session stage present moves =>
          exact ⟨undisturbed, settled.past, opened, settled.idle, settled.inputs, settled.own⟩
      | committed id session context progress present was =>
          have uncounted : ∀ row ∈ progress.pending, countsFor before.db tick row = false := by
            simpa [keepsInputs, present, pendingOf, was, List.any_eq_false] using keeps
          exact ⟨undisturbed, settled.past, opened, settled.idle,
            settled.inputs.trans (inputs_commit uncounted), settled.own⟩
  | worker event checker tasks worked =>
      have spared :=
        (worker_ticks settled.undisturbed.aligned settled.undisturbed.tasks worked).2.2 tick keeps
      exact ⟨undisturbed, settled.past, opened, spared.inactive settled.idle,
        settled.inputs.trans (inputs_of rfl rfl rfl rfl spared rfl), settled.own⟩
  | command event row idle commands =>
      cases commands with
      | synced =>
          exact ⟨undisturbed, ⟨_, rfl, sync_later positive settled.past⟩, opened, settled.idle,
            settled.inputs.trans (inputs_of rfl rfl rfl rfl (Spares.refl tick _) rfl), settled.own⟩
      | desired state => cases alone
      | scheduled startAt stopAfterTick scoreboardFreezeTick => cases alone

/-- A boundary that scores the tick before its round settles that tick. -/
theorem first_scoring {deployment : InitDb.Deployment} {before scored : State} {kind : Kind}
    {access : GameTimer.Access} {round : Round} {startedAt : Int} (undisturbed : Undisturbed before)
    (positive : 1 ≤ tick) (closing : before.loop = .boundary kind access round startedAt)
    (next : round.roundId = tick + 1) (ready : scoresPrevious env before (.rotator .next) = true)
    (taken : step env deployment before (.rotator .next) = some scored) (succeeded : scored.loop ≠ .idle) :
    Settled tick scored.db scored ∧ Scored env scored.db tick (retentionTicks env) := by
  have after := undisturbed_step undisturbed rfl taken
  have working := undisturbed.paced.working
  rw [closing] at working
  obtain ⟨holding, onTick, start, stop, _, _, same⟩ := working
  have named : round.roundId = access.row.currentTick := by rw [same]; rfl
  simp only [step, closing, rotatorStep] at taken
  split at taken
  · cases taken
    exact absurd rfl succeeded
  next boundary done =>
  cases taken
  have numbered := undisturbed.paced.numbered
  obtain ⟨ticked, _, known, _⟩ :=
    boundary_rounds numbered (named ▸ onTick.opened) (named ▸ holding.reach) done
  obtain ⟨opens, _, cases_⟩ := run_tick_boundary_cases done
  rcases cases_ with ⟨first, _⟩ | ⟨_, closed⟩
  · omega
  have number : boundary.tick - 1 = tick := by omega
  have done_ : checkerTickReady (finalizeTick (ensureFlagRound env before.db round.roundId round.startsAt
      round.endsAt).1 tick startedAt).checker tick = true := by
    simp only [scoresPrevious, closing, ← opens, number, Bool.or_eq_true, decide_eq_true_eq] at ready
    exact ready.resolve_left (by omega)
  rw [number, closePrevious, if_pos done_] at closed
  obtain ⟨scoring, frame⟩ := score_tick_frame closed
  have opened : tick + 1 ≤ boundary.db.maxTick := by omega
  refine ⟨⟨after, ?_, opened, ?_, SameInputs.refl tick _, rfl⟩, score_tick_scored positive closed⟩
  · show ∃ row, boundary.db.gameState = some row ∧ _
    rw [(run_tick_boundary_frame done).2.1]
    rcases holding.follows with ⟨row, stored, _, current, _⟩ | ⟨_, early⟩
    · exact ⟨row, stored, by omega⟩
    · omega
  · show Inactive tick boundary.db.checker
    rw [frame]
    exact ready_inactive.mp done_

end Settled

/-- Once a tick has been scored, in every run without late results or submissions for
it its inputs and its points stay, and scoring it again writes the rows that are there. -/
theorem rescoring_changes_nothing (env : Settings) (deployment : InitDb.Deployment)
    (start before scored later : State) (kind : Kind) (access : GameTimer.Access) (round : Round)
    (startedAt tick : Int) (prepared : Prepared start)
    (run : Steps (step env deployment) (fun _ event => unattended event = true) start before)
    (closing : before.loop = .boundary kind access round startedAt) (positive : 1 ≤ tick)
    (next : round.roundId = tick + 1) (ready : scoresPrevious env before (.rotator .next) = true)
    (taken : step env deployment before (.rotator .next) = some scored)
    (succeeded : scored.loop ≠ .idle)
    (rest : Steps (step env deployment) (settling tick) scored later) :
    SameInputs tick scored.db later.db ∧ pointsOfTick later.db tick = pointsOfTick scored.db tick ∧
      ∀ now, closePrevious env later.db now tick = scoreTick env later.db tick (retentionTicks env) ∧
        ∀ again, closePrevious env later.db now tick = .ok again →
          again.scoring.teamTickPoints = later.db.scoring.teamTickPoints := by
  have undisturbed := steps_invariant Undisturbed
    (fun _ _ _ kept met taken => undisturbed_step kept met taken) (undisturbed_start prepared) run
  obtain ⟨first, points⟩ := first_scoring undisturbed positive closing next ready taken succeeded
  have settled := steps_invariant (Settled tick scored.db)
    (fun _ _ _ kept met taken => settled_step positive points kept met taken) first rest
  refine ⟨settled.inputs, settled.own, fun now => ?_⟩
  have finalized : finalizeTick later.db tick now = later.db := by
    unfold finalizeTick
    rw [finalize_idle settled.idle now]
  have closed : closePrevious env later.db now tick = scoreTick env later.db tick (retentionTicks env) := by
    unfold closePrevious
    rw [finalized]
    exact if_pos (ready_inactive.mpr settled.idle)
  refine ⟨closed, fun again done => ?_⟩
  rw [closed] at done
  exact score_tick_again (scored_same settled.inputs settled.own points) done

theorem set_up_prepared : Prepared setUp :=
  ⟨set_up_unplayed, by decide +kernel, by decide +kernel, fun row stored => by
    have none_ : setUp.db.gameState = none := by decide +kernel
    rw [none_] at stored
    cases stored⟩

/-- Tick 1 with some submission steps, up to the boundary that first scores it. -/
def upToScoring (submissions : List Event) : List Event :=
  [.publicSync] ++ bootstrapIteration 3 ++ submissions ++ [.clock 1120000000] ++ endIteration ++ rotate 2

def reached (submissions : List Event) : State :=
  (exec (step sampleSettings sampleDeployment) (fun _ event => unattended event = true) setUp
    (upToScoring submissions)).getD (initial 0)

def scoredOnce (submissions : List Event) : State :=
  (step sampleSettings sampleDeployment (reached submissions) (.rotator .next)).getD (initial 0)

/-- Tick 2 up to the boundary that scores tick 1 again, with some steps in between. -/
def upToRescoring (between : List Event) : List Event :=
  rotate 1 ++ List.replicate 3 (.rotator (.enqueued "task")) ++ rotate 2 ++ between ++
    [.clock 1240000000] ++ rotate 4

def rescored (submissions between : List Event) : State :=
  (exec (step sampleSettings sampleDeployment) (settling 1) (scoredOnce submissions)
    (upToRescoring between)).getD (initial 0)

def boundaryOf (state : State) : Kind × GameTimer.Access × Round × Int :=
  match state.loop with
  | .boundary kind access round startedAt => (kind, access, round, startedAt)
  | _ => (.bootstrap, GameTimer.loadTimer sampleSettings none, ⟨0, 0, 0⟩, 0)

/-- A capture that commits in time counts the same in both scorings of tick 1. -/
theorem timely_capture_kept :
    pointsOfTick (rescored (submission 0 1 betaFlag) []).db 1 =
      pointsOfTick (scoredOnce (submission 0 1 betaFlag)).db 1 :=
  (rescoring_changes_nothing sampleSettings sampleDeployment setUp (reached (submission 0 1 betaFlag))
    (scoredOnce (submission 0 1 betaFlag)) (rescored (submission 0 1 betaFlag) []) _
    (boundaryOf (reached (submission 0 1 betaFlag))).2.1
    (boundaryOf (reached (submission 0 1 betaFlag))).2.2.1
    (boundaryOf (reached (submission 0 1 betaFlag))).2.2.2 1 set_up_prepared
    (exec_steps (upToScoring (submission 0 1 betaFlag)) _ _ (by decide +kernel))
    (show (reached (submission 0 1 betaFlag)).loop = .boundary
      (boundaryOf (reached (submission 0 1 betaFlag))).1 _ _ _ by decide +kernel)
    (by decide) (by decide +kernel) (by decide +kernel) (by decide +kernel) (by decide +kernel)
    (exec_steps (upToRescoring []) _ _ (by decide +kernel))).2.1

/-- The transaction of the capture commits after the first scoring, and the second one pays it. -/
theorem late_commit_changes_points :
    ∃ state scored later, exec (step sampleSettings sampleDeployment)
        (fun _ event => unattended event = true) setUp
        (upToScoring ((submission 0 1 betaFlag).take 6)) = some state ∧
      step sampleSettings sampleDeployment state (.rotator .next) = some scored ∧
      exec (step sampleSettings sampleDeployment) (fun _ event => unattended event = true) scored
        (upToRescoring [.submit (.commit 0)]) = some later ∧
      (scored.db.scoring.teamTickPoints.get? (1, 1, 1)).map (·.offPoints) = some 0 ∧
      (later.db.scoring.teamTickPoints.get? (1, 1, 1)).map (·.offPoints) = some 10 := by
  refine ⟨_, _, _, rfl, rfl, rfl, ?_⟩
  decide +kernel

end KosSim.Rescoring
