import KosSim.JobDeadlines
import KosSim.RoundWindows
import KosSim.TickClosing

/-!
The rounds of flag_rounds against the timer, over runs with stops and restarts. The
upsert of a round keeps its old window and the jobs of a tick keep their deadline, so
a tick that is opened for the second time does not get its new window. While tick 1
is opened over no older round and no tick is resumed without its window, every tick
that has been bootstrapped has one round, the timer's window, and all its jobs.
-/

namespace KosSim.FlagRounds
open Library Schema CheckerJobs Rotator Platform PlatformFrames TickRounds RoundWindows JobDeadlines

/-- Tick 1 is opened over no older round, or again in the second of its own round. -/
def opensAnew (db : Db) (now : Int) : Bool :=
  db.flagRounds.entries.all fun entry => entry.1 = 1 && entry.2.startsAt = now * second

/-- What sync_scheduled_start meets when it starts the game or resumes it. -/
def startsCleanly (env : Settings) (db : Db) (now : Int) : Bool :=
  let row := storedRow env db
  if row.desiredState ≠ .running ∨ GameTimer.startPending row now = true then true
  else if row.currentTick < 1 then opensAnew db now
  else row.tickStart.isSome

/-- The steps of a run in order: the loop and the timer's commands, under a clock that does not go back, and
every sync that opens a tick starts cleanly. -/
def orderly (env : Settings) (state : State) : Event → Bool
  | .clock now => decide (state.clock ≤ now)
  | .publicSync => startsCleanly env state.db (seconds state.clock)
  | .rotator .next => decide (state.loop ≠ .idle) || startsCleanly env state.db (seconds state.clock)
  | event => playing event

theorem orderly_playing {env : Settings} {state : State} {event : Event}
    (met : orderly env state event = true) :
    playing event = true := by
  cases event with
  | admin event => exact met
  | bootstrap => exact met
  | clock | rotator | submit | worker | publicSync => rfl

/-! What is to hold. -/

/-- The tick has its round, and a checker job unless there is nothing to check. -/
def bootstrapped (db : Db) (tick : Int) : Bool :=
  db.flagRounds.contains tick &&
    ((enumerateTeamServices db).isEmpty || db.checker.checkerJobs.entries.any fun entry => entry.1.1 = tick)

structure Followed (db : Db) (row : GameTimer) : Prop where
  rounds : ∀ tick, 1 ≤ tick → tick ≤ row.currentTick →
    ∃ round, db.flagRounds.get? tick = some round ∧ round.tick = some tick ∧
      ∀ other stored, db.flagRounds.get? other = some stored → stored.tick = some tick → other = tick
  window : ∃ start stop round, row.tickStart = some start ∧ row.tickEnd = some stop ∧
    db.flagRounds.get? row.currentTick = some round ∧ round.startsAt = start * second ∧
    round.endsAt = stop * second
  apart : ∀ one two first last, one < two → db.flagRounds.get? one = some first →
    db.flagRounds.get? two = some last → first.endsAt ≤ last.startsAt
  jobs : ∀ pair entry stop, db.teamServices.get? pair = some entry → entry.enabled = true →
    db.teams.contains pair.1 = true → db.services.contains pair.2 = true → row.tickEnd = some stop →
      ∃ job, db.checker.checkerJobs.get? (row.currentTick, pair) = some job ∧ job.deadlineAt = stop * second

/-! The row of the timer. -/

/-- The row on a tick with its window, which its round has too if it is there. -/
structure Opened (env : Settings) (clock : Int) (db : Db) (row : GameTimer) : Prop where
  opened : 1 ≤ row.currentTick
  fitting : Fitting env clock db row
  own : ∀ round start, db.flagRounds.get? row.currentTick = some round → row.tickStart = some start →
    round.startsAt = start * second

def Standing (env : Settings) (clock : Int) (db : Db) (row : GameTimer) : Prop :=
  row.currentTick < 1 ∨ Opened env clock db row ∨ row.tickStart = none ∧ row.state ≠ .running

section Rows
variable {env : Settings} {clock : Int} {db : Db} {row : GameTimer}

theorem opened_same {other : GameTimer} (kept : Opened env clock db row)
    (tick : other.currentTick = row.currentTick) (starts : other.tickStart = row.tickStart)
    (ends : other.tickEnd = row.tickEnd) : Opened env clock db other := by
  constructor
  · exact tick ▸ kept.opened
  · exact fitting_same kept.fitting tick starts ends
  · rw [tick, starts]
    exact kept.own

theorem standing_same {other : GameTimer} (standing : Standing env clock db row)
    (tick : other.currentTick = row.currentTick) (starts : other.tickStart = row.tickStart)
    (ends : other.tickEnd = row.tickEnd) (idle : row.state ≠ .running → other.state ≠ .running) :
    Standing env clock db other := by
  rcases standing with unopened | kept | ⟨closed, stopped⟩
  · exact Or.inl (tick ▸ unopened)
  · exact Or.inr (Or.inl (opened_same kept tick starts ends))
  · exact Or.inr (Or.inr ⟨starts.trans closed, idle stopped⟩)

theorem standing_later {now : Int} (standing : Standing env clock db row) (le : clock ≤ now) :
    Standing env now db row := by
  rcases standing with unopened | kept | closed
  · exact Or.inl unopened
  · exact Or.inr (Or.inl ⟨kept.opened, fitting_later kept.fitting le, kept.own⟩)
  · exact Or.inr (Or.inr closed)

theorem standing_frame {after : Db} (standing : Standing env clock db row)
    (rounds : after.flagRounds = db.flagRounds) : Standing env clock after row := by
  rcases standing with unopened | kept | closed
  · exact Or.inl unopened
  · refine Or.inr (Or.inl ⟨kept.opened, fitting_frame kept.fitting rounds, ?_⟩)
    rw [rounds]
    exact kept.own
  · exact Or.inr (Or.inr closed)

/-- A running tick stands with its window. -/
theorem standing_running (standing : Standing env clock db row) (opened : 1 ≤ row.currentTick)
    (running : row.state = .running) : Opened env clock db row := by
  rcases standing with unopened | kept | ⟨_, stopped⟩
  · omega
  · exact kept
  · exact absurd running stopped

theorem opens_anew (numbered : Numbered db) (anew : opensAnew db (seconds clock) = true)
    (self : GameTimer) :
    Opened env clock db (GameTimer.openTick env self (seconds clock) 1) := by
  have only (tick : Int) (round : FlagRound) (found : db.flagRounds.get? tick = some round) :
      tick = 1 ∧ round.startsAt = seconds clock * second := by
    have here := List.all_eq_true.mp anew _ ((Dict.mem_entries_iff _ _ _).mpr found)
    rw [Bool.and_eq_true, decide_eq_true_eq, decide_eq_true_eq] at here
    exact here
  have few : db.maxTick ≤ 1 := by
    by_contra more
    obtain ⟨round, found⟩ := (Dict.contains_eq_some _ _).mp
      ((numbered_contains numbered db.maxTick).mpr ⟨by omega, le_refl _⟩)
    have first := (only _ round found).1
    omega
  constructor
  · exact le_refl 1
  · refine Or.inr ⟨seconds clock, le_refl 1, rfl, rfl, le_refl _, few, ?_⟩
    intro tick round found
    obtain ⟨first, starts⟩ := only tick round found
    exact ⟨starts.le, fun before => absurd (first ▸ before) (lt_irrefl 1)⟩
  · intro round start found starts
    cases starts
    exact (only _ round found).2

theorem sync_standing (numbered : Numbered db) (self : GameTimer)
    (clean : startsCleanly env db (seconds clock) = true)
    (standing : Standing env clock db (storedRow env db)) :
    Standing env clock db (GameTimer.syncScheduledStart env self (some (storedRow env db))
      (seconds clock)).row := by
  generalize named : storedRow env db = row at standing
  have written : (GameTimer.syncScheduledStart env self (some row) (seconds clock)).row =
      (GameTimer.persist ⟨GameTimer.load self (some row), row⟩
        (GameTimer.afterSync env (GameTimer.load self (some row)) (seconds clock))).row := rfl
  unfold startsCleanly at clean
  dsimp only at clean
  rw [named] at clean
  rw [written, GameTimer.afterSync]
  split
  · exact standing
  next desired =>
  split
  · exact standing
  next arrived =>
  have wanted : ¬(row.desiredState ≠ .running ∨ GameTimer.startPending row (seconds clock) = true) := by
    rintro (other | pending)
    · exact desired other
    · exact arrived pending
  rw [if_neg wanted] at clean
  split
  · next unopened =>
    have early : row.currentTick < 1 := unopened
    rw [if_pos early] at clean
    exact Or.inr (Or.inl (opens_anew numbered clean _))
  · next opened =>
    have late : ¬row.currentTick < 1 := opened
    rw [if_neg late] at clean
    rcases standing with unopened | kept | ⟨closed, _⟩
    · exact absurd unopened late
    · exact Or.inr (Or.inl (opened_same kept rfl rfl rfl))
    · rw [closed] at clean
      cases clean

/-- finish_boundary ends or suspends the game, or opens the next tick, which has no round yet. -/
theorem finished_standing (numbered : Numbered db) (spaced : Spaced env db)
    {access : GameTimer.Access} (kept : Opened env clock db access.row)
    (due : ∃ stop, access.row.tickEnd = some stop ∧ stop ≤ seconds clock) :
    Standing env clock db (finishedRow env access (seconds clock)) := by
  have finished : finishedRow env access (seconds clock) =
      GameTimer.afterBoundary env (GameTimer.load access.timer (some access.row)) (seconds clock) := rfl
  rw [finished, GameTimer.afterBoundary]
  split
  · next desired => exact Or.inr (Or.inr ⟨rfl, desired⟩)
  split
  · exact Or.inr (Or.inr ⟨rfl, fun never => by cases never⟩)
  · refine Or.inr (Or.inl ⟨?_, next_fitting spaced _ kept.fitting kept.opened due, ?_⟩)
    · have opened := kept.opened
      show 1 ≤ access.row.currentTick + 1
      omega
    · intro round start found _
      have inside := (numbered_contains numbered (access.row.currentTick + 1)).mp
        ((Dict.contains_eq_some _ _).mpr ⟨round, found⟩)
      rcases kept.fitting with ⟨unopened, _⟩ | ⟨_, _, _, _, _, last, _⟩
      · have opened := kept.opened
        omega
      · omega

theorem command_standing {event : Event} (numbered : Numbered db)
    (commands : Commands env db (seconds clock) event row)
    (clean : event = .publicSync → startsCleanly env db (seconds clock) = true)
    (standing : Standing env clock db (storedRow env db)) : Standing env clock db row := by
  cases commands with
  | synced => exact sync_standing numbered _ (clean rfl) standing
  | desired state =>
      show Standing env clock db (GameTimer.afterDesired (GameTimer.load _ (some (storedRow env db))) state)
      cases state with
      | stopped => exact Or.inl Int.zero_lt_one
      | suspended =>
          unfold GameTimer.afterDesired
          dsimp only
          split
          · exact standing_same standing rfl rfl rfl id
          · exact standing_same standing rfl rfl rfl fun _ never => by cases never
      | running =>
          unfold GameTimer.afterDesired
          dsimp only
          split
          · next stopped => exact Or.inl stopped.2
          · exact standing_same standing rfl rfl rfl id
  | scheduled startAt stopAfterTick scoreboardFreezeTick => exact standing_same standing rfl rfl rfl id

/-- The round that a boundary stores has the window of the tick. -/
theorem boundary_opened {access : GameTimer.Access} {round : Round} {startedAt : Int} {boundary : Boundary}
    (numbered : Numbered db) (spaced : Spaced env db) (reach : access.row.currentTick ≤ db.maxTick + 1)
    (kept : Opened env clock db access.row) (window : WindowOf access round)
    (done : runTickBoundary env db startedAt round.roundId round.startsAt round.endsAt = .ok boundary) :
    Spaced env boundary.db ∧ Opened env clock boundary.db access.row := by
  obtain ⟨spacedAfter, fitting⟩ := boundary_timed numbered spaced kept.opened reach kept.fitting window done
  obtain ⟨begins, stop, starts, _, same⟩ := window
  have tick : round.roundId = access.row.currentTick := by rw [same]; rfl
  refine ⟨spacedAfter, kept.opened, fitting, ?_⟩
  intro stored start found set
  obtain ⟨_, _, _, ⟨_, _, rounds, _⟩ | ⟨_, _, rounds⟩⟩ :=
    boundary_rounds numbered (tick ▸ kept.opened) (tick ▸ reach) done
  · rw [rounds] at found
    exact kept.own stored start found set
  · rw [rounds, tick, Dict.get_set_self] at found
    cases found
    rw [starts, Option.some.injEq] at set
    rw [same, ← set]
    rfl

/-- The committed row stands if the row of an iteration on an open tick does. -/
theorem standing_committed {access : GameTimer.Access} (follows : Follows db access)
    (kept : Opened env clock db access.row) : Standing env clock db (storedRow env db) := by
  unfold storedRow
  rcases follows with ⟨committed, stored, _, tick, starts, ends⟩ | ⟨early, _⟩
  · rw [stored]
    exact Or.inr (Or.inl (opened_same kept tick.symm starts.symm ends.symm))
  · refine Or.inl ?_
    cases stored : db.gameState with
    | none => exact Int.zero_lt_one
    | some committed => exact early committed stored

end Rows

/-! The jobs. -/

theorem enumerate_same {db after : Db} (teams : after.teams = db.teams)
    (services : after.services = db.services) (teamServices : after.teamServices = db.teamServices) :
    enumerateTeamServices after = enumerateTeamServices db := by
  unfold enumerateTeamServices
  rw [teams, services, teamServices]

/-- Every job has the deadline of its tick's round, and a tick with a job has them all. -/
structure Scheduled (db : Db) : Prop where
  known : ∀ key deadline, deadlineOf db.checker key = some deadline →
    ∃ round, db.flagRounds.get? key.1 = some round ∧ round.endsAt = deadline
  whole : ∀ key item, deadlineOf db.checker key ≠ none → item ∈ enumerateTeamServices db →
    deadlineOf db.checker (itemKey key.1 item) ≠ none

/-- The items of an iteration are those of the tables. -/
def Queued (db : Db) : Loop → Prop
  | .queueing _ _ _ _ items => items = enumerateTeamServices db
  | _ => True

theorem scheduled_same {before after : Db} (scheduled : Scheduled before)
    (rounds : after.flagRounds = before.flagRounds)
    (items : enumerateTeamServices after = enumerateTeamServices before)
    (deadlines : SameDeadlines before.checker after.checker) : Scheduled after := by
  constructor
  · intro key deadline found
    rw [deadlines key] at found
    rw [rounds]
    exact scheduled.known key deadline found
  · intro key item present member
    rw [deadlines key] at present
    rw [items] at member
    rw [deadlines]
    exact scheduled.whole key item present member

theorem boundary_deadlines {env : Settings} {db : Db} {startedAt roundId startsAt endsAt : Int}
    {boundary : Boundary}
    (done : runTickBoundary env db startedAt roundId startsAt endsAt = .ok boundary) :
    SameDeadlines db.checker boundary.db.checker := by
  obtain ⟨_, _, opened⟩ := run_tick_boundary_cases done
  obtain ⟨rounds, same⟩ := ensure_flag_round_frame env db roundId startsAt endsAt
  rcases opened with ⟨_, first⟩ | ⟨_, closed⟩
  · rw [first, same]
    exact SameDeadlines.refl db.checker
  · obtain ⟨scoring, after⟩ := close_previous_frame closed
    rw [after, same]
    exact finalize_deadlines db.checker _ _

theorem boundary_scheduled {env : Settings} {db : Db} {startedAt roundId startsAt endsAt : Int}
    {boundary : Boundary} (numbered : Numbered db) (scheduled : Scheduled db) (first : 1 ≤ roundId)
    (last : roundId ≤ db.maxTick + 1)
    (done : runTickBoundary env db startedAt roundId startsAt endsAt = .ok boundary) :
    Scheduled boundary.db := by
  have entries := (run_tick_boundary_frame done).1
  have items := enumerate_same entries.teams entries.services entries.teamServices
  have deadlines := boundary_deadlines done
  obtain ⟨_, _, _, ⟨_, _, rounds, _⟩ | ⟨next, _, rounds⟩⟩ := boundary_rounds numbered first last done
  · exact scheduled_same scheduled rounds items deadlines
  constructor
  · intro key deadline found
    rw [deadlines key] at found
    obtain ⟨round, present, ends⟩ := scheduled.known key deadline found
    have range := (numbered_contains numbered key.1).mp ((Dict.contains_eq_some _ _).mpr ⟨round, present⟩)
    refine ⟨round, ?_, ends⟩
    rw [rounds, Dict.get_set_other _ _ _ _ (by omega)]
    exact present
  · intro key item present member
    rw [deadlines key] at present
    rw [items] at member
    rw [deadlines]
    exact scheduled.whole key item present member

/-- Scheduling a tick whose round ends at the deadline gives it all its jobs. -/
theorem queue_scheduled {db : Db} {tick roundId deadlineAt : Int} {round : FlagRound}
    (env : Settings) (scheduled : Scheduled db) (found : db.flagRounds.get? tick = some round)
    (ends : round.endsAt = deadlineAt) :
    Scheduled { db with checker :=
      (scheduleCheckerJobs env tick roundId deadlineAt db.checker (enumerateTeamServices db)).1 } := by
  have agreed : ∀ key deadline, key.1 = tick → deadlineOf db.checker key = some deadline →
      deadline = deadlineAt := by
    intro key deadline here present
    obtain ⟨own, stored, same⟩ := scheduled.known key deadline present
    rw [here, found, Option.some.injEq] at stored
    rw [← same, ← stored, ends]
  have after := schedule_deadlines db.checker env tick roundId deadlineAt (enumerateTeamServices db) agreed
  constructor
  · intro key deadline present
    rw [after key] at present
    split at present
    · next member =>
      cases present
      obtain ⟨item, _, same⟩ := List.mem_map.mp member
      rw [← same]
      exact ⟨round, found, ends⟩
    · exact scheduled.known key deadline present
  · intro key item present member
    have listed : item ∈ enumerateTeamServices db := member
    rw [after]
    split
    · exact Option.some_ne_none _
    · next outside =>
      rw [after key] at present
      split at present
      · next inside =>
        obtain ⟨other, _, same⟩ := List.mem_map.mp inside
        have here : key.1 = tick := by rw [← same]; rfl
        exact absurd (List.mem_map.mpr ⟨item, listed, by rw [here]⟩) outside
      · exact scheduled.whole key item present listed

/-! The invariant of the runs. -/

structure Following (env : Settings) (state : State) : Prop where
  paced : Paced state
  spaced : Spaced env state.db
  committed : Standing env state.clock state.db (storedRow env state.db)
  held : ∀ row, heldRow state.loop = some row → Standing env state.clock state.db row
  due : Due state.clock state.loop
  scheduled : Scheduled state.db
  queued : Queued state.db state.loop

section Following
variable {env : Settings}

theorem following_rotates {state : State} {event : RotatorEvent} {db : Db} {loop : Loop}
    (following : Following env state) (rotates : Rotates env state.clock state.db event state.loop db loop)
    (clean : event = .next → state.loop = .idle → startsCleanly env state.db (seconds state.clock) = true) :
    Following env { state with db := db, loop := loop } := by
  have paced := (paced_rotates following.paced rotates).1
  have working := following.paced.working
  have numbered := following.paced.numbered
  have held := following.held
  have due := following.due
  have queued := following.queued
  have spaced := following.spaced
  have committed := following.committed
  have scheduled := following.scheduled
  generalize state.loop = before at rotates working held due queued clean
  cases rotates with
  | failed event loop =>
      exact ⟨paced, spaced, committed, fun _ never => (by cases never), trivial, scheduled, trivial⟩
  | polled =>
      refine ⟨paced, spaced, committed, ?_, trivial, scheduled, trivial⟩
      intro row same
      cases same
      exact sync_standing numbered _ (clean rfl rfl) committed
  | bootstraps access round _ => exact ⟨paced, spaced, committed, held, trivial, scheduled, trivial⟩
  | skips access => exact ⟨paced, spaced, committed, held, trivial, scheduled, trivial⟩
  | bounded kind access round startedAt boundary done =>
      obtain ⟨holding, onTick, window⟩ := working
      obtain ⟨start, stop, _, _, same⟩ := id window
      have named : round.roundId = access.row.currentTick := by rw [same]; rfl
      have kept := standing_running (held access.row rfl) onTick.opened onTick.running
      obtain ⟨spacedAfter, openedAfter⟩ := boundary_opened numbered spaced holding.reach kept window done
      have state_ := (run_tick_boundary_frame done).2.1
      refine ⟨paced, spacedAfter, standing_committed (follows_same holding.follows state_) openedAfter,
        ?_, ?_, ?_, ?_⟩
      · intro row held
        cases held
        exact Or.inr (Or.inl openedAfter)
      · cases kind with
        | bootstrap => trivial
        | tickEnd => exact due
      · exact boundary_scheduled numbered scheduled (named ▸ onTick.opened) (named ▸ holding.reach) done
      · exact (run_tick_boundary_cases done).2.1
  | queued kind access round tick items =>
      obtain ⟨holding, onTick, ⟨start, stop, starts, stops, same⟩, ticked, known⟩ := working
      have kept := standing_running (held access.row rfl) onTick.opened onTick.running
      obtain ⟨row, found⟩ := (Dict.contains_eq_some _ _).mp
        ((numbered_contains numbered access.row.currentTick).mpr ⟨onTick.opened, known⟩)
      have ends : row.endsAt = round.endsAt := by
        rcases kept.fitting with ⟨unopened, _⟩ | ⟨begins, _, beginsSet, endsSet, _⟩
        · have opened := onTick.opened
          omega
        rw [starts, Option.some.injEq] at beginsSet
        rw [stops, Option.some.injEq] at endsSet
        rw [spaced.length _ _ found, kept.own row start found starts, same, endsSet, ← beginsSet]
        unfold windowRound second
        dsimp only
        omega
      have listed : items = enumerateTeamServices state.db := queued
      subst listed ticked
      refine ⟨paced, ⟨spaced.length, spaced.order⟩, standing_frame committed rfl,
        fun other same => standing_frame (held other same) rfl, ?_,
        queue_scheduled env scheduled found ends, trivial⟩
      cases kind with
      | bootstrap => trivial
      | tickEnd => exact due
  | drained kind access =>
      cases kind with
      | bootstrap => exact ⟨paced, spaced, committed, held, trivial, scheduled, trivial⟩
      | tickEnd => exact ⟨paced, spaced, committed, held, due, scheduled, trivial⟩
  | enqueued kind access job rest taskId =>
      refine ⟨paced, ⟨spaced.length, spaced.order⟩, standing_frame committed rfl,
        fun other same => standing_frame (held other same) rfl, ?_,
        scheduled_same scheduled rfl rfl (enqueued_deadlines state.db.checker job taskId), trivial⟩
      cases kind with
      | bootstrap => trivial
      | tickEnd => exact due
  | notEnqueued kind access job rest error =>
      refine ⟨paced, ⟨spaced.length, spaced.order⟩, standing_frame committed rfl,
        fun other same => standing_frame (held other same) rfl, ?_,
        scheduled_same scheduled rfl rfl (crash_deadlines state.db.checker job _), trivial⟩
      cases kind with
      | bootstrap => trivial
      | tickEnd => exact due
  | ends access round ending =>
      have holding : Holding state.db access := working
      exact ⟨paced, spaced, committed, held, (end_round_some holding.loaded ending).2.2, scheduled, trivial⟩
  | commits access =>
      exact ⟨paced, ⟨spaced.length, spaced.order⟩, standing_frame (held access.row rfl) rfl,
        fun _ never => (by cases never), trivial,
        scheduled_same scheduled rfl rfl (SameDeadlines.refl _), trivial⟩
  | closes access =>
      obtain ⟨holding, onTick, _⟩ := working
      have kept := standing_running (held access.row rfl) onTick.opened onTick.running
      exact ⟨paced, ⟨spaced.length, spaced.order⟩,
        standing_frame (finished_standing numbered spaced kept due) rfl,
        fun _ never => (by cases never), trivial,
        scheduled_same scheduled rfl rfl (SameDeadlines.refl _), trivial⟩

theorem following_step {deployment : InitDb.Deployment} {before after : State} {event : Event}
    (following : Following env before) (met : orderly env before event = true)
    (taken : step env deployment before event = some after) : Following env after := by
  have playing_ := orderly_playing met
  have paced := (paced_step following.paced playing_ taken).1
  obtain ⟨_, spaced, committed, held, due, scheduled, queued⟩ := id following
  cases play_cases playing_ taken with
  | clock now =>
      have le : before.clock ≤ now := of_decide_eq_true met
      refine ⟨paced, spaced, standing_later committed le, ?_, due_later due le, scheduled, queued⟩
      exact fun row same => standing_later (held row same) le
  | rotator event db loop rotates =>
      apply following_rotates ⟨following.paced, spaced, committed, held, due, scheduled, queued⟩ rotates
      rintro rfl idle
      simpa [orderly, idle] using met
  | submit event rows sessions submits =>
      refine ⟨paced, ⟨spaced.length, spaced.order⟩, standing_frame committed rfl,
        fun other same => standing_frame (held other same) rfl, due,
        scheduled_same scheduled rfl rfl (SameDeadlines.refl _), ?_⟩
      generalize before.loop = loop at queued
      cases loop with
      | queueing => exact queued
      | _ => trivial
  | worker event checker tasks worked =>
      refine ⟨paced, ⟨spaced.length, spaced.order⟩, standing_frame committed rfl,
        fun other same => standing_frame (held other same) rfl, due,
        scheduled_same scheduled rfl rfl (worker_deadlines worked), ?_⟩
      generalize before.loop = loop at queued
      cases loop with
      | queueing => exact queued
      | _ => trivial
  | command event row idle commands =>
      have standing :=
        command_standing following.paced.numbered commands (fun same => by subst same; exact met) committed
      refine ⟨paced, ⟨spaced.length, spaced.order⟩, standing_frame standing rfl,
        fun other same => standing_frame (held other same) rfl, due,
        scheduled_same scheduled rfl rfl (SameDeadlines.refl _), ?_⟩
      rw [idle]
      trivial

/-- A game that has not been played and whose tables of jobs are empty. -/
theorem following_start {state : State} (unplayed : Unplayed state)
    (jobless : state.db.checker.checkerJobs = Dict.empty) : Following env state := by
  have paced := paced_start unplayed
  refine ⟨paced, ⟨?_, ?_⟩, ?_, ?_, ?_, ⟨?_, ?_⟩, ?_⟩
  · intro tick round found
    rw [unplayed.rounds] at found
    cases found
  · intro one two first last _ found
    rw [unplayed.rounds] at found
    cases found
  · refine Or.inl ?_
    unfold storedRow
    cases stored : state.db.gameState with
    | none => exact Int.zero_lt_one
    | some row => exact (unplayed.unstarted row stored).trans_lt Int.zero_lt_one
  · intro row same
    rw [unplayed.idle] at same
    cases same
  · rw [unplayed.idle]
    trivial
  · intro key deadline found
    rw [deadlineOf, jobless] at found
    cases found
  · intro key item present
    rw [deadlineOf, jobless] at present
    exact absurd rfl present
  · rw [unplayed.idle]
    trivial

theorem followed_of_following {state : State} {row : GameTimer} (following : Following env state)
    (stored : state.db.gameState = some row) (running : row.state = .running) (opened : 1 ≤ row.currentTick)
    (ready : bootstrapped state.db row.currentTick = true) : Followed state.db row := by
  have numbered := following.paced.numbered
  have same : storedRow env state.db = row := by rw [storedRow, stored]; rfl
  have kept := standing_running (same ▸ following.committed) opened running
  rw [bootstrapped, Bool.and_eq_true, Bool.or_eq_true, List.isEmpty_iff, List.any_eq_true] at ready
  obtain ⟨present, jobs⟩ := ready
  obtain ⟨round, found⟩ := (Dict.contains_eq_some _ _).mp present
  have range := (numbered_contains numbered row.currentTick).mp present
  rcases kept.fitting with ⟨unopened, _⟩ | ⟨start, _, starts, stops, _, last, _⟩
  · omega
  have begins := kept.own round start found starts
  have ends : round.endsAt = (start + env.rotationSeconds) * second := by
    rw [following.spaced.length _ _ found, begins]
    unfold second
    omega
  constructor
  · intro tick first until_
    obtain ⟨own, here⟩ := (Dict.contains_eq_some _ _).mp
      ((numbered_contains numbered tick).mpr ⟨first, until_.trans range.2⟩)
    refine ⟨own, here, numbered.own tick own here, ?_⟩
    intro other one stored_ ticked
    rw [numbered.own other one stored_, Option.some.injEq] at ticked
    exact ticked
  · exact ⟨start, start + env.rotationSeconds, round, starts, stops, found, begins, ends⟩
  · exact following.spaced.order
  · intro pair entry stop entered enabled team service stopSet
    rw [stops, Option.some.injEq] at stopSet
    subst stopSet
    have member := mem_enumerate entered enabled team service
    have some_ : ∃ key, key.1 = row.currentTick ∧ deadlineOf state.db.checker key ≠ none := by
      rcases jobs with nothing | ⟨⟨key, job⟩, inside, ticked⟩
      · rw [nothing] at member
        cases member
      · refine ⟨key, of_decide_eq_true ticked, ?_⟩
        rw [deadlineOf, (Dict.mem_entries_iff _ _ _).mp inside]
        exact Option.some_ne_none _
    obtain ⟨key, ticked, known⟩ := some_
    have whole := following.scheduled.whole key _ known member
    rw [ticked] at whole
    obtain ⟨deadline, scheduled⟩ := Option.ne_none_iff_exists'.mp whole
    obtain ⟨own, here, same⟩ := following.scheduled.known _ _ scheduled
    obtain ⟨job, jobFound, jobDeadline⟩ := Option.map_eq_some_iff.mp scheduled
    have this : own = round := Option.some.inj (here.symm.trans found)
    exact ⟨job, jobFound, by rw [jobDeadline, ← same, this, ends]⟩

end Following

/-- A running, bootstrapped tick has one round for each tick so far, the timer's window, and a
job with its deadline for every enabled service. This holds between two iterations and within one. -/
theorem flag_rounds_follow_timer (env : Settings) (deployment : InitDb.Deployment) (start state : State)
    (row : GameTimer) (unplayed : Unplayed start) (jobless : start.db.checker.checkerJobs = Dict.empty)
    (run : Steps (step env deployment) (fun state event => orderly env state event = true) start state)
    (stored : state.db.gameState = some row) (running : row.state = .running) (opened : 1 ≤ row.currentTick)
    (ready : bootstrapped state.db row.currentTick = true) : Followed state.db row := by
  have following := steps_invariant (Following env)
    (fun _ _ _ kept met taken => following_step kept met taken) (following_start unplayed jobless) run
  exact followed_of_following following stored running opened ready

/-! Two plays. -/

open TickClosing (setUp set_up_unplayed)

/-- Two ticks are played. -/
def twoTicks : List Event :=
  [.publicSync] ++ bootstrapIteration 3 ++ [.clock 1120000000] ++ endIteration ++ bootstrapIteration 3

def ranTo (events : List Event) : State :=
  (exec (step sampleSettings sampleDeployment)
    (fun state event => orderly sampleSettings state event = true) setUp events).getD (initial 0)

def timerOf (state : State) : GameTimer := storedRow sampleSettings state.db

theorem second_tick_followed : Followed (ranTo twoTicks).db (timerOf (ranTo twoTicks)) :=
  flag_rounds_follow_timer sampleSettings sampleDeployment setUp (ranTo twoTicks) (timerOf (ranTo twoTicks))
    set_up_unplayed (by decide +kernel) (exec_steps twoTicks _ _ (by decide +kernel)) (by decide +kernel)
    (by decide +kernel) (by decide +kernel) (by decide +kernel)

/-- Tick 1 is bootstrapped at 1000 s, the game is stopped and started again at 2000 s. -/
def restarted : List Event :=
  [.publicSync] ++ bootstrapIteration 3 ++
    [.admin (.setDesired .stopped), .clock 2000000000, .admin (.setDesired .running)] ++ rotate 3

/-- Tick 1 of the second play runs from 2000 s, but its round and its jobs are those of the first one. -/
theorem restart_keeps_old_round :
    ∃ state row, exec (step sampleSettings sampleDeployment)
        (fun _ event => playing event = true) setUp restarted =
        some state ∧ state.loop = .idle ∧ state.db.gameState = some row ∧ row.state = .running ∧
        row.currentTick = 1 ∧
      bootstrapped state.db 1 = true ∧ row.tickStart = some 2000 ∧
      (state.db.flagRounds.get? 1).map (·.startsAt) = some 1000000000 ∧
      (state.db.checker.checkerJobs.get? (1, 1, 1)).map (·.deadlineAt) = some 1120000000 ∧
      ¬Followed state.db row := by
  have reached : ∃ state row, exec (step sampleSettings sampleDeployment)
        (fun _ event => playing event = true) setUp
        restarted = some state ∧ state.loop = .idle ∧ state.db.gameState = some row ∧ row.state = .running ∧
      row.currentTick = 1 ∧ bootstrapped state.db 1 = true ∧ row.tickStart = some 2000 ∧
      (state.db.flagRounds.get? 1).map (·.startsAt) = some 1000000000 ∧
      (state.db.checker.checkerJobs.get? (1, 1, 1)).map (·.deadlineAt) = some 1120000000 := by
    let final := (exec (step sampleSettings sampleDeployment) (fun _ event => playing event = true) setUp
      restarted).getD (initial 0)
    refine ⟨final, timerOf final, ?_⟩
    decide +kernel
  obtain ⟨state, row, ran, idle, stored, running, first, ready, starts, begins, deadline⟩ := reached
  refine ⟨state, row, ran, idle, stored, running, first, ready, starts, begins, deadline, ?_⟩
  intro followed
  obtain ⟨start, stop, round, startSet, _, found, same, _⟩ := followed.window
  rw [first] at found
  rw [found] at begins
  rw [starts, Option.some.injEq] at startSet
  have old : round.startsAt = 1000000000 := Option.some.inj begins
  rw [old, ← startSet] at same
  exact absurd same (by decide)

end KosSim.FlagRounds
