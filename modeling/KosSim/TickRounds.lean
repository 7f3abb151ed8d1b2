import KosSim.SubmitSessions

/-!
The rounds and the clock of a game without team administration. The rounds of
flag_rounds are numbered like their ticks, without a gap. The tick of the timer is
at most one ahead of them, and an iteration that holds the row of game_state works
on the committed tick, or on tick 1 that it has opened itself.
-/

namespace KosSim.TickRounds
open Library Schema CheckerJobs Rotator Platform PlatformFrames SubmitSessions
open CheckerRuns (WorkerEvent Tasks workerStep)

/-! One step, as a case list. -/

def finishedRow (env : Settings) (access : GameTimer.Access) (now : Int) : GameTimer :=
  (GameTimer.finishBoundary env access.timer (some access.row) now).row

inductive Rotates (env : Settings) (clock : Int) (db : Db) : RotatorEvent → Loop → Db → Loop → Prop where
  | failed (event : RotatorEvent) (loop : Loop) : Rotates env clock db event loop db .idle
  | polled : Rotates env clock db .next .idle db (.polled (poll env db (seconds clock)))
  | bootstraps (access : GameTimer.Access) (round : Round)
      (due : bootstrapRound db access.timer = some round) :
      Rotates env clock db .next (.polled access) db (.boundary .bootstrap access round clock)
  | skips (access : GameTimer.Access) : Rotates env clock db .next (.polled access) db (.checked access)
  | bounded (kind : Kind) (access : GameTimer.Access) (round : Round) (startedAt : Int)
      (boundary : Boundary)
      (done : runTickBoundary env db startedAt round.roundId round.startsAt round.endsAt = .ok boundary) :
      Rotates env clock db .next (.boundary kind access round startedAt) boundary.db
        (.queueing kind access round boundary.tick boundary.teamServices)
  | queued (kind : Kind) (access : GameTimer.Access) (round : Round) (tick : Int)
      (items : List TeamServiceItem) :
      Rotates env clock db .next (.queueing kind access round tick items)
        { db with checker := (scheduleCheckerJobs env tick round.roundId round.endsAt db.checker items).1 }
        (.enqueueing kind access (scheduleCheckerJobs env tick round.roundId round.endsAt
          db.checker items).2)
  | drained (kind : Kind) (access : GameTimer.Access) :
      Rotates env clock db .next (.enqueueing kind access []) db (afterQueue kind access)
  | enqueued (kind : Kind) (access : GameTimer.Access) (job : JobKey) (rest : List JobKey)
      (taskId : String) :
      Rotates env clock db (.enqueued taskId) (.enqueueing kind access (job :: rest))
        { db with checker := enqueued db.checker job taskId } (.enqueueing kind access rest)
  | notEnqueued (kind : Kind) (access : GameTimer.Access) (job : JobKey) (rest : List JobKey)
      (error : String) :
      Rotates env clock db (.enqueueFailed error) (.enqueueing kind access (job :: rest))
        { db with checker := enqueueFailed db.checker job error } (.enqueueing kind access rest)
  | ends (access : GameTimer.Access) (round : Round)
      (due : endRound access.timer (seconds clock) = some round) :
      Rotates env clock db .next (.checked access) db (.boundary .tickEnd access round clock)
  | commits (access : GameTimer.Access) :
      Rotates env clock db .next (.checked access) { db with gameState := some access.row } .idle
  | closes (access : GameTimer.Access) :
      Rotates env clock db .next (.closing access)
        { db with gameState := some (finishedRow env access (seconds clock)) } .idle

theorem rotator_step_cases {env : Settings} {clock : Int} {db after : Db} {loop next : Loop}
    {event : RotatorEvent} (taken : rotatorStep env clock db loop event = some (after, next)) :
    Rotates env clock db event loop after next := by
  unfold rotatorStep at taken
  split at taken
  · cases taken
    exact .failed _ loop
  · cases taken
    exact .polled
  · next access =>
    split at taken
    · next round due =>
      cases taken
      exact .bootstraps access round due
    · cases taken
      exact .skips access
  · next kind access round startedAt =>
    split at taken
    · cases taken
      exact .failed _ _
    · next boundary done =>
      cases taken
      exact .bounded kind access round startedAt boundary done
  · next kind access round tick items =>
    split at taken
    · cases taken
      exact .queued kind access round tick items
    · cases taken
      exact .failed _ _
  · next kind access =>
    cases taken
    exact .drained kind access
  · next kind access job rest taskId =>
    cases taken
    exact .enqueued kind access job rest taskId
  · next kind access job rest error =>
    cases taken
    exact .notEnqueued kind access job rest error
  · next access =>
    split at taken
    · next round due =>
      cases taken
      exact .ends access round due
    · cases taken
      exact .commits access
  · next access =>
    cases taken
    exact .closes access
  · cases taken

/-- A transaction on the timer other than the rotator's, and the row that it commits. -/
inductive Commands (env : Settings) (db : Db) (now : Int) : Event → GameTimer → Prop where
  | synced : Commands env db now .publicSync
      (GameTimer.syncScheduledStart env (loadedAccess env db).timer
        (some (loadedAccess env db).row) now).row
  | desired (state : CTFState) : Commands env db now (.admin (.setDesired state))
      (GameTimer.setDesired env (loadedAccess env db).timer (some (loadedAccess env db).row) state).row
  | scheduled (startAt stopAfterTick scoreboardFreezeTick : Option Int) :
      Commands env db now (.admin (.schedule startAt stopAfterTick scoreboardFreezeTick))
        (GameTimer.schedule env (loadedAccess env db).timer (some (loadedAccess env db).row)
          startAt stopAfterTick scoreboardFreezeTick).row

/-- The events between the setup of the teams and their deletion. -/
def playing : Event → Bool
  | .admin (.setDesired _) | .admin (.schedule _ _ _) => true
  | .admin _ | .bootstrap => false
  | _ => true

inductive Plays (env : Settings) (before : State) : Event → State → Prop where
  | clock (now : Int) : Plays env before (.clock now) { before with clock := now }
  | rotator (event : RotatorEvent) (db : Db) (loop : Loop)
      (rotates : Rotates env before.clock before.db event before.loop db loop) :
      Plays env before (.rotator event) { before with db := db, loop := loop }
  | submit (event : SubmitEvent) (rows : List Submission) (sessions : Sessions)
      (submits : Submits env before.clock before.db before.sessions event rows sessions) :
      Plays env before (.submit event) { before with
        db := { before.db with submissions := rows }, sessions := sessions }
  | worker (event : WorkerEvent) (checker : CheckerTables) (tasks : Tasks)
      (worked : workerStep env before.clock before.db.checker before.tasks event = some (checker, tasks)) :
      Plays env before (.worker event) { before with
        db := { before.db with checker := checker }, tasks := tasks }
  | command (event : Event) (row : GameTimer) (idle : before.loop = .idle)
      (commands : Commands env before.db (seconds before.clock) event row) :
      Plays env before event { before with db := { before.db with gameState := some row } }

theorem play_cases {env : Settings} {deployment : InitDb.Deployment} {before after : State} {event : Event}
    (met : playing event = true) (taken : step env deployment before event = some after) :
    Plays env before event after := by
  cases event with
  | clock now =>
      cases taken
      exact .clock now
  | rotator event =>
      obtain ⟨⟨db, loop⟩, moved, same⟩ := Option.map_eq_some_iff.mp taken
      subst same
      exact .rotator event db loop (rotator_step_cases moved)
  | submit event =>
      obtain ⟨⟨rows, sessions⟩, moved, same⟩ := Option.map_eq_some_iff.mp taken
      subst same
      exact .submit event rows sessions (submit_step_cases env _ _ _ event rows sessions moved)
  | worker event =>
      simp only [step] at taken
      split at taken
      · obtain ⟨⟨checker, tasks⟩, worked, same⟩ := Option.map_eq_some_iff.mp taken
        subst same
        exact .worker event checker tasks worked
      · cases taken
  | admin event =>
      obtain ⟨db, moved, same⟩ := Option.map_eq_some_iff.mp taken
      subst same
      cases event with
      | setDesired state =>
          simp only [adminStep] at moved
          split at moved
          · next idle =>
            cases moved
            exact .command _ _ idle (.desired state)
          · cases moved
      | schedule startAt stopAfterTick scoreboardFreezeTick =>
          simp only [adminStep] at moved
          split at moved
          · next idle =>
            cases moved
            exact .command _ _ idle (.scheduled startAt stopAfterTick scoreboardFreezeTick)
          · cases moved
      | createTeam body => cases met
      | updateTeam teamId body => cases met
      | deleteTeam teamId => cases met
  | publicSync =>
      simp only [step] at taken
      split at taken
      · next idle =>
        cases taken
        exact .command _ _ idle .synced
      · cases taken
  | bootstrap => cases met

/-! Rounds and ticks. -/

structure Numbered (db : Db) : Prop where
  nonneg : 0 ≤ db.maxTick
  present : ∀ roundId, roundId ∈ db.flagRounds.keys ↔ 1 ≤ roundId ∧ roundId ≤ db.maxTick
  own : ∀ roundId round, db.flagRounds.get? roundId = some round → round.tick = some roundId

section Numbered
variable {env : Settings} {db : Db}

theorem max_tick_eq {last : Int} (nonneg : 0 ≤ last)
    (present : ∀ roundId, roundId ∈ db.flagRounds.keys ↔ 1 ≤ roundId ∧ roundId ≤ last)
    (own : ∀ roundId round, db.flagRounds.get? roundId = some round → round.tick = some roundId) :
    db.maxTick = last := by
  have ticks : ∀ tick, tick ∈ db.flagRounds.entries.filterMap (fun entry => entry.2.tick) ↔
      1 ≤ tick ∧ tick ≤ last := by
    intro tick
    rw [← present tick, List.mem_filterMap]
    constructor
    · rintro ⟨entry, member, stored⟩
      have found := (Dict.mem_entries_iff db.flagRounds entry.1 entry.2).mp member
      rw [own entry.1 entry.2 found, Option.some.injEq] at stored
      exact stored ▸ List.mem_map.mpr ⟨entry, member, rfl⟩
    · intro member
      obtain ⟨entry, inside, same⟩ := List.mem_map.mp member
      have found := (Dict.mem_entries_iff db.flagRounds entry.1 entry.2).mp inside
      exact ⟨entry, inside, same ▸ own entry.1 entry.2 found⟩
  unfold Db.maxTick
  split
  · next empty =>
    rw [empty] at ticks
    have outside := (ticks last).mpr.mt (List.not_mem_nil)
    omega
  · next first rest shape =>
    rw [shape] at ticks
    have largest : (first :: rest).max? = some (rest.foldl max first) := List.max?_cons'
    obtain ⟨inside, above⟩ := List.max?_eq_some_iff.mp largest
    have bounds := (ticks _).mp inside
    have first_ := (ticks first).mp List.mem_cons_self
    exact le_antisymm bounds.2 (above last ((ticks last).mpr ⟨by omega, le_refl last⟩))

theorem numbered_of {last : Int} (nonneg : 0 ≤ last)
    (present : ∀ roundId, roundId ∈ db.flagRounds.keys ↔ 1 ≤ roundId ∧ roundId ≤ last)
    (own : ∀ roundId round, db.flagRounds.get? roundId = some round → round.tick = some roundId) :
    Numbered db ∧ db.maxTick = last := by
  have same := max_tick_eq nonneg present own
  exact ⟨⟨same ▸ nonneg, same ▸ present, own⟩, same⟩

theorem numbered_empty (unplayed : db.flagRounds = Dict.empty) : Numbered db ∧ db.maxTick = 0 := by
  refine numbered_of (le_refl 0) ?_ ?_
  · intro roundId
    rw [unplayed]
    constructor
    · intro member
      cases member
    · intro range
      omega
  · intro roundId round found
    rw [unplayed] at found
    cases found

theorem numbered_same (numbered : Numbered db) (after : Db) (same : after.flagRounds = db.flagRounds) :
    Numbered after ∧ after.maxTick = db.maxTick :=
  numbered_of numbered.nonneg (same ▸ numbered.present) (same ▸ numbered.own)

theorem numbered_round (numbered : Numbered db) (tick : Int) :
    db.roundOfTick tick = (db.flagRounds.get? tick).map fun round => (tick, round) := by
  cases search : db.roundOfTick tick with
  | none =>
      cases found : db.flagRounds.get? tick with
      | none => rfl
      | some round =>
          have missed := List.find?_eq_none.mp search _ ((Dict.mem_entries_iff _ _ _).mpr found)
          exact absurd (decide_eq_true (numbered.own tick round found)) missed
  | some entry =>
      have found := (Dict.mem_entries_iff _ _ _).mp (List.mem_of_find?_eq_some search)
      have named : entry.2.tick = some tick := by
        unfold Db.roundOfTick at search
        have hit := List.find?_some search
        exact of_decide_eq_true hit
      rw [numbered.own entry.1 entry.2 found, Option.some.injEq] at named
      rw [← named, found]
      rfl

theorem numbered_contains (numbered : Numbered db) (roundId : Int) :
    db.flagRounds.contains roundId = true ↔ 1 ≤ roundId ∧ roundId ≤ db.maxTick := by
  rw [Dict.contains_iff, numbered.present]

/-- A round that is there already stays as it is. -/
theorem ensure_present (env : Settings) (numbered : Numbered db) {roundId : Int} (startsAt endsAt : Int)
    (first : 1 ≤ roundId) (last : roundId ≤ db.maxTick) :
    ensureFlagRound env db roundId startsAt endsAt = (db, roundId) := by
  obtain ⟨round, found⟩ :=
    (Dict.contains_eq_some _ _).mp ((numbered_contains numbered roundId).mpr ⟨first, last⟩)
  unfold ensureFlagRound
  rw [found, Option.bind_some, numbered.own roundId round found]

/-- The round after the last one becomes the tick after the last one. -/
theorem ensure_next (numbered : Numbered db) {roundId : Int} (startsAt endsAt : Int)
    (next : roundId = db.maxTick + 1) :
    ensureFlagRound env db roundId startsAt endsAt =
      ({ db with flagRounds :=
          db.flagRounds.set roundId ⟨startsAt, endsAt, env.rotationSeconds, some roundId⟩ }, roundId) := by
  have missing : db.flagRounds.get? roundId = none := by
    cases found : db.flagRounds.get? roundId with
    | none => rfl
    | some round =>
        have range :=
          (numbered_contains numbered roundId).mp ((Dict.contains_eq_some _ _).mpr ⟨round, found⟩)
        omega
  unfold ensureFlagRound
  rw [missing, ← next]
  rfl

theorem numbered_next (numbered : Numbered db) {roundId : Int} (round : FlagRound)
    (next : roundId = db.maxTick + 1) (named : round.tick = some roundId) :
    Numbered { db with flagRounds := db.flagRounds.set roundId round } ∧
      ({ db with flagRounds := db.flagRounds.set roundId round } : Db).maxTick = roundId := by
  have nonneg := numbered.nonneg
  refine numbered_of (by omega) ?_ ?_
  · intro other
    rw [Dict.mem_keys_set, numbered.present]
    omega
  · intro other stored found
    rw [Dict.get_set] at found
    split at found
    · next same =>
      cases found
      exact same ▸ named
    · exact numbered.own other stored found

/-- What a boundary does to the rounds: nothing, or it adds the next one. -/
theorem boundary_rounds {roundId startedAt startsAt endsAt : Int} {boundary : Boundary}
    (numbered : Numbered db) (first : 1 ≤ roundId) (last : roundId ≤ db.maxTick + 1)
    (done : runTickBoundary env db startedAt roundId startsAt endsAt = .ok boundary) :
    boundary.tick = roundId ∧ Numbered boundary.db ∧ roundId ≤ boundary.db.maxTick ∧
      (roundId ≤ db.maxTick ∧ ensureFlagRound env db roundId startsAt endsAt = (db, roundId) ∧
          boundary.db.flagRounds = db.flagRounds ∧ boundary.db.maxTick = db.maxTick ∨
        roundId = db.maxTick + 1 ∧ boundary.db.maxTick = roundId ∧ boundary.db.flagRounds =
          db.flagRounds.set roundId ⟨startsAt, endsAt, env.rotationSeconds, some roundId⟩) := by
  have ticked := (run_tick_boundary_cases done).1
  have rounds := (run_tick_boundary_frame done).2.2
  by_cases old : roundId ≤ db.maxTick
  · have same := ensure_present env numbered startsAt endsAt first old
    rw [same] at ticked rounds
    obtain ⟨kept, largest⟩ := numbered_same numbered boundary.db rounds
    exact ⟨ticked, kept, largest ▸ old, Or.inl ⟨old, same, rounds, largest⟩⟩
  · have next : roundId = db.maxTick + 1 := by omega
    rw [ensure_next numbered startsAt endsAt next] at ticked rounds
    obtain ⟨grown, largest⟩ := numbered_next numbered
      ⟨startsAt, endsAt, env.rotationSeconds, some roundId⟩ next rfl
    obtain ⟨kept, same⟩ := numbered_same grown boundary.db rounds
    rw [largest] at same
    exact ⟨ticked, kept, same.ge, Or.inr ⟨next, same, rounds⟩⟩

end Numbered

/-! The timer of an iteration. -/

/-- The object is the row, but for a freeze tick that the row leaves open. -/
def Loaded (access : GameTimer.Access) : Prop :=
  access.timer = GameTimer.load access.timer (some access.row)

/-- The iteration's row is on the committed tick, or on tick 1 before any tick is committed. -/
def Follows (db : Db) (access : GameTimer.Access) : Prop :=
  (∃ row, db.gameState = some row ∧ 1 ≤ row.currentTick ∧ access.row.currentTick = row.currentTick ∧
      access.row.tickStart = row.tickStart ∧ access.row.tickEnd = row.tickEnd) ∨
    (∀ row, db.gameState = some row → row.currentTick < 1) ∧ access.row.currentTick ≤ 1

structure Holding (db : Db) (access : GameTimer.Access) : Prop where
  loaded : Loaded access
  follows : Follows db access
  nonneg : 0 ≤ access.row.currentTick
  reach : access.row.currentTick ≤ db.maxTick + 1

structure OnTick (access : GameTimer.Access) : Prop where
  running : access.row.state = .running
  opened : 1 ≤ access.row.currentTick

def WindowOf (access : GameTimer.Access) (round : Round) : Prop :=
  ∃ start stop, access.row.tickStart = some start ∧ access.row.tickEnd = some stop ∧
    round = windowRound access.row.currentTick start stop

def Working (db : Db) : Loop → Prop
  | .idle => True
  | .polled access | .checked access => Holding db access
  | .boundary _ access round _ => Holding db access ∧ OnTick access ∧ WindowOf access round
  | .queueing _ access round tick _ => Holding db access ∧ OnTick access ∧ WindowOf access round ∧
      tick = access.row.currentTick ∧ access.row.currentTick ≤ db.maxTick
  | .enqueueing _ access jobs => Holding db access ∧ OnTick access ∧ access.row.currentTick ≤ db.maxTick ∧
      ∀ job ∈ jobs, job.1 = access.row.currentTick
  | .closing access => Holding db access ∧ OnTick access ∧ access.row.currentTick ≤ db.maxTick

/-- The row of the transaction that the iteration has open. -/
def heldRow : Loop → Option GameTimer
  | .idle => none
  | .polled access | .boundary _ access _ _ | .queueing _ access _ _ _ | .enqueueing _ access _
  | .checked access | .closing access => some access.row

def InReach (db : Db) (row : GameTimer) : Prop := 0 ≤ row.currentTick ∧ row.currentTick ≤ db.maxTick + 1

structure Paced (state : State) : Prop where
  numbered : Numbered state.db
  committed : ∀ row, state.db.gameState = some row → InReach state.db row
  working : Working state.db state.loop

section Timer
variable {env : Settings} {db : Db}

theorem loaded_fields {access : GameTimer.Access} (loaded : Loaded access) :
    access.timer.state = access.row.state ∧ access.timer.currentTick = access.row.currentTick ∧
      access.timer.tickStart = access.row.tickStart ∧ access.timer.tickEnd = access.row.tickEnd :=
  ⟨congrArg (·.state) loaded, congrArg (·.currentTick) loaded, congrArg (·.tickStart) loaded,
    congrArg (·.tickEnd) loaded⟩

theorem loaded_poll (now : Int) : Loaded (poll env db now) := by
  unfold Loaded poll GameTimer.load
  dsimp only
  split <;> simp_all

/-- What sync_scheduled_start leaves of a row: itself, a running game, or a fresh tick 1. -/
theorem sync_row_cases (env : Settings) (self row : GameTimer) (now : Int) :
    let loaded := GameTimer.load self (some row)
    let after := (GameTimer.syncScheduledStart env self (some row) now).row
    after = row ∨ (row.desiredState = .running ∧ 1 ≤ row.currentTick ∧ after = { loaded with
      state := .running }) ∨ (row.desiredState = .running ∧ row.currentTick < 1 ∧
        after = GameTimer.openTick env { loaded with state := .running } now 1) := by
  intro loaded after
  have written : after = (GameTimer.persist ⟨loaded, row⟩ (GameTimer.afterSync env loaded now)).row := rfl
  rw [written, GameTimer.afterSync]
  split
  · exact Or.inl rfl
  next desired =>
  split
  · exact Or.inl rfl
  split
  · next unopened => exact Or.inr (Or.inr ⟨Decidable.not_not.mp desired, unopened, rfl⟩)
  · next opened => exact Or.inr (Or.inl ⟨Decidable.not_not.mp desired, Int.not_lt.mp opened, rfl⟩)

def storedRow (env : Settings) (db : Db) : GameTimer := db.gameState.getD (GameTimer.freshRow env)

theorem stored_reach (env : Settings) (committed : ∀ row, db.gameState = some row → InReach db row)
    (numbered : Numbered db) :
    InReach db (storedRow env db) := by
  have nonneg := numbered.nonneg
  unfold storedRow
  cases stored : db.gameState with
  | none =>
      show 0 ≤ (0 : Int) ∧ (0 : Int) ≤ db.maxTick + 1
      omega
  | some row => exact committed row stored

theorem sync_tick (env : Settings) (self row : GameTimer) (now : Int) :
    (GameTimer.syncScheduledStart env self (some row) now).row.currentTick = row.currentTick ∨
      row.currentTick < 1 ∧ (GameTimer.syncScheduledStart env self (some row) now).row.currentTick = 1 := by
  rcases sync_row_cases env self row now with same | ⟨_, _, same⟩ | ⟨_, unopened, same⟩
  · exact Or.inl (congrArg (·.currentTick) same)
  · exact Or.inl (congrArg (·.currentTick) same)
  · exact Or.inr ⟨unopened, congrArg (·.currentTick) same⟩

/-- An iteration starts on the committed tick and its window, if there is one. -/
theorem holding_poll (committed : ∀ row, db.gameState = some row → InReach db row) (numbered : Numbered db)
    (now : Int) : Holding db (poll env db now) := by
  obtain ⟨nonneg, reach⟩ := stored_reach env committed numbered
  have rounds := numbered.nonneg
  have synced := sync_tick env (GameTimer.load (GameTimer.new env) (some (storedRow env db)))
    (storedRow env db) now
  change (poll env db now).row.currentTick = _ ∨ _ ∧ (poll env db now).row.currentTick = 1 at synced
  refine ⟨loaded_poll now, ?_, by omega, by omega⟩
  cases stored : db.gameState with
  | none =>
      right
      have fresh : (storedRow env db).currentTick = 0 := by simp [storedRow, stored, GameTimer.freshRow]
      refine ⟨?_, by omega⟩
      intro row impossible
      rw [stored] at impossible
      cases impossible
  | some row =>
      have same : storedRow env db = row := by rw [storedRow, stored]; rfl
      by_cases opened : 1 ≤ row.currentTick
      · left
        refine ⟨row, stored, opened, ?_⟩
        have cases_ := sync_row_cases env (GameTimer.load (GameTimer.new env) (some (storedRow env db)))
          (storedRow env db) now
        change (poll env db now).row = _ ∨ _ ∧ _ ∧ (poll env db now).row = _ ∨ _ ∧ _ ∧
          (poll env db now).row = _
          at cases_
        rw [same] at cases_
        rcases cases_ with kept | ⟨_, _, kept⟩ | ⟨_, unopened, _⟩
        · rw [kept]
          exact ⟨rfl, rfl, rfl⟩
        · rw [kept]
          exact ⟨rfl, rfl, rfl⟩
        · omega
      · right
        rw [same] at synced
        refine ⟨?_, by omega⟩
        intro other also
        rw [stored, Option.some.injEq] at also
        exact also ▸ Int.not_le.mp opened

/-- A command leaves the tick, resets it to 0 or opens tick 1. -/
theorem command_tick {event : Event} {row : GameTimer} {now : Int}
    (commands : Commands env db now event row) :
    row.currentTick = (storedRow env db).currentTick ∨ row.currentTick = 0 ∨ row.currentTick = 1 := by
  cases commands with
  | synced =>
      rcases sync_tick env (loadedAccess env db).timer (loadedAccess env db).row now with same | ⟨_, first⟩
      · exact Or.inl same
      · exact Or.inr (Or.inr first)
  | desired state =>
      show (GameTimer.afterDesired _ state).currentTick = _ ∨ _
      cases state with
      | stopped => exact Or.inr (Or.inl rfl)
      | suspended =>
          left
          unfold GameTimer.afterDesired
          dsimp only
          split <;> rfl
      | running =>
          left
          unfold GameTimer.afterDesired
          dsimp only
          split <;> rfl
  | scheduled startAt stopAfterTick scoreboardFreezeTick => exact Or.inl rfl

/-- finish_boundary ends the game, suspends it, or opens the next tick. -/
theorem finish_tick (env : Settings) (access : GameTimer.Access) (now : Int) :
    (finishedRow env access now).currentTick = 0 ∨
      (finishedRow env access now).currentTick = access.row.currentTick ∨
      (finishedRow env access now).currentTick = access.row.currentTick + 1 := by
  have finished : finishedRow env access now =
      GameTimer.afterBoundary env (GameTimer.load access.timer (some access.row)) now := rfl
  rw [finished, GameTimer.afterBoundary]
  split
  · dsimp only
    split
    · exact Or.inl rfl
    · exact Or.inr (Or.inl rfl)
  split
  · exact Or.inr (Or.inl rfl)
  · exact Or.inr (Or.inr rfl)

theorem bootstrap_round_some {access : GameTimer.Access} {round : Round} (loaded : Loaded access)
    (due : bootstrapRound db access.timer = some round) : OnTick access ∧ WindowOf access round := by
  obtain ⟨state, tick, starts, ends⟩ := loaded_fields loaded
  unfold bootstrapRound at due
  rw [state, tick, starts, ends] at due
  split at due
  · cases due
  next running =>
  rw [not_or, Decidable.not_not, Int.not_lt] at running
  split at due
  · cases due
  split at due
  · next start stop startSet stopSet =>
    split at due
    · cases due
    · cases due
      exact ⟨⟨running.1, running.2⟩, start, stop, startSet, stopSet, rfl⟩
  · cases due

theorem end_round_some {access : GameTimer.Access} {round : Round} {now : Int} (loaded : Loaded access)
    (due : endRound access.timer now = some round) :
    OnTick access ∧ WindowOf access round ∧ ∃ stop, access.row.tickEnd = some stop ∧ stop ≤ now := by
  obtain ⟨state, tick, starts, ends⟩ := loaded_fields loaded
  obtain ⟨⟨number, start, stop⟩, ready, same⟩ := Option.map_eq_some_iff.mp due
  obtain ⟨running, opened, named, startSet, stopSet, past⟩ :=
    GameTimer.boundary_ready_some _ _ _ _ _ ready
  rw [state] at running
  rw [tick] at opened named
  rw [starts] at startSet
  rw [ends] at stopSet
  refine ⟨⟨running, opened⟩, ⟨start, stop, startSet, stopSet, ?_⟩, stop, stopSet, past⟩
  rw [← same, named]

theorem schedule_keys {tick roundId deadlineAt : Int} {tables : CheckerTables}
    {items : List TeamServiceItem} :
    ∀ job ∈ (scheduleCheckerJobs env tick roundId deadlineAt tables items).2, job.1 = tick := by
  intro job member
  obtain ⟨inside, _⟩ := List.mem_filter.mp member
  obtain ⟨item, _, same⟩ := List.mem_map.mp inside
  rw [← same]

end Timer

/-! The invariant of the runs. -/

section Paced
variable {env : Settings}

theorem follows_same {db after : Db} {access : GameTimer.Access} (follows : Follows db access)
    (same : after.gameState = db.gameState) : Follows after access := by
  unfold Follows
  rw [same]
  exact follows

theorem holding_grow {db after : Db} {access : GameTimer.Access} (holding : Holding db access)
    (same : after.gameState = db.gameState) (grown : db.maxTick ≤ after.maxTick) : Holding after access :=
  ⟨holding.loaded, follows_same holding.follows same, holding.nonneg, by have := holding.reach; omega⟩

theorem working_grow {db after : Db} {loop : Loop} (working : Working db loop)
    (same : after.gameState = db.gameState) (grown : db.maxTick ≤ after.maxTick) : Working after loop := by
  cases loop with
  | idle => trivial
  | polled access => exact holding_grow working same grown
  | boundary kind access round startedAt =>
      obtain ⟨holding, rest⟩ := working
      exact ⟨holding_grow holding same grown, rest⟩
  | queueing kind access round tick items =>
      obtain ⟨holding, onTick, window, ticked, known⟩ := working
      exact ⟨holding_grow holding same grown, onTick, window, ticked, known.trans grown⟩
  | enqueueing kind access jobs =>
      obtain ⟨holding, onTick, known, keys⟩ := working
      exact ⟨holding_grow holding same grown, onTick, known.trans grown, keys⟩
  | checked access => exact holding_grow working same grown
  | closing access =>
      obtain ⟨holding, onTick, known⟩ := working
      exact ⟨holding_grow holding same grown, onTick, known.trans grown⟩

theorem reach_grow {db after : Db} {row : GameTimer} (reach : InReach db row)
    (grown : db.maxTick ≤ after.maxTick) :
    InReach after row :=
  ⟨reach.1, by have := reach.2; omega⟩

theorem paced_rotates {clock : Int} {state : State} {event : RotatorEvent} {db : Db} {loop : Loop}
    (paced : Paced state) (rotates : Rotates env clock state.db event state.loop db loop) :
    Paced { state with db := db, loop := loop } ∧ state.db.maxTick ≤ db.maxTick := by
  have committed := paced.committed
  have working := paced.working
  generalize state.loop = before at rotates working
  cases rotates with
  | failed event loop => exact ⟨⟨paced.numbered, committed, trivial⟩, le_refl _⟩
  | polled => exact ⟨⟨paced.numbered, committed, holding_poll committed paced.numbered _⟩, le_refl _⟩
  | bootstraps access round due =>
      have holding : Holding state.db access := working
      exact ⟨⟨paced.numbered, committed, holding, bootstrap_round_some holding.loaded due⟩, le_refl _⟩
  | skips access => exact ⟨⟨paced.numbered, committed, working⟩, le_refl _⟩
  | bounded kind access round startedAt boundary done =>
      obtain ⟨holding, onTick, window⟩ := working
      obtain ⟨start, stop, _, _, same⟩ := id window
      have named : round.roundId = access.row.currentTick := by rw [same]; rfl
      obtain ⟨ticked, numbered, known, opened⟩ := boundary_rounds paced.numbered (named ▸ onTick.opened)
        (named ▸ holding.reach) done
      have state_ := (run_tick_boundary_frame done).2.1
      have grown : state.db.maxTick ≤ boundary.db.maxTick := by
        rcases opened with ⟨_, _, _, largest⟩ | ⟨next, largest, _⟩ <;> omega
      refine ⟨⟨numbered, ?_, ?_⟩, grown⟩
      · intro row stored
        exact reach_grow (committed row (state_ ▸ stored)) grown
      · exact ⟨holding_grow holding state_ grown, onTick, window, ticked.trans named, named ▸ known⟩
  | queued kind access round tick items =>
      obtain ⟨holding, onTick, window, ticked, known⟩ := working
      obtain ⟨numbered, largest⟩ := numbered_same paced.numbered { state.db with checker :=
        (scheduleCheckerJobs env tick round.roundId round.endsAt state.db.checker items).1 } rfl
      refine ⟨⟨numbered, ?_, holding_grow holding rfl largest.ge, onTick, known, ?_⟩, largest.ge⟩
      · exact fun row stored => reach_grow (committed row stored) largest.ge
      · exact fun job member => (schedule_keys job member).trans ticked
  | drained kind access =>
      obtain ⟨holding, onTick, known, _⟩ := working
      refine ⟨⟨paced.numbered, committed, ?_⟩, le_refl _⟩
      cases kind with
      | bootstrap => exact holding
      | tickEnd => exact ⟨holding, onTick, known⟩
  | enqueued kind access job rest taskId =>
      obtain ⟨holding, onTick, known, keys⟩ := working
      obtain ⟨numbered, largest⟩ := numbered_same paced.numbered
        { state.db with checker := enqueued state.db.checker job taskId } rfl
      refine ⟨⟨numbered, ?_, holding_grow holding rfl largest.ge, onTick, known, ?_⟩, largest.ge⟩
      · exact fun row stored => reach_grow (committed row stored) largest.ge
      · exact fun other member => keys other (List.mem_cons_of_mem _ member)
  | notEnqueued kind access job rest error =>
      obtain ⟨holding, onTick, known, keys⟩ := working
      obtain ⟨numbered, largest⟩ := numbered_same paced.numbered
        { state.db with checker := enqueueFailed state.db.checker job error } rfl
      refine ⟨⟨numbered, ?_, holding_grow holding rfl largest.ge, onTick, known, ?_⟩, largest.ge⟩
      · exact fun row stored => reach_grow (committed row stored) largest.ge
      · exact fun other member => keys other (List.mem_cons_of_mem _ member)
  | ends access round due =>
      have holding : Holding state.db access := working
      obtain ⟨onTick, window, _⟩ := end_round_some holding.loaded due
      exact ⟨⟨paced.numbered, committed, holding, onTick, window⟩, le_refl _⟩
  | commits access =>
      have holding : Holding state.db access := working
      obtain ⟨numbered, largest⟩ := numbered_same paced.numbered
        { state.db with gameState := some access.row } rfl
      refine ⟨⟨numbered, ?_, trivial⟩, largest.ge⟩
      rintro row stored
      cases stored
      exact reach_grow ⟨holding.nonneg, holding.reach⟩ largest.ge
  | closes access =>
      obtain ⟨holding, onTick, known⟩ := working
      obtain ⟨numbered, largest⟩ := numbered_same paced.numbered
        { state.db with gameState := some (finishedRow env access (seconds clock)) } rfl
      refine ⟨⟨numbered, ?_, trivial⟩, largest.ge⟩
      rintro row stored
      cases stored
      have ticks := finish_tick env access (seconds clock)
      have nonneg := paced.numbered.nonneg
      have opened := onTick.opened
      have reach : InReach state.db (finishedRow env access (seconds clock)) := by
        unfold InReach
        omega
      exact reach_grow reach largest.ge

theorem paced_step {deployment : InitDb.Deployment} {before after : State} {event : Event}
    (paced : Paced before) (met : playing event = true)
    (taken : step env deployment before event = some after) :
    Paced after ∧ before.db.maxTick ≤ after.db.maxTick := by
  cases play_cases met taken with
  | clock now => exact ⟨⟨paced.numbered, paced.committed, paced.working⟩, le_refl _⟩
  | rotator event db loop rotates => exact paced_rotates paced rotates
  | submit event rows sessions submits =>
      obtain ⟨numbered, largest⟩ := numbered_same paced.numbered
        { before.db with submissions := rows } rfl
      exact ⟨⟨numbered, fun row stored => reach_grow (paced.committed row stored) largest.ge,
        working_grow paced.working rfl largest.ge⟩, largest.ge⟩
  | worker event checker tasks worked =>
      obtain ⟨numbered, largest⟩ := numbered_same paced.numbered
        { before.db with checker := checker } rfl
      exact ⟨⟨numbered, fun row stored => reach_grow (paced.committed row stored) largest.ge,
        working_grow paced.working rfl largest.ge⟩, largest.ge⟩
  | command event row idle commands =>
      obtain ⟨numbered, largest⟩ := numbered_same paced.numbered
        { before.db with gameState := some row } rfl
      refine ⟨⟨numbered, ?_, ?_⟩, largest.ge⟩
      · rintro other stored
        cases stored
        have ticks := command_tick commands
        obtain ⟨nonneg, reach⟩ := stored_reach env paced.committed paced.numbered
        have rounds := paced.numbered.nonneg
        have kept : InReach before.db row := by
          unfold InReach
          omega
        exact reach_grow kept largest.ge
      · show Working _ before.loop
        rw [idle]
        trivial

theorem paced_same {before after : State} (paced : Paced before)
    (rounds : after.db.flagRounds = before.db.flagRounds)
    (timer : after.db.gameState = before.db.gameState) (loop : after.loop = before.loop) :
    Paced after := by
  obtain ⟨numbered, largest⟩ := numbered_same paced.numbered after.db rounds
  refine ⟨numbered, ?_, ?_⟩
  · intro row stored
    rw [timer] at stored
    exact reach_grow (paced.committed row stored) largest.ge
  · rw [loop]
    exact working_grow paced.working timer largest.ge

/-- The admin's team commands and bootstrap_database leave the rounds and the timer alone. -/
theorem paced_event {deployment : InitDb.Deployment} {before after : State} {event : Event}
    (paced : Paced before) (taken : step env deployment before event = some after) :
    Paced after := by
  by_cases met : playing event = true
  · exact (paced_step paced met taken).1
  cases event with
  | clock now => exact absurd rfl met
  | rotator event => exact absurd rfl met
  | submit event => exact absurd rfl met
  | worker event => exact absurd rfl met
  | publicSync => exact absurd rfl met
  | admin event =>
      obtain ⟨db, moved, same⟩ := Option.map_eq_some_iff.mp taken
      subst same
      cases event with
      | setDesired desired => exact absurd rfl met
      | schedule startAt stopAfterTick scoreboardFreezeTick => exact absurd rfl met
      | createTeam body =>
          cases moved
          have records := create_team_records env before.db body
          exact paced_same paced records.flagRounds records.gameState rfl
      | updateTeam teamId body =>
          cases moved
          have records := update_team_records before.db teamId body
          exact paced_same paced records.flagRounds records.gameState rfl
      | deleteTeam teamId =>
          simp only [adminStep] at moved
          split at moved
          · cases moved
          · cases moved
            unfold AdminTeams.apiTeamDelete
            split
            · exact paced_same paced rfl rfl rfl
            · exact paced_same paced rfl rfl rfl
  | bootstrap =>
      simp only [step] at taken
      split at taken
      · next db done =>
        cases taken
        have records := bootstrap_records done
        exact paced_same paced records.flagRounds records.gameState rfl
      · cases taken

/-- A game that has not been played: its start may be prepared by the admin. -/
structure Unplayed (state : State) : Prop where
  rounds : state.db.flagRounds = Dict.empty
  idle : state.loop = .idle
  unstarted : ∀ row, state.db.gameState = some row → row.currentTick = 0

theorem paced_start {state : State} (unplayed : Unplayed state) : Paced state := by
  obtain ⟨numbered, none_⟩ := numbered_empty unplayed.rounds
  refine ⟨numbered, ?_, ?_⟩
  · intro row stored
    rw [InReach, unplayed.unstarted row stored, none_]
    omega
  · rw [unplayed.idle]
    trivial

end Paced

end KosSim.TickRounds
