import KosSim.TickRounds

/-!
The windows of the rounds while the game stays wanted and the clock does not go
back. Every round keeps the window that its tick had when the rotator first saw it,
and the next tick opens after its end. So the windows of two ticks never overlap,
and the window of a tick never changes.
-/

namespace KosSim.RoundWindows
open Library Schema Rotator Platform PlatformFrames TickRounds

/-- The clock does not go back, and the admin neither stops nor suspends the game. -/
def steadily (state : State) : Event → Bool
  | .clock now => decide (state.clock ≤ now)
  | .admin (.setDesired desired) => decide (desired = .running)
  | .admin (.schedule _ stopAfterTick _) => decide (stopAfterTick = none)
  | .admin _ | .bootstrap => false
  | _ => true

theorem steadily_playing {state : State} {event : Event} (met : steadily state event = true) :
    playing event = true := by
  cases event with
  | admin event => cases event <;> first | rfl | cases met
  | bootstrap => cases met
  | clock | rotator | submit | worker | publicSync => rfl

theorem seconds_mono {one two : Int} (le : one ≤ two) : seconds one ≤ seconds two := by
  unfold seconds second
  rw [Int.fdiv_eq_ediv_of_nonneg _ (by decide), Int.fdiv_eq_ediv_of_nonneg _ (by decide)]
  omega

/-! The invariant. -/

structure Spaced (env : Settings) (db : Db) : Prop where
  length : ∀ tick round, db.flagRounds.get? tick = some round →
    round.endsAt = round.startsAt + env.rotationSeconds * second
  order : ∀ one two first last, one < two → db.flagRounds.get? one = some first →
    db.flagRounds.get? two = some last → first.endsAt ≤ last.startsAt

/-- No round starts after the given second, and those before the tick have ended by then. -/
def Reaches (db : Db) (tick origin : Int) : Prop :=
  ∀ other round, db.flagRounds.get? other = some round →
    round.startsAt ≤ origin * second ∧ (other < tick → round.endsAt ≤ origin * second)

/-- The row before tick 1, or on a tick with its window. -/
def Fitting (env : Settings) (clock : Int) (db : Db) (row : GameTimer) : Prop :=
  (row.currentTick < 1 ∧ db.maxTick ≤ 1 ∧ Reaches db 1 (seconds clock)) ∨
    ∃ start, 1 ≤ row.currentTick ∧ row.tickStart = some start ∧
      row.tickEnd = some (start + env.rotationSeconds) ∧ start ≤ seconds clock ∧
      db.maxTick ≤ row.currentTick ∧ Reaches db row.currentTick start

def Wanted (row : GameTimer) : Prop :=
  row.stopAfterTick = none ∧ (1 ≤ row.currentTick → row.desiredState = .running)

/-- An iteration that ends a tick is past the tick's window. -/
def Due (clock : Int) : Loop → Prop
  | .boundary .tickEnd access _ _ | .queueing .tickEnd access _ _ _ | .enqueueing .tickEnd access _
  | .closing access => ∃ stop, access.row.tickEnd = some stop ∧ stop ≤ seconds clock
  | _ => True

structure Timed (env : Settings) (state : State) : Prop where
  paced : Paced state
  spaced : Spaced env state.db
  committed : Wanted (storedRow env state.db) ∧ Fitting env state.clock state.db (storedRow env state.db)
  held : ∀ row, heldRow state.loop = some row → Wanted row ∧ Fitting env state.clock state.db row
  due : Due state.clock state.loop

section Rows
variable {env : Settings} {clock : Int} {db : Db} {row : GameTimer}

theorem reaches_later {tick one two : Int} (reaches : Reaches db tick one) (le : one ≤ two) :
    Reaches db tick two := by
  intro other round found
  obtain ⟨starts, ends⟩ := reaches other round found
  have scaled : one * second ≤ two * second := by unfold second; omega
  exact ⟨starts.trans scaled, fun before => (ends before).trans scaled⟩

theorem fitting_later {now : Int} (fitting : Fitting env clock db row) (le : clock ≤ now) :
    Fitting env now db row := by
  have later := seconds_mono le
  rcases fitting with ⟨unopened, few, reaches⟩ | ⟨start, opened, starts, ends, past, last, reaches⟩
  · exact Or.inl ⟨unopened, few, reaches_later reaches later⟩
  · exact Or.inr ⟨start, opened, starts, ends, past.trans later, last, reaches⟩

/-- The invariant of a row reads its tick and its window only. -/
theorem fitting_same {other : GameTimer} (fitting : Fitting env clock db row)
    (tick : other.currentTick = row.currentTick) (starts : other.tickStart = row.tickStart)
    (ends : other.tickEnd = row.tickEnd) : Fitting env clock db other := by
  unfold Fitting
  rw [tick, starts, ends]
  exact fitting

theorem fitting_opened (fitting : Fitting env clock db row) (unopened : row.currentTick < 1)
    (self : GameTimer) : Fitting env clock db (GameTimer.openTick env self (seconds clock) 1) := by
  rcases fitting with ⟨_, few, reaches⟩ | ⟨_, opened, _⟩
  · exact Or.inr ⟨seconds clock, le_refl 1, rfl, rfl, le_refl _, few, reaches⟩
  · omega

theorem sync_timed (self : GameTimer) (kept : Wanted row ∧ Fitting env clock db row) :
    Wanted (GameTimer.syncScheduledStart env self (some row) (seconds clock)).row ∧
      Fitting env clock db (GameTimer.syncScheduledStart env self (some row) (seconds clock)).row := by
  obtain ⟨⟨endless, wanted⟩, fitting⟩ := kept
  rcases sync_row_cases env self row (seconds clock) with same | ⟨desired, _, same⟩ | ⟨desired,
    unopened, same⟩
  · rw [same]
    exact ⟨⟨endless, wanted⟩, fitting⟩
  · rw [same]
    exact ⟨⟨endless, fun _ => desired⟩, fitting_same fitting rfl rfl rfl⟩
  · rw [same]
    exact ⟨⟨endless, fun _ => desired⟩, fitting_opened fitting unopened _⟩

/-- The next tick opens after the end of the last one. -/
theorem next_fitting (spaced : Spaced env db) (self : GameTimer) (fitting : Fitting env clock db row)
    (opened : 1 ≤ row.currentTick) (due : ∃ stop, row.tickEnd = some stop ∧ stop ≤ seconds clock) :
    Fitting env clock db (GameTimer.openTick env self (seconds clock) (row.currentTick + 1)) := by
  obtain ⟨stop, stopSet, past⟩ := due
  rcases fitting with ⟨unopened, _⟩ | ⟨start, _, _, ends, begun, last, reaches⟩
  · omega
  rw [stopSet, Option.some.injEq] at ends
  refine Or.inr ⟨seconds clock, by show 1 ≤ row.currentTick + 1; omega, rfl, rfl, le_refl _,
    by show db.maxTick ≤ row.currentTick + 1; omega, ?_⟩
  intro other round found
  obtain ⟨roundStarts, roundEnds⟩ := reaches other round found
  have length := spaced.length other round found
  unfold second at *
  refine ⟨by omega, fun _ => ?_⟩
  by_cases current : other < row.currentTick
  · have ended := roundEnds current
    omega
  · omega

/-- finish_boundary of a wanted game opens the next tick. -/
theorem finished_next {access : GameTimer.Access} (wanted : Wanted access.row)
    (opened : 1 ≤ access.row.currentTick) :
    finishedRow env access (seconds clock) =
      GameTimer.openTick env (GameTimer.load access.timer (some access.row))
      (seconds clock) (access.row.currentTick + 1) := by
  have endless : GameTimer.stopReached (GameTimer.load access.timer (some access.row)) = false := by
    simp [GameTimer.stopReached, GameTimer.load, wanted.1]
  have desired : (GameTimer.load access.timer (some access.row)).desiredState = .running := wanted.2 opened
  show GameTimer.afterBoundary env (GameTimer.load access.timer (some access.row)) (seconds clock) = _
  rw [GameTimer.afterBoundary, if_neg (not_not.mpr desired), endless]
  rfl

theorem finished_timed (spaced : Spaced env db) {access : GameTimer.Access} (wanted : Wanted access.row)
    (fitting : Fitting env clock db access.row) (opened : 1 ≤ access.row.currentTick)
    (due : ∃ stop, access.row.tickEnd = some stop ∧ stop ≤ seconds clock) :
    Wanted (finishedRow env access (seconds clock)) ∧
      Fitting env clock db (finishedRow env access (seconds clock)) := by
  rw [finished_next wanted opened]
  exact ⟨⟨wanted.1, fun _ => wanted.2 opened⟩, next_fitting spaced _ fitting opened due⟩

theorem fitting_frame {after : Db} (fitting : Fitting env clock db row)
    (rounds : after.flagRounds = db.flagRounds) :
    Fitting env clock after row := by
  unfold Fitting Reaches Db.maxTick at *
  rw [rounds]
  exact fitting

/-- The committed row fits if the row of an iteration on an open tick does. -/
theorem fitting_committed {access : GameTimer.Access} (follows : Follows db access)
    (opened : 1 ≤ access.row.currentTick) (fitting : Fitting env clock db access.row) :
    Fitting env clock db (storedRow env db) := by
  unfold storedRow
  rcases follows with ⟨committed, stored, _, tick, starts, ends⟩ | ⟨early, first⟩
  · rw [stored]
    exact fitting_same fitting tick.symm starts.symm ends.symm
  · rcases fitting with ⟨unopened, _⟩ | ⟨start, _, _, _, past, last, reaches⟩
    · omega
    · have one : access.row.currentTick = 1 := by omega
      rw [one] at last reaches
      refine Or.inl ⟨?_, last, reaches_later reaches past⟩
      cases stored : db.gameState with
      | none => exact Int.zero_lt_one
      | some committed => exact early committed stored

/-- The window of an access with its round, as the boundary stores it. -/
theorem window_of_fitting {access : GameTimer.Access} {round : Round}
    (opened : 1 ≤ access.row.currentTick) (fitting : Fitting env clock db access.row)
    (window : WindowOf access round) :
    ∃ start, access.row.tickStart = some start ∧ start ≤ seconds clock ∧
      db.maxTick ≤ access.row.currentTick ∧ Reaches db access.row.currentTick start ∧
      round = windowRound access.row.currentTick start (start + env.rotationSeconds) := by
  obtain ⟨begins, stop, beginsSet, stopSet, same⟩ := window
  rcases fitting with ⟨unopened, _⟩ | ⟨start, _, starts, ends, past, last, reaches⟩
  · omega
  · rw [beginsSet, Option.some.injEq] at starts
    rw [stopSet, Option.some.injEq] at ends
    subst starts ends
    exact ⟨begins, beginsSet, past, last, reaches, same⟩

theorem boundary_timed {access : GameTimer.Access} {round : Round} {startedAt : Int} {boundary : Boundary}
    (numbered : Numbered db) (spaced : Spaced env db) (opened : 1 ≤ access.row.currentTick)
    (reach : access.row.currentTick ≤ db.maxTick + 1) (fitting : Fitting env clock db access.row)
    (window : WindowOf access round)
    (done : runTickBoundary env db startedAt round.roundId round.startsAt round.endsAt = .ok boundary) :
    Spaced env boundary.db ∧ Fitting env clock boundary.db access.row := by
  obtain ⟨start, starts, past, last, reaches, same⟩ := window_of_fitting opened fitting window
  have named : round.roundId = access.row.currentTick := by rw [same]; rfl
  obtain ⟨_, _, _, ⟨_, _, rounds, _⟩ | ⟨next, largest, rounds⟩⟩ :=
    boundary_rounds numbered (named ▸ opened) (named ▸ reach) done
  · refine ⟨⟨?_, ?_⟩, fitting_frame fitting rounds⟩
    · rw [rounds]
      exact spaced.length
    · rw [rounds]
      exact spaced.order
  have begins : round.startsAt = start * second := by rw [same]; rfl
  have stops : round.endsAt = (start + env.rotationSeconds) * second := by rw [same]; rfl
  rw [begins, stops, named] at rounds
  have known (other : Int) (stored : FlagRound) (found : boundary.db.flagRounds.get? other = some stored) :
      other = access.row.currentTick ∧
          stored = ⟨start * second, (start + env.rotationSeconds) * second, env.rotationSeconds,
            some other⟩ ∨
        db.flagRounds.get? other = some stored := by
    rw [rounds, Dict.get_set] at found
    split at found
    · next here =>
      cases found
      rw [← here]
      exact Or.inl ⟨rfl, rfl⟩
    · exact Or.inr found
  have before (other : Int) (stored : FlagRound) (found : db.flagRounds.get? other = some stored) :
      other < access.row.currentTick := by
    have range := (numbered_contains numbered other).mp ((Dict.contains_eq_some _ _).mpr ⟨stored, found⟩)
    omega
  refine ⟨⟨?_, ?_⟩, ?_⟩
  · intro tick stored found
    rcases known tick stored found with ⟨_, shape⟩ | old
    · rw [shape]
      unfold second
      dsimp only
      omega
    · exact spaced.length tick stored old
  · intro one two first final less foundFirst foundFinal
    rcases known one first foundFirst with ⟨here, _⟩ | old
    · rcases known two final foundFinal with ⟨there, _⟩ | older
      · omega
      · have earlier := before two final older
        omega
    · rcases known two final foundFinal with ⟨_, shape⟩ | older
      · rw [shape]
        exact (reaches one first old).2 (before one first old)
      · exact spaced.order one two first final less old older
  · rcases fitting with ⟨unopened, _⟩ | ⟨origin, _, originSet, ends, _, _, _⟩
    · omega
    rw [starts, Option.some.injEq] at originSet
    subst originSet
    refine Or.inr ⟨start, opened, starts, ends, past, by omega, ?_⟩
    intro other stored found
    rcases known other stored found with ⟨here, shape⟩ | old
    · rw [shape]
      exact ⟨le_refl _, fun less => by omega⟩
    · exact reaches other stored old

end Rows

theorem timed_rotates {env : Settings} {state : State} {event : RotatorEvent} {db : Db} {loop : Loop}
    (timed : Timed env state) (rotates : Rotates env state.clock state.db event state.loop db loop) :
    Timed env { state with db := db, loop := loop } := by
  have paced := (paced_rotates timed.paced rotates).1
  have working := timed.paced.working
  have numbered := timed.paced.numbered
  have held := timed.held
  have due := timed.due
  have spaced := timed.spaced
  have committed := timed.committed
  generalize state.loop = before at rotates working held due
  cases rotates with
  | failed event loop => exact ⟨paced, spaced, committed, fun _ never => (by cases never), trivial⟩
  | polled =>
      refine ⟨paced, spaced, committed, ?_, trivial⟩
      intro row same
      cases same
      exact sync_timed _ committed
  | bootstraps access round _ => exact ⟨paced, spaced, committed, held, trivial⟩
  | skips access => exact ⟨paced, spaced, committed, held, trivial⟩
  | bounded kind access round startedAt boundary done =>
      obtain ⟨holding, onTick, window⟩ := working
      obtain ⟨wanted, fitting⟩ := held access.row rfl
      obtain ⟨spacedAfter, fittingAfter⟩ :=
        boundary_timed numbered spaced onTick.opened holding.reach fitting window done
      have state_ := (run_tick_boundary_frame done).2.1
      have stored : storedRow env boundary.db = storedRow env state.db := by rw [storedRow, state_]; rfl
      refine ⟨paced, spacedAfter, ⟨?_, ?_⟩, ?_, ?_⟩
      · show Wanted (storedRow env boundary.db)
        rw [stored]
        exact committed.1
      · exact fitting_committed (follows_same holding.follows state_) onTick.opened fittingAfter
      · intro row same
        cases same
        exact ⟨wanted, fittingAfter⟩
      · cases kind with
        | bootstrap => trivial
        | tickEnd => exact due
  | queued kind access round tick items =>
      refine ⟨paced, ⟨spaced.length, spaced.order⟩, committed, held, ?_⟩
      cases kind with
      | bootstrap => trivial
      | tickEnd => exact due
  | drained kind access =>
      cases kind with
      | bootstrap => exact ⟨paced, spaced, committed, held, trivial⟩
      | tickEnd => exact ⟨paced, spaced, committed, held, due⟩
  | enqueued kind access job rest taskId =>
      refine ⟨paced, ⟨spaced.length, spaced.order⟩, committed, held, ?_⟩
      cases kind with
      | bootstrap => trivial
      | tickEnd => exact due
  | notEnqueued kind access job rest error =>
      refine ⟨paced, ⟨spaced.length, spaced.order⟩, committed, held, ?_⟩
      cases kind with
      | bootstrap => trivial
      | tickEnd => exact due
  | ends access round ending =>
      have holding : Holding state.db access := working
      exact ⟨paced, spaced, committed, held, (end_round_some holding.loaded ending).2.2⟩
  | commits access =>
      exact ⟨paced, ⟨spaced.length, spaced.order⟩, held access.row rfl,
        fun _ never => (by cases never), trivial⟩
  | closes access =>
      obtain ⟨holding, onTick, _⟩ := working
      obtain ⟨wanted, fitting⟩ := held access.row rfl
      exact ⟨paced, ⟨spaced.length, spaced.order⟩, finished_timed spaced wanted fitting onTick.opened due,
        fun _ never => (by cases never), trivial⟩

/-- A command that leaves the game wanted keeps the tick and the window. -/
theorem command_timed {env : Settings} {before : State} {event : Event} {row : GameTimer}
    (met : steadily before event = true)
    (commands : Commands env before.db (seconds before.clock) event row)
    (kept : Wanted (storedRow env before.db) ∧
      Fitting env before.clock before.db (storedRow env before.db)) :
    Wanted row ∧ Fitting env before.clock before.db row := by
  obtain ⟨⟨endless, wanted⟩, fitting⟩ := id kept
  cases commands with
  | synced => exact sync_timed _ kept
  | desired state =>
      cases of_decide_eq_true met
      show Wanted (GameTimer.afterDesired _ .running) ∧ Fitting _ _ _ (GameTimer.afterDesired _ .running)
      unfold GameTimer.afterDesired
      dsimp only
      split <;> exact ⟨⟨endless, fun _ => rfl⟩, fitting_same fitting rfl rfl rfl⟩
  | scheduled startAt stopAfterTick scoreboardFreezeTick =>
      cases of_decide_eq_true met
      exact ⟨⟨endless, wanted⟩, fitting_same fitting rfl rfl rfl⟩

theorem due_later {clock now : Int} {loop : Loop} (due : Due clock loop) (le : clock ≤ now) :
    Due now loop := by
  have later := seconds_mono le
  unfold Due at *
  split at due
  all_goals first
    | trivial
    | (obtain ⟨stop, stopSet, past⟩ := due
       exact ⟨stop, stopSet, past.trans later⟩)

theorem timed_step {env : Settings} {deployment : InitDb.Deployment} {before after : State} {event : Event}
    (timed : Timed env before) (met : steadily before event = true)
    (taken : step env deployment before event = some after) : Timed env after := by
  have paced := (paced_step timed.paced (steadily_playing met) taken).1
  cases play_cases (steadily_playing met) taken with
  | clock now =>
      have le : before.clock ≤ now := of_decide_eq_true met
      refine ⟨paced, timed.spaced, ⟨timed.committed.1, fitting_later timed.committed.2 le⟩, ?_,
        due_later timed.due le⟩
      intro row same
      exact ⟨(timed.held row same).1, fitting_later (timed.held row same).2 le⟩
  | rotator event db loop rotates => exact timed_rotates timed rotates
  | submit event rows sessions submits =>
      exact ⟨paced, ⟨timed.spaced.length, timed.spaced.order⟩, timed.committed, timed.held, timed.due⟩
  | worker event checker tasks worked =>
      exact ⟨paced, ⟨timed.spaced.length, timed.spaced.order⟩, timed.committed, timed.held, timed.due⟩
  | command event row idle commands =>
      have kept := command_timed met commands timed.committed
      exact ⟨paced, ⟨timed.spaced.length, timed.spaced.order⟩, kept, timed.held, timed.due⟩

/-! The windows. -/

/-- The window that the committed timer has open for the tick. -/
def openWindow (db : Db) (tick : Int) : Option (Int × Int) :=
  match db.gameState with
  | none => none
  | some row =>
      if row.currentTick ≠ tick then none
      else match row.tickStart, row.tickEnd with
        | some start, some stop => some (start * second, stop * second)
        | _, _ => none

/-- The window of flag_rounds, or the open one that the rotator has still to store. -/
def windowOf (db : Db) (tick : Int) : Option (Int × Int) :=
  match db.flagRounds.get? tick with
  | some round => some (round.startsAt, round.endsAt)
  | none => openWindow db tick

def inWindow (db : Db) (tick time : Int) : Bool :=
  match windowOf db tick with
  | some (startsAt, endsAt) => decide (startsAt ≤ time) && decide (time < endsAt)
  | none => false

theorem open_window_some {db : Db} {tick : Int} {window : Int × Int}
    (found : openWindow db tick = some window) :
    ∃ row start stop, db.gameState = some row ∧ row.currentTick = tick ∧ row.tickStart = some start ∧
      row.tickEnd = some stop ∧ window = (start * second, stop * second) := by
  unfold openWindow at found
  split at found
  · cases found
  next row stored =>
  split at found
  · cases found
  next same =>
  split at found
  · next start stop starts stops =>
    cases found
    exact ⟨row, start, stop, stored, Decidable.not_not.mp same, starts, stops, rfl⟩
  · cases found

theorem open_window_of {db : Db} {row : GameTimer} {start stop : Int} (stored : db.gameState = some row)
    (starts : row.tickStart = some start) (stops : row.tickEnd = some stop) :
    openWindow db row.currentTick = some (start * second, stop * second) := by
  simp only [openWindow, stored, ne_eq, not_true_eq_false, ↓reduceIte, starts, stops]

/-- Windows of different ticks do not overlap. -/
theorem windows_disjoint {env : Settings} {state : State} (timed : Timed env state) {one two : Int}
    {first last : Int × Int} (positive : 1 ≤ one) (less : one < two)
    (foundFirst : windowOf state.db one = some first)
    (foundLast : windowOf state.db two = some last) : first.2 ≤ last.1 := by
  have opened {row : GameTimer} (stored : state.db.gameState = some row) :
      Fitting env state.clock state.db row := by
    have committed := timed.committed.2
    rw [storedRow, stored] at committed
    exact committed
  unfold windowOf at foundFirst foundLast
  split at foundFirst
  · next round found =>
    cases foundFirst
    split at foundLast
    · next other foundOther =>
      cases foundLast
      exact timed.spaced.order one two round other less found foundOther
    · obtain ⟨row, start, stop, stored, current, starts, _, same⟩ := open_window_some foundLast
      rw [same]
      rcases opened stored with ⟨unopened, _⟩ | ⟨begins, _, beginsSet, _, _, _, reaches⟩
      · omega
      · rw [starts, Option.some.injEq] at beginsSet
        rw [beginsSet]
        exact (reaches one round found).2 (current ▸ less)
  · obtain ⟨row, start, stop, stored, current, _, _, _⟩ := open_window_some foundFirst
    split at foundLast
    · next other foundOther =>
      have range :=
        (numbered_contains timed.paced.numbered two).mp
          ((Dict.contains_eq_some _ _).mpr ⟨other, foundOther⟩)
      rcases opened stored with ⟨unopened, _⟩ | ⟨_, _, _, _, _, largest, _⟩ <;> omega
    · obtain ⟨other, _, _, also, currentToo, _⟩ := open_window_some foundLast
      rw [stored, Option.some.injEq] at also
      rw [also] at current
      omega

theorem in_one_window {env : Settings} {state : State} (timed : Timed env state) {one two time : Int}
    (positive : 1 ≤ one) (also : 1 ≤ two) (inFirst : inWindow state.db one time = true)
    (inLast : inWindow state.db two time = true) : one = two := by
  unfold inWindow at inFirst inLast
  split at inFirst
  · next startsOne endsOne foundOne =>
    split at inLast
    · next startsTwo endsTwo foundTwo =>
      rw [Bool.and_eq_true, decide_eq_true_eq, decide_eq_true_eq] at inFirst inLast
      rcases lt_trichotomy one two with less | same | more
      · have apart := windows_disjoint timed positive less foundOne foundTwo
        dsimp only at apart
        omega
      · exact same
      · have apart := windows_disjoint timed also more foundTwo foundOne
        dsimp only at apart
        omega
    · cases inLast
  · cases inFirst

/-! A window stays. -/

theorem window_frame {before after : Db} (rounds : after.flagRounds = before.flagRounds)
    (state : after.gameState = before.gameState) (tick : Int) :
    windowOf after tick = windowOf before tick := by
  simp only [windowOf, openWindow, rounds, state]

/-- With the rounds as they are, the window of a tick stays if the timer's does. -/
theorem window_row {before after : Db} {tick : Int} {window : Int × Int}
    (found : windowOf before tick = some window) (rounds : after.flagRounds = before.flagRounds)
    (kept : ∀ row, before.flagRounds.get? tick = none → before.gameState = some row →
      row.currentTick = tick →
      ∃ next, after.gameState = some next ∧ next.currentTick = row.currentTick ∧
      next.tickStart = row.tickStart ∧
        next.tickEnd = row.tickEnd) : windowOf after tick = some window := by
  unfold windowOf at *
  rw [rounds]
  split at found
  · exact found
  · next missing =>
    obtain ⟨row, start, stop, stored, current, starts, stops, same⟩ := open_window_some found
    obtain ⟨next, storedNext, tickNext, startsNext, stopsNext⟩ := kept row missing stored current
    rw [same, ← current, ← tickNext]
    exact open_window_of storedNext (startsNext.trans starts) (stopsNext.trans stops)

theorem follows_window {db : Db} {access : GameTimer.Access} {row : GameTimer} (follows : Follows db access)
    (stored : db.gameState = some row) (opened : 1 ≤ row.currentTick) :
    access.row.currentTick = row.currentTick ∧ access.row.tickStart = row.tickStart ∧
      access.row.tickEnd = row.tickEnd := by
  rcases follows with ⟨other, also, _, tick, starts, ends⟩ | ⟨early, _⟩
  · rw [stored, Option.some.injEq] at also
    rw [also]
    exact ⟨tick, starts, ends⟩
  · have unopened := early row stored
    omega

theorem boundary_windows {env : Settings} {db : Db} {access : GameTimer.Access} {round : Round}
    {startedAt tick : Int} {boundary : Boundary} {window : Int × Int} (numbered : Numbered db)
    (holding : Holding db access) (opened : 1 ≤ access.row.currentTick)
    (stored : WindowOf access round) (positive : 1 ≤ tick)
    (done : runTickBoundary env db startedAt round.roundId round.startsAt round.endsAt = .ok boundary)
    (found : windowOf db tick = some window) : windowOf boundary.db tick = some window := by
  obtain ⟨start, stop, starts, stops, same⟩ := stored
  have named : round.roundId = access.row.currentTick := by rw [same]; rfl
  have state := (run_tick_boundary_frame done).2.1
  obtain ⟨_, _, _, ⟨_, _, rounds, _⟩ | ⟨next, _, rounds⟩⟩ :=
    boundary_rounds numbered (named ▸ opened) (named ▸ holding.reach) done
  · rw [window_frame rounds state]
    exact found
  unfold windowOf at *
  rw [rounds, Dict.get_set]
  by_cases here : round.roundId = tick
  · -- The round is new, so the window was the timer's, which the iteration has taken over.
    rw [if_pos here]
    split at found
    · next old foundOld =>
      have range := (numbered_contains numbered tick).mp ((Dict.contains_eq_some _ _).mpr ⟨old, foundOld⟩)
      omega
    · obtain ⟨row, begins, finishes, committed, current, beginsSet, finishesSet, shape⟩ :=
        open_window_some found
      obtain ⟨_, startSame, stopSame⟩ := follows_window holding.follows committed (current ▸ positive)
      rw [startSame, beginsSet, Option.some.injEq] at starts
      rw [stopSame, finishesSet, Option.some.injEq] at stops
      rw [shape, same, starts, stops]
      rfl
  · rw [if_neg here]
    simp only [openWindow, state] at *
    exact found

theorem command_window {env : Settings} {before : State} {event : Event} {row stored : GameTimer}
    (met : steadily before event = true)
    (commands : Commands env before.db (seconds before.clock) event row)
    (committed : before.db.gameState = some stored) (opened : 1 ≤ stored.currentTick) :
    row.currentTick = stored.currentTick ∧ row.tickStart = stored.tickStart ∧
      row.tickEnd = stored.tickEnd := by
  have loaded : (loadedAccess env before.db).row = stored := by
    show before.db.gameState.getD _ = stored
    rw [committed]
    rfl
  cases commands with
  | synced =>
      rw [loaded]
      rcases sync_row_cases env (loadedAccess env before.db).timer stored (seconds before.clock) with
        same | ⟨_, _, same⟩ | ⟨_, unopened, _⟩
      · rw [same]
        exact ⟨rfl, rfl, rfl⟩
      · rw [same]
        exact ⟨rfl, rfl, rfl⟩
      · omega
  | desired state =>
      cases of_decide_eq_true met
      rw [loaded]
      show (GameTimer.afterDesired (GameTimer.load _ (some stored)) .running).currentTick = _ ∧
        (GameTimer.afterDesired (GameTimer.load _ (some stored)) .running).tickStart = _ ∧
        (GameTimer.afterDesired (GameTimer.load _ (some stored)) .running).tickEnd = _
      unfold GameTimer.afterDesired
      dsimp only
      split <;> exact ⟨rfl, rfl, rfl⟩
  | scheduled startAt stopAfterTick scoreboardFreezeTick =>
      rw [loaded]
      exact ⟨rfl, rfl, rfl⟩

/-- The window of a tick never changes. -/
theorem windows_stay {env : Settings} {deployment : InitDb.Deployment} {before after : State}
    {event : Event} {tick : Int} {window : Int × Int} (timed : Timed env before)
    (met : steadily before event = true) (taken : step env deployment before event = some after)
    (positive : 1 ≤ tick) (found : windowOf before.db tick = some window) :
    windowOf after.db tick = some window := by
  cases play_cases (steadily_playing met) taken with
  | clock now => exact found
  | submit event rows sessions submits => exact found
  | worker event checker tasks worked => exact found
  | command event row idle commands =>
      refine window_row found rfl fun stored _ committed current => ?_
      exact ⟨row, rfl, command_window met commands committed (current ▸ positive)⟩
  | rotator event db loop rotates =>
      have working := timed.paced.working
      have numbered := timed.paced.numbered
      generalize before.loop = held at rotates working
      cases rotates with
      | failed | polled | bootstraps | skips | drained | ends => exact found
      | queued | enqueued | notEnqueued => exact found
      | bounded kind access round startedAt boundary done =>
          obtain ⟨holding, onTick, window⟩ := working
          exact boundary_windows numbered holding onTick.opened window positive done found
      | commits access =>
          have holding : Holding before.db access := working
          refine window_row found rfl fun stored _ committed current => ?_
          exact ⟨access.row, rfl, follows_window holding.follows committed (current ▸ positive)⟩
      | closes access =>
          obtain ⟨holding, onTick, known⟩ := working
          refine window_row found rfl fun stored missing committed current => ?_
          -- The closed tick has its round, so its window is not the timer's any more.
          obtain ⟨same, _⟩ := follows_window holding.follows committed (current ▸ positive)
          have round := (numbered_contains numbered tick).mpr ⟨positive, by omega⟩
          obtain ⟨row, present⟩ := (Dict.contains_eq_some _ _).mp round
          rw [missing] at present
          cases present

theorem in_window_stays {env : Settings} {deployment : InitDb.Deployment} {before after : State}
    {event : Event} {tick time : Int} (timed : Timed env before)
    (met : steadily before event = true) (taken : step env deployment before event = some after)
    (positive : 1 ≤ tick) (inside : inWindow before.db tick time = true) :
    inWindow after.db tick time = true := by
  unfold inWindow at *
  split at inside
  · next startsAt endsAt found =>
    rw [windows_stay timed met taken positive found]
    exact inside
  · cases inside

end KosSim.RoundWindows
