import KosSim.Rescoring

/-!
The scorings of a play. Beside a run stands the account of the play under way: the
window that the timer had for each of its ticks, and the last _score_tick of each tick
with the database that it read. The boundary of a tick scores the tick before it, so
when finish_boundary closes tick N this play has scored every earlier tick, and never
tick N: its captures count only if the game goes on.
-/

namespace KosSim.ScoredPlays
open Library Schema Scoring ScoringLedger CheckerJobs Rotator Platform PlatformFrames
    ScoringBlocked TickRounds
open TickClosing ScoringInputs Rescoring

/-! The account. -/

/-- A _score_tick that has committed. -/
structure ScoredTick where
  read : Db
  written : Db
  deriving DecidableEq

structure Account where
  state : State
  windows : Dict Int (Int × Int)
  scored : Dict Int ScoredTick
  deriving DecidableEq

def begun (state : State) : Account := ⟨state, Dict.empty, Dict.empty⟩

/-- The round whose boundary a step commits, and the moment at which the boundary was called. -/
def boundedRound (env : Settings) (state : State) : Event → Option (Round × Int)
  | .rotator .next =>
      match state.loop with
      | .boundary _ _ round startedAt =>
          match runTickBoundary env state.db startedAt round.roundId round.startsAt round.endsAt with
          | .ok _ => some (round, startedAt)
          | .error _ => none
      | _ => none
  | _ => none

/-- The _score_tick in the boundary of a round. -/
def scoredBefore (env : Settings) (db : Db) (round : Round) (startedAt : Int) : Option ScoredTick :=
  let (opened, tick) := ensureFlagRound env db round.roundId round.startsAt round.endsAt
  let read := finalizeTick opened (tick - 1) startedAt
  if 1 < tick && checkerTickReady read.checker (tick - 1) then
    match scoreTick env read (tick - 1) (retentionTicks env) with
    | .ok written => some ⟨read, written⟩
    | .error _ => none
  else none

/-- Every play starts its account anew with the boundary of tick 1. -/
def accountAfter (env : Settings) (account : Account) (event : Event) (after : State) : Account :=
  match boundedRound env account.state event with
  | none => ⟨after, account.windows, account.scored⟩
  | some (round, startedAt) =>
      if round.roundId ≤ 1 then
        ⟨after, Dict.empty.set round.roundId (round.startsAt, round.endsAt), Dict.empty⟩
      else
        ⟨after, account.windows.set round.roundId (round.startsAt, round.endsAt),
          match scoredBefore env account.state.db round startedAt with
          | some entry => account.scored.set (round.roundId - 1) entry
          | none => account.scored⟩

def accountStep (env : Settings) (deployment : InitDb.Deployment) (account : Account)
    (event : Event) : Option Account :=
  (step env deployment account.state event).map (accountAfter env account event)

/-! A step without a boundary. -/

def storedTick (env : Settings) (db : Db) : Int := (storedRow env db).currentTick

/-- The tick whose end the iteration has handled. -/
def endedTick : Loop → Option Int
  | .queueing .tickEnd access _ _ _ | .enqueueing .tickEnd access _ | .closing access =>
      some access.row.currentTick
  | _ => none

/-- What the scorings and the account rely on, after a step that commits no boundary. -/
structure Quiet (env : Settings) (before after : State) : Prop where
  scoring : after.db.scoring = before.db.scoring
  rounds : after.db.flagRounds = before.db.flagRounds
  teams : after.db.teams = before.db.teams
  services : after.db.services = before.db.services
  ticks : storedTick env after.db ≤ 1 ∨ storedTick env after.db = storedTick env before.db ∨
    ∃ access, before.loop = .closing access ∧
      access.row.currentTick ≤ storedTick env after.db ∧
      storedTick env after.db ≤ access.row.currentTick + 1
  ended : endedTick after.loop = none ∨ endedTick after.loop = endedTick before.loop

theorem stored_follows (env : Settings) {db : Db} {access : GameTimer.Access}
    (follows : Follows db access) :
    storedTick env db = access.row.currentTick ∨ storedTick env db < 1 ∧ access.row.currentTick ≤ 1 := by
  unfold storedTick storedRow
  rcases follows with ⟨row, stored, _, same, _⟩ | ⟨unopened, early⟩
  · left
    rw [stored, same]
    rfl
  · right
    refine ⟨?_, early⟩
    cases stored : db.gameState with
    | none => exact Int.zero_lt_one
    | some row => exact unopened row stored

theorem quiet_step {env : Settings} {deployment : InitDb.Deployment} {before after : State} {event : Event}
    (paced : Paced before) (met : playing event = true) (unbounded : boundedRound env before event = none)
    (taken : step env deployment before event = some after) : Quiet env before after := by
  cases play_cases met taken with
  | clock now => exact ⟨rfl, rfl, rfl, rfl, Or.inr (Or.inl rfl), Or.inr rfl⟩
  | submit event rows sessions submits => exact ⟨rfl, rfl, rfl, rfl, Or.inr (Or.inl rfl), Or.inr rfl⟩
  | worker event checker tasks worked => exact ⟨rfl, rfl, rfl, rfl, Or.inr (Or.inl rfl), Or.inr rfl⟩
  | command event row idle commands =>
      refine ⟨rfl, rfl, rfl, rfl, ?_, Or.inr rfl⟩
      have ticks := command_tick commands
      show row.currentTick ≤ 1 ∨ row.currentTick = storedTick env before.db ∨ _
      rw [storedTick]
      rcases ticks with same | reset | first
      · exact Or.inr (Or.inl same)
      · exact Or.inl (by omega)
      · exact Or.inl (by omega)
  | rotator event db loop rotates =>
      have working := paced.working
      generalize held : before.loop = loop' at rotates working
      cases rotates with
      | failed => exact ⟨rfl, rfl, rfl, rfl, Or.inr (Or.inl rfl), Or.inl rfl⟩
      | polled => exact ⟨rfl, rfl, rfl, rfl, Or.inr (Or.inl rfl), Or.inl rfl⟩
      | bootstraps access round due => exact ⟨rfl, rfl, rfl, rfl, Or.inr (Or.inl rfl), Or.inl rfl⟩
      | skips access => exact ⟨rfl, rfl, rfl, rfl, Or.inr (Or.inl rfl), Or.inl rfl⟩
      | ends access round due => exact ⟨rfl, rfl, rfl, rfl, Or.inr (Or.inl rfl), Or.inl rfl⟩
      | bounded kind access round startedAt boundary done =>
          simp only [boundedRound, held, done] at unbounded
          cases unbounded
      | queued kind access round tick items =>
          refine ⟨rfl, rfl, rfl, rfl, Or.inr (Or.inl rfl), Or.inr ?_⟩
          rw [held]
          cases kind <;> rfl
      | drained kind access =>
          refine ⟨rfl, rfl, rfl, rfl, Or.inr (Or.inl rfl), Or.inr ?_⟩
          rw [held]
          cases kind <;> rfl
      | enqueued kind access job rest taskId =>
          refine ⟨rfl, rfl, rfl, rfl, Or.inr (Or.inl rfl), Or.inr ?_⟩
          rw [held]
          cases kind <;> rfl
      | notEnqueued kind access job rest error =>
          refine ⟨rfl, rfl, rfl, rfl, Or.inr (Or.inl rfl), Or.inr ?_⟩
          rw [held]
          cases kind <;> rfl
      | commits access =>
          have holding : Holding before.db access := working
          refine ⟨rfl, rfl, rfl, rfl, ?_, Or.inl rfl⟩
          rcases stored_follows env holding.follows with same | ⟨_, early⟩
          · exact Or.inr (Or.inl same.symm)
          · exact Or.inl early
      | closes access =>
          obtain ⟨_, onTick, _⟩ := working
          refine ⟨rfl, rfl, rfl, rfl, ?_, Or.inl rfl⟩
          show (finishedRow env access (seconds before.clock)).currentTick ≤ 1 ∨
            (finishedRow env access (seconds before.clock)).currentTick = _ ∨ _
          have opened := onTick.opened
          rcases finish_tick env access (seconds before.clock) with reset | same | next
          · exact Or.inl (by omega)
          · exact Or.inr
              (Or.inr ⟨access, held, same.ge, by show (finishedRow env access _).currentTick ≤ _; omega⟩)
          · exact Or.inr
              (Or.inr ⟨access, held, by show _ ≤ (finishedRow env access _).currentTick; omega, next.le⟩)

/-! A step with a boundary. -/

theorem bounded_some {env : Settings} {state : State} {event : Event} {round : Round} {startedAt : Int}
    (bounded : boundedRound env state event = some (round, startedAt)) :
    event = .rotator .next ∧ ∃ kind access boundary, state.loop = .boundary kind access round startedAt ∧
      runTickBoundary env state.db startedAt round.roundId round.startsAt round.endsAt = .ok boundary := by
  unfold boundedRound at bounded
  split at bounded
  · split at bounded
    · next kind access round' startedAt' held =>
      split at bounded
      · next boundary done =>
        cases bounded
        exact ⟨rfl, kind, access, boundary, held, done⟩
      · cases bounded
    · cases bounded
  · cases bounded

/-- A boundary that scores the tick before its round. -/
structure Bounds (env : Settings) (before after : State) (round : Round) (startedAt : Int) : Prop where
  current : storedTick env before.db = round.roundId ∨ storedTick env before.db < 1 ∧ round.roundId ≤ 1
  opened : 1 ≤ round.roundId
  ended : endedTick after.loop = none ∨ endedTick after.loop = some round.roundId
  entries : SameEntries before.db after.db
  timer : storedTick env after.db = storedTick env before.db
  rounds : ∀ tick, tick < round.roundId → after.db.flagRounds.get? tick = before.db.flagRounds.get? tick
  scored : (round.roundId ≤ 1 ∧ after.db.scoring = before.db.scoring) ∨
    (1 < round.roundId ∧ ∃ read, scoredBefore env before.db round startedAt = some ⟨read, after.db⟩ ∧
      scoreTick env read (round.roundId - 1) (retentionTicks env) = .ok after.db ∧
      SameEntries before.db read ∧ read.scoring = before.db.scoring ∧ read.flagRounds = after.db.flagRounds)

theorem Bounds.ended_tick {env : Settings} {before after : State} {round : Round} {startedAt tick : Int}
    (bounds : Bounds env before after round startedAt) (ended : endedTick after.loop = some tick) :
    tick = round.roundId := by
  rcases bounds.ended with nothing | same
  · cases nothing.symm.trans ended
  · exact Option.some.inj (ended.symm.trans same)

theorem bounds_step {env : Settings} {deployment : InitDb.Deployment} {before after : State}
    {event : Event} {round : Round} {startedAt : Int} (paced : Paced before)
    (ready : scoresPrevious env before event = true)
    (bounded : boundedRound env before event = some (round, startedAt))
    (taken : step env deployment before event = some after) :
    Bounds env before after round startedAt := by
  obtain ⟨rfl, kind, access, boundary, held, done⟩ := bounded_some bounded
  simp only [step, held, rotatorStep, done, Option.map_some, Option.some.injEq] at taken
  subst taken
  have working := paced.working
  rw [held] at working
  obtain ⟨holding, onTick, start, stop, _, _, same⟩ := working
  have named : round.roundId = access.row.currentTick := by rw [same]; rfl
  obtain ⟨ticked, _, _, opened⟩ :=
    boundary_rounds paced.numbered (named ▸ onTick.opened) (named ▸ holding.reach) done
  obtain ⟨opens, _, closed⟩ := run_tick_boundary_cases done
  obtain ⟨entries, timer, rounds⟩ := run_tick_boundary_frame done
  obtain ⟨rows, shape⟩ := ensure_flag_round_frame env before.db round.roundId round.startsAt round.endsAt
  refine ⟨named ▸ stored_follows env holding.follows, named ▸ onTick.opened, ?_, entries, ?_, ?_, ?_⟩
  · cases kind with
    | bootstrap => exact Or.inl rfl
    | tickEnd => exact Or.inr (congrArg some named.symm)
  · show (storedRow env boundary.db).currentTick = (storedRow env before.db).currentTick
    rw [storedRow, storedRow, timer]
  · intro tick earlier_
    show boundary.db.flagRounds.get? tick = _
    rcases opened with ⟨_, _, same, _⟩ | ⟨_, _, same⟩
    · rw [same]
    · rw [same, Dict.get_set_other _ _ _ _ (by omega)]
  rw [ticked] at closed
  rcases closed with ⟨first, unchanged⟩ | ⟨later, closed⟩
  · left
    refine ⟨first, ?_⟩
    show boundary.db.scoring = before.db.scoring
    rw [unchanged, shape]
  right
  refine ⟨later, finalizeTick (ensureFlagRound env before.db round.roundId round.startsAt round.endsAt).1
    (round.roundId - 1) startedAt, ?_⟩
  have opens_ : (ensureFlagRound env before.db round.roundId round.startsAt round.endsAt).2 =
      round.roundId :=
    opens.symm.trans ticked
  simp only [scoresPrevious, held, opens_, Bool.or_eq_true, decide_eq_true_eq] at ready
  have done_ := ready.resolve_left (by omega)
  rw [closePrevious, if_pos done_] at closed
  refine ⟨?_, closed, ?_, ?_, rounds.symm⟩
  · simp only [scoredBefore, opens_, decide_eq_true later, done_, Bool.and_self, ↓reduceIte, closed]
  · rw [shape]
    exact ⟨rfl, rfl, rfl, rfl, rfl⟩
  · rw [shape]
    rfl

/-! The invariant. -/

/-- The ticks of the account: none after `newest`, and all up to `oldest`. -/
def Reached (account : Account) (newest oldest : Int) : Prop :=
  (∀ tick entry, account.scored.get? tick = some entry → tick ≤ newest) ∧
    ∀ tick, 1 ≤ tick → tick ≤ oldest → account.scored.contains tick = true

/-- The points of the tick are still those of its last scoring. -/
structure Kept (env : Settings) (db : Db) (tick : Int) (entry : ScoredTick) : Prop where
  positive : 1 ≤ tick
  scored : scoreTick env entry.read tick (retentionTicks env) = .ok entry.written
  points : pointsOfTick db tick = pointsOfTick entry.written tick
  round : entry.read.flagRounds.get? tick = db.flagRounds.get? tick
  teams : entry.read.teams = db.teams
  services : entry.read.services = db.services

structure Tallied (env : Settings) (account : Account) : Prop where
  paced : Paced account.state
  kept : ∀ tick entry, account.scored.get? tick = some entry → Kept env account.state.db tick entry
  stored : 2 ≤ storedTick env account.state.db →
    Reached account (storedTick env account.state.db - 1) (storedTick env account.state.db - 2)
  ended : ∀ tick, endedTick account.state.loop = some tick → Reached account (tick - 1) (tick - 1)

section Tallied
variable {env : Settings} {account : Account} {event : Event} {after : State}

theorem kept_same {before after : Db} {tick : Int} {entry : ScoredTick} (kept : Kept env before tick entry)
    (points : pointsOfTick after tick = pointsOfTick before tick)
    (round : after.flagRounds.get? tick = before.flagRounds.get? tick) (teams : after.teams = before.teams)
    (services : after.services = before.services) : Kept env after tick entry :=
  ⟨kept.positive, kept.scored, points.trans kept.points, kept.round.trans round.symm,
    kept.teams.trans teams.symm, kept.services.trans services.symm⟩

theorem reached_weaken {newest oldest later sooner : Int} (reached : Reached account newest oldest)
    (newer : newest ≤ later) (older : sooner ≤ oldest) : Reached account later sooner :=
  ⟨fun tick entry found => (reached.1 tick entry found).trans newer,
    fun tick positive last => reached.2 tick positive (last.trans older)⟩

theorem tallied_quiet (tallied : Tallied env account) (paced : Paced after)
    (quiet : Quiet env account.state after) :
    Tallied env ⟨after, account.windows, account.scored⟩ := by
  refine ⟨paced, ?_, ?_, ?_⟩
  · intro tick entry found
    have points : pointsOfTick after.db tick = pointsOfTick account.state.db tick := by
      rw [pointsOfTick, pointsOfTick, quiet.scoring]
    exact kept_same (tallied.kept tick entry found) points (by rw [quiet.rounds]) quiet.teams quiet.services
  · intro opened
    rcases quiet.ticks with early | same | ⟨access, closing, least, most⟩
    · exact absurd opened (by show ¬2 ≤ storedTick env after.db; omega)
    · show Reached account (storedTick env after.db - 1) (storedTick env after.db - 2)
      rw [same]
      exact tallied.stored (same ▸ opened)
    -- finish_boundary leaves the tick or opens the next one.
    · have reached := tallied.ended access.row.currentTick (by rw [closing]; rfl)
      exact reached_weaken reached (by show _ ≤ storedTick env after.db - 1; omega)
        (by show storedTick env after.db - 2 ≤ _; omega)
  · intro tick ended
    rcases quiet.ended with nothing | same
    · cases nothing.symm.trans ended
    · exact tallied.ended tick (same ▸ ended)

theorem tallied_bounded {round : Round} {startedAt : Int} (tallied : Tallied env account)
    (paced : Paced after) (bounded : boundedRound env account.state event = some (round, startedAt))
    (bounds : Bounds env account.state after round startedAt) :
    Tallied env (accountAfter env account event after) := by
  have opened := bounds.opened
  have timer := bounds.timer
  have current := bounds.current
  unfold accountAfter
  rw [bounded]
  dsimp only
  rcases bounds.scored with ⟨first, _⟩ | ⟨later, read, noted, done, entries, prior, rounds⟩
  · rw [if_pos first]
    refine ⟨paced, fun _ _ found => (by cases found), ?_, ?_⟩
    · intro played
      have two : 2 ≤ storedTick env after.db := played
      omega
    · intro tick ended
      have here := bounds.ended_tick ended
      refine ⟨fun _ _ found => (by cases found), fun earlier_ positive last => ?_⟩
      omega
  · rw [if_neg (by omega), noted]
    dsimp only
    have same : storedTick env account.state.db = round.roundId := current.resolve_right (by omega)
    have reached := tallied.stored (by omega)
    rw [same] at reached
    -- The boundary adds its own tick to the account, the one just below its round.
    have grown : Reached ⟨after, account.windows.set round.roundId (round.startsAt, round.endsAt),
        account.scored.set (round.roundId - 1) ⟨read, after.db⟩⟩ (round.roundId - 1)
        (round.roundId - 1) := by
      refine ⟨?_, ?_⟩
      · intro tick entry found
        rw [Dict.get_set] at found
        split at found
        · omega
        · exact reached.1 tick entry found
      · intro tick positive last
        rw [Dict.contains_eq_some]
        by_cases here : round.roundId - 1 = tick
        · exact ⟨_, by rw [here]; exact Dict.get_set_self _ _ _⟩
        · obtain ⟨entry, found⟩ := (Dict.contains_eq_some _ _).mp (reached.2 tick positive (by omega))
          exact ⟨entry, by rw [Dict.get_set_other _ _ _ _ here]; exact found⟩
    refine ⟨paced, ?_, ?_, ?_⟩
    · intro tick entry found
      rw [Dict.get_set] at found
      split at found
      · next here =>
        cases found
        subst here
        exact ⟨by omega, done, rfl, by rw [rounds], entries.teams.trans bounds.entries.teams.symm,
          entries.services.trans bounds.entries.services.symm⟩
      · next other =>
        -- The other ticks are earlier ones, and _score_tick writes the rows of its own tick only.
        have old := reached.1 tick entry found
        refine kept_same (tallied.kept tick entry found) ?_ (bounds.rounds tick (by omega))
          bounds.entries.teams bounds.entries.services
        show pointsOfTick after.db tick = _
        rw [score_tick_own done (by omega), pointsOfTick, prior]
        rfl
    · intro _
      show Reached _ (storedTick env after.db - 1) (storedTick env after.db - 2)
      rw [timer, same]
      exact reached_weaken grown (le_refl _) (by omega)
    · intro tick ended
      rw [bounds.ended_tick ended]
      exact grown

theorem tallied_step {deployment : InitDb.Deployment} {next : Account}
    (tallied : Tallied env account) (met : undeferred env account.state event)
    (taken : accountStep env deployment account event = some next) :
    Tallied env next := by
  obtain ⟨after, stepped, same⟩ := Option.map_eq_some_iff.mp taken
  subst same
  obtain ⟨played, ready⟩ := met
  have paced := (paced_step tallied.paced played stepped).1
  cases noted : boundedRound env account.state event with
  | none =>
      have quiet := tallied_quiet tallied paced (quiet_step tallied.paced played noted stepped)
      unfold accountAfter
      rw [noted]
      exact quiet
  | some pair =>
      obtain ⟨round, startedAt⟩ := pair
      exact tallied_bounded tallied paced noted (bounds_step tallied.paced ready noted stepped)

theorem tallied_start {start : State} (unplayed : Unplayed start) : Tallied env (begun start) := by
  refine ⟨paced_start unplayed, fun _ _ found => (by cases found), ?_, ?_⟩
  · intro played
    have unstarted : storedTick env start.db = 0 := by
      unfold storedTick storedRow
      cases stored : start.db.gameState with
      | none => rfl
      | some row => exact unplayed.unstarted row stored
    have two : 2 ≤ storedTick env start.db := played
    omega
  · intro tick ended
    have nothing : endedTick (begun start).state.loop = none := by
      show endedTick start.loop = none
      rw [unplayed.idle]
      rfl
    cases nothing.symm.trans ended

end Tallied

/-! The end of a tick. -/

/-- The round of the tick in flag_rounds has the window that the tick has had in this play. -/
def OwnWindow (account : Account) (tick : Int) : Prop :=
  ∃ round, account.state.db.flagRounds.get? tick = some round ∧
    account.windows.get? tick = some (round.startsAt, round.endsAt)

/-- The stored row of a pair is the one that this play's last _score_tick of the tick has written, from
the captures and the checks of the tick's own round. -/
def ScoredInPlay (env : Settings) (account : Account) (db : Db) (tick teamId serviceId : Int) : Prop :=
  OwnWindow account tick ∧ ∃ entry row, account.scored.get? tick = some entry ∧
    scoreTick env entry.read tick (retentionTicks env) = .ok entry.written ∧
    entry.read.flagRounds.get? tick = account.state.db.flagRounds.get? tick ∧
    entry.written.scoring.teamTickPoints.get? (tick, teamId, serviceId) = some row ∧
    db.scoring.teamTickPoints.get? (tick, teamId, serviceId) = some row

/-- After a game is left not running, every tick that it has closed is scored. -/
def LeftScored (env : Settings) (account : Account) (access : GameTimer.Access) (after : State) : Prop :=
  after.db.gameState.map (·.state) ≠ some .running → ∀ tick, 1 ≤ tick → tick ≤ access.row.currentTick →
    ∀ teamId ∈ after.db.teams.keys, ∀ serviceId ∈ after.db.services.keys,
      ScoredInPlay env account after.db tick teamId serviceId

theorem entry_scores {env : Settings} {account : Account} {tick teamId serviceId : Int}
    {entry : ScoredTick} (tallied : Tallied env account)
    (found : account.scored.get? tick = some entry) (own : OwnWindow account tick)
    (team : teamId ∈ account.state.db.teams.keys)
    (service : serviceId ∈ account.state.db.services.keys) :
    ScoredInPlay env account account.state.db tick teamId serviceId := by
  have kept := tallied.kept tick entry found
  -- The scoring wrote a row for every pair, and later steps have kept the rows of the tick.
  have member : (tick, teamId, serviceId) ∈ entry.written.scoring.teamTickPoints.keys := by
    rw [score_tick_keys kept.positive kept.scored, kept.teams, kept.services]
    exact Or.inl ⟨rfl, team, service⟩
  obtain ⟨row, written⟩ := Option.ne_none_iff_exists'.mp ((Dict.mem_keys_iff _ _).mp member)
  refine ⟨own, entry, row, found, kept.scored, kept.round, written, ?_⟩
  rw [← points_get account.state.db tick (teamId, serviceId), kept.points, points_get]
  exact written

/-- When finish_boundary closes a tick, this play has scored every earlier tick with its own window. The
closed tick itself is never scored, so no closed tick is left unscored exactly when the game goes on or
there is nobody to score. -/
theorem closed_ticks_scored_iff (env : Settings) (deployment : InitDb.Deployment) (start after : State)
    (account : Account) (access : GameTimer.Access) (unplayed : Unplayed start)
    (run : Steps (accountStep env deployment) (fun account event => undeferred env account.state event)
      (begun start) account)
    (closing : account.state.loop = .closing access)
    (taken : step env deployment account.state (.rotator .next) = some after) :
    (∀ tick, 1 ≤ tick → tick < access.row.currentTick → OwnWindow account tick →
      ∀ teamId ∈ after.db.teams.keys, ∀ serviceId ∈ after.db.services.keys,
        ScoredInPlay env account after.db tick teamId serviceId) ∧
    (LeftScored env account access after ↔
      goesOn access.row = true ∨ after.db.teams.keys = [] ∨ after.db.services.keys = []) := by
  have tallied := steps_invariant (Tallied env) (fun _ _ _ kept met taken => tallied_step kept met taken)
    (tallied_start unplayed) run
  have working := tallied.paced.working
  rw [closing] at working
  obtain ⟨_, onTick, _⟩ := working
  have reached := tallied.ended access.row.currentTick (by rw [closing]; rfl)
  have closed : after = { account.state with
      db := { account.state.db with
        gameState := some (finishedRow env access (seconds account.state.clock)) },
      loop := .idle } := by
    simp only [step, closing, rotatorStep, Option.map_some, Option.some.injEq] at taken
    exact taken.symm
  have left : after.db.gameState.map (·.state) ≠ some .running ↔ ¬ goesOn access.row = true := by
    rw [← finished_running env access (seconds account.state.clock), closed]
    simp
  subst closed
  refine ⟨?_, ?_⟩
  · intro tick positive earlier_ own teamId team serviceId service
    obtain ⟨entry, found⟩ := (Dict.contains_eq_some _ _).mp (reached.2 tick positive (by omega))
    exact entry_scores tallied found own team service
  unfold LeftScored
  rw [left]
  constructor
  · intro scored
    by_cases on : goesOn access.row = true
    · exact Or.inl on
    right
    by_contra somebody
    rw [not_or] at somebody
    obtain ⟨teamId, team⟩ := List.exists_mem_of_ne_nil _ somebody.1
    obtain ⟨serviceId, service⟩ := List.exists_mem_of_ne_nil _ somebody.2
    -- The closed tick would have to be in the account, whose ticks are all before it.
    obtain ⟨_, entry, _, found, _⟩ := scored on access.row.currentTick onTick.opened (le_refl _) teamId team
      serviceId service
    have before_ := reached.1 access.row.currentTick entry found
    omega
  · rintro (on | nobody | nothing) off tick first last teamId team serviceId service
    · exact absurd on off
    · rw [nobody] at team
      cases team
    · rw [nothing] at service
      cases service

def accountOf (events : List Event) : Account :=
  (exec (accountStep sampleSettings sampleDeployment)
    (fun account event => undeferred sampleSettings account.state event)
    (begun setUp) events).getD (begun (initial 0))

def closingAccess (state : State) : GameTimer.Access :=
  match state.loop with
  | .closing access => access
  | _ => GameTimer.loadTimer sampleSettings none

def closed (state : State) : State :=
  (step sampleSettings sampleDeployment state (.rotator .next)).getD (initial 0)

/-- Team 1 captures beta's flag in tick 1, and tick 2 is closed with the game going on. -/
def capturedPlay : List Event :=
  [.publicSync] ++ bootstrapIteration 3 ++ [.clock 1060000000] ++ submission 0 1 betaFlag ++
    [.clock 1120000000] ++ endIteration ++ bootstrapIteration 3 ++ [.clock 1240000000] ++ rotate 6

/-- At the end of tick 2 the capture of tick 1 is in the points of this play. -/
theorem captured_tick_scored : ∃ account access after, account = accountOf capturedPlay ∧
    account.state.loop = .closing access ∧ access.row.currentTick = 2 ∧ account.scored.keys = [1] ∧
    LeftScored sampleSettings account access after ∧ ScoredInPlay sampleSettings account after.db 1 1 1 ∧
    (after.db.scoring.teamTickPoints.get? (1, 1, 1)).map (·.offPoints) = some 10 := by
  let account := accountOf capturedPlay
  let access := closingAccess account.state
  let after := closed account.state
  have closing : account.state.loop = .closing access := by decide +kernel
  have second : access.row.currentTick = 2 := by decide +kernel
  obtain ⟨earlier_, left⟩ := closed_ticks_scored_iff sampleSettings sampleDeployment setUp after
    account access
    set_up_unplayed (exec_steps capturedPlay _ _ (by decide +kernel)) closing (by decide +kernel)
  refine ⟨account, access, after, rfl, closing, second, by decide +kernel,
    left.mpr (Or.inl (by decide +kernel)), ?_, by decide +kernel⟩
  have own : OwnWindow account 1 :=
    ⟨⟨1000000000, 1120000000, 120, some 1⟩, by decide +kernel, by decide +kernel⟩
  exact earlier_ 1 (by decide) (by omega) own 1 (by decide +kernel) 1 (by decide +kernel)

/-- Tick 1 is played, and the game is suspended before its end. -/
def suspendedPlay : List Event :=
  [.publicSync] ++ bootstrapIteration 3 ++ [.admin (.setDesired .suspended), .clock 1120000000] ++ rotate 6

/-- A suspended game keeps tick 1 without points for the two teams and their service. -/
theorem suspended_tick_unscored :
    ∃ account after access, exec (accountStep sampleSettings sampleDeployment)
        (fun account event => undeferred sampleSettings account.state event)
        (begun setUp) suspendedPlay = some account ∧
      account.state.loop = .closing access ∧ access.row.currentTick = 1 ∧
      step sampleSettings sampleDeployment account.state (.rotator .next) = some after ∧
      after.db.gameState.map (·.state) = some .suspended ∧ 1 ∈ after.db.teams.keys ∧
      1 ∈ after.db.services.keys ∧ (1, 1, 1) ∉ after.db.scoring.teamTickPoints.keys := by
  refine ⟨accountOf suspendedPlay, closed (accountOf suspendedPlay).state,
    closingAccess (accountOf suspendedPlay).state, ?_⟩
  decide +kernel

end KosSim.ScoredPlays
