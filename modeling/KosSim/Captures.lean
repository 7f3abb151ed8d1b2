import KosSim.ScoredPlays
import KosSim.StoredScores
import KosSim.TickDeadlines

/-!
From acceptance to scoring. A flag is accepted under the current tick, but scored in
the tick whose window contains the start of the submission's transaction, and only if
the transaction has committed before the last scoring of that tick. Where it has, each
capture is worth its attack points once, in the stored points of exactly one tick.
-/

namespace KosSim.Captures
open Library Schema FlagCrypto FlagSubmit Scoring ScoringLedger Rotator Platform PlatformFrames
    SubmitSessions
open TickRounds RoundWindows ScoringBlocked ScoringInputs TickClosing TickDeadlines ScoredPlays StoredScores
open Rescoring (score_tick_own)

/-- A pass of the loop that accepts belongs to a transaction that started inside the
window of a tick up to the current one. -/
def acceptsInWindow (env : Settings) (state : State) : Event → Bool
  | .submit (.flag id) =>
      match state.sessions.get? id with
      | some session =>
          match session.stage with
          | .submitting context progress (flag :: _) =>
              match decodeFlag env (strip flag) with
              | some info =>
                  submitted (state.db.submissions ++ progress.pending) context.submitterId (strip flag) ||
                    decide (classify env context progress info ≠ .accepted) ||
                    (intRange 1 (context.tickNow + 1)).any fun tick =>
                    inWindow state.db tick session.startedAt
              | none => true
          | _ => true
      | none => true
  | _ => true

/-- A _score_tick of the tick is still to come: the game is at most one tick further, and the boundary at
the end of that one has not been run. -/
def toBeScored (env : Settings) (state : State) (tick : Int) : Bool :=
  decide (storedTick env state.db ≤ tick + 1) && decide (endedTick state.loop ≠ some (tick + 1))

/-- A transaction commits its accepted rows while the tick that it has started in is still to be scored. -/
def commitsInTime (env : Settings) (state : State) : Event → Bool
  | .submit (.commit id) =>
      match state.sessions.get? id with
      | some session => (pendingOf session).all fun row => decide (row.result ≠ .accepted) ||
          (intRange 1 (storedTick env state.db)).all fun tick =>
            !inWindow state.db tick row.submittedAt || toBeScored env state tick
      | none => true
  | _ => true

def punctual (env : Settings) (state : State) (event : Event) : Prop :=
  steadily state event = true ∧ acceptsInWindow env state event = true ∧
    commitsInTime env state event = true

instance (env : Settings) (state : State) (event : Event) : Decidable (punctual env state event) :=
  inferInstanceAs (Decidable (_ ∧ _))

/-- A landed row that the scoring of the tick credits to the team on the service. -/
def countedFor (env : Settings) (db : Db) (tick teamId serviceId : Int) (row : Submission) : Bool :=
  (stolenFlag (acceptedBefore db tick) (landed db tick) row).toOption.any
    (isCapture tick (retentionTicks env) (loadTeamIds db).2 (loadTeamIds db).1 teamId serviceId)

/-- The last scoring of the tick has loaded the row once and taken it for valid. The points that the
tick has stored for its submitter are those of the tick before, the attack points of the row, and
those of the other rows. -/
def Paid (env : Settings) (account : Account) (tick : Int) (row : Submission) : Prop :=
  ∃ entry flag service points, account.scored.get? tick = some entry ∧
    scoreTick env entry.read tick (retentionTicks env) = .ok entry.written ∧
    (landed entry.read tick).count row = 1 ∧
    stolenFlag (acceptedBefore entry.read tick) (landed entry.read tick) row = .ok flag ∧
    validFlagSubmission tick (retentionTicks env) (loadTeamIds entry.read).2 flag = true ∧
    account.state.db.services.get? flag.serviceId = some service ∧
    account.state.db.scoring.teamTickPoints.get? (tick, row.submitterTeamId, flag.serviceId) = some points ∧
    points.offPoints = env.numeric (attackPoints (loadedSpec flag.serviceId service) * (1 +
      ((landed entry.read tick).erase row).countP
        (countedFor env entry.read tick row.submitterTeamId flag.serviceId) : Nat) +
      lastOff (loadLastTickPoints account.state.db (tick - 1)) (row.submitterTeamId, flag.serviceId)) ∧
    points.flagCapturedCount = (1 + ((landed entry.read tick).erase row).countP
        (countedFor env entry.read tick row.submitterTeamId flag.serviceId) : Nat) +
      lastCount (loadLastTickPoints account.state.db (tick - 1)) (row.submitterTeamId, flag.serviceId)

/-- The row counts in the scoring of exactly one tick, once, and its submitter is credited there. -/
def CountedOnce (env : Settings) (account : Account) (row : Submission) : Prop :=
  ∃ tick, 1 ≤ tick ∧ inWindow account.state.db tick row.submittedAt = true ∧
    (∀ other, 1 ≤ other → inWindow account.state.db other row.submittedAt = true → other = tick) ∧
    (∀ other, row ∈ landed account.state.db other → other = tick) ∧
    (∀ other entry, account.scored.get? other = some entry → row ∈ landed entry.read other → other = tick) ∧
    (account.state.db.flagRounds.contains tick = true → (landed account.state.db tick).count row = 1 ∧
      ∃ flag, stolenFlag (acceptedBefore account.state.db tick)
      (landed account.state.db tick) row = .ok flag ∧
        validFlagSubmission tick (retentionTicks env) (loadTeamIds account.state.db).2 flag = true ∧
        capturedBy tick (retentionTicks env)
        (loadTeamIds account.state.db).2 (loadServices account.state.db)
          (loadTeamIds account.state.db).1 (row.submitterTeamId, flag.serviceId) flag = true) ∧
    (toBeScored env account.state tick = false → Paid env account tick row)

/-! Teams and services stay. -/

def InGame (db : Db) (teamId : Int) : Prop := ∃ team, db.teams.get? teamId = some team ∧ team.isNop = false

theorem rotates_entries {env : Settings} {clock : Int} {db after : Db} {loop next : Loop}
    {event : RotatorEvent} (rotates : Rotates env clock db event loop after next) :
    SameEntries db after := by
  cases rotates with
  | bounded kind access round startedAt boundary done => exact (run_tick_boundary_frame done).1
  | failed | polled | bootstraps | skips | drained | ends => exact SameEntries.refl db
  | queued | enqueued | notEnqueued | commits | closes => exact ⟨rfl, rfl, rfl, rfl, rfl⟩

theorem nop_not_in_game {db : Db} {teamId : Int} (inGame : InGame db teamId) :
    (loadTeamIds db).2 ≠ some teamId := by
  obtain ⟨team, found, playing⟩ := inGame
  intro nop
  obtain ⟨entry, last, same⟩ := Option.map_eq_some_iff.mp nop
  obtain ⟨member, isNop⟩ := List.mem_filter.mp (List.mem_of_getLast? last)
  have stored := (Dict.mem_entries_iff db.teams entry.1 entry.2).mp
    ((List.perm_insertionSort _ db.teams.entries).mem_iff.mp member)
  rw [same, found, Option.some.injEq] at stored
  rw [← stored, playing] at isNop
  cases isNop

theorem in_game_loaded {db : Db} {teamId : Int} (inGame : InGame db teamId) :
    teamId ∈ (loadTeamIds db).1 := by
  obtain ⟨team, found, _⟩ := inGame
  exact (mem_by_key db.teams teamId).mpr (Dict.mem_keys_of_get found)

/-! What a session knows of its team. -/

def SessionKnown (db : Db) (session : Session) : Prop :=
  match session.stage with
  | .begun | .admitted => True
  | .identified _ | .locked _ => InGame db session.teamId
  | .submitting context _ _ => InGame db session.teamId ∧ context.teamMeta = db.teams ∧
      context.serviceMeta = db.services

theorem session_known_same {before after : Db} {session : Session} (known : SessionKnown before session)
    (teams : after.teams = before.teams) (services : after.services = before.services) :
    SessionKnown after session := by
  unfold SessionKnown InGame at *
  rw [teams, services]
  exact known

theorem known_submits {env : Settings} {clock : Int} {db : Db} {sessions after : Sessions}
    {event : SubmitEvent} {rows : List Submission}
    (known : ∀ id session, sessions.get? id = some session → SessionKnown db session)
    (submits : Submits env clock db sessions event rows after) :
    ∀ id session, after.get? id = some session → SessionKnown db session := by
  cases submits with
  | opened id teamId flags sourceIp fresh =>
      intro other session present
      rw [Dict.get_set] at present
      split at present
      · cases present
        trivial
      · exact known other session present
  | closed event id => exact fun other session present => known other session (close_some present).1
  | committed id session context progress present was =>
      exact fun other found presentOther => known other found (close_some presentOther).1
  | moved event id session stage present moves =>
      intro other found presentOther
      rcases set_stage_some presentOther with ⟨_, same⟩ | ⟨_, stored⟩
      · have before := known id session present
        rw [same]
        cases moves with
        | admitted was running => trivial
        | identified was name identified =>
            unfold identify at identified
            split at identified
            · cases identified
            next team found =>
            split at identified
            · cases identified
            next playing => exact ⟨team, found, Bool.not_eq_true _ ▸ playing⟩
        | locked name was free =>
            rw [SessionKnown, was] at before
            exact before
        | prepared name was context progress read =>
            rw [SessionKnown, was] at before
            obtain ⟨_, _, _, teams, services, _⟩ := prepare_cases read
            exact ⟨before, teams, services⟩
        | processed context progress next flag remaining was done =>
            rw [SessionKnown, was] at before
            exact before
      · exact known other found stored

/-! The place of an accepted row. -/

structure PlacedIn (env : Settings) (db : Db) (row : Submission) (tick : Int)
    (target service issued payload : Int) :
    Prop where
  positive : 1 ≤ tick
  inside : inWindow db tick row.submittedAt = true
  hasTarget : row.targetTeamId = some target
  hasService : row.serviceId = some service
  hasIssued : row.tickIssued = some issued
  hasPayload : row.payload = some payload
  foreign : target ≠ row.submitterTeamId
  recent : tick - retentionTicks env < issued
  victim : InGame db target
  submitter : InGame db row.submitterTeamId
  served : service ∈ db.services.keys

def Placed (env : Settings) (db : Db) (row : Submission) : Prop :=
  ∃ tick target service issued payload, PlacedIn env db row tick target service issued payload

theorem placed_stays {env : Settings} {before after : Db} {row : Submission}
    (placed : Placed env before row)
    (teams : after.teams = before.teams) (services : after.services = before.services)
    (windows : ∀ tick time, 1 ≤ tick → inWindow before tick time = true → inWindow after tick time = true) :
    Placed env after row := by
  obtain ⟨tick, target, service, issued, payload,
    ⟨positive, inside, hasTarget, hasService, hasIssued, hasPayload, foreign, recent, victim, submitter,
      served⟩⟩ := placed
  refine ⟨tick, target, service, issued, payload,
    ⟨positive, windows _ _ positive inside, hasTarget, hasService, hasIssued, hasPayload, foreign,
      recent, ?_, ?_, ?_⟩⟩
  · unfold InGame
    rw [teams]
    exact victim
  · unfold InGame
    rw [teams]
    exact submitter
  · rw [services]
    exact served

/-- A pass that accepts a flag in a window places its row. -/
theorem accepted_placed {env : Settings} {state : State} {id : Nat} {session : Session}
    {context : Context} {progress : Progress} {flag : Text} {remaining : List Text}
    {row : Submission} (orderly : Orderly state.db.submissions state.sessions)
    (known : SessionKnown state.db session)
    (met : acceptsInWindow env state (.submit (.flag id)) = true)
    (present : state.sessions.get? id = some session)
    (was : session.stage = .submitting context progress (flag :: remaining))
    (new : NewRow env state.db context progress flag row) (accepted : row.result = .accepted) :
    Placed env state.db row := by
  have owned := orderly.owned id session context progress _ present was
  rw [SessionKnown, was] at known
  obtain ⟨inGame, teams, services⟩ := known
  obtain ⟨info, decodes, classified, target, service, issued, payload⟩ := new.decoded accepted
  obtain ⟨victim, spec, foundTarget, foundService, foreign, playing, oldest, _⟩ := classify_known classified
  have fresh := new.fresh
  rw [new.flag] at decodes fresh
  -- The row is new and accepted, so the condition leaves only the window.
  simp only [acceptsInWindow, present, was, decodes, fresh, classified, ne_eq, not_true_eq_false,
    decide_false, Bool.or_self, Bool.false_or] at met
  obtain ⟨tick, range, inside⟩ := List.any_eq_true.mp met
  obtain ⟨positive, last⟩ := (mem_int_range _ _ _).mp range
  have oldest_ : context.tickNow - retentionTicks env + 1 ≤ info.tick := (le_max_right _ _).trans oldest
  have submitter : row.submitterTeamId = session.teamId := new.submitter.trans owned.submitter
  refine ⟨tick, info.teamId, info.serviceId, info.tick, info.payload,
    ⟨positive, ?_, target, service, issued, payload, new.submitter ▸ foreign, by omega,
      ⟨victim, teams ▸ foundTarget, playing⟩, submitter ▸ inGame, ?_⟩⟩
  · rw [new.startedAt, owned.startedAt]
    exact inside
  · rw [Dict.mem_keys_iff, ← services, foundService]
    exact Option.some_ne_none spec

structure Capturing (env : Settings) (state : State) : Prop where
  timed : Timed env state
  orderly : Orderly state.db.submissions state.sessions
  known : ∀ id session, state.sessions.get? id = some session → SessionKnown state.db session
  placed : AcceptedAll (Placed env state.db) state.db.submissions state.sessions

theorem capturing_step {env : Settings} {deployment : InitDb.Deployment} {before after : State}
    {event : Event} (capturing : Capturing env before) (met : punctual env before event)
    (taken : step env deployment before event = some after) : Capturing env after := by
  obtain ⟨steady, inTime, _⟩ := met
  have timed := timed_step capturing.timed steady taken
  have orderly := orderly_step capturing.orderly taken
  have windows (tick time : Int) (positive : 1 ≤ tick) (inside : inWindow before.db tick time = true) :
      inWindow after.db tick time = true := in_window_stays capturing.timed steady taken positive inside
  cases play_cases (steadily_playing steady) taken with
  | clock now => exact ⟨timed, orderly, capturing.known, capturing.placed⟩
  | worker event checker tasks worked =>
      exact ⟨timed, orderly, capturing.known,
        accepted_weaken capturing.placed fun row placed => placed_stays placed rfl rfl windows⟩
  | command event row idle commands =>
      exact ⟨timed, orderly, capturing.known,
        accepted_weaken capturing.placed fun row placed => placed_stays placed rfl rfl windows⟩
  | rotator event db loop rotates =>
      have entries := rotates_entries rotates
      refine ⟨timed, orderly, ?_, ?_⟩
      · exact fun id session present =>
          session_known_same (capturing.known id session present) entries.teams entries.services
      · show AcceptedAll (Placed env db) db.submissions before.sessions
        rw [entries.submissions]
        exact accepted_weaken capturing.placed fun row placed =>
          placed_stays placed entries.teams entries.services windows
  | submit event rows sessions submits =>
      refine ⟨timed, orderly, ?_, ?_⟩
      · exact fun id session present =>
          session_known_same (known_submits capturing.known submits id session present) rfl rfl
      · have placed : AcceptedAll (Placed env before.db) rows sessions := by
          refine accepted_submits capturing.placed submits ?_
          intro id session context progress flag remaining row same present was new accepted
          subst same
          exact accepted_placed capturing.orderly (capturing.known id session present) inTime
            present was new accepted
        exact accepted_weaken placed fun row placed => placed_stays placed rfl rfl windows

/-- An unplayed game without submissions and checker jobs that is not set to stop. -/
structure Fresh (state : State) : Prop where
  unplayed : Unplayed state
  jobless : state.db.checker.checkerJobs = Dict.empty
  unsubmitted : state.db.submissions = []
  closed : state.sessions = Dict.empty
  endless : ∀ row, state.db.gameState = some row → row.stopAfterTick = none

theorem fresh_stored (env : Settings) {state : State} (fresh : Fresh state) :
    (storedRow env state.db).currentTick = 0 ∧ (storedRow env state.db).stopAfterTick = none := by
  unfold storedRow
  cases committed : state.db.gameState with
  | none => exact ⟨rfl, rfl⟩
  | some row => exact ⟨fresh.unplayed.unstarted row committed, fresh.endless row committed⟩

theorem capturing_start (env : Settings) {state : State} (fresh : Fresh state) : Capturing env state := by
  have none_ := (numbered_empty fresh.unplayed.rounds).2
  have missing (tick : Int) (round : FlagRound) : state.db.flagRounds.get? tick ≠ some round := by
    rw [fresh.unplayed.rounds]
    exact fun never => by cases never
  have stored := fresh_stored env fresh
  have timed : Timed env state := by
    refine ⟨paced_start fresh.unplayed, ⟨?_, ?_⟩,
      ⟨⟨stored.2, fun opened => by omega⟩, Or.inl ⟨by omega, by omega, ?_⟩⟩, ?_, ?_⟩
    · exact fun tick round found => absurd found (missing tick round)
    · exact fun one two first last _ found => absurd found (missing one first)
    · exact fun tick round found => absurd found (missing tick round)
    · rw [fresh.unplayed.idle]
      exact fun row never => by cases never
    · rw [fresh.unplayed.idle]
      trivial
  refine ⟨timed, ?_, ?_, ?_⟩
  · rw [fresh.unsubmitted, fresh.closed]
    exact orderly_initial
  · rw [fresh.closed]
    exact fun id session never => by cases never
  · rw [fresh.unsubmitted, fresh.closed]
    exact accepted_initial _

/-! The scoring of a placed row. -/

theorem landed_in_window {db : Db} {tick : Int} {row : Submission} (numbered : Numbered db)
    (member : row ∈ landed db tick) :
    1 ≤ tick ∧ inWindow db tick row.submittedAt = true ∧ ∃ round, db.flagRounds.get? tick = some round := by
  unfold landed at member
  rw [numbered_round numbered] at member
  cases found : db.flagRounds.get? tick with
  | none =>
      rw [found] at member
      cases member
  | some round =>
      rw [found] at member
      have range := (numbered_contains numbered tick).mp ((Dict.contains_eq_some _ _).mpr ⟨round, found⟩)
      obtain ⟨_, kept⟩ := List.mem_filter.mp member
      simp only [Bool.and_eq_true, decide_eq_true_eq] at kept
      refine ⟨range.1, ?_, round, rfl⟩
      simp only [inWindow, windowOf, found, Bool.and_eq_true, decide_eq_true_eq]
      exact ⟨kept.1.2, kept.2⟩

/-- The submissions of a tick are among the stored ones, each of which has its own key. -/
theorem landed_nodup {db : Db} (unique : (db.submissions.map ident).Nodup) (tick : Int) :
    (landed db tick).Nodup := by
  unfold landed
  split
  · exact List.nodup_nil
  · exact (unique.of_map ident).filter _

theorem landed_of_placed {env : Settings} {db : Db} {row : Submission}
    {tick target service issued payload : Int} (numbered : Numbered db)
    (stored : row ∈ db.submissions) (accepted : row.result = .accepted)
    (placed : PlacedIn env db row tick target service issued payload)
    (known : db.flagRounds.contains tick = true) :
    row ∈ landed db tick := by
  obtain ⟨round, found⟩ := (Dict.contains_eq_some _ _).mp known
  have inside := placed.inside
  simp only [inWindow, windowOf, found, Bool.and_eq_true, decide_eq_true_eq] at inside
  unfold landed
  rw [numbered_round numbered, found]
  refine List.mem_filter.mpr ⟨stored, ?_⟩
  simp [scorable, accepted, placed.hasIssued, placed.hasService, placed.hasPayload, inside]

theorem placed_flag {env : Settings} {db : Db} {row : Submission} {tick target service issued payload : Int}
    (placed : PlacedIn env db row tick target service issued payload) (before thisTick : List Submission) :
    ∃ flag, stolenFlag before thisTick row = .ok flag ∧
      validFlagSubmission tick (retentionTicks env) (loadTeamIds db).2 flag = true ∧
      capturedBy tick (retentionTicks env) (loadTeamIds db).2 (loadServices db) (loadTeamIds db).1
        (row.submitterTeamId, flag.serviceId) flag = true := by
  have victim := nop_not_in_game placed.victim
  have submitter := nop_not_in_game placed.submitter
  have recent := placed.recent
  unfold stolenFlag
  rw [placed.hasTarget, placed.hasService, placed.hasIssued, placed.hasPayload]
  have valid (flag : StolenFlag) (sameTarget : flag.targetTeamId = target)
      (sameSubmitter : flag.submitterTeamId = row.submitterTeamId) (sameTick : flag.tickIssued = issued) :
      validFlagSubmission tick (retentionTicks env) (loadTeamIds db).2 flag = true := by
    unfold validFlagSubmission
    rw [sameTarget, sameSubmitter, sameTick]
    rw [if_neg (not_or.mpr ⟨victim, submitter⟩), if_neg (Ne.symm placed.foreign), if_neg (by omega)]
  refine ⟨_, rfl, valid _ rfl rfl rfl, ?_⟩
  have served : service ∈ (loadServices db).map (·.id) := by
    rw [load_services_ids]
    exact (mem_by_key db.services service).mpr placed.served
  unfold capturedBy counts
  rw [valid _ rfl rfl rfl]
  simp [served, in_game_loaded placed.victim, in_game_loaded placed.submitter]

/-! The last scoring of a tick. -/

/-- What the scoring of a tick has read: the rows of that time, and the points of the tick before. -/
structure ReadBefore (db : Db) (tick : Int) (entry : ScoredTick) : Prop where
  numbered : Numbered entry.read
  rows : entry.read.submissions <+: db.submissions
  prior : pointsOfTick db (tick - 1) = pointsOfTick entry.read (tick - 1)

structure Crediting (env : Settings) (account : Account) : Prop where
  capturing : Capturing env account.state
  deadlined : Deadlined env account.state
  tallied : Tallied env account
  read : ∀ tick entry, account.scored.get? tick = some entry → ReadBefore account.state.db tick entry
  final : ∀ tick entry, account.scored.get? tick = some entry → toBeScored env account.state tick = false →
    ∀ row ∈ account.state.db.submissions, row.result = .accepted →
      inWindow account.state.db tick row.submittedAt = true → row ∈ entry.read.submissions

theorem new_rows {env : Settings} {deployment : InitDb.Deployment} {before after : State} {event : Event}
    (met : playing event = true) (taken : step env deployment before event = some after) :
    ∃ rows, after.db.submissions = before.db.submissions ++ rows ∧ ∀ row ∈ rows, ∃ id session,
      event = .submit (.commit id) ∧ before.sessions.get? id = some session ∧ row ∈ pendingOf session := by
  have none_ (same : after.db.submissions = before.db.submissions) :
      ∃ rows, after.db.submissions = before.db.submissions ++ rows ∧ ∀ row ∈ rows, ∃ id session,
        event = .submit (.commit id) ∧ before.sessions.get? id = some session ∧ row ∈ pendingOf session :=
    ⟨[], by rw [same, List.append_nil], fun row never => by cases never⟩
  rcases step_submissions taken with ⟨submit, same, _, submits⟩ | ⟨teamId, same, _⟩ | ⟨same, _⟩
  · generalize held : after.db.submissions = rows at submits
    generalize after.sessions = sessions at submits
    cases submits with
    | opened | closed | moved => exact held ▸ none_ held
    | committed id session context progress present was =>
        refine ⟨progress.pending, rfl, fun row member => ⟨id, session, same, present, ?_⟩⟩
        rw [pendingOf, was]
        exact member
  · subst same
    cases met
  · exact none_ same

theorem not_to_be_scored {env : Settings} {state : State} {tick : Int} :
    toBeScored env state tick = false ↔ tick + 2 ≤ storedTick env state.db ∨
      endedTick state.loop = some (tick + 1) := by
  rw [toBeScored, Bool.and_eq_false_iff, decide_eq_false_iff_not, decide_eq_false_iff_not, not_not]
  constructor
  · exact Or.imp_left fun later => by omega
  · exact Or.imp_left fun later => by omega

/-- A step without a boundary makes no scoring the last one, but for finish_boundary after the boundary. -/
theorem to_be_scored_back {env : Settings} {before after : State} {tick : Int} (paced : Paced before)
    (quiet : Quiet env before after) (positive : 1 ≤ tick) (closed : toBeScored env after tick = false) :
    toBeScored env before tick = false := by
  rw [not_to_be_scored] at closed ⊢
  rcases closed with later | ended
  · rcases quiet.ticks with early | same | ⟨access, closing, _, most⟩
    · omega
    · exact Or.inl (same ▸ later)
    -- finish_boundary: the committed tick becomes the next one of the tick it closes.
    · have working := paced.working
      rw [closing] at working
      obtain ⟨holding, _⟩ := working
      by_cases here : access.row.currentTick = tick + 1
      · right
        rw [closing, ← here]
        rfl
      · rcases stored_follows env holding.follows with same | ⟨_, early⟩
        · exact Or.inl (by omega)
        · omega
  · rcases quiet.ended with nothing | same
    · cases nothing.symm.trans ended
    · exact Or.inr (same ▸ ended)

/-- An iteration behind the boundary of a tick holds that tick, and its round is stored. -/
theorem ended_holding {state : State} {tick : Int} (paced : Paced state)
    (ended : endedTick state.loop = some tick) :
    ∃ access, Holding state.db access ∧ access.row.currentTick = tick ∧ tick ≤ state.db.maxTick := by
  have working := paced.working
  generalize state.loop = loop at ended working
  cases loop with
  | idle | polled | boundary | checked => cases ended
  | queueing kind access round ticked items =>
      cases kind with
      | bootstrap => cases ended
      | tickEnd =>
          cases ended
          exact ⟨access, working.1, rfl, working.2.2.2.2⟩
  | enqueueing kind access jobs =>
      cases kind with
      | bootstrap => cases ended
      | tickEnd =>
          cases ended
          exact ⟨access, working.1, rfl, working.2.2.1⟩
  | closing access =>
      cases ended
      exact ⟨access, working.1, rfl, working.2.2⟩

/-- A tick that has had its last scoring is over, and its round is stored. -/
theorem scored_passed {env : Settings} {state : State} {tick : Int} (paced : Paced state)
    (positive : 1 ≤ tick) (closed : toBeScored env state tick = false) :
    tick < storedTick env state.db ∧ ∃ round, state.db.flagRounds.get? tick = some round := by
  have known (last : tick ≤ state.db.maxTick) : ∃ round, state.db.flagRounds.get? tick = some round :=
    (Dict.contains_eq_some _ _).mp ((numbered_contains paced.numbered tick).mpr ⟨positive, last⟩)
  rcases not_to_be_scored.mp closed with later | ended
  · have reach : storedTick env state.db ≤ state.db.maxTick + 1 :=
      (stored_reach env paced.committed paced.numbered).2
    exact ⟨by omega, known (by omega)⟩
  · obtain ⟨access, holding, here, last⟩ := ended_holding paced ended
    refine ⟨?_, known (by omega)⟩
    rcases stored_follows env holding.follows with same | ⟨_, early⟩ <;> omega

theorem in_window_known {before after : Db} {tick : Int} {round : FlagRound}
    (found : before.flagRounds.get? tick = some round)
    (same : after.flagRounds.get? tick = before.flagRounds.get? tick) (time : Int) :
    inWindow after tick time = inWindow before tick time := by
  simp only [inWindow, windowOf, same, found]

section Crediting
variable {env : Settings} {account : Account} {event : Event} {after : State}

/-- A commit in time brings no row for a tick that has had its last scoring. -/
theorem late_row {id : Nat} {session : Session} {row : Submission} {tick : Int}
    (paced : Paced account.state)
    (met : commitsInTime env account.state (.submit (.commit id)) = true)
    (present : account.state.sessions.get? id = some session) (member : row ∈ pendingOf session)
    (accepted : row.result = .accepted) (positive : 1 ≤ tick)
    (closed : toBeScored env account.state tick = false) :
    inWindow account.state.db tick row.submittedAt = false := by
  simp only [commitsInTime, present, List.all_eq_true] at met
  have ticks := met row member
  simp only [accepted, ne_eq, not_true_eq_false, decide_false, Bool.false_or, List.all_eq_true] at ticks
  have range : tick ∈ intRange 1 (storedTick env account.state.db) :=
    (mem_int_range _ _ _).mpr ⟨positive, (scored_passed paced positive closed).1⟩
  have here := ticks tick range
  rw [closed, Bool.or_false, Bool.not_eq_true'] at here
  exact here

theorem crediting_quiet {deployment : InitDb.Deployment} (crediting : Crediting env account)
    (met : punctual env account.state event) (taken : step env deployment account.state event = some after)
    (capturing : Capturing env after) (deadlined : Deadlined env after)
    (quiet : Quiet env account.state after) : Crediting env ⟨after, account.windows, account.scored⟩ := by
  have paced := crediting.tallied.paced
  have tallied := tallied_quiet crediting.tallied capturing.timed.paced quiet
  obtain ⟨rows, grown, added⟩ := new_rows (steadily_playing met.1) taken
  refine ⟨capturing, deadlined, tallied, ?_, ?_⟩
  · intro tick entry found
    obtain ⟨numbered, before, prior⟩ := crediting.read tick entry found
    refine ⟨numbered, ?_, ?_⟩
    · show entry.read.submissions <+: after.db.submissions
      rw [grown]
      exact before.trans (List.prefix_append _ rows)
    · rw [← prior, pointsOfTick, pointsOfTick, quiet.scoring]
  · intro tick entry found closed row stored accepted inside
    have positive := (crediting.tallied.kept tick entry found).positive
    have before := to_be_scored_back paced quiet positive closed
    obtain ⟨_, round, known⟩ := scored_passed paced positive before
    rw [in_window_known known (by rw [quiet.rounds])] at inside
    have listed : row ∈ after.db.submissions := stored
    rw [grown, List.mem_append] at listed
    rcases listed with old | new
    · exact crediting.final tick entry found before row old accepted inside
    · obtain ⟨id, session, rfl, present, member⟩ := added row new
      -- A row that is committed now is of no tick that has had its last scoring.
      have outside := late_row paced met.2.2 present member accepted positive before
      cases inside.symm.trans outside

theorem crediting_bounded {round : Round} {startedAt : Int} (crediting : Crediting env account)
    (capturing : Capturing env after) (deadlined : Deadlined env after)
    (bounded : boundedRound env account.state event = some (round, startedAt))
    (bounds : Bounds env account.state after round startedAt) :
    Crediting env (accountAfter env account event after) := by
  have tallied := tallied_bounded crediting.tallied capturing.timed.paced bounded bounds
  have numbered := capturing.timed.paced.numbered
  have current := bounds.current
  unfold accountAfter at tallied ⊢
  rw [bounded] at tallied ⊢
  dsimp only at tallied ⊢
  rcases bounds.scored with ⟨first, _⟩ | ⟨later, read, noted, done, entries, prior, rounds⟩
  · rw [if_pos first] at tallied ⊢
    exact ⟨capturing, deadlined, tallied, fun _ _ found => (by cases found),
      fun _ _ found => (by cases found)⟩
  rw [if_neg (by omega), noted] at tallied ⊢
  dsimp only at tallied ⊢
  have same : storedTick env account.state.db = round.roundId := current.resolve_right (by omega)
  have reached := (crediting.tallied.stored (by omega)).1
  have submissions : read.submissions = after.db.submissions :=
    entries.submissions.trans bounds.entries.submissions.symm
  refine ⟨capturing, deadlined, tallied, ?_, ?_⟩
  · intro tick entry found
    rw [Dict.get_set] at found
    split at found
    · next here =>
      cases found
      refine ⟨(numbered_same numbered read rounds).1, ?_, score_tick_own done (by omega)⟩
      show read.submissions <+: after.db.submissions
      rw [submissions]
    · obtain ⟨numbered_, before, priorSame⟩ := crediting.read tick entry found
      have old := reached tick entry found
      refine ⟨numbered_, ?_, ?_⟩
      · show entry.read.submissions <+: after.db.submissions
        rw [bounds.entries.submissions]
        exact before
      · show pointsOfTick after.db (tick - 1) = _
        rw [score_tick_own done (by omega), ← priorSame, pointsOfTick, pointsOfTick, prior]
  · intro tick entry found closed row stored accepted inside
    have listed : row ∈ after.db.submissions := stored
    rw [Dict.get_set] at found
    split at found
    · next here =>
      cases found
      exact submissions ▸ listed
    · next other =>
      have old := reached tick entry found
      have positive := (crediting.tallied.kept tick entry found).positive
      -- The boundary makes no scoring the last one but its own.
      have before : toBeScored env account.state tick = false := by
        rw [not_to_be_scored] at closed ⊢
        rcases closed with past | ended
        · exact Or.inl (bounds.timer ▸ past)
        · rcases bounds.ended with nothing | here
          · cases nothing.symm.trans ended
          · have next : round.roundId = tick + 1 := Option.some.inj (here.symm.trans ended)
            omega
      -- So the row was there when that tick was scored.
      obtain ⟨_, known, foundRound⟩ := scored_passed crediting.tallied.paced positive before
      rw [in_window_known foundRound (bounds.rounds tick (by omega))] at inside
      exact crediting.final tick entry found before row (bounds.entries.submissions ▸ listed)
        accepted inside

theorem crediting_step {deployment : InitDb.Deployment} {next : Account}
    (crediting : Crediting env account) (met : punctual env account.state event)
    (taken : accountStep env deployment account event = some next) :
    Crediting env next := by
  obtain ⟨after, stepped, same⟩ := Option.map_eq_some_iff.mp taken
  subst same
  have capturing := capturing_step crediting.capturing met stepped
  have deadlined := deadlined_step crediting.deadlined met.1 stepped
  have played := steadily_playing met.1
  have paced := crediting.tallied.paced
  cases noted : boundedRound env account.state event with
  | none =>
      have quiet :=
        crediting_quiet crediting met stepped capturing deadlined (quiet_step paced played noted stepped)
      unfold accountAfter
      rw [noted]
      exact quiet
  | some pair =>
      obtain ⟨round, startedAt⟩ := pair
      exact crediting_bounded crediting capturing deadlined noted
        (bounds_step paced (never_deferred crediting.deadlined event) noted stepped)

theorem crediting_start {start : State} (fresh : Fresh start) : Crediting env (begun start) := by
  have capturing := capturing_start env fresh
  have unstarted : (storedRow env start.db).currentTick < 1 := by
    rw [(fresh_stored env fresh).1]
    exact Int.zero_lt_one
  exact ⟨capturing, deadlined_start capturing.timed fresh.unplayed.idle unstarted fresh.jobless,
    tallied_start fresh.unplayed, fun _ _ found => (by cases found), fun _ _ found => (by cases found)⟩

theorem placed_read {db : Db} {row : Submission} {tick target service issued payload : Int}
    {entry : ScoredTick} {round : FlagRound}
    (placed : PlacedIn env db row tick target service issued payload)
    (kept : Kept env db tick entry) (known : db.flagRounds.get? tick = some round) :
    PlacedIn env entry.read row tick target service issued payload := by
  have victim := placed.victim
  have submitter := placed.submitter
  have served := placed.served
  unfold InGame at victim submitter
  rw [← kept.teams] at victim submitter
  rw [← kept.services] at served
  refine ⟨placed.positive, ?_, placed.hasTarget, placed.hasService, placed.hasIssued, placed.hasPayload,
    placed.foreign, placed.recent, victim, submitter, served⟩
  rw [in_window_known known kept.round]
  exact placed.inside

/-- The captures of a pair are the row and those of the other landed rows. -/
theorem captures_split {db : Db} {tick teamId serviceId : Int} {row : Submission} {flags : List StolenFlag}
    {flag : StolenFlag} (loaded : loadFlagsForTick db tick = .ok flags) (member : row ∈ landed db tick)
    (made : stolenFlag (acceptedBefore db tick) (landed db tick) row = .ok flag)
    (captured : isCapture tick (retentionTicks env) (loadTeamIds db).2 (loadTeamIds db).1 teamId
      serviceId flag = true) : capturesAt db tick (retentionTicks env) teamId serviceId =
      1 + ((landed db tick).erase row).countP (countedFor env db tick teamId serviceId) := by
  -- The row is one of the captures; taking it out leaves the others.
  have here : countedFor env db tick teamId serviceId row = true := by
    rw [countedFor, made]
    exact captured
  rw [capturesAt, loaded]
  dsimp only
  rw [count_mapM loaded]
  have split := (List.perm_cons_erase member).countP_eq (countedFor env db tick teamId serviceId)
  rw [List.countP_cons_of_pos here] at split
  exact split.trans (Nat.add_comm _ _)

theorem row_paid {tick target service issued payload : Int} {row : Submission}
    (crediting : Crediting env account) (stored : row ∈ account.state.db.submissions)
    (accepted : row.result = .accepted)
    (placed : PlacedIn env account.state.db row tick target service issued payload)
    (closed : toBeScored env account.state tick = false) : Paid env account tick row := by
  have tallied := crediting.tallied
  obtain ⟨_, round, known⟩ := scored_passed tallied.paced placed.positive closed
  have present : account.scored.contains tick = true := by
    rcases not_to_be_scored.mp closed with past | ended
    · have positive := placed.positive
      exact (tallied.stored (by omega)).2 tick positive (by omega)
    · exact (tallied.ended _ ended).2 tick placed.positive (by omega)
  obtain ⟨entry, found⟩ := (Dict.contains_eq_some _ _).mp present
  have kept := tallied.kept tick entry found
  have read := crediting.read tick entry found
  have there := crediting.final tick entry found closed row stored accepted placed.inside
  have inside := placed_read placed kept known
  have member : row ∈ landed entry.read tick :=
    landed_of_placed read.numbered there accepted inside
      ((Dict.contains_eq_some _ _).mpr ⟨round, kept.round.trans known⟩)
  have distinct :=
    landed_nodup (crediting.capturing.orderly.unique.sublist (read.rows.sublist.map ident)) tick
  obtain ⟨flag, made, valid, captured⟩ :=
    placed_flag inside (acceptedBefore entry.read tick) (landed entry.read tick)
  have named : flag.serviceId = service := by
    simp only [stolenFlag, placed.hasTarget, placed.hasService, placed.hasIssued, placed.hasPayload,
      Except.ok.injEq] at made
    rw [← made]
  simp only [capturedBy, counts, Bool.and_eq_true, decide_eq_true_eq, Prod.mk.injEq] at captured
  obtain ⟨⟨⟨_, _⟩, target_⟩, submitter, _⟩ := captured
  have capture : isCapture tick (retentionTicks env) (loadTeamIds entry.read).2 (loadTeamIds entry.read).1
      row.submitterTeamId flag.serviceId flag = true := by
    simp only [isCapture, Bool.and_eq_true, decide_eq_true_eq]
    exact ⟨⟨⟨valid, submitter⟩, trivial⟩, target_⟩
  obtain ⟨spec, served⟩ := Option.ne_none_iff_exists'.mp ((Dict.mem_keys_iff _ _).mp inside.served)
  obtain ⟨_, playing_, _⟩ := inside.submitter
  have team := Dict.mem_keys_of_get playing_
  rw [← named] at served
  obtain ⟨points, written, off, count⟩ := score_tick_stored placed.positive served team kept.scored
  obtain ⟨flags, loaded⟩ : ∃ flags, loadFlagsForTick entry.read tick = .ok flags := by
    rcases score_tick_cases kept.scored with ⟨_, early | services | teams⟩ | ⟨_, _, _, flags, _, _, _,
      loaded, _, _⟩
    · have positive := placed.positive
      omega
    · have listed := inside.served
      rw [Dict.keys, services] at listed
      cases listed
    · rw [Dict.keys, teams] at team
      cases team
    · exact ⟨flags, loaded⟩
  -- The points of the tick before are those that the scoring has read.
  have last := same_last_points read.prior
  rw [captures_split loaded member made capture, ← last] at off count
  refine ⟨entry, flag, spec, points, found, kept.scored, List.count_eq_one_of_mem distinct member,
    made, valid, kept.services ▸ served, ?_, off, count⟩
  rw [← points_get account.state.db tick (row.submitterTeamId, flag.serviceId), kept.points, points_get]
  exact written

end Crediting

/-- In every run in which flags are accepted inside the windows of the ticks, and committed before
the last scoring of theirs, every stored accepted row counts in the scoring of exactly one tick and
is paid there once. -/
theorem accepted_captures_count_once (env : Settings) (deployment : InitDb.Deployment)
    (start : State) (account : Account) (fresh : Fresh start)
    (run : Steps (accountStep env deployment)
      (fun account event => punctual env account.state event) (begun start) account)
    (row : Submission) (stored : row ∈ account.state.db.submissions)
    (accepted : row.result = .accepted) :
    CountedOnce env account row := by
  have crediting := steps_invariant (Crediting env)
    (fun _ _ _ kept met taken => crediting_step kept met taken) (crediting_start fresh) run
  obtain ⟨timed, orderly, _, placed⟩ := crediting.capturing
  have numbered := timed.paced.numbered
  obtain ⟨tick, target, service, issued, payload, placed⟩ := placed.stored row stored accepted
  have only (other : Int) (positive : 1 ≤ other)
      (inside : inWindow account.state.db other row.submittedAt = true) :
      other = tick := in_one_window timed positive placed.positive inside placed.inside
  refine ⟨tick, placed.positive, placed.inside, only, ?_, ?_, ?_, row_paid crediting stored accepted placed⟩
  · intro other member
    obtain ⟨positive, inside, _⟩ := landed_in_window numbered member
    exact only other positive inside
  · intro other entry found member
    obtain ⟨positive, inside, _, known⟩ :=
      landed_in_window (crediting.read other entry found).numbered member
    rw [← in_window_known known (crediting.tallied.kept other entry found).round.symm] at inside
    exact only other positive inside
  · intro known
    exact ⟨List.count_eq_one_of_mem (landed_nodup orderly.unique tick)
      (landed_of_placed numbered stored accepted placed known), placed_flag placed _ _⟩

theorem set_up_fresh : Fresh setUp :=
  ⟨set_up_unplayed, by decide +kernel, by decide +kernel, by decide +kernel, fun row stored => by
    have none_ : setUp.db.gameState = none := by decide +kernel
    rw [none_] at stored
    cases stored⟩

/-- Team 1 captures beta's flag in the middle of tick 1, and tick 2 is played to its end. -/
def captureInTime : List Event :=
  [.publicSync] ++ bootstrapIteration 3 ++ [.clock 1060000000] ++ submission 0 1 betaFlag ++
    [.clock 1120000000] ++
    endIteration ++ bootstrapIteration 3 ++ [.clock 1240000000] ++ endIteration

def captured : Account :=
  (exec (accountStep sampleSettings sampleDeployment)
    (fun account event => punctual sampleSettings account.state event)
    (begun setUp) captureInTime).getD (begun (initial 0))

theorem mid_tick_capture_paid :
    captured.state.db.submissions.length = 1 ∧ toBeScored sampleSettings captured.state 1 = false ∧
      (captured.state.db.scoring.teamTickPoints.get? (1, 1, 1)).map (·.offPoints) = some 10 ∧
      ∀ row ∈ captured.state.db.submissions, CountedOnce sampleSettings captured row := by
  refine ⟨by decide +kernel, by decide +kernel, by decide +kernel, fun row stored => ?_⟩
  have accepted : captured.state.db.submissions.all (fun row => decide (row.result = .accepted)) =
      true := by
    decide +kernel
  exact accepted_captures_count_once sampleSettings sampleDeployment setUp captured set_up_fresh
    (exec_steps captureInTime _ _ (by decide +kernel)) row stored
    (of_decide_eq_true (List.all_eq_true.mp accepted row stored))

/-- The transaction starts when tick 1 is over, but before the rotator closes it. -/
def captureBetweenTicks : List Event :=
  [.publicSync] ++ bootstrapIteration 3 ++ [.clock 1120000000] ++ submission 0 1 betaFlag ++
    [.clock 1121000000] ++ endIteration ++ bootstrapIteration 3

/-- Rounds 1 and 2 are stored, and the accepted row is in neither of their windows. -/
theorem capture_between_ticks_lost :
    ∃ state, exec (step sampleSettings sampleDeployment)
        (fun state event => steadily state event = true) setUp captureBetweenTicks = some state ∧
      state.db.submissions.map (fun row => (row.result, row.submittedAt)) = [(.accepted, 1120000000)] ∧
      state.db.flagRounds.entries.map (fun entry => (entry.2.startsAt, entry.2.endsAt)) =
        [(1000000000, 1120000000), (1121000000, 1241000000)] ∧
      landed state.db 1 = [] ∧ landed state.db 2 = [] := by
  refine ⟨_, rfl, ?_⟩
  decide +kernel

end KosSim.Captures
