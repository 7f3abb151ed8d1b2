import KosSim.SubmitSessions

/-!
MAX_ACCEPTED_PER_TEAM_PER_ROUND. The counter of submit_flags looks at the rows of the
round of the current tick, while an accepted row gets the round of its own tick, or
none. The runs below note what the timer shows when a flag is accepted. As long as
every accepted flag is stored under the round that the counter looks at, and the timer
has not moved on since, no team has more than the limit in one tick of the timer.
-/

namespace KosSim.RoundCap
open Library Schema FlagCrypto FlagSubmit AdminTeams Platform SubmitSessions

/-- A run, with the tick that the timer showed when a team's flag was accepted last. -/
structure Noted where
  state : State
  shown : Dict (Int × Text) Int
  deriving DecidableEq

/-- The flag that a pass of the loop is about to accept. -/
def accepting (env : Settings) (state : State) : Event → Option (Session × Context × Text × FlagInfo)
  | .submit (.flag id) =>
      match state.sessions.get? id with
      | some session =>
          match session.stage with
          | .submitting context progress (rawFlag :: _) =>
              (wantedFlag env state.db context progress rawFlag).map fun wanted =>
                (session, context, wanted.1, wanted.2)
          | _ => none
      | none => none
  | _ => none

def shownTick (env : Settings) (db : Db) : Int := (loadedTimer env db).currentTick

def note (env : Settings) (noted : Noted) (event : Event) : Dict (Int × Text) Int :=
  match accepting env noted.state event with
  | some (session, _, flag, _) => noted.shown.set (session.teamId, flag) (shownTick env noted.state.db)
  | none => noted.shown

def notedStep (env : Settings) (deployment : InitDb.Deployment) (noted : Noted) (event : Event) :
    Option Noted :=
  (step env deployment noted.state event).map fun after => ⟨after, note env noted event⟩

/-- The submissions of a team that were accepted while the timer showed the tick. -/
def acceptedWhile (noted : Noted) (teamId tick : Int) : Int :=
  noted.state.db.submissions.countP fun row =>
    row.submitterTeamId = teamId && row.result = .accepted &&
      noted.shown.get? (teamId, row.flag) = some tick

/-- An accepted flag is stored under the round of the tick that the transaction has read, and
the timer still shows that tick. -/
def countedRound (env : Settings) (state : State) (event : Event) : Bool :=
  match accepting env state event with
  | some (_, context, _, info) =>
      decide (1 ≤ context.tickNow) && decide (shownTick env state.db = context.tickNow) &&
        decide ((state.db.roundOfTick info.tick).map (·.1) = some context.tickNow)
  | none => true

/-! Counting rows. -/

section Rows

theorem accepted_append (one two : List Submission) (teamId roundId : Int) :
    acceptedInRound (one ++ two) teamId roundId =
      acceptedInRound one teamId roundId + acceptedInRound two teamId roundId := by
  unfold acceptedInRound
  rw [List.countP_append]
  exact Int.natCast_add _ _

theorem accepted_none {rows : List Submission} {teamId : Int} (roundId : Int)
    (others : ∀ row ∈ rows, row.submitterTeamId ≠ teamId) : acceptedInRound rows teamId roundId = 0 := by
  unfold acceptedInRound
  rw [List.countP_eq_zero.mpr]
  · rfl
  · intro row member counted
    rw [Bool.and_eq_true, Bool.and_eq_true, decide_eq_true_eq] at counted
    exact others row member counted.1.1

theorem accepted_drop (teamId : Int) (rows : List Submission) (other roundId : Int) :
    acceptedInRound (dropSubmissions teamId rows) other roundId ≤ acceptedInRound rows other roundId := by
  unfold acceptedInRound dropSubmissions
  rw [List.countP_map]
  have same : ((fun row : Submission => decide (row.submitterTeamId = other) &&
      decide (row.roundId = some roundId) &&
      decide (row.result = .accepted)) ∘ fun row : Submission =>
        if row.targetTeamId = some teamId then { row with targetTeamId := none } else row) =
      fun row : Submission => decide (row.submitterTeamId = other) && decide (row.roundId = some roundId) &&
        decide (row.result = .accepted) := by
    funext row
    dsimp only [Function.comp]
    split <;> rfl
  rw [same]
  exact Int.ofNat_le.mpr List.filter_sublist.countP_le

end Rows

/-! The invariant. -/

/-- A session in its loop counts at least the rows of its round, and adds to none beyond the limit. -/
structure Bounded (env : Settings) (rows : List Submission) (session : Session) (context : Context)
    (progress : Progress) : Prop where
  within : ∀ roundId, acceptedInRound (rows ++ progress.pending) session.teamId roundId ≤
    env.maxAcceptedPerRound
  counted : acceptedInRound (rows ++ progress.pending) session.teamId context.currentRoundId ≤
    progress.acceptedThisRound
  reads : 1 ≤ context.tickNow → context.currentRoundId = context.tickNow

structure Capped (env : Settings) (rows : List Submission) (sessions : Sessions) : Prop where
  stored : ∀ teamId roundId, acceptedInRound rows teamId roundId ≤ env.maxAcceptedPerRound
  bounded : ∀ id session context progress remaining, sessions.get? id = some session →
    session.stage = .submitting context progress remaining → Bounded env rows session context progress

section Steps
variable {env : Settings} {clock : Int} {db : Db} {sessions : Sessions}

theorem capped_set (capped : Capped env db.submissions sessions) (id : Nat) (session : Session)
    (own : ∀ context progress remaining, session.stage = .submitting context progress remaining →
      Bounded env db.submissions session context progress) :
      Capped env db.submissions (sessions.set id session) := by
  refine ⟨capped.stored, ?_⟩
  intro other found context progress remaining present stage
  rw [Dict.get_set] at present
  split at present
  · cases present
    exact own context progress remaining stage
  · exact capped.bounded other found context progress remaining present stage

theorem capped_close (capped : Capped env db.submissions sessions) (id : Nat) :
    Capped env db.submissions (close sessions id) :=
  ⟨capped.stored, fun other found context progress remaining present =>
    capped.bounded other found context progress remaining (close_some present).1⟩

theorem prepare_bounded {session : Session} {name : String} {context : Context} {progress : Progress}
    (capped : Capped env db.submissions sessions)
    (read : prepare env db clock session.startedAt session.teamId name session.sourceIp = .ok (context,
      progress)) : Bounded env db.submissions session context progress := by
  unfold prepare at read
  split at read
  · cases read
  · next roundId round =>
    cases read
    refine ⟨?_, ?_, ?_⟩
    · rw [List.append_nil]
      exact capped.stored session.teamId
    · rw [List.append_nil]
    · intro opened
      unfold currentRoundId at round
      rw [if_pos opened] at round
      exact (Except.ok.inj round).symm

theorem classify_below_cap {context : Context} {progress : Progress} {info : FlagInfo}
    (limited : 0 < env.maxAcceptedPerRound) (accepted : classify env context progress info = .accepted) :
    progress.acceptedThisRound < env.maxAcceptedPerRound := by
  unfold classify at accepted
  split at accepted
  · split at accepted
    · cases accepted
    split at accepted
    · cases accepted
    split at accepted
    · cases accepted
    split at accepted
    · cases accepted
    split at accepted
    · cases accepted
    next below => omega
  · cases accepted

/-- A pass that accepts is counted, if its row goes to the round that the counter looks at. -/
theorem pass_bounded {busy : Int × Int → Bool} {session : Session} {context : Context}
    {progress next : Progress} {rawFlag : Text} (limited : 0 < env.maxAcceptedPerRound)
    (submitter : context.submitterId = session.teamId)
    (bounded : Bounded env db.submissions session context progress)
    (round : ∀ flag info, wantedFlag env db context progress rawFlag = some (flag, info) →
      (db.roundOfTick info.tick).map (·.1) = some context.currentRoundId)
    (done : processFlag env db busy context progress rawFlag = .ok next) :
    Bounded env db.submissions session context next := by
  rcases pass_cases done with ⟨_, counter, _, same | ⟨row, grown, refused⟩⟩ | ⟨flag, info, row, wanted,
    counter, grown, added⟩
  · refine ⟨?_, ?_, bounded.reads⟩
    · rw [same]
      exact bounded.within
    · rw [same, counter]
      exact bounded.counted
  · have none_ (roundId : Int) : acceptedInRound [row] session.teamId roundId = 0 := by
      simp [acceptedInRound, refused]
    refine ⟨?_, ?_, bounded.reads⟩
    · intro roundId
      rw [grown, ← List.append_assoc, accepted_append, none_, Int.add_zero]
      exact bounded.within roundId
    · rw [grown, ← List.append_assoc, accepted_append, none_, Int.add_zero, counter]
      exact bounded.counted
  · have stored : row.roundId = some context.currentRoundId := added.round.trans (round flag info wanted)
    have one (roundId : Int) : acceptedInRound [row] session.teamId roundId =
        if roundId = context.currentRoundId then 1 else 0 := by
      simp [acceptedInRound, added.accepted, added.submitter, submitter, stored, eq_comm]
    have below := classify_below_cap limited (wanted_accepted wanted).2.2.2
    have counted := bounded.counted
    refine ⟨?_, ?_, bounded.reads⟩
    · intro roundId
      rw [grown, ← List.append_assoc, accepted_append, one]
      split
      · next here =>
        rw [here]
        omega
      · rw [Int.add_zero]
        exact bounded.within roundId
    · rw [grown, ← List.append_assoc, accepted_append, one, if_pos rfl, counter]
      omega

theorem capped_commit (orderly : Orderly db.submissions sessions)
    (capped : Capped env db.submissions sessions) {id : Nat} {session : Session} {context : Context}
    {progress : Progress} (present : sessions.get? id = some session)
    (was : session.stage = .submitting context progress []) :
    Capped env (db.submissions ++ progress.pending) (close sessions id) := by
  have owned := orderly.owned id session context progress [] present was
  have own := capped.bounded id session context progress [] present was
  have foreign {teamId : Int} (apart : teamId ≠ session.teamId) (roundId : Int) :
      acceptedInRound progress.pending teamId roundId = 0 :=
    accepted_none roundId fun row member same => apart (same.symm.trans (owned.rows row member).1)
  refine ⟨?_, ?_⟩
  · intro teamId roundId
    by_cases mine : teamId = session.teamId
    · rw [mine]
      exact own.within roundId
    · rw [accepted_append, foreign mine, Int.add_zero]
      exact capped.stored teamId roundId
  · intro other found context' progress' remaining' presentOther stage
    obtain ⟨old, distinct⟩ := close_some presentOther
    have theirs := capped.bounded other found context' progress' remaining' old stage
    have apart : found.teamId ≠ session.teamId := fun same =>
      distinct (orderly.exclusive other id found session old present (by simp [holdsLock, stage])
        (by simp [holdsLock, was]) same)
    have same (roundId : Int) :
        acceptedInRound (db.submissions ++ progress.pending ++ progress'.pending) found.teamId roundId =
        acceptedInRound (db.submissions ++ progress'.pending) found.teamId roundId := by
      rw [accepted_append, accepted_append, foreign apart, Int.add_zero, accepted_append]
    refine ⟨?_, ?_, theirs.reads⟩
    · intro roundId
      rw [same]
      exact theirs.within roundId
    · rw [same]
      exact theirs.counted

theorem capped_drop (capped : Capped env db.submissions sessions) (teamId : Int) :
    Capped env (dropSubmissions teamId db.submissions) sessions := by
  refine ⟨fun other roundId => (accepted_drop teamId db.submissions other roundId).trans
    (capped.stored other roundId), ?_⟩
  intro id session context progress remaining present stage
  have own := capped.bounded id session context progress remaining present stage
  have fewer (roundId : Int) :
      acceptedInRound (dropSubmissions teamId db.submissions ++ progress.pending) session.teamId roundId ≤
      acceptedInRound (db.submissions ++ progress.pending) session.teamId roundId := by
    rw [accepted_append, accepted_append]
    have less := accepted_drop teamId db.submissions session.teamId roundId
    omega
  exact ⟨fun roundId => (fewer roundId).trans (own.within roundId), (fewer _).trans own.counted, own.reads⟩

theorem capped_submits {event : SubmitEvent} {rows : List Submission} {after : Sessions}
    (limited : 0 < env.maxAcceptedPerRound) (orderly : Orderly db.submissions sessions)
    (capped : Capped env db.submissions sessions)
    (round : ∀ id session context progress rawFlag remaining flag info, event = .flag id →
      sessions.get? id = some session →
      session.stage = .submitting context progress (rawFlag :: remaining) →
      wantedFlag env db context progress rawFlag = some (flag, info) →
      (db.roundOfTick info.tick).map (·.1) = some context.currentRoundId)
    (submits : Submits env clock db sessions event rows after) : Capped env rows after := by
  cases submits with
  | opened id teamId flags sourceIp fresh => exact capped_set capped id _ fun _ _ _ stage => by cases stage
  | closed event id => exact capped_close capped id
  | committed id session context progress present was => exact capped_commit orderly capped present was
  | moved event id session stage present moves =>
      apply capped_set capped id
      intro context' progress' remaining' same
      cases moves with
      | admitted was running => cases same
      | identified was name known => cases same
      | locked name was free => cases same
      | prepared name was context progress read =>
          cases same
          have own : Bounded env db.submissions session context' progress' := prepare_bounded capped read
          exact ⟨own.within, own.counted, own.reads⟩
      | processed context progress next flag remaining was done =>
          cases same
          have bounded := capped.bounded id session context' progress _ present was
          have owned := orderly.owned id session context' progress _ present was
          have own := pass_bounded limited owned.submitter bounded
            (fun flag_ info => round id session context' progress flag remaining' flag_ info rfl
              present was) done
          exact ⟨own.within, own.counted, own.reads⟩

/-! What the timer showed. -/

/-- An accepted row has the round of the tick that was noted for it. -/
def Shown (shown : Dict (Int × Text) Int) (row : Submission) : Prop :=
  row.roundId = shown.get? (row.submitterTeamId, row.flag)

/-- The flag that a pass accepts is new, so the other accepted rows keep their notes. -/
theorem shown_set {shown : Dict (Int × Text) Int} (orderly : Orderly db.submissions sessions)
    (all : AcceptedAll (Shown shown) db.submissions sessions) {id : Nat} {session : Session}
    {context : Context} {progress : Progress} {rawFlag flag : Text} {remaining : List Text}
    {info : FlagInfo} (tick : Int) (present : sessions.get? id = some session)
    (stage : session.stage = .submitting context progress (rawFlag :: remaining))
    (wanted : wantedFlag env db context progress rawFlag = some (flag, info)) :
    AcceptedAll (Shown (shown.set (session.teamId, flag) tick)) db.submissions sessions := by
  have owned := orderly.owned id session context progress _ present stage
  have fresh := (wanted_accepted wanted).2.1
  rw [owned.submitter, ← Bool.not_eq_true, submitted_iff] at fresh
  have keep (row : Submission) (before : Shown shown row)
      (apart : (session.teamId, flag) ≠ (row.submitterTeamId, row.flag)) :
      Shown (shown.set (session.teamId, flag) tick) row := by
    unfold Shown
    rw [Dict.get_set_other _ _ _ _ apart]
    exact before
  constructor
  · intro row member accepted
    apply keep row (all.stored row member accepted)
    intro same
    exact fresh (List.mem_map.mpr ⟨row, List.mem_append_left _ member, same.symm⟩)
  · intro other found row presentOther member accepted
    apply keep row (all.pending other found row presentOther member accepted)
    intro same
    by_cases here : other = id
    · subst here
      cases presentOther.symm.trans present
      rw [pendingOf, stage] at member
      exact fresh (List.mem_map.mpr ⟨row, List.mem_append_right _ member, same.symm⟩)
    · -- Pending rows of another session belong to another team.
      obtain ⟨context', progress', remaining', shape, inside⟩ := pending_stage member
      have ownedOther := orderly.owned other found context' progress' remaining' presentOther shape
      have teams : found.teamId = session.teamId :=
        (ownedOther.rows row inside).1.symm.trans (congrArg Prod.fst same).symm
      exact here (orderly.exclusive other id found session presentOther present (by simp [holdsLock, shape])
        (by simp [holdsLock, stage]) teams)

theorem shown_drop {shown : Dict (Int × Text) Int} (all : AcceptedAll (Shown shown) db.submissions sessions)
    (teamId : Int) : AcceptedAll (Shown shown) (dropSubmissions teamId db.submissions) sessions := by
  refine ⟨?_, all.pending⟩
  intro row member accepted
  obtain ⟨old, kept, rfl | rfl⟩ := drop_some member
  · exact all.stored _ kept accepted
  · exact all.stored old kept accepted

end Steps

/-! Runs. -/

structure Kept (env : Settings) (noted : Noted) : Prop where
  orderly : Orderly noted.state.db.submissions noted.state.sessions
  capped : Capped env noted.state.db.submissions noted.state.sessions
  shown : AcceptedAll (Shown noted.shown) noted.state.db.submissions noted.state.sessions

theorem accepting_pass {env : Settings} {state : State} {id : Nat} {session : Session} {context : Context}
    {progress : Progress} {rawFlag flag : Text} {remaining : List Text} {info : FlagInfo}
    (present : state.sessions.get? id = some session)
    (stage : session.stage = .submitting context progress (rawFlag :: remaining))
    (wanted : wantedFlag env state.db context progress rawFlag = some (flag, info)) :
    accepting env state (.submit (.flag id)) = some (session, context, flag, info) := by
  simp only [accepting, present, stage, wanted, Option.map_some]

theorem accepting_some {env : Settings} {state : State} {event : Event} {session : Session}
    {context : Context} {flag : Text} {info : FlagInfo}
    (accepts : accepting env state event = some (session, context, flag, info)) :
    ∃ id progress rawFlag remaining, event = .submit (.flag id) ∧ state.sessions.get? id = some session ∧
      session.stage = .submitting context progress (rawFlag :: remaining) ∧
      wantedFlag env state.db context progress rawFlag = some (flag, info) := by
  unfold accepting at accepts
  split at accepts
  · next id =>
    split at accepts
    · next found present =>
      split at accepts
      · next context' progress rawFlag remaining stage =>
        obtain ⟨⟨flag', info'⟩, wanted, same⟩ := Option.map_eq_some_iff.mp accepts
        cases same
        exact ⟨id, progress, rawFlag, remaining, rfl, present, stage, wanted⟩
      · cases accepts
    · cases accepts
  · cases accepts

/-- The round under which an accepted flag is stored. -/
theorem counted_round {env : Settings} {state : State} {event : Event} {session : Session}
    {context : Context} {flag : Text} {info : FlagInfo} (met : countedRound env state event = true)
    (accepts : accepting env state event = some (session, context, flag, info)) :
    1 ≤ context.tickNow ∧ shownTick env state.db = context.tickNow ∧
      (state.db.roundOfTick info.tick).map (·.1) = some context.tickNow := by
  simp only [countedRound, accepts, Bool.and_eq_true, decide_eq_true_eq] at met
  exact ⟨met.1.1, met.1.2, met.2⟩

theorem noted_shown {env : Settings} {noted : Noted} (kept : Kept env noted) (event : Event) :
    AcceptedAll (Shown (note env noted event)) noted.state.db.submissions noted.state.sessions := by
  unfold note
  split
  · next session context flag info accepts =>
    obtain ⟨id, progress, rawFlag, remaining, _, present, stage, wanted⟩ := accepting_some accepts
    exact shown_set kept.orderly kept.shown _ present stage wanted
  · exact kept.shown

theorem kept_submits {env : Settings} {noted : Noted} {event : SubmitEvent} {rows : List Submission}
    {after : Sessions} (limited : 0 < env.maxAcceptedPerRound) (kept : Kept env noted)
    (met : countedRound env noted.state (.submit event) = true)
    (submits : Submits env noted.state.clock noted.state.db noted.state.sessions event rows after) :
    Capped env rows after ∧ AcceptedAll (Shown (note env noted (.submit event))) rows after := by
  constructor
  · apply capped_submits limited kept.orderly kept.capped _ submits
    intro id session context progress rawFlag remaining flag info same present stage wanted
    subst same
    have accepts := accepting_pass present stage wanted
    obtain ⟨opened, _, round⟩ := counted_round met accepts
    rw [(kept.capped.bounded id session context progress _ present stage).reads opened]
    exact round
  · apply accepted_passes (noted_shown kept (.submit event)) submits
    intro id session context progress next rawFlag remaining row same present stage done grown accepted
    subst same
    rcases pass_cases done with ⟨_, _, _, none_ | ⟨other, added, refused⟩⟩ | ⟨flag, info, other, wanted,
      _, added, new⟩
    · rw [none_] at grown
      exact absurd (List.self_eq_append_right.mp grown) (List.cons_ne_nil _ _)
    · rw [added] at grown
      cases List.append_cancel_left grown
      exact absurd accepted refused
    · rw [added] at grown
      cases List.append_cancel_left grown
      have accepts := accepting_pass present stage wanted
      obtain ⟨_, shows, round⟩ := counted_round met accepts
      have owned := kept.orderly.owned id session context progress _ present stage
      unfold Shown note
      rw [accepts, new.round, round, new.submitter, owned.submitter, new.flag, Dict.get_set_self, shows]

theorem kept_step {env : Settings} {deployment : InitDb.Deployment} {before after : Noted}
    {event : Event} (limited : 0 < env.maxAcceptedPerRound) (kept : Kept env before)
    (met : countedRound env before.state event = true)
    (taken : notedStep env deployment before event = some after) : Kept env after := by
  obtain ⟨state, stepped, same⟩ := Option.map_eq_some_iff.mp taken
  subst same
  have orderly := orderly_step kept.orderly stepped
  have quiet (notSubmit : ∀ submit, event ≠ .submit submit) : note env before event = before.shown := by
    unfold note
    cases accepts : accepting env before.state event with
    | none => rfl
    | some found =>
        obtain ⟨id, _, _, _, here, _⟩ := accepting_some accepts
        exact absurd here (notSubmit _)
  rcases step_submissions stepped with ⟨submit, here, _, submits⟩ | ⟨teamId, here, _, sessions,
    rows⟩ | ⟨rows, sessions⟩
  · subst here
    obtain ⟨capped, shown⟩ := kept_submits limited kept met submits
    exact ⟨orderly, capped, shown⟩
  · subst here
    have noted := quiet fun submit never => by cases never
    refine ⟨orderly, ?_, ?_⟩
    · rw [sessions, rows]
      exact capped_drop kept.capped teamId
    · rw [sessions, rows, noted]
      exact shown_drop kept.shown teamId
  · refine ⟨orderly, ?_, ?_⟩
    · rw [sessions, rows]
      exact kept.capped
    · rw [sessions, rows]
      exact noted_shown kept event

def start (clock : Int) : Noted := ⟨initial clock, Dict.empty⟩

theorem kept_start {env : Settings} (limited : 0 < env.maxAcceptedPerRound) (clock : Int) :
    Kept env (start clock) := by
  refine ⟨orderly_initial, ⟨?_, ?_⟩, accepted_initial _⟩
  · intro teamId roundId
    exact limited.le
  · intro id session context progress remaining present
    cases present

/-- If every accepted flag is stored under the round of the tick that the timer shows, no team gets
more than the limit accepted while the timer shows the same tick. -/
theorem cap_holds (env : Settings) (deployment : InitDb.Deployment) (clock : Int) (noted : Noted)
    (teamId tick : Int) (limited : 0 < env.maxAcceptedPerRound)
    (run : Steps (notedStep env deployment) (fun noted event => countedRound env noted.state event = true)
      (start clock) noted) : acceptedWhile noted teamId tick ≤ env.maxAcceptedPerRound := by
  have kept := steps_invariant (Kept env) (fun _ _ _ kept met taken => kept_step limited kept met taken)
    (kept_start limited clock) run
  refine le_trans ?_ (kept.capped.stored teamId tick)
  unfold acceptedWhile acceptedInRound
  apply Int.ofNat_le.mpr
  apply List.countP_mono_left
  intro row member counted
  simp only [Bool.and_eq_true, decide_eq_true_eq] at counted ⊢
  obtain ⟨⟨submitter, accepted⟩, shown⟩ := counted
  have round := kept.shown.stored row member accepted
  rw [Shown, submitter, shown] at round
  exact ⟨⟨submitter, round⟩, accepted⟩

/-! A limit of one flag. -/

def oneFlag : Settings := { sampleSettings with maxAcceptedPerRound := 1 }

def notedTo (events : List Event) : Noted :=
  (exec (notedStep oneFlag sampleDeployment)
    (fun noted event => countedRound oneFlag noted.state event = true)
    (start 1000000000) events).getD (start 0)

/-- Another flag of team 2 in tick 1. -/
def otherFlag : Text := makeFlag oneFlag 1 2 1 1

def limitReached : List Event := firstTick ++ submission 0 1 betaFlag ++ submission 1 1 otherFlag

theorem limit_of_one_kept : acceptedWhile (notedTo limitReached) 1 1 ≤ 1 :=
  cap_holds oneFlag sampleDeployment 1000000000 (notedTo limitReached) 1 1 (by decide)
    (exec_steps limitReached _ _ (by decide +kernel))

/-- The timer shows tick 2 when team 1 submits two flags of tick 1, in two calls. -/
def lateFlags : List Event :=
  firstTick ++ [.clock 1120000000] ++ endIteration ++ bootstrapIteration 3 ++ submission 0 1 betaFlag ++
    submission 1 1 otherFlag

theorem old_flags_pass_limit :
    ∃ noted, exec (notedStep oneFlag sampleDeployment) (fun _ _ => True)
      (start 1000000000) lateFlags = some noted ∧
      oneFlag.maxAcceptedPerRound = 1 ∧ acceptedWhile noted 1 2 = 2 := by
  refine ⟨(exec (notedStep oneFlag sampleDeployment) (fun _ _ => True) (start 1000000000)
    lateFlags).getD (start 0), ?_⟩
  decide +kernel

end KosSim.RoundCap
