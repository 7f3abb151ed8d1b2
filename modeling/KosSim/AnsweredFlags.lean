import KosSim.RoundCap
import KosSim.TickClosing

/-!
The answers of submit_flags over a game whose teams stay. A call that finds the game
running and commits has left a row for every string that it has answered, whatever the
answer was, and the duplicate test looks at rows of every result. So an authentic flag
in the window and below the cap is accepted when its string has never had an answer
other than `offline`, and answered `duplicate` otherwise: a temporary rejection uses
the string up.
-/

namespace KosSim.AnsweredFlags
open Library Schema FlagCrypto FlagSubmit AdminTeams Platform PlatformFrames SubmitSessions TickRounds

/-- A run with the answers of the calls that have committed. -/
structure Answering where
  state : State
  answered : List (Int × Text × SubmitStatus)
  deriving DecidableEq

/-- The answers of the call that a step commits, or that the gate turns away. -/
def answers (env : Settings) (state : State) : Event → List (Int × Text × SubmitStatus)
  | .submit (.gate id) =>
      match state.sessions.get? id with
      | some session =>
          if gameRunning env state.db then []
          else (offlineRows session.flags).map fun row => (session.teamId, row.flag, row.status)
      | none => []
  | .submit (.commit id) =>
      match state.sessions.get? id with
      | some session =>
          match session.stage with
          | .submitting _ progress [] =>
              progress.resultRows.map fun row => (session.teamId, row.flag, row.status)
          | _ => []
      | none => []
  | _ => []

def answeringStep (env : Settings) (deployment : InitDb.Deployment) (answering : Answering)
    (event : Event) :
    Option Answering :=
  (step env deployment answering.state event).map fun after =>
    ⟨after, answering.answered ++ answers env answering.state event⟩

/-- The answers that use a string up: all but `offline`. -/
def lasting (answered : List (Int × Text × SubmitStatus)) : List (Int × Text) :=
  (answered.filter fun entry => entry.2.2 ≠ .offline).map fun entry => (entry.1, entry.2.1)

/-- The team has had a lasting answer for the string in a call that has committed, or in this one. -/
def answeredBefore (answering : Answering) (teamId : Int) (progress : Progress) (flag : Text) : Prop :=
  (teamId, flag) ∈ lasting answering.answered ∨ flag ∈ progress.resultRows.map (·.flag)

instance (answering : Answering) (teamId : Int) (progress : Progress) (flag : Text) :
    Decidable (answeredBefore answering teamId progress flag) :=
  inferInstanceAs (Decidable (_ ∨ _))

def belowCap (env : Settings) (progress : Progress) : Prop :=
  0 < env.maxAcceptedPerRound → progress.acceptedThisRound < env.maxAcceptedPerRound

instance (env : Settings) (progress : Progress) : Decidable (belowCap env progress) :=
  inferInstanceAs (Decidable (_ → _))

/-! One pass. -/

section Pass
variable {env : Settings} {db : Db} {busy : Int × Int → Bool} {context : Context} {progress next : Progress}
  {rawFlag : Text}

theorem classify_running (info : FlagInfo) : classify env context progress info ≠ .offline := by
  unfold classify
  split
  · repeat' split
    all_goals exact nofun
  · exact nofun

/-- A pass over something answers it, and leaves a row of the string in any case. -/
theorem pass_answers (done : processFlag env db busy context progress rawFlag = .ok next) :
    (strip rawFlag = [] ∧ next = progress) ∨
      ∃ row, next.resultRows = progress.resultRows ++ [row] ∧ row.flag = strip rawFlag ∧
      row.status ≠ .offline ∧ (next.pending = progress.pending ∧
            submitted (db.submissions ++ progress.pending) context.submitterId (strip rawFlag) = true ∨
          ∃ inserted, next.pending = progress.pending ++ [inserted] ∧
          ident inserted = (context.submitterId, strip rawFlag)) := by
  unfold processFlag at done
  dsimp only at done
  split at done
  · next nothing =>
    cases done
    exact Or.inl ⟨nothing, rfl⟩
  split at done
  · cases done
  split at done
  · next old =>
    cases done
    exact Or.inr ⟨_, rfl, rfl, nofun, Or.inl ⟨rfl, old⟩⟩
  split at done
  · unfold processInvalid at done
    dsimp only at done
    split at done
    · cases done
    · next pending inserted =>
      cases done
      exact Or.inr ⟨_, rfl, rfl, nofun, Or.inr ⟨_, (insert_cases inserted).1, rfl⟩⟩
  · unfold processDecoded at done
    dsimp only at done
    split at done
    · cases done
    · next pending inserted =>
      cases done
      exact Or.inr ⟨_, rfl, rfl, classify_running _, Or.inr ⟨_, (insert_cases inserted).1, rfl⟩⟩

theorem decode_nil (env : Settings) : decodeFlag env [] = none := rfl

theorem classify_accepts {target : Team} {service : Service} {info : FlagInfo}
    (known : context.teamMeta.get? info.teamId = some target)
    (served : context.serviceMeta.get? info.serviceId = some service)
    (foreign : info.teamId ≠ context.submitterId) (playing_ : target.isNop = false)
    (oldest : oldestAcceptableTick env context.tickNow ≤ info.tick)
    (newest : info.tick ≤ context.tickNow) (below : belowCap env progress) :
    classify env context progress info = .accepted := by
  have open_ : ¬(0 < env.maxAcceptedPerRound ∧ env.maxAcceptedPerRound ≤ progress.acceptedThisRound) := by
    rintro ⟨limited, full⟩
    have room := below limited
    omega
  simp only [classify, known, served, foreign, playing_, Int.not_lt.mpr oldest,
    Int.not_lt.mpr newest, open_, Bool.false_eq_true, ↓reduceIte]

/-- A string of which the team has a row is a duplicate. -/
theorem pass_duplicate (busy : Int × Int → Bool) {info : FlagInfo}
    (authentic : decodeFlag env (strip rawFlag) = some info)
    (old : submitted (db.submissions ++ progress.pending) context.submitterId (strip rawFlag) = true) :
    ∃ next row, processFlag env db busy context progress rawFlag = .ok next ∧
      next.resultRows = progress.resultRows ++ [row] ∧ row.flag = strip rawFlag ∧
      row.status = .duplicate := by
  have something : strip rawFlag ≠ [] := by
    intro nothing
    rw [nothing, decode_nil] at authentic
    cases authentic
  unfold processFlag
  dsimp only
  rw [if_neg something, if_neg (Bool.eq_false_iff.mp (decoded_plain authentic).1), if_pos old]
  exact ⟨_, _, rfl, rfl, rfl, rfl⟩

/-- A new string that is to be accepted is accepted, when its references exist. -/
theorem pass_accepted (busy : Int × Int → Bool) {info : FlagInfo}
    (authentic : decodeFlag env (strip rawFlag) = some info)
    (fresh : submitted (db.submissions ++ progress.pending) context.submitterId (strip rawFlag) = false)
    (accepted : classify env context progress info = .accepted)
    (submitter : db.teams.contains context.submitterId = true) (teams : context.teamMeta = db.teams)
    (services : context.serviceMeta = db.services) :
    ∃ next row, processFlag env db busy context progress rawFlag = .ok next ∧
      next.resultRows = progress.resultRows ++ [row] ∧ row.flag = strip rawFlag ∧
      row.status = .accepted := by
  have something : strip rawFlag ≠ [] := by
    intro nothing
    rw [nothing, decode_nil] at authentic
    cases authentic
  obtain ⟨target, service, foundTarget, foundService, _⟩ := classify_known accepted
  have targets : db.teams.contains info.teamId = true :=
    (Dict.contains_eq_some _ _).mpr ⟨target, teams ▸ foundTarget⟩
  have serves : db.services.contains info.serviceId = true :=
    (Dict.contains_eq_some _ _).mpr ⟨service, services ▸ foundService⟩
  have rounds : nullOr db.flagRounds.contains ((db.roundOfTick info.tick).map (·.1)) = true := by
    cases found : db.roundOfTick info.tick with
    | none => rfl
    | some entry =>
        have stored := (Dict.mem_entries_iff _ _ _).mp (List.mem_of_find?_eq_some found)
        exact (Dict.contains_eq_some _ _).mpr ⟨entry.2, stored⟩
  unfold processFlag
  dsimp only
  obtain ⟨plain, fits⟩ := decoded_plain authentic
  rw [if_neg something, plain, fresh, authentic]
  simp only [Bool.false_eq_true, Bool.true_eq_false, ↓reduceIte, processDecoded, accepted,
    insertSubmission, fresh, fits, submissionRefs, foundTarget, foundService, Option.map_some,
    submitter, nullOr, targets, serves, Bool.and_self, Bool.true_and]
  unfold nullOr at rounds
  rw [rounds]
  exact ⟨_, _, rfl, rfl, rfl, rfl⟩

end Pass

/-! The invariant. -/

/-- The tables a session refers to are still there as it has read them. -/
structure Seated (db : Db) (sessions : Sessions) : Prop where
  known : ∀ id session, sessions.get? id = some session → session.stage ≠ .begun →
    session.stage ≠ .admitted → db.teams.contains session.teamId = true
  tables : ∀ id session context progress remaining, sessions.get? id = some session →
    session.stage = .submitting context progress remaining → context.teamMeta = db.teams ∧
    context.serviceMeta = db.services

/-- The strings of a team's rows are the strings that have had a lasting answer. -/
structure Recorded (rows : List Submission) (sessions : Sessions)
    (answered : List (Int × Text × SubmitStatus)) : Prop where
  stored : ∀ teamId flag, submitted rows teamId flag = true ↔ (teamId, flag) ∈ lasting answered
  pending : ∀ id session context progress remaining, sessions.get? id = some session →
    session.stage = .submitting context progress remaining → ∀ flag,
      submitted (rows ++ progress.pending) session.teamId flag = true ↔
        submitted rows session.teamId flag = true ∨ flag ∈ progress.resultRows.map (·.flag)
  running : ∀ id session context progress remaining, sessions.get? id = some session →
    session.stage = .submitting context progress remaining → ∀ row ∈ progress.resultRows,
    row.status ≠ .offline

section Steps
variable {env : Settings} {clock : Int} {db : Db} {sessions : Sessions}

theorem lasting_append (one two : List (Int × Text × SubmitStatus)) :
    lasting (one ++ two) = lasting one ++ lasting two := by
  unfold lasting
  rw [List.filter_append, List.map_append]

theorem submitted_others {rows : List Submission} {teamId : Int} (flag : Text)
    (others : ∀ row ∈ rows, row.submitterTeamId ≠ teamId) : submitted rows teamId flag = false := by
  rw [submitted, List.any_eq_false]
  intro row member same
  rw [Bool.and_eq_true, decide_eq_true_eq] at same
  exact others row member same.1

theorem seated_submits {event : SubmitEvent} {rows : List Submission} {after : Sessions}
    (seated : Seated db sessions) (submits : Submits env clock db sessions event rows after) :
    Seated db after := by
  cases submits with
  | opened id teamId flags sourceIp fresh =>
      constructor
      · intro other session present begun
        rw [Dict.get_set] at present
        split at present
        · cases present
          exact absurd rfl begun
        · exact seated.known other session present begun
      · intro other session context progress remaining present stage
        rw [Dict.get_set] at present
        split at present
        · cases present
          cases stage
        · exact seated.tables other session context progress remaining present stage
  | closed event id =>
      exact ⟨fun other session present => seated.known other session (close_some present).1,
        fun other session context progress remaining present =>
          seated.tables other session context progress remaining (close_some present).1⟩
  | committed id session context progress present was =>
      exact ⟨fun other found there => seated.known other found (close_some there).1,
        fun other found context progress remaining there =>
          seated.tables other found context progress remaining (close_some there).1⟩
  | moved event id session stage present moves =>
      constructor
      · intro other found presentOther begun admitted
        rcases set_stage_some presentOther with ⟨_, same⟩ | ⟨_, stored⟩
        · subst same
          cases moves with
          | admitted was running => exact absurd rfl admitted
          | identified was name known =>
              unfold identify at known
              split at known
              · cases known
              · next team here => exact (Dict.contains_eq_some _ _).mpr ⟨team, here⟩
          | locked name was free => exact seated.known id session present (by simp [was]) (by simp [was])
          | prepared name was context progress read =>
              exact seated.known id session present (by simp [was]) (by simp [was])
          | processed context progress next flag remaining was done =>
              exact seated.known id session present (by simp [was]) (by simp [was])
        · exact seated.known other found stored begun admitted
      · intro other found context' progress' remaining' presentOther shape
        rcases set_stage_some presentOther with ⟨_, same⟩ | ⟨_, stored⟩
        · subst same
          cases moves with
          | admitted was running => cases shape
          | identified was name known => cases shape
          | locked name was free => cases shape
          | prepared name was context progress read =>
              cases shape
              obtain ⟨_, _, _, teams, services, _⟩ := prepare_cases read
              exact ⟨teams, services⟩
          | processed context progress next flag remaining was done =>
              cases shape
              exact seated.tables id session context' progress _ present was
        · exact seated.tables other found context' progress' remaining' stored shape

/-- The pass answers the string for which it leaves a row. -/
theorem pass_recorded {busy : Int × Int → Bool} {session : Session} {context : Context}
    {progress next : Progress} {rawFlag : Text} (submitter : context.submitterId = session.teamId)
    (recorded : ∀ flag, submitted (db.submissions ++ progress.pending) session.teamId flag = true ↔
      submitted db.submissions session.teamId flag = true ∨ flag ∈ progress.resultRows.map (·.flag))
    (done : processFlag env db busy context progress rawFlag = .ok next) (flag : Text) :
    submitted (db.submissions ++ next.pending) session.teamId flag = true ↔
      submitted db.submissions session.teamId flag = true ∨ flag ∈ next.resultRows.map (·.flag) := by
  rcases pass_answers done with ⟨_, same⟩ | ⟨row, results, named, _,
    ⟨pending, old⟩ | ⟨inserted, pending, identity⟩⟩
  · rw [same]
    exact recorded flag
  · rw [submitter, recorded] at old
    rw [pending, recorded, results, List.map_append, List.mem_append, List.map_singleton,
      List.mem_singleton, named]
    constructor
    · rintro (stored | answered)
      · exact Or.inl stored
      · exact Or.inr (Or.inl answered)
    · rintro (stored | answered | here)
      · exact Or.inl stored
      · exact Or.inr answered
      · exact here ▸ old
  · have one : submitted [inserted] session.teamId flag = true ↔ flag = strip rawFlag := by
      rw [submitted_iff, List.map_singleton, List.mem_singleton, identity, submitter, Prod.mk.injEq]
      exact and_iff_right rfl
    rw [pending, ← List.append_assoc, submitted_append, Bool.or_eq_true, recorded, one, results,
      List.map_append, List.mem_append, List.map_singleton, List.mem_singleton, named, or_assoc]

theorem pass_running {busy : Int × Int → Bool} {context : Context} {progress next : Progress}
    {rawFlag : Text} (running : ∀ row ∈ progress.resultRows, row.status ≠ .offline)
    (done : processFlag env db busy context progress rawFlag = .ok next) :
    ∀ row ∈ next.resultRows, row.status ≠ .offline := by
  rcases pass_answers done with ⟨_, same⟩ | ⟨shown, results, _, status, _⟩
  · rw [same]
    exact running
  · intro row member
    rw [results, List.mem_append, List.mem_singleton] at member
    rcases member with old | here
    · exact running row old
    · exact here ▸ status

theorem recorded_set {rows : List Submission} {answered : List (Int × Text × SubmitStatus)}
    (recorded : Recorded rows sessions answered) (id : Nat) (session : Session)
    (own : ∀ context progress remaining, session.stage = .submitting context progress remaining →
      (∀ flag, submitted (rows ++ progress.pending) session.teamId flag = true ↔
        submitted rows session.teamId flag = true ∨ flag ∈ progress.resultRows.map (·.flag)) ∧
      ∀ row ∈ progress.resultRows, row.status ≠ .offline) :
    Recorded rows (sessions.set id session) answered := by
  refine ⟨recorded.stored, ?_, ?_⟩
  all_goals
    intro other found context progress remaining present stage
    rw [Dict.get_set] at present
    split at present
  · cases present
    exact (own context progress remaining stage).1
  · exact recorded.pending other found context progress remaining present stage
  · cases present
    exact (own context progress remaining stage).2
  · exact recorded.running other found context progress remaining present stage

theorem recorded_close {rows : List Submission} {answered : List (Int × Text × SubmitStatus)}
    (recorded : Recorded rows sessions answered) (id : Nat) : Recorded rows (close sessions id) answered :=
  ⟨recorded.stored, fun other found context progress remaining present =>
    recorded.pending other found context progress remaining (close_some present).1,
    fun other found context progress remaining present =>
    recorded.running other found context progress remaining (close_some present).1⟩

theorem recorded_commit {answered : List (Int × Text × SubmitStatus)}
    (orderly : Orderly db.submissions sessions)
    (recorded : Recorded db.submissions sessions answered) {id : Nat} {session : Session}
    {context : Context} {progress : Progress} (present : sessions.get? id = some session)
    (was : session.stage = .submitting context progress []) :
    Recorded (db.submissions ++ progress.pending) (close sessions id)
      (answered ++ progress.resultRows.map fun row => (session.teamId, row.flag, row.status)) := by
  have shown : lasting (progress.resultRows.map fun row => (session.teamId, row.flag, row.status)) =
      progress.resultRows.map fun row => (session.teamId, row.flag) := by
    have all := recorded.running id session context progress [] present was
    have kept : (progress.resultRows.map fun row => (session.teamId, row.flag, row.status)).filter
        (fun entry => entry.2.2 ≠ .offline) = progress.resultRows.map fun row =>
        (session.teamId, row.flag, row.status) := by
      rw [List.filter_eq_self]
      intro entry member
      obtain ⟨row, inside, same⟩ := List.mem_map.mp member
      rw [← same]
      exact decide_eq_true (all row inside)
    rw [lasting, kept, List.map_map]
    rfl
  have owned := orderly.owned id session context progress [] present was
  have own := recorded.pending id session context progress [] present was
  have foreign {teamId : Int} (apart : teamId ≠ session.teamId) (flag : Text) :
      submitted progress.pending teamId flag = false :=
    submitted_others flag fun row member same => apart (same.symm.trans (owned.rows row member).1)
  constructor
  · intro teamId flag
    rw [lasting_append, shown, List.mem_append]
    by_cases mine : teamId = session.teamId
    · subst mine
      rw [own flag, recorded.stored]
      simp only [List.mem_map, Prod.mk.injEq, true_and]
    · rw [submitted_append, foreign mine, Bool.or_false, recorded.stored]
      constructor
      · exact Or.inl
      · rintro (old | new)
        · exact old
        · obtain ⟨row, _, same⟩ := List.mem_map.mp new
          exact absurd (congrArg Prod.fst same).symm mine
  · intro other found context' progress' remaining' presentOther stage flag
    obtain ⟨old, distinct⟩ := close_some presentOther
    have theirs := recorded.pending other found context' progress' remaining' old stage flag
    have apart : found.teamId ≠ session.teamId := fun same =>
      distinct (orderly.exclusive other id found session old present (by simp [holdsLock, stage])
        (by simp [holdsLock, was]) same)
    rw [submitted_append] at theirs
    rw [submitted_append, submitted_append, foreign apart, Bool.or_false]
    exact theirs
  · exact fun other found context' progress' remaining' there =>
      recorded.running other found context' progress' remaining' (close_some there).1

theorem commit_step {id : Nat} {rows : List Submission} {after : Sessions}
    (taken : submitStep env clock db sessions (.commit id) = some (rows, after)) :
    ∃ session context progress, sessions.get? id = some session ∧
      session.stage = .submitting context progress [] ∧
      rows = db.submissions ++ progress.pending ∧ after = close sessions id := by
  simp only [submitStep] at taken
  split at taken
  · next session present =>
    split at taken
    · next context progress was =>
      cases taken
      exact ⟨session, context, progress, present, was, rfl, rfl⟩
    · cases taken
  · cases taken

theorem recorded_submits {answered : List (Int × Text × SubmitStatus)} {event : SubmitEvent}
    {rows : List Submission} {after : Sessions} (orderly : Orderly db.submissions sessions)
    (recorded : Recorded db.submissions sessions answered) (notCommit : ∀ id, event ≠ .commit id)
    (submits : Submits env clock db sessions event rows after) :
    Recorded rows after answered := by
  cases submits with
  | opened id teamId flags sourceIp fresh =>
      exact recorded_set recorded id _ fun _ _ _ stage => by cases stage
  | closed event id => exact recorded_close recorded id
  | committed id session context progress present was => exact absurd rfl (notCommit id)
  | moved event id session stage present moves =>
      apply recorded_set recorded id
      intro context' progress' remaining' same
      cases moves with
      | admitted was running => cases same
      | identified was name known => cases same
      | locked name was free => cases same
      | prepared name was context progress read =>
          cases same
          obtain ⟨_, _, _, _, _, _, empty, nothing⟩ := prepare_cases read
          rw [nothing]
          refine ⟨?_, fun row member => (List.not_mem_nil member).elim⟩
          intro flag
          rw [empty, List.append_nil]
          simp
      | processed context progress next flag remaining was done =>
          cases same
          have owned := orderly.owned id session context' progress _ present was
          refine ⟨pass_recorded owned.submitter
            (recorded.pending id session context' progress _ present was) done, ?_⟩
          exact pass_running (recorded.running id session context' progress _ present was) done

end Steps

/-! Runs. -/

structure Answered (answering : Answering) : Prop where
  orderly : Orderly answering.state.db.submissions answering.state.sessions
  seated : Seated answering.state.db answering.state.sessions
  recorded : Recorded answering.state.db.submissions answering.state.sessions answering.answered

theorem seated_same {db after : Db} {sessions : Sessions} (seated : Seated db sessions)
    (teams : after.teams = db.teams) (services : after.services = db.services) :
    Seated after sessions := by
  constructor
  · rw [teams]
    exact seated.known
  · rw [teams, services]
    exact seated.tables

theorem recorded_answers {rows : List Submission} {sessions : Sessions}
    {one two : List (Int × Text × SubmitStatus)} (recorded : Recorded rows sessions one)
    (same : lasting two = lasting one) : Recorded rows sessions two :=
  ⟨same.symm ▸ recorded.stored, recorded.pending, recorded.running⟩

/-- The gate answers `offline` only. -/
theorem other_answers (env : Settings) (state : State) {event : Event}
    (notCommit : ∀ id, event ≠ .submit (.commit id)) :
    lasting (answers env state event) = [] := by
  unfold answers
  split
  · split
    · split
      · rfl
      · rw [lasting, List.map_eq_nil_iff, List.filter_eq_nil_iff]
        intro entry member
        obtain ⟨row, inside, same⟩ := List.mem_map.mp member
        obtain ⟨flag, _, made⟩ := List.mem_map.mp inside
        rw [← same, ← made]
        exact of_decide_eq_true rfl
    · rfl
  · next id => exact absurd rfl (notCommit id)
  · rfl

theorem answered_step {env : Settings} {deployment : InitDb.Deployment} {before after : Answering}
    {event : Event} (answered : Answered before) (met : playing event = true)
    (taken : answeringStep env deployment before event = some after) : Answered after := by
  obtain ⟨state, stepped, same⟩ := Option.map_eq_some_iff.mp taken
  subst same
  have orderly := orderly_step answered.orderly stepped
  have silent (notCommit : ∀ id, event ≠ .submit (.commit id)) :
      lasting (before.answered ++ answers env before.state event) = lasting before.answered := by
    rw [lasting_append, other_answers env before.state notCommit, List.append_nil]
  by_cases commit : ∃ id, event = .submit (.commit id)
  · obtain ⟨id, rfl⟩ := commit
    obtain ⟨⟨rows, sessions⟩, moved, same⟩ := Option.map_eq_some_iff.mp stepped
    subst same
    have seats :=
      seated_submits answered.seated (submit_step_cases env _ _ _ (.commit id) rows sessions moved)
    obtain ⟨session, context, progress, present, was, grown, closed⟩ := commit_step moved
    subst grown closed
    refine ⟨orderly, seated_same seats rfl rfl, ?_⟩
    have given : answers env before.state (.submit (.commit id)) =
        progress.resultRows.map fun row => (session.teamId, row.flag, row.status) := by
      simp only [answers, present, was]
    rw [given]
    exact recorded_commit answered.orderly answered.recorded present was
  have shown := silent fun id same => commit ⟨id, same⟩
  cases play_cases met stepped with
  | clock now => exact ⟨orderly, answered.seated, recorded_answers answered.recorded shown⟩
  | worker event checker tasks worked =>
      exact ⟨orderly, seated_same answered.seated rfl rfl, recorded_answers answered.recorded shown⟩
  | command event row idle commands =>
      exact ⟨orderly, seated_same answered.seated rfl rfl, recorded_answers answered.recorded shown⟩
  | submit event rows sessions submits =>
      have seats := seated_submits answered.seated submits
      have recorded := recorded_submits answered.orderly answered.recorded
        (fun id same => commit ⟨id, congrArg _ same⟩) submits
      exact ⟨orderly, seated_same seats rfl rfl, recorded_answers recorded shown⟩
  | rotator event db loop rotates =>
      obtain ⟨⟨db', loop'⟩, moved, same⟩ := Option.map_eq_some_iff.mp stepped
      obtain ⟨rfl, rfl⟩ : db' = db ∧ loop' = loop := by
        injection same with _ one two
        exact ⟨one, two⟩
      have entries := rotator_entries moved
      refine ⟨orderly, seated_same answered.seated entries.teams entries.services, ?_⟩
      show Recorded db'.submissions _ _
      rw [entries.submissions]
      exact recorded_answers answered.recorded shown

theorem answered_start {state : State} (blank : state.db.submissions = [])
    (alone : state.sessions = Dict.empty) :
    Answered ⟨state, []⟩ := by
  have nobody (id : Nat) : state.sessions.get? id = none := by rw [alone]; rfl
  refine ⟨?_, ⟨?_, ?_⟩, ⟨?_, ?_, ?_⟩⟩
  · show Orderly state.db.submissions state.sessions
    rw [blank, alone]
    exact orderly_initial
  · intro id session present
    cases (nobody id).symm.trans present
  · intro id session context progress remaining present
    cases (nobody id).symm.trans present
  · intro teamId flag
    show submitted state.db.submissions teamId flag = true ↔ _
    rw [blank]
    exact ⟨fun never => (by cases never), fun never => (by cases never)⟩
  · intro id session context progress remaining present
    cases (nobody id).symm.trans present
  · intro id session context progress remaining present
    cases (nobody id).symm.trans present

/-- In a game whose teams stay, a pass over an authentic flag of another, non-NOP team in the window
and below the cap accepts it if the team has had no lasting answer for its string, and answers
duplicate if it has. -/
theorem accepted_unless_answered (env : Settings) (deployment : InitDb.Deployment) (start : State)
    (answering : Answering) (blank : start.db.submissions = [])
    (alone : start.sessions = Dict.empty)
    (run : Steps (answeringStep env deployment) (fun _ event => playing event = true) ⟨start, []⟩ answering)
    (id : Nat) (session : Session) (context : Context) (progress : Progress) (rawFlag : Text)
    (remaining : List Text) (present : answering.state.sessions.get? id = some session)
    (stage : session.stage = .submitting context progress (rawFlag :: remaining)) (info : FlagInfo)
    (target : Team) (service : Service) (authentic : decodeFlag env (strip rawFlag) = some info)
    (known : answering.state.db.teams.get? info.teamId = some target)
    (served : answering.state.db.services.get? info.serviceId = some service)
    (foreign : info.teamId ≠ session.teamId) (opponent : target.isNop = false)
    (oldest : oldestAcceptableTick env context.tickNow ≤ info.tick)
    (newest : info.tick ≤ context.tickNow) (below : belowCap env progress) :
    ∃ next row, processFlag env answering.state.db (busyKeys answering.state.sessions id) context
      progress rawFlag = .ok next ∧
      next.resultRows = progress.resultRows ++ [row] ∧ row.flag = strip rawFlag ∧
      (row.status = .duplicate ↔ answeredBefore answering session.teamId progress (strip rawFlag)) ∧
      (row.status = .accepted ↔ ¬answeredBefore answering session.teamId progress (strip rawFlag)) := by
  have kept := steps_invariant Answered (fun _ _ _ kept met taken => answered_step kept met taken)
    (answered_start blank alone) run
  have owned := kept.orderly.owned id session context progress _ present stage
  obtain ⟨teams, services⟩ := kept.seated.tables id session context progress _ present stage
  have history : submitted (answering.state.db.submissions ++ progress.pending) context.submitterId
      (strip rawFlag) = true ↔
      answeredBefore answering session.teamId progress (strip rawFlag) := by
    rw [owned.submitter, kept.recorded.pending id session context progress _ present stage,
      kept.recorded.stored]
    rfl
  by_cases before : answeredBefore answering session.teamId progress (strip rawFlag)
  · obtain ⟨next, row, done, results, named, status⟩ :=
      pass_duplicate (busyKeys answering.state.sessions id) authentic (history.mpr before)
    refine ⟨next, row, done, results, named, ?_, ?_⟩
    · exact ⟨fun _ => before, fun _ => status⟩
    · rw [status]
      exact ⟨fun never => (by cases never), fun never => absurd before never⟩
  · have fresh : submitted (answering.state.db.submissions ++ progress.pending) context.submitterId
        (strip rawFlag) = false := by
      rw [← Bool.not_eq_true, history]
      exact before
    have accepted := classify_accepts (teams.symm ▸ known) (services.symm ▸ served)
      (owned.submitter.symm ▸ foreign) opponent oldest newest below
    have submitter : answering.state.db.teams.contains context.submitterId = true := by
      rw [owned.submitter]
      exact kept.seated.known id session present (by simp [stage]) (by simp [stage])
    obtain ⟨next, row, done, results, named, status⟩ :=
      pass_accepted (busyKeys answering.state.sessions id) authentic fresh accepted submitter teams services
    refine ⟨next, row, done, results, named, ?_, ?_⟩
    · rw [status]
      exact ⟨fun never => (by cases never), fun never => absurd never before⟩
    · exact ⟨fun _ => before, fun _ => status⟩

/-! A limit of one flag in a round. -/

open TickClosing (setUp)
open RoundCap (oneFlag otherFlag)

def answeringTo (events : List Event) : Answering :=
  (exec (answeringStep oneFlag sampleDeployment) (fun _ event => playing event = true) ⟨setUp, []⟩
    events).getD ⟨initial 0, []⟩

/-- A call of team 1 with one flag, up to the pass over it. -/
def upToPass (id : Nat) (flag : Text) : List Event := (submission id 1 flag).take 5

def sessionAt (answering : Answering) (id : Nat) : Session :=
  (answering.state.sessions.get? id).getD ⟨0, [], "", 0, .begun⟩

def contextAt (session : Session) : Context :=
  match session.stage with
  | .submitting context _ _ => context
  | _ => ⟨0, "", "", 0, 0, 0, Dict.empty, Dict.empty⟩

def progressAt (session : Session) : Progress :=
  match session.stage with
  | .submitting _ progress _ => progress
  | _ => ⟨0, 0, 0, [], [], []⟩

/-- Before tick 1 opens the flag is answered offline, which leaves it free. -/
def firstCall : List Event :=
  (submission 0 1 betaFlag).take 2 ++ [.publicSync] ++ bootstrapIteration 3 ++ upToPass 0 betaFlag

theorem first_call_accepted : ∃ answering session context progress next row,
    answering = answeringTo firstCall ∧ answering.answered = [(1, betaFlag, .offline)] ∧
      answering.state.sessions.get? 0 = some session ∧
      session.stage = .submitting context progress [betaFlag] ∧
      processFlag oneFlag answering.state.db (busyKeys answering.state.sessions 0) context progress
      betaFlag = .ok next ∧
      next.resultRows = progress.resultRows ++ [row] ∧ row.status = .accepted := by
  let answering := answeringTo firstCall
  let session := sessionAt answering 0
  let beta := (answering.state.db.teams.get? 2).getD ⟨"", "", "", true, ""⟩
  let served := (answering.state.db.services.get? 1).getD ⟨"", none, 0, 0, 0⟩
  obtain ⟨next, row, done, results, _, _, accepted⟩ :=
    accepted_unless_answered oneFlag sampleDeployment setUp answering (by decide +kernel)
      (by decide +kernel)
      (exec_steps firstCall _ _ (by decide +kernel)) 0 session (contextAt session)
      (progressAt session) betaFlag []
      (by decide +kernel) (by decide +kernel) ⟨1, 2, 1, 0⟩ beta served (by decide +kernel)
      (by decide +kernel)
      (by decide +kernel) (by decide +kernel) (by decide +kernel) (by decide +kernel) (by decide +kernel)
      (by decide +kernel)
  exact ⟨answering, session, contextAt session, progressAt session, next, row, rfl, by decide +kernel,
    by decide +kernel, by decide +kernel, done, results, accepted.mpr (by decide +kernel)⟩

/-- In tick 1 team 1 gets one flag accepted, and meets the limit with the other. It submits the
other one again in tick 2. -/
def againNextTick : List Event :=
  [.publicSync] ++ bootstrapIteration 3 ++ submission 0 1 betaFlag ++ submission 1 1 otherFlag ++
    [.clock 1120000000] ++ endIteration ++ bootstrapIteration 3 ++ upToPass 2 otherFlag

theorem round_limit_uses_flag_up :
    ∃ answering session context progress next row,
      exec (answeringStep oneFlag sampleDeployment) (fun _ event => playing event = true)
      ⟨setUp, []⟩ againNextTick = some answering ∧
      answering.answered = [(1, betaFlag, .accepted), (1, otherFlag, .roundLimit)] ∧
      answering.state.sessions.get? 2 = some session ∧
      session.stage = .submitting context progress [otherFlag] ∧
      (context.submitterId, context.tickNow) = (1, 2) ∧ decodeFlag oneFlag otherFlag = some ⟨1, 2, 1, 1⟩ ∧
      oldestAcceptableTick oneFlag context.tickNow ≤ 1 ∧ belowCap oneFlag progress ∧
      processFlag oneFlag answering.state.db (busyKeys answering.state.sessions 2) context progress
      otherFlag = .ok next ∧ next.resultRows = [row] ∧ row.status = .duplicate := by
  let answering := answeringTo againNextTick
  let session := sessionAt answering 2
  have old : submitted (answering.state.db.submissions ++ (progressAt session).pending)
      (contextAt session).submitterId (strip otherFlag) = true := by decide +kernel
  have authentic : decodeFlag oneFlag (strip otherFlag) = some ⟨1, 2, 1, 1⟩ := by decide +kernel
  obtain ⟨next, row, done, results, _, duplicate⟩ :=
    pass_duplicate (busyKeys answering.state.sessions 2) authentic old
  have nothing : (progressAt session).resultRows = [] := by decide +kernel
  rw [nothing] at results
  refine ⟨answering, session, contextAt session, progressAt session, next, row, ?_, ?_, ?_, ?_, ?_, ?_,
    ?_, ?_, done, results, duplicate⟩
  all_goals decide +kernel

end KosSim.AnsweredFlags
