import KosSim.PlatformFrames

/-!
What one step of a submit_flags session can do. `Submits` inverts `submitStep`
once, so that the invariants below and in other modules only look at its cases.
Sessions of one team exclude each other by the advisory lock, and the rows a
session has inserted belong to its team and differ from every row it sees.
-/

namespace KosSim.SubmitSessions
open Library Schema FlagSubmit FlagCrypto AdminTeams Platform PlatformFrames

/-- How an open session moves on without touching the table. -/
inductive Moves (env : Settings) (clock : Int) (db : Db) (sessions : Sessions) (id : Nat)
    (session : Session) :
    SubmitEvent → SubmitStage → Prop where
  | admitted (was : session.stage = .begun) (running : gameRunning env db = true) :
      Moves env clock db sessions id session (.gate id) .admitted
  | identified (was : session.stage = .admitted) (name : String)
      (known : identify db session.teamId = .ok name) :
      Moves env clock db sessions id session (.identify id) (.identified name)
  | locked (name : String) (was : session.stage = .identified name)
      (free : lockFree sessions session.teamId = true) :
      Moves env clock db sessions id session (.lock id) (.locked name)
  | prepared (name : String) (was : session.stage = .locked name) (context : Context) (progress : Progress)
      (read : prepare env db clock session.startedAt session.teamId name session.sourceIp =
        .ok (context, progress)) :
      Moves env clock db sessions id session (.prepare id) (.submitting context progress session.flags)
  | processed (context : Context) (progress next : Progress) (flag : Text) (remaining : List Text)
      (was : session.stage = .submitting context progress (flag :: remaining))
      (done : processFlag env db (busyKeys sessions id) context progress flag = .ok next) :
      Moves env clock db sessions id session (.flag id) (.submitting context next remaining)

inductive Submits (env : Settings) (clock : Int) (db : Db) (sessions : Sessions) :
    SubmitEvent → List Submission → Sessions → Prop where
  | opened (id : Nat) (teamId : Int) (flags : List Text) (sourceIp : String)
      (fresh : sessions.get? id = none) :
      Submits env clock db sessions (.start id teamId flags sourceIp) db.submissions
        (sessions.set id ⟨teamId, flags, sourceIp, clock, .begun⟩)
  | closed (event : SubmitEvent) (id : Nat) :
      Submits env clock db sessions event db.submissions (close sessions id)
  | moved (event : SubmitEvent) (id : Nat) (session : Session) (stage : SubmitStage)
      (present : sessions.get? id = some session)
      (moves : Moves env clock db sessions id session event stage) :
      Submits env clock db sessions event db.submissions (setStage sessions id session stage)
  | committed (id : Nat) (session : Session) (context : Context) (progress : Progress)
      (present : sessions.get? id = some session) (was : session.stage = .submitting context progress []) :
      Submits env clock db sessions (.commit id) (db.submissions ++ progress.pending) (close sessions id)

theorem submit_step_cases (env : Settings) (clock : Int) (db : Db) (sessions : Sessions)
    (event : SubmitEvent) (rows : List Submission) (after : Sessions)
    (taken : submitStep env clock db sessions event = some (rows, after)) :
    Submits env clock db sessions event rows after := by
  cases event with
  | start id teamId flags sourceIp =>
      simp only [submitStep] at taken
      split at taken
      · cases taken
      · next free =>
        cases taken
        refine .opened id teamId flags sourceIp ?_
        cases held : sessions.get? id with
        | none => rfl
        | some session => exact absurd ((Dict.contains_eq_some _ _).mpr ⟨session, held⟩) free
  | gate id =>
      simp only [submitStep] at taken
      split at taken
      · next session present =>
        split at taken
        · cases taken
        next begun =>
        split at taken
        · next running =>
          cases taken
          exact .moved _ id session _ present (.admitted (Decidable.not_not.mp begun) running)
        · cases taken
          exact .closed _ id
      · cases taken
  | identify id =>
      simp only [submitStep] at taken
      split at taken
      · next session present =>
        split at taken
        · cases taken
        next admitted =>
        split at taken
        · next name known =>
          cases taken
          exact .moved _ id session _ present (.identified (Decidable.not_not.mp admitted) name known)
        · cases taken
          exact .closed _ id
      · cases taken
  | lock id =>
      simp only [submitStep] at taken
      split at taken
      · next session present =>
        split at taken
        · next name was =>
          split at taken
          · next free =>
            cases taken
            exact .moved _ id session _ present (.locked name was free)
          · cases taken
        · cases taken
      · cases taken
  | prepare id =>
      simp only [submitStep] at taken
      split at taken
      · next session present =>
        split at taken
        · next name was =>
          split at taken
          · next context progress read =>
            cases taken
            exact .moved _ id session _ present (.prepared name was context progress read)
          · cases taken
            exact .closed _ id
        · cases taken
      · cases taken
  | flag id =>
      simp only [submitStep] at taken
      split at taken
      · next session present =>
        split at taken
        · next context progress flag remaining was =>
          split at taken
          · next next_ done =>
            cases taken
            exact .moved _ id session _ present (.processed context progress next_ flag remaining was done)
          · cases taken
            exact .closed _ id
        · cases taken
      · cases taken
  | commit id =>
      simp only [submitStep] at taken
      split at taken
      · next session present =>
        split at taken
        · next context progress was =>
          cases taken
          exact .committed id session context progress present was
        · cases taken
      · cases taken
  | rollback id =>
      simp only [submitStep] at taken
      split at taken
      · cases taken
        exact .closed _ id
      · cases taken

theorem close_some {sessions : Sessions} {id other : Nat} {session : Session}
    (present : (close sessions id).get? other = some session) :
    sessions.get? other = some session ∧ other ≠ id := by
  rw [close, Dict.get_filter] at present
  obtain ⟨stored, kept⟩ := Option.filter_eq_some_iff.mp present
  exact ⟨stored, of_decide_eq_true kept⟩

theorem set_stage_some {sessions : Sessions} {id other : Nat} {session found : Session}
    {stage : SubmitStage} (present : (setStage sessions id session stage).get? other = some found) :
    other = id ∧ found = { session with
      stage := stage } ∨ other ≠ id ∧ sessions.get? other = some found := by
  rw [setStage, Dict.get_set] at present
  split at present
  · next same => exact Or.inl ⟨same.symm, (Option.some.inj present).symm⟩
  · next apart => exact Or.inr ⟨Ne.symm apart, present⟩

/-! One pass of the loop, as a case list. `NewRow` is all that a pass may add. -/

/-- The row that a pass inserts: fresh for the team, with the columns of its status. -/
structure NewRow (env : Settings) (db : Db) (context : Context) (progress : Progress) (rawFlag : Text)
    (row : Submission) : Prop where
  submitter : row.submitterTeamId = context.submitterId
  flag : row.flag = strip rawFlag
  fresh : submitted (db.submissions ++ progress.pending) context.submitterId row.flag = false
  refs : submissionRefs db row = true
  startedAt : row.submittedAt = context.startedAt
  decoded : row.result = .accepted → ∃ info, decodeFlag env row.flag = some info ∧
    classify env context progress info = .accepted ∧ row.targetTeamId = some info.teamId ∧
    row.serviceId = some info.serviceId ∧ row.tickIssued = some info.tick ∧ row.payload = some info.payload

theorem insert_cases {env : Settings} {db : Db} {pending rows : List Submission} {row : Submission}
    (done : insertSubmission env db pending row = .ok rows) :
    rows = pending ++ [row] ∧ submitted (db.submissions ++ pending) row.submitterTeamId row.flag = false ∧
      submissionRefs db row = true := by
  unfold insertSubmission at done
  split at done
  · cases done
  next fresh =>
  split at done
  · cases done
  split at done
  · next refs =>
    cases done
    exact ⟨rfl, Bool.not_eq_true _ ▸ fresh, refs⟩
  · cases done

/-- A flag that decodes has 38 characters, all of them of the base64 alphabet or of the frame. -/
theorem decoded_plain {env : Settings} {flag : Text} {info : FlagInfo}
    (decoded : decodeFlag env flag = some info) :
    hasNul flag = false ∧ env.indexFits flag = true := by
  obtain ⟨shape, length, blob, body, whole, _⟩ := decode_flag_some env flag info decoded
  constructor
  · have digits := Base64.full_body_valid _ blob body (by rw [List.length_map, length, whole]; decide)
    refine Bool.eq_false_iff.mpr fun nul => ?_
    rw [hasNul, List.contains_iff_mem, shape] at nul
    simp only [List.mem_append, List.mem_singleton] at nul
    rcases nul with ((front | brace) | inside) | close
    · exact absurd front (by decide)
    · exact absurd brace (by decide)
    · exact absurd (digits _ (List.mem_map_of_mem inside)) (by decide)
    · exact absurd close (by decide)
  · refine env.shortFits flag ?_
    rw [shape]
    simp only [List.length_append, length]
    decide

theorem classify_known {env : Settings} {context : Context} {progress : Progress} {info : FlagInfo}
    (accepted : classify env context progress info = .accepted) :
    ∃ target service, context.teamMeta.get? info.teamId = some target ∧
      context.serviceMeta.get? info.serviceId = some service ∧ info.teamId ≠ context.submitterId ∧
      target.isNop = false ∧ oldestAcceptableTick env context.tickNow ≤ info.tick ∧
      info.tick ≤ context.tickNow := by
  unfold classify at accepted
  split at accepted
  · next target service foundTarget foundService =>
    split at accepted
    · cases accepted
    next foreign =>
    split at accepted
    · cases accepted
    next playing =>
    split at accepted
    · cases accepted
    next recent =>
    split at accepted
    · cases accepted
    next issued =>
    exact ⟨target, service, foundTarget, foundService, foreign, by simpa using playing, by omega, by omega⟩
  · cases accepted

theorem process_flag_cases {env : Settings} {db : Db} {busy : Int × Int → Bool} {context : Context}
    {progress next : Progress} {rawFlag : Text}
    (done : processFlag env db busy context progress rawFlag = .ok next) :
    next.pending = progress.pending ∨
      ∃ row, next.pending = progress.pending ++ [row] ∧ NewRow env db context progress rawFlag row := by
  unfold processFlag at done
  dsimp only at done
  split at done
  · cases done
    exact Or.inl rfl
  split at done
  · cases done
  split at done
  · cases done
    exact Or.inl rfl
  split at done
  · next undecodable =>
    unfold processInvalid at done
    dsimp only at done
    split at done
    · cases done
    · next pending inserted =>
      cases done
      obtain ⟨grown, fresh, refs⟩ := insert_cases inserted
      exact Or.inr ⟨_, grown, ⟨rfl, rfl, fresh, refs, rfl, fun accepted => by cases accepted⟩⟩
  · next info decoded =>
    unfold processDecoded at done
    dsimp only at done
    split at done
    · cases done
    · next pending inserted =>
      cases done
      obtain ⟨grown, fresh, refs⟩ := insert_cases inserted
      refine Or.inr ⟨_, grown, ⟨rfl, rfl, fresh, refs, rfl, ?_⟩⟩
      intro accepted
      obtain ⟨target, service, foundTarget, foundService, _⟩ := classify_known accepted
      refine ⟨info, decoded, accepted, ?_, ?_, rfl, rfl⟩
      · simp only [foundTarget, Option.map_some]
      · simp only [foundService, Option.map_some]

/-- The decision of a pass: the stripped flag and its content, if it is to be accepted. -/
def wantedFlag (env : Settings) (db : Db) (context : Context) (progress : Progress) (rawFlag : Text) :
    Option (Text × FlagInfo) :=
  let flag := strip rawFlag
  if flag = [] then none
  else if submitted (db.submissions ++ progress.pending) context.submitterId flag then none
  else match decodeFlag env flag with
    | none => none
    | some info => if classify env context progress info = .accepted then some (flag, info) else none

theorem wanted_accepted {env : Settings} {db : Db} {context : Context} {progress : Progress}
    {rawFlag flag : Text} {info : FlagInfo}
    (wanted : wantedFlag env db context progress rawFlag = some (flag, info)) :
    flag = strip rawFlag ∧ submitted (db.submissions ++ progress.pending) context.submitterId flag = false ∧
      decodeFlag env flag = some info ∧ classify env context progress info = .accepted := by
  unfold wantedFlag at wanted
  dsimp only at wanted
  split at wanted
  · cases wanted
  split at wanted
  · cases wanted
  next fresh =>
  split at wanted
  · cases wanted
  next decoded =>
  split at wanted
  · next accepted =>
    cases wanted
    exact ⟨rfl, Bool.not_eq_true _ ▸ fresh, decoded, accepted⟩
  · cases wanted

/-- What an accepting pass adds. -/
structure AcceptedRow (env : Settings) (db : Db) (context : Context) (info : FlagInfo) (flag : Text)
    (row : Submission) :
    Prop where
  accepted : row.result = .accepted
  submitter : row.submitterTeamId = context.submitterId
  flag : row.flag = flag
  round : row.roundId = (db.roundOfTick info.tick).map (·.1)

/-- A pass accepts the flag that it wants, and counts it, or it accepts nothing. -/
theorem pass_cases {env : Settings} {db : Db} {busy : Int × Int → Bool} {context : Context}
    {progress next : Progress} {rawFlag : Text}
    (done : processFlag env db busy context progress rawFlag = .ok next) :
    (wantedFlag env db context progress rawFlag = none ∧
        next.acceptedThisRound = progress.acceptedThisRound ∧
        next.firstbloodKeys = progress.firstbloodKeys ∧
        (next.pending = progress.pending ∨ ∃ row, next.pending = progress.pending ++ [row] ∧
          row.result ≠ .accepted)) ∨
      ∃ flag info row, wantedFlag env db context progress rawFlag = some (flag, info) ∧
        next.acceptedThisRound = progress.acceptedThisRound + 1 ∧ next.pending = progress.pending ++ [row] ∧
        AcceptedRow env db context info flag row := by
  unfold wantedFlag
  unfold processFlag at done
  dsimp only at done ⊢
  split at done
  · next nothing =>
    cases done
    exact Or.inl ⟨if_pos nothing, rfl, rfl, Or.inl rfl⟩
  next something =>
  rw [if_neg something]
  split at done
  · cases done
  split at done
  · next old =>
    cases done
    exact Or.inl ⟨if_pos old, rfl, rfl, Or.inl rfl⟩
  next fresh =>
  rw [if_neg fresh]
  cases decoded : decodeFlag env (strip rawFlag) with
  | none =>
      rw [decoded] at done
      dsimp only at done
      unfold processInvalid at done
      dsimp only at done
      split at done
      · cases done
      · next pending inserted =>
        cases done
        exact Or.inl ⟨rfl, rfl, rfl, Or.inr ⟨_, (insert_cases inserted).1, fun never => by cases never⟩⟩
  | some info =>
      rw [decoded] at done
      dsimp only at done ⊢
      unfold processDecoded at done
      dsimp only at done
      split at done
      · cases done
      · next pending inserted =>
        cases done
        by_cases accepted : classify env context progress info = .accepted
        · right
          refine ⟨strip rawFlag, info, _, if_pos accepted, ?_, (insert_cases inserted).1, ?_⟩
          · dsimp only
            rw [if_pos accepted]
          · exact ⟨accepted, rfl, rfl, rfl⟩
        · left
          refine ⟨if_neg accepted, ?_, ?_, Or.inr ⟨_, (insert_cases inserted).1, accepted⟩⟩
          · dsimp only
            rw [if_neg accepted]
            exact Int.add_zero _
          · dsimp only
            rw [if_neg accepted]

/-! How a step of the whole system changes the submissions and the sessions. -/

theorem step_submissions {env : Settings} {deployment : InitDb.Deployment} {before after : State}
    {event : Event} (taken : step env deployment before event = some after) :
    (∃ submit, event = .submit submit ∧
      after = { before with db := { before.db with submissions := after.db.submissions },
                            sessions := after.sessions } ∧
      Submits env before.clock before.db before.sessions submit after.db.submissions after.sessions) ∨
    (∃ teamId, event = .admin (.deleteTeam teamId) ∧ inUse before.sessions teamId = false ∧
      after.sessions = before.sessions ∧
      after.db.submissions = dropSubmissions teamId before.db.submissions) ∨
    (after.db.submissions = before.db.submissions ∧ after.sessions = before.sessions) := by
  cases event with
  | clock now => cases taken; exact Or.inr (Or.inr ⟨rfl, rfl⟩)
  | rotator event =>
      obtain ⟨⟨db, loop⟩, moved, same⟩ := Option.map_eq_some_iff.mp taken
      subst same
      exact Or.inr (Or.inr ⟨(rotator_entries moved).submissions, rfl⟩)
  | submit event =>
      obtain ⟨⟨rows, sessions⟩, moved, same⟩ := Option.map_eq_some_iff.mp taken
      subst same
      exact Or.inl ⟨event, rfl, rfl, submit_step_cases env _ _ _ event rows sessions moved⟩
  | worker event =>
      simp only [step] at taken
      split at taken
      · obtain ⟨_, _, same⟩ := Option.map_eq_some_iff.mp taken
        subst same
        exact Or.inr (Or.inr ⟨rfl, rfl⟩)
      · cases taken
  | admin event =>
      obtain ⟨db, moved, same⟩ := Option.map_eq_some_iff.mp taken
      subst same
      cases event with
      | setDesired desired =>
          simp only [adminStep] at moved
          split at moved
          · cases moved; exact Or.inr (Or.inr ⟨rfl, rfl⟩)
          · cases moved
      | schedule startAt stopAfterTick scoreboardFreezeTick =>
          simp only [adminStep] at moved
          split at moved
          · cases moved; exact Or.inr (Or.inr ⟨rfl, rfl⟩)
          · cases moved
      | createTeam body =>
          cases moved
          exact Or.inr (Or.inr ⟨(create_team_records env before.db body).submissions, rfl⟩)
      | updateTeam teamId body =>
          cases moved
          exact Or.inr (Or.inr ⟨(update_team_records before.db teamId body).submissions, rfl⟩)
      | deleteTeam teamId =>
          simp only [adminStep] at moved
          split at moved
          · cases moved
          · next free =>
            cases moved
            unfold apiTeamDelete
            split
            · exact Or.inr (Or.inr ⟨rfl, rfl⟩)
            · exact Or.inr (Or.inl ⟨teamId, rfl, Bool.not_eq_true _ ▸ free, rfl, rfl⟩)
  | publicSync =>
      simp only [step] at taken
      split at taken
      · cases taken; exact Or.inr (Or.inr ⟨rfl, rfl⟩)
      · cases taken
  | bootstrap =>
      simp only [step] at taken
      split at taken
      · next db done =>
        cases taken
        exact Or.inr (Or.inr ⟨(bootstrap_records done).submissions, rfl⟩)
      · cases taken

/-! The order among sessions. -/

def ident (row : Submission) : Int × Text := (row.submitterTeamId, row.flag)

structure Owned (session : Session) (context : Context) (progress : Progress) : Prop where
  submitter : context.submitterId = session.teamId
  startedAt : context.startedAt = session.startedAt
  rows : ∀ row ∈ progress.pending, row.submitterTeamId = session.teamId ∧
    row.submittedAt = session.startedAt

structure Orderly (rows : List Submission) (sessions : Sessions) : Prop where
  exclusive : ∀ id other one two, sessions.get? id = some one → sessions.get? other = some two →
    holdsLock one = true → holdsLock two = true → one.teamId = two.teamId → id = other
  owned : ∀ id session context progress remaining, sessions.get? id = some session →
    session.stage = .submitting context progress remaining → Owned session context progress
  unique : (rows.map ident).Nodup
  uniqueWith : ∀ id session, sessions.get? id = some session → ((rows ++ pendingOf session).map ident).Nodup

theorem submitted_iff (rows : List Submission) (teamId : Int) (flag : Text) :
    submitted rows teamId flag = true ↔ (teamId, flag) ∈ rows.map ident := by
  rw [submitted, List.any_eq_true, List.mem_map]
  simp only [Bool.and_eq_true, decide_eq_true_eq, ident, Prod.mk.injEq]

theorem lock_free_other {sessions : Sessions} {teamId : Int} (free : lockFree sessions teamId = true)
    (id : Nat) (session : Session) (present : sessions.get? id = some session)
    (holds : holdsLock session = true) : session.teamId ≠ teamId := by
  intro same
  have member := (Dict.mem_entries_iff sessions id session).mpr present
  rw [lockFree, Bool.not_eq_true', List.any_eq_false] at free
  exact free _ member (by simp [same, holds])

theorem pending_of_holder {session : Session} (idle : holdsLock session = false) :
    pendingOf session = [] := by
  cases shape : session.stage with
  | submitting context progress remaining => simp [holdsLock, shape] at idle
  | begun => simp [pendingOf, shape]
  | admitted => simp [pendingOf, shape]
  | identified name => simp [pendingOf, shape]
  | locked name => simp [pendingOf, shape]

theorem pending_stage {session : Session} {row : Submission} (member : row ∈ pendingOf session) :
    ∃ context progress remaining, session.stage = .submitting context progress remaining ∧
      row ∈ progress.pending := by
  cases shape : session.stage with
  | submitting context progress remaining =>
      rw [pendingOf, shape] at member
      exact ⟨context, progress, remaining, rfl, member⟩
  | begun => rw [pendingOf, shape] at member; cases member
  | admitted => rw [pendingOf, shape] at member; cases member
  | identified name => rw [pendingOf, shape] at member; cases member
  | locked name => rw [pendingOf, shape] at member; cases member

theorem prepare_cases {env : Settings} {db : Db} {now startedAt teamId : Int} {name sourceIp : String}
    {context : Context} {progress : Progress}
    (read : prepare env db now startedAt teamId name sourceIp = .ok (context, progress)) :
    context.submitterId = teamId ∧ context.startedAt = startedAt ∧ context.tickNow = currentTick env db ∧
      context.teamMeta = db.teams ∧ context.serviceMeta = db.services ∧
      currentRoundId env db now = .ok context.currentRoundId ∧ progress.pending = [] ∧
      progress.resultRows = [] := by
  unfold prepare at read
  split at read
  · cases read
  · next roundId round =>
    cases read
    exact ⟨rfl, rfl, rfl, rfl, rfl, round, rfl, rfl⟩

section Orderly
variable {env : Settings} {clock : Int} {db : Db} {sessions : Sessions}

/-- A stage without inserted rows keeps the order, if its lock is its team's only one. -/
theorem orderly_set (orderly : Orderly db.submissions sessions) (id : Nat) (session : Session)
    (exclusive : holdsLock session = true → ∀ other two, other ≠ id → sessions.get? other = some two →
      holdsLock two = true → two.teamId ≠ session.teamId)
    (owned : ∀ context progress remaining, session.stage = .submitting context progress remaining →
      Owned session context progress)
    (unique : ((db.submissions ++ pendingOf session).map ident).Nodup) :
    Orderly db.submissions (sessions.set id session) where
  exclusive := by
    intro one two first second presentOne presentTwo holdsOne holdsTwo same
    rw [Dict.get_set] at presentOne presentTwo
    by_cases here : id = one
    · by_cases there : id = two
      · exact here.symm.trans there
      · rw [if_pos here] at presentOne
        rw [if_neg there] at presentTwo
        cases presentOne
        exact absurd same.symm (exclusive holdsOne two second (Ne.symm there) presentTwo holdsTwo)
    · rw [if_neg here] at presentOne
      by_cases there : id = two
      · rw [if_pos there] at presentTwo
        cases presentTwo
        exact absurd same (exclusive holdsTwo one first (Ne.symm here) presentOne holdsOne)
      · rw [if_neg there] at presentTwo
        exact orderly.exclusive one two first second presentOne presentTwo holdsOne holdsTwo same
  owned := by
    intro other found context progress remaining present stage
    rw [Dict.get_set] at present
    split at present
    · cases present
      exact owned context progress remaining stage
    · exact orderly.owned other found context progress remaining present stage
  unique := orderly.unique
  uniqueWith := by
    intro other found present
    rw [Dict.get_set] at present
    split at present
    · cases present
      exact unique
    · exact orderly.uniqueWith other found present

theorem orderly_close (orderly : Orderly db.submissions sessions) (id : Nat) :
    Orderly db.submissions (close sessions id) where
  exclusive := fun one two first second presentOne presentTwo =>
    orderly.exclusive one two first second (close_some presentOne).1 (close_some presentTwo).1
  owned := fun other found context progress remaining present =>
    orderly.owned other found context progress remaining (close_some present).1
  unique := orderly.unique
  uniqueWith := fun other found present => orderly.uniqueWith other found (close_some present).1

theorem orderly_moved (orderly : Orderly db.submissions sessions) {id : Nat} {session : Session}
    {event : SubmitEvent} {stage : SubmitStage} (present : sessions.get? id = some session)
    (moves : Moves env clock db sessions id session event stage) :
    Orderly db.submissions (setStage sessions id session stage) := by
  -- While the session keeps its lock, the other holders are other teams' sessions.
  have others (holds : holdsLock session = true) : ∀ other two, other ≠ id →
      sessions.get? other = some two → holdsLock two = true → two.teamId ≠ session.teamId := by
    intro other two apart found holdsTwo same
    exact apart (orderly.exclusive other id two session found present holdsTwo holds same)
  cases moves with
  | admitted was running =>
      exact orderly_set orderly id _ (fun holds => by cases holds) (fun _ _ _ stage => by cases stage)
        (by simpa [pendingOf] using orderly.unique)
  | identified was name known =>
      exact orderly_set orderly id _ (fun holds => by cases holds) (fun _ _ _ stage => by cases stage)
        (by simpa [pendingOf] using orderly.unique)
  | locked name was free =>
      refine orderly_set orderly id _ ?_ (fun _ _ _ stage => by cases stage)
        (by simpa [pendingOf] using orderly.unique)
      exact fun _ other two _ found holds => lock_free_other free other two found holds
  | prepared name was context progress read =>
      obtain ⟨submitter, startedAt, _, _, _, _, empty, _⟩ := prepare_cases read
      refine orderly_set orderly id _ (fun _ => others (by simp [holdsLock, was])) ?_
        (by simpa [pendingOf, empty] using orderly.unique)
      intro _ _ _ stage
      cases stage
      exact ⟨submitter, startedAt, fun row member => by rw [empty] at member; cases member⟩
  | processed context progress next flag remaining was done =>
      have owned := orderly.owned id session context progress _ present was
      have before : ((db.submissions ++ progress.pending).map ident).Nodup := by
        simpa [pendingOf, was] using orderly.uniqueWith id session present
      have after : ((db.submissions ++ next.pending).map ident).Nodup ∧
          ∀ row ∈ next.pending, row.submitterTeamId = session.teamId ∧
            row.submittedAt = session.startedAt := by
        rcases process_flag_cases done with same | ⟨row, grown, new⟩
        · rw [same]
          exact ⟨before, owned.rows⟩
        · constructor
          · have absent : ident row ∉ (db.submissions ++ progress.pending).map ident := by
              have fresh := new.fresh
              rw [← new.submitter, ← Bool.not_eq_true, submitted_iff] at fresh
              exact fresh
            rw [grown, ← List.append_assoc, List.map_append]
            rw [List.nodup_append]
            refine ⟨before, List.nodup_singleton _, ?_⟩
            intro one member two last same
            rw [List.map_singleton, List.mem_singleton] at last
            exact absent (last ▸ same ▸ member)
          · intro other member
            rw [grown, List.mem_append, List.mem_singleton] at member
            rcases member with old | here
            · exact owned.rows other old
            · rw [here]
              exact ⟨new.submitter.trans owned.submitter, new.startedAt.trans owned.startedAt⟩
      refine orderly_set orderly id _ (fun _ => others (by simp [holdsLock, was])) ?_
        (by simpa [pendingOf] using after.1)
      intro _ _ _ stage
      cases stage
      exact ⟨owned.submitter, owned.startedAt, after.2⟩

theorem orderly_commit (orderly : Orderly db.submissions sessions) {id : Nat} {session : Session}
    {context : Context} {progress : Progress} (present : sessions.get? id = some session)
    (was : session.stage = .submitting context progress []) :
    Orderly (db.submissions ++ progress.pending) (close sessions id) := by
  have closed := orderly_close orderly id
  have own : ((db.submissions ++ progress.pending).map ident).Nodup := by
    simpa [pendingOf, was] using orderly.uniqueWith id session present
  refine ⟨closed.exclusive, closed.owned, own, ?_⟩
  intro other found presentOther
  obtain ⟨stored, apart⟩ := close_some presentOther
  by_cases holds : holdsLock found = true
  · have both := orderly.uniqueWith other found stored
    rw [List.map_append, List.nodup_append] at both ⊢
    refine ⟨own, both.2.1, ?_⟩
    intro one member two pending same
    rw [List.map_append, List.mem_append] at member
    rcases member with committed | mine
    · exact both.2.2 one committed two pending same
    · -- Both sessions hold a lock, so the rows have different submitters.
      obtain ⟨row, rowMember, rfl⟩ := List.mem_map.mp mine
      obtain ⟨row', pendingMember, rfl⟩ := List.mem_map.mp pending
      obtain ⟨context', progress', remaining', shape, rowMember'⟩ := pending_stage pendingMember
      have owned := orderly.owned id session context progress _ present was
      have ownedOther := orderly.owned other found context' progress' remaining' stored shape
      have teams : found.teamId = session.teamId := by
        rw [← (owned.rows row rowMember).1, ← (ownedOther.rows row' rowMember').1]
        exact (congrArg Prod.fst same).symm
      exact apart (orderly.exclusive other id found session stored present holds
        (by simp [holdsLock, was]) teams)
  · rw [pending_of_holder (Bool.not_eq_true _ ▸ holds), List.append_nil]
    exact own

theorem orderly_submits (orderly : Orderly db.submissions sessions) {event : SubmitEvent}
    {rows : List Submission} {after : Sessions} (submits : Submits env clock db sessions event rows after) :
    Orderly rows after := by
  cases submits with
  | opened id teamId flags sourceIp fresh =>
      exact orderly_set orderly id _ (fun holds => by cases holds) (fun _ _ _ stage => by cases stage)
        (by simpa [pendingOf] using orderly.unique)
  | closed event id => exact orderly_close orderly id
  | moved event id session stage present moves => exact orderly_moved orderly present moves
  | committed id session context progress present was => exact orderly_commit orderly present was

/-- A deletion keeps the other teams' rows, but for the target. -/
theorem drop_some {teamId : Int} {rows : List Submission} {row : Submission}
    (member : row ∈ dropSubmissions teamId rows) :
    ∃ old ∈ rows, row = old ∨ row = { old with targetTeamId := none } := by
  obtain ⟨old, kept, same⟩ := List.mem_map.mp member
  refine ⟨old, (List.mem_filter.mp kept).1, ?_⟩
  split at same
  · exact Or.inr same.symm
  · exact Or.inl same.symm

theorem dropped_idents (teamId : Int) (rows : List Submission) :
    (dropSubmissions teamId rows).map ident =
      (rows.filter fun row => decide (row.submitterTeamId ≠ teamId)).map ident := by
  rw [dropSubmissions, List.map_map]
  apply List.map_congr_left
  intro row _
  show ident (if row.targetTeamId = some teamId then { row with targetTeamId := none } else row) = ident row
  split <;> rfl

theorem orderly_drop (orderly : Orderly db.submissions sessions) (teamId : Int) :
    Orderly (dropSubmissions teamId db.submissions) sessions where
  exclusive := orderly.exclusive
  owned := orderly.owned
  unique := by
    rw [dropped_idents]
    exact orderly.unique.sublist (List.filter_sublist.map ident)
  uniqueWith := by
    intro id session present
    rw [List.map_append, dropped_idents, ← List.map_append]
    exact (orderly.uniqueWith id session present).sublist
      ((List.filter_sublist.append (List.Sublist.refl _)).map ident)

end Orderly

theorem orderly_step {env : Settings} {deployment : InitDb.Deployment} {before after : State}
    {event : Event} (orderly : Orderly before.db.submissions before.sessions)
    (taken : step env deployment before event = some after) :
    Orderly after.db.submissions after.sessions := by
  rcases step_submissions taken with ⟨submit, _, _, submits⟩ | ⟨teamId, _, _, sessions,
    rows⟩ | ⟨rows, sessions⟩
  · exact orderly_submits orderly submits
  · rw [sessions, rows]
    exact orderly_drop orderly teamId
  · rw [sessions, rows]
    exact orderly

theorem orderly_initial : Orderly [] (Dict.empty : Sessions) where
  exclusive := fun _ _ _ _ present => by cases present
  owned := fun _ _ _ _ _ present => by cases present
  unique := List.nodup_nil
  uniqueWith := fun _ _ present => by cases present

/-! A property of every accepted row, stored or pending. -/

structure AcceptedAll (property : Submission → Prop) (rows : List Submission) (sessions : Sessions) :
    Prop where
  stored : ∀ row ∈ rows, row.result = .accepted → property row
  pending : ∀ id session row, sessions.get? id = some session → row ∈ pendingOf session →
    row.result = .accepted → property row

theorem accepted_initial (property : Submission → Prop) : AcceptedAll property [] (Dict.empty : Sessions) :=
  ⟨fun _ member => (List.not_mem_nil member).elim, fun _ _ _ present => by cases present⟩

theorem accepted_weaken {property wider : Submission → Prop} {rows : List Submission} {sessions : Sessions}
    (all : AcceptedAll property rows sessions) (weaker : ∀ row, property row → wider row) :
    AcceptedAll wider rows sessions :=
  ⟨fun row member accepted => weaker row (all.stored row member accepted),
    fun id session row present member accepted =>
    weaker row (all.pending id session row present member accepted)⟩

/-- It is enough to look at the rows that a pass of the loop accepts. -/
theorem accepted_passes {env : Settings} {clock : Int} {db : Db} {sessions after : Sessions}
    {event : SubmitEvent} {rows : List Submission} {property : Submission → Prop}
    (all : AcceptedAll property db.submissions sessions)
    (submits : Submits env clock db sessions event rows after)
    (new : ∀ id session context progress next flag remaining row, event = .flag id →
      sessions.get? id = some session →
      session.stage = .submitting context progress (flag :: remaining) →
      processFlag env db (busyKeys sessions id) context progress flag = .ok next →
      next.pending = progress.pending ++ [row] → row.result = .accepted → property row) :
    AcceptedAll property rows after := by
  cases submits with
  | opened id teamId flags sourceIp fresh =>
      refine ⟨all.stored, ?_⟩
      intro other session row present member
      rw [Dict.get_set] at present
      split at present
      · cases present
        cases member
      · exact all.pending other session row present member
  | closed event id =>
      exact ⟨all.stored, fun other session row present => all.pending other session row
        (close_some present).1⟩
  | moved event id session stage present moves =>
      refine ⟨all.stored, ?_⟩
      intro other found row presentOther member accepted
      rcases set_stage_some presentOther with ⟨here, same⟩ | ⟨_, stored⟩
      · subst here same
        cases moves with
        | admitted was running => cases member
        | identified was name known => cases member
        | locked name was free => cases member
        | prepared name was context progress read =>
            simp only [pendingOf, (prepare_cases read).2.2.2.2.2.2.1] at member
            cases member
        | processed context progress next flag remaining was done =>
            simp only [pendingOf] at member
            have old (earlier : row ∈ progress.pending) : property row :=
              all.pending other session row present (by simpa [pendingOf, was] using earlier) accepted
            rcases process_flag_cases done with same | ⟨added, grown, _⟩
            · rw [same] at member
              exact old member
            · rw [grown, List.mem_append, List.mem_singleton] at member
              rcases member with earlier | here
              · exact old earlier
              · subst here
                exact new other session context progress next flag remaining row rfl present was
                  done grown accepted
      · exact all.pending other found row stored member accepted
  | committed id session context progress present was =>
      refine ⟨?_, fun other found row presentOther =>
        all.pending other found row (close_some presentOther).1⟩
      intro row member accepted
      rcases List.mem_append.mp member with old | fresh
      · exact all.stored row old accepted
      · exact all.pending id session row present (by simpa [pendingOf, was] using fresh) accepted

theorem accepted_submits {env : Settings} {clock : Int} {db : Db} {sessions after : Sessions}
    {event : SubmitEvent} {rows : List Submission} {property : Submission → Prop}
    (all : AcceptedAll property db.submissions sessions)
    (submits : Submits env clock db sessions event rows after)
    (new : ∀ id session context progress flag remaining row, event = .flag id →
      sessions.get? id = some session →
      session.stage = .submitting context progress (flag :: remaining) →
      NewRow env db context progress flag row → row.result = .accepted → property row) :
    AcceptedAll property rows after := by
  apply accepted_passes all submits
  intro id session context progress next flag remaining row same present was done grown accepted
  rcases process_flag_cases done with kept | ⟨other, added, shape⟩
  · rw [kept] at grown
    exact absurd (List.self_eq_append_right.mp grown) (List.cons_ne_nil _ _)
  · rw [added] at grown
    have one := List.append_cancel_left grown
    cases one
    exact new id session context progress flag remaining row same present was shape accepted

end KosSim.SubmitSessions
