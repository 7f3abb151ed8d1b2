import KosSim.Library.FirstClaim
import KosSim.SubmitSessions

/-!
The race for first blood, statement by statement. A pass of the loop that accepts its
flag is cut into the decision, the try-lock, the look for earlier captures and the
insert, with other transactions in between; everything else of a session is a step of
`submitStep`. For one target and service the sessions claim a slot of
`Library.FirstClaim`: there is never a second first blood, and two kinds of steps
alone keep a captured service from having its one.
-/

namespace KosSim.FirstbloodRaces
open Library FirstClaim Schema FlagCrypto FlagSubmit Platform SubmitSessions

/-! The model. -/

/-- Where the current pass of a session is. -/
inductive Claim where
  | idle
  | wanted (flag : Text) (info : FlagInfo)                    -- to be accepted
  | locked (flag : Text) (info : FlagInfo)                    -- pg_try_advisory_xact_lock has got the lock
  | judged (flag : Text) (info : FlagInfo) (blood : Bool)     -- _resolve_firstblood has returned
  deriving DecidableEq

/-- `lost` records the keys whose try-lock has failed; the code keeps no such list. -/
structure Race where
  claim : Claim
  lost : List (Int × Int)
  deriving DecidableEq

structure RaceState where
  clock : Int
  db : Db
  sessions : Sessions
  races : Dict Nat Race
  deriving DecidableEq

inductive RaceEvent where
  | clock (now : Int)
  | other (tables : Db)             -- any transaction that does not write submissions
  | submit (event : SubmitEvent)    -- the steps outside the loop
  | pass (id : Nat)
  | tryLock (id : Nat)
  | look (id : Nat)
  | insert (id : Nat)
  deriving DecidableEq

def noRace : Race := ⟨.idle, []⟩

def raceOf (state : RaceState) (id : Nat) : Race := (state.races.get? id).getD noRace

def keyOf (info : FlagInfo) : Int × Int := (info.teamId, info.serviceId)

def captured (key : Int × Int) (row : Submission) : Bool :=
  row.result = .accepted && row.targetTeamId = some key.1 && row.serviceId = some key.2

/-- The rest of the pass after _resolve_firstblood. -/
def storeAccepted (env : Settings) (db : Db) (context : Context) (progress : Progress) (flag : Text)
    (info : FlagInfo) (blood : Bool) : Except DbError Progress :=
  let target := context.teamMeta.get? info.teamId
  let service := context.serviceMeta.get? info.serviceId
  let row : Submission :=
    { submitterTeamId := context.submitterId
      targetTeamId := target.map fun _ => info.teamId
      serviceId := service.map fun _ => info.serviceId
      roundId := (db.roundOfTick info.tick).map (·.1)
      tickIssued := some info.tick
      payload := some info.payload
      flag := flag
      result := .accepted
      pointsAwarded := env.submissionPoints
      isFirstblood := blood
      sourceIp := some context.sourceIp
      submittedAt := context.startedAt }
  match insertSubmission env db progress.pending row with
  | .error error => .error error
  | .ok pending => .ok
      { acceptedThisRound := progress.acceptedThisRound + 1
        acceptedCount := progress.acceptedCount + 1
        totalPoints := progress.totalPoints + env.submissionPoints
        pending := pending
        firstbloodKeys := progress.firstbloodKeys
        resultRows := progress.resultRows ++
        [resultRow flag .accepted (target.map (·.name)) (service.map (·.name))
          env.submissionPoints blood (some info.tick) (some info.payload)] }

def setRace (state : RaceState) (id : Nat) (race : Race) : RaceState :=
  { state with races := state.races.set id race }

def sessionStep (env : Settings) (state : RaceState) (event : SubmitEvent) : Option RaceState :=
  (submitStep env state.clock state.db state.sessions event).map fun after =>
    { state with db := { state.db with submissions := after.1 }, sessions := after.2 }

def raceStep (env : Settings) (state : RaceState) : RaceEvent → Option RaceState
  | .clock now => some { state with clock := now }
  | .other tables => some { state with db := { tables with submissions := state.db.submissions } }
  | .submit (.flag _) => none
  | .submit (.start id teamId flags sourceIp) =>
      sessionStep env (setRace state id noRace) (.start id teamId flags sourceIp)
  | .submit event => sessionStep env state event
  | .pass id =>
      match state.sessions.get? id, (raceOf state id).claim with
      | some session, .idle =>
          match session.stage with
          | .submitting context progress (rawFlag :: _) =>
              match wantedFlag env state.db context progress rawFlag with
              | some (flag, info) =>
                  some (setRace state id { raceOf state id with claim := .wanted flag info })
              | none => sessionStep env state (.flag id)
          | _ => none
      | _, _ => none
  | .tryLock id =>
      match state.sessions.get? id, (raceOf state id).claim with
      | some session, .wanted flag info =>
          match session.stage with
          | .submitting context progress remaining =>
              if busyKeys state.sessions id (keyOf info) then
                some (setRace state id ⟨.judged flag info false, keyOf info :: (raceOf state id).lost⟩)
              else
                let locked := { progress with
                  firstbloodKeys := insert (keyOf info) progress.firstbloodKeys }
                some { setRace state id { raceOf state id with claim := .locked flag info } with
                  sessions := setStage state.sessions id session (.submitting context locked remaining) }
          | _ => none
      | _, _ => none
  | .look id =>
      match state.sessions.get? id, (raceOf state id).claim with
      | some session, .locked flag info =>
          let seen := (state.db.submissions ++ pendingOf session).any (captured (keyOf info))
          some (setRace state id { raceOf state id with claim := .judged flag info !seen })
      | _, _ => none
  | .insert id =>
      match state.sessions.get? id, (raceOf state id).claim with
      | some session, .judged flag info blood =>
          match session.stage with
          | .submitting context progress (_ :: remaining) =>
              match storeAccepted env state.db context progress flag info blood with
              | .ok next => some { setRace state id { raceOf state id with claim := .idle } with
                  sessions := setStage state.sessions id session (.submitting context next remaining) }
              | .error _ => some { state with sessions := close state.sessions id }
          | _ => none
      | _, _ => none

/-! The slot of a key. -/

def entriesFor (key : Int × Int) (rows : List Submission) : List Bool :=
  (rows.filter (captured key)).map (·.isFirstblood)

def verdictFor (key : Int × Int) : Claim → Option Bool
  | .judged _ info blood => if keyOf info = key then some blood else none
  | _ => none

def partyOf (key : Int × Int) (session : Session) (race : Race) : Party :=
  ⟨(firstbloodKeysOf session).contains key, race.lost.contains key, verdictFor key race.claim,
    entriesFor key (pendingOf session)⟩

def partyAt (key : Int × Int) (state : RaceState) (id : Nat) : Option Party :=
  (state.sessions.get? id).map fun session => partyOf key session (raceOf state id)

def slotOf (key : Int × Int) (state : RaceState) : Slot Nat :=
  ⟨entriesFor key state.db.submissions, partyAt key state⟩

def known (context : Context) (info : FlagInfo) : Prop :=
  context.teamMeta.get? info.teamId ≠ none ∧ context.serviceMeta.get? info.serviceId ≠ none

/-- A session that is in a pass has an entry before it and knows the target, and it holds the lock
it has got. -/
def PlacedAt (session : Session) : Claim → Prop
  | .idle => True
  | .wanted _ info | .judged _ info _ =>
      ∃ context progress rawFlag remaining, session.stage =
        .submitting context progress (rawFlag :: remaining) ∧ known context info
  | .locked _ info =>
      ∃ context progress rawFlag remaining, session.stage =
        .submitting context progress (rawFlag :: remaining) ∧
        known context info ∧ keyOf info ∈ progress.firstbloodKeys

def Placed (state : RaceState) : Prop :=
  ∀ id session, state.sessions.get? id = some session → PlacedAt session (raceOf state id).claim

section Slots
variable {env : Settings} {key : Int × Int}

theorem entries_append (one two : List Submission) :
    entriesFor key (one ++ two) = entriesFor key one ++ entriesFor key two := by
  unfold entriesFor
  rw [List.filter_append, List.map_append]

theorem entries_nil_iff (rows : List Submission) :
    entriesFor key rows = [] ↔ rows.any (captured key) = false := by
  unfold entriesFor
  rw [List.map_eq_nil_iff, List.filter_eq_nil_iff, List.any_eq_false]

theorem race_set (state : RaceState) (id other : Nat) (race : Race) :
    raceOf (setRace state id race) other = if id = other then race else raceOf state other := by
  unfold raceOf setRace
  dsimp only
  rw [Dict.get_set]
  split <;> rfl

theorem slot_put {before after : RaceState} {id : Nat} {party : Option Party}
    (stored : entriesFor key after.db.submissions = entriesFor key before.db.submissions)
    (here : partyAt key after id = party)
    (others : ∀ other, other ≠ id → partyAt key after other = partyAt key before other) :
    slotOf key after = (slotOf key before).put id party := by
  unfold slotOf Slot.put
  rw [stored]
  congr 1
  funext other
  by_cases same : other = id
  · subst same
    rw [Function.update_self]
    exact here
  · rw [Function.update_of_ne same]
    exact others other same

theorem entries_refused (row : Submission) (refused : row.result ≠ .accepted) :
    entriesFor key [row] = [] := by
  rw [entries_nil_iff, List.any_cons, List.any_nil, Bool.or_false, captured, decide_eq_false refused]
  rfl

theorem mem_insert_key (one two : Int × Int) (keys : List (Int × Int)) :
    two ∈ insert one keys ↔ two = one ∨ two ∈ keys :=
  @List.mem_insert_iff (Int × Int) instBEqOfDecidableEq inferInstance one two keys

/-- A pass that accepts nothing changes neither the locks nor the captures. -/
theorem unwanted_pass {db : Db} {busy : Int × Int → Bool} {context : Context}
    {progress next : Progress} {rawFlag : Text}
    (unwanted : wantedFlag env db context progress rawFlag = none)
    (done : processFlag env db busy context progress rawFlag = .ok next) :
    next.firstbloodKeys = progress.firstbloodKeys ∧
      entriesFor key next.pending = entriesFor key progress.pending := by
  rcases pass_cases done with ⟨_, _, keys, same | ⟨row, grown, refused⟩⟩ | ⟨flag, info, _, wanted, _⟩
  · exact ⟨keys, congrArg _ same⟩
  · refine ⟨keys, ?_⟩
    rw [grown, entries_append, entries_refused row refused, List.append_nil]
  · rw [unwanted] at wanted
    cases wanted

theorem prepare_keys {db : Db} {now startedAt teamId : Int} {name sourceIp : String}
    {context : Context} {progress : Progress}
    (read : prepare env db now startedAt teamId name sourceIp = .ok (context, progress)) :
    progress.firstbloodKeys = [] := by
  unfold prepare at read
  split at read
  · cases read
  · cases read
    rfl

/-- The insert of an accepted flag adds one capture of its own key. -/
theorem store_accepted {db : Db} {context : Context} {progress next : Progress} {flag : Text}
    {info : FlagInfo} {blood : Bool} (placed : known context info)
    (done : storeAccepted env db context progress flag info blood = .ok next) :
    next.firstbloodKeys = progress.firstbloodKeys ∧
      entriesFor key next.pending = entriesFor key progress.pending ++
      if keyOf info = key then [blood] else [] := by
  obtain ⟨target, foundTarget⟩ := Option.ne_none_iff_exists'.mp placed.1
  obtain ⟨service, foundService⟩ := Option.ne_none_iff_exists'.mp placed.2
  unfold storeAccepted at done
  dsimp only at done
  split at done
  · cases done
  · next pending inserted =>
    cases done
    refine ⟨rfl, ?_⟩
    dsimp only
    rw [(insert_cases inserted).1, entries_append, foundTarget, foundService]
    congr 1
    unfold entriesFor captured keyOf
    obtain ⟨team, serviceId⟩ := key
    by_cases same : (info.teamId, info.serviceId) = (team, serviceId)
    · cases same
      simp
    · rw [if_neg same]
      have apart : ¬(info.teamId = team ∧ info.serviceId = serviceId) :=
        fun both => same (by rw [both.1, both.2])
      simpa using fun left right => apart ⟨left, right⟩

theorem wanted_known {db : Db} {context : Context} {progress : Progress} {rawFlag flag : Text}
    {info : FlagInfo} (wanted : wantedFlag env db context progress rawFlag = some (flag, info)) :
    known context info := by
  obtain ⟨_, _, _, accepted⟩ := wanted_accepted wanted
  obtain ⟨target, service, foundTarget, foundService, _⟩ := classify_known accepted
  exact ⟨foundTarget ▸ Option.some_ne_none _, foundService ▸ Option.some_ne_none _⟩

/-- The lock is refused exactly when another party of the slot holds it. -/
theorem busy_iff_held (state : RaceState) (id : Nat) :
    busyKeys state.sessions id key = true ↔ (slotOf key state).held id := by
  unfold busyKeys Slot.held
  rw [List.any_eq_true]
  constructor
  · rintro ⟨⟨other, session⟩, member, busy⟩
    rw [Bool.and_eq_true, decide_eq_true_eq] at busy
    refine ⟨other, partyOf key session (raceOf state other), busy.1, ?_, busy.2⟩
    show (state.sessions.get? other).map _ = _
    rw [(Dict.mem_entries_iff _ _ _).mp member]
    rfl
  · rintro ⟨other, party, apart, present, holds⟩
    obtain ⟨session, found, same⟩ := Option.map_eq_some_iff.mp present
    refine ⟨(other, session), (Dict.mem_entries_iff _ _ _).mpr found, ?_⟩
    rw [Bool.and_eq_true, decide_eq_true_eq]
    exact ⟨apart, by rw [← same] at holds; exact holds⟩

/-! Steps outside a pass. -/

/-- What a step means for the slot. -/
inductive Means (key : Int × Int) (before after : RaceState) : Outcome Nat → Prop where
  | same (unchanged : slotOf key after = slotOf key before) : Means key before after .goesOn
  | claims (outcome : Outcome Nat) (claims : Claims (slotOf key before) outcome (slotOf key after)) :
      Means key before after outcome

theorem put_same {slot : Slot Nat} {id : Nat} {party : Option Party} (present : slot.parties id = party) :
    slot.put id party = slot := by
  unfold Slot.put
  rw [← present, Function.update_eq_self]

section Changes
variable (key) {before after : RaceState} {id : Nat}

/-- The session of a transaction has changed, with its race. -/
theorem slot_session {session : Session} (rows : after.db.submissions = before.db.submissions)
    (sessions : after.sessions = before.sessions.set id session)
    (races : ∀ other, other ≠ id → raceOf after other = raceOf before other) :
    slotOf key after = (slotOf key before).put id (some (partyOf key session (raceOf after id))) := by
  apply slot_put
  · rw [rows]
  · unfold partyAt
    rw [sessions, Dict.get_set_self]
    rfl
  · intro other apart
    unfold partyAt
    rw [sessions, Dict.get_set_other _ _ _ _ (Ne.symm apart), races other apart]

theorem slot_race {session : Session} (present : before.sessions.get? id = some session)
    (rows : after.db.submissions = before.db.submissions) (sessions : after.sessions = before.sessions)
    (races : ∀ other, other ≠ id → raceOf after other = raceOf before other) :
    slotOf key after = (slotOf key before).put id (some (partyOf key session (raceOf after id))) := by
  apply slot_put
  · rw [rows]
  · unfold partyAt
    rw [sessions, present]
    rfl
  · intro other apart
    unfold partyAt
    rw [sessions, races other apart]

/-- A transaction has ended and stored its rows. -/
theorem slot_closed {rows : List Submission} (stored : after.db.submissions = before.db.submissions ++ rows)
    (sessions : after.sessions = close before.sessions id) (races : after.races = before.races) :
    slotOf key after = ⟨(slotOf key before).stored ++ entriesFor key rows,
      Function.update (slotOf key before).parties id none⟩ := by
  unfold slotOf
  rw [stored, entries_append]
  congr 1
  funext other
  unfold partyAt raceOf
  rw [sessions, races]
  by_cases same : other = id
  · subst same
    rw [Function.update_self]
    cases found : (close before.sessions other).get? other with
    | none => rfl
    | some session => exact absurd rfl (close_some found).2
  · rw [Function.update_of_ne same]
    congr 1
    rw [close, Dict.get_filter]
    cases before.sessions.get? other with
    | none => rfl
    | some session => exact Option.filter_eq_some_iff.mpr ⟨rfl, decide_eq_true same⟩

theorem slot_left (rows : after.db.submissions = before.db.submissions)
    (sessions : after.sessions = close before.sessions id) (races : after.races = before.races) :
    slotOf key after = (slotOf key before).put id none := by
  have stored : after.db.submissions = before.db.submissions ++ [] := by rw [rows, List.append_nil]
  rw [slot_closed key stored sessions races]
  show Slot.mk ((slotOf key before).stored ++ []) _ = _
  rw [List.append_nil]
  rfl

end Changes

theorem party_present (key : Int × Int) {state : RaceState} {id : Nat} {session : Session}
    (present : state.sessions.get? id = some session) :
    (slotOf key state).parties id = some (partyOf key session (raceOf state id)) := by
  show partyAt key state id = _
  rw [partyAt, present]
  rfl

theorem placed_stage {state : RaceState} (placed : Placed state) {id : Nat} {session : Session}
    (present : state.sessions.get? id = some session) (busy : (raceOf state id).claim ≠ .idle) :
    ∃ context progress rawFlag remaining, session.stage =
      .submitting context progress (rawFlag :: remaining) := by
  have own := placed id session present
  unfold PlacedAt at own
  split at own
  · next idle => exact absurd idle busy
  all_goals
    obtain ⟨context, progress, rawFlag, remaining, stage, _⟩ := own
    exact ⟨context, progress, rawFlag, remaining, stage⟩

/-- A commit stores the captures of the session, which is in no pass. -/
theorem commit_means (key : Int × Int) {before after : RaceState} {id : Nat} (placed : Placed before)
    (taken : sessionStep env before (.commit id) = some after) : Means key before after (.commits id) := by
  obtain ⟨⟨rows, sessions⟩, moved, same⟩ := Option.map_eq_some_iff.mp taken
  simp only [submitStep] at moved
  split at moved
  · next session present =>
    split at moved
    · next context progress was =>
      rw [Option.some.injEq, Prod.mk.injEq] at moved
      have idle : (raceOf before id).claim = .idle := by
        by_contra busy
        obtain ⟨_, _, rawFlag, remaining, stage⟩ := placed_stage placed present busy
        rw [was] at stage
        cases stage
      have party := party_present key present
      have closed := @slot_closed key before after id progress.pending
        (by rw [← same, moved.1]) (by rw [← same, moved.2]) (by rw [← same])
      have entries : (partyOf key session (raceOf before id)).entries =
          entriesFor key progress.pending := by
        simp only [partyOf, pendingOf, was]
      refine .claims _ ?_
      rw [closed, ← entries]
      exact .commit id _ party (by simp only [partyOf, idle, verdictFor])
    · cases moved
  · cases moved

/-- One step of a session outside the passes that accept. -/
theorem session_means (key : Int × Int) {before after : RaceState} {event : SubmitEvent}
    (placed : Placed before)
    (fresh : ∀ id teamId flags sourceIp, event = .start id teamId flags sourceIp →
      raceOf before id = noRace)
    (unwanted : ∀ id session context progress rawFlag remaining, event = .flag id →
      before.sessions.get? id = some session →
      session.stage = .submitting context progress (rawFlag :: remaining) →
      wantedFlag env before.db context progress rawFlag = none)
    (taken : sessionStep env before event = some after) :
    ∃ outcome, Means key before after outcome ∧ ∀ id, outcome = .commits id ↔ event = .commit id := by
  -- Only a commit stores rows; every other step changes one party of the slot.
  by_cases commit : ∃ id, event = .commit id
  · obtain ⟨id, rfl⟩ := commit
    refine ⟨_, commit_means key placed taken, fun other => ?_⟩
    rw [Outcome.commits.injEq, SubmitEvent.commit.injEq]
  have otherwise (id : Nat) : event ≠ .commit id := fun same => commit ⟨id, same⟩
  obtain ⟨⟨rows, sessions⟩, moved, same⟩ := Option.map_eq_some_iff.mp taken
  have stored : after.db.submissions = rows := by rw [← same]
  have seated : after.sessions = sessions := by rw [← same]
  have races : after.races = before.races := by rw [← same]
  have raced (other : Nat) : raceOf after other = raceOf before other := by rw [raceOf, races]; rfl
  clear same
  cases submit_step_cases env _ _ _ event rows sessions moved with
  | opened id teamId flags sourceIp absent =>
      refine ⟨.goesOn, .claims _ ?_, fun other => by simp⟩
      -- A new transaction has neither locks nor captures.
      rw [slot_session key stored seated fun other _ => raced other, raced,
        fresh id teamId flags sourceIp rfl]
      apply Claims.enter
      show partyAt key before id = none
      rw [partyAt, absent]
      rfl
  | closed event id =>
      refine ⟨.leaves id, .claims _ ?_, fun other => iff_of_false (by simp) (otherwise other)⟩
      rw [slot_left key stored seated races]
      exact .leave id
  | moved event id session stage present moves =>
      refine ⟨.goesOn, .same ?_, fun other => iff_of_false (by simp) (otherwise other)⟩
      rw [slot_session key stored seated fun other _ => raced other, raced]
      apply put_same
      rw [party_present key present]
      cases moves with
      | admitted was running => simp only [partyOf, firstbloodKeysOf, pendingOf, was]
      | identified was name known_ => simp only [partyOf, firstbloodKeysOf, pendingOf, was]
      | locked name was free => simp only [partyOf, firstbloodKeysOf, pendingOf, was]
      | prepared name was context progress read =>
          obtain ⟨_, _, _, _, _, _, empty, _⟩ := prepare_cases read
          simp only [partyOf, firstbloodKeysOf, pendingOf, was, empty, prepare_keys read]
      | processed context progress next flag remaining was done =>
          have unchanged : next.firstbloodKeys = progress.firstbloodKeys ∧
              entriesFor key next.pending = entriesFor key progress.pending :=
            unwanted_pass (unwanted id session context progress flag remaining rfl present was) done
          obtain ⟨keys, entries⟩ := unchanged
          simp only [partyOf, firstbloodKeysOf, pendingOf, was, keys, entries]
  | committed id session context progress present was => exact absurd rfl (otherwise id)

/-- A step of a session leaves the passes of the others alone. -/
theorem session_placed {before after : RaceState} {event : SubmitEvent} (placed : Placed before)
    (fresh : ∀ id teamId flags sourceIp, event = .start id teamId flags sourceIp →
      raceOf before id = noRace) (idle : ∀ id, event = .flag id → (raceOf before id).claim = .idle)
    (taken : sessionStep env before event = some after) : Placed after := by
  obtain ⟨⟨rows, sessions⟩, moved, same⟩ := Option.map_eq_some_iff.mp taken
  have seated : after.sessions = sessions := by rw [← same]
  have races : after.races = before.races := by rw [← same]
  have raced (other : Nat) : raceOf after other = raceOf before other := by rw [raceOf, races]; rfl
  clear same
  intro other found presentAfter
  rw [seated] at presentAfter
  rw [raced]
  have old (presentOther : before.sessions.get? other = some found) := placed other found presentOther
  cases submit_step_cases env _ _ _ event rows sessions moved with
  | opened id teamId flags sourceIp absent =>
      rw [Dict.get_set] at presentAfter
      split at presentAfter
      · next here =>
        rw [← here, fresh id teamId flags sourceIp rfl]
        trivial
      · exact old presentAfter
  | closed event id => exact old (close_some presentAfter).1
  | committed id session context progress present was => exact old (close_some presentAfter).1
  | moved event id session stage present moves =>
      rcases set_stage_some presentAfter with ⟨here, same⟩ | ⟨_, stored⟩
      · subst here same
        -- Outside the passes that accept, only a session without a claim moves.
        have quiet : (raceOf before other).claim = .idle := by
          by_contra busy
          obtain ⟨context, progress, rawFlag, remaining, stage⟩ := placed_stage placed present busy
          cases moves with
          | admitted was running => rw [was] at stage; cases stage
          | identified was name known_ => rw [was] at stage; cases stage
          | locked name was free => rw [was] at stage; cases stage
          | prepared name was context progress read => rw [was] at stage; cases stage
          | processed context progress next flag remaining was done => exact busy (idle other rfl)
        rw [quiet]
        trivial
      · exact old stored

/-! Steps of a pass that accepts. -/

theorem race_set_self (state : RaceState) (id : Nat) (race : Race) :
    raceOf (setRace state id race) id = race := by
  rw [race_set, if_pos rfl]

theorem race_set_other (state : RaceState) {id other : Nat} (race : Race) (apart : other ≠ id) :
    raceOf (setRace state id race) other = raceOf state other := by
  rw [race_set, if_neg (Ne.symm apart)]

/-- The state after a step of a pass. -/
def setBoth (state : RaceState) (id : Nat) (session : Session) (race : Race) : RaceState :=
  { setRace state id race with sessions := state.sessions.set id session }

section Sets
variable (key) {state : RaceState} {id : Nat} {session : Session} {race : Race}

theorem slot_set_race (present : state.sessions.get? id = some session) :
    slotOf key (setRace state id race) = (slotOf key state).put id (some (partyOf key session race)) := by
  have changed : slotOf key (setRace state id race) = (slotOf key state).put id
      (some (partyOf key session (raceOf (setRace state id race) id))) :=
    slot_race key present rfl rfl fun other apart => race_set_other state race apart
  rw [race_set_self] at changed
  exact changed

theorem slot_set_both : slotOf key (setBoth state id session race) =
    (slotOf key state).put id (some (partyOf key session race)) := by
  have changed : slotOf key (setBoth state id session race) = (slotOf key state).put id
      (some (partyOf key session (raceOf (setBoth state id session race) id))) :=
    slot_session key rfl rfl fun other apart => race_set_other state race apart
  have own : raceOf (setBoth state id session race) id = race := race_set_self state id race
  rw [own] at changed
  exact changed

theorem placed_set_race (placed : Placed state)
    (own : ∀ session, state.sessions.get? id = some session → PlacedAt session race.claim) :
    Placed (setRace state id race) := by
  intro other found present
  rw [race_set]
  split
  · next here => exact own found (here ▸ present)
  · exact placed other found present

theorem placed_set_both (placed : Placed state) (own : PlacedAt session race.claim) :
    Placed (setBoth state id session race) := by
  intro other found present
  have seated : (state.sessions.set id session).get? other = some found := present
  have raced : raceOf (setBoth state id session race) other = if id =
      other then race else raceOf state other :=
    race_set state id other race
  rw [raced]
  rw [Dict.get_set] at seated
  split
  · next here =>
    rw [if_pos here] at seated
    cases seated
    exact own
  · next apart =>
    rw [if_neg apart] at seated
    exact placed other found seated

end Sets

/-- What a step of the race keeps, and what it means for the slot. -/
structure Simulates (key : Int × Int) (before : RaceState) (event : RaceEvent) (after : RaceState) :
    Prop where
  placed : Placed after
  means : ∃ outcome, Means key before after outcome ∧ ∀ id, outcome = .commits id ↔
  event = .submit (.commit id)

theorem submit_simulates {before after : RaceState} {event : SubmitEvent} (placed : Placed before)
    (taken : raceStep env before (.submit event) = some after) :
    Simulates key before (.submit event) after := by
  have plain (notStart : ∀ id teamId flags sourceIp, event ≠ .start id teamId flags sourceIp)
      (notFlag : ∀ id, event ≠ .flag id) (same : sessionStep env before event = some after) :
      Simulates key before (.submit event) after := by
    constructor
    · exact session_placed placed (fun id teamId flags sourceIp here =>
        absurd here (notStart id teamId flags sourceIp))
        (fun id here => absurd here (notFlag id)) same
    · obtain ⟨outcome, means, named⟩ := session_means key placed
        (fun id teamId flags sourceIp here => absurd here (notStart id teamId flags sourceIp))
        (fun id _ _ _ _ _ here => absurd here (notFlag id)) same
      exact ⟨outcome, means, fun id => (named id).trans (iff_of_eq (RaceEvent.submit.injEq ..).symm)⟩
  cases event with
  | flag id => cases taken
  | start id teamId flags sourceIp =>
      have started : sessionStep env (setRace before id noRace) (.start id teamId flags sourceIp) =
          some after := taken
      have fresh : ∀ other otherTeam otherFlags otherIp,
          SubmitEvent.start id teamId flags sourceIp = .start other otherTeam otherFlags otherIp →
            raceOf (setRace before id noRace) other = noRace := by
        intro other _ _ _ same
        cases same
        exact race_set_self before id noRace
      -- The id has no session yet, so its old race belongs to nobody.
      have reset : Placed (setRace before id noRace) := placed_set_race placed fun _ _ => trivial
      have absent : before.sessions.get? id = none := by
        cases present : before.sessions.get? id with
        | none => rfl
        | some session =>
            have refused : before.sessions.contains id = true :=
              (Dict.contains_eq_some _ _).mpr ⟨session, present⟩
            simp [sessionStep, submitStep, setRace, refused] at started
      have same : slotOf key (setRace before id noRace) = slotOf key before := by
        unfold slotOf
        congr 1
        funext other
        unfold partyAt
        by_cases here : other = id
        · have absent_ : (setRace before id noRace).sessions.get? other = none := here ▸ absent
          rw [absent_, here, absent]
          rfl
        · rw [race_set_other before noRace here]
          rfl
      constructor
      · exact session_placed reset fresh (fun _ never => by cases never) started
      · have means := session_means key reset fresh (fun _ _ _ _ _ _ never => by cases never) started
        obtain ⟨outcome, means, named⟩ := means
        refine ⟨outcome, ?_, fun other => (named other).trans (by simp)⟩
        cases means with
        | same unchanged => exact .same (unchanged.trans same)
        | claims outcome claims => exact .claims outcome (same ▸ claims)
  | gate id => exact plain (fun _ _ _ _ never => by cases never) (fun _ never => by cases never) taken
  | identify id => exact plain (fun _ _ _ _ never => by cases never) (fun _ never => by cases never) taken
  | lock id => exact plain (fun _ _ _ _ never => by cases never) (fun _ never => by cases never) taken
  | prepare id => exact plain (fun _ _ _ _ never => by cases never) (fun _ never => by cases never) taken
  | commit id => exact plain (fun _ _ _ _ never => by cases never) (fun _ never => by cases never) taken
  | rollback id => exact plain (fun _ _ _ _ never => by cases never) (fun _ never => by cases never) taken

theorem pass_simulates {before after : RaceState} {id : Nat} (placed : Placed before)
    (taken : raceStep env before (.pass id) = some after) : Simulates key before (.pass id) after := by
  simp only [raceStep] at taken
  split at taken
  · next session present idle =>
    split at taken
    · next context progress rawFlag remaining stage =>
      split at taken
      · next flag info wanted =>
        cases taken
        constructor
        · apply placed_set_race placed
          intro other presentOther
          have same : other = session := Option.some.inj (presentOther.symm.trans present)
          exact ⟨context, progress, rawFlag, remaining, same ▸ stage, wanted_known wanted⟩
        · refine ⟨.goesOn, .same ?_, fun _ => by simp⟩
          rw [slot_set_race key present]
          apply put_same
          rw [party_present key present]
          simp only [partyOf, idle, verdictFor]
      · next unwanted =>
        have quiet : ∀ other, SubmitEvent.flag id = .flag other → (raceOf before other).claim = .idle := by
          intro other same
          cases same
          exact idle
        constructor
        · exact session_placed placed (fun _ _ _ _ never => by cases never) quiet taken
        · obtain ⟨outcome, means, named⟩ :=
            session_means key placed (fun _ _ _ _ never => by cases never) (by
            intro other found otherContext otherProgress otherFlag otherRemaining same
              presentOther otherStage
            cases same
            have one : found = session := Option.some.inj (presentOther.symm.trans present)
            rw [one, stage] at otherStage
            cases otherStage
            exact unwanted) taken
          exact ⟨outcome, means, fun other => (named other).trans (by simp)⟩
    · cases taken
  · cases taken

theorem try_simulates {before after : RaceState} {id : Nat} (placed : Placed before)
    (taken : raceStep env before (.tryLock id) = some after) :
    Simulates key before (.tryLock id) after := by
  simp only [raceStep] at taken
  split at taken
  · next session flag info present wanted =>
    split at taken
    · next context progress remaining stage =>
      have own := placed id session present
      rw [wanted] at own
      obtain ⟨context', progress', rawFlag, remaining', stage', target⟩ := own
      rw [stage] at stage'
      cases stage'
      have party := party_present key present
      split at taken
      · next busy =>
        cases taken
        constructor
        · apply placed_set_race placed
          intro other presentOther
          have same : other = session := Option.some.inj (presentOther.symm.trans present)
          exact ⟨context, progress, rawFlag, remaining', same ▸ stage, target⟩
        · refine ⟨.goesOn, ?_, fun _ => by simp⟩
          have slot := @slot_set_race key before id session
            ⟨.judged flag info false, keyOf info :: (raceOf before id).lost⟩ present
          by_cases here : keyOf info = key
          · refine .claims _ ?_
            rw [slot]
            -- Another session of the slot holds the lock.
            have lost := Claims.lose id _ party ((busy_iff_held before id).mp (here ▸ busy))
            have same : partyOf key session ⟨.judged flag info false,
                keyOf info :: (raceOf before id).lost⟩ =
                { partyOf key session (raceOf before id) with lost := true, verdict := some false } := by
              simp [partyOf, verdictFor, here]
            rw [same]
            exact lost
          · refine .same ?_
            rw [slot]
            apply put_same
            rw [party]
            simp [partyOf, verdictFor, here, wanted, Ne.symm here]
      · next free =>
        cases taken
        constructor
        · exact placed_set_both placed
            ⟨context, _, rawFlag, remaining', rfl, target, (mem_insert_key _ _ _).mpr (Or.inl rfl)⟩
        · refine ⟨.goesOn, ?_, fun _ => by simp⟩
          let locked := { progress with firstbloodKeys := insert (keyOf info) progress.firstbloodKeys }
          let next : Session := { session with stage := .submitting context locked (rawFlag :: remaining') }
          let race : Race := { raceOf before id with claim := .locked flag info }
          have slot : slotOf key (setBoth before id next race) = _ := slot_set_both key
          change Means key before (setBoth before id next race) .goesOn
          have holds : (firstbloodKeysOf next).contains key =
              (decide (keyOf info = key) || (firstbloodKeysOf session).contains key) := by
            rw [Bool.eq_iff_iff, Bool.or_eq_true, List.contains_iff_mem, List.contains_iff_mem,
              decide_eq_true_eq]
            simp only [next, locked, firstbloodKeysOf, stage, mem_insert_key]
            rw [eq_comm]
          by_cases here : keyOf info = key
          · refine .claims _ ?_
            rw [slot]
            -- Nobody else of the slot holds it; a key of another slot leaves the party as it is.
            have won := Claims.win id _ party fun held => free (here ▸ (busy_iff_held before id).mpr held)
            have same : partyOf key next race = { partyOf key session (raceOf before id) with
                holds := true } := by
              unfold partyOf
              rw [holds, decide_eq_true here]
              simp only [Bool.true_or, race, verdictFor, wanted, pendingOf, next, locked, stage]
            rw [same]
            exact won
          · refine .same ?_
            rw [slot]
            apply put_same
            rw [party]
            unfold partyOf
            rw [holds, decide_eq_false here]
            simp only [Bool.false_or, race, verdictFor, wanted, pendingOf, next, locked, stage]
    · cases taken
  · cases taken

theorem look_simulates {before after : RaceState} {id : Nat} (placed : Placed before)
    (taken : raceStep env before (.look id) = some after) : Simulates key before (.look id) after := by
  simp only [raceStep] at taken
  split at taken
  · next session flag info present locked =>
    cases taken
    have own := placed id session present
    rw [locked] at own
    obtain ⟨context, progress, rawFlag, remaining, stage, target, holds⟩ := own
    have party := party_present key present
    constructor
    · apply placed_set_race placed
      intro other presentOther
      have same : other = session := Option.some.inj (presentOther.symm.trans present)
      exact ⟨context, progress, rawFlag, remaining, same ▸ stage, target⟩
    · refine ⟨.goesOn, ?_, fun _ => by simp⟩
      have slot := @slot_set_race key before id session { raceOf before id with
        claim := .judged flag info !(before.db.submissions ++ pendingOf session).any
          (captured (keyOf info)) } present
      by_cases here : keyOf info = key
      · refine .claims _ ?_
        rw [slot]
        have held : (partyOf key session (raceOf before id)).holds = true := by
          simp only [partyOf, firstbloodKeysOf, stage]
          exact List.contains_iff_mem.mpr (here ▸ holds)
        have looked := Claims.look id _ party held (by simp only [partyOf, verdictFor, locked])
        have seen : (!(before.db.submissions ++ pendingOf session).any (captured key)) =
            ((slotOf key before).stored.isEmpty &&
              (partyOf key session (raceOf before id)).entries.isEmpty) := by
          rw [Bool.eq_iff_iff, Bool.and_eq_true, List.isEmpty_iff, List.isEmpty_iff, Bool.not_eq_true',
            ← entries_nil_iff, entries_append, List.append_eq_nil_iff]
          rfl
        have same : partyOf key session { raceOf before id with
              claim := .judged flag info !(before.db.submissions ++ pendingOf session).any
                (captured (keyOf info)) } =
            { partyOf key session (raceOf before id) with
              verdict := some ((slotOf key before).stored.isEmpty &&
                (partyOf key session (raceOf before id)).entries.isEmpty) } := by
          rw [← seen]
          simp only [partyOf, verdictFor, here, ↓reduceIte]
        rw [same]
        exact looked
      · refine .same ?_
        rw [slot]
        apply put_same
        rw [party]
        simp only [partyOf, verdictFor, locked, here, ↓reduceIte]
  · cases taken

theorem insert_simulates {before after : RaceState} {id : Nat} (placed : Placed before)
    (taken : raceStep env before (.insert id) = some after) : Simulates key before (.insert id) after := by
  simp only [raceStep] at taken
  split at taken
  · next session flag info blood present judged =>
    split at taken
    · next context progress rawFlag remaining stage =>
      have own := placed id session present
      rw [judged] at own
      obtain ⟨context', progress', rawFlag', remaining', stage', target⟩ := own
      rw [stage] at stage'
      cases stage'
      have party := party_present key present
      split at taken
      · next next_ done =>
        cases taken
        have added : next_.firstbloodKeys = progress.firstbloodKeys ∧ entriesFor key next_.pending =
            entriesFor key progress.pending ++ if keyOf info = key then [blood] else [] :=
            store_accepted target done
        obtain ⟨keys, entries⟩ := added
        constructor
        · exact placed_set_both placed (show PlacedAt _ .idle from trivial)
        · refine ⟨.goesOn, ?_, fun _ => by simp⟩
          let next : Session := { session with stage := .submitting context next_ remaining }
          let race : Race := { raceOf before id with claim := .idle }
          have slot : slotOf key (setBoth before id next race) = _ := slot_set_both key
          change Means key before (setBoth before id next race) .goesOn
          by_cases here : keyOf info = key
          · refine .claims _ ?_
            rw [slot]
            have inserted :=
              Claims.insert id _ blood party (by simp only [partyOf, verdictFor, judged, here, ↓reduceIte])
            have same : partyOf key next race = { partyOf key session (raceOf before id) with
                verdict := none, entries :=
                  (partyOf key session (raceOf before id)).entries ++ [blood] } := by
              simp only [partyOf, next, race, firstbloodKeysOf, pendingOf, stage, keys, entries, here,
                ↓reduceIte, verdictFor]
            rw [same]
            exact inserted
          · refine .same ?_
            rw [slot]
            apply put_same
            rw [party]
            simp only [partyOf, next, race, firstbloodKeysOf, pendingOf, stage, keys, entries, here,
              ↓reduceIte, verdictFor, judged, List.append_nil]
      · cases taken
        constructor
        · exact fun other found there => placed other found (close_some there).1
        · refine ⟨.leaves id, .claims _ ?_, fun _ => by simp⟩
          have left_ : slotOf key { before with
              sessions := close before.sessions id } = (slotOf key before).put id none :=
            slot_left key rfl rfl rfl
          rw [left_]
          exact .leave id
    · cases taken
  · cases taken

theorem race_step_simulates {before after : RaceState} {event : RaceEvent} (key : Int × Int)
    (placed : Placed before) (taken : raceStep env before event = some after) :
    Simulates key before event after := by
  cases event with
  | clock now =>
      cases taken
      exact ⟨placed, .goesOn, .same rfl, fun _ => by simp⟩
  | other tables =>
      cases taken
      exact ⟨placed, .goesOn, .same rfl, fun _ => by simp⟩
  | submit event => exact submit_simulates placed taken
  | pass id => exact pass_simulates placed taken
  | tryLock id => exact try_simulates placed taken
  | look id => exact look_simulates placed taken
  | insert id => exact insert_simulates placed taken

end Slots

/-! A pass without interruption is the pass of `submitStep`. -/

section Uninterrupted
variable {env : Settings}

theorem process_flag_wanted {db : Db} {context : Context} {progress : Progress}
    {rawFlag flag : Text} {info : FlagInfo} (busy : Int × Int → Bool)
    (wanted : wantedFlag env db context progress rawFlag = some (flag, info)) :
    processFlag env db busy context progress rawFlag =
      let blood := resolveFirstblood db busy progress info.teamId info.serviceId
      storeAccepted env db context { progress with firstbloodKeys := blood.2 } flag info blood.1 := by
  unfold wantedFlag at wanted
  unfold processFlag
  dsimp only at wanted ⊢
  split at wanted
  · cases wanted
  next something =>
  rw [if_neg something]
  split at wanted
  · cases wanted
  next fresh =>
  rw [if_neg fresh]
  cases decoded : decodeFlag env (strip rawFlag) with
  | none =>
      rw [decoded] at wanted
      cases wanted
  | some found =>
      rw [if_neg (Bool.eq_false_iff.mp (decoded_plain decoded).1)]
      rw [decoded] at wanted
      dsimp only at wanted ⊢
      split at wanted
      · next accepted =>
        cases wanted
        simp only [processDecoded, accepted, ↓reduceIte]
        rfl
      · cases wanted

/-- The steps of a pass of one session. -/
def ofPass (id : Nat) : RaceEvent → Prop
  | .pass other | .tryLock other | .look other | .insert other => other = id
  | _ => False

/-- The insert of a judged pass leaves the sessions as the whole pass does. -/
theorem insert_step {state : RaceState} {id : Nat} {session before : Session} {context : Context}
    {progress : Progress}
    {flag rawFlag : Text} {remaining : List Text} {info : FlagInfo} {blood : Bool} {busy : Int × Int → Bool}
    {original : Progress} (present : state.sessions.get? id = some session)
    (stage : session = { before with stage := .submitting context progress (rawFlag :: remaining) })
    (judged : (raceOf state id).claim = .judged flag info blood) {sessions : Sessions}
    (others : ∀ other, other ≠ id → state.sessions.get? other = sessions.get? other)
    (whole : processFlag env state.db busy context original rawFlag =
      storeAccepted env state.db context progress flag info blood) :
    ∃ after, raceStep env state (.insert id) = some after ∧ after.db = state.db ∧
      ∀ other, after.sessions.get? other =
        (match processFlag env state.db busy context original rawFlag with
        | .ok next => setStage sessions id before (.submitting context next remaining)
        | .error _ => close sessions id).get? other := by
  have shape : session.stage = .submitting context progress (rawFlag :: remaining) := by rw [stage]
  simp only [raceStep, present, judged, shape, whole]
  cases storeAccepted env state.db context progress flag info blood with
  | ok next =>
      refine ⟨_, rfl, rfl, ?_⟩
      intro other
      simp only [setStage, Dict.get_set, stage]
      split
      · rfl
      · next apart => exact others other (Ne.symm apart)
  | error error =>
      refine ⟨_, rfl, rfl, ?_⟩
      intro other
      simp only [close, Dict.get_filter]
      by_cases here : other = id
      · simp [here]
      · rw [others other here]

theorem try_lost {state : RaceState} {id : Nat} {session : Session} {context : Context}
    {progress : Progress} {flag : Text} {remaining : List Text} {info : FlagInfo}
    (present : state.sessions.get? id = some session)
    (stage : session.stage = .submitting context progress remaining)
    (wanted : (raceOf state id).claim = .wanted flag info)
    (busy : busyKeys state.sessions id (keyOf info) = true) :
    ∃ after, raceStep env state (.tryLock id) = some after ∧ after.db = state.db ∧
      after.sessions = state.sessions ∧ (raceOf after id).claim = .judged flag info false := by
  simp only [raceStep, present, wanted, stage, busy, ↓reduceIte]
  exact ⟨_, rfl, rfl, rfl, by rw [race_set_self]⟩

/-- The session with the lock of the key. -/
def withKey (session : Session) (context : Context) (progress : Progress) (remaining : List Text)
    (info : FlagInfo) :
    Session :=
  let locked := { progress with firstbloodKeys := insert (keyOf info) progress.firstbloodKeys }
  { session with stage := .submitting context locked remaining }

theorem try_won {state : RaceState} {id : Nat} {session : Session} {context : Context}
    {progress : Progress} {flag : Text} {remaining : List Text} {info : FlagInfo}
    (present : state.sessions.get? id = some session)
    (stage : session.stage = .submitting context progress remaining)
    (wanted : (raceOf state id).claim = .wanted flag info)
    (free : busyKeys state.sessions id (keyOf info) = false) :
    ∃ after, raceStep env state (.tryLock id) = some after ∧ after.db = state.db ∧
      after.sessions = state.sessions.set id (withKey session context progress remaining info) ∧
      (raceOf after id).claim = .locked flag info := by
  simp only [raceStep, present, wanted, stage, free, Bool.false_eq_true, ↓reduceIte]
  refine ⟨_, rfl, rfl, rfl, ?_⟩
  exact congrArg Race.claim (race_set_self state id _)

theorem look_step {state : RaceState} {id : Nat} {session : Session} {flag : Text} {info : FlagInfo}
    (present : state.sessions.get? id = some session)
    (locked : (raceOf state id).claim = .locked flag info) :
    ∃ after, raceStep env state (.look id) = some after ∧ after.db = state.db ∧
      after.sessions = state.sessions ∧ (raceOf after id).claim =
        .judged flag info !(state.db.submissions ++ pendingOf session).any (captured (keyOf info)) := by
  simp only [raceStep, present, locked]
  exact ⟨_, rfl, rfl, rfl, by rw [race_set_self]⟩

/-- The steps of a pass, taken one after the other, do what one pass of `submitStep` does. -/
theorem pass_uninterrupted (state : RaceState) (id : Nat) (session : Session) (context : Context)
    (progress : Progress) (rawFlag flag : Text) (remaining : List Text) (info : FlagInfo)
    (present : state.sessions.get? id = some session)
    (stage : session.stage = .submitting context progress (rawFlag :: remaining))
    (idle : (raceOf state id).claim = .idle)
    (wanted : wantedFlag env state.db context progress rawFlag = some (flag, info)) :
    ∃ after sessions, Steps (raceStep env) (fun _ event => ofPass id event) state after ∧
      after.db = state.db ∧
      submitStep env state.clock state.db state.sessions (.flag id) =
        some (state.db.submissions, sessions) ∧
      ∀ other, after.sessions.get? other = sessions.get? other := by
  have whole := process_flag_wanted (busyKeys state.sessions id) wanted
  have platform : submitStep env state.clock state.db state.sessions (.flag id) =
      some (state.db.submissions, match processFlag env state.db (busyKeys state.sessions id)
        context progress rawFlag with
      | .ok next => setStage state.sessions id session (.submitting context next remaining)
      | .error _ => close state.sessions id) := by
    simp only [submitStep, present, stage]
    cases processFlag env state.db (busyKeys state.sessions id) context progress rawFlag <;> rfl
  let passed := setRace state id { raceOf state id with claim := .wanted flag info }
  have first : raceStep env state (.pass id) = some passed := by
    simp only [raceStep, present, idle, stage, wanted]
    rfl
  have claimed : (raceOf passed id).claim = .wanted flag info := by rw [race_set_self]
  have seated : passed.sessions.get? id = some session := present
  have started : Steps (raceStep env) (fun _ event => ofPass id event) state passed :=
    (Steps.refl state).snoc (.pass id) rfl first
  -- The two ways through _resolve_firstblood: the lock is taken, or it is ours.
  unfold resolveFirstblood at whole
  cases busy : busyKeys state.sessions id (info.teamId, info.serviceId) with
  | true =>
      obtain ⟨lost, second, db, sessions, judged⟩ := try_lost seated stage claimed busy
      simp only [busy, ↓reduceIte] at whole
      have own : lost.sessions.get? id = some session := by rw [sessions]; exact present
      have rest (other : Nat) (_ : other ≠ id) : lost.sessions.get? other = state.sessions.get? other := by
        rw [sessions]
        rfl
      have tables : lost.db = state.db := db
      rw [← tables] at whole
      obtain ⟨after, third, same, seats⟩ := insert_step own (by rw [← stage]) judged rest whole
      rw [tables] at same seats
      exact ⟨after, _, (started.snoc (.tryLock id) rfl second).snoc (.insert id) rfl third, same,
        platform, seats⟩
  | false =>
      obtain ⟨locked, second, db, sessions, claim⟩ := try_won seated stage claimed busy
      have own : locked.sessions.get? id =
          some (withKey session context progress (rawFlag :: remaining) info) := by
        rw [sessions, Dict.get_set_self]
      obtain ⟨looked, third, sameDb, sameSessions, judged⟩ := look_step own claim
      simp only [busy, Bool.false_eq_true, ↓reduceIte] at whole
      have rest (other : Nat) (apart : other ≠ id) :
          looked.sessions.get? other = state.sessions.get? other := by
        rw [sameSessions, sessions, Dict.get_set_other _ _ _ _ (Ne.symm apart)]
        rfl
      have tables : looked.db = state.db := sameDb.trans db
      have lockedTables : locked.db = state.db := db
      rw [lockedTables] at judged
      rw [← sameSessions] at own
      have seen : pendingOf (withKey session context progress (rawFlag :: remaining) info) =
          progress.pending := rfl
      rw [seen] at judged
      rw [← tables] at whole judged
      obtain ⟨after, fourth, same, seats⟩ := insert_step own rfl judged rest whole
      rw [tables] at same seats
      exact ⟨after, _, ((started.snoc (.tryLock id) rfl second).snoc (.look id) rfl third).snoc
        (.insert id) rfl fourth, same, platform, seats⟩

end Uninterrupted

/-! First bloods over runs. -/

/-- The transaction has looked for earlier captures of the key, and there was none. -/
def foundNone (key : Int × Int) (session : Session) (race : Race) : Bool :=
  verdictFor key race.claim = some true || (entriesFor key (pendingOf session)).contains true

/-- The step is not one of the two that lose the mark. In the first a transaction that has lost
the lock stores the first captures, while no other open one has found none. In the second
one that has found none ends without a commit, after another one has stored a capture. -/
def keepsMark (env : Settings) (key : Int × Int) (state : RaceState) : RaceEvent → Bool
  | .submit (.commit id) =>
      match state.sessions.get? id with
      | some session =>
          state.db.submissions.any (captured key) || !(pendingOf session).any (captured key) ||
            !(raceOf state id).lost.contains key ||
            state.sessions.entries.any fun entry => entry.1 ≠ id &&
            foundNone key entry.2 (raceOf state entry.1)
      | none => true
  | event =>
      !state.db.submissions.any (captured key) ||
        match raceStep env state event with
        | some after => state.sessions.entries.all fun entry =>
            !foundNone key entry.2 (raceOf state entry.1) || after.sessions.contains entry.1
        | none => true

section Marks
variable {env : Settings} {key : Int × Int}

theorem found_none_iff (session : Session) (race : Race) :
    foundNone key session race = true ↔ 0 < (partyOf key session race).weight := by
  unfold foundNone Party.weight partyOf marks
  dsimp only
  rw [Bool.or_eq_true, decide_eq_true_eq, List.contains_iff_mem, ← List.count_pos_iff]
  split
  · next judged => exact ⟨fun _ => Nat.succ_pos _, fun _ => Or.inl judged⟩
  · next otherwise => exact ⟨fun found => found.resolve_left otherwise, Or.inr⟩

theorem party_some {state : RaceState} {id : Nat} {party : Party}
    (present : (slotOf key state).parties id = some party) :
    ∃ session, state.sessions.get? id = some session ∧ partyOf key session (raceOf state id) = party :=
  Option.map_eq_some_iff.mp present

theorem stored_captured (rows : List Submission) :
    entriesFor key rows ≠ [] ↔ rows.any (captured key) = true := by
  rw [Ne, entries_nil_iff, Bool.not_eq_false]

theorem commit_keeps {state : RaceState} {id : Nat}
    (kept : keepsMark env key state (.submit (.commit id)) = true) :
    Keeps (slotOf key state) (.commits id) := by
  intro party present empty inserted lost
  obtain ⟨session, found, rfl⟩ := party_some present
  have nothing : state.db.submissions.any (captured key) = false := (entries_nil_iff _).mp empty
  have pending : (pendingOf session).any (captured key) = true := (stored_captured _).mp inserted
  have failed : (raceOf state id).lost.contains key = true := lost
  simp only [keepsMark, found, nothing, pending, failed, Bool.not_true, Bool.or_false,
    Bool.false_or] at kept
  obtain ⟨entry, member, looked⟩ := List.any_eq_true.mp kept
  rw [Bool.and_eq_true, decide_eq_true_eq] at looked
  have there := (Dict.mem_entries_iff _ _ _).mp member
  exact ⟨entry.1, _, looked.1, party_present key there, (found_none_iff _ _).mp looked.2⟩

theorem commit_loses {state : RaceState} {id : Nat}
    (lost : keepsMark env key state (.submit (.commit id)) = false) :
    ¬Keeps (slotOf key state) (.commits id) := by
  intro keeps
  unfold keepsMark at lost
  dsimp only at lost
  split at lost
  · next session found =>
    simp only [Bool.or_eq_false_iff, Bool.not_eq_false'] at lost
    obtain ⟨⟨⟨nothing, pending⟩, failed⟩, nobody⟩ := lost
    obtain ⟨other, party, apart, present, weighty⟩ := keeps _ (party_present key found)
      ((entries_nil_iff _).mpr nothing) ((stored_captured _).mpr pending) failed
    obtain ⟨seated, there, rfl⟩ := party_some present
    refine absurd (List.any_eq_false.mp nobody (other, seated) ((Dict.mem_entries_iff _ _ _).mpr there)) ?_
    rw [Classical.not_not, Bool.and_eq_true, decide_eq_true_eq]
    exact ⟨apart, (found_none_iff _ _).mpr weighty⟩
  · cases lost

theorem keeps_mark_other {state after : RaceState} {event : RaceEvent}
    (other : ∀ id, event ≠ .submit (.commit id)) (taken : raceStep env state event = some after) :
    keepsMark env key state event = (!state.db.submissions.any (captured key) ||
      state.sessions.entries.all fun entry =>
        !foundNone key entry.2 (raceOf state entry.1) || after.sessions.contains entry.1) := by
  unfold keepsMark
  split
  · next id => exact absurd rfl (other id)
  · rw [taken]

/-- The condition on the step is the condition on the slot. -/
theorem keeps_mark_iff {state after : RaceState} {event : RaceEvent} {outcome : Outcome Nat}
    (taken : raceStep env state event = some after)
    (claims : Claims (slotOf key state) outcome (slotOf key after))
    (named : ∀ id, outcome = .commits id ↔ event = .submit (.commit id)) :
    keepsMark env key state event = true ↔ Keeps (slotOf key state) outcome := by
  by_cases commit : ∃ id, event = .submit (.commit id)
  · obtain ⟨id, rfl⟩ := commit
    rw [(named id).mpr rfl]
    refine ⟨commit_keeps, fun keeps => ?_⟩
    by_contra lost
    exact commit_loses (Bool.not_eq_true _ ▸ lost) keeps
  have other (id : Nat) : event ≠ .submit (.commit id) := fun same => commit ⟨id, same⟩
  have gone_iff (id : Nat) : after.sessions.contains id = false ↔ (slotOf key after).parties id = none := by
    show _ ↔ partyAt key after id = none
    rw [partyAt, Option.map_eq_none_iff, Dict.contains, Option.isSome_eq_false_iff,
      Option.isNone_iff_eq_none]
  rw [keeps_mark_other other taken, Bool.or_eq_true, Bool.not_eq_true', List.all_eq_true]
  constructor
  · intro kept
    cases outcome with
    | goesOn => trivial
    | commits id => exact absurd ((named id).mp rfl) (other id)
    | leaves id =>
        intro party present something
        obtain ⟨session, found, rfl⟩ := party_some present
        -- The session has ended without a commit, so it had not found the service uncaptured.
        have gone := (gone_iff id).mpr (leave_removes claims)
        rcases kept with nothing | all
        · exact absurd ((entries_nil_iff _).mpr nothing) something
        · have unfound := all (id, session) ((Dict.mem_entries_iff _ _ _).mpr found)
          rw [Bool.or_eq_true, Bool.not_eq_true', gone] at unfound
          have silent := unfound.resolve_right Bool.false_ne_true
          rw [← Bool.not_eq_true, found_none_iff] at silent
          exact Nat.eq_zero_of_not_pos silent
  · intro keeps
    rw [or_iff_not_imp_left, Bool.not_eq_false]
    intro something entry member
    have there := (Dict.mem_entries_iff _ _ _).mp member
    rw [Bool.or_eq_true, Bool.not_eq_true', or_iff_not_imp_right, Bool.not_eq_true, gone_iff]
    intro gone
    have present := party_present key there
    rcases party_removed claims present gone with rfl | rfl
    · exact absurd ((named entry.1).mp rfl) (other entry.1)
    · have silent := keeps _ present ((stored_captured _).mpr something)
      rw [← Bool.not_eq_true, found_none_iff, silent]
      exact Nat.lt_irrefl 0

/-- A step that leaves the slot as it is ends no transaction. -/
theorem keeps_mark_same {state after : RaceState} {event : RaceEvent}
    (taken : raceStep env state event = some after) (other : ∀ id, event ≠ .submit (.commit id))
    (same : slotOf key after = slotOf key state) :
    keepsMark env key state event = true := by
  rw [keeps_mark_other other taken, Bool.or_eq_true, List.all_eq_true]
  right
  intro entry member
  have present := party_present key ((Dict.mem_entries_iff _ _ _).mp member)
  rw [← same] at present
  obtain ⟨session, found, _⟩ := party_some present
  rw [Bool.or_eq_true]
  exact Or.inr ((Dict.contains_eq_some _ _).mpr ⟨session, found⟩)

/-- What holds of a state in every run. -/
structure Course (key : Int × Int) (state : RaceState) : Prop where
  placed : Placed state
  single : Single (slotOf key state)
  judged : Judged (slotOf key state)

theorem course_step {before after : RaceState} {event : RaceEvent} (course : Course key before)
    (taken : raceStep env before event = some after) : Course key after := by
  have simulates := race_step_simulates key course.placed taken
  obtain ⟨outcome, means, _⟩ := simulates.means
  cases means with
  | same unchanged => exact ⟨simulates.placed, unchanged ▸ course.single, unchanged ▸ course.judged⟩
  | claims outcome claims =>
      exact ⟨simulates.placed, single_step course.single claims,
        judged_step course.single course.judged claims⟩

theorem mark_step {before after : RaceState} {event : RaceEvent} (course : Course key before)
    (taken : raceStep env before event = some after) :
    (Marked (slotOf key before) → keepsMark env key before event = true → Marked (slotOf key after)) ∧
      (keepsMark env key before event = false → Unmarked (slotOf key after)) ∧
      (Unmarked (slotOf key before) → Unmarked (slotOf key after)) := by
  obtain ⟨outcome, means, named⟩ := (race_step_simulates key course.placed taken).means
  cases means with
  | same unchanged =>
      rw [unchanged]
      refine ⟨fun marked _ => marked, ?_, id⟩
      intro lost
      have kept := keeps_mark_same taken (fun id same => nomatch (named id).mpr same) unchanged
      rw [kept] at lost
      cases lost
  | claims outcome claims =>
      have condition := keeps_mark_iff taken claims named
      refine ⟨?_, ?_, fun unmarked => unmarked_step unmarked claims⟩
      · exact fun marked kept => marked_step course.single course.judged marked claims (condition.mp kept)
      · intro lost
        apply unmarked_begins course.single course.judged claims
        intro keeps
        rw [condition.mpr keeps] at lost
        cases lost

theorem unmarked_run {events : List RaceEvent} {start last : RaceState} (course : Course key start)
    (unmarked : Unmarked (slotOf key start))
    (ran : exec (raceStep env) (fun _ _ => True) start events = some last) :
    Unmarked (slotOf key last) := by
  have kept := steps_invariant (fun state => Course key state ∧ Unmarked (slotOf key state))
    (fun before event after both _ taken => ⟨course_step both.1 taken, (mark_step both.1 taken).2.2 both.2⟩)
    ⟨course, unmarked⟩ (exec_steps events start last ran)
  exact kept.2

/-- A run either keeps the mark in every step or has lost it at its end. -/
theorem mark_run {events : List RaceEvent} {start last : RaceState} (course : Course key start)
    (marked : Marked (slotOf key start))
    (ran : exec (raceStep env) (fun _ _ => True) start events = some last) :
    EachStep (raceStep env) (fun state event => keepsMark env key state event = true) start events ∧
        Marked (slotOf key last) ∨
      ¬EachStep (raceStep env) (fun state event => keepsMark env key state event = true) start events ∧
        Unmarked (slotOf key last) := by
  induction events generalizing start with
  | nil =>
      rw [exec, Option.some.injEq] at ran
      exact Or.inl ⟨trivial, ran ▸ marked⟩
  | cons event rest ih =>
      simp only [exec, ↓reduceIte] at ran
      obtain ⟨middle, taken, tail⟩ := Option.bind_eq_some_iff.mp ran
      have next := course_step course taken
      obtain ⟨keeps, loses, _⟩ := mark_step course taken
      have split := after_step taken
        (EachStep (raceStep env) (fun state event => keepsMark env key state event = true) · rest)
      rw [EachStep, split]
      -- A step that loses the mark settles the rest of the run.
      cases kept : keepsMark env key start event with
      | false => exact Or.inr ⟨fun each => Bool.false_ne_true each.1, unmarked_run next (loses kept) tail⟩
      | true =>
          rcases ih next (keeps marked kept) tail with ⟨each, held⟩ | ⟨some_, lost⟩
          · exact Or.inl ⟨⟨rfl, each⟩, held⟩
          · exact Or.inr ⟨fun both => some_ both.2, lost⟩

end Marks

def firstBloods (key : Int × Int) (rows : List Submission) : Nat :=
  rows.countP fun row => captured key row && row.isFirstblood

theorem first_bloods_marks (key : Int × Int) (rows : List Submission) :
    firstBloods key rows = marks (entriesFor key rows) := by
  unfold firstBloods marks entriesFor
  rw [List.count, List.countP_map, List.countP_filter]
  congr 1
  funext row
  cases marked : row.isFirstblood <;> simp [marked]

/-- Whatever has been captured before has its one first blood. -/
def Settled (key : Int × Int) (rows : List Submission) : Prop :=
  firstBloods key rows ≤ 1 ∧ (rows.any (captured key) = true → firstBloods key rows = 1)

instance (key : Int × Int) (rows : List Submission) : Decidable (Settled key rows) :=
  inferInstanceAs (Decidable (_ ∧ _))

theorem course_start {key : Int × Int} {state : RaceState} (alone : state.sessions = Dict.empty)
    (settled : Settled key state.db.submissions) : Course key state ∧ Marked (slotOf key state) := by
  have nobody (id : Nat) : state.sessions.get? id = none := by rw [alone]; rfl
  have absent (id : Nat) (party : Party) : (slotOf key state).parties id ≠ some party := by
    show (state.sessions.get? id).map _ ≠ _
    rw [nobody]
    exact nofun
  refine ⟨⟨?_, ⟨?_, ?_, ?_, ?_⟩, ⟨?_, ?_, ?_, ?_⟩⟩, ?_⟩
  · intro id session present
    rw [nobody] at present
    cases present
  · exact (first_bloods_marks key _).symm.le.trans settled.1
  · exact fun one two first second present => absurd present (absent one first)
  all_goals try exact fun id party present => absurd present (absent id party)
  intro stored
  exact Or.inl ((first_bloods_marks key _).symm.trans (settled.2 ((stored_captured _).mp stored)))

/-- There is never a second first blood for a team's service. When it has been captured and no
transaction is open, it has one exactly when no step of the run has lost the mark. -/
theorem first_blood_unique (env : Settings) (key : Int × Int) (start : RaceState)
    (alone : start.sessions = Dict.empty) (settled : Settled key start.db.submissions) :
    (∀ state, Steps (raceStep env) (fun _ _ => True) start state →
      firstBloods key state.db.submissions ≤ 1) ∧
      ∀ events state, exec (raceStep env) (fun _ _ => True) start events = some state →
      state.sessions.entries = [] → state.db.submissions.any (captured key) = true →
        (firstBloods key state.db.submissions = 1 ↔
          EachStep (raceStep env) (fun state event => keepsMark env key state event = true) start
            events) := by
  obtain ⟨course, marked⟩ := course_start alone settled
  constructor
  · intro state run
    have kept := steps_invariant (Course key)
      (fun before event after kept _ taken => course_step kept taken) course run
    rw [first_bloods_marks]
    exact kept.single.stored
  · intro events state ran ended captures
    rw [first_bloods_marks]
    rcases mark_run course marked ran with ⟨each, held⟩ | ⟨some_, lost⟩
    · refine iff_of_true ?_ each
      refine (held ((stored_captured _).mpr captures)).resolve_right ?_
      rintro ⟨id, party, present, _⟩
      obtain ⟨session, found, _⟩ := party_some present
      have member := (Dict.mem_entries_iff _ _ _).mpr found
      rw [ended] at member
      cases member
    · refine iff_of_false ?_ some_
      intro one
      have none_ : marks (entriesFor key state.db.submissions) = 0 := lost.stored
      omega

/-! Two teams submit the same flag of a third one. -/

def threeTeams : InitDb.Deployment := { sampleDeployment with teams := ["alpha", "beta", "gamma"] }

/-- bootstrap_database and the public opening of tick 1. -/
def beforeRace : RaceState :=
  let opened := exec (step sampleSettings threeTeams) (fun _ _ => True) (initial 1000000000)
    [.bootstrap, .publicSync]
  ⟨1000000000, (opened.getD (initial 0)).db, Dict.empty, Dict.empty⟩

/-- A session up to the decision on its flag. -/
def enters (id : Nat) (teamId : Int) : List RaceEvent :=
  [.submit (.start id teamId [betaFlag] "10.0.0.1"), .submit (.gate id), .submit (.identify id),
    .submit (.lock id), .submit (.prepare id), .pass id]

/-- The loser of the lock commits first, after the holder has looked. -/
def looksFirst : List RaceEvent :=
  enters 1 1 ++ enters 2 3 ++ [.tryLock 1, .tryLock 2, .look 1, .insert 2, .submit (.commit 2),
    .insert 1, .submit (.commit 1)]

/-- The loser of the lock commits before the holder looks. -/
def looksLate : List RaceEvent :=
  enters 1 1 ++ enters 2 3 ++ [.tryLock 1, .tryLock 2, .insert 2, .submit (.commit 2), .look 1,
    .insert 1, .submit (.commit 1)]

theorem holder_gets_first_blood :
    ∃ state, exec (raceStep sampleSettings) (fun _ _ => True) beforeRace looksFirst = some state ∧
      (state.db.submissions.filter (captured (2, 1))).map (·.submitterTeamId) = [3, 1] ∧
      firstBloods (2, 1) state.db.submissions = 1 := by
  have each : EachStep (raceStep sampleSettings)
      (fun state event => keepsMark sampleSettings (2, 1) state event = true)
      beforeRace looksFirst := by decide +kernel
  refine ⟨_, rfl, by decide +kernel, ?_⟩
  exact ((first_blood_unique sampleSettings (2, 1) beforeRace rfl (by decide +kernel)).2 looksFirst _ rfl
    (by decide +kernel) (by decide +kernel)).mpr each

/-- Both captures are accepted and committed, and neither is first blood. -/
theorem race_without_first_blood :
    ∃ state, exec (raceStep sampleSettings) (fun _ _ => True) beforeRace looksLate = some state ∧
      beforeRace.db.submissions = [] ∧ state.sessions.entries = [] ∧
      (state.db.submissions.filter (captured (2, 1))).map (·.submitterTeamId) = [3, 1] ∧
      firstBloods (2, 1) state.db.submissions = 0 := by
  refine ⟨(exec (raceStep sampleSettings) (fun _ _ => True) beforeRace looksLate).getD beforeRace, ?_⟩
  decide +kernel

end KosSim.FirstbloodRaces
