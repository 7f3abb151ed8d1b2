import KosSim.SingleCalls

/-!
admin_panel.py: the report on one flag. It walks the window and the game state like
submit_flags, but it never asks whether the target and the service can be scored, and a
row of any team makes the flag an old one, where the table is unique by team and flag.
-/

namespace KosSim.FlagReports
open Library Schema FlagCrypto FlagSubmit Platform SubmitSessions FlagBatches SingleCalls

inductive Verdict where
  | wouldAccept
  | notRunning
  | expired
  | futureTick
  | alreadySubmitted (result : SubmitStatus)
  deriving DecidableEq

structure Report where
  tick : Int
  team : String
  service : String
  payload : Int
  verdict : Verdict
  submittedBefore : Bool
  isFirstblood : Bool
  deriving DecidableEq

/-- SELECT .. FROM submissions WHERE flag = .. LIMIT 1 -/
def storedRow (db : Db) (flag : Text) : Option Submission := db.submissions.find? fun row => row.flag = flag

def verdict (env : Settings) (db : Db) (info : FlagInfo) (sub : Option Submission) : Verdict :=
  if gameRunning env db = false then .notRunning
  else if info.tick < oldestAcceptableTick env (currentTick env db) then .expired
  else if currentTick env db < info.tick then .futureTick
  else match sub with
    | some row => .alreadySubmitted row.result
    | none => .wouldAccept

/-- `_decode_flag_report`; none is the answer with valid = False. -/
def decodeFlagReport (env : Settings) (db : Db) (flag : Text) : Option Report :=
  (decodeFlag env (strip flag)).map fun info =>
    let sub := storedRow db (strip flag)
    { tick := info.tick
      team := ((db.teams.get? info.teamId).map (·.name)).getD s!"id={info.teamId}"
      service := ((db.services.get? info.serviceId).map (·.name)).getD s!"id={info.serviceId}"
      payload := info.payload
      verdict := verdict env db info sub
      submittedBefore := sub.isSome
      isFirstblood := (sub.map (·.isFirstblood)).getD false }

def WouldAccept (env : Settings) (db : Db) (flag : Text) : Prop :=
  (decodeFlagReport env db flag).map (·.verdict) = some .wouldAccept

/-- A team that the flag is not of and that has not sent it: NOP teams do not count. -/
structure Outsider (env : Settings) (db : Db) (flag : Text) (teamId : Int) : Prop where
  playing : ∃ team, db.teams.get? teamId = some team ∧ team.isNop = false
  foreign : ∀ info, decodeFlag env (strip flag) = some info → info.teamId ≠ teamId
  fresh : submitted db.submissions teamId (strip flag) = false

def SomeTeamAccepted (env : Settings) (db : Db) (now : Int) (sourceIp : String) (flag : Text) : Prop :=
  ∃ teamId, Outsider env db flag teamId ∧
    (call env now teamId sourceIp db [flag]).2.map (·.status) = [.accepted]

/-- The flag decodes, the game runs, and the tick of the flag is in the window. -/
structure Open (env : Settings) (db : Db) (flag : Text) (info : FlagInfo) : Prop where
  decoded : decodeFlag env (strip flag) = some info
  running : gameRunning env db = true
  recent : oldestAcceptableTick env (currentTick env db) ≤ info.tick
  issued : info.tick ≤ currentTick env db

/-- The target is an existing team that is no NOP team, and the service exists. -/
def Scorable (db : Db) (info : FlagInfo) : Prop :=
  (∃ target, db.teams.get? info.teamId = some target ∧ target.isNop = false) ∧
    ∃ service, db.services.get? info.serviceId = some service

/-- Nobody has sent an open flag exactly when it can be scored and an outsider is left. -/
def ReportExact (env : Settings) (db : Db) (flag : Text) : Prop :=
  ∀ info, Open env db flag info →
    ((∀ row ∈ db.submissions, row.flag ≠ strip flag) ↔
      Scorable db info ∧ ∃ teamId, Outsider env db flag teamId)

section Report
variable {env : Settings} {db : Db} {now teamId : Int} {sourceIp : String} {flag : Text} {info : FlagInfo}

theorem stored_row_none : storedRow db flag = none ↔ ∀ row ∈ db.submissions, row.flag ≠ flag := by
  rw [storedRow, List.find?_eq_none]
  constructor
  · intro none row member same
    exact none row member (decide_eq_true same)
  · intro none row member same
    exact none row member (of_decide_eq_true same)

theorem verdict_accepts {sub : Option Submission} :
    verdict env db info sub = .wouldAccept ↔ gameRunning env db = true ∧
      oldestAcceptableTick env (currentTick env db) ≤ info.tick ∧ info.tick ≤ currentTick env db ∧
      sub = none := by
  unfold verdict
  by_cases stopped : gameRunning env db = false
  · rw [if_pos stopped, stopped]
    exact iff_of_false nofun fun all => Bool.false_ne_true all.1
  rw [if_neg stopped]
  rw [Bool.not_eq_false] at stopped
  by_cases old : info.tick < oldestAcceptableTick env (currentTick env db)
  · rw [if_pos old]
    exact iff_of_false nofun fun all => absurd all.2.1 (not_le.mpr old)
  rw [if_neg old]
  by_cases early : currentTick env db < info.tick
  · rw [if_pos early]
    exact iff_of_false nofun fun all => absurd all.2.2.1 (not_le.mpr early)
  rw [if_neg early]
  cases sub with
  | some row => exact iff_of_false nofun fun all => Option.some_ne_none row all.2.2.2
  | none => exact iff_of_true rfl ⟨stopped, not_lt.mp old, not_lt.mp early, rfl⟩

theorem would_accept_iff : WouldAccept env db flag ↔
    ∃ info, Open env db flag info ∧ ∀ row ∈ db.submissions, row.flag ≠ strip flag := by
  rw [WouldAccept, decodeFlagReport, Option.map_map, Option.map_eq_some_iff]
  constructor
  · rintro ⟨info, decoded, accepts⟩
    obtain ⟨running, recent, issued, none⟩ := verdict_accepts.mp accepts
    exact ⟨info, ⟨decoded, running, recent, issued⟩, stored_row_none.mp none⟩
  · rintro ⟨info, inside, none⟩
    exact ⟨info, inside.decoded,
      verdict_accepts.mpr ⟨inside.running, inside.recent, inside.issued, stored_row_none.mpr none⟩⟩

/-! What submit_flags answers. -/

theorem open_filled (decoded : decodeFlag env flag = some info) : flag ≠ [] := by
  rintro rfl
  cases decoded

theorem classify_scorable {context : Context} {progress : Progress} (uncapped : env.maxAcceptedPerRound ≤ 0)
    (teams : context.teamMeta = db.teams) (services : context.serviceMeta = db.services)
    (scorable : Scorable db info) (foreign : info.teamId ≠ context.submitterId)
    (recent : oldestAcceptableTick env context.tickNow ≤ info.tick) (issued : info.tick ≤ context.tickNow) :
    classify env context progress info = .accepted := by
  obtain ⟨⟨target, found, playing⟩, service, known⟩ := scorable
  unfold classify
  rw [teams, services, found, known]
  have open_ : ¬(0 < env.maxAcceptedPerRound ∧ env.maxAcceptedPerRound ≤ progress.acceptedThisRound) :=
    fun capped => absurd capped.1 (not_lt.mpr uncapped)
  simp only [foreign, playing, not_lt.mpr recent, not_lt.mpr issued, open_, ↓reduceIte, Bool.false_eq_true]

/-- The status that one pass of the loop answers for a flag that was not sent before. -/
theorem pass_accepted {roundId : Int} {name : String} {next : Progress}
    (done : processFlag env db nobody (contextOf env now teamId roundId name sourceIp db)
      (begun (acceptedInRound db.submissions teamId roundId)) flag = .ok next)
    (accepted : next.resultRows.map (·.status) = [.accepted]) :
    ∃ info, decodeFlag env (strip flag) = some info ∧
      classify env (contextOf env now teamId roundId name sourceIp db)
        (begun (acceptedInRound db.submissions teamId roundId)) info = .accepted := by
  unfold processFlag at done
  dsimp only at done
  split at done
  · cases done
    cases accepted
  split at done
  · cases done
  split at done
  · cases done
    cases accepted
  split at done
  · unfold processInvalid at done
    dsimp only at done
    split at done
    · cases done
    · cases done
      cases accepted
  · next info decoded =>
    refine ⟨info, decoded, ?_⟩
    unfold processDecoded at done
    dsimp only at done
    split at done
    · cases done
    · cases done
      exact (List.cons.inj accepted).1

theorem pass_accepts (now roundId : Int) (name sourceIp : String)
    (uncapped : env.maxAcceptedPerRound ≤ 0) (outsider : Outsider env db flag teamId)
    (inside : Open env db flag info) (scorable : Scorable db info) :
    ∃ next, processFlag env db nobody (contextOf env now teamId roundId name sourceIp db)
        (begun (acceptedInRound db.submissions teamId roundId)) flag = .ok next ∧
      next.resultRows.map (·.status) = [.accepted] := by
  let context := contextOf env now teamId roundId name sourceIp db
  let start := begun (acceptedInRound db.submissions teamId roundId)
  obtain ⟨team, found, _⟩ := outsider.playing
  have known : db.teams.contains teamId = true := (Dict.contains_eq_some _ _).mpr ⟨team, found⟩
  have fresh : submitted (db.submissions ++ start.pending) teamId (strip flag) = false := by
    rw [show start.pending = [] from rfl, List.append_nil]
    exact outsider.fresh
  obtain ⟨next, done⟩ : ∃ next, processDecoded env db nobody context start (strip flag) info = .ok next :=
    decoded_total start (strip flag) info rfl rfl known fresh (decoded_plain inside.decoded).2
  have status : classify env context start info = .accepted :=
    classify_scorable uncapped rfl rfl scorable (outsider.foreign info inside.decoded) inside.recent
      inside.issued
  refine ⟨next, ?_, ?_⟩
  · have unfresh : ¬submitted (db.submissions ++ start.pending) context.submitterId (strip flag) =
        true := by
      rw [show context.submitterId = teamId from rfl, fresh]
      exact Bool.false_ne_true
    have plain := Bool.eq_false_iff.mp (decoded_plain inside.decoded).1
    rw [processFlag, if_neg (open_filled inside.decoded), if_neg plain, if_neg unfresh, inside.decoded]
    exact done
  · unfold processDecoded at done
    dsimp only at done
    split at done
    · cases done
    · cases done
      show [classify env context start info] = [.accepted]
      rw [status]

theorem call_accepted (outsider : Outsider env db flag teamId)
    (accepted : (call env now teamId sourceIp db [flag]).2.map (·.status) = [.accepted]) :
    ∃ info, Open env db flag info ∧ Scorable db info := by
  obtain ⟨team, found, playing⟩ := outsider.playing
  cases running : gameRunning env db with
  | false =>
      rw [call, submitFlags, running] at accepted
      cases accepted
  | true =>
      cases round : currentRoundId env db now with
      | error error =>
          rw [call_failed running found playing round] at accepted
          cases accepted
      | ok roundId =>
          rw [call_loop ⟨running, found, playing, round⟩, List.foldlM_cons] at accepted
          cases passed : processFlag env db nobody (contextOf env now teamId roundId team.name sourceIp db)
              (begun (acceptedInRound db.submissions teamId roundId)) flag with
          | error error =>
              rw [passed] at accepted
              cases accepted
          | ok next =>
              rw [passed] at accepted
              obtain ⟨info, decoded, status⟩ := pass_accepted passed accepted
              obtain ⟨target, service, foundTarget, foundService, _, targetPlaying, recent, issued⟩ :=
                classify_known status
              exact ⟨info, ⟨decoded, running, recent, issued⟩, ⟨target, foundTarget, targetPlaying⟩,
                service, foundService⟩

theorem call_accepts (uncapped : env.maxAcceptedPerRound ≤ 0) (outsider : Outsider env db flag teamId)
    (inside : Open env db flag info) (scorable : Scorable db info) :
    (call env now teamId sourceIp db [flag]).2.map (·.status) = [.accepted] := by
  obtain ⟨team, found, playing⟩ := outsider.playing
  -- The window starts at tick 1, so the clock's round is not asked for.
  have started : 1 ≤ currentTick env db := le_trans (le_trans (le_max_left _ _) inside.recent) inside.issued
  have round : currentRoundId env db now = .ok (currentTick env db) := if_pos started
  rw [call_loop ⟨inside.running, found, playing, round⟩, List.foldlM_cons]
  obtain ⟨next, passed, accepted⟩ := pass_accepts now (currentTick env db) team.name sourceIp
    uncapped outsider inside scorable
  rw [passed]
  exact accepted

theorem some_team_iff (uncapped : env.maxAcceptedPerRound ≤ 0) : SomeTeamAccepted env db now sourceIp flag ↔
    ∃ info, Open env db flag info ∧ Scorable db info ∧ ∃ teamId, Outsider env db flag teamId := by
  constructor
  · rintro ⟨teamId, outsider, accepted⟩
    obtain ⟨info, inside, scorable⟩ := call_accepted outsider accepted
    exact ⟨info, inside, scorable, teamId, outsider⟩
  · rintro ⟨info, inside, scorable, teamId, outsider⟩
    exact ⟨teamId, outsider, call_accepts uncapped outsider inside scorable⟩

end Report

/-- The report and submit_flags agree on a flag exactly when, as far as the flag is open, it
is unsent by all teams just where it can be scored and another team is left to send it. -/
theorem report_agrees_iff (env : Settings) (db : Db) (now : Int) (sourceIp : String) (flag : Text)
    (uncapped : env.maxAcceptedPerRound ≤ 0) :
    (WouldAccept env db flag ↔ SomeTeamAccepted env db now sourceIp flag) ↔ ReportExact env db flag := by
  rw [would_accept_iff, some_team_iff uncapped]
  constructor
  · intro agree info inside
    have only (other : FlagInfo) (there : Open env db flag other) : other = info :=
      Option.some.inj (there.decoded.symm.trans inside.decoded)
    constructor
    · intro unsent
      obtain ⟨other, there, both⟩ := agree.mp ⟨info, inside, unsent⟩
      exact only other there ▸ both
    · intro both
      obtain ⟨other, there, unsent⟩ := agree.mpr ⟨info, inside, both⟩
      exact unsent
  · intro exactly_
    constructor
    · rintro ⟨info, inside, unsent⟩
      exact ⟨info, inside, (exactly_ info inside).mp unsent⟩
    · rintro ⟨info, inside, both⟩
      exact ⟨info, inside, (exactly_ info inside).mpr both⟩

theorem beta_reported : ReportExact sampleSettings afterFirstTick.db betaFlag := by
  intro info inside
  have decoded : decodeFlag sampleSettings (strip betaFlag) = some ⟨1, 2, 1, 0⟩ := by decide +kernel
  have same : info = ⟨1, 2, 1, 0⟩ := Option.some.inj (inside.decoded.symm.trans decoded)
  subst same
  have unsent : afterFirstTick.db.submissions = [] := by decide +kernel
  have service : (afterFirstTick.db.services.get? 1).isSome = true := by decide +kernel
  refine iff_of_true ?_ ⟨⟨⟨⟨"beta", "submit-beta", "beta-nat", false, "XK"⟩, ?_, rfl⟩, ?_⟩, 1, ?_, ?_, ?_⟩
  · rw [unsent]
    exact List.forall_mem_nil _
  · decide +kernel
  · exact Option.isSome_iff_exists.mp service
  · exact ⟨⟨"alpha", "submit-alpha", "alpha-nat", false, "XK"⟩, by decide +kernel, rfl⟩
  · intro other there
    rw [decoded] at there
    cases there
    decide
  · rw [unsent]
    rfl

/-- Beta's flag in tick 1: the report says so, and alpha's capture is accepted. -/
theorem beta_report_agrees : WouldAccept sampleSettings afterFirstTick.db betaFlag ↔
    SomeTeamAccepted sampleSettings afterFirstTick.db 1000000000 "10.0.0.1" betaFlag :=
  (report_agrees_iff sampleSettings afterFirstTick.db 1000000000 "10.0.0.1" betaFlag (by decide)).mpr
    beta_reported

/-- The flag of the NOP team (team 3) on service 1 in tick 1. -/
def nopFlag : Text := makeFlag sampleSettings 1 3 1 0

/-- The report would accept the NOP team's flag, and every team that sends it is refused. -/
theorem nop_report_disagrees : WouldAccept sampleSettings afterFirstTick.db nopFlag ∧
    ¬SomeTeamAccepted sampleSettings afterFirstTick.db 1000000000 "10.0.0.1" nopFlag := by
  constructor
  · show (decodeFlagReport sampleSettings afterFirstTick.db nopFlag).map (·.verdict) = some .wouldAccept
    decide +kernel
  · rintro ⟨teamId, outsider, accepted⟩
    obtain ⟨info, inside, ⟨target, found, playing⟩, _⟩ := call_accepted outsider accepted
    have decoded : decodeFlag sampleSettings (strip nopFlag) = some ⟨1, 3, 1, 0⟩ := by decide +kernel
    have same : info = ⟨1, 3, 1, 0⟩ := Option.some.inj (inside.decoded.symm.trans decoded)
    have nop : (afterFirstTick.db.teams.get? 3).map (·.isNop) = some true := by decide +kernel
    rw [same] at found
    rw [found, Option.map_some, playing] at nop
    cases nop

end KosSim.FlagReports
