import KosSim.Library.Counting
import KosSim.ScoreSummaries
import KosSim.Scoreboard
import KosSim.StolenSeason
import KosSim.StoredScores
import KosSim.SubmitSessions

/-!
The snapshot of a tick beside the live statistics. Both count the captures and the attackers of a
pair, one over the scored ticks and one over the submissions; in the column of the victims the
snapshot carries the number of flags stolen from the team, and the live query the number of teams
that the team has stolen from.
-/

namespace KosSim.SnapshotStats
open Library Schema FlagCrypto Scoring ScoringLedger SeasonScores Rotator PlatformFrames
    ScoringBlocked ScoringInputs
open StoredScores StolenFlags StolenSeason SubmitSessions ScoreSummaries TickClosing Finset

/-- The ticks 1 .. last, each as it was scored last. In between rows are added and none is deleted;
the keys refer to rows that are there, a (submitter, flag) is there once, and what submit_flags has
accepted says what its flag says. -/
structure ScoredHistory (env : Settings) (retention : Int) (last : Nat) where
  before : Nat → Db
  after : Nat → Db
  scored : ∀ tick : Nat, 1 ≤ tick → tick ≤ last →
    scoreTick env (before tick) tick retention = .ok (after tick)
  readBack : ∀ tick : Nat, 1 ≤ tick → tick < last →
    pointsOfTick (before (tick + 1)) tick = pointsOfTick (after tick) tick
  teams : ∀ tick : Nat, 1 ≤ tick → tick < last → ∀ id ∈ (before tick).teams.keys,
    id ∈ (before (tick + 1)).teams.keys
  services : ∀ tick : Nat, 1 ≤ tick → tick < last →
    ∀ id ∈ (before tick).services.keys, id ∈ (before (tick + 1)).services.keys
  submissions : ∀ tick : Nat, 1 ≤ tick → tick < last →
    (before tick).submissions <+: (before (tick + 1)).submissions
  rounds : ∀ tick : Nat, 1 ≤ tick → tick ≤ last → ∃ round, (before tick).roundOfTick tick = some round ∧
    (before last).roundOfTick tick = some round
  inOrder : ∀ (one other : Nat) first second, 1 ≤ one → one < other →
    (before last).roundOfTick one = some first → (before last).roundOfTick other = some second →
      first.2.startsAt ≤ first.2.endsAt ∧ first.2.endsAt ≤ second.2.startsAt
  placed : ∀ row ∈ (before last).submissions, row.result = .accepted →
    ∃ tick : Nat, 1 ≤ tick ∧ tick ≤ last ∧ inWindow (before last) tick row = true
  refs : ∀ tick : Nat, 1 ≤ tick → tick ≤ last → PointRefs (before tick) (before tick).scoring.teamTickPoints
  served : ∀ pair ∈ (before last).teamServices.keys, pair.2 ∈ (before last).services.keys
  unique : ((before last).submissions.map ident).Nodup
  decoded : ∀ row ∈ (before last).submissions, row.result = .accepted →
    ∃ info, decodeFlag env row.flag = some info ∧
    describedBy info.teamId info.serviceId info.tick info.payload row

def atPair (target : Submission → Option Int) (pair : Pair) (row : Submission) : Bool :=
  decide (row.result = .accepted) && decide (target row = some pair.1) &&
    decide (row.serviceId = some pair.2)

/-- The distinct flags of the pair that anyone has captured. -/
def stolenFrom (rows : List Submission) (pair : Pair) : Finset Text :=
  ((rows.filter (atPair (·.targetTeamId) pair)).map (·.flag)).toFinset

/-- The distinct teams whose flags of the service the team has captured. -/
def robbedBy (rows : List Submission) (pair : Pair) : Finset Int :=
  ((rows.filter (atPair (fun row => some row.submitterTeamId) pair)).filterMap (·.targetTeamId)).toFinset

/-- The rows of _per_service_stats. -/
def listed (db : Db) (pair : Pair) : Prop :=
  pair ∈ db.teamServices.keys ∧ Scoreboard.shownTeam db false pair.1 = true

namespace ScoredHistory
variable {env : Settings} {retention : Int} {last : Nat} (history : ScoredHistory env retention last)

def rows : List Submission := (history.before last).submissions

/-- The row was stored when the tick was scored, and counts there. -/
def Counted (tick : Nat) (row : Submission) : Prop :=
  row ∈ (history.before tick).submissions ∧ ∃ flag,
    stolenFlag (acceptedBefore (history.before tick) tick)
    (landed (history.before tick) tick) row = .ok flag ∧
      counts tick retention (loadTeamIds (history.before tick)).2 (loadServices (history.before tick))
        (loadTeamIds (history.before tick)).1 flag = true

def CountedInWindow (row : Submission) : Prop :=
  ∀ tick : Nat, 1 ≤ tick → tick ≤ last → inWindow (history.before last) tick row = true →
    history.Counted tick row

/-- Every accepted row counts in the tick whose window it lies in. -/
def AllCounted : Prop := ∀ row ∈ history.rows, row.result = .accepted → history.CountedInWindow row

/-- As many flags were stolen from each team's service as teams were robbed by it. -/
def EvenTrade : Prop := ∀ pair, listed (history.after last) pair →
  (stolenFrom history.rows pair).card = (robbedBy history.rows pair).card

/-- So do the captures of the teams that the statistics leave out. -/
def OthersCounted : Prop := ∀ row ∈ history.rows, row.result = .accepted →
  (∀ pair, listed (history.after last) pair →
    ¬ (pair.1 = row.submitterTeamId ∧ some pair.2 = row.serviceId)) → history.CountedInWindow row

/-- The snapshot of the last tick has the three columns of the live statistics. -/
def Agrees (view : Scoreboard.View) : Prop := ∀ pair stats,
  (Scoreboard.perServiceStats view (history.after last) false).get? pair = some stats →
    ∃ roundId snapshot, roundIdForTick (history.after last) last = some roundId ∧
      (history.after last).scoring.scoreSnapshots.get? (roundId, pair) = some snapshot ∧
      snapshot.flagsCaptured = stats.flagsCaptured ∧ snapshot.attackersCount = stats.attackersCount ∧
      snapshot.victimsCount = stats.victimsCount

end ScoredHistory

/-! One scoring. -/

section Tick
variable {env : Settings} {db after : Db} {tick retention : Int} {pair : Pair}

theorem pair_loaded (team : pair.1 ∈ db.teams.keys) (service : pair.2 ∈ db.services.keys) :
    known (loadServices db) (loadTeamIds db).1 pair := by
  refine ⟨(mem_by_key db.teams pair.1).mpr team, ?_⟩
  rw [load_services_ids]
  exact (mem_by_key db.services pair.2).mpr service

/-- The stolen count of a scored pair. -/
theorem score_tick_stolen (first : 1 ≤ tick) (team : pair.1 ∈ db.teams.keys)
    (service : pair.2 ∈ db.services.keys) (done : scoreTick env db tick retention = .ok after)
    {flags : List StolenFlag} (loaded : loadFlagsForTick db tick = .ok flags)
    (consistent : Consistent flags) :
    ∃ points, after.scoring.teamTickPoints.get? (tick, pair.1, pair.2) = some points ∧
      points.flagStolenCount =
        (keysOf (robs tick retention (loadTeamIds db).2 (loadServices db) (loadTeamIds db).1 pair)
        flags).card + lastStolen (loadLastTickPoints db (tick - 1)) pair := by
  rcases score_tick_cases done with ⟨_, early | nobody⟩ | ⟨_, _, _, read, table, _, _, reads, stored, same⟩
  · omega
  · rcases nobody with services | teams
    · rw [Dict.keys, services] at service
      cases service
    · rw [Dict.keys, teams] at team
      cases team
  · rw [loaded] at reads
    obtain rfl := Except.ok.inj reads
    obtain ⟨points, scored, count⟩ : ∃ points, (scoredPoints db tick retention flags).get? pair =
        some points ∧
        points.flagStolenCount =
          (keysOf (robs tick retention (loadTeamIds db).2 (loadServices db) (loadTeamIds db).1 pair)
          flags).card + lastStolen (loadLastTickPoints db (tick - 1)) pair :=
      scored_stolen _ _ _ consistent (pair_loaded team service)
    exact ⟨_, by rw [same]; exact persist_written stored pair _ scored, count⟩

end Tick

/-! The columns over the ticks. -/

section Columns
variable {env : Settings} {retention : Int} {last : Nat}
    (history : ScoredHistory env retention last) (pair : Pair)

/-- A column of the pair's row of a tick, 0 where there is none. -/
def column (value : TeamTickPoints → Int) : Nat → Int
  | 0 => 0
  | tick + 1 =>
      (((history.after (tick + 1)).scoring.teamTickPoints.get? ((tick + 1 : Nat), pair.1,
        pair.2)).map value).getD 0

variable {history pair}

theorem column_read {tick : Nat} (bound : tick + 1 ≤ last) (value : TeamTickPoints → Int)
    (lite : TeamPointsLite → Int)
    (same : ∀ prior entry, lite (toPoints prior entry).2 = value entry.2) :
    (((loadLastTickPoints (history.before (tick + 1)) ((tick + 1 : Nat) - 1 : Int)).get? pair).map
      lite).getD 0 = column history pair value tick := by
  have prior : ((tick + 1 : Nat) - 1 : Int) = tick := by omega
  rw [prior]
  cases tick with
  | zero => rfl
  | succ tick =>
      rw [loaded_last _ (by omega), history.readBack (tick + 1) (by omega) (by omega), points_get,
        Option.map_map]
      exact congrArg (Option.getD · 0) (congrArg (Option.map · _) (funext fun row => same _ (_, row)))

theorem rows_front {one other : Nat} (first : 1 ≤ one) (le : one ≤ other) (bound : other ≤ last) :
    (history.before one).submissions <+: (history.before other).submissions := by
  induction other, le using Nat.le_induction with
  | base => exact List.prefix_rfl
  | succ other le ih => exact (ih (by omega)).trans (history.submissions other (by omega) (by omega))

theorem teams_stay {one other : Nat} (first : 1 ≤ one) (le : one ≤ other) (bound : other ≤ last)
    {teamId : Int} (team : teamId ∈ (history.before one).teams.keys) :
    teamId ∈ (history.before other).teams.keys := by
  induction other, le using Nat.le_induction with
  | base => exact team
  | succ other le ih => exact history.teams other (by omega) (by omega) _ (ih (by omega))

theorem services_stay {one other : Nat} (first : 1 ≤ one) (le : one ≤ other) (bound : other ≤ last)
    {serviceId : Int} (service : serviceId ∈ (history.before one).services.keys) :
    serviceId ∈ (history.before other).services.keys := by
  induction other, le using Nat.le_induction with
  | base => exact service
  | succ other le ih => exact history.services other (by omega) (by omega) _ (ih (by omega))

/-- A pair that the tick does not know has no row of it. -/
theorem column_unknown {tick : Nat} (bound : tick + 1 ≤ last) (value : TeamTickPoints → Int)
    (unknown : ¬ (pair.1 ∈ (history.before (tick + 1)).teams.keys ∧
      pair.2 ∈ (history.before (tick + 1)).services.keys)) :
    column history pair value (tick + 1) = 0 := by
  have refs := history.refs (tick + 1) (by omega) bound
  have kept : PointRefs (history.before (tick + 1)) (history.after (tick + 1)).scoring.teamTickPoints := by
    rcases score_tick_cases (history.scored (tick + 1) (by omega) bound) with
      ⟨same, _⟩ | ⟨_, _, _, _, _, _, _, _, stored, same⟩
    · rw [same]
      exact refs
    · rw [same]
      exact persist_refs refs stored
  rw [column]
  cases found : (history.after (tick + 1)).scoring.teamTickPoints.get? ((tick + 1 : Nat), pair.1,
    pair.2) with
  | none => rfl
  | some row =>
      obtain ⟨team, service⟩ := kept _ (Dict.mem_keys_of_get found)
      exact absurd ⟨(Dict.contains_iff _ _).mp team, (Dict.contains_iff _ _).mp service⟩ unknown

theorem recorded (history : ScoredHistory env retention last) : Recorded (history.before last) where
  inOrder := history.inOrder
  placed := fun row stored accepted => by
    obtain ⟨tick, first, _, inside⟩ := history.placed row stored accepted
    exact ⟨tick, first, inside⟩
  determined := by
    let info (flag : Text) : FlagInfo := (decodeFlag env flag).getD ⟨0, 0, 0, 0⟩
    refine ⟨fun flag => (info flag).teamId, fun flag => (info flag).serviceId, fun flag => (info flag).tick,
      fun flag => (info flag).payload, fun row stored accepted => ?_⟩
    obtain ⟨found, decodes, described⟩ := history.decoded row stored accepted
    have same : info row.flag = found := by
      show (decodeFlag env row.flag).getD _ = found
      rw [decodes]
      rfl
    dsimp only
    rw [same]
    exact described

/-! The captures of a tick. -/

/-- The row counts as a capture of the pair in the scoring of the tick. -/
def rowCaptures (db : Db) (tick retention : Int) (pair : Pair) (row : Submission) : Bool :=
  (scorable row && inWindow db tick row) &&
    (stolenFlag (acceptedBefore db tick) (landed db tick) row).toOption.any
    (capturedBy tick retention (loadTeamIds db).2 (loadServices db) (loadTeamIds db).1 pair)

theorem landed_filter (db : Db) (tick : Int) :
    landed db tick = db.submissions.filter fun row => scorable row && inWindow db tick row := by
  unfold landed inWindow
  cases db.roundOfTick tick with
  | none => simp
  | some round => simp only [Bool.and_assoc]

theorem captures_count {db : Db} {tick : Int} {flags : List StolenFlag}
    (loaded : loadFlagsForTick db tick = .ok flags) (retention : Int) (pair : Pair) :
    flags.countP (capturedBy tick retention (loadTeamIds db).2 (loadServices db) (loadTeamIds db).1 pair) =
      db.submissions.countP (rowCaptures db tick retention pair) := by
  rw [count_mapM loaded]
  conv => lhs; arg 2; rw [landed_filter]
  rw [List.countP_filter]
  refine List.countP_congr fun row _ => ?_
  rw [rowCaptures, Bool.and_comm]

/-- The captures of a pair: accepted rows of the team on the service. -/
def captureOf : Pair → Submission → Bool := atPair fun row => some row.submitterTeamId

theorem row_captures_iff (db : Db) (tick retention : Int) (pair : Pair) (row : Submission) :
    rowCaptures db tick retention pair row = true ↔
      (captureOf pair row && inWindow db tick row) = true ∧
      ∃ flag, stolenFlag (acceptedBefore db tick) (landed db tick) row = .ok flag ∧
        counts tick retention (loadTeamIds db).2 (loadServices db) (loadTeamIds db).1 flag = true := by
  cases built : stolenFlag (acceptedBefore db tick) (landed db tick) row with
  | error error =>
      rw [rowCaptures, built]
      simp [Except.toOption]
  | ok flag =>
      obtain ⟨⟨hasTarget, hasService, hasTick, hasPayload⟩, _, submitter, _⟩ := stolen_flag_row built
      rw [rowCaptures, built]
      simp only [Except.toOption, Option.any_some, capturedBy, captureOf, atPair, scorable, hasService,
        hasTick, hasPayload, submitter, Option.isSome_some, Bool.and_true, Bool.and_eq_true,
        decide_eq_true_eq, Option.some.injEq, Except.ok.injEq, exists_eq_left', Prod.ext_iff]
      tauto

variable {history : ScoredHistory env retention last} {pair : Pair}

theorem same_window {tick : Nat} (first : 1 ≤ tick) (bound : tick ≤ last) (row : Submission) :
    inWindow (history.before tick) tick row = inWindow (history.before last) tick row := by
  obtain ⟨round, own, final⟩ := history.rounds tick first bound
  rw [inWindow, inWindow, own, final]

theorem row_known {tick : Nat} {row : Submission}
    (captures : rowCaptures (history.before tick) tick retention pair row = true) :
    pair.1 ∈ (history.before tick).teams.keys ∧ pair.2 ∈ (history.before tick).services.keys := by
  rw [rowCaptures, Bool.and_eq_true, Option.any_eq_true] at captures
  obtain ⟨_, flag, _, captured⟩ := captures
  simp only [capturedBy, counts, Bool.and_eq_true, decide_eq_true_eq] at captured
  obtain ⟨⟨⟨⟨_, service⟩, submitter⟩, _⟩, rfl⟩ := captured
  rw [load_services_ids, mem_by_key] at service
  exact ⟨(mem_by_key _ _).mp submitter, service⟩

/-- The counted captures of a pair in a tick. -/
def tickCaptures (history : ScoredHistory env retention last) (pair : Pair) (tick : Nat) : Nat :=
  (history.before tick).submissions.countP (rowCaptures (history.before tick) tick retention pair)

theorem captures_unknown {one other : Nat} (first : 1 ≤ one) (le : one ≤ other) (bound : other ≤ last)
    (unknown : ¬ (pair.1 ∈ (history.before other).teams.keys ∧
      pair.2 ∈ (history.before other).services.keys)) : tickCaptures history pair one = 0 := by
  refine List.countP_eq_zero.mpr fun row _ captures => unknown ?_
  obtain ⟨team, service⟩ := row_known captures
  exact ⟨teams_stay first le bound team, services_stay first le bound service⟩

theorem loaded_flags {tick : Nat} (first : 1 ≤ tick) (bound : tick ≤ last)
    (services : (history.before tick).services.entries ≠ [])
    (teams : (history.before tick).teams.entries ≠ []) :
    ∃ flags, loadFlagsForTick (history.before tick) tick = .ok flags := by
  rcases score_tick_cases (history.scored tick first bound) with ⟨_, early | nobody⟩ | ⟨_, _, _, flags,
    _, _, _, read, _⟩
  · omega
  · exact (nobody.elim services teams).elim
  · exact ⟨flags, read⟩

theorem keys_nonempty {α : Type} {dict : Dict Int α} {key : Int} (member : key ∈ dict.keys) :
    dict.entries ≠ [] := by
  intro none
  rw [Dict.keys, none] at member
  cases member

theorem count_column {tick : Nat} (bound : tick ≤ last) :
    column history pair (·.flagCapturedCount) tick =
      ((∑ i ∈ Icc 1 tick, tickCaptures history pair i : Nat) : Int) := by
  induction tick with
  | zero => rfl
  | succ tick ih =>
      by_cases known : pair.1 ∈ (history.before (tick + 1)).teams.keys ∧
          pair.2 ∈ (history.before (tick + 1)).services.keys
      · obtain ⟨flags, loaded⟩ := loaded_flags (by omega) bound (keys_nonempty known.2) (keys_nonempty known.1)
        obtain ⟨row, served⟩ := Option.ne_none_iff_exists'.mp ((Dict.mem_keys_iff _ _).mp known.2)
        obtain ⟨points, stored, _, count⟩ := score_tick_stored (by omega) served known.1
          (history.scored (tick + 1) (by omega) bound)
        have captures : capturesAt (history.before (tick + 1)) (tick + 1 : Nat) retention pair.1 pair.2 =
            tickCaptures history pair (tick + 1) := by
          rw [capturesAt, loaded]
          dsimp only
          rw [← captured_by_capture pair.1 pair.2 (pair_loaded known.1 known.2)]
          exact captures_count loaded retention pair
        have read := @column_read env retention last history pair tick bound (·.flagCapturedCount)
          (·.flagCapturedCount) fun _ _ => rfl
        rw [column, stored, Option.map_some, Option.getD_some, count, lastCount, read,
          ih (by omega), captures, sum_Icc_succ_top (by omega)]
        push_cast
        exact add_comm _ _
      · rw [column_unknown bound _ known, sum_eq_zero]
        · rfl
        · intro i inside
          obtain ⟨first, le⟩ := mem_Icc.mp inside
          exact captures_unknown first le bound known

/-- What a tick counts is at most what its window holds, and all of it where every such row counts. -/
theorem tick_captures_iff {tick : Nat} (first : 1 ≤ tick) (bound : tick ≤ last) :
    tickCaptures history pair tick ≤
        history.rows.countP (fun row => captureOf pair row && inWindow (history.before last) tick row) ∧
      (tickCaptures history pair tick =
          history.rows.countP (fun row => captureOf pair row && inWindow (history.before last) tick row) ↔
        ∀ row ∈ history.rows, captureOf pair row = true → inWindow (history.before last) tick row = true →
          history.Counted tick row) := by
  obtain ⟨late, whole⟩ := @rows_front _ _ _ history _ _ first bound le_rfl
  have narrow (row : Submission) : rowCaptures (history.before tick) tick retention pair row = true ↔
      (captureOf pair row && inWindow (history.before last) tick row) = true ∧ ∃ flag,
        stolenFlag (acceptedBefore (history.before tick) tick)
        (landed (history.before tick) tick) row = .ok flag ∧
          counts tick retention (loadTeamIds (history.before tick)).2 (loadServices (history.before tick))
            (loadTeamIds (history.before tick)).1 flag = true := by
    rw [row_captures_iff, same_window first bound]
  have within : ∀ row ∈ (history.before tick).submissions,
      rowCaptures (history.before tick) tick retention pair row = true →
      (captureOf pair row && inWindow (history.before last) tick row) = true :=
      fun row _ held => ((narrow row).mp held).1
  have distinct := history.unique
  rw [ScoredHistory.rows, ← whole]
  rw [← whole, List.map_append, List.nodup_append] at distinct
  refine ⟨?_, ?_⟩
  · rw [List.countP_append]
    exact (List.countP_mono_left within).trans (Nat.le_add_right _ _)
  · rw [tickCaptures, count_front_iff _ _ _ _ within]
    constructor
    · rintro ⟨early, none⟩ row member captures inside
      have wide : (captureOf pair row && inWindow (history.before last) tick row) = true := by
        rw [captures, inside]; rfl
      rcases List.mem_append.mp member with stored | missing
      · exact ⟨stored, ((narrow row).mp (early row stored wide)).2⟩
      · exact absurd wide (none row missing)
    · intro counted
      have both (row : Submission)
          (wide : (captureOf pair row && inWindow (history.before last) tick row) = true) :=
        (Bool.and_eq_true _ _).mp wide
      refine ⟨fun row stored wide => ?_, fun row missing wide => ?_⟩
      · obtain ⟨captures, inside⟩ := both row wide
        exact (narrow row).mpr ⟨wide, (counted row (List.mem_append_left _ stored) captures inside).2⟩
      · obtain ⟨captures, inside⟩ := both row wide
        -- The row would be there twice under one (submitter, flag).
        have stored := (counted row (List.mem_append_right _ missing) captures inside).1
        exact distinct.2.2 _ (List.mem_map_of_mem stored) _ (List.mem_map_of_mem missing) rfl

theorem one_window {one other : Nat} {row : Submission} (first : 1 ≤ one) (second : 1 ≤ other)
    (inOne : inWindow (history.before last) one row = true)
    (inOther : inWindow (history.before last) other row = true) :
    one = other := by
  obtain ⟨round, found⟩ := window_round inOther
  by_contra apart
  rcases Nat.lt_or_gt_of_ne apart with before | before
  · have early := (earlier_iff (recorded history) first second inOne found).mpr before
    simp only [inWindow, found, Bool.and_eq_true, decide_eq_true_eq] at inOther
    simp only [earlier, found, decide_eq_true_eq] at early
    omega
  · obtain ⟨started, foundOne⟩ := window_round inOne
    have early := (earlier_iff (recorded history) second first inOther foundOne).mpr before
    simp only [inWindow, foundOne, Bool.and_eq_true, decide_eq_true_eq] at inOne
    simp only [earlier, foundOne, decide_eq_true_eq] at early
    omega

/-- The captured column is the number of captures exactly where all of them count. -/
theorem captured_column_iff :
    column history pair (·.flagCapturedCount) last = (history.rows.countP (captureOf pair) : Nat) ↔
      ∀ row ∈ history.rows, captureOf pair row = true → history.CountedInWindow row := by
  have accepted (row : Submission) (captures : captureOf pair row = true) : row.result = .accepted := by
    simp only [captureOf, atPair, Bool.and_eq_true, decide_eq_true_eq] at captures
    exact captures.1.1
  have classes := count_by_class history.rows (captureOf pair) (Icc 1 last)
    (fun tick row => inWindow (history.before last) (tick : Nat) row) fun row stored captures => by
      obtain ⟨tick, first, bound, inside⟩ := history.placed row stored (accepted row captures)
      refine ⟨tick, mem_Icc.mpr ⟨first, bound⟩, inside, fun other range also => ?_⟩
      exact one_window (mem_Icc.mp range).1 first also inside
  have below (tick : Nat) (range : tick ∈ Icc 1 last) :=
    @tick_captures_iff _ _ _ history pair _ (mem_Icc.mp range).1 (mem_Icc.mp range).2
  rw [count_column le_rfl, Nat.cast_inj, ← classes,
    sum_eq_sum_iff_of_le fun tick range => (below tick range).1]
  constructor
  · intro all row stored captures tick first bound inside
    have range := mem_Icc.mpr ⟨first, bound⟩
    exact (below tick range).2.mp (all tick range) row stored captures inside
  · intro all tick range
    refine (below tick range).2.mpr fun row stored captures inside => ?_
    exact all row stored captures tick (mem_Icc.mp range).1 (mem_Icc.mp range).2 inside

/-! The stolen flags, where every accepted row counts. -/

section Counted
variable (counted : history.AllCounted)
include counted

/-- A tick was scored with all rows of its window and of the ones before. -/
theorem late_rows {tick : Nat} (bound : tick ≤ last) {late : List Submission}
    (whole : (history.before tick).submissions ++ late = (history.before last).submissions)
    {row : Submission} (missing : row ∈ late) (accepted : row.result = .accepted) {own : Nat}
    (known : 1 ≤ own) (inside : inWindow (history.before last) own row = true) : tick < own := by
  by_contra early
  have present : row ∈ (history.before last).submissions := whole ▸ List.mem_append_right _ missing
  have stored := (counted row present accepted own known (by omega) inside).1
  have front := (@rows_front _ _ _ history _ _ known (by omega : own ≤ tick) bound).subset stored
  have distinct := history.unique
  rw [← whole, List.map_append, List.nodup_append] at distinct
  exact distinct.2.2 _ (List.mem_map_of_mem front) _ (List.mem_map_of_mem missing) rfl

theorem same_lists {tick : Nat} (first : 1 ≤ tick) (bound : tick ≤ last) :
    landed (history.before last) tick = landed (history.before tick) tick ∧
      acceptedBefore (history.before last) tick = acceptedBefore (history.before tick) tick := by
  obtain ⟨late, whole⟩ := @rows_front _ _ _ history _ _ first bound le_rfl
  obtain ⟨round, own, final⟩ := history.rounds tick first bound
  constructor
  · rw [landed_filter, landed_filter, ← whole, List.filter_append]
    have none : late.filter (fun row => scorable row && inWindow (history.before last) tick row) = [] := by
      refine List.filter_eq_nil_iff.mpr fun row missing held => ?_
      simp only [scorable, Bool.and_eq_true, decide_eq_true_eq] at held
      exact absurd (late_rows counted bound whole missing held.1.1.1.1 first held.2) (lt_irrefl tick)
    rw [none, List.append_nil]
    exact List.filter_congr fun row _ => by rw [same_window first bound]
  · rw [acceptedBefore, acceptedBefore, ← whole, List.filter_append]
    have none : late.filter (fun row => decide (row.result = .accepted) &&
        earlier (history.before last) tick row) = [] := by
      refine List.filter_eq_nil_iff.mpr fun row missing held => ?_
      rw [Bool.and_eq_true, decide_eq_true_eq] at held
      obtain ⟨placed, known, _, inside⟩ :=
        history.placed row (whole ▸ List.mem_append_right _ missing) held.1
      have before := (earlier_iff (recorded history) known first inside final).mp held.2
      exact absurd (late_rows counted bound whole missing held.1 known inside) (by omega)
    rw [none, List.append_nil]
    exact List.filter_congr fun row _ => by simp only [earlier, own, final]

theorem all_flags_count {tick : Nat} (first : 1 ≤ tick) (bound : tick ≤ last) {flags : List StolenFlag}
    (loaded : loadFlagsForTick (history.before tick) tick = .ok flags) : ∀ flag ∈ flags,
      counts tick retention (loadTeamIds (history.before tick)).2 (loadServices (history.before tick))
        (loadTeamIds (history.before tick)).1 flag = true := by
  intro flag member
  obtain ⟨row, inside, built⟩ := (mem_flags loaded).mp member
  obtain ⟨stored, accepted⟩ := landed_accepted inside
  have window := (mem_landed.mp inside).2.2
  rw [same_window first bound] at window
  obtain ⟨_, other, also, counts⟩ :=
    counted row ((rows_front first bound le_rfl).subset stored) accepted tick first bound window
  rw [built] at also
  rwa [Except.ok.inj also]

theorem stolen_column {tick : Nat} (bound : tick ≤ last) : column history pair (·.flagStolenCount) tick =
    (capturedFlags (history.before last) pair.1 pair.2 tick).card := by
  induction tick with
  | zero => rfl
  | succ tick ih =>
      by_cases known : pair.1 ∈ (history.before (tick + 1)).teams.keys ∧
          pair.2 ∈ (history.before (tick + 1)).services.keys
      · obtain ⟨flags, loaded⟩ := loaded_flags (by omega) bound (keys_nonempty known.2) (keys_nonempty known.1)
        have final : loadFlagsForTick (history.before last) (tick + 1 : Nat) = .ok flags := by
          obtain ⟨sameLanded, sameBefore⟩ := same_lists counted (by omega : 1 ≤ tick + 1) bound
          rw [loadFlagsForTick, sameLanded, sameBefore]
          exact loaded
        obtain ⟨points, stored, count⟩ := score_tick_stolen (by omega) known.1 known.2
          (history.scored (tick + 1) (by omega) bound) loaded (flags_consistent (recorded history) final)
        have read := @column_read env retention last history pair tick bound (·.flagStolenCount)
          (·.flagStolenCount) fun _ _ => rfl
        have new := newly_stolen_card (recorded history) final
          (all_flags_count counted (by omega) bound loaded) pair.1 pair.2
        rw [column, stored, Option.map_some, Option.getD_some, count, lastStolen, read, ih (by omega), new, capturedFlags,
          capturedFlags, seen_by_card, Nat.cast_add, add_comm]
      · rw [column_unknown bound _ known]
        have nothing : capturedFlags (history.before last) pair.1 pair.2 (tick + 1) = ∅ := by
          refine eq_empty_iff_forall_notMem.mpr fun flag member => known ?_
          simp only [capturedFlags, seenBy, mem_biUnion, mem_Icc, mem_tick_flags] at member
          obtain ⟨own, ⟨first, le⟩, row, stored, accepted, inside, target, service, _⟩ := member
          obtain ⟨_, taken, built, counts⟩ := counted row stored accepted own first (by omega) inside
          obtain ⟨⟨hasTarget, hasService, _⟩, _⟩ := stolen_flag_row built
          rw [target, Option.some.injEq] at hasTarget
          rw [service, Option.some.injEq] at hasService
          simp only [ScoringLedger.counts, Bool.and_eq_true, decide_eq_true_eq, ← hasTarget,
            ← hasService] at counts
          rw [load_services_ids, mem_by_key] at counts
          exact ⟨teams_stay first le bound ((mem_by_key _ _).mp counts.2),
            services_stay first le bound counts.1.1.2⟩
        rw [nothing]
        rfl

end Counted

/-! The snapshot and the live query. -/

theorem snapshot_written {db after : Db} {tick roundId : Int}
    (round : roundIdForTick db tick = some roundId)
    (done : snapshotToScoreTable env db tick = .ok after) {row : TeamTickPoints}
    (stored : db.scoring.teamTickPoints.get? (tick, pair.1, pair.2) = some row) :
    after.scoring.scoreSnapshots.get? (roundId, pair) =
      some (snapshotOf env db tick ((tick, pair.1, pair.2), row)) := by
  unfold snapshotToScoreTable at done
  rw [round] at done
  dsimp only at done
  split at done
  · cases done
  next snapshots copied =>
  cases done
  have ticked : ∀ entry ∈ (pointsOfTick db tick).entries, entry.1.1 = tick :=
    fun entry member => of_decide_eq_true (List.mem_filter.mp member).2
  have found : (pointsOfTick db tick).get? (tick, pair.1, pair.2) = some row :=
    (points_get db tick pair).trans stored
  let copy (other : Pair) : ScoreSnapshot :=
    snapshotOf env db tick ((tick, other.1, other.2),
      ((pointsOfTick db tick).get? (tick, other.1, other.2)).getD ⟨0, 0, 0, 0, 0, 0⟩)
  have written := foldlM_writes
    (fun (table : Dict (Int × Int × Int) ScoreSnapshot) (other : Pair) => table.get? (roundId, other))
    (fun entry other => decide (entry.1.2 = other)) copy (fun _ => True) (fun _ _ _ _ _ _ => trivial)
    (fun table entry next member _ wrote other => by
      rw [snapshot_one_cases wrote, Dict.get_set]
      have held := (Dict.mem_entries_iff _ _ _).mp member
      have key : entry.1 = (tick, entry.1.2.1, entry.1.2.2) := Prod.ext (ticked entry member) rfl
      by_cases same : entry.1.2 = other
      · subst same
        rw [if_pos rfl, if_pos (decide_eq_true rfl)]
        show _ = some (snapshotOf env db tick _)
        rw [← key, held]
        rfl
      · rw [if_neg fun equal => same (Prod.mk.inj equal).2, if_neg (by simpa using same)])
    trivial copied pair
  have listed : ((pointsOfTick db tick).entries.any fun entry => decide (entry.1.2 = pair)) = true :=
    List.any_eq_true.mpr ⟨_, (Dict.mem_entries_iff _ _ _).mpr found, decide_eq_true rfl⟩
  rw [listed, if_pos rfl] at written
  dsimp only
  rw [written]
  show some (snapshotOf env db tick _) = _
  rw [found]
  rfl

/-- The snapshot of the last tick of a pair that is there, by its columns. -/
theorem last_snapshot (first : 1 ≤ last) (team : pair.1 ∈ (history.before last).teams.keys)
    (service : pair.2 ∈ (history.before last).services.keys) : ∃ roundId snapshot,
      roundIdForTick (history.after last) last = some roundId ∧
      (history.after last).scoring.scoreSnapshots.get? (roundId, pair) = some snapshot ∧
      snapshot.flagsCaptured = column history pair (·.flagCapturedCount) last ∧
      snapshot.attackersCount = attackersCount (history.before last) pair.1 pair.2 ∧
      snapshot.victimsCount = column history pair (·.flagStolenCount) last := by
  have done := history.scored last first le_rfl
  obtain ⟨flags, table, mirrored, stored, copied, after⟩ := score_tick_parts (by omega)
    (keys_nonempty service) (keys_nonempty team) done
  obtain ⟨round, own, _⟩ := history.rounds last first le_rfl
  obtain ⟨snapshots, framed⟩ := snapshot_frame copied
  have table_ : (history.after last).scoring.teamTickPoints = table := by
    rw [after, framed]
    rfl
  have rounds : roundIdForTick (history.after last) last = some round.1 := by
    rw [after, framed]
    show (history.before last |>.roundOfTick last).map _ = _
    rw [own]
    rfl
  obtain ⟨points, scored⟩ := Option.ne_none_iff_exists'.mp ((Dict.mem_keys_iff _ _).mp
    ((score_tick_keys (by omega) done (last, pair)).mpr (.inl ⟨rfl, team, service⟩)))
  have source : roundIdForTick { history.before last with
      scoring := { (history.before last).scoring with teamTickPoints := table } } last = some round.1 := by
    show (history.before last |>.roundOfTick last).map _ = _
    rw [own]
    rfl
  have written : table.get? ((last : Int), pair.1, pair.2) = some points := by
    rw [← table_]
    exact scored
  have copy := snapshot_written source copied written
  have value (read : TeamTickPoints → Int) : column history pair read last = read points := by
    obtain ⟨before, rfl⟩ := Nat.exists_eq_add_of_le' first
    rw [column, table_, written]
    rfl
  have kept : (refreshScoresSummary env mirrored).scoring.scoreSnapshots.get? (round.1, pair) = _ := copy
  rw [← after] at kept
  exact ⟨round.1, _, rounds, kept, (value (·.flagCapturedCount)).symm, rfl,
    (value (·.flagStolenCount)).symm⟩

theorem stolen_from_captured :
    stolenFrom history.rows pair = capturedFlags (history.before last) pair.1 pair.2 last := by
  ext flag
  simp only [stolenFrom, capturedFlags, seenBy, mem_biUnion, mem_Icc, mem_tick_flags, List.mem_toFinset,
    List.mem_map, List.mem_filter, atPair, Bool.and_eq_true, decide_eq_true_eq]
  constructor
  · rintro ⟨row, ⟨stored, ⟨accepted, target⟩, service⟩, same⟩
    obtain ⟨tick, first, bound, inside⟩ := history.placed row stored accepted
    exact ⟨tick, ⟨first, bound⟩, row, stored, accepted, inside, target, service, same⟩
  · rintro ⟨_, _, row, stored, accepted, _, target, service, same⟩
    exact ⟨row, ⟨stored, ⟨accepted, target⟩, service⟩, same⟩

/-- The live query of a pair that is listed, over the rows that the last tick was scored with. -/
theorem live_stats (view : Scoreboard.View) {stats : Scoreboard.Stats} :
    (Scoreboard.perServiceStats view (history.after last) false).get? pair = some stats ↔
      listed (history.after last) pair ∧
      stats = Scoreboard.fallbackStats view (history.after last) pair.1 pair.2 := by
  have inside (other : Scoreboard.Stats) : (pair, other) ∈ ((history.after last).teamServices.entries.filter
      fun entry => Scoreboard.shownTeam (history.after last) false entry.1.1).map (fun entry =>
        (entry.1, Scoreboard.fallbackStats view (history.after last) entry.1.1 entry.1.2)) ↔
      listed (history.after last) pair ∧
      other = Scoreboard.fallbackStats view (history.after last) pair.1 pair.2 := by
    simp only [List.mem_map, List.mem_filter, listed, Dict.keys]
    constructor
    · rintro ⟨entry, ⟨member, shown⟩, same⟩
      obtain ⟨rfl, rfl⟩ := Prod.mk.inj same
      exact ⟨⟨⟨entry, member, rfl⟩, shown⟩, rfl⟩
    · rintro ⟨⟨⟨entry, member, rfl⟩, shown⟩, rfl⟩
      exact ⟨entry, ⟨member, shown⟩, rfl⟩
  constructor
  · exact fun found => (inside stats).mp (Dict.of_list_some _ _ _ found)
  · rintro ⟨here, rfl⟩
    exact Dict.of_list_exact _ _ _ ((inside _).mpr ⟨here, rfl⟩) fun other also => ((inside other).mp also).2

theorem listed_known (first : 1 ≤ last) (here : listed (history.after last) pair) :
    pair.1 ∈ (history.before last).teams.keys ∧ pair.2 ∈ (history.before last).services.keys := by
  obtain ⟨scoring, framed⟩ := score_tick_frame (history.scored last first le_rfl)
  rw [framed] at here
  refine ⟨(Dict.mem_keys_iff _ _).mpr fun none => ?_, history.served pair here.1⟩
  have shown : Scoreboard.shownTeam (history.before last) false pair.1 = true := here.2
  rw [Scoreboard.shownTeam, none] at shown
  cases shown

/-- The three columns of the live query, by the submissions. -/
theorem live_columns (first : 1 ≤ last) (view : Scoreboard.View) (here : listed (history.after last) pair) :
    (Scoreboard.fallbackStats view (history.after last) pair.1 pair.2).flagsCaptured =
        (history.rows.countP (captureOf pair) : Nat) ∧
      (Scoreboard.fallbackStats view (history.after last) pair.1 pair.2).attackersCount =
        attackersCount (history.before last) pair.1 pair.2 ∧
      (Scoreboard.fallbackStats view (history.after last) pair.1 pair.2).victimsCount =
        (robbedBy history.rows pair).card := by
  obtain ⟨_, service⟩ := listed_known first here
  obtain ⟨scoring, framed⟩ := score_tick_frame (history.scored last first le_rfl)
  have served : ((history.after last).services.get? pair.2).isSome = true := by
    rw [framed]
    exact Option.ne_none_iff_isSome.mp ((Dict.mem_keys_iff _ _).mp service)
  have captures :
      (Scoreboard.accepted (history.after last)).filter (fun row => row.submitterTeamId = pair.1 &&
      row.serviceId = some pair.2 && ((history.after last).services.get? pair.2).isSome) =
      history.rows.filter (captureOf pair) := by
    rw [Scoreboard.accepted, List.filter_filter, framed]
    refine List.filter_congr fun row _ => ?_
    rw [framed] at served
    simp only [captureOf, atPair, served, Bool.and_true, Option.some.injEq]
    rw [Bool.and_comm, Bool.and_assoc]
  have rows : history.rows = (history.after last).submissions := by
    rw [framed]
    rfl
  refine ⟨?_, ?_, ?_⟩
  · show (((Scoreboard.accepted (history.after last)).filter _).length : Int) = _
    rw [captures, List.countP_eq_length_filter]
  · rw [attackersCount]
    show ((((Scoreboard.accepted (history.after last)).filter _).map _).dedup.length : Int) = _
    rw [Scoreboard.accepted, List.filter_filter, ← rows]
    have same : history.rows.filter (fun row => (decide (row.targetTeamId = some pair.1) &&
        decide (row.serviceId = some pair.2)) && decide (row.result = .accepted)) =
        (history.before last).submissions.filter (fun row => decide (row.result = .accepted) &&
          decide (row.targetTeamId = some pair.1) && decide (row.serviceId = some pair.2)) :=
      List.filter_congr fun row _ => by rw [Bool.and_comm, Bool.and_assoc]
    rw [same]
  · show ((((Scoreboard.accepted (history.after last)).filter _).filterMap _).dedup.length : Int) = _
    rw [captures, robbedBy, List.card_toFinset]
    rfl

/-- The snapshot agrees with the live statistics exactly where all captures were counted and the
flags stolen from each team's service are as many as the teams that it robbed. -/
theorem snapshot_agrees_iff (history : ScoredHistory env retention last) (view : Scoreboard.View)
    (first : 1 ≤ last) :
    history.Agrees view ∧ history.OthersCounted ↔ history.AllCounted ∧ history.EvenTrade := by
  constructor
  · rintro ⟨agrees, others⟩
    have compared (pair : Pair) (here : listed (history.after last) pair) :
        column history pair (·.flagCapturedCount) last = (history.rows.countP (captureOf pair) : Nat) ∧
          column history pair (·.flagStolenCount) last = (robbedBy history.rows pair).card := by
      obtain ⟨team, service⟩ := listed_known first here
      obtain ⟨roundId, snapshot, round, stored, captured, _, victims⟩ :=
        agrees pair _ ((live_stats view).mpr ⟨here, rfl⟩)
      obtain ⟨otherId, other, otherRound, otherStored, columnCaptured, _, columnStolen⟩ :=
        last_snapshot first team service
      rw [round, Option.some.injEq] at otherRound
      rw [← otherRound, stored, Option.some.injEq] at otherStored
      subst otherStored
      obtain ⟨liveCaptured, _, liveVictims⟩ := live_columns first view here
      exact ⟨columnCaptured.symm.trans (captured.trans liveCaptured),
        columnStolen.symm.trans (victims.trans liveVictims)⟩
    have all : history.AllCounted := by
      intro row stored accepted
      by_cases shown : ∃ pair, listed (history.after last) pair ∧ pair.1 = row.submitterTeamId ∧
        some pair.2 = row.serviceId
      · obtain ⟨pair, here, submitter, service⟩ := shown
        refine captured_column_iff.mp (compared pair here).1 row stored ?_
        simp [captureOf, atPair, accepted, submitter, service]
      · exact others row stored accepted fun pair here same => shown ⟨pair, here, same⟩
    refine ⟨all, fun pair here => ?_⟩
    have stolen := (stolen_column all le_rfl).symm.trans (compared pair here).2
    rw [stolen_from_captured]
    exact_mod_cast stolen
  · rintro ⟨all, even⟩
    refine ⟨fun pair stats found => ?_, fun row stored accepted _ => all row stored accepted⟩
    obtain ⟨here, rfl⟩ := (live_stats view).mp found
    obtain ⟨team, service⟩ := listed_known first here
    obtain ⟨roundId, snapshot, round, stored, captured, attackers, stolen⟩ :=
      last_snapshot first team service
    obtain ⟨liveCaptured, liveAttackers, liveVictims⟩ := live_columns first view here
    have counted : column history pair (·.flagCapturedCount) last =
        (history.rows.countP (captureOf pair) : Nat) :=
      captured_column_iff.mpr fun row inside captures => by
        simp only [captureOf, atPair, Bool.and_eq_true, decide_eq_true_eq] at captures
        exact all row inside captures.1.1
    have traded : column history pair (·.flagStolenCount) last = (robbedBy history.rows pair).card := by
      rw [stolen_column all le_rfl, ← stolen_from_captured, even pair here]
    exact ⟨roundId, snapshot, round, stored, captured.trans (counted.trans liveCaptured.symm),
      attackers.trans liveAttackers.symm, stolen.trans (traded.trans liveVictims.symm)⟩

end Columns

/-! Two ticks with the flags of a service of two teams. The digests are those of SECRET_FLAG_KEY=secret. -/

def tradeHmac (header : List UInt8) : List UInt8 :=
  if header = packHeader 1 1 1 0 then
    [252, 98, 1, 254, 193, 244, 92, 42, 117, 92, 196, 28, 228, 31, 81, 57, 48, 224,
      162, 66, 142, 13, 157, 63, 61, 245, 101, 37, 240, 41, 46, 162]
  else if header = packHeader 1 2 1 0 then
    [175, 47, 11, 252, 122, 237, 6, 219, 21, 212, 176, 45, 110, 79, 1, 127, 230, 158,
      9, 238, 105, 244, 198, 17, 185, 125, 206, 144, 207, 234, 90, 194]
  else if header = packHeader 2 1 1 0 then
    [59, 195, 120, 182, 128, 96, 3, 148, 126, 227, 23, 71, 3, 172, 59, 134,
      207, 8, 229, 127, 181, 157, 246, 159, 245, 225, 146, 46, 128, 86, 178, 169]
  else
    [104, 218, 203, 243, 174, 149, 72, 223, 133, 24, 181, 127, 138, 187, 72, 60, 28, 120,
      218, 36, 82, 62, 249, 93, 191, 161, 79, 60, 53, 160, 211, 219]

def tradeSettings : Settings := defaultSettings tradeHmac

def theft (submitter target payload submittedAt : Int) : Submission where
  submitterTeamId := submitter
  targetTeamId := some target
  serviceId := some 1
  roundId := some 0
  tickIssued := some 1
  payload := some payload
  flag := makeFlag tradeSettings 1 target 1 payload
  result := .accepted
  pointsAwarded := 1
  isFirstblood := false
  sourceIp := none
  submittedAt := submittedAt

def tradeDb (thefts : List Submission) : Db :=
  { emptyDb with
    teams := Dict.ofList [(1, ⟨"alpha", "submit-alpha", "10.1.1.0", false, "xk"⟩),
      (2, ⟨"beta", "submit-beta", "10.1.2.0", false, "al"⟩)]
    services := Dict.ofList [(1, ⟨"svc", none, 80, 2, 2⟩)]
    teamServices := Dict.ofList [((1, 1), ⟨"10.1.1.1", 80, true⟩), ((2, 1), ⟨"10.1.2.1", 80, true⟩)]
    flagRounds := Dict.ofList [(0, ⟨0, 60, 60, some 1⟩)]
    submissions := thefts }

/-- The history of that tick, where it was scored with all submissions there. -/
def tradeHistory (thefts : List Submission) (after : Db)
    (done : scoreTick tradeSettings (tradeDb thefts) 1 5 = .ok after)
    (placed : ∀ row ∈ thefts, inWindow (tradeDb thefts) 1 row = true) (unique : (thefts.map ident).Nodup)
    (decoded : ∀ row ∈ thefts, ∃ info, decodeFlag tradeSettings row.flag = some info ∧
      describedBy info.teamId info.serviceId info.tick info.payload row) :
      ScoredHistory tradeSettings 5 1 where
  before := fun _ => tradeDb thefts
  after := fun _ => after
  scored := fun tick first bound => by
    obtain rfl : tick = 1 := by omega
    exact done
  readBack := fun tick first bound => by omega
  teams := fun tick first bound => by omega
  services := fun tick first bound => by omega
  submissions := fun tick first bound => by omega
  rounds := fun tick first bound => by
    obtain rfl : tick = 1 := by omega
    exact ⟨_, rfl, rfl⟩
  inOrder := fun one other first second positive less here there => by
    have none : (tradeDb thefts).roundOfTick other = none := by
      refine List.find?_eq_none.mpr fun entry member => ?_
      obtain rfl : entry = (0, ⟨0, 60, 60, some 1⟩) := List.mem_singleton.mp member
      rw [decide_eq_true_eq, Option.some.injEq]
      show ¬ (1 : Int) = other
      omega
    rw [none] at there
    cases there
  placed := fun row stored _ => ⟨1, le_rfl, le_rfl, placed row stored⟩
  refs := fun _ _ _ _ member => (List.not_mem_nil member).elim
  served := fun pair member => by
    have either := (Dict.mem_of_list_keys _ pair).mp member
    have services : (tradeDb thefts).services.keys = [1] := by rfl
    rw [services]
    simp only [List.map_cons, List.map_nil, List.mem_cons, List.not_mem_nil, or_false] at either
    rcases either with rfl | rfl <;> exact List.mem_singleton.mpr rfl
  unique := unique
  decoded := fun row stored _ => decoded row stored

def scoredDb (thefts : List Submission) : Db :=
  match scoreTick tradeSettings (tradeDb thefts) 1 5 with
  | .ok after => after
  | .error _ => tradeDb thefts

/-- One team takes a flag in the first tick, and the other one takes one back in the second. -/
def firstTheft : Submission := theft 1 2 0 10

def theftBack : Submission :=
  { theft 2 1 0 70 with
    roundId := some 1
    tickIssued := some 2
    flag := makeFlag tradeSettings 2 1 1 0 }

def openedDb : Db :=
  { tradeDb [firstTheft] with
    flagRounds := Dict.ofList [(0, ⟨0, 60, 60, some 1⟩), (1, ⟨60, 120, 60, some 2⟩)] }

def scoredFrom (db : Db) (tick : Int) : Db :=
  match scoreTick tradeSettings db tick 5 with
  | .ok after => after
  | .error _ => db

def tradedDb : Db := { scoredFrom openedDb 1 with submissions := [firstTheft, theftBack] }

theorem fair_rows {row : Submission} (member : row ∈ [firstTheft, theftBack]) :
    row = firstTheft ∨ row = theftBack := by
  simpa only [List.mem_cons, List.not_mem_nil, or_false] using member

theorem two_ticks {tick : Nat} (first : 1 ≤ tick) (bound : tick ≤ 2) : tick = 1 ∨ tick = 2 := by omega

def fairHistory : ScoredHistory tradeSettings 5 2 where
  before := fun tick => if tick = 1 then openedDb else tradedDb
  after := fun tick => if tick = 1 then scoredFrom openedDb 1 else scoredFrom tradedDb 2
  scored := fun tick first bound => by
    rcases two_ticks first bound with rfl | rfl <;> decide +kernel
  readBack := fun tick first bound => by
    obtain rfl : tick = 1 := by omega
    decide +kernel
  teams := fun tick first bound => by
    obtain rfl : tick = 1 := by omega
    decide +kernel
  services := fun tick first bound => by
    obtain rfl : tick = 1 := by omega
    decide +kernel
  submissions := fun tick first bound => by
    obtain rfl : tick = 1 := by omega
    exact List.prefix_append [firstTheft] [theftBack]
  rounds := fun tick first bound => by
    rcases two_ticks first bound with rfl | rfl
    · exact ⟨(0, ⟨0, 60, 60, some 1⟩), by decide +kernel, by decide +kernel⟩
    · exact ⟨(1, ⟨60, 120, 60, some 2⟩), by decide +kernel, by decide +kernel⟩
  inOrder := fun one other first second positive less here there => by
    have found (tick : Nat) (round : Int × FlagRound) (listed : tradedDb.roundOfTick tick = some round) :
        tick = 1 ∧ round.2.endsAt = 60 ∧ round.2.startsAt = 0 ∨ tick = 2 ∧ round.2.startsAt = 60 := by
      have rounds : tradedDb.flagRounds.entries =
          [(0, ⟨0, 60, 60, some 1⟩), (1, ⟨60, 120, 60, some 2⟩)] := by decide +kernel
      rw [Db.roundOfTick] at listed
      have member := List.mem_of_find?_eq_some listed
      have named := List.find?_some listed
      rw [decide_eq_true_eq] at named
      rw [rounds, List.mem_cons, List.mem_singleton] at member
      rcases member with rfl | rfl
      · have one_ : (1 : Int) = tick := Option.some.inj named
        exact Or.inl ⟨by omega, rfl, rfl⟩
      · have two : (2 : Int) = tick := Option.some.inj named
        exact Or.inr ⟨by omega, rfl⟩
    have early := found one first here
    have late := found other second there
    omega
  placed := fun row stored _ => by
    rcases fair_rows stored with rfl | rfl
    · exact ⟨1, le_rfl, by decide, by decide +kernel⟩
    · exact ⟨2, by decide, le_rfl, by decide +kernel⟩
  refs := fun tick first bound => by
    rcases two_ticks first bound with rfl | rfl
    · exact fun _ member => (List.not_mem_nil member).elim
    · unfold PointRefs
      decide +kernel
  served := fun pair member => by
    revert pair
    decide +kernel
  unique := by decide +kernel
  decoded := fun row stored _ => by
    rcases fair_rows stored with rfl | rfl
    · exact ⟨⟨1, 2, 1, 0⟩, by decide +kernel, rfl, rfl, rfl, rfl⟩
    · exact ⟨⟨2, 1, 1, 0⟩, by decide +kernel, rfl, rfl, rfl, rfl⟩

theorem fair_counted : fairHistory.AllCounted := by
  intro row member _ tick first bound within
  rcases fair_rows member with rfl | rfl <;> rcases two_ticks first bound with rfl | rfl
  · exact ⟨List.mem_singleton.mpr rfl, _, rfl, by decide +kernel⟩
  · exact absurd within (by decide +kernel)
  · exact absurd within (by decide +kernel)
  · exact ⟨List.mem_cons_of_mem _ (List.mem_singleton.mpr rfl), _, rfl, by decide +kernel⟩

theorem fair_even : fairHistory.EvenTrade := by
  rintro pair ⟨member, _⟩
  have services : (scoredFrom tradedDb 2).teamServices.keys = [(1, 1), (2, 1)] := by decide +kernel
  have either : pair = (1, 1) ∨ pair = (2, 1) := by
    simpa [services] using show pair ∈ (scoredFrom tradedDb 2).teamServices.keys from member
  rcases either with rfl | rfl <;> decide +kernel

theorem fair_trade_agrees :
    fairHistory.AllCounted ∧ fairHistory.EvenTrade ∧ ∀ view : Scoreboard.View, fairHistory.Agrees view :=
  ⟨fair_counted, fair_even,
    fun view => ((snapshot_agrees_iff fairHistory view (by decide)).mpr ⟨fair_counted, fair_even⟩).1⟩

/-- One team takes both flags of the other one. -/
def doubleTheft : List Submission := [theft 1 2 0 10, theft 1 2 1 20]

def doubleHistory : ScoredHistory tradeSettings 5 1 :=
  tradeHistory doubleTheft (scoredDb doubleTheft) (by decide +kernel) (by decide +kernel)
    (by decide +kernel) fun row member => by
    simp only [doubleTheft, List.mem_cons, List.not_mem_nil, or_false] at member
    rcases member with rfl | rfl
    · exact ⟨⟨1, 2, 1, 0⟩, by decide +kernel, rfl, rfl, rfl, rfl⟩
    · exact ⟨⟨1, 2, 1, 1⟩, by decide +kernel, rfl, rfl, rfl, rfl⟩

/-- The robber has no victim in the snapshot, and the robbed team has two. -/
theorem double_theft_disagrees :
    ((scoredDb doubleTheft).scoring.scoreSnapshots.get? (0, 1, 1)).map (·.victimsCount) = some 0 ∧
      ((scoredDb doubleTheft).scoring.scoreSnapshots.get? (0, 2, 1)).map (·.victimsCount) = some 2 ∧
      ¬ ∀ (env : Settings) (retention : Int) (last : Nat) (history : ScoredHistory env retention last)
        (view : Scoreboard.View), 1 ≤ last → history.Agrees view := by
  have robber : ((scoredDb doubleTheft).scoring.scoreSnapshots.get? (0, 1, 1)).map
      (·.victimsCount) = some 0 := by decide +kernel
  refine ⟨robber, by decide +kernel, fun claim => ?_⟩
  have agrees := claim _ _ _ doubleHistory ⟨id, id, 10, 5, 0⟩ le_rfl
  have here : listed (scoredDb doubleTheft) (1, 1) := by
    constructor <;> decide +kernel
  obtain ⟨roundId, snapshot, round, stored, _, _, victims⟩ :=
    agrees (1, 1) _ ((live_stats _).mpr ⟨here, rfl⟩)
  have first : roundIdForTick (scoredDb doubleTheft) 1 = some 0 := by decide +kernel
  obtain rfl : 0 = roundId := Option.some.inj (first.symm.trans round)
  rw [show (scoredDb doubleTheft).scoring.scoreSnapshots.get? (0, 1, 1) = some snapshot from stored,
    Option.map_some, Option.some.injEq] at robber
  have live : (Scoreboard.fallbackStats ⟨id, id, 10, 5, 0⟩ (scoredDb doubleTheft) 1
      1).victimsCount = 1 := by decide +kernel
  have same := robber.symm.trans (victims.trans live)
  omega

end KosSim.SnapshotStats
