import KosSim.ScoreSummaries

/-!
What the public can read of a frozen scoreboard. Ranking, cells, deltas and the
activity of the display tick are cut at the freeze tick; the first bloods, the
activity counts and the fallback without snapshots read the whole tables.
-/

namespace KosSim.FrozenBoards
open Library EnoChecker FlagCrypto Schema Rotator Scoreboard TickRounds Platform ScoreSummaries

def upTo (freeze : Int) : Option Int → Bool
  | some tick => decide (tick ≤ freeze)
  | none => false

/-- Issued in a tick up to the freeze tick and made before its end. -/
def settled (db : Db) (freeze : Int) (row : Submission) : Bool :=
  upTo freeze row.tickIssued && match db.roundOfTick freeze with
    | some (_, round) => decide (row.submittedAt < round.endsAt)
    | none => true

def roundsUpTo (db : Db) (freeze : Int) : Dict Int FlagRound :=
  db.flagRounds.filter fun _ round => upTo freeze round.tick

def snapshotsUpTo (db : Db) (freeze : Int) : Dict (Int × Int × Int) ScoreSnapshot :=
  db.scoring.scoreSnapshots.filter fun key _ => upTo freeze (tickOf db key.1)

def healthUpTo (db : Db) (freeze : Int) : Dict HealthKey ServiceHealth :=
  db.checker.serviceHealth.filter fun _ health => upTo freeze health.tick

/-- The two databases have the same rows of the ticks up to the freeze tick, the same
timer and the same teams and services. The scores table has no rows of a tick. -/
structure AgreesUpTo (freeze : Int) (one other : Board) : Prop where
  teams : other.db.teams = one.db.teams
  services : other.db.services = one.db.services
  teamServices : other.db.teamServices = one.db.teamServices
  timer : other.db.gameState = one.db.gameState
  rounds : roundsUpTo other.db freeze = roundsUpTo one.db freeze
  points : (other.db.scoring.teamTickPoints.filter fun key _ => decide (key.1 ≤ freeze)) =
    one.db.scoring.teamTickPoints.filter fun key _ => decide (key.1 ≤ freeze)
  snapshots : snapshotsUpTo other.db freeze = snapshotsUpTo one.db freeze
  health : healthUpTo other.db freeze = healthUpTo one.db freeze
  checked : ∀ entry ∈ (healthUpTo one.db freeze).entries, other.checkedAt entry.1 = one.checkedAt entry.1
  submissions : (other.submissions.filter fun row => settled other.db freeze row.2) =
    one.submissions.filter fun row => settled one.db freeze row.2

/-- The public gets the same answers of both handlers, whatever it asks. -/
structure SameView (env : Settings) (view : View) (now : Int) (one other : Board) : Prop where
  board : ∀ includeNop isPublic, scoreboard env view other now false includeNop isPublic =
    scoreboard env view one now false includeNop isPublic
  feed : ∀ since limit, firstbloods other since limit = firstbloods one since limit

def LeaksNothing (env : Settings) (view : View) (now freeze : Int) (board : Board) : Prop :=
  ∀ other, AgreesUpTo freeze board other → SameView env view now board other

/-- No accepted capture and no first blood has come after the freeze tick. -/
def QuietAfter (freeze : Int) (board : Board) : Prop :=
  ∀ row ∈ board.db.submissions, row.result = .accepted ∨ row.isFirstblood = true →
    settled board.db freeze row = true

/-! What is cut: queries of a tick up to the freeze tick. -/

section Cut
variable {env : Settings} {view : View} {freeze tick : Int} {one other : Board}

theorem up_to_some (within : tick ≤ freeze) : upTo freeze (some tick) = true := decide_eq_true within

theorem round_of_cut (db : Db) (within : tick ≤ freeze) :
    db.roundOfTick tick = (roundsUpTo db freeze).entries.find? fun entry => entry.2.tick = some tick := by
  rw [Db.roundOfTick, roundsUpTo, Dict.filter, List.find?_filter]
  congr 1
  funext entry
  by_cases same : entry.2.tick = some tick
  · simp [same, up_to_some within]
  · simp [same]

theorem tick_of_cut (db : Db) (within : tick ≤ freeze) (roundId : Int) :
    tickOf db roundId = some tick ↔ ((roundsUpTo db freeze).get? roundId).bind (·.tick) = some tick := by
  rw [tickOf, roundsUpTo, Dict.get_filter]
  cases db.flagRounds.get? roundId with
  | none => rfl
  | some round =>
      rw [Option.bind_some, Option.filter_some]
      constructor
      · intro same
        rw [same, up_to_some within, if_pos rfl]
        exact same
      · intro cut
        split at cut
        · exact cut
        · cases cut

theorem round_same (agrees : AgreesUpTo freeze one other) (within : tick ≤ freeze) :
    other.db.roundOfTick tick = one.db.roundOfTick tick := by
  rw [round_of_cut other.db within, round_of_cut one.db within, agrees.rounds]

theorem tick_of_same (agrees : AgreesUpTo freeze one other) (within : tick ≤ freeze) (roundId : Int) :
    tickOf other.db roundId = some tick ↔ tickOf one.db roundId = some tick := by
  rw [tick_of_cut other.db within, tick_of_cut one.db within, agrees.rounds]

theorem snapshots_cut (db : Db) (within : tick ≤ freeze) :
    snapshotsAtTick db tick = (snapshotsUpTo db freeze).filter fun key _ =>
      decide (tickOf db key.1 = some tick) := by
  refine (Dict.filter_within _ _ db.scoring.scoreSnapshots ?_).symm
  intro entry _ same
  rw [of_decide_eq_true same]
  exact up_to_some within

theorem snapshots_same (agrees : AgreesUpTo freeze one other) (within : tick ≤ freeze) :
    snapshotsAtTick other.db tick = snapshotsAtTick one.db tick := by
  rw [snapshots_cut other.db within, snapshots_cut one.db within, agrees.snapshots]
  exact Dict.filter_congr _ _ _ fun entry _ => decide_eq_decide.mpr (tick_of_same agrees within entry.1.1)

theorem ticks_cut (db : Db) (freeze : Int) :
    (snapshotTicks db).filter (fun tick => decide (tick ≤ freeze)) =
      (snapshotsUpTo db freeze).entries.filterMap fun entry => tickOf db entry.1.1 := by
  rw [snapshotTicks, snapshotsUpTo, Dict.filter]
  dsimp only
  induction db.scoring.scoreSnapshots.entries with
  | nil => rfl
  | cons entry rest ih =>
      rw [List.filterMap_cons, List.filter_cons]
      cases ticked : tickOf db entry.1.1 with
      | none => exact ih
      | some tick =>
          by_cases within : tick ≤ freeze
          · have kept : upTo freeze (some tick) = true := up_to_some within
            rw [if_pos kept, List.filterMap_cons, ticked, ← ih, List.filter_cons,
              if_pos (decide_eq_true within)]
          · have dropped : ¬ upTo freeze (some tick) = true := fun kept => within (of_decide_eq_true kept)
            rw [if_neg dropped, ← ih, List.filter_cons,
              if_neg (fun kept => within (of_decide_eq_true kept))]

/-- The display tick of a frozen board. -/
theorem latest_same (agrees : AgreesUpTo freeze one other) :
    latestScoredTick other.db (some freeze) = latestScoredTick one.db (some freeze) := by
  rw [latestScoredTick, latestScoredTick, ticks_cut, ticks_cut, ← agrees.snapshots]
  refine congrArg List.max? (List.filterMap_congr ?_)
  intro entry member
  have kept : upTo freeze (tickOf other.db entry.1.1) = true := (List.mem_filter.mp member).2
  cases ticked : tickOf other.db entry.1.1 with
  | none =>
      rw [ticked] at kept
      cases kept
  | some tick =>
      rw [ticked] at kept
      exact ((tick_of_same agrees (of_decide_eq_true kept) entry.1.1).mp ticked).symm

theorem latest_within (db : Db) (found : latestScoredTick db (some freeze) = some tick) :
    tick ≤ freeze := by
  obtain ⟨member, _⟩ := List.max?_eq_some_iff.mp found
  exact of_decide_eq_true (List.mem_filter.mp member).2

theorem ranking_same (agrees : AgreesUpTo freeze one other) (within : tick ≤ freeze) (includeNop : Bool) :
    scoreboardRowsAtTick other.db tick includeNop = scoreboardRowsAtTick one.db tick includeNop := by
  unfold scoreboardRowsAtTick totalAtTick
  rw [snapshots_same agrees within, agrees.teams]

theorem stats_same (agrees : AgreesUpTo freeze one other) (within : tick ≤ freeze) (includeNop : Bool) :
    statsAtTick view other.db tick includeNop = statsAtTick view one.db tick includeNop := by
  unfold statsAtTick shownTeam
  rw [snapshots_same agrees within, agrees.teams]

theorem previous_same (agrees : AgreesUpTo freeze one other) (within : tick ≤ freeze) :
    previousTickSnapshots view other.db (some tick) = previousTickSnapshots view one.db (some tick) := by
  unfold previousTickSnapshots
  dsimp only
  rw [snapshots_same agrees (by omega : tick - 1 ≤ freeze)]

theorem health_cut (db : Db) (within : tick ≤ freeze) (teamId serviceId : Int) :
    (healthRows db teamId serviceId).filter (fun entry => entry.2.tick = some tick) =
      (healthUpTo db freeze).entries.filter fun entry =>
        (entry.1.1 = teamId && entry.1.2.1 = serviceId) && decide (entry.2.tick = some tick) := by
  rw [healthRows, healthUpTo, Dict.filter, List.filter_filter, List.filter_filter]
  refine List.filter_congr fun entry _ => ?_
  by_cases same : entry.2.tick = some tick
  · rw [same, up_to_some within, Bool.and_true, Bool.and_comm]
  · rw [decide_eq_false same, Bool.and_false, Bool.false_and, Bool.false_and]

theorem status_same (agrees : AgreesUpTo freeze one other) (within : tick ≤ freeze)
    (teamId serviceId : Int) :
    checkerStatusAtTick other tick teamId serviceId = checkerStatusAtTick one tick teamId serviceId := by
  have rows : ((healthRows other.db teamId serviceId).filter fun entry => entry.2.tick = some tick).map
        (fun entry => (other.checkedAt entry.1, entry.2)) =
      ((healthRows one.db teamId serviceId).filter fun entry => entry.2.tick = some tick).map
        fun entry => (one.checkedAt entry.1, entry.2) := by
    rw [health_cut other.db within, health_cut one.db within, agrees.health]
    refine List.map_congr_left fun entry member => ?_
    rw [agrees.checked entry (List.mem_filter.mp member).1]
  unfold checkerStatusAtTick
  rw [rows]

end Cut

/-! What is not cut: queries over all submissions. -/

section Uncut
variable {env : Settings} {view : View} {freeze : Int} {one other : Board}

/-- Boards that are quiet after the freeze tick have the same captures and first bloods. -/
theorem quiet_filter (agrees : AgreesUpTo freeze one other) (here : QuietAfter freeze one)
    (there : QuietAfter freeze other) (keep : Int × Submission → Bool)
    (only : ∀ row, keep row = true → row.2.result = .accepted ∨ row.2.isFirstblood = true) :
    other.submissions.filter keep = one.submissions.filter keep := by
  have cut : ∀ board, QuietAfter freeze board → board.submissions.filter keep =
      (board.submissions.filter fun row => settled board.db freeze row.2).filter keep := by
    intro board quiet
    rw [List.filter_filter]
    refine List.filter_congr fun row member => ?_
    cases kept : keep row with
    | false => rfl
    | true =>
        have stored : row.2 ∈ board.db.submissions := (List.of_mem_zip (a := row.1) (b := row.2) member).2
        rw [quiet row.2 stored (only row kept), Bool.and_self]
  rw [cut other there, cut one here, agrees.submissions]

theorem parties_same (agrees : AgreesUpTo freeze one other) : parties other.db = parties one.db := by
  funext row
  rw [parties, parties, agrees.teams]

theorem shown_parties_same (agrees : AgreesUpTo freeze one other) :
    shownParties other.db = shownParties one.db := by
  funext includeNop row
  rw [shownParties, shownParties, parties_same agrees]

theorem event_same (agrees : AgreesUpTo freeze one other) :
    eventFromRow other.db = eventFromRow one.db := by
  funext row
  rw [eventFromRow, eventFromRow, parties_same agrees, agrees.services]

theorem captures_same (agrees : AgreesUpTo freeze one other) (here : QuietAfter freeze one)
    (there : QuietAfter freeze other) (includeNop : Bool) :
    shownCaptures other includeNop = shownCaptures one includeNop := by
  unfold shownCaptures
  rw [shown_parties_same agrees]
  refine quiet_filter agrees here there _ ?_
  intro row kept
  rw [Bool.and_eq_true, decide_eq_true_eq] at kept
  exact Or.inl kept.1

theorem feed_same (agrees : AgreesUpTo freeze one other) (here : QuietAfter freeze one)
    (there : QuietAfter freeze other) (since : Option Int) (limit : Int) :
    firstbloods other since limit = firstbloods one since limit := by
  unfold firstbloods
  rw [event_same agrees, parties_same agrees, quiet_filter agrees here there]
  intro row kept
  rw [Bool.and_eq_true] at kept
  exact Or.inr kept.1

end Uncut

/-! The answers, from their parts. -/

section Parts
variable {env : Settings} {view : View} {now freeze : Int} {one other : Board}

theorem freeze_same (env : Settings) (agrees : AgreesUpTo freeze one other) :
    effectiveFreezeTick env other.db = effectiveFreezeTick env one.db := by
  rw [effectiveFreezeTick, effectiveFreezeTick, agrees.timer]

theorem services_same (agrees : AgreesUpTo freeze one other) :
    servicesList other.db = servicesList one.db := by
  rw [servicesList, servicesList, agrees.services]

theorem display_same (env : Settings) (agrees : AgreesUpTo freeze one other) :
    displayTick env other.db (some freeze) = displayTick env one.db (some freeze) := latest_same agrees

/-- The board is the same where its rows and what it reads of the submissions are. -/
theorem data_same (agrees : AgreesUpTo freeze one other)
    (frozen : effectiveFreezeTick env one.db = some freeze)
    (rows : boardRows view other false (displayTick env one.db (some freeze)) = boardRows view one
      false (displayTick env one.db (some freeze)))
    (captures : shownCaptures other false = shownCaptures one false) :
    buildScoreboardData env view other false true = buildScoreboardData env view one false true := by
  have counts : serviceActivityCounts other false = serviceActivityCounts one false := by
    rw [serviceActivityCounts, serviceActivityCounts, captures]
  have bloods : serviceFirstBloods other false = serviceFirstBloods one false := by
    funext serviceId
    rw [serviceFirstBloods, serviceFirstBloods, captures, event_same agrees, agrees.services]
  have landed : tickActivity other false (displayTick env one.db (some freeze)) =
      tickActivity one false (displayTick env one.db (some freeze)) := by
    cases shownTick : displayTick env one.db (some freeze) with
    | none => rfl
    | some tick =>
        have within : tick ≤ freeze := latest_within one.db shownTick
        simp only [tickActivity, landedCaptures, round_same agrees within, captures, event_same agrees]
  unfold buildScoreboardData
  simp only [↓reduceIte, display_same env agrees, frozen, rows, counts, bloods, landed,
    services_same agrees, freeze_same env agrees]

theorem synced_agrees (env : Settings) (now : Int) (agrees : AgreesUpTo freeze one other) :
    AgreesUpTo freeze (synced env one now) (synced env other now) := by
  have timers : syncedTimer env other.db now = syncedTimer env one.db now := by
    rw [syncedTimer, syncedTimer, agrees.timer]
  refine ⟨agrees.teams, agrees.services, agrees.teamServices, ?_, agrees.rounds, agrees.points,
    agrees.snapshots, agrees.health, agrees.checked, agrees.submissions⟩
  exact congrArg some (congrArg (·.row) timers)

theorem effective_freeze_iff (env : Settings) (db : Db) :
    effectiveFreezeTick env db = some freeze ↔
      (GameTimer.loadTimer env db.gameState).timer.scoreboardFreezeTick = some freeze ∧ 1 ≤ freeze ∧
        freeze ≤ (GameTimer.loadTimer env db.gameState).timer.currentTick := by
  unfold effectiveFreezeTick
  dsimp only
  cases (GameTimer.loadTimer env db.gameState).timer.scoreboardFreezeTick with
  | none => simp
  | some stored =>
      dsimp only
      rw [Option.some.injEq]
      split
      · constructor
        · intro none_
          cases none_
        · rintro ⟨rfl, _, _⟩
          omega
      · split
        · rw [Option.some.injEq]
          constructor
          · rintro rfl
            exact ⟨rfl, by omega, by assumption⟩
          · exact And.left
        · constructor
          · intro none_
            cases none_
          · rintro ⟨rfl, _, reached⟩
            omega

theorem load_freeze (self row : GameTimer) (held : row.scoreboardFreezeTick = some freeze) :
    (GameTimer.load self (some row)).scoreboardFreezeTick = some freeze :=
  by simp only [GameTimer.load, held]

/-- The sync of a scheduled start leaves an effective freeze as it is. -/
theorem synced_freeze (env : Settings) (board : Board) (now : Int)
    (frozen : effectiveFreezeTick env board.db = some freeze) :
    effectiveFreezeTick env (synced env board now).db = some freeze := by
  obtain ⟨held, first, opened⟩ := (effective_freeze_iff env board.db).mp frozen
  have row : (synced env board now).db.gameState = some (syncedTimer env board.db now).row := rfl
  rw [effective_freeze_iff, row]
  rcases sync_row_cases env (GameTimer.loadTimer env board.db.gameState).timer
    (GameTimer.loadTimer env board.db.gameState).row now with same | ⟨_, _, same⟩ | ⟨_, unopened, _⟩
  · change (syncedTimer env board.db now).row = _ at same
    rw [same]
    exact ⟨held, first, opened⟩
  · change (syncedTimer env board.db now).row = _ at same
    rw [same]
    have kept : (GameTimer.load (GameTimer.loadTimer env board.db.gameState).timer
        (some (GameTimer.loadTimer env board.db.gameState).row)).scoreboardFreezeTick = some freeze := by
      cases stored : (GameTimer.loadTimer env board.db.gameState).row.scoreboardFreezeTick with
      | none => simp only [GameTimer.load, stored, held]
      | some other =>
          have loaded := load_freeze (GameTimer.new env) _ stored
          rw [load_freeze _ _ stored]
          exact loaded.symm.trans held
    exact ⟨load_freeze (GameTimer.new env) _ kept, first, opened⟩
  · change (GameTimer.loadTimer env board.db.gameState).timer.currentTick < 1 at unopened
    omega

theorem view_same (agrees : AgreesUpTo freeze one other)
    (data : buildScoreboardData env view (synced env other now) false true = buildScoreboardData env
      view (synced env one now) false true) (includeNop isPublic : Bool) :
    scoreboard env view other now false includeNop isPublic =
      scoreboard env view one now false includeNop isPublic := by
  have timers : syncedTimer env other.db now = syncedTimer env one.db now := by
    rw [syncedTimer, syncedTimer, agrees.timer]
  unfold scoreboard
  simp only [Bool.and_false, Bool.not_false, Bool.or_true, data, timers]

theorem rows_same (agrees : AgreesUpTo freeze one other) {tick : Int} (within : tick ≤ freeze)
    (includeNop : Bool) :
    boardRows view other includeNop (some tick) = boardRows view one includeNop (some tick) := by
  have cells : cellShown view other includeNop (some tick) = cellShown view one includeNop (some tick) := by
    funext teamId service
    simp only [cellShown, statsShown, checkShown, stats_same agrees within, previous_same agrees within,
      status_same agrees within]
  simp only [boardRows, teamsShown, ranking_same agrees within, services_same agrees, cells]

/-- With a scored tick up to the freeze and nothing submitted after it, the board is cut everywhere. -/
theorem quiet_boards_same (agrees : AgreesUpTo freeze one other)
    (frozen : effectiveFreezeTick env one.db = some freeze) (here : QuietAfter freeze one)
    (there : QuietAfter freeze other) (scored : latestScoredTick one.db (some freeze) ≠ none) :
    SameView env view now one other := by
  refine ⟨?_, feed_same agrees here there⟩
  have after := synced_agrees env now agrees
  apply view_same agrees
  apply data_same after (synced_freeze env one now frozen)
  · obtain ⟨tick, found⟩ := Option.ne_none_iff_exists'.mp scored
    have shownTick : displayTick env (synced env one now).db (some freeze) = some tick := found
    rw [shownTick]
    exact rows_same after (latest_within one.db found) false
  · exact captures_same after here there false

/-! Without teams nothing is shown; with a team, a later first blood is. -/

theorem teamless_parties {board : Board} (nobody : board.db.teams.entries = []) (row : Submission) :
    parties board.db row = none := by
  have missing : board.db.teams.get? row.submitterTeamId = none := by
    rw [Dict.get?, nobody]
    rfl
  rw [parties, missing]
  rfl

theorem teamless_rows {board : Board} (nobody : board.db.teams.entries = []) (tick : Option Int) :
    boardRows view board false tick = [] := by
  have teams : teamsShown board.db false tick = [] := by
    cases tick with
    | none => simp only [teamsShown, scoreboardRows, nobody]; rfl
    | some tick => simp only [teamsShown, scoreboardRowsAtTick, nobody]; rfl
  rw [boardRows, teams]
  rfl

theorem teamless_captures {board : Board} (nobody : board.db.teams.entries = []) :
    shownCaptures board false = [] := by
  refine List.filter_eq_nil_iff.mpr ?_
  intro row _ kept
  rw [shownParties, teamless_parties nobody row.2, Bool.and_false] at kept
  cases kept

theorem teamless_feed {board : Board} (nobody : board.db.teams.entries = []) (since : Option Int)
    (limit : Int) :
    firstbloods board since limit = [] := by
  have none_ : ∀ rows : List (Int × Submission),
      rows.filter (fun row => (parties board.db row.2).isSome) = [] := by
    intro rows
    refine List.filter_eq_nil_iff.mpr ?_
    intro row _ kept
    rw [teamless_parties nobody row.2] at kept
    cases kept
  unfold firstbloods
  simp only [none_, List.insertionSort_nil, List.take_nil, List.filterMap_nil]

theorem teamless_boards_same (agrees : AgreesUpTo freeze one other)
    (frozen : effectiveFreezeTick env one.db = some freeze) (nobody : one.db.teams.entries = []) :
    SameView env view now one other := by
  have others : other.db.teams.entries = [] := by rw [agrees.teams, nobody]
  refine ⟨?_, ?_⟩
  · have after := synced_agrees env now agrees
    apply view_same agrees
    apply data_same after (synced_freeze env one now frozen)
    · exact Eq.trans (teamless_rows others _) (Eq.symm (teamless_rows nobody _))
    · exact Eq.trans (teamless_captures others) (Eq.symm (teamless_captures nobody))
  · intro since limit
    rw [teamless_feed others, teamless_feed nobody]

end Parts

/-! A later first blood. -/

def laterFirstblood (teamId : Int) (flag : Text) (tick submittedAt : Int) : Submission where
  submitterTeamId := teamId
  targetTeamId := none
  serviceId := none
  roundId := none
  tickIssued := some tick
  payload := none
  flag := flag
  result := .accepted
  pointsAwarded := 0
  isFirstblood := true
  sourceIp := none
  submittedAt := submittedAt

section Added
variable {freeze : Int} {board : Board} {id : Int} {row : Submission}

/-- One more submission that keeps the constraints. -/
def added (board : Board) (id : Int) (row : Submission) (newId : id ∉ board.submissionIds)
    (newFlag : ∀ other ∈ board.db.submissions,
      (other.submitterTeamId, other.flag) ≠ (row.submitterTeamId, row.flag))
    (known : submissionRefs board.db row = true) : Board where
  db := { board.db with submissions := board.db.submissions ++ [row] }
  submissionIds := board.submissionIds ++ [id]
  checkedAt := board.checkedAt
  aligned := by rw [List.length_append, List.length_append, board.aligned]; rfl
  idsDistinct := by
    rw [List.nodup_append]
    refine ⟨board.idsDistinct, List.nodup_singleton id, ?_⟩
    intro one here other there same
    rw [List.mem_singleton.mp there] at same
    exact newId (same ▸ here)
  flagsDistinct := by
    rw [List.map_append, List.nodup_append]
    refine ⟨board.flagsDistinct, List.nodup_singleton _, ?_⟩
    intro one here other there same
    obtain ⟨old, stored, rfl⟩ := List.mem_map.mp here
    rw [List.map_singleton, List.mem_singleton] at there
    exact newFlag old stored (same.trans there)
  references := by
    intro other member
    rcases List.mem_append.mp member with old | new
    · exact board.references other old
    · rw [List.mem_singleton.mp new]
      exact known
  ticksDistinct := board.ticksDistinct

variable (newId : id ∉ board.submissionIds)
  (newFlag : ∀ other ∈ board.db.submissions,
    (other.submitterTeamId, other.flag) ≠ (row.submitterTeamId, row.flag))
  (known : submissionRefs board.db row = true)

theorem added_submissions :
    (added board id row newId newFlag known).submissions = board.submissions ++ [(id, row)] := by
  rw [Board.submissions, Board.submissions]
  exact List.zip_append board.aligned

theorem added_agrees (late : settled board.db freeze row = false) :
    AgreesUpTo freeze board (added board id row newId newFlag known) := by
  refine ⟨rfl, rfl, rfl, rfl, rfl, rfl, rfl, rfl, fun _ _ => rfl, ?_⟩
  have same : ∀ other, settled (added board id row newId newFlag known).db freeze other =
      settled board.db freeze other := fun _ => rfl
  simp only [same]
  rw [added_submissions newId newFlag known, List.filter_append, List.filter_singleton, late]
  exact List.append_nil _

theorem event_some (db : Db) (row : Int × Submission) (seen : (parties db row.2).isSome = true) :
    ∃ event, eventFromRow db row = some event ∧ event.id = row.1 := by
  obtain ⟨teams, found⟩ := Option.isSome_iff_exists.mp seen
  exact ⟨_, Option.map_eq_some_iff.mpr ⟨teams, found, rfl⟩, rfl⟩

/-- The feed shows the row first where it is the newest one. -/
theorem added_shown (first : row.isFirstblood = true)
    (present : board.db.teams.contains row.submitterTeamId = true)
    (newest : ∀ other ∈ board.submissions, other.2.submittedAt < row.submittedAt) :
    ∃ event ∈ firstbloods (added board id row newId newFlag known) none 1, event.id = id := by
  obtain ⟨team, found⟩ := (Dict.contains_eq_some _ _).mp present
  have seen : (parties (added board id row newId newFlag known).db row).isSome = true := by
    rw [parties, Option.isSome_map]
    exact Option.isSome_iff_exists.mpr ⟨team, found⟩
  obtain ⟨event, read, named⟩ := event_some (added board id row newId newFlag known).db (id, row) seen
  have head : (max 1 (min (1 : Int) 200)).toNat = 1 := rfl
  unfold firstbloods
  simp only [Bool.and_true, head]
  rw [added_submissions newId newFlag known, List.filter_append, List.filter_singleton, first,
    cond_true, List.filter_append, List.filter_singleton, seen, cond_true, insertion_sort_first]
  · refine ⟨firstbloodEvent event, ?_, named⟩
    rw [List.take_succ_cons, List.filterMap_cons, read, Option.map_some]
    exact List.mem_cons_self
  · intro other member earlier
    have before := newest other (List.mem_filter.mp (List.mem_filter.mp member).1).1
    exact absurd before (not_lt.mpr earlier)

theorem feed_ids (since : Option Int) (limit : Int) :
    ∀ event ∈ firstbloods board since limit, event.id ∈ board.submissionIds := by
  intro event member
  obtain ⟨row, shownRow, read⟩ := List.mem_filterMap.mp member
  obtain ⟨capture, loaded, same⟩ := Option.map_eq_some_iff.mp read
  obtain ⟨_, _, built⟩ := Option.map_eq_some_iff.mp loaded
  have stored := (List.mem_filter.mp (List.mem_filter.mp ((List.mem_insertionSort _).mp
    (List.mem_of_mem_take shownRow))).1).1
  rw [← same, ← built]
  exact (List.of_mem_zip (a := row.1) (b := row.2) stored).1

end Added

theorem exists_later (rows : List (Int × Submission)) : ∃ time, ∀ row ∈ rows, row.2.submittedAt < time := by
  induction rows with
  | nil => exact ⟨0, fun _ member => (by cases member)⟩
  | cons row rest ih =>
      obtain ⟨time, later⟩ := ih
      refine ⟨max time (row.2.submittedAt + 1), ?_⟩
      intro other member
      rcases List.mem_cons.mp member with here | inside
      · rw [here]
        exact lt_max_of_lt_right (lt_add_one _)
      · exact lt_max_of_lt_left (later other inside)

/-- Every board with a team leaks: a first blood after the freeze is in the public feed. -/
theorem team_leaks {env : Settings} {view : View} {now freeze : Int} {board : Board}
    (teams : board.db.teams.entries ≠ []) : ¬ LeaksNothing env view now freeze board := by
  intro leaksNothing
  obtain ⟨entry, member⟩ := List.exists_mem_of_ne_nil _ teams
  obtain ⟨id, newId⟩ := Infinite.exists_notMem_finset board.submissionIds.toFinset
  obtain ⟨flag, newFlag⟩ := Infinite.exists_notMem_finset (board.db.submissions.map (·.flag)).toFinset
  obtain ⟨time, later⟩ := exists_later board.submissions
  have present : board.db.teams.contains entry.1 = true :=
    (Dict.contains_iff _ _).mpr (List.mem_map.mpr ⟨entry, member, rfl⟩)
  have fresh : id ∉ board.submissionIds := fun inside => newId (List.mem_toFinset.mpr inside)
  have unused : ∀ other ∈ board.db.submissions, (other.submitterTeamId, other.flag) ≠ (entry.1, flag) := by
    intro other stored same
    rw [Prod.mk.injEq] at same
    exact newFlag (List.mem_toFinset.mpr (List.mem_map.mpr ⟨other, stored, same.2⟩))
  have known : submissionRefs board.db (laterFirstblood entry.1 flag (freeze + 1) time) = true := by
    simp only [submissionRefs, laterFirstblood, nullOr, present, Bool.and_self]
  have late : settled board.db freeze (laterFirstblood entry.1 flag (freeze + 1) time) = false := by
    have after : upTo freeze (some (freeze + 1)) = false := decide_eq_false (by omega)
    rw [settled]
    dsimp only [laterFirstblood]
    rw [after, Bool.false_and]
  have same := leaksNothing _ (added_agrees fresh unused known late)
  obtain ⟨event, shownEvent, named⟩ := added_shown fresh unused known rfl present later
  rw [same.feed] at shownEvent
  exact fresh (named ▸ feed_ids none 1 event shownEvent)

/-- A frozen board leaks nothing exactly when there is no team; of two given boards, the
public sees the same where a tick up to the freeze is scored and nothing is captured later. -/
theorem frozen_board_leaks_iff (env : Settings) (view : View) (now freeze : Int) (board : Board)
    (frozen : effectiveFreezeTick env board.db = some freeze) :
    (LeaksNothing env view now freeze board ↔ board.db.teams.entries = []) ∧
      ∀ other, AgreesUpTo freeze board other → QuietAfter freeze board → QuietAfter freeze other →
        latestScoredTick board.db (some freeze) ≠ none → SameView env view now board other := by
  refine ⟨⟨?_, ?_⟩, ?_⟩
  · intro leaksNothing
    by_contra teams
    exact team_leaks teams leaksNothing
  · exact fun nobody other agrees => teamless_boards_same agrees frozen nobody
  · exact fun other agrees here there scored => quiet_boards_same agrees frozen here there scored

/-! Boards of small runs: the freeze tick is 1, and a capture follows in tick 2. -/

def sampleView : View where
  points := id
  percent := id
  attackPoints := 10
  defenseSuccessPoints := 5
  maxAcceptedPerRound := 0

def Constraints (db : Db) (ids : List Int) : Prop :=
  ids.length = db.submissions.length ∧ ids.Nodup ∧
    (db.submissions.map fun row => (row.submitterTeamId, row.flag)).Nodup ∧
    (∀ row ∈ db.submissions, submissionRefs db row = true) ∧
    (db.flagRounds.entries.filterMap fun entry => entry.2.tick).Nodup

instance (db : Db) (ids : List Int) : Decidable (Constraints db ids) :=
  inferInstanceAs (Decidable (_ ∧ _ ∧ _ ∧ _ ∧ _))

def boardAfter (events : List Event) (ids : List Int) (kept : Constraints (reached events).db ids) :
    Board :=
  ⟨(reached events).db, ids, fun _ => 0, kept.1, kept.2.1, kept.2.2.1, kept.2.2.2.1, kept.2.2.2.2⟩

/-- Tick 1 has passed under a freeze at tick 1; tick 2 runs, and tick 1 is not scored yet. -/
def freezeReached : List Event :=
  [.bootstrap, .admin (.schedule none none (some 1)), .publicSync] ++ bootstrapIteration 3 ++
    [.clock 1120000000] ++ endIteration

/-- The boundary of tick 2 has scored tick 1. -/
def freezeScored : List Event := freezeReached ++ bootstrapIteration 3

def unscoredBoard : Board := boardAfter freezeReached [] (by decide +kernel)

def unscoredCaptured : Board :=
  boardAfter (freezeReached ++ submission 1 1 betaFlag) [1] (by decide +kernel)

def scoredBoard : Board := boardAfter freezeScored [] (by decide +kernel)

def scoredCaptured : Board := boardAfter (freezeScored ++ submission 1 1 betaFlag) [1] (by decide +kernel)

/-- An undecodable entry comes in tick 2. -/
def scoredRejected : Board :=
  boardAfter (freezeScored ++ submission 1 1 "garbage".toList) [1] (by decide +kernel)

theorem sample_board_leaks : ¬ LeaksNothing sampleSettings sampleView 1130 1 scoredBoard ∧
    scoredBoard.db.submissions ≠ scoredRejected.db.submissions ∧
    SameView sampleSettings sampleView 1130 scoredBoard scoredRejected := by
  have leaks := frozen_board_leaks_iff sampleSettings sampleView 1130 1 scoredBoard (by decide +kernel)
  have agrees : AgreesUpTo 1 scoredBoard scoredRejected := by constructor <;> decide +kernel
  have quiet : QuietAfter 1 scoredBoard ∧ QuietAfter 1 scoredRejected := by
    unfold QuietAfter
    decide +kernel
  refine ⟨fun leaksNothing => ?_, by decide +kernel, ?_⟩
  · exact absurd (leaks.1.mp leaksNothing) (by decide +kernel)
  · exact leaks.2 scoredRejected agrees quiet.1 quiet.2 (by decide +kernel)

def shownData (board : Board) : Option ScoreboardData :=
  (scoreboard sampleSettings sampleView board 1130 false false true).toOption.map (·.data)

/-- The capture in tick 2 appears in the feed and in the service tops of the frozen board,
and without a scored tick in its rows as well. -/
theorem later_capture_shown :
    effectiveFreezeTick sampleSettings scoredBoard.db = some 1 ∧ AgreesUpTo 1 scoredBoard scoredCaptured ∧
      (firstbloods scoredBoard none 50).length = 0 ∧ (firstbloods scoredCaptured none 50).length = 1 ∧
      (shownData scoredBoard).map (·.serviceTops) = some [(1, none)] ∧
      (shownData scoredCaptured).map (fun data => data.serviceTops.map fun top => top.2.isSome) =
        some [true] ∧
      effectiveFreezeTick sampleSettings unscoredBoard.db = some 1 ∧
      AgreesUpTo 1 unscoredBoard unscoredCaptured ∧
      latestScoredTick unscoredBoard.db (some 1) = none ∧
      (shownData unscoredBoard).map (fun data => data.rows.map fun row =>
        row.totals.flagsCaptured) = some [0, 0] ∧
      (shownData unscoredCaptured).map (fun data => data.rows.map fun row => row.totals.flagsCaptured) =
        some [1, 0] := by
  refine ⟨by decide +kernel, ?_, by decide +kernel, by decide +kernel, by decide +kernel, by decide +kernel,
    by decide +kernel, ?_, by decide +kernel, by decide +kernel, by decide +kernel⟩
  · constructor <;> decide +kernel
  · constructor <;> decide +kernel

end KosSim.FrozenBoards
