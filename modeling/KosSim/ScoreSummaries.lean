import KosSim.Library.LatestVersion
import KosSim.Library.Ordering
import KosSim.Scoreboard
import KosSim.TickClosing

/-!
The two places that keep a team's total. The scores table takes the latest row of
each pair of team_tick_points, score_snapshots keeps the rows of one tick. After a
_score_tick they agree, if no row of a later tick is left over from an earlier play.
-/

namespace KosSim.ScoreSummaries
open Library Schema Scoring CheckerJobs Rotator Scoreboard Platform PlatformFrames
open ScoringLedger ScoringBlocked TickRounds TickClosing

def worth (row : TeamTickPoints) : Rat := (row.offPoints + row.defPoints) * row.slaPoints

def rowsOfTeam (db : Db) (tick teamId : Int) : List ((Int × Int × Int) × TeamTickPoints) :=
  (pointsOfTick db tick).entries.filter fun entry => entry.1.2.1 = teamId

def pointsTotal (db : Db) (tick teamId : Int) : Rat :=
  ((rowsOfTeam db tick teamId).map fun entry => worth entry.2).sum

/-- The summary, the rows and the snapshots of the tick give every team one total, the
board shows the tick, and both rankings are one. -/
structure SummaryIsTick (db : Db) (tick : Int) : Prop where
  total : ∀ teamId score, db.scoring.scores.get? teamId = some score →
    score.total = pointsTotal db tick teamId ∧ score.total = totalAtTick db tick teamId
  shown : ∀ current, tick ≤ current → latestScoredTick db (some current) = some tick
  ranking : ∀ includeNop, scoreboardRows db includeNop =
    (scoreboardRowsAtTick db tick includeNop).filter fun row => db.scoring.scores.contains row.teamId

/-- The tick that the step scores, past the early returns of _score_tick. -/
def scoredTick (env : Settings) (state : State) : Event → Option Int
  | .rotator .next =>
      match state.loop with
      | .boundary _ _ round startedAt =>
          let (opened, tick) := ensureFlagRound env state.db round.roundId round.startsAt round.endsAt
          match runTickBoundary env state.db startedAt round.roundId round.startsAt round.endsAt with
          | .error _ => none
          | .ok _ =>
              if 1 < tick ∧ checkerTickReady (finalizeTick opened (tick - 1) startedAt).checker
                  (tick - 1) = true ∧
                  state.db.services.entries ≠ [] ∧ state.db.teams.entries ≠ [] then some (tick - 1)
              else none
      | _ => none
  | _ => none

/-- No row of an earlier play is of a later tick. -/
def noLaterRows (db : Db) (tick : Int) : Prop := ∀ key ∈ db.scoring.teamTickPoints.keys, key.1 ≤ tick

instance (db : Db) (tick : Int) : Decidable (noLaterRows db tick) :=
  inferInstanceAs (Decidable (∀ key ∈ db.scoring.teamTickPoints.keys, key.1 ≤ tick))

/-! The summary: the latest rows of a team are its rows of the tick. -/

theorem latest_row_eq (table : Dict (Int × Int × Int) TeamTickPoints) (teamId serviceId : Int) :
    latestRow table teamId serviceId = latest table.entries (teamId, serviceId) := by
  unfold latestRow latest
  congr 1
  funext best entry
  unfold newer
  split
  · cases best with
    | none => rfl
    | some held => rfl
  · rfl

theorem latest_rows_eq (table : Dict (Int × Int × Int) TeamTickPoints) (teamId : Int) :
    latestRows table teamId = (groupsOf table fun pair => decide (pair.1 = teamId)).filterMap fun pair =>
      (latest table.entries pair).map (·.2) := by
  have groups : (groupsOf table fun pair => decide (pair.1 = teamId)) =
      (((table.entries.filter fun entry => entry.1.2.1 = teamId).map (·.1.2.2)).dedup).map
      (Prod.mk teamId) := by
    rw [groupsOf, ← List.dedup_map_of_injective (Prod.mk_right_injective teamId), List.map_map]
    refine congrArg List.dedup (List.map_congr_left ?_)
    intro entry member
    have named := of_decide_eq_true (List.mem_filter.mp member).2
    exact Prod.ext named rfl
  rw [groups, List.filterMap_map, latestRows]
  exact List.filterMap_congr fun serviceId _ => by rw [latest_row_eq]; rfl

theorem latest_rows_perm {db : Db} {tick : Int} (teamId : Int) (newest : noLaterRows db tick)
    (complete : ∀ key ∈ db.scoring.teamTickPoints.keys, (tick, key.2) ∈ db.scoring.teamTickPoints.keys) :
    (latestRows db.scoring.teamTickPoints teamId).Perm ((rowsOfTeam db tick teamId).map (·.2)) := by
  rw [latest_rows_eq]
  have view := latest_view db.scoring.teamTickPoints (fun pair : Int × Int => decide (pair.1 = teamId)) tick
    (fun key member _ => newest key member) (fun key member _ => complete key member)
  have rows : rowsOfTeam db tick teamId =
      rowsOfVersion db.scoring.teamTickPoints (fun pair : Int × Int => decide (pair.1 = teamId)) tick := by
    rw [rowsOfTeam, pointsOfTick, Dict.filter, List.filter_filter]
    rfl
  rw [rows]
  exact view

theorem summary_total {env : Settings} (exact_ : ∀ value, env.numeric value = value) (db : Db)
    {tick teamId : Int} (newest : noLaterRows db tick)
    (complete : ∀ key ∈ db.scoring.teamTickPoints.keys, (tick, key.2) ∈ db.scoring.teamTickPoints.keys)
    (serviceCount : Nat) :
    (summaryOf env serviceCount (latestRows db.scoring.teamTickPoints teamId)).total =
      pointsTotal db tick teamId := by
  have same := ((latest_rows_perm teamId newest complete).map worth).sum_eq
  rw [List.map_map] at same
  exact (exact_ _).trans same

/-! The snapshots: each row of the tick is copied, and no other is there. -/

/-- A snapshot stands beside the points row with the same tick and pair. -/
def Mirrored (db : Db) : Prop :=
  ∀ key ∈ db.scoring.scoreSnapshots.keys, key ∈ db.scoring.teamTickPoints.keys

theorem snapshot_one_cases {env : Settings} {db : Db} {roundId tick : Int}
    {table next : Dict (Int × Int × Int) ScoreSnapshot} {entry : (Int × Int × Int) × TeamTickPoints}
    (done : snapshotOne env db roundId tick table entry = .ok next) :
    next = table.set (roundId, entry.1.2.1, entry.1.2.2) (snapshotOf env db tick entry) := by
  unfold snapshotOne at done
  split at done
  · cases done
    rfl
  · cases done

theorem snapshot_fold_get {env : Settings} {db : Db} {tick : Int}
    (entries : List ((Int × Int × Int) × TeamTickPoints)) (distinct : (entries.map Prod.fst).Nodup)
    (ticked : ∀ entry ∈ entries, entry.1.1 = tick)
    {table last : Dict (Int × Int × Int) ScoreSnapshot}
    (done : entries.foldlM (snapshotOne env db tick tick) table = .ok last) (key : Int × Int × Int) :
    last.get? key = match lookupEntry entries key with
      | some row => some (snapshotOf env db tick (key, row))
      | none => table.get? key := by
  induction entries generalizing table with
  | nil =>
      rw [← Except.ok.inj done]
      rfl
  | cons entry rest ih =>
      rw [List.foldlM_cons] at done
      obtain ⟨middle, first, others⟩ := bind_ok_iff.mp done
      rw [List.map_cons, List.nodup_cons] at distinct
      have named : (tick, entry.1.2.1, entry.1.2.2) = entry.1 := by rw [← ticked entry List.mem_cons_self]
      have tail := ih distinct.2 (fun other member => ticked other (List.mem_cons_of_mem _ member)) others
      rw [tail, snapshot_one_cases first, named, lookupEntry]
      by_cases here : entry.1 = key
      · have missing : lookupEntry rest key = none := by
          rw [Dict.lookup_entry_none, ← here]
          exact distinct.1
        subst here
        rw [missing, if_pos rfl]
        exact Dict.get_set_self _ _ _
      · rw [if_neg here, Dict.get_set_other _ _ _ _ here]

section Numbered
variable {env : Settings} {db : Db} {tick : Int}

theorem round_of_numbered (numbered : Numbered db) (first : 1 ≤ tick) (last : tick ≤ db.maxTick) :
    roundIdForTick db tick = some tick := by
  obtain ⟨round, found⟩ :=
    (Dict.contains_eq_some _ _).mp ((numbered_contains numbered tick).mpr ⟨first, last⟩)
  rw [roundIdForTick, numbered_round numbered, found]
  rfl

theorem tick_of_numbered (numbered : Numbered db) (first : 1 ≤ tick) (last : tick ≤ db.maxTick)
    (roundId : Int) :
    tickOf db roundId = some tick ↔ roundId = tick := by
  constructor
  · intro ticked
    obtain ⟨round, found, same⟩ := Option.bind_eq_some_iff.mp ticked
    exact Option.some.inj ((numbered.own roundId round found).symm.trans same)
  · rintro rfl
    obtain ⟨round, found⟩ :=
      (Dict.contains_eq_some _ _).mp ((numbered_contains numbered roundId).mpr ⟨first, last⟩)
    rw [tickOf, found]
    exact numbered.own roundId round found

/-- Afterwards the snapshots of the tick are the copies of its points rows. -/
theorem mirrored_get {after : Db} (numbered : Numbered db) (first : 1 ≤ tick)
    (last : tick ≤ db.maxTick) (mirrored : Mirrored db)
    (done : snapshotToScoreTable env db tick = .ok after) (key : Int × Int × Int) :
    after.scoring.scoreSnapshots.get? key =
      if key.1 = tick then ((pointsOfTick db tick).get? key).map fun row =>
      snapshotOf env db tick (key, row) else db.scoring.scoreSnapshots.get? key := by
  unfold snapshotToScoreTable at done
  rw [round_of_numbered numbered first last] at done
  dsimp only at done
  split at done
  · cases done
  next snapshots copied =>
  cases done
  have ticked : ∀ entry ∈ (pointsOfTick db tick).entries, entry.1.1 = tick :=
    fun entry member => of_decide_eq_true (List.mem_filter.mp member).2
  have written := snapshot_fold_get _ (pointsOfTick db tick).distinct ticked copied key
  have looked : lookupEntry (pointsOfTick db tick).entries key = (pointsOfTick db tick).get? key := rfl
  dsimp only
  rw [written, looked]
  cases found : (pointsOfTick db tick).get? key with
  | some row =>
      have inside := ticked (key, row) ((Dict.mem_entries_iff _ _ _).mpr found)
      rw [if_pos inside]
      rfl
  | none =>
      by_cases here : key.1 = tick
      · rw [if_pos here]
        -- An old snapshot would stand beside a points row of the tick.
        cases old : db.scoring.scoreSnapshots.get? key with
        | none => rfl
        | some snapshot =>
            have beside := mirrored key (Dict.mem_keys_of_get old)
            obtain ⟨row, stored⟩ := (Dict.contains_eq_some _ _).mp ((Dict.contains_iff _ _).mpr beside)
            rw [pointsOfTick, Dict.get_filter, stored, Option.filter_some, decide_eq_true here,
              if_pos rfl] at found
            cases found
      · rw [if_neg here]

theorem snapshots_total {after : Db} (exact_ : ∀ value, env.numeric value = value) (numbered : Numbered db)
    (first : 1 ≤ tick) (last : tick ≤ db.maxTick) (mirrored : Mirrored db)
    (done : snapshotToScoreTable env db tick = .ok after) (teamId : Int) :
    totalAtTick after tick teamId = pointsTotal db tick teamId := by
  obtain ⟨snapshots, framed⟩ := snapshot_frame done
  have ticks : ∀ roundId, tickOf after roundId = tickOf db roundId := by
    intro roundId
    rw [framed]
    rfl
  have copies : ∀ key, (snapshotsAtTick after tick).get? key =
      ((pointsOfTick db tick).mapEntries fun key row => snapshotOf env db tick (key, row)).get? key := by
    intro key
    rw [snapshotsAtTick, Dict.get_filter, mirrored_get numbered first last mirrored done key,
      Dict.get_map_entries]
    have here := tick_of_numbered numbered first last key.1
    rw [← ticks] at here
    by_cases same : key.1 = tick
    · rw [if_pos same]
      have kept := decide_eq_true (here.mpr same)
      cases (pointsOfTick db tick).get? key with
      | none => rfl
      | some row => rw [Option.map_some, Option.filter_some, if_pos kept]
    · rw [if_neg same]
      have dropped := decide_eq_false fun ticked => same (here.mp ticked)
      have absent : (pointsOfTick db tick).get? key = none := by
        rw [pointsOfTick, Dict.get_filter]
        cases db.scoring.teamTickPoints.get? key with
        | none => rfl
        | some row => rw [Option.filter_some, decide_eq_false same]; rfl
      rw [absent]
      cases db.scoring.scoreSnapshots.get? key with
      | none => rfl
      | some row => rw [Option.filter_some, dropped]; rfl
  have perm := (Dict.entries_perm _ _ copies).filter fun entry => decide (entry.1.2.1 = teamId)
  have sums := (perm.map fun entry => entry.2.serviceTotal).sum_eq
  rw [totalAtTick, sums, pointsTotal, rowsOfTeam, Dict.mapEntries, List.filter_map, List.map_map]
  refine congrArg List.sum (List.map_congr_left ?_)
  intro entry _
  exact exact_ _

end Numbered

/-! The rankings. -/

instance : Std.Total ranksBefore where
  total one other := by
    rcases lt_trichotomy one.total other.total with less | same | more
    · exact Or.inr (Or.inl less)
    · exact (String.le_total one.teamName other.teamName).imp (fun named => Or.inr ⟨same, named⟩)
        fun named => Or.inr ⟨same.symm, named⟩
    · exact Or.inl (Or.inl more)

instance : IsTrans TeamRow ranksBefore where
  trans one other third := by
    rintro (less | ⟨level, named⟩) (fewer | ⟨same, after⟩)
    · exact Or.inl (fewer.trans less)
    · exact Or.inl (same ▸ less)
    · exact Or.inl (level ▸ fewer)
    · exact Or.inr ⟨level.trans same, String.le_trans named after⟩

theorem same_ranking {db : Db} {tick : Int}
    (totals : ∀ teamId score, db.scoring.scores.get? teamId = some score →
      score.total = totalAtTick db tick teamId) (includeNop : Bool) :
    scoreboardRows db includeNop =
      (scoreboardRowsAtTick db tick includeNop).filter fun row =>
      db.scoring.scores.contains row.teamId := by
  have rows : ∀ teams : List (Int × Team),
      (teams.filterMap fun entry => (db.scoring.scores.get? entry.1).map fun score =>
        teamRow entry score.total) =
        (teams.map fun entry => teamRow entry (totalAtTick db tick entry.1)).filter
          fun row => db.scoring.scores.contains row.teamId := by
    intro teams
    induction teams with
    | nil => rfl
    | cons entry rest ih =>
        rw [List.filterMap_cons, List.map_cons, List.filter_cons, ← ih]
        have present : db.scoring.scores.contains (teamRow entry (totalAtTick db tick entry.1)).teamId =
            (db.scoring.scores.get? entry.1).isSome := rfl
        cases found : db.scoring.scores.get? entry.1 with
        | none =>
            rw [found] at present
            exact (if_neg (Bool.eq_false_iff.mp present)).symm
        | some score =>
            rw [found, Option.isSome_some] at present
            rw [if_pos present, Option.map_some, totals entry.1 score found]
  rw [scoreboardRows, scoreboardRowsAtTick, filter_insertion_sort ranksBefore, rows]

/-! One scoring. -/

theorem score_tick_parts {env : Settings} {db after : Db} {tick retention : Int} (first : 1 ≤ tick)
    (services : db.services.entries ≠ []) (teams : db.teams.entries ≠ [])
    (done : scoreTick env db tick retention = .ok after) :
    ∃ flags table mirrored, persistTickPoints env db tick (scoredPoints db tick retention flags) =
      .ok table ∧
      snapshotToScoreTable env { db with
        scoring := { db.scoring with teamTickPoints := table } } tick = .ok mirrored ∧
      after = refreshScoresSummary env mirrored := by
  have somebody : ¬ (db.services.entries.isEmpty || db.teams.entries.isEmpty) = true := by
    rw [Bool.or_eq_true, List.isEmpty_iff, List.isEmpty_iff, not_or]
    exact ⟨services, teams⟩
  rw [scoreTick, if_neg (by omega), if_neg somebody] at done
  obtain ⟨flags, _, scored⟩ := bind_ok_iff.mp done
  dsimp only at scored
  rw [services_keyed, if_pos rfl] at scored
  obtain ⟨table, stored, rest⟩ := bind_ok_iff.mp scored
  obtain ⟨mirrored, copied, last⟩ := bind_ok_iff.mp rest
  exact ⟨flags, table, mirrored, stored, copied, (Except.ok.inj last).symm⟩

/-- Every scores row is of a team that is there. -/
def ScoresKnown (db : Db) : Prop := ∀ teamId ∈ db.scoring.scores.keys, teamId ∈ db.teams.keys

/-- What the runs keep of the two tables of totals. -/
structure Kept (db : Db) : Prop where
  points : PointRefs db db.scoring.teamTickPoints
  mirrored : Mirrored db
  scored : ScoresKnown db

section Scoring
variable {env : Settings} {db after : Db} {tick retention : Int}

theorem snapshot_keys (numbered : Numbered db) (first : 1 ≤ tick) (last : tick ≤ db.maxTick)
    (mirrored : Mirrored db) (done : snapshotToScoreTable env db tick = .ok after)
    (key : Int × Int × Int) :
    key ∈ after.scoring.scoreSnapshots.keys ↔
      key.1 = tick ∧ key ∈ db.scoring.teamTickPoints.keys ∨ key ∈ db.scoring.scoreSnapshots.keys := by
  rw [Dict.mem_keys_iff, mirrored_get numbered first last mirrored done key]
  by_cases here : key.1 = tick
  · have chosen : (pointsOfTick db tick).get? key = db.scoring.teamTickPoints.get? key := by
      rw [pointsOfTick, Dict.get_filter]
      cases db.scoring.teamTickPoints.get? key with
      | none => rfl
      | some row => rw [Option.filter_some, decide_eq_true here, if_pos rfl]
    rw [if_pos here, chosen, ne_eq, Option.map_eq_none_iff, ← ne_eq, ← Dict.mem_keys_iff]
    constructor
    · exact fun member => Or.inl ⟨here, member⟩
    · rintro (⟨_, member⟩ | old)
      · exact member
      · exact mirrored key old
  · rw [if_neg here, ← Dict.mem_keys_iff]
    constructor
    · exact Or.inr
    · rintro (⟨same, _⟩ | old)
      · exact absurd same here
      · exact old

/-- After a _score_tick of the newest tick of the rows, the totals are the tick's. -/
theorem score_tick_summary (exact_ : ∀ value, env.numeric value = value) (numbered : Numbered db)
    (first : 1 ≤ tick) (last : tick ≤ db.maxTick) (kept : Kept db) (newest : noLaterRows db tick)
    (services : db.services.entries ≠ []) (teams : db.teams.entries ≠ [])
    (done : scoreTick env db tick retention = .ok after) : SummaryIsTick after tick := by
  have keys := score_tick_keys first done
  obtain ⟨flags, table, mirrored, stored, copied, refreshed⟩ := score_tick_parts first services teams done
  obtain ⟨snapshots, framed⟩ := snapshot_frame copied
  let scored : Db := { db with scoring := { db.scoring with teamTickPoints := table } }
  have rounds : Numbered scored ∧ scored.maxTick = db.maxTick := numbered_same numbered scored rfl
  have rows : after.scoring.teamTickPoints = table := by rw [refreshed, framed]; rfl
  rw [rows] at keys
  have beside : Mirrored scored := fun key member => (keys key).mpr (Or.inr (kept.mirrored key member))
  have last_ : tick ≤ scored.maxTick := rounds.2 ▸ last
  have copies := snapshot_keys rounds.1 first last_ beside copied
  -- The rows after the scoring: none above the tick, and each pair has one of the tick.
  have above : noLaterRows scored tick := by
    intro key member
    rcases (keys key).mp member with ⟨here, _⟩ | old
    · omega
    · exact newest key old
  have pairs : ∀ key ∈ table.keys, key.2.1 ∈ db.teams.keys ∧ key.2.2 ∈ db.services.keys := by
    intro key member
    rcases (keys key).mp member with ⟨_, known⟩ | old
    · exact known
    · obtain ⟨team, service⟩ := kept.points key old
      exact ⟨(Dict.contains_iff _ _).mp team, (Dict.contains_iff _ _).mp service⟩
  have complete : ∀ key ∈ table.keys, (tick, key.2) ∈ table.keys :=
    fun key member => (keys (tick, key.2)).mpr (Or.inl ⟨rfl, pairs key member⟩)
  have mirrorTotal := snapshots_total exact_ rounds.1 first last_ beside copied
  have totals : ∀ teamId score, after.scoring.scores.get? teamId = some score →
      score.total = pointsTotal after tick teamId ∧ score.total = totalAtTick after tick teamId := by
    intro teamId score found
    have same : pointsTotal after tick teamId = pointsTotal scored tick teamId ∧
        totalAtTick after tick teamId = totalAtTick mirrored tick teamId := by
      rw [refreshed, framed]
      exact ⟨rfl, rfl⟩
    rw [same.1, same.2, mirrorTotal teamId, and_self]
    rw [refreshed, framed, refreshScoresSummary] at found
    rw [Dict.get_map_entries] at found
    obtain ⟨old, present, written⟩ := Option.map_eq_some_iff.mp found
    have team := kept.scored teamId (Dict.mem_keys_of_get present)
    rw [if_pos ((Dict.contains_iff _ _).mpr team)] at written
    rw [← written]
    exact summary_total exact_ scored above complete _
  refine ⟨totals, ?_, fun includeNop => same_ranking
    (fun teamId score found => (totals teamId score found).2) includeNop⟩
  intro current reached
  have ticks : ∀ other, other ∈ snapshotTicks after ↔
      ∃ key ∈ mirrored.scoring.scoreSnapshots.keys, tickOf scored key.1 = some other := by
    intro other
    rw [refreshed, framed, snapshotTicks, List.mem_filterMap]
    constructor
    · rintro ⟨entry, member, ticked⟩
      exact ⟨entry.1, List.mem_map.mpr ⟨entry, member, rfl⟩, ticked⟩
    · rintro ⟨key, member, ticked⟩
      obtain ⟨entry, inside, rfl⟩ := List.mem_map.mp member
      exact ⟨entry, inside, ticked⟩
  rw [latestScoredTick, List.max?_eq_some_iff]
  constructor
  · obtain ⟨team, teamMember⟩ := List.exists_mem_of_ne_nil _ teams
    obtain ⟨service, serviceMember⟩ := List.exists_mem_of_ne_nil _ services
    have row : (tick, team.1, service.1) ∈ table.keys := (keys _).mpr (Or.inl ⟨rfl,
      List.mem_map.mpr ⟨team, teamMember, rfl⟩, List.mem_map.mpr ⟨service, serviceMember, rfl⟩⟩)
    have shown : tick ∈ snapshotTicks after := (ticks tick).mpr
      ⟨_, (copies _).mpr (Or.inl ⟨rfl, row⟩), (tick_of_numbered rounds.1 first last_ tick).mpr rfl⟩
    exact List.mem_filter.mpr ⟨shown, decide_eq_true reached⟩
  · intro other member
    obtain ⟨key, inside, ticked⟩ := (ticks other).mp (List.mem_filter.mp member).1
    obtain ⟨round, found, same⟩ := Option.bind_eq_some_iff.mp ticked
    have named := Option.some.inj ((rounds.1.own key.1 round found).symm.trans same)
    rcases (copies key).mp inside with ⟨here, _⟩ | old
    · omega
    · have bound := above key (beside key old)
      omega

theorem kept_score_tick (numbered : Numbered db) (first : 1 ≤ tick) (last : tick ≤ db.maxTick)
    (kept : Kept db) (done : scoreTick env db tick retention = .ok after) : Kept after := by
  by_cases nobody : db.services.entries = [] ∨ db.teams.entries = []
  · rcases score_tick_cases done with ⟨same, _⟩ | ⟨_, services, teams, _⟩
    · rw [same]
      exact kept
    · exact absurd nobody (not_or.mpr ⟨services, teams⟩)
  rw [not_or] at nobody
  have keys := score_tick_keys first done
  obtain ⟨flags, table, mirrored, stored, copied, refreshed⟩ :=
    score_tick_parts first nobody.1 nobody.2 done
  obtain ⟨snapshots, framed⟩ := snapshot_frame copied
  let scored : Db := { db with scoring := { db.scoring with teamTickPoints := table } }
  have rounds : Numbered scored ∧ scored.maxTick = db.maxTick := numbered_same numbered scored rfl
  have rows : after.scoring.teamTickPoints = table := by rw [refreshed, framed]; rfl
  have shots : after.scoring.scoreSnapshots = mirrored.scoring.scoreSnapshots := by rw [refreshed]; rfl
  have beside : Mirrored scored := by
    intro key member
    have added := (keys key).mpr (Or.inr (kept.mirrored key member))
    rw [rows] at added
    exact added
  refine ⟨?_, ?_, ?_⟩
  · have known : after.teams = db.teams ∧ after.services = db.services := by
      rw [refreshed, framed]
      exact ⟨rfl, rfl⟩
    intro key member
    rw [known.1, known.2]
    rcases (keys key).mp member with ⟨_, team, service⟩ | old
    · exact ⟨(Dict.contains_iff _ _).mpr team, (Dict.contains_iff _ _).mpr service⟩
    · exact kept.points key old
  · intro key member
    rw [shots] at member
    rw [rows]
    rcases (snapshot_keys rounds.1 first (rounds.2 ▸ last) beside copied key).mp member with ⟨_, row⟩ | old
    · exact row
    · exact beside key old
  · intro teamId member
    rw [refreshed, framed] at member ⊢
    have old : teamId ∈ db.scoring.scores.keys := by
      simpa only [refreshScoresSummary, Dict.keys_map_entries] using member
    exact kept.scored teamId old

end Scoring

/-! The runs. -/

theorem kept_same {db after : Db} (kept : Kept db) (teams : after.teams = db.teams)
    (services : after.services = db.services) (scoring : after.scoring = db.scoring) : Kept after := by
  refine ⟨?_, ?_, ?_⟩
  · intro key member
    rw [teams, services]
    exact kept.points key (scoring ▸ member)
  · intro key member
    rw [scoring] at member ⊢
    exact kept.mirrored key member
  · intro teamId member
    rw [teams]
    exact kept.scored teamId (scoring ▸ member)

theorem kept_boundary {env : Settings} {db : Db} {startedAt roundId startsAt endsAt : Int}
    {boundary : Boundary} (kept : Kept db) (numbered : Numbered db) (first : 1 ≤ roundId)
    (last : roundId ≤ db.maxTick + 1)
    (done : runTickBoundary env db startedAt roundId startsAt endsAt = .ok boundary) :
    Kept boundary.db := by
  obtain ⟨ticked, rounds, reached, opened⟩ := boundary_rounds numbered first last done
  obtain ⟨_, _, closed⟩ := run_tick_boundary_cases done
  obtain ⟨table, same⟩ := ensure_flag_round_frame env db roundId startsAt endsAt
  rcases closed with ⟨_, unchanged⟩ | ⟨later, closing⟩
  · rw [unchanged, same]
    exact kept_same kept rfl rfl rfl
  · obtain ⟨scoring, framed⟩ := close_previous_frame closing
    rw [ticked] at closing later
    rw [closePrevious] at closing
    -- The rounds after the boundary are those of the database that is scored.
    have numbered_ :
        Numbered (finalizeTick (ensureFlagRound env db roundId startsAt endsAt).1 (roundId - 1) startedAt) ∧
        (finalizeTick (ensureFlagRound env db roundId startsAt endsAt).1 (roundId - 1) startedAt).maxTick =
          boundary.db.maxTick := numbered_same rounds _ (by rw [framed]; rfl)
    have kept_ :
        Kept (finalizeTick (ensureFlagRound env db roundId startsAt endsAt).1 (roundId - 1) startedAt) :=
      kept_same kept (by rw [same]; rfl) (by rw [same]; rfl) (by rw [same]; rfl)
    split at closing
    · exact kept_score_tick numbered_.1 (by omega) (by omega) kept_ closing
    · rw [← Except.ok.inj closing]
      exact kept_

theorem kept_rotates {env : Settings} {state : State} {event : RotatorEvent} {db : Db} {loop : Loop}
    (kept : Kept state.db) (paced : Paced state)
    (rotates : Rotates env state.clock state.db event state.loop db loop) : Kept db := by
  have working := paced.working
  generalize state.loop = before at rotates working
  cases rotates with
  | bounded kind access round startedAt boundary done =>
      obtain ⟨holding, onTick, start, stop, _, _, same⟩ := working
      have named : round.roundId = access.row.currentTick := by rw [same]; rfl
      exact kept_boundary kept paced.numbered (named ▸ onTick.opened) (named ▸ holding.reach) done
  | failed | polled | bootstraps | skips | drained | ends => exact kept
  | queued | enqueued | notEnqueued | commits | closes => exact kept_same kept rfl rfl rfl

theorem kept_drop {db : Db} (teamId : Int) (kept : Kept db) : Kept (AdminTeams.dropTeam db teamId) := by
  refine ⟨drop_team_refs teamId kept.points, ?_, ?_⟩
  · intro key member
    obtain ⟨old, apart⟩ :=
      (Dict.mem_keys_filter (fun key : Int × Int × Int => decide (key.2.1 ≠ teamId)) _ key).mp member
    exact (Dict.mem_keys_filter (fun key : Int × Int × Int => decide (key.2.1 ≠ teamId)) _ key).mpr
      ⟨kept.mirrored key old, apart⟩
  · intro other member
    obtain ⟨old, apart⟩ := (Dict.mem_keys_filter (fun key : Int => decide (key ≠ teamId)) _ other).mp member
    exact (Dict.mem_keys_filter (fun key : Int => decide (key ≠ teamId)) _ other).mpr
      ⟨kept.scored other old, apart⟩

/-- Where the recorded tables stay and the teams only grow, the scores may only grow with them. -/
theorem kept_grow {db after : Db} (kept : Kept db) (records : SameRecords db after)
    (scored : ScoresKnown after) : Kept after := by
  refine ⟨refs_grow records kept.points, ?_, scored⟩
  intro key member
  rw [records.scoreSnapshots] at member
  rw [records.teamTickPoints]
  exact kept.mirrored key member

theorem scored_add {db : Db} {teamId : Int} (scored : ScoresKnown db) (present : teamId ∈ db.teams.keys) :
    ScoresKnown (InitDb.addScore db teamId) := by
  unfold InitDb.addScore
  split
  · exact scored
  · intro other member
    rcases (Dict.mem_keys_set _ _ _ _).mp member with here | old
    · exact here ▸ present
    · exact scored other old

theorem scored_upsert {env : Settings} {deployment : InitDb.Deployment} {db after : Db}
    {name : String} (scored : ScoresKnown db)
    (done : InitDb.upsertTeam env deployment db name = .ok after) : ScoresKnown after := by
  unfold InitDb.upsertTeam at done
  dsimp only at done
  split at done
  · cases done
  · cases done
    refine scored_add ?_ ((Dict.mem_keys_set _ _ _ _).mpr (Or.inl rfl))
    exact fun teamId member => (Dict.mem_keys_set _ _ _ _).mpr (Or.inr (scored teamId member))

theorem scored_pair (deployment : InitDb.Deployment) (db : Db) (team : Int × Team) (service : String × Nat)
    (scored : ScoresKnown db) : ScoresKnown (InitDb.upsertTeamService deployment db team service) := by
  unfold InitDb.upsertTeamService
  split
  · exact scored
  · exact scored

theorem scored_bootstrap {env : Settings} {deployment : InitDb.Deployment} {db after : Db}
    (scored : ScoresKnown db) (done : InitDb.bootstrapDatabase env deployment db = .ok after) :
    ScoresKnown after := by
  obtain ⟨named, upserted, rest⟩ := bind_ok_iff.mp done
  have teams : ScoresKnown named := foldlM_keeps ScoresKnown
    (fun _ _ _ _ before stored => scored_upsert before stored) scored upserted
  have served : ScoresKnown (deployment.services.foldl (InitDb.upsertService deployment) named) := by
    refine foldl_keeps ScoresKnown ?_ teams
    exact fun _ _ _ before => before
  have paired :
      ScoresKnown ((deployment.services.foldl (InitDb.upsertService deployment) named).teams.entries.foldl
      (fun db team => deployment.services.zipIdx.foldl
        (fun db service => InitDb.upsertTeamService deployment db team service) db)
      (deployment.services.foldl (InitDb.upsertService deployment) named)) :=
    foldl_keeps ScoresKnown
      (fun db team _ before => foldl_keeps ScoresKnown
        (fun db service _ => scored_pair deployment db team service) before) served
  rw [← Except.ok.inj rest]
  intro teamId member
  rw [InitDb.bootScores] at member
  dsimp only at member
  rw [Dict.keys_map_entries] at member
  exact paired teamId member

theorem kept_step {env : Settings} {deployment : InitDb.Deployment} {before after : State} {event : Event}
    (kept : Kept before.db) (paced : Paced before) (taken : step env deployment before event = some after) :
    Kept after.db := by
  by_cases met : playing event = true
  · cases play_cases met taken with
    | clock now => exact kept
    | rotator event db loop rotates => exact kept_rotates kept paced rotates
    | submit event rows sessions submits => exact kept_same kept rfl rfl rfl
    | worker event checker tasks worked => exact kept_same kept rfl rfl rfl
    | command event row idle commands => exact kept_same kept rfl rfl rfl
  cases event with
  | clock now => exact absurd rfl met
  | rotator event => exact absurd rfl met
  | submit event => exact absurd rfl met
  | worker event => exact absurd rfl met
  | publicSync => exact absurd rfl met
  | admin event =>
      obtain ⟨db, moved, same⟩ := Option.map_eq_some_iff.mp taken
      subst same
      cases event with
      | setDesired desired => exact absurd rfl met
      | schedule startAt stopAfterTick scoreboardFreezeTick => exact absurd rfl met
      | createTeam body =>
          cases moved
          have records := create_team_records env before.db body
          refine kept_grow kept records fun teamId member => records.teams teamId (kept.scored teamId ?_)
          unfold AdminTeams.apiTeamCreate at member
          split at member
          · exact member
          dsimp only at member
          split at member
          · exact member
          · split at member <;> exact member
      | updateTeam teamId body =>
          cases moved
          have records := update_team_records before.db teamId body
          refine kept_grow kept records fun other member => records.teams other (kept.scored other ?_)
          unfold AdminTeams.apiTeamUpdate at member
          split at member
          · exact member
          split at member
          · exact member
          split at member
          · exact member
          split at member
          · exact member
          · dsimp only at member
            split at member <;> exact member
      | deleteTeam teamId =>
          simp only [adminStep] at moved
          split at moved
          · cases moved
          · cases moved
            unfold AdminTeams.apiTeamDelete
            split
            · exact kept
            · exact kept_drop teamId kept
  | bootstrap =>
      simp only [step] at taken
      split at taken
      · next db done =>
        cases taken
        exact kept_grow kept (bootstrap_records done) (scored_bootstrap kept.scored done)
      · cases taken

theorem run_kept {env : Settings} {deployment : InitDb.Deployment} {clock : Int} {state : State}
    (run : Steps (step env deployment) (fun _ _ => True) (initial clock) state) :
    Paced state ∧ Kept state.db := by
  refine steps_invariant (fun state => Paced state ∧ Kept state.db) ?_ ?_ run
  · intro before event after kept _ taken
    exact ⟨paced_event kept.1 taken, kept_step kept.2 kept.1 taken⟩
  · refine ⟨paced_start ⟨rfl, rfl, fun row none_ => (by cases none_)⟩, ?_⟩
    exact ⟨fun _ member => (by cases member), fun _ member => (by cases member),
      fun _ member => (by cases member)⟩

theorem scored_tick_some {env : Settings} {state : State} {event : Event} {tick : Int}
    (scored : scoredTick env state event = some tick) :
    ∃ kind access round startedAt boundary, event = .rotator .next ∧
      state.loop = .boundary kind access round startedAt ∧
      runTickBoundary env state.db startedAt round.roundId round.startsAt round.endsAt = .ok boundary ∧
      (ensureFlagRound env state.db round.roundId round.startsAt round.endsAt).2 - 1 = tick ∧
      checkerTickReady
      (finalizeTick (ensureFlagRound env state.db round.roundId round.startsAt round.endsAt).1
        tick startedAt).checker tick = true ∧
      state.db.services.entries ≠ [] ∧ state.db.teams.entries ≠ [] ∧ 1 ≤ tick := by
  unfold scoredTick at scored
  split at scored
  next =>
    split at scored
    next kind access round startedAt looped =>
      dsimp only at scored
      split at scored
      · cases scored
      next boundary done =>
      split at scored
      · next conditions =>
        obtain ⟨later, ready, services, teams⟩ := conditions
        have ticked := Option.some.inj scored
        rw [ticked] at ready
        exact ⟨kind, access, round, startedAt, boundary, rfl, looped, done, ticked, ready, services,
          teams, by omega⟩
      · cases scored
    next => cases scored
  next => cases scored

/-- In every run, the totals after a scoring of the newest tick are that tick's. -/
theorem summary_is_scored_tick (env : Settings) (deployment : InitDb.Deployment) (clock : Int)
    (before after : State) (event : Event) (tick : Int)
    (exact_ : ∀ value, env.numeric value = value)
    (run : Steps (step env deployment) (fun _ _ => True) (initial clock) before)
    (taken : step env deployment before event = some after)
    (scored : scoredTick env before event = some tick) (newest : noLaterRows before.db tick) :
    SummaryIsTick after.db tick := by
  obtain ⟨paced, kept⟩ := run_kept run
  obtain ⟨kind, access, round, startedAt, boundary, rfl, looped, done, ticked, ready, services,
    teams, first⟩ :=
    scored_tick_some scored
  have working := paced.working
  rw [looped] at working
  obtain ⟨holding, onTick, start, stop, _, _, window⟩ := working
  have named : round.roundId = access.row.currentTick := by rw [window]; rfl
  obtain ⟨numberedAs, rounds, reached, _⟩ := boundary_rounds paced.numbered (named ▸ onTick.opened)
    (named ▸ holding.reach) done
  obtain ⟨opened, _, closed⟩ := run_tick_boundary_cases done
  have here : boundary.tick - 1 = tick := opened ▸ ticked
  rcases closed with ⟨early, _⟩ | ⟨_, closing⟩
  · omega
  obtain ⟨table, same⟩ := ensure_flag_round_frame env before.db round.roundId round.startsAt round.endsAt
  obtain ⟨scoring, framed⟩ := close_previous_frame closing
  rw [here] at closing framed
  rw [closePrevious, if_pos ready] at closing
  rw [same] at closing framed
  -- What is scored has the rounds of the boundary and the rest of the database before it.
  have numbered := numbered_same rounds (finalizeTick { before.db with flagRounds := table } tick startedAt)
    (by rw [framed])
  have summary := score_tick_summary exact_ numbered.1 first (by omega)
    (kept_same kept rfl rfl rfl) newest services teams closing
  have stepped : after.db = boundary.db := by
    simp only [step, looped, rotatorStep, done, Option.map_some, Option.some.injEq] at taken
    rw [← taken]
  rw [stepped]
  exact summary

def checkedTeam (teamId : Int) : List Event :=
  [.worker (.start 0 (1, teamId, 1) none), .worker (.checks 0 ⟨.success, none, none, Dict.empty⟩),
    .worker (.success 0)]

/-- Tick 1 has passed with one good check, and the boundary of tick 2 is due. -/
def tickOnePlayed : List Event :=
  firstTick ++ checkedTeam 1 ++ [.clock 1120000000] ++ endIteration ++ rotate 2

/-- Two ticks are played, then the game is stopped and started, and tick 1 is played again. -/
def tickOneReplayed : List Event :=
  tickOnePlayed ++ rotate 2 ++ List.replicate 3 (.rotator (.enqueued "task")) ++ rotate 2 ++
    submission 1 1 betaFlag ++ [.clock 1240000000] ++ endIteration ++ bootstrapIteration 3 ++
    [.admin (.setDesired .stopped), .admin (.setDesired .running), .publicSync, .clock 1360000000] ++
    endIteration ++ [.clock 1480000000] ++ rotate 3

def reached (events : List Event) : State :=
  (exec (step sampleSettings sampleDeployment) (fun _ _ => True) (initial 1000000000) events).getD
    (initial 0)

def scoredNext (state : State) : State :=
  (step sampleSettings sampleDeployment state (.rotator .next)).getD (initial 0)

theorem first_tick_summed : SummaryIsTick (scoredNext (reached tickOnePlayed)).db 1 :=
  summary_is_scored_tick sampleSettings sampleDeployment 1000000000 (reached tickOnePlayed)
    (scoredNext (reached tickOnePlayed)) (.rotator .next) 1 (fun _ => rfl)
    (exec_steps tickOnePlayed _ _ (by decide +kernel)) (by decide +kernel) (by decide +kernel)
    (by decide +kernel)

/-- The replayed tick 1 is worth 5 points to team 1, and its summary keeps the 7.5 of the old tick 2. -/
theorem replay_keeps_old_total :
    ∃ state after score, exec (step sampleSettings sampleDeployment) (fun _ _ => True) (initial 1000000000)
        tickOneReplayed = some state ∧
      scoredTick sampleSettings state (.rotator .next) = some 1 ∧
      step sampleSettings sampleDeployment state (.rotator .next) = some after ∧
      after.db.scoring.scores.get? 1 = some score ∧ score.total = 15 / 2 ∧ pointsTotal after.db 1 1 = 5 ∧
      totalAtTick after.db 1 1 = 5 ∧ latestScoredTick after.db (some 2) = some 2 := by
  refine ⟨reached tickOneReplayed, scoredNext (reached tickOneReplayed),
    ((scoredNext (reached tickOneReplayed)).db.scoring.scores.get? 1).getD {}, ?_⟩
  decide +kernel

end KosSim.ScoreSummaries
