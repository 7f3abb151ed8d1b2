import Mathlib.Algebra.BigOperators.Group.Finset.Basic
import KosSim.TeamApi
import KosSim.Library.Ordering

/-!
The pages of a team's history. Where each service of the team has a row in every tick from its first
to the newest, the row that the loop met last is the row of the tick before, and the page always holds
that tick; so the entry of a tick is a function of the rows alone. Every page holds the entries of the
ticks that it reaches, and the differences of the entries add up.
-/

namespace KosSim.HistoryPages
open Library Schema Rotator TeamApi

abbrev PointsTable := Dict (Int × Int × Int) TeamTickPoints

/-- The cumulative row of the tick before. -/
def before (table : PointsTable) (row : PointsRow) : Cumulative :=
  ((table.get? (row.1.1 - 1, row.1.2)).map fun points => cumulative ((row.1.1 - 1, row.1.2),
    points)).getD Cumulative.zero

/-- The rows of a service reach from its first tick to the newest tick of the team. -/
def Covered (table : PointsTable) (teamId : Int) : Prop :=
  ∀ one ∈ table.keys, ∀ other ∈ table.keys, one.2.1 = teamId → other.2.1 = teamId →
    ∀ tick, one.1 ≤ tick → tick ≤ other.1 → (tick, one.2) ∈ table.keys

/-! The loop. -/

/-- prev_per_service is the row of the service that was read last. -/
def lastOf (serviceId : Int) (rows : List PointsRow) : Option PointsRow :=
  (rows.filter fun row => decide (row.1.2.2 = serviceId)).getLast?

theorem read_rows_snoc (points : Rat → Rat) (rows : List PointsRow) (row : PointsRow) :
    readRows points (rows ++ [row]) = readRow points (readRows points rows) row := by
  simp only [readRows, List.foldl_append, List.foldl_cons, List.foldl_nil]

theorem read_rows_prev (points : Rat → Rat) (rows : List PointsRow) (serviceId : Int) :
    (readRows points rows).prevPerService.get? serviceId = (lastOf serviceId rows).map cumulative := by
  induction rows using List.reverseRecOn with
  | nil => rfl
  | append_singleton rows row ih =>
      rw [read_rows_snoc, readRow, Dict.get_set, lastOf, List.filter_append, List.filter_cons,
        List.filter_nil]
      by_cases here : row.1.2.2 = serviceId
      · rw [if_pos here, if_pos (decide_eq_true here), List.getLast?_concat]
        rfl
      · rw [if_neg here, if_neg (by simpa using here), List.append_nil]
        exact ih

/-- ticks_seen lists the keys of by_tick. -/
theorem read_rows_seen (points : Rat → Rat) (rows : List PointsRow) :
    (readRows points rows).ticksSeen = (readRows points rows).byTick.keys := by
  induction rows using List.reverseRecOn with
  | nil => rfl
  | append_singleton rows row ih =>
      rw [read_rows_snoc]
      show (if _ then _ else _) = (setEntry _ _ _).map Prod.fst
      rw [set_entry_keys, ih]
      exact if_congr (Dict.contains_iff _ _) rfl rfl

theorem mem_ticks_seen (points : Rat → Rat) (rows : List PointsRow) (tick : Int) :
    tick ∈ (readRows points rows).ticksSeen ↔ ∃ row ∈ rows, row.1.1 = tick := by
  rw [read_rows_seen]
  induction rows using List.reverseRecOn with
  | nil => exact iff_of_false List.not_mem_nil fun ⟨_, never, _⟩ => List.not_mem_nil never
  | append_singleton rows row ih =>
      rw [read_rows_snoc, readRow, Dict.mem_keys_set, ih]
      constructor
      · rintro (here | ⟨other, member, same⟩)
        · exact ⟨row, List.mem_append_right _ List.mem_cons_self, here.symm⟩
        · exact ⟨other, List.mem_append_left _ member, same⟩
      · rintro ⟨other, member, same⟩
        rcases List.mem_append.mp member with old | last
        · exact .inr ⟨other, old, same⟩
        · exact .inl (List.mem_singleton.mp last ▸ same).symm

/-- The blocks of one tick, where the last row before each of its rows is known. -/
theorem read_rows_tick (points : Rat → Rat) (tick : Int) (prevOf : PointsRow → Cumulative)
    (rows : List PointsRow)
    (follows : ∀ first row rest, rows = first ++ row :: rest → row.1.1 = tick →
      ((lastOf row.1.2.2 first).map cumulative).getD Cumulative.zero = prevOf row) :
    ((readRows points rows).byTick.get? tick).getD Dict.empty =
      Dict.ofList ((rows.filter fun row => decide (row.1.1 = tick)).map fun row =>
        (row.1.2.2, serviceBlock points (prevOf row) row)) := by
  induction rows using List.reverseRecOn with
  | nil => rfl
  | append_singleton rows row ih =>
      have rest := ih fun first other later split => follows first other (later ++ [row]) (by
        rw [split]
        simp only [List.append_assoc, List.cons_append])
      rw [read_rows_snoc, readRow, Dict.get_set, List.filter_append, List.filter_cons, List.filter_nil]
      by_cases here : row.1.1 = tick
      · rw [if_pos here, if_pos (decide_eq_true here), List.map_append, Option.getD_some, here, rest,
          read_rows_prev, follows rows row [] rfl here]
        simp only [Dict.ofList, Dict.setAll, List.foldl_append, List.map_cons, List.map_nil,
          List.foldl_cons, List.foldl_nil]
      · rw [if_neg here, if_neg (by simpa using here), List.append_nil]
        exact rest

/-! The page. -/

instance : IsTrans PointsRow rowOrder where
  trans := by
    rintro ⟨⟨_, _, _⟩, _⟩ ⟨⟨_, _, _⟩, _⟩ ⟨⟨_, _, _⟩, _⟩ first second
    simp only [rowOrder] at *
    omega

instance : Std.Total rowOrder where
  total := by
    rintro ⟨⟨_, _, _⟩, _⟩ ⟨⟨_, _, _⟩, _⟩
    simp only [rowOrder]
    omega

variable {db : Db} {teamId : Int} {limit : Nat} {freezeTick : Option Int}

theorem mem_team_rows (row : PointsRow) : row ∈ teamRows db teamId freezeTick ↔
    row ∈ db.scoring.teamTickPoints.entries ∧ row.1.2.1 = teamId ∧ ∀ freeze, freezeTick = some freeze →
    row.1.1 ≤ freeze := by
  rw [teamRows, List.mem_filter, Bool.and_eq_true, decide_eq_true_eq]
  cases freezeTick with
  | none => simp
  | some freeze => simp

theorem mem_history_rows (row : PointsRow) : row ∈ historyRows db teamId limit freezeTick ↔
    row ∈ teamRows db teamId freezeTick ∧
    windowBound (recentTicks (teamRows db teamId freezeTick) limit) ≤ row.1.1 := by
  rw [historyRows, List.mem_insertionSort, List.mem_filter, decide_eq_true_eq]

/-- The newest of the ticks read are the recent ones: the tick more comes after them. -/
theorem shown_recent (rows : List PointsRow) (seen : List Int) (distinct : seen.Nodup)
    (exact : ∀ tick, tick ∈ seen ↔ ∃ row ∈ rows, windowBound (recentTicks rows limit) ≤ row.1.1 ∧
      row.1.1 = tick) {tick : Int} (shown : tick ∈ (seen.insertionSort (· ≥ ·)).take limit) :
    tick ∈ recentTicks rows limit := by
  generalize isBound : windowBound (recentTicks rows limit) = bound at exact
  -- The ticks read are those of the rows from the bound on, in whatever order.
  have same : seen.Perm ((rows.map (·.1.1)).dedup.filter fun tick => decide (bound ≤ tick)) := by
    rw [List.perm_ext_iff_of_nodup distinct ((List.nodup_dedup _).filter _)]
    intro tick
    rw [exact, List.mem_filter, List.mem_dedup, List.mem_map, decide_eq_true_eq]
    constructor
    · rintro ⟨row, member, high, rfl⟩
      exact ⟨⟨row, member, rfl⟩, high⟩
    · rintro ⟨⟨row, member, rfl⟩, high⟩
      exact ⟨row, member, high, rfl⟩
  have sorted : seen.insertionSort (· ≥ ·) =
      ((rows.map (·.1.1)).dedup.insertionSort (· ≥ ·)).filter fun tick => decide (bound ≤ tick) := by
    rw [filter_insertion_sort]
    refine List.Perm.eq_of_pairwise' (List.pairwise_insertionSort _ _) (List.pairwise_insertionSort _ _) ?_
    exact (List.perm_insertionSort _ _).trans (same.trans (List.perm_insertionSort _ _).symm)
  rw [sorted] at shown
  have kept : (recentTicks rows limit).filter (fun tick => decide (bound ≤ tick)) =
      recentTicks rows limit := by
    rw [List.filter_eq_self]
    intro recent member
    obtain ⟨least, isLeast⟩ := Option.isSome_iff_exists.mp (List.isSome_min?_of_mem member)
    have low := (List.min?_eq_some_iff.mp isLeast).2 recent member
    rw [decide_eq_true_eq, ← isBound, windowBound, isLeast, Option.map_some, Option.getD_some]
    omega
  unfold recentTicks at kept ⊢
  generalize (rows.map (·.1.1)).dedup.insertionSort (· ≥ ·) = ticks at shown kept ⊢
  rw [← List.take_append_drop limit ticks, List.filter_append, kept] at shown
  -- Nothing behind the first `limit` ticks is shown, or there is nothing behind them.
  by_cases long : limit ≤ ticks.length
  · rwa [List.take_append_of_le_length (by rw [List.length_take]; omega), List.take_take, min_self] at shown
  · rw [List.drop_eq_nil_of_le (by omega), List.filter_nil, List.append_nil] at shown
    exact List.mem_of_mem_take shown

theorem entry_unique {table : PointsTable} {one other : PointsRow} (first : one ∈ table.entries)
    (second : other ∈ table.entries) (same : one.1 = other.1) : one = other := by
  have value : table.get? one.1 = some one.2 := (Dict.mem_entries_iff table _ _).mp first
  rw [same, (Dict.mem_entries_iff table _ _).mp second] at value
  exact Prod.ext same (Option.some.inj value).symm

theorem history_rows_nodup : (historyRows db teamId limit freezeTick).Nodup := by
  have distinct : db.scoring.teamTickPoints.entries.Nodup :=
    List.Nodup.of_map _ db.scoring.teamTickPoints.distinct
  exact (List.perm_insertionSort _ _).nodup_iff.mpr ((distinct.filter _).filter _)

/-- The row of the service that was read last is the row of the tick before. -/
theorem row_follows (covered : Covered db.scoring.teamTickPoints teamId)
    {first rest : List PointsRow} {row : PointsRow}
    (split : historyRows db teamId limit freezeTick = first ++ row :: rest)
    (above : windowBound (recentTicks (teamRows db teamId freezeTick) limit) ≤ row.1.1 - 1) :
    ((lastOf row.1.2.2 first).map cumulative).getD Cumulative.zero =
      before db.scoring.teamTickPoints row := by
  have order : (first ++ row :: rest).Pairwise rowOrder := split ▸ List.pairwise_insertionSort rowOrder _
  have distinct : (first ++ row :: rest).Nodup := split ▸ history_rows_nodup
  obtain ⟨orderFirst, orderRest, across⟩ := List.pairwise_append.mp order
  have known (other : PointsRow) (member : other ∈ first ++ row :: rest) :=
    (mem_history_rows other).mp (split ▸ member)
  have here := known row (List.mem_append_right _ List.mem_cons_self)
  obtain ⟨rowEntry, rowTeam, rowFreeze⟩ := (mem_team_rows row).mp here.1
  -- The rows of the service among those read so far are of earlier ticks.
  have earlier (other : PointsRow) (member : other ∈ first) (service : other.1.2.2 = row.1.2.2) :
      other ∈ db.scoring.teamTickPoints.entries ∧ other.1.2 = row.1.2 ∧ other.1.1 < row.1.1 := by
    obtain ⟨entry, team, _⟩ := (mem_team_rows other).mp (known other (List.mem_append_left _ member)).1
    have pair : other.1.2 = row.1.2 := Prod.ext (team.trans rowTeam.symm) service
    refine ⟨entry, pair, ?_⟩
    rcases across other member row List.mem_cons_self with older | ⟨tick, _⟩
    · exact older
    · have equal : other = row := entry_unique entry rowEntry (Prod.ext tick pair)
      exact absurd equal ((List.nodup_append.mp distinct).2.2 other member row List.mem_cons_self)
  have ofService (other : PointsRow) : other ∈ first.filter (fun row_ => decide (row_.1.2.2 = row.1.2.2)) ↔
      other ∈ first ∧ other.1.2.2 = row.1.2.2 := by
    rw [List.mem_filter, decide_eq_true_eq]
  unfold before
  cases found : db.scoring.teamTickPoints.get? (row.1.1 - 1, row.1.2) with
  | none =>
      cases last : lastOf row.1.2.2 first with
      | none => rfl
      | some other =>
          obtain ⟨member, service⟩ := (ofService other).mp (List.mem_of_getLast? last)
          obtain ⟨entry, pair, older⟩ := earlier other member service
          have present := covered other.1 (List.mem_map_of_mem entry) row.1 (List.mem_map_of_mem rowEntry)
            (by rw [pair]; exact rowTeam) rowTeam (row.1.1 - 1) (by omega) (by omega)
          rw [pair, Dict.mem_keys_iff] at present
          exact absurd found present
  | some points =>
      let previous : PointsRow := ((row.1.1 - 1, row.1.2), points)
      have entry : previous ∈ db.scoring.teamTickPoints.entries := (Dict.mem_entries_iff _ _ _).mpr found
      have onPage : previous ∈ first ++ row :: rest := by
        rw [← split, mem_history_rows, mem_team_rows]
        refine ⟨⟨entry, rowTeam, fun freeze isFreeze => ?_⟩, above⟩
        have low := rowFreeze freeze isFreeze
        show row.1.1 - 1 ≤ freeze
        omega
      have read : previous ∈ first := by
        rcases List.mem_append.mp onPage with inFirst | later
        · exact inFirst
        · have after : rowOrder row previous ∨ previous = row := by
            rcases List.mem_cons.mp later with same | inRest
            · exact .inr same
            · exact .inl ((List.pairwise_cons.mp orderRest).1 previous inRest)
          have tick : previous.1.1 = row.1.1 - 1 := rfl
          rcases after with (older | ⟨same, _⟩) | same
          · omega
          · omega
          · rw [same] at tick
            omega
      have mine := (ofService previous).mpr ⟨read, rfl⟩
      obtain ⟨last, isLast⟩ :=
        Option.isSome_iff_exists.mp (List.getLast?_isSome.mpr (List.ne_nil_of_mem mine))
      obtain ⟨member, service⟩ := (ofService last).mp (List.mem_of_getLast? isLast)
      obtain ⟨lastEntry, pair, older⟩ := earlier last member service
      have same : last = previous := by
        rcases before_last (orderFirst.filter _) isLast mine with same | after
        · exact same.symm
        · refine entry_unique lastEntry entry (Prod.ext ?_ pair)
          have tick : previous.1.1 = row.1.1 - 1 := rfl
          rcases after with before | ⟨equal, _⟩
          · show last.1.1 = previous.1.1
            omega
          · exact equal.symm
      rw [lastOf, isLast, same]
      rfl

/-- The entry of a tick, from the table alone. -/
def entryAt (points : Rat → Rat) (db : Db) (teamId tick : Int) : TickEntry :=
  let rows := ((teamRows db teamId none).filter fun row => decide (row.1.1 = tick)).insertionSort rowOrder
  let services := Dict.ofList (rows.map fun row =>
    (row.1.2.2, serviceBlock points (before db.scoring.teamTickPoints row) row))
  ⟨tick, services, totalsOf points services⟩

theorem rows_of_tick {tick : Int}
    (above : windowBound (recentTicks (teamRows db teamId freezeTick) limit) ≤ tick)
    (thawed : ∀ freeze, freezeTick = some freeze → tick ≤ freeze) :
    (historyRows db teamId limit freezeTick).filter (fun row => decide (row.1.1 = tick)) =
      ((teamRows db teamId none).filter fun row => decide (row.1.1 = tick)).insertionSort rowOrder := by
  rw [historyRows, filter_insertion_sort]
  generalize windowBound (recentTicks (teamRows db teamId freezeTick) limit) = bound at above ⊢
  rw [teamRows, teamRows, List.filter_filter, List.filter_filter, List.filter_filter]
  congr 1
  refine List.filter_congr fun row _ => ?_
  by_cases here : row.1.1 = tick
  · have low : freezeTick.all (fun freeze => decide (row.1.1 ≤ freeze)) = true := by
      rw [Option.all_eq_true_iff_get]
      intro some
      rw [decide_eq_true_eq, here]
      exact thawed _ (Option.some_get some).symm
    rw [low, here, decide_eq_true above]
    simp
  · simp [here]

/-- Every entry of a page is the entry of its tick. -/
theorem page_entry (covered : Covered db.scoring.teamTickPoints teamId) (points : Rat → Rat) {tick : Int}
    (shown : tick ∈
      ((readRows points (historyRows db teamId limit freezeTick)).ticksSeen.insertionSort
        (· ≥ ·)).take limit) :
    tickEntry points (readRows points (historyRows db teamId limit freezeTick)) tick =
      entryAt points db teamId tick := by
  have seen := (List.mem_insertionSort _).mp (List.mem_of_mem_take shown)
  obtain ⟨row, onPage, isTick⟩ := (mem_ticks_seen _ _ _).mp seen
  obtain ⟨member, above⟩ := (mem_history_rows row).mp onPage
  have recent : tick ∈ recentTicks (teamRows db teamId freezeTick) limit := by
    refine shown_recent _ _ ?_ ?_ shown
    · rw [read_rows_seen]
      exact Dict.distinct _
    · intro other
      rw [mem_ticks_seen]
      simp only [mem_history_rows, and_assoc]
  -- The tick before a recent one is on the page.
  have room : windowBound (recentTicks (teamRows db teamId freezeTick) limit) ≤ tick - 1 := by
    obtain ⟨least, isLeast⟩ := Option.isSome_iff_exists.mp (List.isSome_min?_of_mem recent)
    have low := (List.min?_eq_some_iff.mp isLeast).2 tick recent
    rw [windowBound, isLeast, Option.map_some, Option.getD_some]
    omega
  have services : ((readRows points (historyRows db teamId limit freezeTick)).byTick.get? tick).getD
      Dict.empty = (entryAt points db teamId tick).services := by
    rw [read_rows_tick points tick (before db.scoring.teamTickPoints), rows_of_tick]
    · rfl
    · omega
    · exact fun freeze isFreeze => isTick ▸ ((mem_team_rows row).mp member).2.2 freeze isFreeze
    · intro first other rest split here
      exact row_follows covered split (by omega)
  rw [tickEntry, services]
  rfl

/-! What a page reaches. -/

/-- An item is among the newest when no more than `limit` are at least as new. -/
theorem mem_take_newest {items : List Int} {tick : Int} (member : tick ∈ items)
    (few : (items.filter fun other => decide (tick ≤ other)).length ≤ limit) :
    tick ∈ (items.insertionSort (· ≥ ·)).take limit := by
  have sorted : (items.insertionSort (· ≥ ·)).Pairwise (· ≥ ·) := List.pairwise_insertionSort _ _
  have same := (List.perm_insertionSort (· ≥ ·) items).filter fun other => decide (tick ≤ other)
  rw [← same.length_eq] at few
  have listed := (List.mem_insertionSort (· ≥ ·)).mpr member
  generalize items.insertionSort (· ≥ ·) = newest at sorted few listed ⊢
  rw [← List.take_append_drop limit newest] at listed
  rcases List.mem_append.mp listed with shown | hidden
  · exact shown
  -- Everything on the page is above a tick behind it, so the tick is one too many.
  rw [← List.take_append_drop limit newest] at sorted few
  have above : (newest.take limit).filter (fun other => decide (tick ≤ other)) = newest.take limit := by
    rw [List.filter_eq_self]
    intro other onPage
    exact decide_eq_true ((List.pairwise_append.mp sorted).2.2 other onPage tick hidden)
  have own : tick ∈ (newest.drop limit).filter fun other => decide (tick ≤ other) :=
    List.mem_filter.mpr ⟨hidden, decide_eq_true le_rfl⟩
  have long : limit < newest.length := by
    by_contra short
    rw [List.drop_eq_nil_of_le (not_lt.mp short)] at hidden
    cases hidden
  have positive := List.length_pos_of_mem own
  rw [List.filter_append, List.length_append, above, List.length_take] at few
  omega

def teamTicks (table : PointsTable) (teamId : Int) : Finset Int :=
  ((table.keys.filter fun key => decide (key.2.1 = teamId)).map (·.1)).toFinset

theorem mem_team_ticks {table : PointsTable} (tick : Int) :
    tick ∈ teamTicks table teamId ↔ ∃ serviceId, (tick, teamId, serviceId) ∈ table.keys := by
  rw [teamTicks, List.mem_toFinset, List.mem_map]
  simp only [List.mem_filter, decide_eq_true_eq]
  constructor
  · rintro ⟨⟨_, _, serviceId⟩, ⟨member, rfl⟩, rfl⟩
    exact ⟨serviceId, member⟩
  · rintro ⟨serviceId, member⟩
    exact ⟨_, ⟨member, rfl⟩, rfl⟩

/-- The ticks of the team from one on, up to the freeze tick. -/
def ticksFrom (table : PointsTable) (teamId tick : Int) (freezeTick : Option Int) : Finset Int :=
  (teamTicks table teamId).filter fun other =>
    tick ≤ other ∧ freezeTick.all (fun freeze => decide (other ≤ freeze)) = true

theorem mem_ticks_from {table : PointsTable} {tick other : Int} :
    other ∈ ticksFrom table teamId tick freezeTick ↔
      (∃ serviceId, (other, teamId, serviceId) ∈ table.keys) ∧
      tick ≤ other ∧ freezeTick.all (fun freeze => decide (other ≤ freeze)) = true := by
  rw [ticksFrom, Finset.mem_filter, mem_team_ticks]

/-- The rows that the query reads have the ticks of the team. -/
theorem rows_ticks (tick other : Int) :
    other ∈ (((teamRows db teamId freezeTick).map (·.1.1)).dedup.filter fun other =>
      decide (tick ≤ other)) ↔
      other ∈ ticksFrom db.scoring.teamTickPoints teamId tick freezeTick := by
  rw [List.mem_filter, List.mem_dedup, List.mem_map, decide_eq_true_eq, mem_ticks_from]
  constructor
  · rintro ⟨⟨⟨⟨_, _, serviceId⟩, row⟩, member, rfl⟩, high⟩
    rw [teamRows, List.mem_filter, Bool.and_eq_true, decide_eq_true_eq] at member
    obtain ⟨entry, rfl, thawed⟩ := member
    exact ⟨⟨serviceId, List.mem_map_of_mem entry⟩, high, thawed⟩
  · rintro ⟨⟨serviceId, key⟩, high, thawed⟩
    obtain ⟨⟨_, row⟩, entry, rfl⟩ := List.mem_map.mp key
    refine ⟨⟨((other, teamId, serviceId), row), ?_, rfl⟩, high⟩
    rw [teamRows, List.mem_filter, Bool.and_eq_true, decide_eq_true_eq]
    exact ⟨entry, rfl, thawed⟩

/-- A page shows every tick that its limit and the freeze tick reach. -/
theorem page_reaches (points : Rat → Rat) {tick : Int}
    (known : tick ∈ ticksFrom db.scoring.teamTickPoints teamId tick freezeTick)
    (few : (ticksFrom db.scoring.teamTickPoints teamId tick freezeTick).card ≤ limit) :
    tick ∈ ((readRows points (historyRows db teamId limit freezeTick)).ticksSeen.insertionSort
      (· ≥ ·)).take limit := by
  let ticks := ((teamRows db teamId freezeTick).map (·.1.1)).dedup
  have counted : (ticks.filter fun other => decide (tick ≤ other)).length ≤ limit := by
    have distinct : (ticks.filter fun other => decide (tick ≤ other)).Nodup := (List.nodup_dedup _).filter _
    rw [← List.toFinset_card_of_nodup distinct]
    refine le_trans (Finset.card_le_card fun other member => ?_) few
    exact (rows_ticks tick other).mp (List.mem_toFinset.mp member)
  obtain ⟨listed, _⟩ := List.mem_filter.mp ((rows_ticks tick tick).mpr known)
  have recent : tick ∈ recentTicks (teamRows db teamId freezeTick) limit :=
    mem_take_newest listed counted
  have above : windowBound (recentTicks (teamRows db teamId freezeTick) limit) ≤ tick := by
    obtain ⟨least, isLeast⟩ := Option.isSome_iff_exists.mp (List.isSome_min?_of_mem recent)
    have low := (List.min?_eq_some_iff.mp isLeast).2 tick recent
    rw [windowBound, isLeast, Option.map_some, Option.getD_some]
    omega
  have distinct : (readRows points (historyRows db teamId limit freezeTick)).ticksSeen.Nodup := by
    rw [read_rows_seen]
    exact Dict.distinct _
  have shownTick (other : Int)
      (member : other ∈ (readRows points (historyRows db teamId limit freezeTick)).ticksSeen) :
      other ∈ ticks := by
    obtain ⟨row, onPage, rfl⟩ := (mem_ticks_seen _ _ _).mp member
    exact List.mem_dedup.mpr (List.mem_map_of_mem ((mem_history_rows row).mp onPage).1)
  refine mem_take_newest ?_ ?_
  · obtain ⟨row, member, rfl⟩ := List.mem_map.mp (List.mem_dedup.mp listed)
    exact (mem_ticks_seen _ _ _).mpr ⟨row, (mem_history_rows row).mpr ⟨member, above⟩, rfl⟩
  · refine le_trans (List.Subperm.length_le ?_) counted
    refine List.subperm_of_subset (distinct.filter _) fun other member => ?_
    obtain ⟨inside, high⟩ := List.mem_filter.mp member
    exact List.mem_filter.mpr ⟨shownTick other inside, high⟩

/-- An entry of some answer over this table, whatever the limit, the caller and the freeze tick. -/
def Shown (points : Rat → Rat) (table : PointsTable) (teamId : Int) (entry : TickEntry) : Prop :=
  ∃ env db isInternal limit history, db.scoring.teamTickPoints = table ∧
    teamTickHistory points env db isInternal teamId limit = some history ∧ entry ∈ history.ticks

theorem shown_entry {points : Rat → Rat} {table : PointsTable} {teamId : Int} {entry : TickEntry}
    (covered : Covered table teamId) (shown : Shown points table teamId entry) (db : Db)
    (same : db.scoring.teamTickPoints = table) :
    entry = entryAt points db teamId entry.tick := by
  obtain ⟨env, other, isInternal, limit, history, isTable, answer, member⟩ := shown
  obtain ⟨team, _, rfl⟩ := Option.map_eq_some_iff.mp answer
  obtain ⟨tick, onPage, rfl⟩ := List.mem_map.mp member
  have fromRows := page_entry (isTable ▸ covered) points onPage
  have tables : entryAt points other teamId tick = entryAt points db teamId tick := by
    unfold entryAt teamRows
    rw [isTable, same]
  exact fromRows.trans tables

/-- The tick that the caller's page ends at. -/
def freezeFor (env : Settings) (db : Db) (isInternal : Bool) : Option Int :=
  if isInternal then none else Scoreboard.effectiveFreezeTick env db

theorem answer_reaches {points : Rat → Rat} {table : PointsTable} {teamId : Int}
    (covered : Covered table teamId) {db : Db} (isTable : db.scoring.teamTickPoints = table)
    {env : Settings} {isInternal : Bool} {limit : Int} {history : TeamHistory}
    (answer : teamTickHistory points env db isInternal teamId limit = some history) {tick : Int}
    (known : tick ∈ ticksFrom table teamId tick (freezeFor env db isInternal))
    (few : (ticksFrom table teamId tick (freezeFor env db isInternal)).card ≤ clampLimit limit) :
    entryAt points db teamId tick ∈ history.ticks := by
  obtain ⟨team, _, rfl⟩ := Option.map_eq_some_iff.mp answer
  subst isTable
  have shown := page_reaches points known few
  exact List.mem_map.mpr ⟨tick, shown, page_entry covered points shown⟩

/-- The platform in this tick, frozen at it. -/
def frozenAt (table : PointsTable) (teamId tick : Int) : Db :=
  { emptyDb with
    teams := Dict.ofList [(teamId, ⟨"", "", "", false, ""⟩)]
    scoring := { emptyDb.scoring with teamTickPoints := table }
    gameState := some { currentTick := tick, scoreboardFreezeTick := some tick } }

/-- The page of a board that is frozen at a tick ends with this tick. -/
theorem tick_shown {points : Rat → Rat} {table : PointsTable} {teamId tick : Int}
    (covered : Covered table teamId) (counted : 1 ≤ tick)
    (known : ∃ serviceId, (tick, teamId, serviceId) ∈ table.keys) :
    Shown points table teamId (entryAt points (frozenAt table teamId tick) teamId tick) := by
  let env := defaultSettings fun _ => []
  have frozen : freezeFor env (frozenAt table teamId tick) false = some tick := by
    have positive : ¬tick < 1 := by omega
    show (if tick < 1 then none else if tick ≤ tick then some tick else none) = some tick
    rw [if_neg positive, if_pos le_rfl]
  obtain ⟨history, answer⟩ :
      ∃ history, teamTickHistory points env (frozenAt table teamId tick) false teamId 1 = some history := by
    refine ⟨_, Option.map_eq_some_iff.mpr ⟨⟨"", "", "", false, ""⟩, ?_, rfl⟩⟩
    exact Dict.get_set_self _ _ _
  refine ⟨env, frozenAt table teamId tick, false, 1, history, rfl, answer, ?_⟩
  have only : ticksFrom table teamId tick (some tick) = {tick} := by
    ext other
    rw [mem_ticks_from, Finset.mem_singleton, Option.all_some, decide_eq_true_eq]
    constructor
    · rintro ⟨_, high, low⟩
      omega
    · rintro rfl
      exact ⟨known, le_rfl, le_rfl⟩
  refine answer_reaches covered rfl answer ?_ ?_
  · rw [frozen, only]
    exact Finset.mem_singleton_self tick
  · rw [frozen, only, Finset.card_singleton]
    decide

/-! The sums. -/

def ticksTo (table : PointsTable) (teamId tick : Int) : Finset Int :=
  (teamTicks table teamId).filter (· ≤ tick)

/-- A value of a service in an entry, and a column of its row. -/
def blockValue {M : Type} [Zero M] (value : ServiceBlock → M) (serviceId : Int) (entry : TickEntry) : M :=
  ((entry.services.get? serviceId).map value).getD 0

def rowValue {M : Type} [Zero M] (value : TeamTickPoints → M) (table : PointsTable)
    (teamId serviceId tick : Int) : M :=
  ((table.get? (tick, teamId, serviceId)).map value).getD 0

/-- Differences to the predecessor add up over a stretch of integers before which the function is 0. -/
theorem sum_differences {M : Type} [AddCommGroup M] (f : Int → M) (ticks : Finset Int)
    (whole : ∀ one ∈ ticks, ∀ other ∈ ticks, ∀ tick, one ≤ tick → tick ≤ other → tick ∈ ticks)
    (absent : ∀ tick, tick ∉ ticks → f tick = 0) {tick : Int} (member : tick ∈ ticks) :
    ∑ earlier ∈ ticks.filter (· ≤ tick), (f earlier - f (earlier - 1)) = f tick := by
  induction size : (ticks.filter (· ≤ tick)).card using Nat.strong_induction_on generalizing tick with
  | _ count ih =>
      -- The induction is on the number of ticks up to this one; the first tick has no predecessor.
      by_cases previous : tick - 1 ∈ ticks
      · have split : ticks.filter (· ≤ tick) = insert tick (ticks.filter (· ≤ tick - 1)) := by
          ext other
          simp only [Finset.mem_filter, Finset.mem_insert]
          constructor
          · rintro ⟨inside, low⟩
            by_cases here : other = tick
            · exact .inl here
            · exact .inr ⟨inside, by omega⟩
          · rintro (rfl | ⟨inside, low⟩)
            · exact ⟨member, le_rfl⟩
            · exact ⟨inside, by omega⟩
        have fresh : tick ∉ ticks.filter (· ≤ tick - 1) := fun inside => by
          have low := (Finset.mem_filter.mp inside).2
          omega
        have smaller : (ticks.filter (· ≤ tick - 1)).card < count := by
          rw [← size, split, Finset.card_insert_of_notMem fresh]
          omega
        rw [split, Finset.sum_insert fresh, ih _ smaller previous rfl, sub_add_cancel]
      · have only : ticks.filter (· ≤ tick) = {tick} := by
          ext other
          simp only [Finset.mem_filter, Finset.mem_singleton]
          constructor
          · rintro ⟨inside, low⟩
            by_contra other_
            exact previous (whole other inside tick member (tick - 1) (by omega) (by omega))
          · rintro rfl
            exact ⟨member, le_rfl⟩
        rw [only, Finset.sum_singleton, absent _ previous, sub_zero]

section Sums
variable {table : PointsTable}

theorem team_ticks_whole (covered : Covered table teamId) {one other : Int}
    (first : one ∈ teamTicks table teamId) (last : other ∈ teamTicks table teamId) {tick : Int}
    (low : one ≤ tick) (high : tick ≤ other) :
    tick ∈ teamTicks table teamId := by
  obtain ⟨serviceId, oneKey⟩ := (mem_team_ticks one).mp first
  obtain ⟨_, otherKey⟩ := (mem_team_ticks other).mp last
  exact (mem_team_ticks tick).mpr ⟨serviceId, covered _ oneKey _ otherKey rfl rfl tick low high⟩

theorem entry_service (points : Rat → Rat) (db : Db) (teamId tick serviceId : Int) :
    (entryAt points db teamId tick).services.get? serviceId =
      (db.scoring.teamTickPoints.get? (tick, teamId, serviceId)).map fun value =>
        serviceBlock points (before db.scoring.teamTickPoints ((tick, teamId, serviceId), value))
          ((tick, teamId, serviceId), value) := by
  have member (row : PointsRow) :
      row ∈ ((teamRows db teamId none).filter fun row => decide (row.1.1 = tick)).insertionSort rowOrder ↔
        row ∈ db.scoring.teamTickPoints.entries ∧ row.1.2.1 = teamId ∧ row.1.1 = tick := by
    rw [List.mem_insertionSort, List.mem_filter, mem_team_rows, decide_eq_true_eq]
    simp only [reduceCtorEq, false_implies, implies_true, and_true, and_assoc]
  have block (value : ServiceBlock) : (serviceId, value) ∈ (((teamRows db teamId none).filter fun row =>
        decide (row.1.1 = tick)).insertionSort rowOrder).map (fun row =>
          (row.1.2.2, serviceBlock points (before db.scoring.teamTickPoints row) row)) ↔
      ∃ stored, db.scoring.teamTickPoints.get? (tick, teamId, serviceId) = some stored ∧
        value = serviceBlock points (before db.scoring.teamTickPoints ((tick, teamId, serviceId), stored))
          ((tick, teamId, serviceId), stored) := by
    rw [List.mem_map]
    constructor
    · rintro ⟨⟨⟨_, _, _⟩, stored⟩, inside, same⟩
      obtain ⟨entry, rfl, rfl⟩ := (member _).mp inside
      obtain ⟨rfl, rfl⟩ := Prod.mk.inj same
      exact ⟨stored, (Dict.mem_entries_iff _ _ _).mp entry, rfl⟩
    · rintro ⟨stored, found, rfl⟩
      exact ⟨((tick, teamId, serviceId), stored),
        (member _).mpr ⟨(Dict.mem_entries_iff _ _ _).mpr found, rfl, rfl⟩, rfl⟩
  unfold entryAt
  dsimp only
  cases found : db.scoring.teamTickPoints.get? (tick, teamId, serviceId) with
  | none =>
      rw [Option.map_none, Option.eq_none_iff_forall_ne_some]
      intro value present
      obtain ⟨stored, here, _⟩ := (block value).mp (Dict.of_list_some _ _ _ present)
      rw [found] at here
      cases here
  | some stored =>
      refine Dict.of_list_exact _ _ _ ((block _).mpr ⟨stored, found, rfl⟩) fun other inside => ?_
      obtain ⟨again, here, isOther⟩ := (block other).mp inside
      rw [found] at here
      rw [isOther, Option.some.inj here]

/-- One cumulative column: its differences in the entries add up to the column. -/
theorem deltas_add {M : Type} [AddCommGroup M] (db : Db)
    (covered : Covered db.scoring.teamTickPoints teamId) (part : Cumulative → M)
    (begins : part Cumulative.zero = 0) {value : TeamTickPoints → M}
    (isValue : ∀ row, part (cumulative row) = value row.2) {delta : ServiceBlock → M}
    (isDelta : ∀ prev row, delta (serviceBlock id prev row) = part (cumulative row) - part prev)
    {tick : Int} (member : tick ∈ teamTicks db.scoring.teamTickPoints teamId) (serviceId : Int) :
    ∑ earlier ∈ ticksTo db.scoring.teamTickPoints teamId tick,
        blockValue delta serviceId (entryAt id db teamId earlier) =
      rowValue value db.scoring.teamTickPoints teamId serviceId tick := by
  generalize isTable : db.scoring.teamTickPoints = table at covered member ⊢
  have columns (row : TeamTickPoints) (key : Int × Int × Int) :
      part (cumulative (key, row)) = value row := isValue (key, row)
  have each : ∀ earlier ∈ ticksTo table teamId tick,
      blockValue delta serviceId (entryAt id db teamId earlier) =
      rowValue value table teamId serviceId earlier - rowValue value table teamId serviceId
      (earlier - 1) := by
    intro earlier inside
    have onTable := (Finset.mem_filter.mp inside).1
    rw [blockValue, entry_service, isTable]
    show Option.getD (Option.map delta (Option.map _ (table.get? _))) 0 = _
    unfold rowValue
    cases here : table.get? (earlier, teamId, serviceId) with
    | some stored =>
        show delta (serviceBlock id (before table _) _) = value stored - _
        rw [isDelta, columns, before]
        cases table.get? (earlier - 1, teamId, serviceId) with
        | none => exact congrArg _ begins
        | some previous => exact congrArg _ (columns previous _)
    | none =>
        cases previous : table.get? (earlier - 1, teamId, serviceId) with
        | none => exact (sub_zero 0).symm
        | some stored =>
            -- A service that has a row in the tick before would have one in this tick.
            obtain ⟨other, key⟩ := (mem_team_ticks earlier).mp onTable
            have present :=
              covered _ (Dict.mem_keys_of_get previous) _ key rfl rfl earlier (by omega) le_rfl
            exact absurd here ((Dict.mem_keys_iff _ _).mp present)
  have absent : ∀ other, other ∉ teamTicks table teamId →
      rowValue value table teamId serviceId other = 0 := by
    intro other outside
    unfold rowValue
    cases found : table.get? (other, teamId, serviceId) with
    | none => rfl
    | some stored =>
        exact absurd ((mem_team_ticks other).mpr ⟨serviceId, Dict.mem_keys_of_get found⟩) outside
  rw [Finset.sum_congr rfl each]
  exact sum_differences _ _ (fun one first other last tick low high =>
    team_ticks_whole covered first last low high) absent member

end Sums

/-- A tick has one entry. Every answer consists of such entries, with all ticks that its limit and
its freeze tick reach; each tick is in some answer, and the differences of a service in the entries
of all ticks up to one add up to its row there. -/
theorem history_free_of_page {table : PointsTable} {teamId : Int} (covered : Covered table teamId)
    (counted : ∀ key ∈ table.keys, 1 ≤ key.1) :
    ∃ entryOf : (Rat → Rat) → Int → TickEntry,
      (∀ points entry, Shown points table teamId entry → entry = entryOf points entry.tick) ∧
      (∀ points env db isInternal limit history, db.scoring.teamTickPoints = table →
        teamTickHistory points env db isInternal teamId limit = some history → ∀ tick,
        tick ∈ ticksFrom table teamId tick (freezeFor env db isInternal) →
        (ticksFrom table teamId tick (freezeFor env db isInternal)).card ≤ clampLimit limit →
          entryOf points tick ∈ history.ticks) ∧
      ∀ tick ∈ teamTicks table teamId,
        (∀ points, Shown points table teamId (entryOf points tick) ∧ (entryOf points tick).tick = tick) ∧
        ∀ serviceId,
          ∑ earlier ∈ ticksTo table teamId tick, blockValue (·.attackDelta) serviceId (entryOf id earlier) =
            rowValue (·.offPoints) table teamId serviceId tick ∧
          ∑ earlier ∈ ticksTo table teamId tick,
              blockValue (·.defenseDelta) serviceId (entryOf id earlier) =
            rowValue (·.defPoints) table teamId serviceId tick ∧
          ∑ earlier ∈ ticksTo table teamId tick,
              blockValue (·.flagsCapturedDelta) serviceId (entryOf id earlier) =
            rowValue (·.flagCapturedCount) table teamId serviceId tick := by
  let db : Db := { emptyDb with scoring := { emptyDb.scoring with teamTickPoints := table } }
  have tables (points : Rat → Rat) (other : Db) (same : other.scoring.teamTickPoints = table) (tick : Int) :
      entryAt points other teamId tick = entryAt points db teamId tick := by
    unfold entryAt teamRows
    rw [same]
  refine ⟨fun points => entryAt points db teamId, ?_, ?_, ?_⟩
  · exact fun points entry shown => shown_entry covered shown db rfl
  · intro points env other isInternal limit history same answer tick known few
    show entryAt points db teamId tick ∈ history.ticks
    rw [← tables points other same]
    exact answer_reaches covered same answer known few
  · intro tick member
    refine ⟨fun points => ⟨?_, rfl⟩, fun serviceId => ⟨?_, ?_, ?_⟩⟩
    · obtain ⟨serviceId, key⟩ := (mem_team_ticks tick).mp member
      show Shown points table teamId (entryAt points db teamId tick)
      rw [← tables points (frozenAt table teamId tick) rfl]
      exact tick_shown covered (counted _ key) ⟨serviceId, key⟩
    · exact deltas_add db covered (·.off) rfl (fun _ => rfl) (fun _ _ => rfl) member serviceId
    · exact deltas_add db covered (·.dfn) rfl (fun _ => rfl) (fun _ _ => rfl) member serviceId
    · exact deltas_add db covered (·.cap) rfl (fun _ => rfl) (fun _ _ => rfl) member serviceId

/-- Two services, the second from tick 2 on. -/
def twoServices : PointsTable := Dict.ofList
  [((1, 2, 1), ⟨10, 0, 1, 1, 1, 0⟩), ((2, 2, 1), ⟨30, 5, 1, 1, 3, 0⟩), ((2, 2, 2), ⟨20, 0, 1, 1, 2, 0⟩)]

def sampleDb : Db :=
  { emptyDb with
    teams := Dict.ofList [(2, ⟨"alpha", "token", "10.1.2.0", false, "xk"⟩)]
    scoring := { emptyDb.scoring with teamTickPoints := twoServices } }

theorem two_services_covered : Covered twoServices 2 := by
  intro one first other last _ _ tick low high
  have keys : twoServices.keys = [(1, 2, 1), (2, 2, 1), (2, 2, 2)] := by decide
  rw [keys] at first last ⊢
  have above : 1 ≤ tick ∧ (one.2 = (2, 1) ∨ one.2 = (2, 2) ∧ 2 ≤ tick) := by
    simp only [List.mem_cons, List.not_mem_nil, or_false] at first
    rcases first with rfl | rfl | rfl
    · exact ⟨low, .inl rfl⟩
    · exact ⟨by omega, .inl rfl⟩
    · exact ⟨by omega, .inr ⟨rfl, low⟩⟩
  have newest : tick ≤ 2 := by
    simp only [List.mem_cons, List.not_mem_nil, or_false] at last
    rcases last with rfl | rfl | rfl <;> omega
  obtain ⟨positive, pair | ⟨pair, second⟩⟩ := above
  · rw [pair]
    have either : tick = 1 ∨ tick = 2 := by omega
    rcases either with rfl | rfl <;> decide
  · rw [pair, show tick = 2 by omega]
    decide

/-- The page of one tick has the entry of the long page, and what the first service attacked in both
ticks is its row. -/
theorem short_page_same : ∃ narrow wide,
    teamTickHistory id (defaultSettings fun _ => []) sampleDb true 2 1 = some narrow ∧
    teamTickHistory id (defaultSettings fun _ => []) sampleDb true 2 500 = some wide ∧
    ∃ one other last, narrow.ticks = [one] ∧ wide.ticks = [other, last] ∧ one = other ∧
      blockValue (·.attackDelta) 1 last + blockValue (·.attackDelta) 1 other = 30 := by
  refine ⟨_, _, rfl, rfl, _, _, _, rfl, rfl, ?_⟩
  obtain ⟨entryOf, same, _, sums⟩ := history_free_of_page two_services_covered (by decide)
  have narrow := same id _ ⟨defaultSettings fun _ => [], sampleDb, true, 1, _, rfl, rfl, List.mem_cons_self⟩
  have wide := same id _ ⟨defaultSettings fun _ => [], sampleDb, true, 500, _, rfl, rfl, List.mem_cons_self⟩
  have last :=
    same id _ ⟨defaultSettings fun _ => [], sampleDb, true, 500, _, rfl, rfl,
      List.mem_cons_of_mem _ List.mem_cons_self⟩
  have attacks := ((sums 2 (by decide)).2 1).1
  have ticks : ticksTo twoServices 2 2 = {1, 2} := by decide
  rw [ticks, Finset.sum_pair (by decide)] at attacks
  refine ⟨narrow.trans wide.symm, ?_⟩
  rw [last, wide]
  exact attacks.trans (by decide +kernel)

end KosSim.HistoryPages
