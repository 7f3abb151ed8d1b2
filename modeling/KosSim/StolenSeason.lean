import KosSim.ScoringBlocked
import KosSim.SeasonScores
import KosSim.StolenFlags

/-!
The stolen count over a season. In one tick a flag is counted unless an earlier tick has
seen it, so the counts of the ticks add up to the size of the union of what they saw.
-/

namespace KosSim.StolenSeason
open Library Schema FlagCrypto Scoring ScoringLedger SeasonScores Rotator ScoringBlocked StolenFlags Finset

/-! Sets counted as they appear. -/

section Union
variable {α : Type} [DecidableEq α] (sets : Nat → Finset α)

/-- What the ticks 1 .. n have seen. -/
def seenBy (n : Nat) : Finset α := (Icc 1 n).biUnion sets

theorem seen_by_succ (n : Nat) : seenBy sets (n + 1) = seenBy sets n ∪ sets (n + 1) := by
  ext item
  simp only [seenBy, mem_biUnion, mem_union, mem_Icc]
  constructor
  · rintro ⟨tick, ⟨first, last⟩, member⟩
    rcases Nat.lt_or_ge n tick with late | early
    · exact .inr ((by omega : tick = n + 1) ▸ member)
    · exact .inl ⟨tick, ⟨first, early⟩, member⟩
  · rintro (⟨tick, range, member⟩ | member)
    · exact ⟨tick, ⟨range.1, by omega⟩, member⟩
    · exact ⟨n + 1, ⟨by omega, le_rfl⟩, member⟩

theorem seen_by_card (n : Nat) :
    (seenBy sets (n + 1)).card = (seenBy sets n).card + (sets (n + 1) \ seenBy sets n).card := by
  rw [seen_by_succ, union_comm, ← card_sdiff_add_card, add_comm]

end Union

/-! One tick, with what it adds to the stolen count. -/

def lastStolen (last : TickPoints) (pair : Pair) : Int := ((last.get? pair).map (·.flagStolenCount)).getD 0

theorem accumulate_stolen (tick : Int) (last : TickPoints) (pair : Pair) (points : TeamPointsLite) :
    (accumulate tick last pair points).flagStolenCount = points.flagStolenCount + lastStolen last pair := by
  unfold accumulate lastStolen
  cases last.get? pair <;> simp

theorem award_defense_stolen (nopTeamId : Option Int) (services : List ServiceSpec)
    (hacked : Finset Pair) (pair : Pair) (points : TeamPointsLite) :
    (awardDefense nopTeamId services hacked pair points).flagStolenCount = points.flagStolenCount := by
  rw [award_defense_def]

theorem scored_stolen {currentTick retention : Int} {nopTeamId : Option Int}
    {services : List ServiceSpec} {teamIds : List Int} (checkerResults : CheckerResults)
    (last : TickPoints) (prevAttacking : Attacking) {flags : List StolenFlag}
    (consistent : Consistent flags) {pair : Pair} (inside : known services teamIds pair) :
    ∃ points, (calculateScoringForTick currentTick services teamIds nopTeamId retention
        checkerResults last prevAttacking flags).1.get? pair = some points ∧
      points.flagStolenCount =
        (keysOf (robs currentTick retention nopTeamId services teamIds pair)
          flags).card + lastStolen last pair := by
  have covers :
      Covers services teamIds (checkedPoints currentTick retention services teamIds checkerResults) :=
    checked_points_known currentTick retention services teamIds checkerResults
  have tallied : Tallied currentTick retention nopTeamId services teamIds _ flags _ :=
    tallied_all consistent covers
  have base : (checkedPoints currentTick retention services teamIds checkerResults).get? pair =
      some { blank currentTick pair with
        slaDelta := pairHealth currentTick retention services checkerResults pair } := by
    rw [checkedPoints, Dict.get_map_entries, initial_points_known currentTick services teamIds _ inside]
    rfl
  obtain ⟨stolen, captured⟩ := tallied.credited.points pair _ base
  have count := tallied.stolen pair _ _ base captured
  simp only [checkedPoints] at captured
  simp only [calculateScoringForTick, Dict.get_map_entries, captured, Option.map_some]
  refine ⟨_, rfl, ?_⟩
  rw [accumulate_stolen, award_defense_stolen, count]
  simp [blank]

/-! The submissions of a season. -/

def inWindow (db : Db) (tick : Int) (row : Submission) : Bool :=
  match db.roundOfTick tick with
  | none => false
  | some (_, round) => decide (round.startsAt ≤ row.submittedAt) && decide (row.submittedAt < round.endsAt)

/-- The columns that describe the stolen flag. -/
def describedBy (target serviceId tickIssued payload : Int) (row : Submission) : Prop :=
  row.targetTeamId = some target ∧ row.serviceId = some serviceId ∧ row.tickIssued = some tickIssued ∧
    row.payload = some payload

/-- A set of accepted submissions and the lists that a season is scored with: windows in tick order,
every row in one of them and valid there, and flag strings that determine what the row says of the
flag. -/
structure Campaign (db : Db) (season : Season) (n : Nat) : Prop where
  loaded : ∀ tick : Nat, 1 ≤ tick → tick ≤ n → loadFlagsForTick db tick = .ok (season.flags tick)
  inOrder : ∀ (one other : Nat) first second, 1 ≤ one → one < other → db.roundOfTick one = some first →
    db.roundOfTick other = some second → first.2.startsAt ≤ first.2.endsAt ∧
    first.2.endsAt ≤ second.2.startsAt
  placed : ∀ row ∈ db.submissions, row.result = .accepted → ∃ tick : Nat, 1 ≤ tick ∧
    inWindow db tick row = true
  determined : ∃ target serviceId tickIssued payload : Text → Int, ∀ row ∈ db.submissions,
    row.result = .accepted →
    describedBy (target row.flag) (serviceId row.flag) (tickIssued row.flag) (payload row.flag) row
  valid : ∀ tick : Nat, 1 ≤ tick → tick ≤ n → ∀ flag ∈ season.flags tick,
    validFlagSubmission tick season.retention season.nopTeamId flag = true
  fixed : ∀ tick : Nat, 1 ≤ tick → tick ≤ n → ∀ flag ∈ season.flags tick,
    flag.submitterTeamId ∈ season.teamIds ∧ flag.targetTeamId ∈ season.teamIds ∧
      flag.serviceId ∈ season.services.map (·.id)

/-- What a campaign says of the submissions alone. -/
structure Recorded (db : Db) : Prop where
  inOrder : ∀ (one other : Nat) first second, 1 ≤ one → one < other → db.roundOfTick one = some first →
    db.roundOfTick other = some second → first.2.startsAt ≤ first.2.endsAt ∧
    first.2.endsAt ≤ second.2.startsAt
  placed : ∀ row ∈ db.submissions, row.result = .accepted → ∃ tick : Nat, 1 ≤ tick ∧
    inWindow db tick row = true
  determined : ∃ target serviceId tickIssued payload : Text → Int, ∀ row ∈ db.submissions,
    row.result = .accepted →
    describedBy (target row.flag) (serviceId row.flag) (tickIssued row.flag) (payload row.flag) row

theorem Campaign.recorded {db : Db} {season : Season} {n : Nat} (campaign : Campaign db season n) :
    Recorded db :=
  ⟨campaign.inOrder, campaign.placed, campaign.determined⟩

/-- The flag strings of the team and service that anyone has captured in the tick. -/
def tickFlags (db : Db) (teamId serviceId : Int) (tick : Nat) : Finset Text :=
  ((db.submissions.filter fun row => decide (row.result = .accepted) && inWindow db tick row &&
    decide (row.targetTeamId = some teamId) && decide (row.serviceId = some serviceId)).map
      (·.flag)).toFinset

/-- The distinct ones of the ticks 1 .. n. -/
def capturedFlags (db : Db) (teamId serviceId : Int) (n : Nat) : Finset Text :=
  seenBy (tickFlags db teamId serviceId) n

section Recorded
variable {db : Db}

theorem mem_tick_flags {teamId serviceId : Int} {tick : Nat} {flag : Text} :
    flag ∈ tickFlags db teamId serviceId tick ↔ ∃ row ∈ db.submissions, row.result = .accepted ∧
      inWindow db tick row = true ∧ row.targetTeamId = some teamId ∧ row.serviceId = some serviceId ∧
      row.flag = flag := by
  simp only [tickFlags, List.mem_toFinset, List.mem_map, List.mem_filter, Bool.and_eq_true,
    decide_eq_true_eq, and_assoc]

/-- What lands in a tick is what lies in its window. -/
theorem mem_landed {row : Submission} {tick : Int} :
    row ∈ landed db tick ↔ row ∈ db.submissions ∧ scorable row = true ∧ inWindow db tick row = true := by
  unfold landed inWindow
  cases db.roundOfTick tick with
  | none => simp
  | some round => simp only [List.mem_filter, Bool.and_eq_true, and_assoc]

theorem window_round {row : Submission} {tick : Int} (inside : inWindow db tick row = true) :
    ∃ round, db.roundOfTick tick = some round := by
  unfold inWindow at inside
  split at inside
  · cases inside
  · next round found => exact ⟨_, found⟩

theorem landed_accepted {row : Submission} {tick : Int} (member : row ∈ landed db tick) :
    row ∈ db.submissions ∧ row.result = .accepted := by
  obtain ⟨stored, counted⟩ := landed_scorable member
  simp only [scorable, Bool.and_eq_true, decide_eq_true_eq] at counted
  exact ⟨stored, counted.1.1.1⟩

/-- A row lies in an earlier window exactly if it was submitted before this one starts. -/
theorem earlier_iff (recorded : Recorded db) {row : Submission} {placed tick : Nat}
    {round : Int × FlagRound} (known : 1 ≤ placed) (first : 1 ≤ tick)
    (inside : inWindow db placed row = true) (found : db.roundOfTick tick = some round) :
    earlier db tick row = true ↔ placed < tick := by
  unfold inWindow at inside
  cases window : db.roundOfTick placed with
  | none =>
      rw [window] at inside
      cases inside
  | some other =>
      simp only [window, Bool.and_eq_true, decide_eq_true_eq] at inside
      simp only [earlier, found, decide_eq_true_eq]
      rcases lt_trichotomy placed tick with before | same | after
      · have order := recorded.inOrder placed tick _ _ known before window found
        omega
      · subst same
        rw [window, Option.some.injEq] at found
        rw [← found]
        omega
      · have order := recorded.inOrder tick placed _ _ first after found window
        omega

theorem stolen_flag_row {before thisTick : List Submission} {row : Submission} {flag : StolenFlag}
    (built : stolenFlag before thisTick row = .ok flag) :
    describedBy flag.targetTeamId flag.serviceId flag.tickIssued flag.payload row ∧ flag.flag = row.flag ∧
      flag.submitterTeamId = row.submitterTeamId ∧
      flag.numPreviousSubmissions = (submittersOf before row.flag).length := by
  unfold stolenFlag at built
  split at built
  · next target serviceId tickIssued payload hasTarget hasService hasTick hasPayload =>
    rw [← Except.ok.inj built]
    exact ⟨⟨hasTarget, hasService, hasTick, hasPayload⟩, rfl, rfl, rfl⟩
  · cases built

theorem mem_flags {tick : Int} {flags : List StolenFlag}
    (loaded : loadFlagsForTick db tick = .ok flags) {flag : StolenFlag} :
    flag ∈ flags ↔ ∃ row ∈ landed db tick, stolenFlag (acceptedBefore db tick)
      (landed db tick) row = .ok flag :=
  mem_mapM_ok loaded flag

/-- Rows of one flag string say the same of it. -/
theorem same_description (recorded : Recorded db) {row other : Submission}
    (stored : row ∈ db.submissions) (accepted : row.result = .accepted)
    (otherStored : other ∈ db.submissions) (otherAccepted : other.result = .accepted)
    (same : row.flag = other.flag) :
    row.targetTeamId = other.targetTeamId ∧ row.serviceId = other.serviceId ∧
      row.tickIssued = other.tickIssued ∧ row.payload = other.payload := by
  obtain ⟨target, serviceId, tickIssued, payload, determined⟩ := recorded.determined
  obtain ⟨one, two, three, four⟩ := determined row stored accepted
  obtain ⟨also1, also2, also3, also4⟩ := determined other otherStored otherAccepted
  rw [one, two, three, four, also1, also2, also3, also4, same]
  exact ⟨rfl, rfl, rfl, rfl⟩

/-- The list of a tick agrees on its flags. -/
theorem flags_consistent (recorded : Recorded db) {tick : Int} {flags : List StolenFlag}
    (loaded : loadFlagsForTick db tick = .ok flags) : Consistent flags := by
  intro one oneMember other otherMember same
  obtain ⟨row, rowLanded, rowBuilt⟩ := (mem_flags loaded).mp oneMember
  obtain ⟨also, alsoLanded, alsoBuilt⟩ := (mem_flags loaded).mp otherMember
  obtain ⟨described, rowFlag, _, rowPrevious⟩ := stolen_flag_row rowBuilt
  obtain ⟨alsoDescribed, alsoFlag, _, alsoPrevious⟩ := stolen_flag_row alsoBuilt
  have text : row.flag = also.flag := rowFlag.symm.trans ((congrArg Prod.fst same).trans alsoFlag)
  obtain ⟨stored, accepted⟩ := landed_accepted rowLanded
  obtain ⟨alsoStored, alsoAccepted⟩ := landed_accepted alsoLanded
  constructor
  · rw [rowPrevious, alsoPrevious, text]
  · have target := (same_description recorded stored accepted alsoStored alsoAccepted text).1
    exact Option.some.inj (described.1.symm.trans (target.trans alsoDescribed.1))

theorem described_scorable (recorded : Recorded db) {row : Submission} (stored : row ∈ db.submissions)
    (accepted : row.result = .accepted) : scorable row = true ∧ row.targetTeamId ≠ none := by
  obtain ⟨target, serviceId, tickIssued, payload, determined⟩ := recorded.determined
  obtain ⟨hasTarget, hasService, hasTick, hasPayload⟩ := determined row stored accepted
  simp [scorable, accepted, hasTarget, hasService, hasTick, hasPayload]

/-- Nobody has submitted the flag in an earlier window. -/
theorem no_previous_iff (recorded : Recorded db) {tick : Nat} (first : 1 ≤ tick)
    {round : Int × FlagRound} (found : db.roundOfTick tick = some round) (flag : Text) :
    (submittersOf (acceptedBefore db tick) flag).length = 0 ↔
      ∀ row ∈ db.submissions, row.result = .accepted →
      row.flag = flag → ∀ placed : Nat, 1 ≤ placed → inWindow db placed row = true → ¬ placed < tick := by
  rw [List.length_eq_zero_iff, submittersOf, List.dedup_eq_nil, List.map_eq_nil_iff, List.filter_eq_nil_iff]
  simp only [acceptedBefore, List.mem_filter, Bool.and_eq_true, decide_eq_true_eq]
  constructor
  · intro nobody row stored accepted same placed known inside before
    exact nobody row ⟨stored, accepted, (earlier_iff recorded known first inside found).mpr before⟩ same
  · rintro none row ⟨stored, accepted, before⟩ same
    obtain ⟨placed, known, inside⟩ := recorded.placed row stored accepted
    exact none row stored accepted same placed known inside
      ((earlier_iff recorded known first inside found).mp before)

section Tick
variable {m : Nat} {flags : List StolenFlag} {retention : Int} {nopTeamId : Option Int}
    {services : List ServiceSpec}
  {teamIds : List Int} (recorded : Recorded db) (loaded : loadFlagsForTick db (m + 1 : Nat) = .ok flags)
  (counted : ∀ flag ∈ flags, counts (m + 1 : Nat) retention nopTeamId services teamIds flag = true)
include recorded loaded counted

/-- What a tick counts for a pair are the flags that no earlier tick has seen. -/
theorem newly_stolen (teamId serviceId : Int) :
    (keysOf (robs (m + 1 : Nat) retention nopTeamId services teamIds (teamId, serviceId))
      flags).image (·.1) =
      tickFlags db teamId serviceId (m + 1) \ capturedFlags db teamId serviceId m := by
  have first : 1 ≤ m + 1 := by omega
  ext text
  simp only [mem_image, mem_sdiff, mem_keys_of, mem_tick_flags, capturedFlags, seenBy, mem_biUnion, mem_Icc]
  constructor
  · rintro ⟨key, ⟨flag, member, robbed, rfl⟩, rfl⟩
    obtain ⟨row, inside, built⟩ := (mem_flags loaded).mp member
    obtain ⟨⟨hasTarget, hasService, _⟩, sameFlag, _, previous⟩ := stolen_flag_row built
    obtain ⟨stored, accepted⟩ := landed_accepted inside
    have window := (mem_landed.mp inside).2.2
    simp only [robs, Bool.and_eq_true, decide_eq_true_eq, Prod.mk.injEq] at robbed
    obtain ⟨⟨_, rfl, rfl⟩, fresh⟩ := robbed
    refine ⟨⟨row, stored, accepted, window, hasTarget, hasService, sameFlag.symm⟩, ?_⟩
    rintro ⟨tick, range, earlier, earlierStored, earlierAccepted, earlierWindow, _, _, same⟩
    obtain ⟨round, found⟩ := window_round window
    have none :=
      (no_previous_iff recorded first found row.flag).mp
        (by rw [fresh] at previous; exact_mod_cast previous.symm)
    exact none earlier earlierStored earlierAccepted (same.trans sameFlag) tick range.1
      earlierWindow (by omega)
  · rintro ⟨⟨row, stored, accepted, window, hasTarget, hasService, rfl⟩, unseen⟩
    have scored := (described_scorable recorded stored accepted).1
    have inside : row ∈ landed db (m + 1 : Nat) := mem_landed.mpr ⟨stored, scored, window⟩
    obtain ⟨flag, built⟩ := (stolen_flag_ok_iff (acceptedBefore db (m + 1 : Nat))
      (landed db (m + 1 : Nat)) row scored).mpr (described_scorable recorded stored accepted).2
    have member := (mem_flags loaded).mpr ⟨row, inside, built⟩
    obtain ⟨described, sameFlag, _, previous⟩ := stolen_flag_row built
    have target : flag.targetTeamId = teamId := Option.some.inj (described.1.symm.trans hasTarget)
    have service : flag.serviceId = serviceId := Option.some.inj (described.2.1.symm.trans hasService)
    refine ⟨seenKey flag, ⟨flag, member, ?_, rfl⟩, sameFlag⟩
    have fresh : flag.numPreviousSubmissions = 0 := by
      obtain ⟨round, found⟩ := window_round window
      have nobody : (submittersOf (acceptedBefore db (m + 1 : Nat)) row.flag).length = 0 := by
        refine (no_previous_iff recorded first found row.flag).mpr ?_
        intro earlier earlierStored earlierAccepted same tick known earlierWindow before
        obtain ⟨sameTarget, sameService, _⟩ :=
          same_description recorded earlierStored earlierAccepted stored accepted same
        exact unseen ⟨tick, ⟨known, by omega⟩, earlier, earlierStored, earlierAccepted, earlierWindow,
          sameTarget.trans hasTarget, sameService.trans hasService, same⟩
      rw [previous, nobody]
      rfl
    rw [robs, counted flag member, target, service, fresh]
    simp

theorem newly_stolen_card (teamId serviceId : Int) :
    (keysOf (robs (m + 1 : Nat) retention nopTeamId services teamIds (teamId, serviceId)) flags).card =
      (tickFlags db teamId serviceId (m + 1) \ capturedFlags db teamId serviceId m).card := by
  rw [← newly_stolen recorded loaded counted, card_image_of_injOn]
  intro one oneMember other otherMember same
  obtain ⟨flag, member, _, rfl⟩ := mem_keys_of.mp oneMember
  obtain ⟨also, alsoMember, _, rfl⟩ := mem_keys_of.mp otherMember
  obtain ⟨row, inside, built⟩ := (mem_flags loaded).mp member
  obtain ⟨otherRow, otherInside, otherBuilt⟩ := (mem_flags loaded).mp alsoMember
  obtain ⟨described, rowFlag, _⟩ := stolen_flag_row built
  obtain ⟨otherDescribed, otherFlag, _⟩ := stolen_flag_row otherBuilt
  obtain ⟨stored, accepted⟩ := landed_accepted inside
  obtain ⟨otherStored, otherAccepted⟩ := landed_accepted otherInside
  have text : flag.flag = also.flag := same
  obtain ⟨_, service, tick, payload⟩ := same_description recorded stored accepted otherStored otherAccepted
    (rowFlag.symm.trans (text.trans otherFlag))
  rw [described.2.1, otherDescribed.2.1, Option.some.injEq] at service
  rw [described.2.2.1, otherDescribed.2.2.1, Option.some.injEq] at tick
  rw [described.2.2.2, otherDescribed.2.2.2, Option.some.injEq] at payload
  rw [seenKey, seenKey, text, service, tick, payload]

end Tick

end Recorded

section Campaign
variable {db : Db} {season : Season} {n : Nat}

theorem campaign_counted (campaign : Campaign db season n) {tick : Nat} (first : 1 ≤ tick)
    (last : tick ≤ n) :
    ∀ flag ∈ season.flags tick,
      counts tick season.retention season.nopTeamId season.services season.teamIds flag = true := by
  intro flag member
  have fixed := campaign.fixed tick first last flag member
  rw [counts, campaign.valid tick first last flag member]
  simp [fixed]

theorem season_stolen (campaign : Campaign db season n) {m : Nat} (last : m + 1 ≤ n) {pair : Pair}
    (inside : known season.services season.teamIds pair) :
    ∃ points, (season.pointsAfter (m + 1)).get? pair = some points ∧ points.flagStolenCount =
      (keysOf (robs (m + 1 : Nat) season.retention season.nopTeamId season.services season.teamIds pair)
        (season.flags (m + 1))).card + lastStolen (season.pointsAfter m) pair :=
  scored_stolen (season.checkerResults (m + 1)) (season.pointsAfter m) (season.prevAttacking (m + 1))
    (flags_consistent campaign.recorded (campaign.loaded (m + 1) (by omega) last)) inside

theorem stolen_after (campaign : Campaign db season n) {teamId : Int} {service : ServiceSpec}
    (inside : known season.services season.teamIds (teamId, service.id)) (m : Nat) (last : m ≤ n) :
    lastStolen (season.pointsAfter m) (teamId, service.id) =
      (capturedFlags db teamId service.id m).card := by
  induction m with
  | zero => rfl
  | succ m ih =>
      obtain ⟨points, scored, count⟩ := season_stolen campaign last inside
      rw [lastStolen, scored, Option.map_some, Option.getD_some, count, ih (by omega),
        newly_stolen_card campaign.recorded (campaign.loaded (m + 1) (by omega) last)
          (campaign_counted campaign (by omega) last),
        capturedFlags, capturedFlags, seen_by_card, Nat.cast_add, add_comm]

end Campaign

/-- After tick n the stolen count of a team's service is the number of its distinct flags that
anyone has captured up to then. -/
theorem stolen_count_distinct {db : Db} {season : Season} {n : Nat}
    (campaign : Campaign db season n) (first : 1 ≤ n) {teamId : Int}
    (team : teamId ∈ season.teamIds) {service : ServiceSpec} (member : service ∈ season.services) :
    ∃ points, (season.pointsAfter n).get? (teamId, service.id) = some points ∧
      points.flagStolenCount = (capturedFlags db teamId service.id n).card := by
  have inside : known season.services season.teamIds (teamId, service.id) :=
    ⟨team, List.mem_map.mpr ⟨service, member, rfl⟩⟩
  have count := stolen_after campaign inside n le_rfl
  obtain ⟨m, rfl⟩ := Nat.exists_eq_add_of_le' first
  obtain ⟨points, scored, _⟩ := season_stolen campaign le_rfl inside
  rw [lastStolen, scored] at count
  exact ⟨points, scored, count⟩

/-! Two ticks: team 1 takes a flag of team 2 in the first, team 3 the same and another one in the second. -/

def relayRow (submitter : Int) (flag : Text) (submittedAt : Int) : Submission where
  submitterTeamId := submitter
  targetTeamId := some 2
  serviceId := some 7
  roundId := some 1
  tickIssued := some 1
  payload := some 0
  flag := flag
  result := .accepted
  pointsAwarded := 1
  isFirstblood := false
  sourceIp := none
  submittedAt := submittedAt

def relayDb : Db :=
  { emptyDb with
    flagRounds := Dict.ofList [(0, ⟨0, 60, 60, some 1⟩), (1, ⟨60, 120, 60, some 2⟩)]
    submissions := [relayRow 1 ['f'] 10, relayRow 3 ['f'] 70, relayRow 3 ['g'] 80] }

theorem relay_services : (([⟨7, "svc", 1, 1⟩] : List ServiceSpec).map (·.id)).Nodup := by decide

theorem relay_retention : (1 : Int) ≤ 5 := by decide

def relay : Season where
  services := [⟨7, "svc", 1, 1⟩]
  teamIds := [1, 2, 3]
  nopTeamId := none
  retention := 5
  checkerResults := fun _ => Dict.empty
  prevAttacking := fun _ => Dict.empty
  flags := fun tick =>
    if tick = 1 then [⟨2, 1, 7, 1, 0, ['f'], 0, 1, []⟩]
    else [⟨2, 3, 7, 1, 0, ['f'], 1, 1, [1]⟩, ⟨2, 3, 7, 1, 0, ['g'], 0, 1, []⟩]
  distinctServices := relay_services
  distinctTeams := by decide
  positiveRetention := relay_retention

theorem relay_round {tick : Nat} {round : Int × FlagRound}
    (found : relayDb.roundOfTick tick = some round) :
    tick = 1 ∧ round.2.startsAt = 0 ∧ round.2.endsAt = 60 ∨ tick = 2 ∧ round.2.startsAt = 60 ∧
      round.2.endsAt = 120 := by
  rw [Db.roundOfTick] at found
  have ofTick : round.2.tick = some (tick : Int) := by simpa using List.find?_some found
  have member := List.mem_of_find?_eq_some found
  rcases List.mem_cons.mp member with rfl | second
  · have one : (1 : Int) = tick := Option.some.inj ofTick
    exact .inl ⟨by omega, rfl, rfl⟩
  · obtain rfl := List.mem_singleton.mp second
    have two : (2 : Int) = tick := Option.some.inj ofTick
    exact .inr ⟨by omega, rfl, rfl⟩

theorem relay_campaign : Campaign relayDb relay 2 where
  loaded := by
    intro tick first last
    interval_cases tick <;> decide +kernel
  inOrder := by
    intro one other first second _ before found next
    rcases relay_round found with ⟨rfl, start, stop⟩ | ⟨rfl, start, stop⟩ <;>
      rcases relay_round next with ⟨rfl, begun, _⟩ | ⟨rfl, begun, _⟩ <;> omega
  placed := by
    intro row stored _
    simp only [relayDb, List.mem_cons, List.not_mem_nil, or_false] at stored
    rcases stored with rfl | rfl | rfl
    · exact ⟨1, le_rfl, by decide⟩
    · exact ⟨2, by omega, by decide⟩
    · exact ⟨2, by omega, by decide⟩
  determined := by
    refine ⟨fun _ => 2, fun _ => 7, fun _ => 1, fun _ => 0, fun row stored _ => ?_⟩
    simp only [relayDb, List.mem_cons, List.not_mem_nil, or_false] at stored
    rcases stored with rfl | rfl | rfl <;> exact ⟨rfl, rfl, rfl, rfl⟩
  valid := by
    intro tick first last
    interval_cases tick <;> decide
  fixed := by
    intro tick first last
    interval_cases tick <;> decide

theorem relay_stolen_count : ∃ points, (relay.pointsAfter 2).get? (2, 7) = some points ∧
    points.flagStolenCount = (capturedFlags relayDb 2 7 2).card :=
  stolen_count_distinct relay_campaign (by decide) (by decide)
  (List.mem_singleton_self (⟨7, "svc", 1, 1⟩ : ServiceSpec))

example : ((relay.pointsAfter 2).get? (2, 7)).map (·.flagStolenCount) = some 2 := by decide +kernel

end KosSim.StolenSeason
