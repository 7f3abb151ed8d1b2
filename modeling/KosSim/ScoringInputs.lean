import KosSim.TickClosing

/-!
What _score_tick reads for one tick, and that this is all: databases that agree on
it give the same points. Writing the points of a tick leaves these inputs alone,
and writing them a second time leaves the table as it is.
-/

namespace KosSim.ScoringInputs
open Library Schema EnoChecker Scoring ScoringLedger CheckerJobs Rotator PlatformFrames
    ScoringBlocked TickClosing

def ofTick (tick : Int) (_ : HealthKey) (row : ServiceHealth) : Bool := decide (row.tick = some tick)

def healthOf (db : Db) (tick : Int) : Dict HealthKey ServiceHealth :=
  db.checker.serviceHealth.filter (ofTick tick)

structure SameInputs (tick : Int) (one two : Db) : Prop where
  teams : two.teams = one.teams
  services : two.services = one.services
  health : healthOf two tick = healthOf one tick
  landed : landed two tick = landed one tick
  before : acceptedBefore two tick = acceptedBefore one tick
  prior : pointsOfTick two (tick - 1) = pointsOfTick one (tick - 1)

theorem SameInputs.refl (tick : Int) (db : Db) : SameInputs tick db db := ⟨rfl, rfl, rfl, rfl, rfl, rfl⟩

theorem SameInputs.trans {tick : Int} {first middle last : Db} (one : SameInputs tick first middle)
    (two : SameInputs tick middle last) : SameInputs tick first last :=
  ⟨two.1.trans one.1, two.2.trans one.2, two.3.trans one.3, two.4.trans one.4, two.5.trans one.5,
    two.6.trans one.6⟩

/-! The health of one tick is all that the loaded results are used for. -/

theorem store_result_get (out : CheckerResults) (entry : HealthKey × ServiceHealth) (tick : Int)
    (other : entry.2.tick ≠ some tick) : (storeResult out entry).get? tick = out.get? tick := by
  unfold storeResult
  split
  · rfl
  · next stored same =>
    exact Dict.get_set_other _ _ _ _ fun equal => other (same.trans (congrArg some equal))

theorem store_results_get (entries : List (HealthKey × ServiceHealth)) (tick : Int)
    (one two : CheckerResults) (same : one.get? tick = two.get? tick) :
    (entries.foldl storeResult one).get? tick =
      ((entries.filter fun entry => ofTick tick entry.1 entry.2).foldl storeResult two).get? tick := by
  induction entries generalizing one two with
  | nil => exact same
  | cons entry rest ih =>
      by_cases here : entry.2.tick = some tick
      · rw [List.filter_cons_of_pos (by simp [ofTick, here]), List.foldl_cons, List.foldl_cons]
        apply ih
        simp only [storeResult, here, Dict.get_set_self, same]
      · rw [List.filter_cons_of_neg (by simp [ofTick, here]), List.foldl_cons]
        exact ih _ _ ((store_result_get one entry tick here).trans same)

theorem loaded_results_get (db : Db) (ticks : List Int) (tick : Int) :
    (loadCheckerResults db ticks).get? tick =
      if tick ∈ ticks then ((healthOf db tick).entries.foldl storeResult Dict.empty).get? tick
      else none := by
  unfold loadCheckerResults
  rw [store_results_get _ tick Dict.empty Dict.empty rfl, List.filter_filter]
  split
  · next inside =>
    congr 2
    apply List.filter_congr
    intro entry _
    rw [Bool.eq_iff_iff, Bool.and_eq_true]
    constructor
    · exact And.left
    · intro here
      refine ⟨here, List.any_eq_true.mpr ⟨tick, inside, ?_⟩⟩
      exact here
  · next outside =>
    have nobody : (db.checker.serviceHealth.entries.filter fun entry =>
        ofTick tick entry.1 entry.2 && ticks.any fun tick => decide (entry.2.tick = some tick)) = [] := by
      rw [List.filter_eq_nil_iff]
      intro entry _ kept
      rw [Bool.and_eq_true, List.any_eq_true] at kept
      obtain ⟨here, listed, member, same⟩ := kept
      have equal : some listed = some tick := (of_decide_eq_true same).symm.trans (of_decide_eq_true here)
      exact outside (Option.some.inj equal ▸ member)
    rw [nobody]
    rfl

/-- The checker results count through the entries of the tick, the attack state not at all. -/
theorem scoring_congr {tick retention : Int} {services : List ServiceSpec} {teamIds : List Int}
    {nopTeamId : Option Int} {one two : CheckerResults} {last : TickPoints}
    {flags : List StolenFlag} (attackingOne attackingTwo : Attacking)
    (same : one.get? tick = two.get? tick) :
    (calculateScoringForTick tick services teamIds nopTeamId retention one last attackingOne flags).1 =
      (calculateScoringForTick tick services teamIds nopTeamId retention two last attackingTwo
        flags).1 := by
  have health : pairHealth tick retention services one = pairHealth tick retention services two := by
    funext pair
    simp only [pairHealth, checkResult, same]
  unfold calculateScoringForTick
  simp only [health]

theorem same_last_points {one two : Db} {prior : Int}
    (same : pointsOfTick two prior = pointsOfTick one prior) :
    loadLastTickPoints two prior = loadLastTickPoints one prior := by
  simp only [loadLastTickPoints, same]

theorem same_points {tick : Int} {one two : Db} (same : SameInputs tick one two) (retention : Int)
    (flags : List StolenFlag) :
    scoredPoints two tick retention flags = scoredPoints one tick retention flags := by
  have results : (loadCheckerResults two (ticksToLoad tick retention)).get? tick =
      (loadCheckerResults one (ticksToLoad tick retention)).get? tick := by
    rw [loaded_results_get, loaded_results_get, same.health]
  have services : loadServices two = loadServices one := by rw [loadServices, loadServices, same.services]
  have teams : loadTeamIds two = loadTeamIds one := by rw [loadTeamIds, loadTeamIds, same.teams]
  unfold scoredPoints
  rw [services, teams, same_last_points same.prior]
  exact scoring_congr _ _ results

theorem same_flags {tick : Int} {one two : Db} (same : SameInputs tick one two) :
    loadFlagsForTick two tick = loadFlagsForTick one tick := by
  simp only [loadFlagsForTick, same.landed, same.before]

/-! Writing the points of a tick. -/

theorem persist_points_other {env : Settings} {db : Db} {tick other : Int} (apart : other ≠ tick)
    {points : TickPoints} {table : Dict (Int × Int × Int) TeamTickPoints}
    (done : persistTickPoints env db tick points = .ok table) :
    table.filter (fun key _ => decide (key.1 = other)) = pointsOfTick db other := by
  refine foldlM_keeps (fun stored => stored.filter (fun key _ => decide (key.1 = other)) =
    pointsOfTick db other) ?_ rfl done
  intro before entry next _ kept stored
  rw [(persist_one_cases stored).2.2, ← kept]
  exact Dict.filter_set _ _ _ _ (decide_eq_false (Ne.symm apart)) fun _ _ => decide_eq_false (Ne.symm apart)

/-- The table holds the points for the tick. -/
def Written (env : Settings) (tick : Int) (points : TickPoints)
    (table : Dict (Int × Int × Int) TeamTickPoints) : Prop :=
  ∀ pair value, points.get? pair = some value → table.get? (tick, pair.1, pair.2) = some (toRow env value)

theorem persist_fold_written {env : Settings} {db : Db} {tick : Int}
    (entries : List (Pair × TeamPointsLite)) (distinct : (entries.map Prod.fst).Nodup)
    {table last : Dict (Int × Int × Int) TeamTickPoints}
    (done : entries.foldlM (persistOne env db tick) table = .ok last) :
    (∀ entry ∈ entries, last.get? (tick, entry.1.1, entry.1.2) = some (toRow env entry.2)) ∧
      ∀ pair : Pair, pair ∉ entries.map Prod.fst →
        last.get? (tick, pair.1, pair.2) = table.get? (tick, pair.1, pair.2) := by
  induction entries generalizing table with
  | nil =>
      rw [← Except.ok.inj done]
      exact ⟨fun entry member => (List.not_mem_nil member).elim, fun _ _ => rfl⟩
  | cons entry rest ih =>
      rw [List.foldlM_cons] at done
      cases first : persistOne env db tick table entry with
      | error error => rw [first] at done; cases done
      | ok middle =>
          rw [first] at done
          rw [List.map_cons, List.nodup_cons] at distinct
          obtain ⟨later, kept⟩ := ih distinct.2 done
          have stored := (persist_one_cases first).2.2
          refine ⟨List.forall_mem_cons.mpr ⟨?_, later⟩, ?_⟩
          · rw [kept entry.1 distinct.1, stored, Dict.get_set_self]
          · intro pair outside
            rw [List.map_cons, List.mem_cons, not_or] at outside
            rw [kept pair outside.2, stored]
            apply Dict.get_set_other
            intro same
            rw [Prod.mk.injEq, Prod.mk.injEq] at same
            exact outside.1 (Prod.ext same.2.1.symm same.2.2.symm)

theorem persist_written {env : Settings} {db : Db} {tick : Int} {points : TickPoints}
    {table : Dict (Int × Int × Int) TeamTickPoints}
    (done : persistTickPoints env db tick points = .ok table) :
    Written env tick points table := by
  intro pair value found
  exact (persist_fold_written points.entries points.distinct done).1 (pair, value)
    ((Dict.mem_entries_iff points pair value).mpr found)

theorem persist_again {env : Settings} {db : Db} {tick : Int} {points : TickPoints}
    {table : Dict (Int × Int × Int) TeamTickPoints}
    (written : Written env tick points db.scoring.teamTickPoints)
    (done : persistTickPoints env db tick points = .ok table) :
    table = db.scoring.teamTickPoints := by
  refine foldlM_keeps (fun stored => stored = db.scoring.teamTickPoints) ?_ rfl done
  intro before entry next member kept stored
  rw [(persist_one_cases stored).2.2, kept]
  exact Dict.set_same _ _ _ (written entry.1 entry.2
    ((Dict.mem_entries_iff points entry.1 entry.2).mp member))

/-- Scoring a tick touches no input of a tick whose prior points it does not write. -/
theorem score_tick_inputs {env : Settings} {db after : Db} {scored tick retention : Int}
    (done : scoreTick env db scored retention = .ok after) (apart : tick - 1 ≠ scored) :
    SameInputs tick db after := by
  rcases score_tick_cases done with ⟨same, _⟩ | ⟨_, _, _, flags, table, _, _, _, stored, same⟩
  · rw [same]
    exact SameInputs.refl tick db
  · rw [same]
    exact ⟨rfl, rfl, rfl, rfl, rfl, persist_points_other apart stored⟩

/-- The points of the tick are what scoring it would write. -/
def Scored (env : Settings) (db : Db) (tick retention : Int) : Prop :=
  ∀ flags, loadFlagsForTick db tick = .ok flags →
    Written env tick (scoredPoints db tick retention flags) db.scoring.teamTickPoints

theorem points_get (db : Db) (tick : Int) (pair : Pair) :
    (pointsOfTick db tick).get? (tick, pair.1, pair.2) =
      db.scoring.teamTickPoints.get? (tick, pair.1, pair.2) := by
  rw [pointsOfTick, Dict.get_filter]
  cases db.scoring.teamTickPoints.get? (tick, pair.1, pair.2) with
  | none => rfl
  | some row => simp

theorem scored_same {env : Settings} {one two : Db} {tick retention : Int} (same : SameInputs tick one two)
    (own : pointsOfTick two tick = pointsOfTick one tick) (scored : Scored env one tick retention) :
    Scored env two tick retention := by
  intro flags read pair value found
  rw [same_flags same] at read
  rw [same_points same] at found
  rw [← points_get, own, points_get]
  exact scored flags read pair value found

theorem score_tick_scored {env : Settings} {db after : Db} {tick retention : Int} (first : 1 ≤ tick)
    (done : scoreTick env db tick retention = .ok after) : Scored env after tick retention := by
  have inputs : SameInputs tick db after := score_tick_inputs done (by omega)
  rcases score_tick_cases done with ⟨same, early | nobody⟩ | ⟨_, _, _, flags, table, _, _, known,
    stored, same⟩
  · omega
  · intro flags _ pair value found
    rw [same] at found
    have member : pair ∈ (scoredPoints db tick retention flags).keys := by
      rw [Dict.mem_keys_iff, found]
      exact Option.some_ne_none value
    obtain ⟨team, service⟩ := (scored_pair_iff db tick retention flags pair).mp member
    rcases nobody with services | teams
    · rw [Dict.keys, services] at service
      cases service
    · rw [Dict.keys, teams] at team
      cases team
  · intro others read
    rw [same_flags inputs, known, Except.ok.injEq] at read
    rw [same_points inputs, ← read, same]
    exact persist_written stored

theorem score_tick_again {env : Settings} {db after : Db} {tick retention : Int}
    (scored : Scored env db tick retention) (done : scoreTick env db tick retention = .ok after) :
    after.scoring.teamTickPoints = db.scoring.teamTickPoints := by
  rcases score_tick_cases done with ⟨same, _⟩ | ⟨_, _, _, flags, table, _, _, read, stored, same⟩
  · rw [same]
  · rw [same]
    exact persist_again (scored flags read) stored

end KosSim.ScoringInputs
