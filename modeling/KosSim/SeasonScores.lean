import Mathlib.Algebra.BigOperators.Intervals
import KosSim.Library.RunningMean
import KosSim.ScoringLedger

/-!
A season: calculate_scoring_for_tick folded over the ticks 1, 2, .. with each
output fed back as last_tick_points. The cumulative columns are the sums of what
the single ticks add, and sla_points is the mean of the recorded health.
-/

namespace KosSim.SeasonScores
open Library Scoring ScoringLedger Finset

structure Season where
  services : List ServiceSpec
  teamIds : List Int
  nopTeamId : Option Int
  retention : Int
  checkerResults : Nat → CheckerResults
  prevAttacking : Nat → Attacking
  flags : Nat → List StolenFlag
  distinctServices : (services.map (·.id)).Nodup
  distinctTeams : teamIds.Nodup
  positiveRetention : 1 ≤ retention

namespace Season
variable (season : Season)

def scoreTick (tick : Nat) (lastTickPoints : TickPoints) : TickPoints :=
  (calculateScoringForTick tick season.services season.teamIds season.nopTeamId season.retention
    (season.checkerResults tick) lastTickPoints (season.prevAttacking tick) (season.flags tick)).1

def pointsAfter : Nat → TickPoints
  | 0 => Dict.empty
  | tick + 1 => season.scoreTick (tick + 1) (pointsAfter tick)

def healthAt (teamId : Int) (service : ServiceSpec) (tick : Nat) : Rat :=
  serviceHealth tick service season.retention
    (checkResult (season.checkerResults tick) tick (teamId, service.id))

def capturesAt (teamId : Int) (service : ServiceSpec) (tick : Nat) : Nat :=
  (season.flags tick).countP (isCapture tick season.retention season.nopTeamId season.teamIds teamId
    service.id)

def defendedAt (teamId : Int) (service : ServiceSpec) (tick : Nat) : Bool :=
  isDefended tick season.retention season.nopTeamId season.teamIds (season.healthAt teamId service tick)
    (season.flags tick) teamId service.id

/-- The columns after n ticks, as sums over the ticks; `stolen` is left open here. -/
structure Ledger (teamId : Int) (service : ServiceSpec) (n : Nat) (points : TeamPointsLite) : Prop where
  captured : points.flagCapturedCount = ∑ tick ∈ Icc 1 n, season.capturesAt teamId service tick
  off : points.offPoints = attackPoints service * ∑ tick ∈ Icc 1 n, season.capturesAt teamId service tick
  defence : points.defPoints =
    defensePoints service * ((Icc 1 n).filter fun tick => season.defendedAt teamId service tick = true).card
  sla : points.slaPoints = 1 / n * ∑ tick ∈ Icc 1 n, season.healthAt teamId service tick
  slaDelta : points.slaDelta = season.healthAt teamId service n

/-- The cumulative columns of one tick against those of the tick before. -/
structure Grows (before after : TeamPointsLite) : Prop where
  off : before.offPoints ≤ after.offPoints
  defence : before.defPoints ≤ after.defPoints
  captured : before.flagCapturedCount ≤ after.flagCapturedCount
  stolen : before.flagStolenCount ≤ after.flagStolenCount

variable {season} {teamId : Int} {service : ServiceSpec}

theorem attack_points_nonneg (service : ServiceSpec) : 0 ≤ attackPoints service := by
  have positive : (0 : Rat) < flagstoreCount service := lt_of_lt_of_le one_pos (le_max_right _ _)
  exact div_nonneg (by norm_num [baseAttackPoints]) positive.le

theorem defense_points_nonneg (service : ServiceSpec) : 0 ≤ defensePoints service := by
  have positive : (0 : Rat) < flagstoreCount service := lt_of_lt_of_le one_pos (le_max_right _ _)
  exact mul_nonneg (by norm_num [baseDefensePoints]) positive.le

theorem health_at_bounds (season : Season) (teamId : Int) (service : ServiceSpec) (tick : Nat) :
    0 ≤ season.healthAt teamId service tick ∧ season.healthAt teamId service tick ≤ 1 :=
  service_health_bounds tick service season.retention season.positiveRetention _

def aloneAt (season : Season) (teamId : Int) (service : ServiceSpec) (tick stolen : Nat) : TeamPointsLite :=
  tickAlone tick season.retention season.nopTeamId season.teamIds service teamId
    (season.healthAt teamId service tick) (season.flags tick) stolen

theorem score_tick_pair (member : service ∈ season.services) (teamMember : teamId ∈ season.teamIds)
    (tick : Nat) (last : TickPoints) : ∃ stolen, (season.scoreTick tick last).get? (teamId, service.id) =
      some (accumulate tick last (teamId, service.id) (season.aloneAt teamId service tick stolen)) :=
  scored_pair tick season.services season.teamIds season.nopTeamId season.retention _ last _ _
    season.distinctServices service member teamId teamMember

theorem filter_card_succ (keep : Nat → Bool) (n : Nat) :
    ((Icc 1 (n + 1)).filter fun tick => keep tick = true).card =
      ((Icc 1 n).filter fun tick => keep tick = true).card + if keep (n + 1) = true then 1 else 0 := by
  rw [card_filter, card_filter, sum_Icc_succ_top (by omega)]

theorem alone_defence (season : Season) (teamId : Int) (service : ServiceSpec) (tick stolen : Nat) :
    (season.aloneAt teamId service tick stolen).defPoints =
      defensePoints service * (if season.defendedAt teamId service tick = true then 1 else 0 : Nat) := by
  show (if season.defendedAt teamId service tick = true then defensePoints service else 0) = _
  by_cases kept : season.defendedAt teamId service tick = true
  · rw [if_pos kept, if_pos kept, Nat.cast_one, mul_one]
  · rw [if_neg kept, if_neg kept, Nat.cast_zero, mul_zero]

theorem ledger_first (stolen : Nat) : season.Ledger teamId service 1
    (accumulate (1 : Nat) Dict.empty (teamId, service.id) (season.aloneAt teamId service 1 stolen)) where
  captured := by simp [accumulate, aloneAt, tickAlone, capturesAt]
  off := by simp [accumulate, aloneAt, tickAlone, capturesAt]
  defence := by
    rw [filter_card_succ (season.defendedAt teamId service) 0]
    simp only [accumulate, Dict.get_empty, alone_defence]
    simp
  sla := by simp [accumulate, aloneAt, tickAlone]
  slaDelta := rfl

theorem ledger_next {n : Nat} {prev : TeamPointsLite} {last : TickPoints} (stolen : Nat) (positive : 1 ≤ n)
    (found : last.get? (teamId, service.id) = some prev) (ledger : season.Ledger teamId service n prev) :
    season.Ledger teamId service (n + 1) (accumulate (n + 1 : Nat) last (teamId, service.id)
      (season.aloneAt teamId service (n + 1) stolen)) where
  captured := by
    rw [sum_Icc_succ_top (by omega)]
    simp only [accumulate, found, ledger.captured, aloneAt, tickAlone, capturesAt]
    push_cast
    ring
  off := by
    rw [sum_Icc_succ_top (by omega)]
    simp only [accumulate, found, ledger.off, aloneAt, tickAlone, capturesAt]
    push_cast
    ring
  defence := by
    rw [filter_card_succ]
    simp only [accumulate, found, ledger.defence, alone_defence]
    push_cast
    ring
  sla := by
    have mean : prev.slaPoints = runningMean (season.healthAt teamId service) n := by
      rw [ledger.sla, running_mean_exact]
    rw [← running_mean_exact]
    simp only [accumulate, found, mean, aloneAt, tickAlone, runningMean]
    push_cast
    rw [add_sub_cancel_right]
  slaDelta := by simp only [accumulate, found, aloneAt, tickAlone]

theorem ledger_after (member : service ∈ season.services) (teamMember : teamId ∈ season.teamIds)
    (n : Nat) (positive : 1 ≤ n) :
    ∃ points, (season.pointsAfter n).get? (teamId, service.id) = some points ∧
      season.Ledger teamId service n points := by
  induction n, positive using Nat.le_induction with
  | base =>
      obtain ⟨stolen, found⟩ := score_tick_pair member teamMember 1 Dict.empty
      exact ⟨_, found, ledger_first stolen⟩
  | succ n positive ih =>
      obtain ⟨prev, found, ledger⟩ := ih
      obtain ⟨stolen, scored⟩ := score_tick_pair member teamMember (n + 1) (season.pointsAfter n)
      exact ⟨_, scored, ledger_next stolen positive found ledger⟩

theorem accumulate_grows (tick stolen : Nat) (last : TickPoints) (prev : TeamPointsLite)
    (found : last.get? (teamId, service.id) = some prev) :
    Grows prev (accumulate tick last (teamId, service.id) (season.aloneAt teamId service tick stolen)) where
  off := by
    simp only [accumulate, found, aloneAt, tickAlone]
    exact le_add_of_nonneg_left (mul_nonneg (attack_points_nonneg service) (Nat.cast_nonneg _))
  defence := by
    simp only [accumulate, found, aloneAt, tickAlone]
    refine le_add_of_nonneg_left ?_
    split
    · exact defense_points_nonneg service
    · exact le_refl 0
  captured := by
    simp only [accumulate, found, aloneAt, tickAlone]
    omega
  stolen := by
    simp only [accumulate, found, aloneAt, tickAlone]
    omega

theorem season_closed_form (season : Season) (n : Nat) (positive : 1 ≤ n) (teamId : Int)
    (teamMember : teamId ∈ season.teamIds) (service : ServiceSpec) (member : service ∈ season.services) :
    ∃ points, (season.pointsAfter n).get? (teamId, service.id) = some points ∧
      season.Ledger teamId service n points ∧ 0 ≤ points.slaPoints ∧ points.slaPoints ≤ 1 ∧
      ∃ next, (season.pointsAfter (n + 1)).get? (teamId, service.id) = some next ∧ Grows points next := by
  obtain ⟨points, found, ledger⟩ := ledger_after member teamMember n positive
  obtain ⟨stolen, scored⟩ := score_tick_pair member teamMember (n + 1) (season.pointsAfter n)
  have bounds := running_mean_bounds (season.healthAt teamId service)
    (fun tick => (health_at_bounds season teamId service tick).1)
    (fun tick => (health_at_bounds season teamId service tick).2) n
  rw [running_mean_exact, ← ledger.sla] at bounds
  exact ⟨points, found, ledger, bounds.1, bounds.2, _, scored,
    accumulate_grows (n + 1) stolen (season.pointsAfter n) points found⟩

/-- Two teams, one service: in tick 1 team 1 captures a flag of team 2 and both stay up. -/
def duel : Season where
  services := [⟨7, "svc", 1, 1⟩]
  teamIds := [1, 2]
  nopTeamId := none
  retention := 5
  checkerResults := fun tick => Dict.ofList [(tick, Dict.ofList
    [((1, 7), (.success, none)), ((2, 7), (.success, none))])]
  prevAttacking := fun _ => Dict.empty
  flags := fun tick => if tick = 1 then [⟨2, 1, 7, 1, 0, ['f'], 0, 1, []⟩] else []
  distinctServices := by decide
  distinctTeams := by decide
  positiveRetention := by decide

theorem duel_closed_form : ∃ points, (duel.pointsAfter 2).get? (1, 7) = some points ∧
    duel.Ledger 1 ⟨7, "svc", 1, 1⟩ 2 points ∧ 0 ≤ points.slaPoints ∧ points.slaPoints ≤ 1 ∧
    ∃ next, (duel.pointsAfter 3).get? (1, 7) = some next ∧ Grows points next :=
  season_closed_form duel 2 (by decide) 1 (by decide) ⟨7, "svc", 1, 1⟩ (by decide)

example : ((duel.pointsAfter 2).get? (1, 7)).map (fun points => (points.offPoints, points.defPoints)) =
    some (10, 10) := by decide +kernel

end Season
end KosSim.SeasonScores
