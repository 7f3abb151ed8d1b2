import Mathlib.Tactic
import KosSim.Scoring

/-!
The ledger that the scoring passes implement: every (team, service) is credited
per valid capture, per defended tick and with the mean of its health. Folding
calculate_scoring_for_tick over ticks 1..n gives exactly these sums.
-/

namespace KosSim.ScoringLedger
open Library Scoring Finset

theorem service_unique (services : List ServiceSpec) (distinct : (services.map (·.id)).Nodup)
    (service other : ServiceSpec) (member : service ∈ services) (memberOther : other ∈ services)
    (same : service.id = other.id) : service = other :=
  List.inj_on_of_nodup_map distinct member memberOther same

theorem services_by_id_exact (services : List ServiceSpec) (distinct : (services.map (·.id)).Nodup)
    (service : ServiceSpec) (member : service ∈ services) :
    (servicesById services).get? service.id = some service := by
  apply Dict.of_list_exact
  · exact List.mem_map.mpr ⟨service, member, rfl⟩
  · intro other found
    obtain ⟨spec, inside, same⟩ := List.mem_map.mp found
    simp only [Prod.mk.injEq] at same
    rw [← same.2]
    exact service_unique services distinct spec service inside member same.1

theorem services_by_id_known (services : List ServiceSpec) (serviceId : Int) :
    (servicesById services).get? serviceId ≠ none ↔ serviceId ∈ services.map (·.id) := by
  rw [← Dict.mem_keys_iff, servicesById, Dict.mem_of_list_keys, List.map_map]
  rfl

theorem spec_of_exact (services : List ServiceSpec) (distinct : (services.map (·.id)).Nodup)
    (service : ServiceSpec) (member : service ∈ services) : specOf services service.id = service := by
  rw [specOf, services_by_id_exact services distinct service member, Option.getD_some]

def blank (currentTick : Int) (pair : Pair) : TeamPointsLite :=
  ⟨pair.1, pair.2, currentTick, 0, 0, 0, 0, 0, 0⟩

def known (services : List ServiceSpec) (teamIds : List Int) (pair : Pair) : Prop :=
  pair.1 ∈ teamIds ∧ pair.2 ∈ services.map (·.id)

theorem initial_pairs (currentTick : Int) (services : List ServiceSpec) (teamIds : List Int)
    (pair : Pair) (points : TeamPointsLite)
    (member : (pair, points) ∈ teamIds.flatMap fun teamId => services.map fun service =>
      ((teamId, service.id), (⟨teamId, service.id, currentTick, 0, 0, 0, 0, 0, 0⟩ : TeamPointsLite))) :
    known services teamIds pair ∧ points = blank currentTick pair := by
  obtain ⟨teamId, teamMember, inner⟩ := List.mem_flatMap.mp member
  obtain ⟨service, serviceMember, same⟩ := List.mem_map.mp inner
  simp only [Prod.mk.injEq] at same
  rw [← same.1, ← same.2]
  exact ⟨⟨teamMember, List.mem_map.mpr ⟨service, serviceMember, rfl⟩⟩, rfl⟩

theorem initial_points_known (currentTick : Int) (services : List ServiceSpec) (teamIds : List Int)
    (pair : Pair) (inside : known services teamIds pair) :
    (initialPoints currentTick services teamIds).get? pair = some (blank currentTick pair) := by
  obtain ⟨service, member, same⟩ := List.mem_map.mp inside.2
  apply Dict.of_list_exact
  · exact List.mem_flatMap.mpr ⟨pair.1, inside.1, List.mem_map.mpr ⟨service, member, by rw [same]; rfl⟩⟩
  · exact fun other found => (initial_pairs currentTick services teamIds pair other found).2

theorem initial_points_some (currentTick : Int) (services : List ServiceSpec) (teamIds : List Int)
    (pair : Pair) (points : TeamPointsLite)
    (found : (initialPoints currentTick services teamIds).get? pair = some points) :
    known services teamIds pair :=
  (initial_pairs currentTick services teamIds pair points (Dict.of_list_some _ _ _ found)).1

/-! The capture pass. `counts` is what makes an entry of the list count at all. -/

section Captures
variable (currentTick retention : Int) (nopTeamId : Option Int) (services : List ServiceSpec)
    (teamIds : List Int)

def counts (flag : StolenFlag) : Bool :=
  validFlagSubmission currentTick retention nopTeamId flag &&
    decide (flag.serviceId ∈ services.map (·.id)) &&
    decide (flag.submitterTeamId ∈ teamIds) && decide (flag.targetTeamId ∈ teamIds)

def capturedBy (pair : Pair) (flag : StolenFlag) : Bool :=
  counts currentTick retention nopTeamId services teamIds flag &&
    decide ((flag.submitterTeamId, flag.serviceId) = pair)

/-- After a prefix of the list: who is credited, and whose service is hacked. -/
structure Credited (base : TickPoints) (seen : List StolenFlag) (state : CaptureState) : Prop where
  keys : ∀ pair, base.get? pair = none → state.points.get? pair = none
  points : ∀ pair before, base.get? pair = some before → ∃ stolen : Nat, state.points.get? pair = some
    { before with
      flagCapturedCount := before.flagCapturedCount +
        seen.countP (capturedBy currentTick retention nopTeamId services teamIds pair)
      offPoints := before.offPoints + attackPoints (specOf services pair.2) *
        seen.countP (capturedBy currentTick retention nopTeamId services teamIds pair)
      flagStolenCount := before.flagStolenCount + stolen }
  hacked : ∀ pair, pair ∈ state.hackedServices ↔ ∃ flag ∈ seen,
    counts currentTick retention nopTeamId services teamIds flag = true ∧
    (flag.targetTeamId, flag.serviceId) = pair

variable {currentTick retention nopTeamId services teamIds}

theorem credited_start (base : TickPoints) :
    Credited currentTick retention nopTeamId services teamIds base [] ⟨base, ∅, ∅, Dict.empty⟩ where
  keys := fun _ absent => absent
  points := by
    intro pair before found
    exact ⟨0, by simp [found]⟩
  hacked := by simp

theorem credited_skip {base : TickPoints} {seen : List StolenFlag} {state : CaptureState}
    {flag : StolenFlag}
    (credited : Credited currentTick retention nopTeamId services teamIds base seen state)
    (ignored : counts currentTick retention nopTeamId services teamIds flag = false) :
    Credited currentTick retention nopTeamId services teamIds base (seen ++ [flag]) state where
  keys := credited.keys
  points := by
    intro pair before found
    obtain ⟨stolen, after⟩ := credited.points pair before found
    refine ⟨stolen, ?_⟩
    have same : (seen ++ [flag]).countP (capturedBy currentTick retention nopTeamId services teamIds pair) =
        seen.countP (capturedBy currentTick retention nopTeamId services teamIds pair) := by
      rw [List.countP_append]
      simp [capturedBy, ignored]
    rw [same]
    exact after
  hacked := by
    intro pair
    rw [credited.hacked pair]
    constructor
    · rintro ⟨earlier, member, rest⟩
      exact ⟨earlier, List.mem_append_left _ member, rest⟩
    · rintro ⟨earlier, member, counted, target⟩
      rcases List.mem_append.mp member with before | last
      · exact ⟨earlier, before, counted, target⟩
      · rw [List.mem_singleton.mp last, ignored] at counted
        cases counted

def creditPoints (services : List ServiceSpec) (state : CaptureState) (flag : StolenFlag)
    (stolenNow : Bool) :
    TickPoints :=
  let credit := state.points.modify (flag.submitterTeamId, flag.serviceId)
    (creditAttacker (specOf services flag.serviceId))
  if stolenNow then credit.modify (flag.targetTeamId, flag.serviceId) creditVictim else credit

theorem credit_points_get (state : CaptureState) (flag : StolenFlag) (stolenNow : Bool) (pair : Pair) :
    (creditPoints services state flag stolenNow).get? pair = (state.points.get? pair).map fun points =>
      let paid := if pair = (flag.submitterTeamId, flag.serviceId) then
        creditAttacker (specOf services flag.serviceId) points else points
      if stolenNow = true ∧
        pair = (flag.targetTeamId, flag.serviceId) then creditVictim paid else paid := by
  cases stolenNow with
  | false => simp [creditPoints, Dict.get_modify_map]
  | true => simp [creditPoints, Dict.get_modify_map, Option.map_map, Function.comp_def]

theorem credited_take {base : TickPoints} {seen : List StolenFlag} {state : CaptureState}
    {flag : StolenFlag}
    (credited : Credited currentTick retention nopTeamId services teamIds base seen state)
    (taken : counts currentTick retention nopTeamId services teamIds flag = true) (stolenNow : Bool)
    (nextSeen : Finset (FlagCrypto.Text × Int × Int × Int)) (attacking : Attacking) :
    Credited currentTick retention nopTeamId services teamIds base (seen ++ [flag])
      ⟨creditPoints services state flag stolenNow,
        insert (flag.targetTeamId, flag.serviceId) state.hackedServices, nextSeen, attacking⟩ where
  keys := by
    intro pair absent
    show (creditPoints services state flag stolenNow).get? pair = none
    rw [credit_points_get, credited.keys pair absent]
    rfl
  points := by
    intro pair before found
    obtain ⟨stolen, after⟩ := credited.points pair before found
    have counted :
        (seen ++ [flag]).countP (capturedBy currentTick retention nopTeamId services teamIds pair) =
        seen.countP (capturedBy currentTick retention nopTeamId services teamIds pair) +
          if pair = (flag.submitterTeamId, flag.serviceId) then 1 else 0 := by
      rw [List.countP_append, List.countP_singleton]
      by_cases own : pair = (flag.submitterTeamId, flag.serviceId)
      · simp [capturedBy, taken, own]
      · simp [capturedBy, taken, own, Ne.symm own]
    refine ⟨if stolenNow = true ∧
      pair = (flag.targetTeamId, flag.serviceId) then stolen + 1 else stolen, ?_⟩
    show (creditPoints services state flag stolenNow).get? pair = _
    rw [credit_points_get, after, counted, Option.map_some]
    congr 1
    by_cases own : pair = (flag.submitterTeamId, flag.serviceId)
    · have service : flag.serviceId = pair.2 := (congrArg Prod.snd own).symm
      by_cases victim : stolenNow = true ∧ pair = (flag.targetTeamId, flag.serviceId)
      · rw [if_pos own, if_pos own, if_pos victim, if_pos victim, service]
        simp only [creditAttacker, creditVictim, TeamPointsLite.mk.injEq, true_and, Nat.cast_add,
          Nat.cast_one]
        refine ⟨?_, ?_, ?_⟩ <;> ring
      · rw [if_pos own, if_pos own, if_neg victim, if_neg victim, service]
        simp only [creditAttacker, TeamPointsLite.mk.injEq, true_and, and_true, Nat.cast_add, Nat.cast_one]
        refine ⟨?_, ?_⟩ <;> ring
    · by_cases victim : stolenNow = true ∧ pair = (flag.targetTeamId, flag.serviceId)
      · rw [if_neg own, if_neg own, if_pos victim, if_pos victim]
        simp only [creditVictim, TeamPointsLite.mk.injEq, true_and, Nat.add_zero, Nat.cast_add,
          Nat.cast_one]
        ring
      · rw [if_neg own, if_neg own, if_neg victim, if_neg victim]
        simp only [Nat.add_zero]
  hacked := by
    intro pair
    rw [Finset.mem_insert, credited.hacked pair]
    constructor
    · rintro (here | ⟨earlier, member, rest⟩)
      · exact ⟨flag, by simp, taken, here.symm⟩
      · exact ⟨earlier, List.mem_append_left _ member, rest⟩
    · rintro ⟨earlier, member, counted, target⟩
      rcases List.mem_append.mp member with before | last
      · exact Or.inr ⟨earlier, before, counted, target⟩
      · rw [List.mem_singleton.mp last] at target
        exact Or.inl target.symm

def stolenNow (state : CaptureState) (flag : StolenFlag) : Bool :=
  decide ((flag.flag, flag.tickIssued, flag.serviceId, flag.payload) ∉ state.stolenFlagsSeen ∧
    flag.numPreviousSubmissions = 0)

def seenKey (flag : StolenFlag) : FlagCrypto.Text × Int × Int × Int :=
  (flag.flag, flag.tickIssued, flag.serviceId, flag.payload)

/-- What an entry that counts does. -/
def taken (services : List ServiceSpec) (state : CaptureState) (flag : StolenFlag) : CaptureState :=
  ⟨creditPoints services state flag (stolenNow state flag),
    insert (flag.targetTeamId, flag.serviceId) state.hackedServices,
    insert (seenKey flag) state.stolenFlagsSeen, noteAttack state.newAttacking flag⟩

theorem record_capture_take (state : CaptureState) (flag : StolenFlag) (service : ServiceSpec)
    (valid : validFlagSubmission currentTick retention nopTeamId flag = true)
    (found : (servicesById services).get? flag.serviceId = some service)
    (attacker victim : TeamPointsLite)
    (attackerFound : state.points.get? (flag.submitterTeamId, flag.serviceId) = some attacker)
    (victimFound : state.points.get? (flag.targetTeamId, flag.serviceId) = some victim) :
    recordCapture currentTick retention nopTeamId services state flag = taken services state flag := by
  have spec : specOf services flag.serviceId = service := by rw [specOf, found, Option.getD_some]
  simp only [recordCapture, valid, Bool.true_eq_false, ↓reduceIte, found, attackerFound, victimFound]
  rw [taken, creditPoints, spec]
  simp only [stolenNow, seenKey, decide_eq_true_eq]

theorem record_capture_skip (state : CaptureState) (flag : StolenFlag)
    (missing : validFlagSubmission currentTick retention nopTeamId flag = false ∨
      (servicesById services).get? flag.serviceId = none ∨
      state.points.get? (flag.submitterTeamId, flag.serviceId) = none ∨
      state.points.get? (flag.targetTeamId, flag.serviceId) = none) :
    recordCapture currentTick retention nopTeamId services state flag = state := by
  unfold recordCapture
  split
  · rfl
  next valid =>
  split
  · next service attacker victim found attackerFound victimFound =>
    rcases missing with invalid | noService | noAttacker | noVictim
    · exact absurd invalid valid
    · rw [noService] at found; cases found
    · rw [noAttacker] at attackerFound; cases attackerFound
    · rw [noVictim] at victimFound; cases victimFound
  · rfl

/-- The points have an entry for every pair of a known team and a known service. -/
def Covers (services : List ServiceSpec) (teamIds : List Int) (points : TickPoints) : Prop :=
  ∀ pair, points.get? pair ≠ none ↔ known services teamIds pair

theorem record_capture_counts {state : CaptureState} (covers : Covers services teamIds state.points)
    {flag : StolenFlag}
    (counted : counts currentTick retention nopTeamId services teamIds flag = true) :
    recordCapture currentTick retention nopTeamId services state flag = taken services state flag := by
  simp only [counts, Bool.and_eq_true, decide_eq_true_eq] at counted
  obtain ⟨⟨⟨valid, serviceKnown⟩, submitterKnown⟩, targetKnown⟩ := counted
  obtain ⟨service, found⟩ := Option.ne_none_iff_exists'.mp
    ((services_by_id_known services flag.serviceId).mpr serviceKnown)
  obtain ⟨attacker, attackerFound⟩ := Option.ne_none_iff_exists'.mp
    ((covers (flag.submitterTeamId, flag.serviceId)).mpr ⟨submitterKnown, serviceKnown⟩)
  obtain ⟨victim, victimFound⟩ := Option.ne_none_iff_exists'.mp
    ((covers (flag.targetTeamId, flag.serviceId)).mpr ⟨targetKnown, serviceKnown⟩)
  exact record_capture_take state flag service valid found attacker victim attackerFound victimFound

theorem record_capture_ignores {state : CaptureState}
    (covers : Covers services teamIds state.points) {flag : StolenFlag}
    (ignored : counts currentTick retention nopTeamId services teamIds flag = false) :
    recordCapture currentTick retention nopTeamId services state flag = state := by
  apply record_capture_skip
  by_contra complete
  simp only [not_or, Bool.not_eq_false] at complete
  obtain ⟨valid, service, attacker, victim⟩ := complete
  have submitterKnown := ((covers _).mp attacker).1
  have targetKnown := ((covers _).mp victim).1
  have serviceKnown := (services_by_id_known services flag.serviceId).mp service
  simp [counts, valid, serviceKnown, submitterKnown, targetKnown] at ignored

theorem credited_known {base : TickPoints} {seen : List StolenFlag} {state : CaptureState}
    (credited : Credited currentTick retention nopTeamId services teamIds base seen state)
    (covers : Covers services teamIds base) : Covers services teamIds state.points := by
  intro pair
  rw [← covers pair]
  constructor
  · exact fun present absent => present (credited.keys pair absent)
  · intro present
    obtain ⟨before, found⟩ := Option.ne_none_iff_exists'.mp present
    obtain ⟨stolen, after⟩ := credited.points pair before found
    rw [after]
    exact Option.some_ne_none _

theorem credited_step {base : TickPoints} {seen : List StolenFlag} {state : CaptureState}
    (flag : StolenFlag)
    (credited : Credited currentTick retention nopTeamId services teamIds base seen state)
    (covers : Covers services teamIds base) :
    Credited currentTick retention nopTeamId services teamIds base (seen ++ [flag])
      (recordCapture currentTick retention nopTeamId services state flag) := by
  have still := credited_known credited covers
  cases counted : counts currentTick retention nopTeamId services teamIds flag with
  | true =>
      rw [record_capture_counts still counted]
      exact credited_take credited counted _ _ _
  | false =>
      rw [record_capture_ignores still counted]
      exact credited_skip credited counted

theorem credited_all {base : TickPoints} (flags : List StolenFlag) (covers : Covers services teamIds base) :
    Credited currentTick retention nopTeamId services teamIds base flags
      (flags.foldl (recordCapture currentTick retention nopTeamId services) ⟨base, ∅, ∅, Dict.empty⟩) := by
  induction flags using List.reverseRecOn with
  | nil => exact credited_start base
  | append_singleton earlier flag ih =>
      rw [List.foldl_append]
      exact credited_step flag ih covers

end Captures

theorem int_range_length (first stop : Int) : (intRange first stop).length = (stop - first).toNat := by
  rw [intRange, List.length_map, List.length_range]

theorem expected_flags_length (currentTick retention : Int) (service : ServiceSpec) :
    (expectedFlags currentTick retention service).length =
      retention.toNat * (storeCount service).toNat := by
  simp only [expectedFlags, List.length_flatMap, List.length_map, int_range_length, Int.sub_zero,
    List.map_const', List.sum_replicate, smul_eq_mul]
  congr 2
  omega

/-- The share of available flags is a share: the numerator counts a part of the denominator. -/
theorem service_health_bounds (currentTick : Int) (service : ServiceSpec) (retention : Int)
    (positive : 1 ≤ retention) (result : CheckResult) :
    0 ≤ serviceHealth currentTick service retention result ∧
      serviceHealth currentTick service retention result ≤ 1 := by
  unfold serviceHealth
  split
  · exact ⟨by norm_num, le_refl 1⟩
  split
  · exact ⟨le_refl 0, by norm_num⟩
  split
  · exact ⟨le_refl 0, by norm_num⟩
  · next getflags _ =>
    have stores : 1 ≤ storeCount service := le_max_right _ _
    have expected : 1 ≤ retention * storeCount service := by nlinarith
    have counted : (expectedFlags currentTick retention service).countP
        (fun key => getflags.get? key = some .ok) ≤ (expectedFlags currentTick retention service).length :=
      List.countP_le_length
    rw [expected_flags_length] at counted
    have bounded : (((expectedFlags currentTick retention service).countP
        (fun key => getflags.get? key = some .ok) : Nat) : Int) ≤ retention * storeCount service := by
      calc (((expectedFlags currentTick retention service).countP
            (fun key => getflags.get? key = some .ok) : Nat) : Int)
          ≤ ((retention.toNat * (storeCount service).toNat : Nat) : Int) := by exact_mod_cast counted
        _ = retention * storeCount service := by
            rw [Nat.cast_mul, Int.toNat_of_nonneg (by omega), Int.toNat_of_nonneg (by omega)]
    dsimp only
    rw [max_eq_left expected]
    have divisor : (0 : Rat) < (retention * storeCount service : Int) := by exact_mod_cast expected
    constructor
    · exact div_nonneg (Nat.cast_nonneg _) divisor.le
    · rw [div_le_one divisor]
      exact_mod_cast bounded

/-! One tick: what every pass adds for a pair, before the previous tick is added. -/

section Ticks
variable (currentTick retention : Int) (nopTeamId : Option Int) (services : List ServiceSpec)
    (teamIds : List Int)

/-- A valid entry of the submitter on the service that names a known victim. -/
def isCapture (submitter serviceId : Int) (flag : StolenFlag) : Bool :=
  validFlagSubmission currentTick retention nopTeamId flag && decide (flag.submitterTeamId = submitter) &&
    decide (flag.serviceId = serviceId) && decide (flag.targetTeamId ∈ teamIds)

/-- A valid entry of a known submitter against the team's service. -/
def isHack (victim serviceId : Int) (flag : StolenFlag) : Bool :=
  validFlagSubmission currentTick retention nopTeamId flag && decide (flag.targetTeamId = victim) &&
    decide (flag.serviceId = serviceId) && decide (flag.submitterTeamId ∈ teamIds)

def isDefended (health : Rat) (flags : List StolenFlag) (teamId serviceId : Int) : Bool :=
  decide (nopTeamId ≠ some teamId) && decide (0 < health) &&
    !flags.any (isHack currentTick retention nopTeamId teamIds teamId serviceId)

/-- What the first four passes leave for the pair, before the accumulation. -/
def tickAlone (service : ServiceSpec) (teamId : Int) (health : Rat) (flags : List StolenFlag)
    (stolen : Nat) :
    TeamPointsLite where
  teamId := teamId
  serviceId := service.id
  tick := currentTick
  offPoints := attackPoints service *
    flags.countP (isCapture currentTick retention nopTeamId teamIds teamId service.id)
  defPoints :=
    if isDefended currentTick retention nopTeamId teamIds health flags teamId service.id then
      defensePoints service else 0
  slaPoints := 0
  slaDelta := health
  flagCapturedCount := flags.countP (isCapture currentTick retention nopTeamId teamIds teamId service.id)
  flagStolenCount := stolen

variable {currentTick retention nopTeamId services teamIds}

theorem captured_by_capture (teamId serviceId : Int) (inside : known services teamIds (teamId, serviceId)) :
    capturedBy currentTick retention nopTeamId services teamIds (teamId, serviceId) =
      isCapture currentTick retention nopTeamId teamIds teamId serviceId := by
  funext flag
  rw [Bool.eq_iff_iff]
  simp only [capturedBy, counts, isCapture, Bool.and_eq_true, decide_eq_true_eq, Prod.mk.injEq]
  constructor
  · rintro ⟨⟨⟨⟨valid, _⟩, _⟩, target⟩, submitter, service⟩
    exact ⟨⟨⟨valid, submitter⟩, service⟩, target⟩
  · rintro ⟨⟨⟨valid, submitter⟩, service⟩, target⟩
    exact ⟨⟨⟨⟨valid, service ▸ inside.2⟩, submitter ▸ inside.1⟩, target⟩, submitter, service⟩

theorem hacked_hack (teamId serviceId : Int) (inside : known services teamIds (teamId, serviceId))
    (flags : List StolenFlag) :
    (∃ flag ∈ flags, counts currentTick retention nopTeamId services teamIds flag = true ∧
      (flag.targetTeamId, flag.serviceId) = (teamId, serviceId)) ↔
    flags.any (isHack currentTick retention nopTeamId teamIds teamId serviceId) = true := by
  rw [List.any_eq_true]
  simp only [counts, isHack, Bool.and_eq_true, decide_eq_true_eq, Prod.mk.injEq]
  constructor
  · rintro ⟨flag, member, ⟨⟨⟨valid, _⟩, submitter⟩, _⟩, target, service⟩
    exact ⟨flag, member, ⟨⟨valid, target⟩, service⟩, submitter⟩
  · rintro ⟨flag, member, ⟨⟨valid, target⟩, service⟩, submitter⟩
    exact ⟨flag, member, ⟨⟨⟨valid, service ▸ inside.2⟩, submitter⟩, target ▸ inside.1⟩, target, service⟩

end Ticks

/-- The conditions of the defence pass, as one test. -/
theorem award_defense_def (nopTeamId : Option Int) (services : List ServiceSpec) (hacked : Finset Pair)
    (pair : Pair) (points : TeamPointsLite) :
    awardDefense nopTeamId services hacked pair points = { points with
      defPoints := points.defPoints +
        if nopTeamId ≠ some pair.1 ∧ 0 < points.slaDelta ∧ pair ∉ hacked then
          defensePoints (specOf services pair.2) else 0 } := by
  unfold awardDefense
  split
  · next nop => simp [nop]
  split
  · next taken => simp [taken]
  split
  · next down => simp [not_lt.mpr down]
  · next playing safe up =>
    have condition : nopTeamId ≠ some pair.1 ∧ 0 < points.slaDelta ∧ pair ∉ hacked :=
      ⟨playing, not_le.mp up, safe⟩
    rw [if_pos condition]

/-- The points after the health pass. -/
def checkedPoints (currentTick retention : Int) (services : List ServiceSpec) (teamIds : List Int)
    (checkerResults : CheckerResults) : TickPoints :=
  (initialPoints currentTick services teamIds).mapEntries fun pair points =>
    { points with slaDelta := pairHealth currentTick retention services checkerResults pair }

theorem checked_points_known (currentTick retention : Int) (services : List ServiceSpec)
    (teamIds : List Int) (checkerResults : CheckerResults) (pair : Pair) :
    (checkedPoints currentTick retention services teamIds checkerResults).get? pair ≠ none ↔
      known services teamIds pair := by
  rw [checkedPoints, Dict.get_map_entries]
  constructor
  · intro present
    cases found : (initialPoints currentTick services teamIds).get? pair with
    | none => rw [found] at present; exact absurd rfl present
    | some points => exact initial_points_some currentTick services teamIds pair points found
  · intro here
    rw [initial_points_known currentTick services teamIds pair here]
    exact Option.some_ne_none _

theorem scored_pair (currentTick : Int) (services : List ServiceSpec) (teamIds : List Int)
    (nopTeamId : Option Int) (retention : Int) (checkerResults : CheckerResults)
    (lastTickPoints : TickPoints) (prevAttacking : Attacking) (flags : List StolenFlag)
    (distinct : (services.map (·.id)).Nodup) (service : ServiceSpec) (member : service ∈ services)
    (teamId : Int) (teamMember : teamId ∈ teamIds) :
    ∃ stolen : Nat, (calculateScoringForTick currentTick services teamIds nopTeamId retention checkerResults
        lastTickPoints prevAttacking flags).1.get? (teamId, service.id) =
      some (accumulate currentTick lastTickPoints (teamId, service.id)
        (tickAlone currentTick retention nopTeamId teamIds service teamId
          (serviceHealth currentTick service retention
            (checkResult checkerResults currentTick (teamId, service.id))) flags stolen)) := by
  have inside : known services teamIds (teamId, service.id) :=
    ⟨teamMember, List.mem_map.mpr ⟨service, member, rfl⟩⟩
  have spec : specOf services service.id = service := spec_of_exact services distinct service member
  have base : (checkedPoints currentTick retention services teamIds checkerResults).get? (teamId,
      service.id) = some { blank currentTick (teamId, service.id) with
        slaDelta := pairHealth currentTick retention services checkerResults (teamId, service.id) } := by
    rw [checkedPoints, Dict.get_map_entries, initial_points_known currentTick services teamIds _ inside]
    rfl
  have credited : Credited currentTick retention nopTeamId services teamIds
      (checkedPoints currentTick retention services teamIds checkerResults) flags
      (flags.foldl (recordCapture currentTick retention nopTeamId services)
        ⟨checkedPoints currentTick retention services teamIds checkerResults, ∅, ∅, Dict.empty⟩) :=
    credited_all flags (checked_points_known currentTick retention services teamIds checkerResults)
  have scored : (calculateScoringForTick currentTick services teamIds nopTeamId retention checkerResults
      lastTickPoints prevAttacking flags).1 =
      let state := flags.foldl (recordCapture currentTick retention nopTeamId services)
        ⟨checkedPoints currentTick retention services teamIds checkerResults, ∅, ∅, Dict.empty⟩
      (state.points.mapEntries (awardDefense nopTeamId services state.hackedServices)).mapEntries
        (accumulate currentTick lastTickPoints) := rfl
  have health : pairHealth currentTick retention services checkerResults (teamId, service.id) =
      serviceHealth currentTick service retention
        (checkResult checkerResults currentTick (teamId, service.id)) := by
    simp only [pairHealth, spec]
  rw [scored]
  generalize flags.foldl (recordCapture currentTick retention nopTeamId services)
    ⟨checkedPoints currentTick retention services teamIds checkerResults, ∅, ∅, Dict.empty⟩ =
      state at credited
  obtain ⟨stolen, captured⟩ := credited.points _ _ base
  have safe : (teamId, service.id) ∉ state.hackedServices ↔
      flags.any (isHack currentTick retention nopTeamId teamIds teamId service.id) = false := by
    rw [credited.hacked, hacked_hack teamId service.id inside flags, Bool.not_eq_true]
  refine ⟨stolen, ?_⟩
  dsimp only
  rw [Dict.get_map_entries, Dict.get_map_entries, captured, Option.map_some, Option.map_some]
  congr 2
  rw [award_defense_def, captured_by_capture teamId service.id inside]
  simp only [blank, tickAlone, spec, health, isDefended, safe, Bool.and_eq_true, decide_eq_true_eq,
    Bool.not_eq_true', and_assoc, zero_add]

end KosSim.ScoringLedger
