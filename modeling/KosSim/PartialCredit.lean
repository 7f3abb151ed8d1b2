import Mathlib.Tactic
import KosSim.CheckedFlags
import KosSim.ScoringLedger

/-!
The SLA credit of a RECOVERING check. service_health counts the OK entries of flag_avail
against the whole retention and the configured stores; run_checks_for looks at the ticks that
exist and at the stores that the service names. The two agree where neither cut bites.
-/

namespace KosSim.PartialCredit
open Library EnoChecker Schema CheckerJobs Scoring ScoringLedger CheckerExecutor CheckedFlags

variable {env : Settings} {settings : ExecutorSettings} {world : World} {check : Check}

/-- The flags that should be there: the ticks of the window and this one, times the planted payloads. -/
def dueFlags (world : World) (check : Check) : List (Int × Int) :=
  (intRange (windowStart check) (check.tick + 1)).flatMap fun relatedTick =>
    (intRange 0 (variants world check.service)).map fun payload => (relatedTick, payload)

def okEntries (outcome : Outcome) : Nat :=
  outcome.flagAvail.entries.countP fun entry => decide (entry.2 = .ok)

def credit (check : Check) (outcome : Outcome) : Rat :=
  serviceHealth check.tick check.service check.retention (outcome.status, some outcome.flagAvail)

/-- The credit is the share of the due flags that are there. -/
structure FairCredit (world : World) (check : Check) (outcome : Outcome) : Prop where
  share : credit check outcome = okEntries outcome / (dueFlags world check).length
  low : 0 ≤ credit check outcome
  high : credit check outcome ≤ 1
  full : credit check outcome = 1 ↔ ∀ cell ∈ dueFlags world check, outcome.flagAvail.get? cell = some .ok

/-! What run_checks_for notes. -/

theorem mem_due_flags (cell : Int × Int) : cell ∈ dueFlags world check ↔
    (windowStart check ≤ cell.1 ∧ cell.1 ≤ check.tick) ∧ 0 ≤ cell.2 ∧
    cell.2 < variants world check.service := by
  simp only [dueFlags, List.mem_flatMap, List.mem_map, mem_int_range]
  constructor
  · rintro ⟨relatedTick, ticks, payload, stores, rfl⟩
    exact ⟨⟨ticks.1, by omega⟩, stores⟩
  · rintro ⟨ticks, stores⟩
    exact ⟨cell.1, ⟨ticks.1, by omega⟩, cell.2, stores, rfl⟩

/-- Every entry is about a due flag. -/
def Within (world : World) (check : Check) (progress : Progress) : Prop :=
  ∀ cell ∈ progress.flagAvail.keys, cell ∈ dueFlags world check

theorem note_within {progress : Progress} (within : Within world check progress)
    {tick payload : Int} (due : (tick, payload) ∈ dueFlags world check) (avail : FlagAvail) :
    Within world check (note progress tick payload avail) := by
  intro cell member
  rcases (Dict.mem_keys_set _ _ _ _).mp member with rfl | before
  · exact due
  · exact within cell before

theorem put_flag_within {progress next : Progress} {payload : Int}
    (within : Within world check progress) (due : (check.tick, payload) ∈ dueFlags world check)
    (done : putFlag env world check progress payload = .ok next) :
    Within world check next := by
  obtain ⟨result, _, ⟨_, rfl⟩ | ⟨_, rfl⟩⟩ := judged_cases done
  · exact note_within (by exact within) due .ok
  · exact note_within (by exact within) due .missing

theorem get_flag_within {progress next : Progress} {relatedTick payload : Int}
    (within : Within world check progress) (due : (relatedTick, payload) ∈ dueFlags world check)
    (done : getFlag world check relatedTick progress payload = .ok next) :
    Within world check next := by
  unfold getFlag at done
  split at done
  · rw [← Except.ok.inj done]
    exact note_within within due .missing
  · obtain ⟨result, _, ⟨_, rfl⟩ | ⟨_, rfl⟩⟩ := judged_cases done
    · exact note_within within due .ok
    · exact note_within within due .missing

theorem run_within (positive : 1 ≤ check.tick) (retains : 1 ≤ check.retention)
    {flags table : FlagTable} {outcome : Outcome}
    (done : runChecksFor env settings world check flags = .ok (table, outcome)) :
    ∀ cell ∈ outcome.flagAvail.keys, cell ∈ dueFlags world check := by
  obtain ⟨put, got, noisy, last, putDone, gotDone, noisyDone, lastDone, rfl⟩ := run_checks_cases done
  have start : windowStart check ≤ check.tick := by
    unfold windowStart
    omega
  have late (acc : Progress) (within : Within world check acc) :
      Within world check (markTimeout settings acc) := within
  have begun : Within world check (fresh flags) := fun _ none => absurd none List.not_mem_nil
  have puts : Within world check put := by
    refine budgeted_keeps (Within world check) ?_ late begun putDone
    intro acc payload next inside within taken
    exact put_flag_within within
      ((mem_due_flags _).mpr ⟨⟨start, le_rfl⟩, (mem_int_range _ _ _).mp inside⟩) taken
  have gets : Within world check got := by
    refine budgeted_keeps (Within world check) ?_ late puts gotDone
    intro acc relatedTick next inTicks within row
    have ticks := (mem_int_range _ _ _).mp inTicks
    refine budgeted_keeps (Within world check) ?_ late within row
    intro acc payload next inside within taken
    exact get_flag_within within
      ((mem_due_flags _).mpr ⟨⟨ticks.1, by omega⟩, (mem_int_range _ _ _).mp inside⟩) taken
  intro cell member
  have same : last.flagAvail = got.flagAvail := (run_havoc_avail lastDone).trans (run_noise_avail noisyDone)
  exact gets cell (same ▸ member)

/-! The two counts. -/

theorem int_range_nodup (first stop : Int) : (intRange first stop).Nodup :=
  List.nodup_range.map fun one other same => by simpa using same

theorem pairs_nodup {ticks stores : List Int} (distinctTicks : ticks.Nodup)
    (distinctStores : stores.Nodup) :
    (ticks.flatMap fun tick => stores.map fun store => (tick, store)).Nodup :=
  distinctTicks.product distinctStores

theorem variants_le (world : World) (service : ServiceSpec) :
    variants world service ≤ storeCount service := by
  unfold variants storeCount firstNonzero
  dsimp only
  split <;> split <;> omega

theorem due_flags_length (positive : 1 ≤ check.tick) (retains : 1 ≤ check.retention) :
    ((dueFlags world check).length : Int) =
      min check.tick check.retention * max (variants world check.service) 0 := by
  simp only [dueFlags, List.length_flatMap, List.length_map, int_range_length, List.map_const',
    List.sum_replicate, smul_eq_mul, windowStart]
  push_cast
  congr 1
  · omega
  · omega

section Counts
variable {outcome : Outcome} (within : ∀ cell ∈ outcome.flagAvail.keys, cell ∈ dueFlags world check)
include within

theorem due_count :
    (dueFlags world check).countP (fun cell => decide (outcome.flagAvail.get? cell = some .ok)) =
      okEntries outcome := by
  refine Dict.count_entries _ _ (pairs_nodup (int_range_nodup _ _) (int_range_nodup _ _))
    fun cell found => ?_
  exact within cell (Dict.mem_keys_of_get found)

theorem expected_count : (expectedFlags check.tick check.retention check.service).countP
    (fun key => decide (outcome.flagAvail.get? key = some .ok)) = okEntries outcome := by
  refine Dict.count_entries _ _ (pairs_nodup (int_range_nodup _ _) (int_range_nodup _ _))
    fun cell found => ?_
  have due := (mem_due_flags _).mp (within cell (Dict.mem_keys_of_get found))
  have stores := variants_le world check.service
  simp only [expectedFlags, List.mem_flatMap, List.mem_map, mem_int_range]
  unfold windowStart at due
  exact ⟨cell.1, by omega, cell.2, by omega, rfl⟩

end Counts

/-- A count over a wider base is the same share, and 1 for the whole, only where the bases are one
or the count is 0. -/
theorem share_iff {counted due expected : Nat} (within : counted ≤ due) (wide : due ≤ expected)
    (some : 1 ≤ expected) :
    ((counted : Rat) / expected = counted / due ∧ ((counted : Rat) / expected = 1 ↔ counted = due)) ↔
      due = expected ∨ counted = 0 ∧ 0 < due := by
  have whole : (expected : Rat) ≠ 0 := by
    have positive : (0 : Rat) < expected := by exact_mod_cast some
    exact positive.ne'
  rcases Nat.eq_zero_or_pos counted with rfl | taken
  · simp only [Nat.cast_zero, zero_div, true_and, zero_ne_one, false_iff]
    omega
  · have base : (due : Rat) ≠ 0 := by
      have positive : (0 : Rat) < due := by exact_mod_cast Nat.lt_of_lt_of_le taken within
      exact positive.ne'
    have positive : (counted : Rat) ≠ 0 := by
      have above : (0 : Rat) < counted := by exact_mod_cast taken
      exact above.ne'
    have same : (counted : Rat) / expected = counted / due ↔ due = expected := by
      rw [div_eq_div_iff whole base, mul_right_inj' positive]
      exact_mod_cast Iff.rfl
    rw [same]
    constructor
    · exact fun both => .inl both.1
    · rintro (equal | ⟨none, _⟩)
      · subst equal
        refine ⟨rfl, ?_⟩
        rw [div_eq_one_iff_eq whole]
        exact_mod_cast Iff.rfl
      · omega

/-- The bases are one where the window is not cut and every store is planted. -/
theorem bases_iff (positive : 1 ≤ check.tick) (retains : 1 ≤ check.retention) :
    ((dueFlags world check).length : Int) = check.retention * storeCount check.service ↔
      check.retention ≤ check.tick ∧ variants world check.service = storeCount check.service := by
  have stores : 1 ≤ storeCount check.service := le_max_right _ _
  have named := variants_le world check.service
  rw [due_flags_length positive retains]
  constructor
  · intro equal
    have cut : min check.tick check.retention ≤ check.retention := min_le_right _ _
    have planted : max (variants world check.service) 0 ≤ storeCount check.service :=
      max_le named (by omega)
    have ticks : min check.tick check.retention * max (variants world check.service) 0 ≤
        check.retention * max (variants world check.service) 0 :=
        mul_le_mul_of_nonneg_right cut (le_max_right _ _)
    have all : check.retention * max (variants world check.service) 0 ≤
        check.retention * storeCount check.service :=
      mul_le_mul_of_nonneg_left planted (by omega)
    have count : max (variants world check.service) 0 = storeCount check.service :=
      mul_left_cancel₀ (by omega : check.retention ≠ 0) (le_antisymm all (equal ▸ ticks))
    rw [count] at equal
    have old := mul_right_cancel₀ (by omega : storeCount check.service ≠ 0) equal
    exact ⟨by omega, by omega⟩
  · rintro ⟨old, all⟩
    rw [min_eq_right old, max_eq_left (by omega), all]

/-- The credit of a RECOVERING check is fair exactly where neither the age of the game nor the
service cuts what the check looks at, or nothing is there at all. -/
theorem partial_credit_iff (positive : 1 ≤ check.tick) (retains : 1 ≤ check.retention)
    {flags table : FlagTable} {outcome : Outcome}
    (done : runChecksFor env settings world check flags = .ok (table, outcome))
    (recovering : outcome.status = .recovering) :
    FairCredit world check outcome ↔
      check.retention ≤ check.tick ∧ variants world check.service = storeCount check.service ∨
        0 < variants world check.service ∧ ∀ entry ∈ outcome.flagAvail.entries, entry.2 ≠ .ok := by
  have within := run_within positive retains done
  have stores : 1 ≤ storeCount check.service := le_max_right _ _
  have base : 1 ≤ check.retention * storeCount check.service :=
    one_le_mul_of_one_le_of_one_le retains stores
  obtain ⟨expected, isExpected⟩ :=
    Int.eq_ofNat_of_zero_le (by omega : 0 ≤ check.retention * storeCount check.service)
  have value : credit check outcome = (okEntries outcome : Rat) / expected := by
    have partly : ¬ CheckerStatus.recovering = .success ∧ ¬ CheckerStatus.recovering ≠ .recovering := by
      decide
    rw [credit, serviceHealth, recovering]
    dsimp only
    rw [if_neg partly.1, if_neg partly.2, expected_count within, max_eq_left base, isExpected]
    rfl
  have counted : okEntries outcome ≤ (dueFlags world check).length :=
    due_count within ▸ List.countP_le_length
  have wide : (dueFlags world check).length ≤ expected := by
    have size : ((dueFlags world check).length : Int) = _ := due_flags_length positive retains
    have named := variants_le world check.service
    have cut : min check.tick check.retention * max (variants world check.service) 0 ≤
        check.retention * storeCount check.service :=
      mul_le_mul (min_le_right _ _) (max_le named (by omega)) (le_max_right _ _) (by omega)
    rw [← size, isExpected] at cut
    exact_mod_cast cut
  have full : (∀ cell ∈ dueFlags world check, outcome.flagAvail.get? cell = some .ok) ↔
      okEntries outcome = (dueFlags world check).length := by
    rw [← due_count within, List.countP_eq_length]
    simp only [decide_eq_true_eq]
  have bounds :=
    service_health_bounds check.tick check.service check.retention retains (outcome.status,
      some outcome.flagAvail)
  have nothing : (∀ entry ∈ outcome.flagAvail.entries, entry.2 ≠ .ok) ↔ okEntries outcome = 0 := by
    rw [okEntries, List.countP_eq_zero]
    simp only [decide_eq_true_eq, ne_eq]
  have due : 0 < variants world check.service ↔ 0 < (dueFlags world check).length := by
    rw [List.length_pos_iff_exists_mem]
    constructor
    · intro planted
      exact ⟨(check.tick, 0), (mem_due_flags _).mpr ⟨⟨by unfold windowStart; omega, le_rfl⟩,
        le_rfl, planted⟩⟩
    · rintro ⟨cell, member⟩
      have stores := ((mem_due_flags cell).mp member).2
      omega
  rw [← bases_iff positive retains, isExpected, nothing, due]
  have both : FairCredit world check outcome ↔ ((okEntries outcome : Rat) / expected =
      okEntries outcome / (dueFlags world check).length ∧
        ((okEntries outcome : Rat) / expected = 1 ↔
          okEntries outcome = (dueFlags world check).length)) := by
    rw [← full, ← value]
    exact ⟨fun fair => ⟨fair.share, fair.full⟩, fun held => ⟨held.1, bounds.1, bounds.2, held.2⟩⟩
  rw [both, share_iff counted wide (by omega), and_comm]
  exact or_congr (by omega) Iff.rfl

/-- A service with one flag store that has lost its noise and nothing else. -/
def noisyWorld : World where
  info := some ⟨"svc1", 1, 1, 0⟩
  response := fun call => .answer (some (if call.method = .getnoise then "MUMBLE" else "OK")) none none
  expired := fun _ => false

def secondTick (retention : Int) : Check where
  teamId := 2
  service := ⟨1, "svc1", 1, 1⟩
  tick := 2
  roundId := 2
  expiresAt := 1240000000
  retention := retention
  roundIdForTick := some

/-- The flag of the first tick. -/
def firstFlags : FlagTable := Dict.ofList [((2, 1, 1, 0), ⟨[], none, true, 1120000000⟩)]

theorem lost_noise_full_credit : ∃ table outcome,
    runChecksFor (defaultSettings fun _ => []) ⟨none, false, true⟩ noisyWorld (secondTick 2) firstFlags =
        .ok (table, outcome) ∧
      FairCredit noisyWorld (secondTick 2) outcome ∧ credit (secondTick 2) outcome = 1 := by
  have positive : 1 ≤ (secondTick 2).tick := by decide
  have retains : 1 ≤ (secondTick 2).retention := by decide
  have whole : (secondTick 2).retention ≤ (secondTick 2).tick ∧
      variants noisyWorld (secondTick 2).service = storeCount (secondTick 2).service := by decide
  have done : runChecksFor (defaultSettings fun _ => [])
      ⟨none, false, true⟩ noisyWorld (secondTick 2) firstFlags = .ok (_, _) := rfl
  have fair := (partial_credit_iff positive retains done rfl).mpr (.inl whole)
  exact ⟨_, _, done, fair, fair.full.mpr (by decide)⟩

/-- With the same replies a game of two ticks under a retention of five gives two fifths. -/
theorem young_game_credit : ∃ table outcome,
    runChecksFor (defaultSettings fun _ => []) ⟨none, false, true⟩ noisyWorld (secondTick 5) firstFlags =
        .ok (table, outcome) ∧ outcome.status = .recovering ∧
      (∀ cell ∈ dueFlags noisyWorld (secondTick 5), outcome.flagAvail.get? cell = some .ok) ∧
      credit (secondTick 5) outcome = 2 / 5 ∧ ¬ FairCredit noisyWorld (secondTick 5) outcome := by
  refine ⟨_, _, rfl, rfl, by decide, by rfl, fun fair => ?_⟩
  have two : (2 : Rat) / 5 = 1 := fair.full.mpr (by decide)
  norm_num at two

end KosSim.PartialCredit
