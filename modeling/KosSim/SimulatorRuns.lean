import KosSim.Simulator
import Mathlib.Data.Finset.Card

/-!
Whole runs of the simulator: what may compromise an asset, that an isolated asset stays as it is or
is recovered, and the two scores as counts over the events of the report.
-/

namespace KosSim.Simulator
open Library

/-! One move at a time, in the order of the rounds. -/

inductive Move where
  | defense (move : DefenseMove)
  | attack (move : AttackMove)
  deriving DecidableEq

def movesOf (rounds : List RoundPlan) : List Move :=
  rounds.flatMap fun plan => plan.defenses.map .defense ++ plan.attacks.map .attack

section Moves
variable (lower : String → String) (scenario : Scenario)

def step (sim : AttackDefenseSimulator) : Move → Except String AttackDefenseSimulator
  | .defense move => .ok (applyDefense lower sim move).1
  | .attack move => (applyAttack scenario sim move).map Prod.fst

/-- The simulator when the first moves of the run have been made. -/
def afterMoves (moves : List Move) : Except String AttackDefenseSimulator :=
  moves.foldlM (step lower scenario) (init scenario)

def Compromised (sim : AttackDefenseSimulator) (name : String) : Prop :=
  ∃ asset, sim.assets.get? name = some asset ∧ asset.compromised = true

def Isolated (sim : AttackDefenseSimulator) (name : String) : Prop :=
  ∃ asset, sim.assets.get? name = some asset ∧ asset.isolated = true

/-- Whatever an attack on the target has to find. -/
def Open (sim : AttackDefenseSimulator) (target : String) : Prop :=
  ¬Isolated sim target ∧
    ∀ required, scenario.prerequisitePath.get? target = some required → required ≠ "" →
    Compromised sim required

/-! The counts. -/

def succeeded : AttackEvent → Option String
  | .success target _ _ _ => some target
  | _ => none

def warded : AttackEvent → Bool
  | .blocked _ _ => true
  | .failed _ _ _ _ => true
  | _ => false

def strengthened : DefenseEvent → Bool
  | .patched _ _ _ => true
  | .hardened _ _ _ => true
  | _ => false

def watched : DefenseEvent → Bool
  | .monitored _ _ _ => true
  | _ => false

def cutOff : DefenseEvent → Bool
  | .isolated _ => true
  | _ => false

def regained : DefenseEvent → Bool
  | .recovered _ => true
  | _ => false

def defensePoints (defenses : List DefenseEvent) (attacks : List AttackEvent) : Int :=
  10 * attacks.countP warded + 5 * defenses.countP strengthened + 3 * defenses.countP watched +
    7 * defenses.countP cutOff + 20 * defenses.countP regained

/-- The assets ever successfully attacked. -/
def taken (attacks : List AttackEvent) : Finset String := (attacks.filterMap succeeded).toFinset

/-- The books agree with the events so far. -/
structure Accounted (sim : AttackDefenseSimulator) (defenses : List DefenseEvent)
    (attacks : List AttackEvent) : Prop where
  attacker : sim.attackerScore = 25 * sim.scoredCompromise.length
  distinct : sim.scoredCompromise.Nodup
  targets : ∀ name, name ∈ sim.scoredCompromise ↔ name ∈ attacks.filterMap succeeded
  defender : sim.defenderScore = defensePoints defenses attacks

theorem points_append (defenses moreDefenses : List DefenseEvent) (attacks moreAttacks : List AttackEvent) :
    defensePoints (defenses ++ moreDefenses) (attacks ++ moreAttacks) =
      defensePoints defenses attacks + defensePoints moreDefenses moreAttacks := by
  unfold defensePoints
  simp only [List.countP_append]
  push_cast
  ring

/-! What one move can do. -/

variable {sim next : AttackDefenseSimulator}

/-- A defense leaves the simulator, or it changes its target for the event's points; no defense
compromises or connects an asset. -/
theorem apply_defense_cases (sim : AttackDefenseSimulator) (move : DefenseMove) :
    ((applyDefense lower sim move).1 = sim ∧ defensePoints [(applyDefense lower sim move).2] [] = 0) ∨
      ∃ asset changed points, sim.assets.get? move.target = some asset ∧
        (applyDefense lower sim move).1 = scored sim move.target changed points ∧
        defensePoints [(applyDefense lower sim move).2] [] = points ∧
        (changed.compromised = true → asset.compromised = true) ∧
        (asset.isolated = true → changed.isolated = true) := by
  unfold applyDefense
  cases found : sim.assets.get? move.target with
  | none => exact .inl ⟨rfl, rfl⟩
  | some asset =>
      dsimp only
      split
      · exact .inr ⟨asset, _, 5, rfl, rfl, rfl, id, id⟩
      split
      · exact .inr ⟨asset, _, 5, rfl, rfl, rfl, id, id⟩
      split
      · exact .inr ⟨asset, _, 3, rfl, rfl, rfl, id, id⟩
      split
      · exact .inr ⟨asset, _, 7, rfl, rfl, rfl, id, fun _ => rfl⟩
      split
      · split
        · next held => exact .inr ⟨asset, _, 20, rfl, rfl, rfl, fun _ => held, id⟩
        · exact .inl ⟨rfl, rfl⟩
      · exact .inl ⟨rfl, rfl⟩

theorem asset_of_ok {name : String} {asset : Asset} (read : assetOf sim name = .ok asset) :
    sim.assets.get? name = some asset := by
  unfold assetOf at read
  cases found : sim.assets.get? name with
  | none =>
      rw [found] at read
      cases read
  | some held =>
      rw [found] at read
      exact congrArg some (Except.ok.inj read)

theorem asset_of_known {name : String} (known : name ∈ sim.assets.keys) :
    ∃ asset, assetOf sim name = .ok asset := by
  rw [Dict.mem_keys_iff] at known
  obtain ⟨asset, found⟩ := Option.ne_none_iff_exists'.mp known
  exact ⟨asset, by rw [assetOf, found]⟩

theorem check_open {target : String}
    (passed : checkPrerequisiteOrIsolation scenario sim target = .ok none) :
    Open scenario sim target := by
  unfold checkPrerequisiteOrIsolation at passed
  obtain ⟨asset, here, passed⟩ := bind_ok_iff.mp passed
  have held := asset_of_ok here
  split at passed
  · cases passed
  next connected =>
  refine ⟨?_, ?_⟩
  · rintro ⟨other, found, isolated⟩
    rw [held] at found
    cases found
    exact connected isolated
  · intro required asked filled
    rw [asked] at passed
    dsimp only at passed
    rw [if_neg filled] at passed
    obtain ⟨before, there, passed⟩ := bind_ok_iff.mp passed
    refine ⟨before, asset_of_ok there, ?_⟩
    by_contra standing
    rw [if_neg standing] at passed
    cases passed

theorem check_total {target : String} (present : target ∈ sim.assets.keys)
    (known : ∀ required, scenario.prerequisitePath.get? target = some required →
      required ∈ sim.assets.keys) :
    ∃ reason, checkPrerequisiteOrIsolation scenario sim target = .ok reason := by
  obtain ⟨asset, here⟩ := asset_of_known present
  unfold checkPrerequisiteOrIsolation
  rw [here]
  dsimp only [bind, Except.bind]
  split
  · exact ⟨_, rfl⟩
  cases asked : scenario.prerequisitePath.get? target with
  | none => exact ⟨_, rfl⟩
  | some required =>
      dsimp only
      split
      · exact ⟨_, rfl⟩
      · obtain ⟨before, there⟩ := asset_of_known (known required asked)
        rw [there]
        exact ⟨_, rfl⟩

/-- An attack misses, is warded off, or compromises an open target. -/
theorem apply_attack_cases {attack : AttackMove} {event : AttackEvent}
    (done : applyAttack scenario sim attack = .ok (next, event)) :
    (next = sim ∧ event = .unknownTarget attack.target) ∨
      (next = { sim with defenderScore := sim.defenderScore + 10 } ∧ warded event = true ∧
        succeeded event = none) ∨
      ∃ asset, sim.assets.get? attack.target = some asset ∧ Open scenario sim attack.target ∧
        next = compromise sim attack.target asset ∧ warded event = false ∧
          succeeded event = some attack.target := by
  unfold applyAttack at done
  cases found : sim.assets.get? attack.target with
  | none =>
      rw [found] at done
      cases done
      exact .inl ⟨rfl, rfl⟩
  | some asset =>
      rw [found] at done
      dsimp only at done
      cases checked : checkPrerequisiteOrIsolation scenario sim attack.target with
      | error missing =>
          rw [checked] at done
          cases done
      | ok reason =>
          rw [checked] at done
          cases reason with
          | some reason =>
              cases done
              exact .inr (.inl ⟨rfl, rfl, rfl⟩)
          | none =>
              dsimp only at done
              split at done
              · cases done
                exact .inr (.inr ⟨asset, rfl, check_open scenario checked, rfl, rfl, rfl⟩)
              · cases done
                exact .inr (.inl ⟨rfl, rfl, rfl⟩)

theorem apply_attack_total (attack : AttackMove)
    (known : ∀ target required, scenario.prerequisitePath.get? target = some required →
      required ∈ sim.assets.keys) :
    ∃ next event, applyAttack scenario sim attack = .ok (next, event) := by
  unfold applyAttack
  cases found : sim.assets.get? attack.target with
  | none => exact ⟨_, _, rfl⟩
  | some asset =>
      obtain ⟨reason, checked⟩ := check_total scenario (Dict.mem_keys_of_get found) (known attack.target)
      dsimp only
      rw [checked]
      cases reason with
      | some reason => exact ⟨_, _, rfl⟩
      | none =>
          dsimp only
          split
          · exact ⟨_, _, rfl⟩
          · exact ⟨_, _, rfl⟩

theorem compromise_assets (target : String) (asset : Asset) :
    (compromise sim target asset).assets = sim.assets.set target { asset with compromised := true } := by
  unfold compromise
  dsimp only
  split
  · rfl
  · rfl

/-! Assets. -/

/-- The assets of two states differ in one target at most, and there as a move may change it. -/
structure Changed (scenario : Scenario) (sim next : AttackDefenseSimulator) (move : Move) : Prop where
  turns : ∀ name, ¬Compromised sim name → Compromised next name →
    ∃ attack, move = .attack attack ∧ attack.target = name ∧ Open scenario sim name
  cut : ∀ name, Isolated sim name → Isolated next name
  keys : ∀ name, name ∈ next.assets.keys ↔ name ∈ sim.assets.keys

theorem same_assets {move : Move} (same : next.assets = sim.assets) : Changed scenario sim next move := by
  constructor
  · intro name before after
    unfold Compromised at after
    rw [same] at after
    exact absurd after before
  · intro name before
    unfold Isolated
    rw [same]
    exact before
  · intro name
    rw [same]

theorem set_asset {move : Move} {target : String} {asset changed : Asset}
    (found : sim.assets.get? target = some asset)
    (written : next.assets = sim.assets.set target changed)
    (cut : asset.isolated = true → changed.isolated = true)
    (turns : changed.compromised = true → asset.compromised = false →
      ∃ attack, move = .attack attack ∧ attack.target = target ∧ Open scenario sim target) :
    Changed scenario sim next move := by
  constructor
  · rintro name before ⟨after, held, compromised⟩
    rw [written, Dict.get_set] at held
    split at held
    · next same =>
      subst same
      rw [← Option.some.inj held] at compromised
      refine turns compromised (Bool.eq_false_iff.mpr fun already => before ⟨asset, found, already⟩)
    · exact absurd ⟨after, held, compromised⟩ before
  · rintro name ⟨before, held, isolated⟩
    unfold Isolated
    rw [written, Dict.get_set]
    split
    · next same =>
      subst same
      rw [found] at held
      exact ⟨changed, rfl, cut (by rw [Option.some.inj held]; exact isolated)⟩
    · exact ⟨before, held, isolated⟩
  · intro name
    rw [written, Dict.mem_keys_set]
    exact ⟨fun either => either.elim (fun same => same ▸ Dict.mem_keys_of_get found) id, .inr⟩

theorem step_changed {move : Move} (taken : step lower scenario sim move = .ok next) :
    Changed scenario sim next move := by
  cases move with
  | defense move =>
      have same := Except.ok.inj taken
      rcases apply_defense_cases lower sim move with ⟨idle, -⟩ | ⟨asset, changed, points, found,
        written, -, kept, cut⟩
      · exact same_assets scenario (by rw [← same, idle])
      · rw [written] at same
        refine set_asset scenario found (by rw [← same]; rfl) cut fun compromised standing => ?_
        rw [kept compromised] at standing
        cases standing
  | attack attack =>
      obtain ⟨⟨after, event⟩, done, same⟩ := map_ok_iff.mp taken
      subst same
      rcases apply_attack_cases scenario done with ⟨same, -⟩ | ⟨same, -⟩ | ⟨asset, found, isOpen, same, -⟩
      · exact same_assets scenario (by rw [same])
      · exact same_assets scenario (by rw [same])
      · have written : after.assets = sim.assets.set attack.target { asset with compromised := true } := by
          rw [same, compromise_assets]
        exact set_asset scenario found written id fun _ _ => ⟨attack, rfl, rfl, isOpen⟩

/-! Accounts. -/

theorem defense_accounted {defenses : List DefenseEvent} {attacks : List AttackEvent}
    (accounted : Accounted sim defenses attacks) (move : DefenseMove) :
    Accounted (applyDefense lower sim move).1 (defenses ++ [(applyDefense lower sim move).2]) attacks := by
  have points := points_append defenses [(applyDefense lower sim move).2] attacks []
  rw [List.append_nil] at points
  rcases apply_defense_cases lower sim move with ⟨idle, none⟩ | ⟨asset, changed, gain, -,
    written, earned, -⟩
  · rw [idle]
    exact ⟨accounted.attacker, accounted.distinct,
      accounted.targets, by rw [points, none, accounted.defender, add_zero]⟩
  · rw [written]
    refine ⟨accounted.attacker, accounted.distinct, accounted.targets, ?_⟩
    show sim.defenderScore + gain = _
    rw [points, earned, accounted.defender]

theorem attack_accounted {defenses : List DefenseEvent} {attacks : List AttackEvent}
    {attack : AttackMove} {event : AttackEvent} (accounted : Accounted sim defenses attacks)
    (done : applyAttack scenario sim attack = .ok (next, event)) :
    Accounted next defenses (attacks ++ [event]) := by
  have points := points_append defenses [] attacks [event]
  rw [List.append_nil] at points
  have targets (name : String) : name ∈ (attacks ++ [event]).filterMap succeeded ↔
      name ∈ sim.scoredCompromise ∨ succeeded event = some name := by
    rw [List.filterMap_append, List.mem_append, ← accounted.targets name, List.mem_filterMap]
    simp only [List.mem_singleton, exists_eq_left]
  rcases apply_attack_cases scenario done with ⟨same, missed⟩ | ⟨same, held, none⟩ | ⟨asset, -, -, same,
    open_, hit⟩
  · subst missed
    refine ⟨?_, ?_, fun name => ?_, ?_⟩
    · rw [same, accounted.attacker]
    · rw [same]
      exact accounted.distinct
    · rw [targets, same]
      exact ⟨.inl, fun either => either.elim id fun other => nomatch other⟩
    · rw [same, accounted.defender, points]
      exact (add_zero _).symm
  · refine ⟨?_, ?_, fun name => ?_, ?_⟩
    · rw [same]
      exact accounted.attacker
    · rw [same]
      exact accounted.distinct
    · rw [targets, none, same]
      exact ⟨.inl, fun either => either.elim id fun other => nomatch other⟩
    · have ten : defensePoints [] [event] = 10 := by
        unfold defensePoints
        rw [List.countP_cons, held]
        rfl
      rw [same, points, ten, ← accounted.defender]
  · have idle : defensePoints [] [event] = 0 := by
      unfold defensePoints
      rw [List.countP_cons, open_]
      rfl
    have defender : next.defenderScore = sim.defenderScore := by
      rw [same]
      unfold compromise
      dsimp only
      split
      · rfl
      · rfl
    by_cases already : attack.target ∈ sim.scoredCompromise
    · have unchanged : next.scoredCompromise = sim.scoredCompromise ∧
          next.attackerScore = sim.attackerScore := by
        rw [same, compromise, if_pos already]
        exact ⟨rfl, rfl⟩
      refine ⟨?_, ?_, fun name => ?_, ?_⟩
      · rw [unchanged.1, unchanged.2, accounted.attacker]
      · rw [unchanged.1]
        exact accounted.distinct
      · rw [targets, hit, unchanged.1]
        exact ⟨.inl, fun either => either.elim id fun other => Option.some.inj other ▸ already⟩
      · rw [defender, points, idle, add_zero, accounted.defender]
    · have grown : next.scoredCompromise = sim.scoredCompromise ++ [attack.target] ∧
          next.attackerScore = sim.attackerScore + 25 := by
        rw [same, compromise, if_neg already]
        exact ⟨rfl, rfl⟩
      refine ⟨?_, ?_, fun name => ?_, ?_⟩
      · rw [grown.1, grown.2, accounted.attacker, List.length_append]
        push_cast
        rw [List.length_singleton]
        ring
      · rw [grown.1]
        exact List.nodup_append.mpr ⟨accounted.distinct, List.nodup_singleton _,
          fun one inside other last => by
          rw [List.mem_singleton.mp last]
          exact fun equal => already (equal ▸ inside)⟩
      · rw [targets, hit, grown.1, List.mem_append, List.mem_singleton, Option.some.injEq, eq_comm]
      · rw [defender, points, idle, add_zero, accounted.defender]

/-! The loops of the source. -/

theorem defenses_played (sim : AttackDefenseSimulator) (moves : List DefenseMove) :
    (moves.map Move.defense).foldlM (step lower scenario) sim = .ok (applyDefenses lower sim moves).1 := by
  induction moves generalizing sim with
  | nil => rfl
  | cons move rest ih =>
      rw [List.map_cons, List.foldlM_cons]
      exact ih (applyDefense lower sim move).1

theorem defenses_accounted {defenses : List DefenseEvent} {attacks : List AttackEvent}
    (accounted : Accounted sim defenses attacks) (moves : List DefenseMove) :
    Accounted (applyDefenses lower sim moves).1 (defenses ++ (applyDefenses lower sim moves).2)
      attacks := by
  induction moves generalizing sim defenses with
  | nil =>
      rw [applyDefenses, List.append_nil]
      exact accounted
  | cons move rest ih =>
      have tail := ih (defense_accounted lower accounted move)
      rw [List.append_assoc] at tail
      exact tail

theorem attacks_played {moves : List AttackMove} {events : List AttackEvent}
    (done : applyAttacks scenario sim moves = .ok (next, events)) :
    (moves.map Move.attack).foldlM (step lower scenario) sim = .ok next ∧
      ∀ defenses attacks, Accounted sim defenses attacks → Accounted next defenses (attacks ++ events) := by
  induction moves generalizing sim events with
  | nil =>
      cases done
      exact ⟨rfl, fun defenses attacks accounted => by rwa [List.append_nil]⟩
  | cons attack rest ih =>
      obtain ⟨⟨middle, event⟩, first, done⟩ := bind_ok_iff.mp done
      obtain ⟨⟨last, later⟩, tail, done⟩ := bind_ok_iff.mp done
      cases done
      obtain ⟨played, counts⟩ := ih tail
      constructor
      · rw [List.map_cons, List.foldlM_cons, step, first]
        exact played
      · intro defenses attacks accounted
        have counted := counts _ _ (attack_accounted scenario accounted first)
        rw [List.append_assoc] at counted
        exact counted

theorem rounds_played {rounds : List RoundPlan} {idx : Nat} {results : List RoundResult}
    (done : applyRounds lower scenario sim idx rounds = .ok (next, results)) :
    (movesOf rounds).foldlM (step lower scenario) sim = .ok next ∧
      ∀ defenses attacks, Accounted sim defenses attacks →
        Accounted next (defenses ++ results.flatMap (·.defensesApplied))
        (attacks ++ results.flatMap (·.attackEvents)) := by
  induction rounds generalizing sim idx results with
  | nil =>
      cases done
      exact ⟨rfl, fun defenses attacks accounted =>
        by rwa [List.flatMap_nil, List.append_nil, List.flatMap_nil, List.append_nil]⟩
  | cons plan rest ih =>
      unfold applyRounds at done
      obtain ⟨⟨attacked, events⟩, first, done⟩ := bind_ok_iff.mp done
      obtain ⟨⟨last, later⟩, tail, done⟩ := bind_ok_iff.mp done
      cases done
      obtain ⟨played, counts⟩ := attacks_played lower scenario first
      obtain ⟨playedRest, countsRest⟩ := ih tail
      constructor
      · rw [movesOf, List.flatMap_cons, List.foldlM_append, List.foldlM_append, defenses_played]
        dsimp only [bind, Except.bind]
        rw [played]
        exact playedRest
      · intro defenses attacks accounted
        have counted := countsRest _ _ (counts _ _ (defenses_accounted lower accounted plan.defenses))
        rw [List.append_assoc, List.append_assoc] at counted
        exact counted

/-! No lookup fails. -/

/-- The assets are those of the scenario. -/
def Known (sim : AttackDefenseSimulator) : Prop :=
  ∀ name, name ∈ sim.assets.keys ↔ name ∈ scenario.assets.map Asset.name

theorem init_known : Known scenario (init scenario) := by
  intro name
  rw [init, Dict.mem_of_list_keys, List.map_map]
  rfl

theorem step_known (known : Known scenario sim) {move : Move}
    (taken : step lower scenario sim move = .ok next) :
    Known scenario next :=
  fun name => ((step_changed lower scenario taken).keys name).trans (known name)

theorem moves_known (known : Known scenario sim) {moves : List Move}
    (played : moves.foldlM (step lower scenario) sim = .ok next) : Known scenario next :=
  foldlM_keeps (Known scenario) (fun _ _ _ _ held taken => step_known lower scenario held taken)
  known played

section Total
variable (prerequisites : ∀ target required, scenario.prerequisitePath.get? target = some required →
  required ∈ scenario.assets.map Asset.name)
include lower prerequisites

theorem attacks_total (known : Known scenario sim) (moves : List AttackMove) :
    ∃ last events, applyAttacks scenario sim moves = .ok (last, events) := by
  induction moves generalizing sim with
  | nil => exact ⟨_, _, rfl⟩
  | cons attack rest ih =>
      obtain ⟨middle, event, first⟩ := apply_attack_total scenario attack fun target required asked =>
        (known required).mpr (prerequisites target required asked)
      have taken : step lower scenario sim (.attack attack) = .ok middle := by
        rw [step, first]
        rfl
      obtain ⟨last, events, tail⟩ := ih (step_known lower scenario known taken)
      refine ⟨last, event :: events, ?_⟩
      rw [applyAttacks, first]
      dsimp only [bind, Except.bind]
      rw [tail]
      rfl

theorem rounds_total (known : Known scenario sim) (rounds : List RoundPlan) (idx : Nat) :
    ∃ last results, applyRounds lower scenario sim idx rounds = .ok (last, results) := by
  induction rounds generalizing sim idx with
  | nil => exact ⟨_, _, rfl⟩
  | cons plan rest ih =>
      have defended := moves_known lower scenario known (defenses_played lower scenario sim plan.defenses)
      obtain ⟨attacked, events, first⟩ := attacks_total lower scenario prerequisites defended plan.attacks
      have known := moves_known lower scenario defended (attacks_played lower scenario first).1
      obtain ⟨last, results, tail⟩ := ih known (idx + 1)
      refine ⟨last, ⟨idx, (applyDefenses lower sim plan.defenses).2, events⟩ :: results, ?_⟩
      rw [applyRounds]
      dsimp only
      rw [first]
      dsimp only [bind, Except.bind]
      rw [tail]
      rfl

end Total

/-! The run. -/

/-- What the rules say of a run and its report. -/
structure ObeysRules (report : SimulationReport) (last : AttackDefenseSimulator) : Prop where
  ends : afterMoves lower scenario (movesOf scenario.rounds) = .ok last ∧
    report.finalState = finalState last
  turns : ∀ front move back, movesOf scenario.rounds = front ++ move :: back →
    ∃ before after, afterMoves lower scenario front = .ok before ∧
    step lower scenario before move = .ok after ∧
      ∀ name, ¬Compromised before name → Compromised after name →
        ∃ attack, move = .attack attack ∧ attack.target = name ∧ Open scenario before name
  stays : ∀ front middle move back, movesOf scenario.rounds = front ++ (middle ++ move :: back) →
    ∃ cut before after, afterMoves lower scenario front = .ok cut ∧
      afterMoves lower scenario (front ++ middle) = .ok before ∧
      step lower scenario before move = .ok after ∧
      ∀ name, Isolated cut name → ¬Compromised before name → ¬Compromised after name
  objective : report.objectiveReached = true ↔ Compromised last scenario.objectiveTarget
  attacker : report.attackerScore = 25 * (taken (report.rounds.flatMap (·.attackEvents))).card +
    if report.objectiveReached then 100 else 0
  defender : report.defenderScore =
    defensePoints (report.rounds.flatMap (·.defensesApplied)) (report.rounds.flatMap (·.attackEvents))

theorem accounted_taken {defenses : List DefenseEvent} {attacks : List AttackEvent}
    (accounted : Accounted sim defenses attacks) : sim.scoredCompromise.length = (taken attacks).card := by
  have same : sim.scoredCompromise.toFinset = taken attacks := by
    ext name
    rw [taken, List.mem_toFinset, List.mem_toFinset]
    exact accounted.targets name
  rw [← same, List.toFinset_card_of_nodup accounted.distinct]

/-- The states along a run that comes to its end. -/
theorem played_parts {moves front back : List Move} {move : Move} {last : AttackDefenseSimulator}
    (played : moves.foldlM (step lower scenario) sim = .ok last)
    (parts : moves = front ++ move :: back) :
    ∃ before after, front.foldlM (step lower scenario) sim = .ok before ∧
      step lower scenario before move = .ok after := by
  rw [parts, List.foldlM_append] at played
  obtain ⟨before, first, played⟩ := bind_ok_iff.mp played
  rw [List.foldlM_cons] at played
  obtain ⟨after, taken, -⟩ := bind_ok_iff.mp played
  exact ⟨before, after, first, taken⟩

theorem isolated_stays {moves : List Move} {name : String} (isolated : Isolated sim name)
    (played : moves.foldlM (step lower scenario) sim = .ok next) : Isolated next name :=
  foldlM_keeps (Isolated · name)
  (fun _ _ _ _ held taken => (step_changed lower scenario taken).cut name held) isolated played

/-- Every run ends and obeys the rules; a prerequisite with an empty name is none. -/
theorem run_obeys_rules
    (prerequisites : ∀ target required, scenario.prerequisitePath.get? target = some required →
      required ∈ scenario.assets.map Asset.name)
    (objective : scenario.objectiveTarget ∈ scenario.assets.map Asset.name) :
    ∃ report last, run lower scenario = .ok report ∧ ObeysRules lower scenario report last := by
  obtain ⟨last, results, done⟩ :=
    rounds_total lower scenario prerequisites (init_known scenario) scenario.rounds 1
  obtain ⟨played, counts⟩ := rounds_played lower scenario done
  have known := moves_known lower scenario (init_known scenario) played
  obtain ⟨target, read⟩ := asset_of_known ((known scenario.objectiveTarget).mpr objective)
  have begins : Accounted (init scenario) [] [] := ⟨rfl, List.nodup_nil, fun _ => Iff.rfl, rfl⟩
  have accounted := counts [] [] begins
  rw [List.nil_append, List.nil_append] at accounted
  refine ⟨reportOf scenario last results target, last, ?_, ?_, ?_, ?_, ?_, ?_, ?_⟩
  · unfold run
    rw [done]
    dsimp only [bind, Except.bind]
    rw [read]
    rfl
  · exact ⟨played, rfl⟩
  · intro front move back parts
    obtain ⟨before, after, first, taken⟩ := played_parts lower scenario played parts
    exact ⟨before, after, first, taken, (step_changed lower scenario taken).turns⟩
  · intro front middle move back parts
    rw [← List.append_assoc] at parts
    obtain ⟨before, after, first, taken⟩ := played_parts lower scenario played parts
    have whole := first
    rw [List.foldlM_append] at first
    obtain ⟨cut, reached, rest⟩ := bind_ok_iff.mp first
    refine ⟨cut, before, after, reached, whole, taken, fun name isolated standing fallen => ?_⟩
    obtain ⟨attack, -, -, unguarded⟩ := (step_changed lower scenario taken).turns name standing fallen
    exact unguarded.1 (isolated_stays lower scenario isolated rest)
  · exact ⟨fun reached => ⟨target, asset_of_ok read, reached⟩, fun ⟨asset, found, compromised⟩ => by
      rw [asset_of_ok read] at found
      rw [← Option.some.inj found] at compromised
      exact compromised⟩
  · have score := accounted.attacker
    rw [accounted_taken accounted] at score
    show (if target.compromised then last.attackerScore + 100 else last.attackerScore) =
      25 * (taken (results.flatMap (·.attackEvents))).card + if target.compromised then 100 else 0
    rw [score]
    split
    · rfl
    · exact (add_zero _).symm
  · exact accounted.defender

end Moves

/-! Two assets, the second behind the first. -/

def gate : Asset := ⟨"gate", 70, 35, false, false, 0⟩

def vault : Asset := ⟨"vault", 60, 40, false, false, 0⟩

def siege : Scenario :=
  { name := "siege"
    objectiveTarget := "vault"
    assets := [gate, vault]
    prerequisitePath := Dict.empty.set "vault" "gate"
    rounds := [⟨[⟨"Monitor", "gate", 10⟩], [⟨"gate", 80, "rce"⟩, ⟨"vault", 85, "sqli"⟩]⟩] }

theorem siege_obeys_rules :
    ∃ report last, run String.toLower siege = .ok report ∧ ObeysRules String.toLower siege report last := by
  refine run_obeys_rules String.toLower siege ?_ (by decide)
  intro target required asked
  change (Dict.empty.set "vault" "gate").get? target = some required at asked
  rw [Dict.get_set] at asked
  split at asked
  · rw [← Option.some.inj asked]
    decide
  · cases asked

/-! A prerequisite whose name is empty. -/

def nameless : Scenario :=
  { name := "nameless"
    objectiveTarget := "vault"
    assets := [⟨"", 0, 90, false, false, 0⟩, vault]
    prerequisitePath := Dict.empty.set "vault" ""
    rounds := [⟨[], [⟨"vault", 85, "sqli"⟩]⟩] }

theorem nameless_prerequisite_ignored :
    (∀ target required, nameless.prerequisitePath.get? target = some required →
      required ∈ nameless.assets.map Asset.name) ∧
    nameless.objectiveTarget ∈ nameless.assets.map Asset.name ∧
    movesOf nameless.rounds = [.attack ⟨"vault", 85, "sqli"⟩] ∧
    ∃ after, step String.toLower nameless (init nameless) (.attack ⟨"vault", 85, "sqli"⟩) = .ok after ∧
      ¬Compromised (init nameless) "vault" ∧ Compromised after "vault" ∧
      nameless.prerequisitePath.get? "vault" = some "" ∧ ¬Compromised (init nameless) "" := by
  refine ⟨?_, by decide, rfl, ?_⟩
  · intro target required asked
    change (Dict.empty.set "vault" "").get? target = some required at asked
    rw [Dict.get_set] at asked
    split at asked
    · rw [← Option.some.inj asked]
      decide
    · cases asked
  have standing : (init nameless).assets.get? "vault" = some vault := by decide
  have first : (init nameless).assets.get? "" = some ⟨"", 0, 90, false, false, 0⟩ := by decide
  have checked : checkPrerequisiteOrIsolation nameless (init nameless) "vault" = .ok none := by decide
  have strong : ((vault.defense + vault.monitoring : Int) : ℚ) + 20 <
      (85 : Int) + vault.vulnerability / 2 := by
    norm_num [vault]
  refine ⟨compromise (init nameless) "vault" vault, ?_, ?_, ?_, by decide, ?_⟩
  · unfold step applyAttack
    dsimp only
    rw [standing, checked]
    dsimp only
    rw [if_pos strong]
    rfl
  · rintro ⟨asset, found, compromised⟩
    rw [standing] at found
    rw [← Option.some.inj found] at compromised
    cases compromised
  · exact ⟨{ vault with compromised := true }, by decide, rfl⟩
  · rintro ⟨asset, found, compromised⟩
    rw [first] at found
    rw [← Option.some.inj found] at compromised
    cases compromised

end KosSim.Simulator
