import KosSim.Library.Dict
import KosSim.Library.Folds
import Mathlib.Data.Rat.Floor

/-!
kos_sim: the attack and defense simulator (models.py, simulator.py). A scenario's rounds are played
in order, in each round the defenses before the attacks. A KeyError carries the missing name. Events
keep their parts; `text` is the string that the report shows. `lower` is str.lower.
-/

namespace KosSim.Simulator
open Library

structure Asset where
  name : String
  vulnerability : Int
  defense : Int
  compromised : Bool := false
  isolated : Bool := false
  monitoring : Int := 0
  deriving DecidableEq

structure AttackMove where
  target : String
  strength : Int
  technique : String := "generic"
  deriving DecidableEq

structure DefenseMove where
  action : String
  target : String
  power : Int
  deriving DecidableEq

structure RoundPlan where
  defenses : List DefenseMove := []
  attacks : List AttackMove := []
  deriving DecidableEq

structure Scenario where
  name : String
  objectiveTarget : String
  assets : List Asset
  prerequisitePath : Dict String String := Dict.empty
  rounds : List RoundPlan := []
  deriving DecidableEq

/-! Events. -/

inductive DefenseEvent where
  | unknownTarget (action target : String)
  | patched (name : String) (old new : Int)
  | hardened (name : String) (old new : Int)
  | monitored (name : String) (old new : Int)
  | isolated (name : String)
  | recovered (name : String)
  | recoverNoop (name : String)
  | unknownAction (action name : String)
  deriving DecidableEq

inductive Blocked where
  | isolated
  | missingPrerequisite (required : String)
  deriving DecidableEq

inductive AttackEvent where
  | unknownTarget (target : String)
  | blocked (target : String) (reason : Blocked)
  | success (target technique : String) (effectiveAttack : ℚ) (effectiveDefense : Int)
  | failed (target technique : String) (effectiveAttack : ℚ) (effectiveDefense : Int)
  deriving DecidableEq

/-- The format .1f of a number of halves. -/
def oneDecimal (value : ℚ) : String :=
  let tenths := ⌊|value| * 10⌋.toNat
  (if value < 0 then "-" else "") ++ toString (tenths / 10) ++ "." ++ toString (tenths % 10)

def change (head name : String) (old new : Int) : String :=
  head ++ ":" ++ name ++ ":" ++ toString old ++ "->" ++ toString new

def DefenseEvent.text : DefenseEvent → String
  | unknownTarget action target => "skip:" ++ action ++ ":" ++ target ++ ":unknown_target"
  | patched name old new => change "patch" name old new
  | hardened name old new => change "harden" name old new
  | monitored name old new => change "monitor" name old new
  | isolated name => "isolate:" ++ name ++ ":on"
  | recovered name => "recover:" ++ name ++ ":success"
  | recoverNoop name => "recover:" ++ name ++ ":noop"
  | unknownAction action name => "skip:" ++ action ++ ":" ++ name ++ ":unknown_action"

def Blocked.text : Blocked → String
  | isolated => "isolated"
  | missingPrerequisite required => "missing_prerequisite:" ++ required

def AttackEvent.text : AttackEvent → String
  | unknownTarget target => "attack:" ++ target ++ ":unknown_target"
  | blocked target reason => "attack:" ++ target ++ ":blocked:" ++ reason.text
  | success target technique attack defense =>
      "attack:" ++ target ++ ":success:" ++ technique ++ ":atk=" ++ oneDecimal attack ++ ":def=" ++
        oneDecimal defense
  | failed target technique attack defense =>
      "attack:" ++ target ++ ":failed:" ++ technique ++ ":atk=" ++ oneDecimal attack ++ ":def=" ++
        oneDecimal defense

/-! The simulator. -/

structure AttackDefenseSimulator where
  assets : Dict String Asset
  attackerScore : Int := 0
  defenderScore : Int := 0
  scoredCompromise : List String := []
  deriving DecidableEq

/-- A later asset of a name takes the place of an earlier one. -/
def init (scenario : Scenario) : AttackDefenseSimulator :=
  { assets := Dict.ofList (scenario.assets.map fun asset => (asset.name, asset)) }

/-- `self.assets[name]` -/
def assetOf (sim : AttackDefenseSimulator) (name : String) : Except String Asset :=
  match sim.assets.get? name with
  | none => .error name
  | some asset => .ok asset

/-- The asset object with changed fields, and the points for it. -/
def scored (sim : AttackDefenseSimulator) (target : String) (asset : Asset) (points : Int) :
    AttackDefenseSimulator :=
  { sim with assets := sim.assets.set target asset, defenderScore := sim.defenderScore + points }

section Moves
variable (lower : String → String) (scenario : Scenario)

def applyDefense (sim : AttackDefenseSimulator) (defense : DefenseMove) :
    AttackDefenseSimulator × DefenseEvent :=
  match sim.assets.get? defense.target with
  | none => (sim, .unknownTarget defense.action defense.target)
  | some asset =>
      let action := lower defense.action
      if action = "patch" then
        let reduced := max 0 (asset.vulnerability - defense.power)
        (scored sim defense.target { asset with
          vulnerability := reduced } 5, .patched asset.name asset.vulnerability reduced)
      else if action = "harden" then
        let raised := min 100 (asset.defense + defense.power)
        (scored sim defense.target { asset with
          defense := raised } 5, .hardened asset.name asset.defense raised)
      else if action = "monitor" then
        let raised := min 100 (asset.monitoring + defense.power)
        (scored sim defense.target { asset with
          monitoring := raised } 3, .monitored asset.name asset.monitoring raised)
      else if action = "isolate" then
        (scored sim defense.target { asset with isolated := true } 7, .isolated asset.name)
      else if action = "recover" then
        if asset.compromised then
          (scored sim defense.target { asset with compromised := false } 20, .recovered asset.name)
        else (sim, .recoverNoop asset.name)
      else (sim, .unknownAction action asset.name)

/-- An empty name in prerequisite_path asks for nothing. -/
def checkPrerequisiteOrIsolation (sim : AttackDefenseSimulator) (target : String) :
    Except String (Option Blocked) :=
  do
  let asset ← assetOf sim target
  if asset.isolated then return some .isolated
  match scenario.prerequisitePath.get? target with
  | none => return none
  | some required =>
      if required = "" then return none
      let before ← assetOf sim required
      return if before.compromised then none else some (.missingPrerequisite required)

def compromise (sim : AttackDefenseSimulator) (target : String) (asset : Asset) : AttackDefenseSimulator :=
  let hit := { sim with assets := sim.assets.set target { asset with compromised := true } }
  if target ∈ sim.scoredCompromise then hit
  else { hit with
    attackerScore := sim.attackerScore + 25, scoredCompromise := sim.scoredCompromise ++ [target] }

def applyAttack (sim : AttackDefenseSimulator) (attack : AttackMove) :
    Except String (AttackDefenseSimulator × AttackEvent) :=
  match sim.assets.get? attack.target with
  | none => .ok (sim, .unknownTarget attack.target)
  | some asset =>
      match checkPrerequisiteOrIsolation scenario sim attack.target with
      | .error missing => .error missing
      | .ok (some reason) =>
          .ok ({ sim with defenderScore := sim.defenderScore + 10 }, .blocked attack.target reason)
      | .ok none =>
          let effectiveAttack : ℚ := attack.strength + asset.vulnerability / 2
          let effectiveDefense := asset.defense + asset.monitoring
          if effectiveDefense + 20 < effectiveAttack then
            .ok (compromise sim attack.target asset,
              .success attack.target attack.technique effectiveAttack effectiveDefense)
          else
            .ok ({ sim with defenderScore := sim.defenderScore + 10 },
              .failed attack.target attack.technique effectiveAttack effectiveDefense)

def applyDefenses (sim : AttackDefenseSimulator) :
    List DefenseMove → AttackDefenseSimulator × List DefenseEvent
  | [] => (sim, [])
  | defense :: rest =>
      let (next, event) := applyDefense lower sim defense
      let (last, events) := applyDefenses next rest
      (last, event :: events)

def applyAttacks (sim : AttackDefenseSimulator) :
    List AttackMove → Except String (AttackDefenseSimulator × List AttackEvent)
  | [] => .ok (sim, [])
  | attack :: rest => do
      let (next, event) ← applyAttack scenario sim attack
      let (last, events) ← applyAttacks next rest
      return (last, event :: events)

structure RoundResult where
  index : Nat
  defensesApplied : List DefenseEvent
  attackEvents : List AttackEvent
  deriving DecidableEq

def applyRounds (sim : AttackDefenseSimulator) (idx : Nat) :
    List RoundPlan → Except String (AttackDefenseSimulator × List RoundResult)
  | [] => .ok (sim, [])
  | plan :: rest => do
      let (defended, defensesApplied) := applyDefenses lower sim plan.defenses
      let (attacked, attackEvents) ← applyAttacks scenario defended plan.attacks
      let (last, results) ← applyRounds attacked (idx + 1) rest
      return (last, ⟨idx, defensesApplied, attackEvents⟩ :: results)

structure FinalAsset where
  vulnerability : Int
  defense : Int
  compromised : Nat
  isolated : Nat
  monitoring : Int
  deriving DecidableEq

structure SimulationReport where
  scenarioName : String
  objectiveTarget : String
  objectiveReached : Bool
  winner : String
  attackerScore : Int
  defenderScore : Int
  compromisedAssets : List String
  rounds : List RoundResult
  finalState : Dict String FinalAsset
  deriving DecidableEq

def finalState (sim : AttackDefenseSimulator) : Dict String FinalAsset :=
  sim.assets.mapEntries fun _ asset =>
    ⟨asset.vulnerability, asset.defense, asset.compromised.toNat, asset.isolated.toNat, asset.monitoring⟩

def reportOf (last : AttackDefenseSimulator) (rounds : List RoundResult) (objective : Asset) :
    SimulationReport where
  scenarioName := scenario.name
  objectiveTarget := scenario.objectiveTarget
  objectiveReached := objective.compromised
  winner := if objective.compromised then "attacker" else "defender"
  attackerScore := if objective.compromised then last.attackerScore + 100 else last.attackerScore
  defenderScore := last.defenderScore
  compromisedAssets := (last.assets.entries.filter fun entry => entry.2.compromised).map Prod.fst
  rounds := rounds
  finalState := finalState last

def run : Except String SimulationReport := do
  let (last, rounds) ← applyRounds lower scenario (init scenario) 1 scenario.rounds
  let objective ← assetOf last scenario.objectiveTarget
  return reportOf scenario last rounds objective

end Moves
end KosSim.Simulator
