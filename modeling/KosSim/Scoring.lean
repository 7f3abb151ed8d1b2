import Mathlib.Data.Finset.Basic
import Mathlib.Data.Finset.Insert
import Mathlib.Data.Rat.Defs
import Mathlib.Algebra.Order.Field.Rat
import KosSim.EnoChecker
import KosSim.FlagCrypto
import KosSim.Library.Dict

/-!
scoring.py: positive attack/defense scoring of one tick. Floats are read as exact
rationals. The passes over the dictionary of new points are kept in the order of
the source: health, captures, defence, accumulation, attack state.
-/

namespace KosSim.Scoring
open Library EnoChecker FlagCrypto

def baseAttackPoints : Rat := 10
def baseDefensePoints : Rat := 5

structure TeamPointsLite where
  teamId : Int
  serviceId : Int
  tick : Int
  offPoints : Rat := 0
  defPoints : Rat := 0
  slaPoints : Rat := 0
  slaDelta : Rat := 0
  flagCapturedCount : Int := 0
  flagStolenCount : Int := 0
  deriving DecidableEq

structure ServiceSpec where
  id : Int
  name : String
  numPayloads : Int := 1
  flagsPerTick : Int := 1
  deriving DecidableEq

structure StolenFlag where
  targetTeamId : Int
  submitterTeamId : Int
  serviceId : Int
  tickIssued : Int
  payload : Int
  flag : Text
  numPreviousSubmissions : Int
  numSubmissions : Int
  previousSubmitterIds : List Int
  deriving DecidableEq

/-- A (team, service) pair, and a (tick_issued, service, payload) flag. -/
abbrev Pair := Int × Int
abbrev FlagKey := Int × Int × Int
abbrev CheckResult := CheckerStatus × Option (Dict (Int × Int) FlagAvail)
abbrev CheckerResults := Dict Int (Dict Pair CheckResult)
abbrev Attacking := Dict FlagKey (Dict Int (Finset Int))
abbrev TickPoints := Dict Pair TeamPointsLite

/-- The Python expression a or b or 1 on integers. -/
def firstNonzero (a b : Int) : Int := if a ≠ 0 then a else if b ≠ 0 then b else 1

def flagstoreCount (service : ServiceSpec) : Rat :=
  max (firstNonzero service.flagsPerTick service.numPayloads : Rat) 1

def attackPoints (service : ServiceSpec) : Rat := baseAttackPoints / flagstoreCount service

def defensePoints (service : ServiceSpec) : Rat := baseDefensePoints * flagstoreCount service

def intRange (first stop : Int) : List Int :=
  (List.range (stop - first).toNat).map fun (i : Nat) => first + (i : Int)

theorem mem_int_range (first stop value : Int) :
    value ∈ intRange first stop ↔ first ≤ value ∧ value < stop := by
  unfold intRange
  rw [List.mem_map]
  constructor
  · rintro ⟨offset, inside, rfl⟩
    have below := List.mem_range.mp inside
    omega
  · rintro ⟨low, high⟩
    exact ⟨(value - first).toNat, List.mem_range.mpr (by omega), by omega⟩

def storeCount (service : ServiceSpec) : Int :=
  max (firstNonzero service.numPayloads service.flagsPerTick) 1

/-- The flag_avail keys that count, one per tick of the window and flag store. -/
def expectedFlags (currentTick retention : Int) (service : ServiceSpec) : List (Int × Int) :=
  (intRange (currentTick - retention + 1) (currentTick + 1)).flatMap fun relatedTick =>
    (intRange 0 (storeCount service)).map fun storeId => (relatedTick, storeId)

def serviceHealth (currentTick : Int) (service : ServiceSpec) (retention : Int)
    (result : CheckResult) : Rat :=
  if result.1 = .success then 1
  else if result.1 ≠ .recovering then 0
  else match result.2 with
    | none => 0
    | some getflags =>
        let expected := retention * storeCount service
        let ok := (expectedFlags currentTick retention service).countP fun key =>
          getflags.get? key = some .ok
        (ok : Rat) / (max expected 1 : Int)

def validFlagSubmission (currentTick retention : Int) (nopTeamId : Option Int) (flag : StolenFlag) : Bool :=
  if nopTeamId = some flag.targetTeamId ∨ nopTeamId = some flag.submitterTeamId then false
  else if flag.submitterTeamId = flag.targetTeamId then false
  else if flag.tickIssued ≤ currentTick - retention then false
  else true

def servicesById (services : List ServiceSpec) : Dict Int ServiceSpec :=
  Dict.ofList (services.map fun service => (service.id, service))

def initialPoints (currentTick : Int) (services : List ServiceSpec) (teamIds : List Int) : TickPoints :=
  Dict.ofList (teamIds.flatMap fun teamId =>
    services.map fun service => ((teamId, service.id), ⟨teamId, service.id, currentTick, 0, 0, 0, 0, 0, 0⟩))

def checkResult (checkerResults : CheckerResults) (currentTick : Int) (pair : Pair) : CheckResult :=
  (((checkerResults.get? currentTick).getD Dict.empty).get? pair).getD (.offline, none)

/-- services_by_id[service_id] with a default; every key of the points has its service. -/
def specOf (services : List ServiceSpec) (serviceId : Int) : ServiceSpec :=
  ((servicesById services).get? serviceId).getD ⟨serviceId, "", 1, 1⟩

def pairHealth (currentTick retention : Int) (services : List ServiceSpec) (checkerResults : CheckerResults)
    (pair : Pair) : Rat :=
  serviceHealth currentTick (specOf services pair.2) retention (checkResult checkerResults currentTick pair)

structure CaptureState where
  points : TickPoints
  hackedServices : Finset Pair
  stolenFlagsSeen : Finset (Text × Int × Int × Int)
  newAttacking : Attacking

def noteAttack (attacking : Attacking) (flag : StolenFlag) : Attacking :=
  let key := (flag.tickIssued, flag.serviceId, flag.payload)
  let bucket := (attacking.get? key).getD Dict.empty
  attacking.set key
    (bucket.set flag.submitterTeamId
      (insert flag.targetTeamId ((bucket.get? flag.submitterTeamId).getD ∅)))

def creditAttacker (service : ServiceSpec) (points : TeamPointsLite) : TeamPointsLite :=
  { points with
    flagCapturedCount := points.flagCapturedCount + 1
    offPoints := points.offPoints + attackPoints service }

def creditVictim (points : TeamPointsLite) : TeamPointsLite :=
  { points with flagStolenCount := points.flagStolenCount + 1 }

def recordCapture (currentTick retention : Int) (nopTeamId : Option Int) (services : List ServiceSpec)
    (state : CaptureState) (flag : StolenFlag) : CaptureState :=
  if validFlagSubmission currentTick retention nopTeamId flag = false then state
  else match (servicesById services).get? flag.serviceId,
      state.points.get? (flag.submitterTeamId, flag.serviceId),
      state.points.get? (flag.targetTeamId, flag.serviceId) with
    | some service, some _, some _ =>
        let credited := state.points.modify (flag.submitterTeamId, flag.serviceId) (creditAttacker service)
        let seenKey := (flag.flag, flag.tickIssued, flag.serviceId, flag.payload)
        let newlyStolen := seenKey ∉ state.stolenFlagsSeen ∧ flag.numPreviousSubmissions = 0
        { points :=
            if newlyStolen then credited.modify (flag.targetTeamId, flag.serviceId) creditVictim
              else credited
          hackedServices := insert (flag.targetTeamId, flag.serviceId) state.hackedServices
          stolenFlagsSeen := insert seenKey state.stolenFlagsSeen
          newAttacking := noteAttack state.newAttacking flag }
    | _, _, _ => state

def awardDefense (nopTeamId : Option Int) (services : List ServiceSpec) (hacked : Finset Pair)
    (pair : Pair) (points : TeamPointsLite) : TeamPointsLite :=
  if nopTeamId = some pair.1 then points
  else if pair ∈ hacked then points
  else if points.slaDelta ≤ 0 then points
  else { points with defPoints := points.defPoints + defensePoints (specOf services pair.2) }

def accumulate (currentTick : Int) (lastTickPoints : TickPoints) (pair : Pair) (points : TeamPointsLite) :
    TeamPointsLite :=
  match lastTickPoints.get? pair with
  | some prev =>
      { points with
        offPoints := points.offPoints + prev.offPoints
        defPoints := points.defPoints + prev.defPoints
        slaPoints := (prev.slaPoints * (currentTick - 1) + points.slaDelta) / currentTick
        flagCapturedCount := points.flagCapturedCount + prev.flagCapturedCount
        flagStolenCount := points.flagStolenCount + prev.flagStolenCount }
  | none => { points with slaPoints := points.slaDelta / (max currentTick 1 : Int) }

def mergeAttacking (prevAttacking newAttacking : Attacking) : Attacking :=
  newAttacking.entries.foldl (fun merged entry =>
    let bucket := (merged.get? entry.1).getD Dict.empty
    merged.set entry.1 (entry.2.entries.foldl (fun filled victims =>
      filled.set victims.1 (((filled.get? victims.1).getD ∅) ∪ victims.2)) bucket)) prevAttacking

def calculateScoringForTick (currentTick : Int) (services : List ServiceSpec) (teamIds : List Int)
    (nopTeamId : Option Int) (retention : Int) (checkerResults : CheckerResults)
    (lastTickPoints : TickPoints) (prevAttacking : Attacking) (flags : List StolenFlag) :
    TickPoints × Attacking :=
  let checked := (initialPoints currentTick services teamIds).mapEntries fun pair points =>
    { points with slaDelta := pairHealth currentTick retention services checkerResults pair }
  let captured := flags.foldl (recordCapture currentTick retention nopTeamId services)
    ⟨checked, ∅, ∅, Dict.empty⟩
  let defended := captured.points.mapEntries (awardDefense nopTeamId services captured.hackedServices)
  (defended.mapEntries (accumulate currentTick lastTickPoints),
    mergeAttacking prevAttacking captured.newAttacking)

end KosSim.Scoring
