import Mathlib.Data.List.Defs

/-!
eno_checker.py: the checker-result vocabulary that is stored and scored, and the
client of the checker protocol. `other` is any status text outside the ladder.
-/

namespace KosSim.EnoChecker

inductive CheckerStatus where
  | success
  | recovering
  | mumble
  | flagMissing
  | offline
  | timeout
  | crashed
  | other (text : String)
  deriving DecidableEq, Repr

/-- The values of flag_avail; scoring asks only whether an entry is "OK". -/
inductive FlagAvail where
  | ok
  | missing
  deriving DecidableEq, Repr

def isUp (status : CheckerStatus) : Bool := status = .success || status = .recovering

/-! The client. -/

structure CheckerInfo where
  serviceName : String
  flagVariants : Int
  noiseVariants : Int
  havocVariants : Int
  deriving DecidableEq

structure TaskResult where
  result : String
  message : Option String := none
  attackInfo : Option String := none
  deriving DecidableEq

/-- What comes back from the POST of a task. -/
inductive Response where
  | timeout
  | unreachable (text : String)
  | status (code : Nat)
  | notJson
  | notObject                    -- JSON without keys: data.get raises
  | answer (result : Option String) (message attackInfo : Option String)
  deriving DecidableEq

/-- None is an exception that _post_task lets through. -/
def postTask : Response → Option TaskResult
  | .timeout => some ⟨"INTERNAL_ERROR", some "TIMEOUT", none⟩
  | .unreachable text => some ⟨"OFFLINE", some text, none⟩
  | .status code => some ⟨"OFFLINE", some ("http " ++ toString code), none⟩
  | .notJson => some ⟨"MUMBLE", some "bad json", none⟩
  | .notObject => none
  | .answer result message attackInfo => some ⟨result.getD "INTERNAL_ERROR", message, attackInfo⟩

/-! The status ladder. -/

/-- _STATUS_RANK -/
def statusRank : CheckerStatus → Option Nat
  | .crashed => some 0
  | .timeout => some 1
  | .offline => some 2
  | .mumble => some 3
  | .flagMissing => some 3
  | .recovering => some 4
  | .success => some 5
  | .other _ => none

def ladder : List (String × CheckerStatus) :=
  [("CRASHED", .crashed), ("TIMEOUT", .timeout), ("OFFLINE", .offline), ("MUMBLE", .mumble),
    ("FLAGMISSING", .flagMissing), ("RECOVERING", .recovering), ("SUCCESS", .success)]

def downgrade (current new : CheckerStatus) : CheckerStatus :=
  let new := if (statusRank new).isNone then .mumble else new
  match statusRank current, statusRank new with
  | some held, some offered => if held ≤ offered then current else new
  | _, _ => new

def normalize (status : String) : CheckerStatus :=
  match ladder.lookup status with
  | some known => known
  | none => if status = "OK" then .success else if status = "INTERNAL_ERROR" then .crashed else .mumble

/-- Only "OK" and "SUCCESS" leave a service at SUCCESS. -/
theorem normalize_success_iff (status : String) :
    normalize status = .success ↔ status = "OK" ∨ status = "SUCCESS" := by
  unfold normalize
  constructor
  · intro same
    split at same
    · next known found =>
      subst same
      obtain ⟨before, after, listed, _⟩ := List.lookup_eq_some_iff.mp found
      have member : (status, CheckerStatus.success) ∈ ladder := by
        rw [listed]
        exact List.mem_append_right before List.mem_cons_self
      right
      simpa [ladder] using member
    · split at same
      · next ok => exact Or.inl ok
      · split at same <;> cases same
  · rintro (rfl | rfl)
    · decide
    · decide

theorem downgrade_success_iff (current new : CheckerStatus) :
    downgrade current new = .success ↔ current = .success ∧ new = .success ∨
      (statusRank current = none ∧ new = .success) := by
  cases current <;> cases new <;> simp [downgrade, statusRank]

/-! derive_method_statuses: the three badges of a cell, from what is stored. -/

inductive MethodStatus where
  | ok
  | fail
  | idle
  deriving DecidableEq, Repr

/-- `overall.upper()` leaves the ladder's texts alone. -/
def upperText : CheckerStatus → String
  | .other text => if text = "" then "OFFLINE" else text.toUpper
  | status => ((ladder.find? fun entry => entry.2 = status).map (·.1)).getD "OFFLINE"

/-- _HARD_DOWN -/
def hardDown (overall : CheckerStatus) : Bool :=
  ["OFFLINE", "INTERNAL_ERROR", "TIMEOUT", "CRASHED"].contains (upperText overall)

def entriesStatus (overall : CheckerStatus) (entries : List FlagAvail) : MethodStatus :=
  if entries ≠ [] then if entries.all fun entry => entry = .ok then .ok else .fail
  else if hardDown overall then .fail
  else .idle

/-- put, get and havoc; the keys of flag_avail are (tick, payload). -/
def deriveMethodStatuses (overall : CheckerStatus) (avail : List ((Int × Int) × FlagAvail))
    (currentTick : Option Int) : MethodStatus × MethodStatus × MethodStatus :=
  match currentTick with
  | none => (.idle, .idle, .idle)
  | some tick =>
      let put := entriesStatus overall ((avail.filter fun entry => entry.1.1 = tick).map (·.2))
      let got := entriesStatus overall ((avail.filter fun entry => entry.1.1 ≠ tick).map (·.2))
      let havoc := if ["SUCCESS", "RECOVERING"].contains (upperText overall) then MethodStatus.ok
        else if put = .ok ∧ (got = .ok ∨ got = .idle) then .fail
        else .idle
      (put, got, havoc)

end KosSim.EnoChecker
