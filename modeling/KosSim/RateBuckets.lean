import KosSim.Library.Dict
import KosSim.Library.TokenBucket
import Mathlib.Data.Rat.Floor

/-!
The rate limits of LedgerForge (ratelimit.rs) and SpecterLog (ratelimit.ts): a table of tokens for
each client and route class, in rationals where the services have doubles. A call that finds a token
takes it, and one that does not is told how long the missing part takes to flow in. So a window of
time admits no more calls than the capacity and what flows in, and who waits as long as told is
admitted.
-/

namespace KosSim.RateBuckets
open Library

structure Bucket where
  capacity : ℚ
  refillPerSecond : ℚ
  deriving DecidableEq

/-- rate_buckets: tokens and refilled_at. -/
abbrev Table := Dict String (ℚ × Int)

/-- Milliseconds of a date, as both clocks give them; the difference of two fits an i64. -/
def Instant := {ms : Int // -4611686018427387904 ≤ ms ∧ ms < 4611686018427387904}

instance : LE Instant := ⟨fun one other => one.1 ≤ other.1⟩

def seconds (ms : Int) : ℚ := ms / 1000

/-! The sources. -/

namespace LedgerForge

def default : Bucket := ⟨60, 1⟩
def auth : Bucket := ⟨10, 1 / 5⟩
def write : Bucket := ⟨12, 1 / 2⟩

def pick (uriPath method : String) : Option (Bucket × String) :=
  if uriPath.startsWith "/api/accounts/register" ||
    uriPath.startsWith "/api/accounts/login" then some (auth, "auth")
  else if uriPath = "/" ∧ method = "POST" then none
  else if uriPath.startsWith "/api/" ∧
    method ∈ ["POST", "PATCH", "PUT", "DELETE"] then some (write, "write")
  else none

/-- A cast to i64 saturates. -/
def asI64 (n : Int) : Int := max (-9223372036854775808) (min n 9223372036854775807)

/-- The seconds to wait, where the call is turned away. -/
def consume (table : Table) (key : String) (bucket : Bucket) (now : Int) : Table × Option Int :=
  let (stored, last) := (table.get? key).getD (bucket.capacity, now)
  let elapsedMs : ℚ := (max (now - last) 0 : Int)
  let tokens := min (stored + elapsedMs / 1000 * bucket.refillPerSecond) bucket.capacity
  if tokens < 1 then
    (table.set key (tokens, now),
      some (if 0 < bucket.refillPerSecond then asI64 ⌈(1 - tokens) / bucket.refillPerSecond⌉ else 60))
  else (table.set key (tokens - 1, now), none)

end LedgerForge

namespace SpecterLog

def defaults : List (String × Bucket) :=
  [("default", ⟨60, 1⟩), ("auth", ⟨10, 1 / 5⟩), ("upload", ⟨12, 1 / 2⟩)]

structure Verdict where
  ok : Bool
  remaining : Int
  retryAfter : Int
  deriving DecidableEq

def consume (table : Table) (key : String) (bucket : Bucket) (now : Int) : Table × Verdict :=
  let row := table.get? key
  let stored := (row.map Prod.fst).getD bucket.capacity
  let last := (row.map Prod.snd).getD now
  let elapsed : ℚ := (max 0 (now - last) : Int) / 1000
  let tokens := min bucket.capacity (stored + elapsed * bucket.refillPerSecond)
  if tokens < 1 then
    let retry := if 0 < bucket.refillPerSecond then ⌈(1 - tokens) / bucket.refillPerSecond⌉ else 60
    (table.set key (tokens, now), ⟨false, 0, retry⟩)
  else (table.set key (tokens - 1, now), ⟨true, ⌊tokens - 1⌋, 0⟩)

/-- The bucket of `enforce`; a name without one takes the default. -/
def bucketOf (name : String) : Bucket :=
  ((defaults.find? fun entry => entry.1 = name).map Prod.snd).getD ⟨60, 1⟩

end SpecterLog

/-! Calls on one key, each with its retry_after where it is turned away. -/

def ledgerCall (bucket : Bucket) (key : String) (table : Table) (now : Int) : Table × Option Int :=
  LedgerForge.consume table key bucket now

def specterCall (bucket : Bucket) (key : String) (table : Table) (now : Int) : Table × Option Int :=
  let (next, verdict) := SpecterLog.consume table key bucket now
  (next, if verdict.ok then none else some verdict.retryAfter)

section Calls
variable (bucket : Bucket) (key : String) (call : Table → Int → Table × Option Int)

def callAll : Table → List Instant → Table × List (Instant × Option Int)
  | table, [] => (table, [])
  | table, now :: later =>
      ((callAll (call table now.1).1 later).1,
        (now, (call table now.1).2) :: (callAll (call table now.1).1 later).2)

def admittedIn (start width : ℚ) (answer : Instant × Option Int) : Bool :=
  answer.2.isNone && decide (start ≤ seconds answer.1.1 ∧ seconds answer.1.1 ≤ start + width)

/-- The tokens that a call finds: those of the row and what has flowed in since, up to the capacity. -/
def tokensAt (table : Table) (now : Int) : ℚ :=
  match table.get? key with
  | some row => min bucket.capacity (row.1 + max 0 (seconds now - seconds row.2) * bucket.refillPerSecond)
  | none => bucket.capacity

/-- What the limit promises of the calls on a key. `asInt` is the service's cast of the rounded wait. -/
structure RateKept (asInt : Int → Int) (table : Table) (calls : List Instant) : Prop where
  stored : ∀ row, (callAll call table calls).1.get? key = some row → 0 ≤ row.1 ∧ row.1 ≤ bucket.capacity
  window : ∀ start width : ℚ, 0 ≤ width →
    ((callAll call table calls).2.countP (admittedIn start width) : ℚ) ≤
      bucket.capacity + bucket.refillPerSecond * width
  answered : ∀ before now after, calls = before ++ now :: after →
    (call (callAll call table before).1 now.1).2 =
      if 1 ≤ tokensAt bucket key (callAll call table before).1 now.1 then none
      else some (asInt ⌈(1 - tokensAt bucket key (callAll call table before).1
        now.1) / bucket.refillPerSecond⌉)
  charged : ∀ before now after, calls = before ++ now :: after →
    (call (callAll call table before).1 now.1).1.get? key =
      some (tokensAt bucket key (callAll call table before).1 now.1 -
        if 1 ≤ tokensAt bucket key (callAll call table before).1 now.1 then 1 else 0, now.1)
  retried : ∀ before now after retry, calls = before ++ now :: after →
    (call (callAll call table before).1 now.1).2 = some retry →
    ∀ later : Instant, seconds now.1 + retry ≤ seconds later.1 →
      (call (call (callAll call table before).1 now.1).1 later.1).2 = none

end Calls

/-! Each service draws from the same bucket. -/

section Draws
variable {bucket : Bucket} (room : 1 ≤ bucket.capacity) (flows : 0 < bucket.refillPerSecond) (key : String)

def tokenBucket : TokenBucket ℚ := ⟨bucket.capacity, bucket.refillPerSecond, room, flows⟩

/-- The level that the row stands for; a missing row is a full bucket. -/
def Held (bucket : Bucket) (key : String) (table : Table) (level : Level ℚ) : Prop :=
  match table.get? key with
  | some row => level = ⟨row.1, seconds row.2⟩
  | none => level.tokens = bucket.capacity

/-- One call is a draw, and the seconds it names are those in which the missing part of a token flows in. -/
structure Draws (asInt : Int → Int) (call : Table → Int → Table × Option Int) : Prop where
  row : ∀ table level now, Held bucket key table level →
    (call table now).1.get? key = some (((tokenBucket room flows).draw level (seconds now)).1.tokens, now)
  answer : ∀ table level now, Held bucket key table level →
    (call table now).2 =
      if (tokenBucket room flows).filled level (seconds now) < 1 then
        some (asInt ⌈(1 - (tokenBucket room flows).filled level (seconds now)) / bucket.refillPerSecond⌉)
      else none
  reached : ∀ (wait : Int) (now later : Instant), seconds now.1 + asInt wait ≤ seconds later.1 →
    (wait : ℚ) ≤ seconds later.1 - seconds now.1

theorem elapsed_seconds (now last : Int) :
    ((max 0 (now - last) : Int) : ℚ) / 1000 = max 0 (seconds now - seconds last) := by
  unfold seconds
  rcases le_total now last with back | on
  · have casted : (now : ℚ) ≤ last := Int.cast_le.mpr back
    rw [max_eq_left (by omega), max_eq_left (by linarith), Int.cast_zero, zero_div]
  · have casted : (last : ℚ) ≤ now := Int.cast_le.mpr on
    rw [max_eq_right (by omega), max_eq_right (by linarith), Int.cast_sub, sub_div]

/-- Both services compute what the bucket holds. -/
theorem refilled {table : Table} {level : Level ℚ} (held : Held bucket key table level) (now : Int) :
    min bucket.capacity (((table.get? key).map Prod.fst).getD bucket.capacity +
      ((max 0 (now - ((table.get? key).map Prod.snd).getD now) : Int) :
        ℚ) / 1000 * bucket.refillPerSecond) =
      (tokenBucket room flows).filled level (seconds now) := by
  unfold Held at held
  rw [elapsed_seconds]
  cases found : table.get? key with
  | some row =>
      rw [found] at held
      rw [held]
      rfl
  | none =>
      rw [found] at held
      -- A full bucket stays full, whatever has flowed in.
      have inflow : 0 ≤ max 0 (seconds now - level.time) * bucket.refillPerSecond :=
        mul_nonneg (le_max_left _ _) flows.le
      show min bucket.capacity
        (bucket.capacity + max 0 (seconds now - seconds now) * bucket.refillPerSecond) =
        min bucket.capacity (level.tokens + max 0 (seconds now - level.time) * bucket.refillPerSecond)
      rw [sub_self, max_self, zero_mul, add_zero, min_self, min_eq_left (by linarith)]

theorem tokens_at {table : Table} {level : Level ℚ} (held : Held bucket key table level) (now : Int) :
    tokensAt bucket key table now = (tokenBucket room flows).filled level (seconds now) := by
  rw [← refilled room flows key held now, elapsed_seconds, tokensAt]
  cases table.get? key with
  | some row => rfl
  | none =>
      show bucket.capacity =
        min bucket.capacity (bucket.capacity + max 0 (seconds now - seconds now) * bucket.refillPerSecond)
      rw [sub_self, max_self, zero_mul, add_zero, min_self]

/-- Between two clock values there is no time for a saturated cast. -/
theorem saturated_wait {now later : Instant} {wait : Int}
    (reached : seconds now.1 + LedgerForge.asI64 wait ≤ seconds later.1) :
    (wait : ℚ) ≤ seconds later.1 - seconds now.1 := by
  have nowLow := now.2.1
  have laterHigh := later.2.2
  -- The cast is at most i64::MAX seconds, more than lies between two clock values.
  have small : 1000 * LedgerForge.asI64 wait ≤ later.1 - now.1 := by
    unfold seconds at reached
    have scaled : (1000 * LedgerForge.asI64 wait : ℚ) ≤ later.1 - now.1 := by linarith
    exact_mod_cast scaled
  have kept : wait ≤ LedgerForge.asI64 wait := by
    unfold LedgerForge.asI64 at small ⊢
    omega
  have casted : (wait : ℚ) ≤ LedgerForge.asI64 wait := Int.cast_le.mpr kept
  linarith

theorem ledger_draws : Draws room flows key LedgerForge.asI64 (ledgerCall bucket key) := by
  have tokens (table : Table) (level : Level ℚ) (now : Int) (held : Held bucket key table level) :
      min (((table.get? key).getD (bucket.capacity, now)).1 +
        ((max (now - ((table.get? key).getD (bucket.capacity, now)).2) 0 : Int) :
          ℚ) / 1000 * bucket.refillPerSecond)
        bucket.capacity = (tokenBucket room flows).filled level (seconds now) := by
    rw [← refilled room flows key held now, min_comm, max_comm]
    cases table.get? key with
    | none => rfl
    | some row => rfl
  constructor
  · intro table level now held
    have value := tokens table level now held
    unfold ledgerCall LedgerForge.consume TokenBucket.draw
    dsimp only
    rw [value]
    split
    · exact Dict.get_set_self _ _ _
    · exact Dict.get_set_self _ _ _
  · intro table level now held
    have value := tokens table level now held
    unfold ledgerCall LedgerForge.consume
    dsimp only
    rw [value, if_pos flows]
    split
    · rfl
    · rfl
  · exact fun wait now later reached => saturated_wait reached

theorem specter_draws : Draws room flows key id (specterCall bucket key) := by
  constructor
  · intro table level now held
    have value := refilled room flows key held now
    unfold specterCall SpecterLog.consume TokenBucket.draw
    dsimp only
    rw [value]
    split
    · exact Dict.get_set_self _ _ _
    · exact Dict.get_set_self _ _ _
  · intro table level now held
    have value := refilled room flows key held now
    unfold specterCall SpecterLog.consume
    dsimp only
    rw [value, if_pos flows]
    split
    · rfl
    · rfl
  · intro wait now later reached
    rw [id_eq] at reached
    linarith

/-! Runs. -/

variable {key} {asInt : Int → Int} {call : Table → Int → Table × Option Int}
    (draws : Draws room flows key asInt call)
include draws

theorem call_none {table : Table} {level : Level ℚ} (held : Held bucket key table level) (now : Int) :
    (call table now).2.isNone = ((tokenBucket room flows).draw level (seconds now)).2 := by
  rw [draws.answer table level now held, TokenBucket.draw]
  split
  · rfl
  · rfl

theorem held_after {table : Table} {level : Level ℚ} (held : Held bucket key table level) (now : Int) :
    Held bucket key (call table now).1 ((tokenBucket room flows).draw level (seconds now)).1 := by
  unfold Held
  rw [draws.row table level now held]
  have time := TokenBucket.draw_time (tokenBucket room flows) level (seconds now)
  exact congrArg (Level.mk ((tokenBucket room flows).draw level (seconds now)).1.tokens) time

/-- The calls are the draws, and the row is the level at the end. -/
theorem call_all {table : Table} {level : Level ℚ} (held : Held bucket key table level)
    (within : (tokenBucket room flows).Within level) (calls : List Instant) :
    (∃ last, Held bucket key (callAll call table calls).1 last ∧ (tokenBucket room flows).Within last) ∧
      (callAll call table calls).2.map (fun answer => (seconds answer.1.1, answer.2.isNone)) =
        (tokenBucket room flows).drawAll level (calls.map fun now => seconds now.1) := by
  induction calls generalizing table level with
  | nil => exact ⟨⟨level, held, within⟩, rfl⟩
  | cons now later ih =>
      obtain ⟨last, answers⟩ := ih (held_after room flows draws held now.1)
        ((tokenBucket room flows).draw_within within (seconds now.1))
      refine ⟨last, ?_⟩
      rw [callAll, List.map_cons, List.map_cons, TokenBucket.drawAll, ← answers,
        call_none room flows draws held now.1]

theorem rate_kept {table : Table} (fresh : table.get? key = none) {calls : List Instant}
    (ordered : calls.Pairwise (· ≤ ·)) : RateKept bucket key call asInt table calls := by
  have held : Held bucket key table ⟨bucket.capacity, 0⟩ := by
    unfold Held
    rw [fresh]
  have within : (tokenBucket room flows).Within ⟨bucket.capacity, 0⟩ := ⟨zero_le_one.trans room, le_refl _⟩
  constructor
  · intro row found
    obtain ⟨⟨last, stands, inside⟩, -⟩ := call_all room flows draws held within calls
    unfold Held at stands
    rw [found] at stands
    rw [stands] at inside
    exact inside
  · intro start width wide
    obtain ⟨-, answers⟩ := call_all room flows draws held within calls
    have times : (calls.map fun now => seconds now.1).Pairwise (· ≤ ·) := by
      rw [List.pairwise_map]
      refine ordered.imp fun {one other} before => ?_
      exact div_le_div_of_nonneg_right (Int.cast_le.mpr before) (by norm_num)
    have bound := (tokenBucket room flows).accepted_within within times start wide
    rw [← answers, List.countP_map, mul_comm] at bound
    exact bound
  · intro before now after _
    obtain ⟨⟨level, stands, -⟩, -⟩ := call_all room flows draws held within before
    rw [tokens_at room flows key stands, draws.answer _ level now.1 stands]
    by_cases short : (tokenBucket room flows).filled level (seconds now.1) < 1
    · rw [if_pos short, if_neg (not_le.mpr short)]
    · rw [if_neg short, if_pos (not_lt.mp short)]
  · intro before now after _
    obtain ⟨⟨level, stands, -⟩, -⟩ := call_all room flows draws held within before
    rw [tokens_at room flows key stands, draws.row _ level now.1 stands, TokenBucket.draw]
    by_cases short : (tokenBucket room flows).filled level (seconds now.1) < 1
    · rw [if_pos short, if_neg (not_le.mpr short), sub_zero]
    · rw [if_neg short, if_pos (not_lt.mp short)]
  · intro before now after retry _ refused later reached
    obtain ⟨⟨level, stands, -⟩, -⟩ := call_all room flows draws held within before
    have turned : ((tokenBucket room flows).draw level (seconds now.1)).2 = false := by
      rw [← call_none room flows draws stands, refused]
      rfl
    have named := refused
    rw [draws.answer _ level now.1 stands] at named
    split at named
    · rw [← Option.some.inj named] at reached
      have long := (Int.le_ceil _).trans (draws.reached _ now later reached)
      have taken := (tokenBucket room flows).waited turned long
      rw [← call_none room flows draws (held_after room flows draws stands now.1)] at taken
      exact Option.isNone_iff_eq_none.mp taken
    · cases named

end Draws

/-- Every bucket that the services choose meets the conditions. -/
theorem picked_bucket_flows {uriPath method route : String} {bucket : Bucket}
    (picked : LedgerForge.pick uriPath method = some (bucket, route)) :
    1 ≤ bucket.capacity ∧ 0 < bucket.refillPerSecond := by
  unfold LedgerForge.pick at picked
  split at picked
  · cases picked
    exact ⟨by norm_num [LedgerForge.auth], by norm_num [LedgerForge.auth]⟩
  split at picked
  · cases picked
  split at picked
  · cases picked
    exact ⟨by norm_num [LedgerForge.write], by norm_num [LedgerForge.write]⟩
  · cases picked

theorem named_bucket_flows (name : String) :
    1 ≤ (SpecterLog.bucketOf name).capacity ∧ 0 < (SpecterLog.bucketOf name).refillPerSecond := by
  have listed : ∀ entry ∈ SpecterLog.defaults, 1 ≤ entry.2.capacity ∧ 0 < entry.2.refillPerSecond := by
    norm_num [SpecterLog.defaults]
  unfold SpecterLog.bucketOf
  cases found : SpecterLog.defaults.find? fun entry => entry.1 = name with
  | none => exact ⟨by norm_num, by norm_num⟩
  | some entry => exact listed entry (List.mem_of_find?_eq_some found)

/-- Both services keep the rate on every key, from its first call on. -/
theorem buckets_enforce_rate {bucket : Bucket} (room : 1 ≤ bucket.capacity)
    (flows : 0 < bucket.refillPerSecond) {key : String} {table : Table}
    (fresh : table.get? key = none) {calls : List Instant} (ordered : calls.Pairwise (· ≤ ·)) :
    RateKept bucket key (ledgerCall bucket key) LedgerForge.asI64 table calls ∧
      RateKept bucket key (specterCall bucket key) id table calls :=
  ⟨rate_kept room flows (ledger_draws room flows key) fresh ordered,
    rate_kept room flows (specter_draws room flows key) fresh ordered⟩

def atSecond (time : Fin 1000) : Instant := ⟨1000 * time.1, by omega⟩

/-- Twelve logins at once, and one more five seconds later. -/
def logins : List Instant := List.replicate 12 (atSecond 0) ++ [atSecond 5]

/-- Ten are accepted, the other two are told to wait five seconds, and after that one gets through. -/
theorem login_rate_enforced :
    (RateKept LedgerForge.auth "10.0.0.7|auth" (ledgerCall LedgerForge.auth "10.0.0.7|auth")
        LedgerForge.asI64 Dict.empty logins ∧
      RateKept LedgerForge.auth "10.0.0.7|auth" (specterCall LedgerForge.auth "10.0.0.7|auth") id
      Dict.empty logins) ∧
      (callAll (ledgerCall LedgerForge.auth "10.0.0.7|auth") Dict.empty logins).2.map Prod.snd =
        List.replicate 10 none ++ [some 5, some 5, none] := by
  refine ⟨buckets_enforce_rate (by norm_num [LedgerForge.auth]) (by norm_num [LedgerForge.auth]) rfl ?_, ?_⟩
  · have ordered : logins.Pairwise fun one other => one.1 ≤ other.1 := by decide
    exact ordered
  · decide +kernel

end KosSim.RateBuckets
